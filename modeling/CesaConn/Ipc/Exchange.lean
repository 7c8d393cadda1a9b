import CesaConn.Ipc.Client
import CesaConn.Ipc.Server
import CesaConn.Program.Alone

/-! A request and its answer over one connection.

Both processes run as the same user and are signed as the other requires; nothing on the
way fails. Then whatever the order of their steps, the daemon's answer to the request is
what the UI reads, and both ends return.
-/

set_option autoImplicit false

namespace CesaConn

namespace Ipc

open Format Program
open Auth (Io)
open Tui (LinkErrors)

namespace Socket

open Attempt Duplex

structure World where
  base : String
  made : Created
  metadata : Metadata
  /-- The user of both processes. -/
  uid : Nat
  trusts : String → Bool
  answer : Request → Bytes

def World.access (world : World) : (op : Op) → Access (socket.Reply op)
  | .baseDir => .read 0 fun _ => some world.base
  | .createDir _ _ => .read 0 fun _ => world.made
  | .symlinkMetadata _ => .read 0 fun _ => some world.metadata
  | .connect _ => .read 0 fun _ => Io.done ()
  | .peerCred => .read 0 fun _ => some world.uid
  | .verifyPeer requirement => .read 0 fun _ => world.trusts requirement
  | .write bytes => .write bytes (Io.done ())
  | .flush => .read 0 fun _ => Io.done ()
  | .read size => .read size Io.done
  | .handle request => .read 0 fun _ => world.answer request
  | .removeFile _ | .bind _ | .setPermissions _ _ => .neither

structure World.Fine (world : World) (requirement : Option String) (policy : ClientPolicy) : Prop where
  made : world.made ≠ .failed
  secret : isPrivate world.uid world.metadata = true
  daemon : ∀ text, requirement = some text → world.trusts text = true
  client : ∀ text, policy.requirement = some text → world.trusts text = true
  answers : ∀ request, allowedLength (world.answer request).length = true

def World.reply (world : World) (body : Bytes) : Bytes :=
  (Request.decode body).elim (Response.encodeError .badRequest) world.answer

/-! ## One end at a time -/

section

variable {world : World} {inbox more last : List Bytes} {A E : Type} {result : Except E A}

def writes (body : Bytes) : List Bytes := [little 4 body.length, body]

theorem alone_writeFrame {body : Bytes} (allowed : allowedLength body.length = true) :
    Alone world.access (writeFrame body).run inbox (writes body) (.ok ()) inbox := by
  refine .ensure_bind allowed ?_
  have all (bytes : Bytes) : Alone world.access (writeAll bytes).run inbox [bytes] (.ok ()) inbox :=
    .write_bind (I := socket) (.write bytes) rfl .done
  have flushed : Alone world.access flush.run inbox [] (.ok ()) inbox := .aside_bind (I := socket) .flush rfl .done
  exact .bind_ok (all _) (.bind_ok (all body) flushed)

theorem alone_readExact {size : Nat} (block : Block size) (some : size ≠ 0) :
    Alone world.access (readExact size).run (block.toList :: inbox) [] (.ok block) inbox :=
  .read_bind (I := socket) (.read size) block rfl some .done

theorem alone_readFrame {body : Bytes} (allowed : allowedLength body.length = true) :
    Alone world.access readFrame.run (writes body) [] (.ok body) [] := by
  have bounds := Bool.and_eq_true_iff.mp allowed
  have fits : body.length ≤ maxFrameLen := of_decide_eq_true bounds.2
  have small : body.length < 256 ^ 4 := Nat.lt_of_le_of_lt fits (by decide)
  let len : Block 4 := ⟨little 4 body.length, length_little 4 body.length⟩
  have size : valueLE len.toList = body.length := valueLE_little small
  have first : Alone world.access (readExact 4).run (writes body) [] (.ok len) [body] :=
    alone_readExact len (by decide)
  refine .bind_ok first (.ensure_bind (by rwa [size]) ?_)
  rw [size]
  have second : Alone world.access (readExact body.length).run [body] [] (.ok ⟨body, rfl⟩) [] :=
    alone_readExact ⟨body, rfl⟩ (of_decide_eq_true bounds.1)
  exact .bind_ok second .done

theorem alone_verify {policy : ClientPolicy} (trusted : ∀ text, policy.requirement = some text → world.trusts text = true) :
    Alone world.access (policy.verify world.uid).run inbox [] (.ok ()) inbox := by
  refine .aside_bind (I := socket) .peerCred rfl (.require_bind rfl (.ensure_bind (beq_self_eq_true _) ?_))
  cases required : policy.requirement with
  | none => exact .done
  | some text =>
      have checked : Alone world.access (ensure (world.trusts text) .untrustedCode : Attempt socket IpcServerErrors Unit).run inbox [] (.ok ()) inbox := by
        rw [trusted text required]
        exact .done
      exact .aside_bind (I := socket) (.verifyPeer text) rfl checked

theorem alone_checkDaemon {requirement : Option String} (trusted : ∀ text, requirement = some text → world.trusts text = true) :
    Alone world.access (checkDaemon world.uid requirement).run inbox [] (.ok ()) inbox := by
  refine .aside_bind (I := socket) .peerCred rfl (.require_bind rfl (.ensure_bind (beq_self_eq_true _) ?_))
  cases requirement with
  | none => exact .done
  | some text =>
      have checked : Alone world.access (ensure (world.trusts text) .untrustedDaemon : Attempt socket LinkErrors Unit).run inbox [] (.ok ()) inbox := by
        rw [trusted text rfl]
        exact .done
      exact .aside_bind (I := socket) (.verifyPeer text) rfl checked

theorem alone_checkPrivateDir {dir : String} (secret : isPrivate world.uid world.metadata = true) :
    Alone world.access (checkPrivateDir world.uid dir).run inbox [] (.ok ()) inbox := by
  refine .aside_bind (I := socket) (.symlinkMetadata dir) rfl (.require_bind rfl ?_)
  rw [secret]
  exact .done

theorem alone_answer {body : Bytes} :
    Alone world.access (answer body).run inbox [] (.ok (world.reply body)) inbox := by
  cases decoded : Request.decode body with
  | none =>
      simp only [answer, World.reply, decoded]
      exact .done
  | some request =>
      simp only [answer, World.reply, decoded]
      have handled : Alone world.access (perform (I := socket) (.handle request) >>= pure : Attempt socket IpcServerErrors Bytes).run inbox []
          (.ok (world.answer request)) inbox := .aside_bind (I := socket) (.handle request) rfl .done
      rwa [bind_pure] at handled

theorem alone_serveClient {policy : ClientPolicy} {body : Bytes}
    (trusted : ∀ text, policy.requirement = some text → world.trusts text = true)
    (allowed : allowedLength body.length = true) (answered : allowedLength (world.reply body).length = true) :
    Alone world.access (serveClient policy world.uid).run (writes body) (writes (world.reply body)) (.ok ()) [] := by
  refine .bind_ok (alone_verify trusted) (.outcome_bind (alone_readFrame allowed) (.bind_ok alone_answer ?_))
  have returned : Alone world.access (pure () : Attempt socket IpcServerErrors Unit).run [] [] (.ok ()) [] := .done
  have written := Alone.outcome_bind (f := fun _ => pure ()) (alone_writeFrame answered) returned
  rwa [List.append_nil] at written

def begin (euid : Nat) (requirement : Option String) (request : Request) : Attempt socket LinkErrors Unit := do
  let dir ← socketDir euid
  checkPrivateDir euid dir
  let io ← perform (I := socket) (.connect (join dir socketName))
  settle io .failedToConnect
  checkDaemon euid requirement
  writeFrame request.encode

def finish (request : Request) : Attempt socket LinkErrors Response := do
  let body ← readFrame
  ExceptT.mk (.done ((Response.decode request body).mapError ofIpc))

theorem request_eq (euid : Nat) (requirement : Option String) (question : Request) :
    request euid requirement question = begin euid requirement question >>= fun _ => finish question := by
  simp only [request, requestAtChecked, exchange, begin, finish, bind_assoc]

theorem alone_begin {requirement : Option String} {policy : ClientPolicy} {question : Request}
    (fine : world.Fine requirement policy) (fits : allowedLength question.encode.length = true) :
    Alone world.access (begin world.uid requirement question).run inbox (writes question.encode) (.ok ()) inbox := by
  have created : decide (world.made ≠ .failed) = true := decide_eq_true fine.made
  have dir : Alone world.access (socketDir world.uid).run inbox [] (.ok (join world.base dirName)) inbox := by
    refine .aside_bind (I := socket) .baseDir rfl (.require_bind rfl ?_)
    refine .aside_bind (I := socket) (.createDir (join world.base dirName) 0o700) rfl (.ensure_bind created ?_)
    exact .bind_ok (alone_checkPrivateDir fine.secret) .done
  refine .bind_ok dir (.bind_ok (alone_checkPrivateDir fine.secret) ?_)
  refine .aside_bind (I := socket) (.connect (join (join world.base dirName) socketName)) rfl ?_
  exact .bind_ok (alone_checkDaemon fine.daemon) (alone_writeFrame fits)

theorem alone_finish {question : Request} {body : Bytes} (allowed : allowedLength body.length = true) :
    Alone world.access (finish question).run (writes body) [] ((Response.decode question body).mapError ofIpc) [] :=
  .bind_ok (alone_readFrame allowed) .done

end

/-! ## Both ends -/

def connected (euid : Nat) (requirement : Option String) (policy : ClientPolicy) (question : Request) :
    Duplex socket (Except LinkErrors Response) (Except IpcServerErrors Unit) :=
  ⟨(request euid requirement question).run, (serveClient policy euid).run, [], [], true⟩

def World.verdict (world : World) (question : Request) : Except LinkErrors Response :=
  (Response.decode question (world.reply question.encode)).mapError ofIpc

def finished (verdict : Except LinkErrors Response) :
    Duplex socket (Except LinkErrors Response) (Except IpcServerErrors Unit) := ⟨.done verdict, .done (.ok ()), [], [], true⟩

theorem allowedLength_reply {world : World} (answers : ∀ request, allowedLength (world.answer request).length = true)
    (body : Bytes) : allowedLength (world.reply body).length = true := by
  unfold World.reply
  cases Request.decode body with
  | none => rfl
  | some request => exact answers request

theorem steps_connected {world : World} {requirement : Option String} {policy : ClientPolicy} {question : Request}
    (fine : world.Fine requirement policy) (fits : allowedLength question.encode.length = true) :
    Steps world.access (connected world.uid requirement policy question) (finished (world.verdict question)) := by
  have answered := allowedLength_reply fine.answers question.encode
  have asks : Steps world.access ⟨(begin world.uid requirement question >>= fun _ => finish question).run,
      (serveClient policy world.uid).run, [], [], true⟩
      ⟨(finish question).run, (serveClient policy world.uid).run, [], [] ++ writes question.encode, true⟩ :=
    (alone_begin fine fits).left_then
  have serves : Steps world.access ⟨(finish question).run, (serveClient policy world.uid).run, [], writes question.encode, true⟩
      ⟨(finish question).run, .done (.ok ()), [] ++ writes (world.reply question.encode), [], true⟩ :=
    (alone_serveClient fine.client fits answered).right_ends
  have reads : Steps world.access ⟨(finish question).run, .done (.ok ()), writes (world.reply question.encode), [], true⟩
      (finished (world.verdict question)) :=
    (alone_finish answered).left_ends
  rw [connected, request_eq]
  exact (asks.trans serves).trans reads

theorem verdict_of_allowed {world : World} {question : Request} {response : Response} (allowed : question.Allowed)
    (answers : response.Answers question) (readable : response.Readable) (same : world.answer question = response.encode) :
    world.verdict question = .ok response.cut := by
  have decoded : Request.decode question.encode = some question := decode_eq_some.mpr ⟨allowed, rfl⟩
  rw [World.verdict, World.reply, decoded, Option.elim_some, same, decode_encode answers readable]
  rfl

theorem verdict_of_not_allowed {world : World} {question : Request} (refused : ¬ question.Allowed) :
    world.verdict question = .error (.daemon .badRequest) := by
  rw [World.verdict, World.reply, decode_encode_of_not_allowed refused]
  rfl

/-- In whatever order the UI and the daemon go on: both return, and nothing is left unread. The
UI returns the daemon's answer to this request, as far as an answer can be read; a request
that is not allowed is refused. -/
theorem answer_arrives {world : World} {requirement : Option String} {policy : ClientPolicy} {question : Request}
    (fine : world.Fine requirement policy) (fits : allowedLength question.encode.length = true)
    {now : Duplex socket (Except LinkErrors Response) (Except IpcServerErrors Unit)}
    (run : Steps world.access (connected world.uid requirement policy question) now) :
    Steps world.access now (finished (world.verdict question)) ∧
      (∀ next, ¬ Step world.access (finished (world.verdict question)) next) ∧
      (question.Allowed → ∀ response : Response, response.Answers question → response.Readable →
        world.answer question = response.encode → world.verdict question = .ok response.cut) ∧
      (¬ question.Allowed → world.verdict question = .error (.daemon .badRequest)) := by
  have ends : ∀ next, ¬ Step world.access (finished (world.verdict question)) next := fun _ => not_step_done
  refine ⟨(steps_connected fine fits).converge ends run, ends, ?_, verdict_of_not_allowed⟩
  intro allowed response answers readable same
  exact verdict_of_allowed allowed answers readable same

def agreeable : World where
  base := "/run"
  made := .exists
  metadata := ⟨true, false, 501, 0o40700⟩
  uid := 501
  trusts text := text = "ours"
  answer _ := Response.done.encode

theorem answer_arrives_agreeable :
    Steps agreeable.access (connected 501 (some "ours") ⟨some "ours"⟩ (.setSync true)) (finished (.ok .done)) ∧
    ∀ next, ¬ Step agreeable.access (finished (.ok .done)) next := by
  have trusted : ∀ text, some "ours" = some text → agreeable.trusts text = true := by
    intro text same
    cases same
    rfl
  have fine : agreeable.Fine (some "ours") ⟨some "ours"⟩ := ⟨by decide, rfl, trusted, trusted, fun _ => rfl⟩
  have verdict : agreeable.verdict (.setSync true) = .ok .done := rfl
  have start : Steps agreeable.access (connected agreeable.uid (some "ours") ⟨some "ours"⟩ (.setSync true))
      (connected 501 (some "ours") ⟨some "ours"⟩ (.setSync true)) := .refl
  obtain ⟨arrives, ends, -⟩ := answer_arrives fine rfl start
  rw [verdict] at arrives ends
  exact ⟨arrives, ends⟩

end Socket

end Ipc

end CesaConn
