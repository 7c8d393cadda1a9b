import CesaConn.Ipc.Socket

/-! The UI's end of the socket: a password goes only to a daemon that was checked.

As at the other end a request is told by its history, at any moment of any run.
-/

set_option autoImplicit false

namespace CesaConn

namespace Ipc

open Format Program
open Auth (Io)
open Tui (LinkErrors)

namespace Socket

open Attempt

def daemonChecks (euid : Nat) (requirement : Option String) : List (Event socket) :=
  ⟨.peerCred, some euid⟩ :: (requirement.map fun requirement => (⟨.verifyPeer requirement, true⟩ : Event socket)).toList

inductive Passed (euid : Nat) (requirement : Option String) : List (Event socket) → Prop where
  | passed (base : String) (made : Created) (first again : Metadata) :
      made ≠ .failed → isPrivate euid first = true → isPrivate euid again = true →
      Passed euid requirement ([⟨.baseDir, some base⟩, ⟨.createDir (join base dirName) 0o700, made⟩,
        ⟨.symlinkMetadata (join base dirName), some first⟩, ⟨.symlinkMetadata (join base dirName), some again⟩,
        ⟨.connect (join (join base dirName) socketName), Io.done ()⟩] ++ daemonChecks euid requirement)

structure Careful (euid : Nat) (requirement : Option String) (request : Request) (events : List (Event socket)) : Prop where
  checked : (∃ event ∈ events, event.op.trusting) → ∃ checks, Passed euid requirement checks ∧ checks <+: events
  begins : sent events <+: frame request.encode
  /-- Nothing is received before the whole request was sent. -/
  waits : received events ≠ [] → sent events = frame request.encode

/-- The errors of what comes before a request is sent. -/
def ofCheck : LinkErrors → Bool
  | .noRuntimeDir | .failedToPrepareSocket | .insecureDirectory | .failedToConnect | .timeout | .untrustedDaemon => true
  | _ => false

inductive Concludes (request : Request) (events : List (Event socket)) : Except LinkErrors Response → Prop where
  | answered (body : Bytes) :
      sent events = frame request.encode → received events = frame body →
      Concludes request events ((Response.decode request body).mapError ofIpc)
  /-- The connection broke, or a length was not one of a frame. -/
  | broke (error : LinkErrors) : ofTransfer error = true → Concludes request events (.error error)
  | refused (error : LinkErrors) : ofCheck error = true → sent events = [] → received events = [] →
      Concludes request events (.error error)

variable {euid : Nat} {requirement : Option String} {question : Request} {past checks : List (Event socket)}
  {input output : Bytes}

theorem careful_of_stands (passed : Passed euid requirement checks) (stands : Stands checks [] input output past)
    (begins : output <+: frame question.encode) (waits : input ≠ [] → output = frame question.encode) :
    Careful euid requirement question past := by
  constructor
  · intro _
    exact ⟨checks, passed, stands.checked⟩
  · rwa [stands.sent]
  · rw [stands.sent, stands.received]
    exact waits

structure Checking (events : List (Event socket)) : Prop where
  untrusting : ∀ event ∈ events, event.op.trusting = false
  sent : sent events = []
  received : received events = []

theorem Checking.careful (checking : Checking past) : Careful euid requirement question past := by
  constructor
  · rintro ⟨event, member, trusting⟩
    rw [checking.untrusting event member] at trusting
    cases trusting
  · rw [checking.sent]
    exact List.nil_prefix
  · intro some
    exact absurd checking.received some

theorem Checking.snoc (checking : Checking past) {event : Event socket} (untrusting : event.op.trusting = false) :
    Checking (past ++ [event]) := by
  have same : Socket.sent [event] = [] ∧ Socket.received [event] = [] := by
    obtain ⟨op, reply⟩ := event
    cases op with
    | write | flush | read | handle => cases untrusting
    | _ => exact ⟨rfl, rfl⟩
  constructor
  · intro other member
    obtain old | new := List.mem_append.mp member
    · exact checking.untrusting other old
    · rw [List.mem_singleton.mp new]
      exact untrusting
  · have whole : Socket.sent (past ++ [event]) = Socket.sent past ++ Socket.sent [event] := List.flatMap_append
    rw [whole, checking.sent, same.1]
    rfl
  · have whole : Socket.received (past ++ [event]) = Socket.received past ++ Socket.received [event] := List.flatMap_append
    rw [whole, checking.received, same.2]
    rfl

/-- A check that fails concludes a request of which nothing was sent. -/
theorem Checking.refused (checking : Checking past) {error : LinkErrors} (early : ofCheck error = true) :
    Concludes question past (.error error) :=
  .refused error early checking.sent checking.received

abbrev Fails (question : Request) (past : List (Event socket)) (error : LinkErrors) : Prop :=
  Concludes question past (.error error)

section

variable {P : List (Event socket) → Prop} {A : Type} {post : List (Event socket) → A → Prop}

theorem always_checkPrivateDir {dir : String} {f : Unit → Attempt socket LinkErrors A} (checking : Checking past)
    (holds : ∀ past, Checking past → P past)
    (rest : ∀ metadata, isPrivate euid metadata = true →
      Checking (past ++ [⟨.symlinkMetadata dir, some metadata⟩]) →
      (f ()).Always P post (Fails question) (past ++ [⟨.symlinkMetadata dir, some metadata⟩])) :
    (checkPrivateDir euid dir >>= f).Always P post (Fails question) past := by
  simp only [checkPrivateDir, bind_assoc]
  refine always_perform_bind (holds past checking) fun found => ?_
  have next : Checking (past ++ [⟨.symlinkMetadata dir, found⟩]) := checking.snoc rfl
  refine always_require_bind (holds _ next) (fun _ => next.refused rfl) fun metadata same => ?_
  subst same
  exact always_ensure_bind (holds _ next) (fun _ => next.refused rfl) fun allowed => rest metadata allowed next

theorem always_checkDaemon {f : Unit → Attempt socket LinkErrors A} (checking : Checking past)
    (holds : ∀ past, Checking past → P past)
    (rest : Checking (past ++ daemonChecks euid requirement) →
      (f ()).Always P post (Fails question) (past ++ daemonChecks euid requirement)) :
    (checkDaemon euid requirement >>= f).Always P post (Fails question) past := by
  simp only [checkDaemon, bind_assoc]
  refine always_perform_bind (holds past checking) fun daemon => ?_
  have next : Checking (past ++ [⟨.peerCred, daemon⟩]) := checking.snoc rfl
  refine always_require_bind (holds _ next) (fun _ => next.refused rfl) fun uid same => ?_
  refine always_ensure_bind (holds _ next) (fun _ => next.refused rfl) fun own => ?_
  have found : daemon = some euid := by rw [same, eq_of_beq own]
  subst found
  cases requirement with
  | none => exact rest next
  | some requirement =>
      simp only [bind_assoc]
      refine always_perform_bind (holds _ next) fun trusted => ?_
      have last : Checking (past ++ [⟨.peerCred, some euid⟩] ++ [⟨.verifyPeer requirement, trusted⟩]) := next.snoc rfl
      refine always_ensure_bind (holds _ last) (fun _ => last.refused rfl) fun same => ?_
      subst same
      rw [List.append_assoc] at last ⊢
      exact rest last

end

theorem always_exchange (passed : Passed euid requirement checks) (stands : Stands checks [] [] [] past) :
    (exchange question).Always (Careful euid requirement question) (fun later response => Concludes question later (.ok response))
      (Fails question) past := by
  have sending := always_writeFrame (P := Careful euid requirement question) question.encode stands
    fun bytes past begins stands => careful_of_stands passed stands begins fun some => absurd rfl some
  refine Always.bind (sending.mono (fun _ _ after => after) fun _ _ after => .broke _ after.2) fun _ later sent => ?_
  have receiving := always_readFrame (P := Careful euid requirement question) sent.2
    fun bytes past stands => careful_of_stands passed stands (List.prefix_refl _) fun _ => rfl
  refine Always.bind (receiving.mono (fun _ _ after => after) fun _ _ after => .broke _ after.2) fun body later read => ?_
  have whole : Careful euid requirement question later := careful_of_stands passed read.2 (List.prefix_refl _) fun _ => rfl
  have concluded : Concludes question later ((Response.decode question body).mapError ofIpc) :=
    .answered body read.2.sent read.2.received
  refine ⟨whole, ?_⟩
  cases decoded : (Response.decode question body).mapError ofIpc with
  | ok response =>
      rw [decoded] at concluded
      exact concluded
  | error error =>
      rw [decoded] at concluded
      exact concluded

theorem always_request : (request euid requirement question).Always (Careful euid requirement question)
    (fun later response => Concludes question later (.ok response)) (Fails question) [] := by
  have holds : ∀ past, Checking past → Careful euid requirement question past := fun _ checking => checking.careful
  have start : Checking [] := ⟨fun _ member => absurd member List.not_mem_nil, rfl, rfl⟩
  unfold request socketDir prepareSocketDir requestAtChecked
  simp only [bind_assoc]
  refine always_perform_bind (holds _ start) fun found => ?_
  have based : Checking ([] ++ [⟨.baseDir, found⟩]) := start.snoc rfl
  refine always_require_bind (holds _ based) (fun _ => based.refused rfl) fun base same => ?_
  subst same
  refine always_perform_bind (holds _ based) fun made => ?_
  have created : Checking ([] ++ [⟨.baseDir, some base⟩] ++ [⟨.createDir (join base dirName) 0o700, made⟩]) := based.snoc rfl
  refine always_ensure_bind (holds _ created) (fun _ => created.refused rfl) fun succeeded => ?_
  refine always_checkPrivateDir created holds fun first owned seen => ?_
  simp only [pure_bind]
  refine always_checkPrivateDir seen holds fun again still twice => ?_
  refine always_perform_bind (holds _ twice) fun io => ?_
  have connected := twice.snoc (show (⟨.connect (join (join base dirName) socketName), io⟩ : Event socket).op.trusting = false from rfl)
  refine always_settle_bind (holds _ connected) (connected.refused rfl) (connected.refused rfl) fun value same => ?_
  subst same
  refine always_checkDaemon connected holds fun checked => ?_
  have passed : Passed euid requirement _ := .passed base made first again (of_decide_eq_true succeeded) owned still
  refine always_exchange passed ⟨?_, ?_, checked.received, checked.sent⟩
  · exact List.prefix_refl _
  · cases requirement <;> rfl

/-- At any moment of any run of a request: nothing was sent or received before the directory
was found private, the daemon's user the same and its signature as required; what was sent
is the beginning of the frame of the request, and nothing was received before the whole of
it was sent. An answer is what was read of the frame received; without one the request
broke off, or nothing of it was sent. -/
theorem request_careful {events : List (Event socket)} {rest : Proc socket (Except LinkErrors Response)}
    (leads : (request euid requirement question).run.Leads events rest) :
    Careful euid requirement question events ∧ ∀ result, rest = .done result → Concludes question events result := by
  have always := Proc.Always.leads always_request leads
  refine ⟨always.now, ?_⟩
  rintro result rfl
  cases result with
  | ok response => exact always.2
  | error error => exact always.2

def refusing : (op : Op) → socket.Reply op :=
  replies 501 "/run" (fun size => if size = 4 then [2, 0, 0, 0] else [0x01, 0x05]) []

theorem request_careful_refusing :
    (∃ checks, Passed 501 none checks ∧ checks <+: ((request 501 none .status).run.answered refusing).1) ∧
    sent ((request 501 none .status).run.answered refusing).1 = [1, 0, 0, 0, 0x01] ∧
    ((request 501 none .status).run.answered refusing).2 = .error (.daemon .locked) ∧
    Concludes .status ((request 501 none .status).run.answered refusing).1 (.error (.daemon .locked)) := by
  have result : ((request 501 none .status).run.answered refusing).2 = .error (.daemon .locked) := rfl
  have trusting : ((request 501 none .status).run.answered refusing).1.any (fun event => event.op.trusting) = true := rfl
  obtain ⟨careful, concludes⟩ := request_careful (Proc.leads_answered refusing (request 501 none .status).run)
  rw [List.any_eq_true] at trusting
  exact ⟨careful.checked trusting, rfl, result, concludes _ (congrArg Proc.done result)⟩

end Socket

end Ipc

end CesaConn
