import CesaConn.Auth.Wire
import CesaConn.Network.SaltAnswers
import CesaConn.Program.Alone
import CesaConn.Program.Server

/-! The salt query, asked by a joining device and answered during an invite window.

The salt is public, but it is given out only to who asks for it in full, to four
connections at a time, and to one of those that a source makes in an interval.
-/

set_option autoImplicit false

namespace CesaConn

open Format Program

namespace SaltService

open Attempt
open Auth (Io)

inductive SaltServiceErrors where
  | unreachable
  | sendFailed
  | noAnswer
  deriving DecidableEq

inductive Op where
  /-- `TcpStream::connect`; this and what follows is bounded by `TIMEOUT`. -/
  | connect
  | write (bytes : Bytes)
  | flush
  | read (size : Nat)
  deriving DecidableEq

abbrev Op.Result : Op → Type
  | .read size => Block size
  | _ => Unit

abbrev stream : Signature := ⟨Op, fun op => Io op.Result⟩

/-- `CESASALT`. -/
def saltQueryMagic : Bytes := [67, 69, 83, 65, 83, 65, 76, 84]

def saltQueryVersion : UInt8 := 1

def saltQueryLen : Nat := 8 + 1

def maxSaltClients : Nat := 4

def query : Bytes := saltQueryMagic ++ [saltQueryVersion]

/-- A failure and a timeout are the same to the caller. -/
def perform (op : Op) (error : SaltServiceErrors) : Attempt stream SaltServiceErrors op.Result := do
  match ← Attempt.perform (I := stream) op with
  | .done value => pure value
  | .failed | .elapsed => throw error

def answer (aSalt : Block 32) : Attempt stream SaltServiceErrors Unit := do
  let buf ← perform (.read saltQueryLen) .noAnswer
  ensure (buf.toList = query) .noAnswer
  perform (.write aSalt.toList) .sendFailed
  perform .flush .sendFailed

/-- A connection is told by its source and the time at which it was accepted. -/
def serveSalt (aSalt : Block 32) : Service stream Query Answered (Except SaltServiceErrors Unit) where
  slots := maxSaltClients
  guard conn answered := answered.allow conn.source conn.now
  handler _ := (answer aSalt).run

def querySalt : Attempt stream SaltServiceErrors (Block 32) := do
  perform .connect .unreachable
  perform (.write query) .sendFailed
  perform (.read 32) .noAnswer

/-! ## One connection -/

def received (events : List (Event stream)) : Bytes := events.flatMap fun
  | ⟨.read _, .done block⟩ => block.toList
  | _ => []

def sent (events : List (Event stream)) : Bytes := events.flatMap fun
  | ⟨.write bytes, _⟩ => bytes
  | _ => []

/-- Nothing is sent before the query was received, and nothing but the salt after. -/
def Fair (aSalt : Block 32) (events : List (Event stream)) : Prop :=
  sent events = [] ∨ received events = query ∧ sent events = aSalt.toList

variable {A : Type} {holds : List (Event stream) → Prop} {post : List (Event stream) → A → Prop}
  {past : List (Event stream)} {aSalt : Block 32}

theorem always_perform_bind {op : Op} {error : SaltServiceErrors} {f : op.Result → Attempt stream SaltServiceErrors A}
    (now : holds past) (after : ∀ io : Io op.Result, holds (past ++ [⟨op, io⟩]))
    (rest : ∀ value, (f value).Always holds post (fun _ _ => True) (past ++ [⟨op, Io.done value⟩])) :
    (perform op error >>= f).Always holds post (fun _ _ => True) past := by
  rw [perform, bind_assoc]
  refine Attempt.always_perform_bind now fun io => ?_
  cases io with
  | done value => exact rest value
  | failed => exact ⟨after .failed, trivial⟩
  | elapsed => exact ⟨after .elapsed, trivial⟩

theorem always_perform {op : Op} {error : SaltServiceErrors} (now : holds past)
    (after : ∀ io : Io op.Result, holds (past ++ [⟨op, io⟩])) :
    (perform op error).Always holds (fun _ _ => True) (fun _ _ => True) past := by
  rw [← bind_pure (perform op error)]
  exact always_perform_bind now after fun value => always_pure (after (.done value)) trivial

theorem always_answer (aSalt : Block 32) :
    (answer aSalt).Always (Fair aSalt) (fun _ _ => True) (fun _ _ => True) [] := by
  unfold answer
  refine always_perform_bind (.inl rfl) (fun _ => .inl rfl) fun buf => ?_
  refine always_ensure_bind (.inl rfl) (fun _ => trivial) fun same => ?_
  have asked : received ([] ++ [⟨.read saltQueryLen, Io.done buf⟩]) = query :=
    (List.append_nil _).trans (of_decide_eq_true same)
  have silent : sent ([] ++ [⟨.read saltQueryLen, Io.done buf⟩]) = [] := rfl
  generalize [] ++ [(⟨.read saltQueryLen, Io.done buf⟩ : Event stream)] = past at asked silent ⊢
  have written (io : Io Unit) : received (past ++ [⟨.write aSalt.toList, io⟩]) = query ∧
      sent (past ++ [⟨.write aSalt.toList, io⟩]) = aSalt.toList := by
    constructor
    · rw [received, List.flatMap_append]
      exact (List.append_nil _).trans asked
    · rw [sent, List.flatMap_append]
      exact (congrArg (· ++ _) silent).trans (List.append_nil _)
  refine always_perform_bind (.inl silent) (fun io => .inr (written io)) fun _ => ?_
  refine always_perform (.inr (written (.done ()))) fun io => .inr ?_
  obtain ⟨asked, salted⟩ := written (.done ())
  constructor
  · rw [received, List.flatMap_append]
    exact (List.append_nil _).trans asked
  · rw [sent, List.flatMap_append]
    exact (List.append_nil _).trans salted

/-! ## All connections -/

theorem sharedAfter_eq (conns : List Query) : (serveSalt aSalt).sharedAfter ∅ conns = answeredAfter conns := by
  induction conns with
  | nil => rfl
  | cons conn earlier ih =>
      rw [Service.sharedAfter, ih]
      rfl

theorem admitted_eq (aSalt : Block 32) (conns : List Query) : (serveSalt aSalt).admitted ∅ conns = granted conns := by
  induction conns with
  | nil => rfl
  | cons conn earlier ih =>
      rw [Service.admitted, sharedAfter_eq, ih]
      rfl

/-- The connections accepted in an interval on which something was sent, then or later. -/
def answeredIn (start : Instant) (connections : List (Query × List (Event stream))) : List (Query × List (Event stream)) :=
  connections.filter fun entry => (start ≤ entry.1.now ∧ entry.1.now < start + answerInterval) ∧ sent entry.2 ≠ []

/-- Whatever happens on the connections: at most four at a time; nothing but the salt goes out,
to who has asked for it; and of those accepted in an interval one of each source gets it at most. -/
theorem salt_given_once {server : Server stream Query Answered (Except SaltServiceErrors Unit)}
    (reachable : Server.Reachable (serveSalt aSalt) ∅ server) (clock : Clocked server.offered) :
    server.running.length ≤ maxSaltClients ∧
    (∀ entry ∈ server.connections, Fair aSalt entry.2) ∧
    ∀ start, ((answeredIn start server.connections).map fun entry => entry.1.source).Nodup ∧
      (answeredIn start server.connections).length ≤ maxRemembered := by
  have sound := reachable.sound
  refine ⟨sound.slots, ?_, fun start => ?_⟩
  · have always (conn : Query) :
        ((serveSalt aSalt).handler conn).Always (Fair aSalt) (fun _ (_ : Except SaltServiceErrors Unit) => True) [] :=
      Proc.Always.mono (always_answer aSalt) fun _ _ _ => trivial
    exact reachable.connection (P := fun _ => Fair aSalt) always
  · -- the limiter granted them all
    have granted : (window (server.connections.map Prod.fst) start).Perm (window (SaltService.granted server.offered) start) := by
      rw [← admitted_eq aSalt]
      exact sound.admitted.filter _
    have among : ((answeredIn start server.connections).map Prod.fst).Sublist (window (server.connections.map Prod.fst) start) := by
      rw [window, List.filter_map]
      apply List.Sublist.map
      apply List.monotone_filter_right
      intro entry inside
      exact decide_eq_true (of_decide_eq_true inside).1
    obtain ⟨once, few⟩ := window_granted clock start
    constructor
    · have sources : ((window (server.connections.map Prod.fst) start).map Query.source).Nodup :=
        (granted.map Query.source).nodup_iff.mpr once
      have same : (answeredIn start server.connections).map (fun entry => entry.1.source) =
          ((answeredIn start server.connections).map Prod.fst).map Query.source := List.map_map.symm
      rw [same]
      exact sources.sublist (among.map Query.source)
    · calc (answeredIn start server.connections).length
          = ((answeredIn start server.connections).map Prod.fst).length := (List.length_map Prod.fst).symm
        _ ≤ (window (server.connections.map Prod.fst) start).length := among.length_le
        _ = (window (SaltService.granted server.offered) start).length := granted.length_eq
        _ ≤ maxRemembered := few

def asking : (op : Op) → stream.Reply op
  | .read size => (toBlock size query).elim .failed .done
  | .connect | .write _ | .flush => Io.done ()

/-- The first one that asks is answered. -/
theorem salt_given_once_first : ∃ server : Server stream Query Answered (Except SaltServiceErrors Unit),
    server.connections.map (fun entry => sent entry.2) = [List.replicate 32 7] ∧
      server.running.length ≤ maxSaltClients ∧ (∀ entry ∈ server.connections, Fair (.replicate 32 7) entry.2) ∧
      ∀ start, ((answeredIn start server.connections).map fun entry => entry.1.source).Nodup ∧
        (answeredIn start server.connections).length ≤ maxRemembered := by
  let conn : Query := ⟨⟨.v4 ⟨[10, 0, 0, 1], rfl⟩⟩, 0⟩
  have allowed : ((∅ : Answered).allow conn.source conn.now).1 = true := by simp [Answered.allow, maxRemembered]
  let accepted : Server stream Query Answered (Except SaltServiceErrors Unit) :=
    ⟨((∅ : Answered).allow conn.source conn.now).2, [⟨conn, [], (answer (.replicate 32 7)).run⟩], [], [conn], false⟩
  have first : (Server.start ∅).step (serveSalt (.replicate 32 7)) (.accept conn) = some accepted := by
    show (if ((∅ : Answered).allow conn.source conn.now).1 then some accepted else some _) = _
    rw [if_pos allowed]
  have served : ∃ server, accepted.run (serveSalt (.replicate 32 7)) [.perform 0 asking, .perform 0 asking] = some server ∧
      server.offered = [conn] ∧ server.connections.map (fun entry => sent entry.2) = [List.replicate 32 7] := ⟨_, rfl, rfl, rfl⟩
  obtain ⟨server, ran, offered, salted⟩ := served
  have clock : Clocked server.offered := by
    rw [offered]
    exact List.pairwise_singleton _ _
  exact ⟨server, salted, salt_given_once (.run _ (.step (.accept conn) .start first) ran) clock⟩

/-! ## Both ends -/

section

open Duplex

def access : (op : Op) → Access (stream.Reply op)
  | .connect => .read 0 fun _ => Io.done ()
  | .write bytes => .write bytes (Io.done ())
  | .flush => .read 0 fun _ => Io.done ()
  | .read size => .read size Io.done

def asks (aSalt : Block 32) : Duplex stream (Except SaltServiceErrors (Block 32)) (Except SaltServiceErrors Unit) :=
  ⟨querySalt.run, (answer aSalt).run, [], [], true⟩

def asked (aSalt : Block 32) : Duplex stream (Except SaltServiceErrors (Block 32)) (Except SaltServiceErrors Unit) :=
  ⟨.done (.ok aSalt), .done (.ok ()), [], [], true⟩

variable {inbox more last : List Bytes} {result : Except SaltServiceErrors A}

theorem perform_bind {op : Op} {error : SaltServiceErrors} {f : op.Result → Attempt stream SaltServiceErrors A} :
    perform op error >>= f = Attempt.perform (I := stream) op >>= fun io =>
      match io with
      | .done value => f value
      | .failed | .elapsed => throw error := by
  rw [perform, bind_assoc]
  apply congrArg
  funext io
  cases io <;> rfl

theorem alone_write_bind {bytes : Bytes} {error : SaltServiceErrors} {f : Unit → Attempt stream SaltServiceErrors A}
    (rest : Alone access (f ()).run inbox more result last) :
    Alone access (perform (.write bytes) error >>= f).run inbox (bytes :: more) result last := by
  rw [perform_bind]
  exact .write_bind (I := stream) (.write bytes) rfl rest

theorem alone_read_bind {size : Nat} (block : Block size) {error : SaltServiceErrors}
    {f : Block size → Attempt stream SaltServiceErrors A} (some : size ≠ 0)
    (rest : Alone access (f block).run inbox more result last) :
    Alone access (perform (.read size) error >>= f).run (block.toList :: inbox) more result last := by
  rw [perform_bind]
  exact .read_bind (I := stream) (.read size) block rfl some rest

theorem alone_aside_bind {op : Op} {value : op.Result} {error : SaltServiceErrors} {f : op.Result → Attempt stream SaltServiceErrors A}
    (aside : access op = .read 0 fun _ => Io.done value) (rest : Alone access (f value).run inbox more result last) :
    Alone access (perform op error >>= f).run inbox more result last := by
  rw [perform_bind]
  exact .aside_bind (I := stream) op aside rest

theorem alone_answer (aSalt : Block 32) : Alone access (answer aSalt).run [query] [aSalt.toList] (.ok ()) [] := by
  let buf : Block saltQueryLen := ⟨query, rfl⟩
  have flushed : Alone access (perform .flush .sendFailed >>= pure).run [] [] (.ok ()) [] := alone_aside_bind rfl .done
  rw [bind_pure] at flushed
  exact alone_read_bind buf (by decide) (.ensure_bind (by decide) (alone_write_bind flushed))

theorem steps_asks (aSalt : Block 32) : Steps access (asks aSalt) (asked aSalt) := by
  have sends : Alone access (perform .connect .unreachable >>= fun _ => perform (.write query) .sendFailed).run [] [query] (.ok ()) [] := by
    have written : Alone access (perform (.write query) .sendFailed >>= pure).run [] [query] (.ok ()) [] := alone_write_bind .done
    rw [bind_pure] at written
    exact alone_aside_bind rfl written
  have takes : Alone access (perform (.read 32) .noAnswer >>= pure).run [aSalt.toList] [] (.ok aSalt) [] :=
    alone_read_bind aSalt (by decide) .done
  rw [bind_pure] at takes
  have split : querySalt = (perform .connect .unreachable >>= fun _ => perform (.write query) .sendFailed) >>= fun _ =>
      perform (.read 32) .noAnswer := by
    rw [bind_assoc]
    rfl
  have first : Steps access (asks aSalt) ⟨(perform (.read 32) .noAnswer).run, (answer aSalt).run, [], [query], true⟩ := by
    rw [asks, split]
    exact sends.left_then
  have second : Steps access ⟨(perform (.read 32) .noAnswer).run, (answer aSalt).run, [], [query], true⟩
      ⟨(perform (.read 32) .noAnswer).run, .done (.ok ()), [aSalt.toList], [], true⟩ := (alone_answer aSalt).right_ends
  exact (first.trans second).trans takes.left_ends

/-- In whatever order a joining device and the member go on: both return, the device has the salt,
and nothing is left unread. -/
theorem salt_arrives {aSalt : Block 32} {now : Duplex stream (Except SaltServiceErrors (Block 32)) (Except SaltServiceErrors Unit)}
    (run : Steps access (asks aSalt) now) :
    Steps access now (asked aSalt) ∧ ∀ next, ¬ Step access (asked aSalt) next := by
  have ends : ∀ next, ¬ Step access (asked aSalt) next := fun _ => not_step_done
  exact ⟨(steps_asks aSalt).converge ends run, ends⟩

theorem salt_arrives_begun : Steps access (asks (.replicate 32 7)) (asked (.replicate 32 7)) ∧
    ∀ next, ¬ Step access (asked (.replicate 32 7)) next :=
  salt_arrives .refl

end

end SaltService

end CesaConn
