import CesaConn.Ipc.Socket
import CesaConn.Program.Server

/-! The daemon's end of the socket, for all UIs that connect to it.

A connection is told by its history: what was checked, received, handled and sent on it.
At any moment of any run these are those of at most one request, and nothing is
received before the other process has been checked.
-/

set_option autoImplicit false

namespace CesaConn

namespace Ipc

open Format Program
open Auth (Io)
open Tui (LinkErrors)

namespace Socket

open Attempt

def maxConcurrentClients : Nat := 4

/-- Connections over the limit are closed; nobody else is kept out before the handler runs. -/
def serve (Conn : Type) (policy : ClientPolicy) (euid : Nat) : Service socket Conn Unit (Except IpcServerErrors Unit) where
  slots := maxConcurrentClients
  guard _ shared := (true, shared)
  handler _ := (serveClient policy euid).run

/-! ## One connection -/

def ClientPolicy.checks (policy : ClientPolicy) (euid : Nat) : List (Event socket) :=
  ⟨.peerCred, some euid⟩ :: (policy.requirement.map fun requirement => (⟨.verifyPeer requirement, true⟩ : Event socket)).toList

def Settled (body answer : Bytes) (requests : List (Request × Bytes)) : Prop :=
  (Request.decode body = none ∧ answer = Response.encodeError .badRequest ∧ requests = []) ∨
    ∃ request, Request.decode body = some request ∧ requests = [(request, answer)]

structure Orderly (policy : ClientPolicy) (euid : Nat) (events : List (Event socket)) : Prop where
  checked : (∃ event ∈ events, event.op.trusting) → policy.checks euid <+: events
  once : (handled events).length ≤ 1
  request : ∀ entry ∈ handled events, entry.1.Allowed ∧ received events = frame entry.1.encode
  answer : sent events ≠ [] → ∃ body answer, received events = frame body ∧ Settled body answer (handled events) ∧
    sent events <+: frame answer

variable {policy : ClientPolicy} {euid : Nat} {past : List (Event socket)}

theorem orderly_of_receiving {bytes : Bytes} (stands : Stands (policy.checks euid) [] bytes [] past) :
    Orderly policy euid past := by
  refine ⟨fun _ => stands.checked, ?_, ?_, ?_⟩
  · rw [stands.handled]
    exact Nat.zero_le 1
  · rw [stands.handled]
    intro entry member
    cases member
  · intro some
    exact absurd stands.sent some

theorem orderly_of_sending {body answer bytes : Bytes} {requests : List (Request × Bytes)}
    (stands : Stands (policy.checks euid) requests (frame body) bytes past)
    (settled : Settled body answer requests) (begins : bytes <+: frame answer) : Orderly policy euid past := by
  refine ⟨fun _ => stands.checked, ?_, ?_, fun _ => ⟨body, answer, stands.received, ?_, ?_⟩⟩
  · rw [stands.handled]
    obtain ⟨-, -, rfl⟩ | ⟨request, -, rfl⟩ := settled
    · exact Nat.zero_le 1
    · exact Nat.le_refl 1
  · rw [stands.handled, stands.received]
    intro entry member
    obtain ⟨-, -, rfl⟩ | ⟨request, decoded, rfl⟩ := settled
    · cases member
    · obtain ⟨allowed, rfl⟩ := decode_eq_some.mp decoded
      rw [List.mem_singleton.mp member]
      exact ⟨allowed, rfl⟩
  · rwa [stands.handled]
  · rwa [stands.sent]

theorem orderly_of_checking (unhandled : handled past = []) (unsent : sent past = [])
    (checking : ∀ event ∈ past, event.op.trusting = false) : Orderly policy euid past := by
  refine ⟨?_, ?_, ?_, ?_⟩
  · rintro ⟨event, member, trusting⟩
    rw [checking event member] at trusting
    cases trusting
  · rw [unhandled]
    exact Nat.zero_le 1
  · rw [unhandled]
    intro entry member
    cases member
  · intro some
    exact absurd unsent some

theorem always_verify : (policy.verify euid).Always (Orderly policy euid) (fun later _ => Stands (policy.checks euid) [] [] [] later)
    (fun later _ => Orderly policy euid later) [] := by
  have start : Orderly policy euid [] := orderly_of_checking rfl rfl fun _ member => by cases member
  have asked (reply : Option Nat) : Orderly policy euid [⟨.peerCred, reply⟩] := by
    refine orderly_of_checking rfl rfl fun event member => ?_
    rw [List.mem_singleton.mp member]
    rfl
  unfold ClientPolicy.verify
  refine always_perform_bind start fun reply => ?_
  refine always_require_bind (asked reply) (fun _ => asked reply) fun uid same => ?_
  refine always_ensure_bind (asked reply) (fun _ => asked reply) fun own => ?_
  have found : reply = some euid := by rw [same, eq_of_beq own]
  subst found
  cases required : policy.requirement with
  | none => exact always_pure (asked _) ⟨by simp [ClientPolicy.checks, required], rfl, rfl, rfl⟩
  | some requirement =>
      have verified (reply : Bool) : Orderly policy euid [⟨.peerCred, some euid⟩, ⟨.verifyPeer requirement, reply⟩] := by
        refine orderly_of_checking rfl rfl fun event member => ?_
        obtain rfl | last := List.mem_cons.mp member
        · rfl
        · rw [List.mem_singleton.mp last]
          rfl
      refine always_perform_bind (asked _) fun trusted => ?_
      refine always_ensure (verified trusted) (fun same => ?_) fun _ => verified trusted
      subst same
      exact ⟨by simp [ClientPolicy.checks, required], rfl, rfl, rfl⟩

theorem always_answer {body : Bytes} (stands : Stands (policy.checks euid) [] (frame body) [] past) :
    (answer body).Always (Orderly policy euid)
      (fun later response => ∃ requests, Settled body response requests ∧
        Stands (policy.checks euid) requests (frame body) [] later)
      (fun later _ => Orderly policy euid later) past := by
  cases decoded : Request.decode body with
  | none =>
      simp only [answer, decoded]
      exact always_pure (orderly_of_receiving stands) ⟨[], .inl ⟨decoded, rfl, rfl⟩, stands⟩
  | some request =>
      simp only [answer, decoded]
      refine always_perform (orderly_of_receiving stands) fun response => ?_
      have settled : Settled body response [(request, response)] := .inr ⟨request, decoded, rfl⟩
      have after : Stands (policy.checks euid) [(request, response)] (frame body) [] (past ++ [⟨.handle request, response⟩]) := by
        have next := stands.snoc ⟨.handle request, response⟩
        simpa [handled, received, sent] using next
      exact ⟨orderly_of_sending after settled List.nil_prefix, _, settled, after⟩

theorem always_serveClient : (serveClient policy euid).Always (Orderly policy euid) (fun later _ => Orderly policy euid later)
    (fun later _ => Orderly policy euid later) [] := by
  refine Always.bind always_verify fun _ later checked => ?_
  have reading := always_readFrame checked fun _ _ stands => orderly_of_receiving stands
  refine Always.bind (always_outcome reading) fun result later read => ?_
  cases result with
  | error error => exact always_pure read.1 read.1
  | ok body =>
      refine Always.bind (always_answer read.2) fun response later answered => ?_
      obtain ⟨requests, settled, stands⟩ := answered
      have writing := always_writeFrame response stands fun bytes past begins stands =>
        orderly_of_sending stands settled begins
      refine Always.bind (always_outcome writing) fun result later after => ?_
      cases result with
      | ok value =>
          have whole := orderly_of_sending after.2 settled (List.prefix_refl _)
          exact always_pure whole whole
      | error error => exact always_pure after.1 after.1

/-! ## Every connection -/

/-- However UIs connect and their programs interleave, fail, stop or are cut off: at most
four are served, and on each connection nothing is received, handled or sent before the
policy's checks were passed, at most one request is handled, it is the one whose frame was
received, and what is sent is the beginning of the frame of its answer. -/
theorem clients_orderly {Conn : Type} {server : Server socket Conn Unit (Except IpcServerErrors Unit)}
    (reachable : Server.Reachable (serve Conn policy euid) () server) :
    server.running.length ≤ maxConcurrentClients ∧ ∀ entry ∈ server.connections, Orderly policy euid entry.2 :=
  ⟨reachable.sound.slots, reachable.connection (P := fun _ => Orderly policy euid) fun _ => always_serveClient⟩

/-- A UI of another user, then one that asks for the status. -/
def visits : List (Server.Act socket Nat) :=
  let arriving (size : Nat) : Bytes := if size = 4 then [1, 0, 0, 0] else [0x01]
  [.accept 1, .perform 0 (replies 502 "/run" arriving []), .accept 2, .finish 0] ++
    List.replicate 5 (.perform 0 (replies 501 "/run" arriving [0x01, 0x03]))

theorem clients_orderly_visits : ∃ server,
    (Server.start ()).run (serve Nat ⟨none⟩ 501) visits = some server ∧
      server.connections.map (fun entry => (entry.1, handled entry.2, sent entry.2)) =
        [(2, [(.status, [0x01, 0x03])], [2, 0, 0, 0]), (1, [], [])] ∧
      server.running.length ≤ maxConcurrentClients ∧ ∀ entry ∈ server.connections, Orderly ⟨none⟩ 501 entry.2 := by
  have visited : ∃ server, (Server.start ()).run (serve Nat ⟨none⟩ 501) visits = some server ∧
      server.connections.map (fun entry => (entry.1, handled entry.2, sent entry.2)) =
        [(2, [(.status, [0x01, 0x03])], [2, 0, 0, 0]), (1, [], [])] := ⟨_, rfl, rfl⟩
  obtain ⟨server, ran, shape⟩ := visited
  exact ⟨server, ran, shape, clients_orderly (.run _ .start ran)⟩

end Socket

end Ipc

end CesaConn
