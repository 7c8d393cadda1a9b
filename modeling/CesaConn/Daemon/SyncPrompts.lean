import CesaConn.Auth.Agreement
import CesaConn.Auth.Trust
import CesaConn.Daemon.Answers
import CesaConn.Daemon.Tasks
import Mathlib.Logic.Relation

/-! Whether a sync connection can ask a user.

A sync connection runs the sender's end with a pairing that refuses everything,
and the receiver's end with the pairing of its network. Each device has a daemon,
the inbox of the bridge, and what the bridge is at; everything else may change
both daemons at any time.
-/

set_option autoImplicit false

namespace CesaConn

open Format Program

namespace SyncPrompts

open Auth
open Daemon (PairingRequest queuePairing maxPendingPairings)

structure Side where
  daemon : Daemon.State
  inbox : List PairingRequest := []
  /-- The request that `queue_pairing` is at, and what is left to do. -/
  handling : Option (PairingRequest × Daemon.Task Unit) := none

structure Link where
  devices : Devices
  ends : Role → Proc wire Unit
  sides : Role → Side

inductive Act where
  /-- The connection's end of a device performs an operation. -/
  | talk (role : Role) (fate : Fate)
  /-- Everything else on a device: windows, joins, answers, other connections. -/
  | meanwhile (role : Role) (daemon : Daemon.State) (inbox : List PairingRequest)
  /-- The bridge takes a request, or performs an operation of `queue_pairing`. -/
  | recv (role : Role)
  | handle (role : Role) (outcome : Daemon.Outcome)

def Link.withSide (link : Link) (role : Role) (side : Side) : Link :=
  { link with sides := Function.update link.sides role side }

@[simp] theorem Link.sides_withSide (link : Link) (role : Role) (side : Side) : (link.withSide role side).sides role = side := by
  simp [Link.withSide]

/-- `own` is the decision of this connection's request; on each device there is one at most. -/
def posts (own : Nat) (fate : Fate) : Auth.Op → List PairingRequest
  | .trySend pairing name code => if pairing.inbox && fate.queued then [⟨name, code, own⟩] else []
  | _ => []

variable (own : Nat) (setup : Role → Daemon.Setup)

/-- Requests that were not there belong to other connections. -/
def others (before after : List PairingRequest) : Bool :=
  after.all fun request => request.decision ≠ own || before.contains request

def waiting (daemon : Daemon.State) : List PairingRequest := daemon.pairings.waiting.map Prod.snd

def step (link : Link) : Act → Option Link
  | .talk role fate =>
      match link.ends role with
      | .done _ => none
      | .call op next => do
          let device := { link.devices role with peers := fate.meanwhile.getD (link.devices role).peers }
          let (reply, device) ← device.act (link.devices role.other) fate op
          let side := link.sides role
          return {
            devices := Function.update link.devices role device
            ends := Function.update link.ends role (next reply)
            sides := Function.update link.sides role { side with inbox := side.inbox ++ posts own fate op } }
  | .meanwhile role daemon inbox =>
      let side := link.sides role
      if others own (waiting side.daemon) (waiting daemon) && others own side.inbox inbox then
        some (link.withSide role { side with daemon, inbox })
      else none
  | .recv role =>
      match (link.sides role).inbox, (link.sides role).handling with
      | request :: inbox, none =>
          some (link.withSide role { link.sides role with inbox, handling := some (request, queuePairing request) })
      | _, _ => none
  | .handle role outcome =>
      match (link.sides role).handling with
      | some (request, .call op next) => do
          let (reply, daemon) ← Daemon.exec (setup role) 0 op outcome (link.sides role).daemon
          return link.withSide role { link.sides role with daemon, handling := some (request, next reply) }
      | some (_, .done _) => some (link.withSide role { link.sides role with handling := none })
      | none => none

abbrev Goes (allowed : Link → Act → Prop) : Link → Link → Prop :=
  Relation.ReflTransGen fun before after => ∃ act, allowed before act ∧ step own setup before act = some after

variable {own setup}

/-- A sync connection starts: the sender refuses all pairing, and nobody has a request of this connection. -/
structure Begins (own : Nat) (link : Link) : Prop where
  ends : ∃ (crypto : Primitives) (ends : Role → End crypto) (hash : HandshakeHash), (ends .client).pairing = .refuseAll ∧
    link.ends = fun role => (ends role).afterNoise role hash
  inbox : ∀ role, ∀ request ∈ (link.sides role).inbox, request.decision ≠ own
  waiting : ∀ role, ∀ request ∈ waiting (link.sides role).daemon, request.decision ≠ own
  idle : ∀ role, (link.sides role).handling = none

/-! ## What each end can ask -/

def Refuses : Auth.Op → Prop
  | .trySend pairing _ _ => pairing.inbox = false
  | _ => True

theorem refuses_messages : Messages Refuses := ⟨fun _ _ => trivial, fun _ _ => trivial⟩

variable {crypto : Primitives}

theorem refuses_finishAuth {role : Role} {name : String} {pairing : Pairing} (closed : pairing.inbox = false)
    (identified : Option (Except AuthSnowErrors (Option Identified))) :
    Attempt.All Refuses (finishAuth crypto identified role name pairing) := by
  match identified with
  | none => exact Attempt.all_throw _
  | some (.error _) => exact Attempt.all_throw _
  | some (.ok none) => exact Attempt.all_pure _
  | some (.ok (some ⟨peer, hash, true⟩)) => exact Attempt.all_pure _
  | some (.ok (some ⟨peer, hash, false⟩)) =>
      have saves : Attempt.All Refuses (Auth.savePeer peer) :=
        Attempt.all_bind (Attempt.all_perform (I := wire) trivial) fun reply => by cases reply <;> trivial
      refine Attempt.all_bind (Attempt.all_perform (I := wire) trivial) fun _ => ?_
      refine Attempt.all_bind (Attempt.all_ensure _ _) fun _ => ?_
      refine Attempt.all_bind (all_confirmPairing refuses_messages hash (fun _ => closed) fun _ => trivial) fun _ => ?_
      refine Attempt.all_bind saves fun _ => ?_
      exact Attempt.all_bind (Attempt.all_perform (I := wire) trivial) fun _ => Attempt.all_pure _

/-- The end whose pairing refuses all never asks, whatever it receives. -/
theorem refuses_afterNoise {ours : End crypto} (closed : ours.pairing.inbox = false) (role : Role) (hash : HandshakeHash) :
    (ours.afterNoise role hash).All Refuses := by
  refine Proc.all_bind (Proc.all_limited ?_ trivial) fun identified => ?_
  · refine Attempt.all_bind (all_identifyPeer refuses_messages trivial _ _ _) fun _ => ?_
    exact Attempt.all_bind (Attempt.all_perform (I := wire) trivial) fun _ => Attempt.all_pure _
  · exact Proc.all_bind (refuses_finishAuth closed identified) fun _ => trivial

/-! ## What `queue_pairing` can do -/

def looksForJoin (request : PairingRequest) : Daemon.Task Unit := do
  if ← Daemon.await .joinRunning then Daemon.await (.pushPairing request)
  else return ()

/-- What is left of `queue_pairing`, by whether it found a window or a join. -/
def Queuing (request : PairingRequest) : Bool → Daemon.Task Unit → Prop
  | true, program => program = Daemon.await (.pushPairing request)
  | false, program => program = queuePairing request ∨ program = looksForJoin request ∨ program = .done ()

section

variable {request : PairingRequest} {found : Bool} {op : Daemon.Op} {next : Daemon.Reply op → Daemon.Task Unit}
  {outcome : Daemon.Outcome} {reply : Daemon.Reply op} {daemon daemon' : Daemon.State} {plan : Daemon.Setup}

/-- Looking changes nothing, and what is not there is not found. -/
theorem Queuing.looks (queuing : Queuing request false (.call op next))
    (executed : Daemon.exec plan 0 op outcome daemon = some (reply, daemon')) :
    daemon' = daemon ∧ (∃ found, Queuing request found (next reply)) ∧
      ((op = .loadAdding → daemon.adding = false) → (op = .joinRunning → daemon.joinRunning = false) →
        Queuing request false (next reply)) := by
  obtain same | same | same := queuing
  · have first : Proc.call (I := Daemon.sections) op next = .call .loadAdding fun adding =>
        if adding then Daemon.await (.pushPairing request) else looksForJoin request := same
    cases first
    cases executed
    cases adding : daemon.adding with
    | true => exact ⟨rfl, ⟨true, rfl⟩, fun closed => Bool.noConfusion (closed rfl)⟩
    | false => exact ⟨rfl, ⟨false, .inr (.inl rfl)⟩, fun _ _ => .inr (.inl rfl)⟩
  · have second : Proc.call (I := Daemon.sections) op next = .call .joinRunning fun running =>
        if running then Daemon.await (.pushPairing request) else .done () := same
    cases second
    cases executed
    cases running : daemon.joinRunning with
    | true => exact ⟨rfl, ⟨true, rfl⟩, fun _ closed => Bool.noConfusion (closed rfl)⟩
    | false => exact ⟨rfl, ⟨false, .inr (.inr rfl)⟩, fun _ _ => .inr (.inr rfl)⟩
  · cases same

theorem Queuing.finds (queuing : Queuing request false (.call op next))
    (executed : Daemon.exec plan 0 op outcome daemon = some (reply, daemon'))
    (there : op = .loadAdding ∧ daemon.adding = true ∨ op = .joinRunning ∧ daemon.joinRunning = true) :
    Queuing request true (next reply) := by
  obtain same | same | same := queuing
  · have first : Proc.call (I := Daemon.sections) op next = .call .loadAdding fun adding =>
        if adding then Daemon.await (.pushPairing request) else looksForJoin request := same
    cases first
    cases executed
    obtain ⟨-, adding⟩ | ⟨never, -⟩ := there
    · rw [adding]
      rfl
    · cases never
  · have second : Proc.call (I := Daemon.sections) op next = .call .joinRunning fun running =>
        if running then Daemon.await (.pushPairing request) else .done () := same
    cases second
    cases executed
    obtain ⟨never, -⟩ | ⟨-, running⟩ := there
    · cases never
    · rw [running]
      rfl
  · cases same

theorem Queuing.goes (queuing : Queuing request found (.call op next))
    (executed : Daemon.exec plan 0 op outcome daemon = some (reply, daemon')) : ∃ found, Queuing request found (next reply) := by
  cases found with
  | false => exact (queuing.looks executed).2.1
  | true =>
      cases queuing
      exact ⟨false, .inr (.inr rfl)⟩

theorem waiting_pushPairing (plan : Daemon.Setup) (request : PairingRequest) (outcome : Daemon.Outcome)
    (daemon : Daemon.State) :
    ∃ daemon', Daemon.exec plan 0 (.pushPairing request) outcome daemon = some ((), daemon') ∧
      waiting daemon' = (waiting daemon).filter daemon.alive ++
        if maxPendingPairings ≤ (daemon.pairings.prune daemon.alive).waiting.length then [] else [request] := by
  refine ⟨_, Daemon.exec_pushPairing plan 0 request outcome daemon, ?_⟩
  have alive : (waiting daemon).filter daemon.alive = (daemon.pairings.prune daemon.alive).waiting.map Prod.snd := by
    rw [waiting, List.filter_map]
    rfl
  rw [alive]
  unfold Daemon.PendingPairings.push
  split
  · rw [List.append_nil]
    rfl
  · rw [waiting, Option.getD_some, List.map_append]
    rfl

end

/-! ## What every run keeps -/

def Foreign (own : Nat) (requests : List PairingRequest) : Prop := ∀ request ∈ requests, request.decision ≠ own

theorem Foreign.others {before after : List PairingRequest} (foreign : Foreign own before)
    (other : others own before after = true) : Foreign own after := by
  intro request member
  have allowed := List.all_eq_true.mp other request member
  rw [Bool.or_eq_true, decide_eq_true_eq, List.contains_iff_mem] at allowed
  exact allowed.elim id (foreign request)

/-- The bridge of a side is at `queue_pairing` or idle, and no request of the
connection gets to it on the sender's side. -/
structure Side.Sound (own : Nat) (role : Role) (side : Side) : Prop where
  queuing : ∀ request program, side.handling = some (request, program) → ∃ found, Queuing request found program
  inbox : role = .client → Foreign own side.inbox
  handling : role = .client → ∀ request program, side.handling = some (request, program) → request.decision ≠ own

structure Link.Sound (own : Nat) (link : Link) : Prop where
  refuses : (link.ends .client).All Refuses
  sides : ∀ role, (link.sides role).Sound own role

theorem Begins.sound {link : Link} (begins : Begins own link) : link.Sound own := by
  obtain ⟨crypto, ends, hash, closed, same⟩ := begins.ends
  refine ⟨?_, fun role => ⟨?_, fun _ => begins.inbox role, ?_⟩⟩
  · rw [same]
    apply refuses_afterNoise
    rw [closed]
    rfl
  · intro request program handling
    rw [begins.idle] at handling
    cases handling
  · intro _ request program handling
    rw [begins.idle] at handling
    cases handling

def Side.Room (side : Side) : Prop := (side.daemon.pairings.prune side.daemon.alive).waiting.length < maxPendingPairings

/-- The bridge of this device pushes a request of the connection, and there is room for it. -/
def Pushes (own : Nat) (link : Link) (role : Role) (act : Act) : Prop :=
  ∃ outcome request next, act = .handle role outcome ∧
    (link.sides role).handling = some (request, .call (.pushPairing request) next) ∧ request.decision = own ∧
    (link.sides role).Room

/-- Where `queue_pairing` looks for a window on behalf of the connection there is none, and where
it looks for a join none runs. -/
def Closed (own : Nat) (link : Link) : Act → Prop
  | .handle role _ => ∀ request op next, (link.sides role).handling = some (request, .call op next) →
      request.decision = own → (op = .loadAdding → (link.sides role).daemon.adding = false) ∧
        (op = .joinRunning → (link.sides role).daemon.joinRunning = false)
  | _ => True

section

variable {link next : Link} {act : Act}

theorem Link.Sound.withSide (sound : link.Sound own) {role : Role} {side : Side} (holds : side.Sound own role) :
    (link.withSide role side).Sound own := by
  refine ⟨sound.refuses, ?_⟩
  exact (Function.forall_update_iff link.sides fun role side => side.Sound own role).mpr ⟨holds, fun other _ => sound.sides other⟩

/-- An operation of an end puts a request into the inbox only if it does not refuse. -/
theorem posts_refuses {fate : Fate} {op : Auth.Op} (refuses : Refuses op) : posts own fate op = [] := by
  cases op with
  | trySend pairing name code =>
      have closed : pairing.inbox = false := refuses
      simp only [posts, closed, Bool.false_and]
      rfl
  | _ => rfl

theorem Link.Sound.step (sound : link.Sound own) (stepped : step own setup link act = some next) : next.Sound own := by
  cases act with
  | talk role fate =>
      simp only [SyncPrompts.step] at stepped
      split at stepped
      · cases stepped
      · next op k same =>
        simp only [Option.bind_eq_bind, Option.bind_eq_some_iff, Option.pure_def, Option.some.injEq, Prod.exists] at stepped
        obtain ⟨reply, device, -, rfl⟩ := stepped
        have refuses : role = .client → Refuses op ∧ (k reply).All Refuses := by
          rintro rfl
          have all := sound.refuses
          rw [same] at all
          exact ⟨all.1, all.2 reply⟩
        constructor
        · show (Function.update link.ends role (k reply) .client).All Refuses
          by_cases client : role = .client
          · subst client
            rw [Function.update_self]
            exact (refuses rfl).2
          · rw [Function.update_of_ne (Ne.symm client)]
            exact sound.refuses
        · refine (Function.forall_update_iff link.sides fun role side => side.Sound own role).mpr ⟨?_, fun other _ => sound.sides other⟩
          obtain ⟨queuing, inbox, handling⟩ := sound.sides role
          refine ⟨queuing, fun client => ?_, handling⟩
          rw [posts_refuses (refuses client).1, List.append_nil]
          exact inbox client
  | meanwhile role daemon inbox =>
      simp only [SyncPrompts.step, Option.ite_none_right_eq_some, Bool.and_eq_true, Option.some.injEq] at stepped
      obtain ⟨⟨-, arrived⟩, rfl⟩ := stepped
      obtain ⟨queuing, before, handling⟩ := sound.sides role
      exact sound.withSide ⟨queuing, fun client => (before client).others arrived, handling⟩
  | recv role =>
      simp only [SyncPrompts.step] at stepped
      split at stepped
      · next request rest full idle =>
        cases stepped
        obtain ⟨queuing, inbox, handling⟩ := sound.sides role
        rw [full] at inbox
        refine sound.withSide ⟨?_, fun client => (List.forall_mem_cons.mp (inbox client)).2, ?_⟩
        · intro request program same
          cases same
          exact ⟨false, .inl rfl⟩
        · intro client request program same
          cases same
          exact (List.forall_mem_cons.mp (inbox client)).1
      · cases stepped
  | handle role outcome =>
      simp only [SyncPrompts.step] at stepped
      obtain ⟨queuing, inbox, handling⟩ := sound.sides role
      split at stepped
      · next request op k same =>
        simp only [Option.bind_eq_bind, Option.bind_eq_some_iff, Option.pure_def, Option.some.injEq, Prod.exists] at stepped
        obtain ⟨reply, daemon, executed, rfl⟩ := stepped
        obtain ⟨found, queued⟩ := queuing request _ same
        refine sound.withSide ⟨?_, inbox, ?_⟩
        · intro request' program same'
          cases same'
          exact queued.goes executed
        · intro client request' program same'
          cases same'
          exact handling client request _ same
      · cases stepped
        refine sound.withSide ⟨?_, inbox, ?_⟩
        · exact fun _ _ never => by cases never
        · exact fun _ _ _ never => by cases never
      · cases stepped

theorem Link.Sound.run {allowed : Link → Act → Prop} {last : Link} (sound : link.Sound own)
    (goes : Goes own setup allowed link last) : last.Sound own := by
  induction goes with
  | refl => exact sound
  | tail _ stepped ih =>
      obtain ⟨act, -, stepped⟩ := stepped
      exact ih.step stepped

theorem others_refl (requests : List PairingRequest) : others own requests requests = true := by
  apply List.all_eq_true.mpr
  intro request member
  rw [Bool.or_eq_true, List.contains_iff_mem]
  exact .inr member

/-- Nothing but the bridge of a device brings a request of the connection into its queue. -/
theorem others_step (stepped : step own setup link act = some next) {role : Role}
    (apart : ∀ outcome, act ≠ .handle role outcome) :
    others own (waiting (link.sides role).daemon) (waiting (next.sides role).daemon) = true := by
  have updates (other : Role) (side : Side)
      (holds : other = role → others own (waiting (link.sides role).daemon) (waiting side.daemon) = true) :
      others own (waiting (link.sides role).daemon) (waiting (Function.update link.sides other side role).daemon) = true := by
    by_cases same : other = role
    · have own := holds same
      subst same
      rwa [Function.update_self]
    · rw [Function.update_of_ne (Ne.symm same)]
      exact others_refl _
  cases act with
  | talk other fate =>
      simp only [SyncPrompts.step] at stepped
      split at stepped
      · cases stepped
      · simp only [Option.bind_eq_bind, Option.bind_eq_some_iff, Option.pure_def, Option.some.injEq, Prod.exists] at stepped
        obtain ⟨reply, device, -, rfl⟩ := stepped
        apply updates
        rintro rfl
        exact others_refl _
  | meanwhile other daemon inbox =>
      simp only [SyncPrompts.step, Option.ite_none_right_eq_some, Bool.and_eq_true, Option.some.injEq] at stepped
      obtain ⟨⟨queue, -⟩, rfl⟩ := stepped
      apply updates
      rintro rfl
      exact queue
  | recv other =>
      simp only [SyncPrompts.step] at stepped
      split at stepped
      · cases stepped
        apply updates
        rintro rfl
        exact others_refl _
      · cases stepped
  | handle other outcome =>
      have different : other ≠ role := by
        rintro rfl
        exact apart outcome rfl
      simp only [SyncPrompts.step] at stepped
      split at stepped
      · simp only [Option.bind_eq_bind, Option.bind_eq_some_iff, Option.pure_def, Option.some.injEq, Prod.exists] at stepped
        obtain ⟨reply, daemon, -, rfl⟩ := stepped
        exact updates _ _ fun same => absurd same different
      · cases stepped
        exact updates _ _ fun same => absurd same different
      · cases stepped

theorem foreign_handle (sound : link.Sound own) {role : Role} {outcome : Daemon.Outcome}
    (stepped : step own setup link (.handle role outcome) = some next)
    (foreign : Foreign own (waiting (link.sides role).daemon)) :
    Foreign own (waiting (next.sides role).daemon) ↔ ¬ Pushes own link role (.handle role outcome) := by
  simp only [SyncPrompts.step] at stepped
  split at stepped
  · next request op k same =>
    simp only [Option.bind_eq_bind, Option.bind_eq_some_iff, Option.pure_def, Option.some.injEq, Prod.exists] at stepped
    obtain ⟨reply, daemon, executed, rfl⟩ := stepped
    simp only [Link.withSide, Function.update_self]
    obtain ⟨found, queued⟩ := (sound.sides role).queuing request _ same
    cases found with
    | false =>
        obtain ⟨rfl, -⟩ := queued.looks executed
        refine iff_of_true foreign ?_
        rintro ⟨_, other, _, -, pushing, -⟩
        rw [same] at pushing
        cases pushing
        obtain never | never | never := queued <;> cases never
    | true =>
        cases queued
        obtain ⟨daemon', executed', pushed⟩ := waiting_pushPairing (setup role) request outcome (link.sides role).daemon
        rw [executed'] at executed
        cases executed
        rw [pushed]
        have old : Foreign own ((waiting (link.sides role).daemon).filter (link.sides role).daemon.alive) :=
          fun other member => foreign other (List.mem_of_mem_filter member)
        constructor
        · rintro after ⟨_, other, _, -, pushing, mine, room⟩
          rw [same] at pushing
          cases pushing
          rw [if_neg (Nat.not_le.mpr room)] at after
          exact after request (List.mem_append_right _ (List.mem_singleton_self _)) mine
        · intro calm other member
          obtain earlier | new := List.mem_append.mp member
          · exact old other earlier
          · split at new
            · cases new
            · next room =>
              rw [List.mem_singleton.mp new]
              exact fun mine => calm ⟨outcome, request, _, rfl, same, mine, Nat.not_le.mp room⟩
  · next request value same =>
    cases stepped
    simp only [Link.withSide, Function.update_self]
    refine iff_of_true foreign ?_
    rintro ⟨_, _, _, -, pushing, -⟩
    rw [same] at pushing
    cases pushing
  · cases stepped

/-- A step brings a request of the connection into a queue exactly if it is such a push. -/
theorem foreign_step (sound : link.Sound own) (stepped : step own setup link act = some next) {role : Role}
    (foreign : Foreign own (waiting (link.sides role).daemon)) :
    Foreign own (waiting (next.sides role).daemon) ↔ ¬ Pushes own link role act := by
  by_cases handles : ∃ outcome, act = .handle role outcome
  · obtain ⟨outcome, rfl⟩ := handles
    exact foreign_handle sound stepped foreign
  · have apart : ∀ outcome, act ≠ .handle role outcome := fun outcome same => handles ⟨outcome, same⟩
    refine iff_of_true (foreign.others (others_step stepped apart)) ?_
    rintro ⟨outcome, _, _, same, -⟩
    exact apart outcome same

theorem foreign_run {last : Link} (begins : Begins own link) {role : Role} {allowed : Link → Act → Prop}
    (never : ∀ middle act, Goes own setup allowed link middle → allowed middle act → ¬ Pushes own middle role act)
    (goes : Goes own setup allowed link last) : Foreign own (waiting (last.sides role).daemon) := by
  induction goes with
  | refl => exact begins.waiting role
  | tail before stepped ih =>
      obtain ⟨act, permitted, stepped⟩ := stepped
      exact (foreign_step (begins.sound.run before) stepped ih).mpr (never _ _ before permitted)

theorem client_never_pushes (sound : link.Sound own) : ¬ Pushes own link .client act := by
  rintro ⟨_, request, _, -, handling, mine, -⟩
  exact (sound.sides .client).handling rfl request _ handling mine

/-- For no request of the connection a window or a join was found. -/
def Unfound (own : Nat) (side : Side) : Prop :=
  ∀ request program, side.handling = some (request, program) → request.decision = own → Queuing request false program

theorem unfound_step (unfound : ∀ role, Unfound own (link.sides role)) (closed : Closed own link act)
    (stepped : step own setup link act = some next) : ∀ role, Unfound own (next.sides role) := by
  have updates (role : Role) (side : Side) (holds : Unfound own side) :
      ∀ other, Unfound own (Function.update link.sides role side other) :=
    (Function.forall_update_iff link.sides fun _ side => Unfound own side).mpr ⟨holds, fun other _ => unfound other⟩
  cases act with
  | talk role fate =>
      simp only [SyncPrompts.step] at stepped
      split at stepped
      · cases stepped
      · simp only [Option.bind_eq_bind, Option.bind_eq_some_iff, Option.pure_def, Option.some.injEq, Prod.exists] at stepped
        obtain ⟨reply, device, -, rfl⟩ := stepped
        exact updates _ _ (unfound role)
  | meanwhile role daemon inbox =>
      simp only [SyncPrompts.step, Option.ite_none_right_eq_some, Option.some.injEq] at stepped
      obtain ⟨-, rfl⟩ := stepped
      exact updates _ _ (unfound role)
  | recv role =>
      simp only [SyncPrompts.step] at stepped
      split at stepped
      · cases stepped
        apply updates
        intro request program same _
        cases same
        exact .inl rfl
      · cases stepped
  | handle role outcome =>
      simp only [SyncPrompts.step] at stepped
      split at stepped
      · next request op k same =>
        simp only [Option.bind_eq_bind, Option.bind_eq_some_iff, Option.pure_def, Option.some.injEq, Prod.exists] at stepped
        obtain ⟨reply, daemon, executed, rfl⟩ := stepped
        apply updates
        intro request' program same' mine
        cases same'
        obtain ⟨adding, joining⟩ := closed request _ _ same mine
        exact ((unfound role request _ same mine).looks executed).2.2 adding joining
      · cases stepped
        apply updates
        exact fun _ _ never => by cases never
      · cases stepped

theorem unfound_run {last : Link} (begins : Begins own link) (goes : Goes own setup (Closed own) link last) (role : Role) :
    Unfound own (last.sides role) := by
  induction goes generalizing role with
  | refl =>
      intro request program handling
      rw [begins.idle] at handling
      cases handling
  | tail _ stepped ih =>
      obtain ⟨act, closed, stepped⟩ := stepped
      exact unfound_step ih closed stepped role

theorem Unfound.never_pushes {role : Role} (unfound : Unfound own (link.sides role)) : ¬ Pushes own link role act := by
  rintro ⟨_, request, _, -, handling, mine, -⟩
  obtain never | never | never := unfound request _ handling mine <;> cases never

/-- A look that finds a window or a join is one at the receiver. -/
theorem finds_of_open (sound : link.Sound own) (found : ¬ Closed own link act) :
    ∃ outcome request op next, act = .handle .server outcome ∧
      (link.sides .server).handling = some (request, .call op next) ∧ request.decision = own ∧
      (op = .loadAdding ∧ (link.sides .server).daemon.adding = true ∨
        op = .joinRunning ∧ (link.sides .server).daemon.joinRunning = true) := by
  cases act with
  | handle role outcome =>
      simp only [Closed, not_forall, not_and_or, Bool.not_eq_false, exists_prop] at found
      obtain ⟨request, op, next, handling, mine, found⟩ := found
      cases role with
      | client => exact absurd mine ((sound.sides .client).handling rfl request _ handling)
      | server => exact ⟨outcome, request, op, next, rfl, handling, mine, found⟩
  | _ => exact absurd trivial found

theorem prompts_of_open (sound : link.Sound own) (stepped : step own setup link act = some next)
    (found : ¬ Closed own link act) (room : (link.sides .server).Room) :
    ∃ later, Goes own setup (fun _ _ => True) next later ∧ ¬ Foreign own (waiting (later.sides .server).daemon) := by
  obtain ⟨outcome, request, op, goes, rfl, handling, mine, there⟩ := finds_of_open sound found
  simp only [SyncPrompts.step, handling, Option.bind_eq_bind, Option.bind_eq_some_iff, Option.pure_def, Option.some.injEq,
    Prod.exists] at stepped
  obtain ⟨reply, daemon, executed, rfl⟩ := stepped
  obtain ⟨known, queuing⟩ := (sound.sides .server).queuing request _ handling
  cases known with
  | true =>
      cases queuing
      obtain ⟨never, -⟩ | ⟨never, -⟩ := there <;> cases never
  | false =>
      obtain ⟨rfl, -⟩ := queuing.looks executed
      have pushes : goes reply = Daemon.await (.pushPairing request) := queuing.finds executed there
      obtain ⟨daemon', executed', pushed⟩ := waiting_pushPairing (setup .server) request .done (link.sides .server).daemon
      let side : Side := { link.sides .server with handling := some (request, goes reply) }
      let later : Side := { side with daemon := daemon', handling := some (request, .done ()) }
      have step : step own setup (link.withSide .server side) (.handle .server .done) =
          some ((link.withSide .server side).withSide .server later) := by
        simp only [SyncPrompts.step, Link.sides_withSide, side, pushes]
        show (Daemon.exec (setup .server) 0 (.pushPairing request) .done (link.sides .server).daemon).bind _ = _
        rw [executed']
        rfl
      refine ⟨_, .single ⟨_, trivial, step⟩, fun foreign => foreign request ?_ mine⟩
      rw [Link.sides_withSide]
      show request ∈ waiting daemon'
      rw [pushed, if_neg (Nat.not_le.mpr room)]
      exact List.mem_append_right _ (List.mem_singleton_self _)

/-- A sync connection brings no request into the sender's queue, and none into the receiver's
while `queue_pairing` finds neither a window nor a join. A look that finds one brings the request
in, unless the queue is full. -/
theorem sync_prompts_iff {first last : Link} (begins : Begins own first) :
    (Goes own setup (fun _ _ => True) first last → Foreign own (waiting (last.sides .client).daemon)) ∧
    (Goes own setup (Closed own) first last → ∀ role, Foreign own (waiting (last.sides role).daemon)) ∧
    ∀ act next, Goes own setup (fun _ _ => True) first last → step own setup last act = some next →
      ¬ Closed own last act → (last.sides .server).Room →
        ∃ later, Goes own setup (fun _ _ => True) next later ∧ ¬ Foreign own (waiting (later.sides .server).daemon) := by
  refine ⟨fun goes => ?_, fun goes role => ?_, fun act next goes stepped found room => ?_⟩
  · exact foreign_run begins (fun _ _ before _ => client_never_pushes (begins.sound.run before)) goes
  · exact foreign_run begins (fun _ _ before _ => (unfound_run begins before role).never_pushes) goes
  · exact prompts_of_open (begins.sound.run goes) stepped found room

end

/-! A device connects to one that has forgotten it. -/

def plays (own : Nat) (setup : Role → Daemon.Setup) (calm : Link → Bool) : List Act → Link → Option Link
  | [], link => some link
  | act :: rest, link => if calm link then (step own setup link act).bind (plays own setup calm rest) else none

theorem goes_of_plays {calm : Link → Bool} {allowed : Link → Act → Prop} (allows : ∀ link act, calm link → allowed link act)
    {acts : List Act} {first last : Link} (played : plays own setup calm acts first = some last) :
    Goes own setup allowed first last := by
  induction acts generalizing first with
  | nil =>
      cases played
      exact .refl
  | cons act rest ih =>
      simp only [plays, Option.ite_none_right_eq_some, Option.bind_eq_some_iff] at played
      obtain ⟨quiet, middle, stepped, later⟩ := played
      exact .head ⟨act, allows first act quiet, stepped⟩ (ih later)

def syncing (role : Role) : End Primitives.short :=
  { strangers role with pairing := if role = .client then .refuseAll else .channel }

def forgotten (adding : Bool) : Link where
  devices
    | .client => { peers := [⟨.replicate 32 0x07, .replicate mldsa87VkLen 0x01, "desktop"⟩] }
    | .server => { peers := [] }
  ends role := (syncing role).afterNoise role (.replicate 32 0x03)
  sides _ := { daemon := { Daemon.unpaired with adding } }

theorem begins_forgotten (adding : Bool) : Begins 0 (forgotten adding) where
  ends := ⟨.short, syncing, .replicate 32 0x03, rfl, rfl⟩
  inbox _ _ member := by cases member
  waiting _ _ member := by cases member
  idle _ := rfl

/-- Both identify each other, the receiver asks, and its bridge takes the request. -/
def asking (looks : Nat) : List Act := List.flatten
  [List.replicate 4 (.talk .client {}), List.replicate 6 (.talk .server {}), List.replicate 6 (.talk .client {}),
    List.replicate 12 (.talk .server {}), [.recv .server], List.replicate looks (.handle .server .done)]

def shut (link : Link) : Bool :=
  [Role.client, .server].all fun role => !(link.sides role).daemon.adding && !(link.sides role).daemon.joinRunning

set_option maxRecDepth 1000 in
theorem sync_prompts_closed :
    ∃ last, Goes 0 (fun _ => Daemon.plainSetup) (Closed 0) (forgotten false) last ∧ (last.devices .server).shown ≠ [] ∧
      ∀ role, Foreign 0 (waiting (last.sides role).daemon) := by
  have played : (plays 0 (fun _ => Daemon.plainSetup) shut (asking 3) (forgotten false)).any fun last =>
      (last.devices .server).shown ≠ [] := by decide +kernel
  simp only [Option.any_eq_true, decide_eq_true_eq] at played
  obtain ⟨last, same, shown⟩ := played
  have closed : ∀ link act, shut link → Closed 0 link act := by
    intro link act calm
    cases act with
    | handle role outcome =>
        intro _ _ _ _ _
        simp only [shut, List.all_cons, List.all_nil, Bool.and_true, Bool.and_eq_true, Bool.not_eq_true'] at calm
        cases role with
        | client => exact ⟨fun _ => calm.1.1, fun _ => calm.1.2⟩
        | server => exact ⟨fun _ => calm.2.1, fun _ => calm.2.2⟩
    | _ => trivial
  have goes := goes_of_plays closed same
  exact ⟨last, goes, shown, (sync_prompts_iff (begins_forgotten false)).2.1 goes⟩

set_option maxRecDepth 1000 in
/-- With "Add device" open the receiver asks its user, though the sender never pairs. -/
theorem sync_prompts_forgotten :
    ∃ last, Begins 0 (forgotten true) ∧ Goes 0 (fun _ => Daemon.plainSetup) (fun _ _ => True) (forgotten true) last ∧
      ¬ Foreign 0 (waiting (last.sides .server).daemon) := by
  have played : (plays 0 (fun _ => Daemon.plainSetup) (fun _ => true) (asking 2) (forgotten true)).any fun last =>
      (waiting (last.sides .server).daemon).any fun request => request.decision = 0 := by decide +kernel
  simp only [Option.any_eq_true, List.any_eq_true, decide_eq_true_eq] at played
  obtain ⟨last, same, request, member, mine⟩ := played
  have goes := goes_of_plays (fun _ _ _ => trivial) same
  exact ⟨last, begins_forgotten true, goes, fun foreign => foreign request member mine⟩

end SyncPrompts

end CesaConn
