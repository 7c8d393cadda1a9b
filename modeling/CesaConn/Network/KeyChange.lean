import CesaConn.Network.Receiver
import CesaConn.Peers.Pauses

/-! Changed keys and the connections under way.

A connection copies the authentication key and the data key of the context at
moments of its own and reports what they showed minutes later. An update clears
what the old keys showed first and installs the new ones after that. A version
counts the updates, so that a copy says which keys it is of.
-/

set_option autoImplicit false

namespace CesaConn

open Format

namespace KeyChange

open Receiver (Shared Handler Outcome recvHandler)

/-- The keys of a context and the number of the update that installed them. -/
structure Installed (Keys : Type) where
  keys : Keys
  version : Nat

inductive SendPhase where
  | started
  | copied
  | asked (now : Instant)
  | admitted
  | authenticating
  /-- The failure is recorded, the peer book not told yet. -/
  | wrong
  /-- The success is recorded, the peer book not told yet. -/
  | known (peer : TrustedPeer)
  | sending (peer : TrustedPeer)
  | ended

inductive Answer where
  | wrongConfirmation
  /-- `FailedToConfirmMutualAuthSpake2`: the server closed on our value. -/
  | hungUp
  | handshakeTimeout
  | authenticated (peer : TrustedPeer)
  | answered
  | dataKeyDiffers
  | failed

inductive Side where
  | incoming (handler : Handler)
  | outgoing (connectAddr : SocketAddr) (phase : SendPhase)

structure Connection (Keys : Type) where
  side : Side
  aKey : Option (Installed Keys)
  dKey : Option (Installed Keys)

inductive Update (Keys : Type) where
  | idle
  | read (keys : Keys)
  /-- The book is cleared, the new keys not installed yet. -/
  | cleared (keys : Keys)

structure State (Keys : Type) where
  clock : Instant
  shared : Shared
  context : Installed Keys
  update : Update Keys
  /-- The updates that have cleared the book. -/
  changes : Nat
  connections : List (Connection Keys)

inductive Event (Keys : Type) where
  | tick (now : Instant)
  | accept (peerAddr : SocketAddr)
  | connect (connectAddr : SocketAddr)
  | resume (index : Nat) (outcome : Outcome)
  | proceed (index : Nat) (answer : Answer)
  | leave (index : Nat)
  | read (keys : Keys)
  | keysChanged
  | install

section Connections

variable {Keys : Type} (peerPort : UInt16) (clock : Instant) (context : Installed Keys)

/-- `recv_handler` with the copies it makes: `a_key` when authentication begins,
`d_key` when the header is read. -/
def receive (shared : Shared) (connection : Connection Keys) (handler : Handler) (outcome : Outcome) :
    Option (Shared × Connection Keys) :=
  match handler.phase, connection.aKey, connection.dKey with
  | .authenticating, none, _ => some (shared, { connection with aKey := some context })
  | .reading _, _, none => some (shared, { connection with dKey := some context })
  | _, _, _ => (recvHandler peerPort clock shared handler outcome).map fun (shared, phase) =>
      (shared, { connection with side := .incoming { handler with phase } })

def sendAnswered (shared : Shared) (connection : Connection Keys) (connectAddr : SocketAddr) (phase : SendPhase)
    (answer : Answer) : Option (Shared × Connection Keys) :=
  let ip := connectAddr.ip
  let goes (phase : SendPhase) : Connection Keys := { connection with side := .outgoing connectAddr phase }
  match phase with
  | .started => some (shared, { goes .copied with dKey := some context })
  | .copied => some (shared, goes (.asked clock))
  | .asked now => some (shared, goes (if shared.limiter.isLocked ip now then .ended else .admitted))
  | .admitted => some (shared, { goes .authenticating with aKey := some context })
  | .authenticating =>
      match answer with
      | .wrongConfirmation | .hungUp =>
          some ({ shared with limiter := shared.limiter.recordFailure ip clock }, goes .wrong)
      | .handshakeTimeout => some ({ shared with limiter := shared.limiter.recordFailure ip clock }, goes .ended)
      | .authenticated peer => some ({ shared with limiter := shared.limiter.recordSuccess ip }, goes (.known peer))
      | .answered | .dataKeyDiffers | .failed => some (shared, goes .ended)
  | .wrong => some ({ shared with book := shared.book.wrongPasswordAt ip.octets true clock }, goes .ended)
  | .known peer => some ({ shared with book := shared.book.seen peer connectAddr }, goes (.sending peer))
  | .sending peer =>
      match answer with
      | .answered => some ({ shared with book := shared.book.dataOk peer }, goes .ended)
      | .dataKeyDiffers =>
          some ({ shared with book := shared.book.setState peer .dataPasswordDiffers clock }, goes .ended)
      | .wrongConfirmation | .hungUp | .handshakeTimeout | .authenticated _ | .failed => some (shared, goes .ended)
  | .ended => none

end Connections

variable {Keys : Type}

def step (peerPort : UInt16) (state : State Keys) : Event Keys → Option (State Keys)
  | .tick now => if state.clock ≤ now then some { state with clock := now } else none
  | .accept peerAddr =>
      some { state with connections := state.connections ++ [⟨.incoming ⟨peerAddr, .started⟩, none, none⟩] }
  | .connect connectAddr =>
      some { state with connections := state.connections ++ [⟨.outgoing connectAddr .started, none, none⟩] }
  | .resume index outcome => do
      let connection ← state.connections[index]?
      match connection.side with
      | .incoming handler =>
          let (shared, connection) ← receive peerPort state.clock state.context state.shared connection handler outcome
          some { state with shared, connections := state.connections.set index connection }
      | .outgoing _ _ => none
  | .proceed index answer => do
      let connection ← state.connections[index]?
      match connection.side with
      | .incoming _ => none
      | .outgoing connectAddr phase =>
          let (shared, connection) ←
            sendAnswered state.clock state.context state.shared connection connectAddr phase answer
          some { state with shared, connections := state.connections.set index connection }
  | .leave index => some { state with connections := state.connections.eraseIdx index }
  | .read keys =>
      match state.update with
      | .idle => some { state with update := .read keys }
      | .read _ | .cleared _ => none
  | .keysChanged =>
      match state.update with
      | .read keys => some { state with
          shared := { state.shared with book := state.shared.book.keysChanged }
          update := .cleared keys
          changes := state.changes + 1 }
      | .idle | .cleared _ => none
  | .install =>
      match state.update with
      | .cleared keys => some { state with context := ⟨keys, state.changes⟩, update := .idle }
      | .idle | .read _ => none

/-! ## What a connection writes into the book -/

def Connection.Holds (connection : Connection Keys) (copy : Installed Keys) : Prop :=
  connection.aKey = some copy ∨ connection.dKey = some copy

def Connection.Copies (connection : Connection Keys) : Prop :=
  match connection.side with
  | .incoming handler =>
      handler.phase = .authenticating ∧ connection.aKey = none ∨
        (∃ peer, handler.phase = .reading peer) ∧ connection.dKey = none
  | .outgoing _ phase => phase = .started ∨ phase = .admitted

/-- The connection reports nothing more. -/
def Connection.Done (connection : Connection Keys) : Prop :=
  match connection.side with
  | .incoming handler => handler.phase = .ended
  | .outgoing _ phase => phase = .ended

def receiveWrites (peerPort : UInt16) (connection : Connection Keys) (handler : Handler) (outcome : Outcome) :
    Option PeerBook.Op :=
  let ip := handler.peerAddr.ip
  match handler.phase, connection.dKey, outcome with
  | .wrong, _, _ => some (.wrongPasswordAt ip.octets false)
  | .known peer, _, _ => some (.seen peer (.new ip peerPort))
  | .reading peer, some _, .data => some (.dataOk peer)
  | .reading peer, some _, .undecryptable => some (.setState peer .dataPasswordDiffers)
  | _, _, _ => none

def sendWrites (connectAddr : SocketAddr) (phase : SendPhase) (answer : Answer) : Option PeerBook.Op :=
  match phase, answer with
  | .wrong, _ => some (.wrongPasswordAt connectAddr.ip.octets true)
  | .known peer, _ => some (.seen peer connectAddr)
  | .sending peer, .answered => some (.dataOk peer)
  | .sending peer, .dataKeyDiffers => some (.setState peer .dataPasswordDiffers)
  | _, _ => none

def performed (book : PeerBook) (clock : Instant) : Option PeerBook.Op → PeerBook
  | none => book
  | some op => book.perform ⟨op, clock⟩

theorem Connection.holds_aKey {connection : Connection Keys} {side : Side} {copied copy : Installed Keys}
    (holds : (⟨side, some copied, connection.dKey⟩ : Connection Keys).Holds copy) : connection.Holds copy ∨ copy = copied := by
  rcases holds with new | old
  · exact .inr (Option.some.inj new).symm
  · exact .inl (.inr old)

theorem Connection.holds_dKey {connection : Connection Keys} {side : Side} {copied copy : Installed Keys}
    (holds : (⟨side, connection.aKey, some copied⟩ : Connection Keys).Holds copy) : connection.Holds copy ∨ copy = copied := by
  rcases holds with old | new
  · exact .inl (.inl old)
  · exact .inr (Option.some.inj new).symm

section Parts

variable {peerPort : UInt16} {clock : Instant} {context : Installed Keys} {shared shared' : Shared}
  {connection connection' : Connection Keys}

/-- A part of a handler writes what is said above, and ends with no copies but
those it had and the one it makes. -/
theorem receive_spec {handler : Handler} {outcome : Outcome} (side : connection.side = .incoming handler)
    (ran : receive peerPort clock context shared connection handler outcome = some (shared', connection')) :
    shared'.book = performed shared.book clock (receiveWrites peerPort connection handler outcome) ∧
    ¬ connection.Done ∧
    ∀ copy, connection'.Holds copy → connection.Holds copy ∨ connection.Copies ∧ copy = context := by
  obtain ⟨peerAddr, phase⟩ := handler
  obtain ⟨_, aKey, dKey⟩ := connection
  cases side
  cases phase with
  -- the authentication key is copied where authentication begins
  | authenticating =>
      cases aKey with
      | none =>
          simp only [receive, Option.some.injEq, Prod.mk.injEq] at ran
          obtain ⟨rfl, rfl⟩ := ran
          refine ⟨rfl, by simp [Connection.Done], ?_⟩
          intro copy holds
          exact (Connection.holds_aKey holds).imp_right fun new => ⟨.inl ⟨rfl, rfl⟩, new⟩
      | some key =>
          cases outcome with
          | _ =>
              simp only [receive, recvHandler, Option.map_some, Option.some.injEq, Prod.mk.injEq] at ran
              obtain ⟨rfl, rfl⟩ := ran
              exact ⟨rfl, by simp [Connection.Done], fun copy holds => .inl holds⟩
  -- the data key where the header is read
  | reading peer =>
      cases dKey with
      | none =>
          simp only [receive, Option.some.injEq, Prod.mk.injEq] at ran
          obtain ⟨rfl, rfl⟩ := ran
          refine ⟨rfl, by simp [Connection.Done], ?_⟩
          intro copy holds
          exact (Connection.holds_dKey holds).imp_right fun new => ⟨.inr ⟨⟨peer, rfl⟩, rfl⟩, new⟩
      | some key =>
          cases outcome with
          | _ =>
              simp only [receive, recvHandler, Option.map_some, Option.some.injEq, Prod.mk.injEq] at ran
              obtain ⟨rfl, rfl⟩ := ran
              exact ⟨rfl, by simp [Connection.Done], fun copy holds => .inl holds⟩
  | ended => simp [receive, recvHandler] at ran
  | _ =>
      simp only [receive, recvHandler, Option.map_some, Option.some.injEq, Prod.mk.injEq] at ran
      obtain ⟨rfl, rfl⟩ := ran
      exact ⟨rfl, by simp [Connection.Done], fun copy holds => .inl holds⟩

theorem sendAnswered_spec {connectAddr : SocketAddr} {phase : SendPhase} {answer : Answer}
    (side : connection.side = .outgoing connectAddr phase)
    (ran : sendAnswered clock context shared connection connectAddr phase answer = some (shared', connection')) :
    shared'.book = performed shared.book clock (sendWrites connectAddr phase answer) ∧
    ¬ connection.Done ∧
    ∀ copy, connection'.Holds copy → connection.Holds copy ∨ connection.Copies ∧ copy = context := by
  obtain ⟨_, aKey, dKey⟩ := connection
  cases side
  cases phase with
  | started =>
      simp only [sendAnswered, Option.some.injEq, Prod.mk.injEq] at ran
      obtain ⟨rfl, rfl⟩ := ran
      refine ⟨rfl, by simp [Connection.Done], ?_⟩
      intro copy holds
      exact (Connection.holds_dKey holds).imp_right fun new => ⟨.inl rfl, new⟩
  | admitted =>
      simp only [sendAnswered, Option.some.injEq, Prod.mk.injEq] at ran
      obtain ⟨rfl, rfl⟩ := ran
      refine ⟨rfl, by simp [Connection.Done], ?_⟩
      intro copy holds
      exact (Connection.holds_aKey holds).imp_right fun new => ⟨.inr rfl, new⟩
  | ended => simp [sendAnswered] at ran
  | _ =>
      cases answer with
      | _ =>
          simp only [sendAnswered, Option.some.injEq, Prod.mk.injEq] at ran
          obtain ⟨rfl, rfl⟩ := ran
          exact ⟨rfl, by simp [Connection.Done], fun copy holds => .inl holds⟩

end Parts

/-! ## Reports of old keys -/

def State.writes (peerPort : UInt16) (state : State Keys) : Event Keys → Option (Connection Keys × PeerBook.Op)
  | .resume index outcome => do
      let connection ← state.connections[index]?
      match connection.side with
      | .incoming handler => (receiveWrites peerPort connection handler outcome).map fun op => (connection, op)
      | .outgoing _ _ => none
  | .proceed index answer => do
      let connection ← state.connections[index]?
      match connection.side with
      | .incoming _ => none
      | .outgoing connectAddr phase => (sendWrites connectAddr phase answer).map fun op => (connection, op)
  | _ => none

def Mismatch : PeerBook.Op → Prop
  | .wrongPasswordAt _ _ => True
  | .setState _ state => state = .authPasswordDiffers ∨ state = .dataPasswordDiffers
  | _ => False

/-- The step records a mismatch found with keys from before a change for which
the book is cleared already. -/
def Stale (peerPort : UInt16) (state : State Keys) (event : Event Keys) : Prop :=
  ∃ connection op copy, state.writes peerPort event = some (connection, op) ∧ Mismatch op ∧
    connection.Holds copy ∧ copy.version < state.changes

/-- The book is cleared when no connection holds keys, and no connection copies
keys from then on until the new ones are installed. -/
def Careful (state : State Keys) : Event Keys → Prop
  | .keysChanged => ∀ connection ∈ state.connections, connection.Done ∨ ∀ copy, ¬ connection.Holds copy
  | .resume index _ | .proceed index _ => (∃ keys, state.update = .cleared keys) →
      ∀ connection, state.connections[index]? = some connection → ¬ connection.Copies
  | _ => True

inductive Run (allowed : State Keys → Event Keys → Prop) (peerPort : UInt16) : State Keys → Prop where
  | start {state : State Keys} : state.connections = [] → state.update = .idle →
      state.context.version = state.changes → Run allowed peerPort state
  | next {state next : State Keys} (event : Event Keys) : Run allowed peerPort state → allowed state event →
      step peerPort state event = some next → Run allowed peerPort next

/-- The copies that can still be reported are of the current keys. -/
structure Fresh (state : State Keys) : Prop where
  copies : ∀ connection ∈ state.connections, connection.Done ∨ ∀ copy, connection.Holds copy → copy.version = state.changes
  context : (∀ keys, state.update ≠ .cleared keys) → state.context.version = state.changes

section Runs

variable {peerPort : UInt16} {state next : State Keys}

theorem writes_spec {event : Event Keys} {connection : Connection Keys} {op : Option PeerBook.Op}
    (writes : state.writes peerPort event = op.map fun op => (connection, op)) :
    (state.writes peerPort event).map Prod.snd = op ∧
      ∀ written, state.writes peerPort event = some written → written.1 = connection := by
  rw [writes]
  cases op with
  | none => exact ⟨rfl, by simp⟩
  | some op => exact ⟨rfl, by simp⟩

/-- A step of a connection: what it is of, what it writes and what it leaves. -/
theorem connection_step {event : Event Keys} {index : Nat}
    (which : (∃ outcome, event = .resume index outcome) ∨ ∃ answer, event = .proceed index answer)
    (stepped : step peerPort state event = some next) :
    ∃ connection connection' shared, state.connections[index]? = some connection ∧
      next = { state with shared, connections := state.connections.set index connection' } ∧
      shared.book = performed state.shared.book state.clock ((state.writes peerPort event).map Prod.snd) ∧
      (∀ written, state.writes peerPort event = some written → written.1 = connection) ∧ ¬ connection.Done ∧
      ∀ copy, connection'.Holds copy → connection.Holds copy ∨ connection.Copies ∧ copy = state.context := by
  rcases which with ⟨outcome, rfl⟩ | ⟨answer, rfl⟩
  · simp only [step, Option.bind_eq_bind, Option.bind_eq_some_iff] at stepped
    obtain ⟨connection, found, stepped⟩ := stepped
    cases side : connection.side with
    | outgoing connectAddr phase => simp [side] at stepped
    | incoming handler =>
        simp only [side, Option.bind_eq_some_iff, Prod.exists, Option.some.injEq] at stepped
        obtain ⟨shared, connection', ran, rfl⟩ := stepped
        obtain ⟨book, done, copies⟩ := receive_spec side ran
        have writes : state.writes peerPort (.resume index outcome) =
            (receiveWrites peerPort connection handler outcome).map fun op => (connection, op) := by
          simp [State.writes, found, side]
        obtain ⟨op, own⟩ := writes_spec writes
        exact ⟨connection, connection', shared, found, rfl, op ▸ book, own, done, copies⟩
  · simp only [step, Option.bind_eq_bind, Option.bind_eq_some_iff] at stepped
    obtain ⟨connection, found, stepped⟩ := stepped
    cases side : connection.side with
    | incoming handler => simp [side] at stepped
    | outgoing connectAddr phase =>
        simp only [side, Option.bind_eq_some_iff, Prod.exists, Option.some.injEq] at stepped
        obtain ⟨shared, connection', ran, rfl⟩ := stepped
        obtain ⟨book, done, copies⟩ := sendAnswered_spec side ran
        have writes : state.writes peerPort (.proceed index answer) =
            (sendWrites connectAddr phase answer).map fun op => (connection, op) := by
          simp [State.writes, found, side]
        obtain ⟨op, own⟩ := writes_spec writes
        exact ⟨connection, connection', shared, found, rfl, op ▸ book, own, done, copies⟩

theorem Fresh.connection {event : Event Keys} {index : Nat} (fresh : Fresh state)
    (which : (∃ outcome, event = .resume index outcome) ∨ ∃ answer, event = .proceed index answer)
    (careful : (∃ keys, state.update = .cleared keys) →
      ∀ connection, state.connections[index]? = some connection → ¬ connection.Copies)
    (stepped : step peerPort state event = some next) : Fresh next := by
  obtain ⟨connection, connection', shared, found, rfl, -, -, done, copies⟩ := connection_step which stepped
  refine ⟨?_, fresh.context⟩
  intro other member
  rcases List.mem_or_eq_of_mem_set member with old | rfl
  · exact fresh.copies other old
  · refine .inr fun copy holds => ?_
    rcases copies copy holds with old | ⟨new, rfl⟩
    · exact (fresh.copies connection (List.mem_of_getElem? found)).resolve_left done copy old
    · exact fresh.context fun keys same => careful ⟨keys, same⟩ connection found new

theorem Fresh.step {event : Event Keys} (fresh : Fresh state) (careful : Careful state event)
    (stepped : step peerPort state event = some next) : Fresh next := by
  have added : ∀ side : Side, ∀ connection ∈ state.connections ++ [⟨side, none, none⟩],
      connection.Done ∨ ∀ copy, connection.Holds copy → copy.version = state.changes := by
    intro side connection member
    rcases List.mem_append.mp member with old | new
    · exact fresh.copies connection old
    · cases List.mem_singleton.mp new
      exact .inr fun copy holds => by rcases holds with none | none <;> cases none
  cases event with
  | tick now =>
      simp only [KeyChange.step, Option.ite_none_right_eq_some, Option.some.injEq] at stepped
      obtain ⟨-, rfl⟩ := stepped
      exact ⟨fresh.copies, fresh.context⟩
  | accept peerAddr =>
      cases stepped
      exact ⟨added _, fresh.context⟩
  | connect connectAddr =>
      cases stepped
      exact ⟨added _, fresh.context⟩
  | resume index outcome => exact fresh.connection (.inl ⟨outcome, rfl⟩) careful stepped
  | proceed index answer => exact fresh.connection (.inr ⟨answer, rfl⟩) careful stepped
  | leave index =>
      cases stepped
      exact ⟨fun connection member => fresh.copies connection ((List.eraseIdx_sublist _ _).subset member), fresh.context⟩
  | read keys =>
      simp only [KeyChange.step] at stepped
      split at stepped
      · next idle =>
        cases stepped
        exact ⟨fresh.copies, fun _ => fresh.context fun keys same => by rw [idle] at same; cases same⟩
      · cases stepped
      · cases stepped
  | keysChanged =>
      simp only [KeyChange.step] at stepped
      split at stepped
      · cases stepped
        -- nobody holds keys, so nobody holds old ones
        refine ⟨fun connection member => (careful connection member).imp id fun none copy holds => absurd holds (none copy), ?_⟩
        intro other
        exact absurd rfl (other _)
      · cases stepped
      · cases stepped
  | install =>
      simp only [KeyChange.step] at stepped
      split at stepped
      · cases stepped
        exact ⟨fresh.copies, fun _ => rfl⟩
      · cases stepped
      · cases stepped

theorem Run.fresh (run : Run Careful peerPort state) : Fresh state := by
  induction run with
  | start none idle same => exact ⟨by simp [none], fun _ => same⟩
  | next event _ careful stepped ih => exact ih.step careful stepped

end Runs

/-- In every run in which the book is cleared while no connection holds keys, and
none copies keys before the new ones are installed, no mismatch found with old
keys is recorded. -/
theorem old_keys_not_reported {peerPort : UInt16} {state next : State Keys} {event : Event Keys}
    (run : Run Careful peerPort state) (stepped : step peerPort state event = some next) :
    ¬ Stale peerPort state event := by
  intro ⟨connection, op, copy, writes, _, holds, older⟩
  have reports : ∀ index, ((∃ outcome, event = .resume index outcome) ∨ ∃ answer, event = .proceed index answer) → False := by
    intro index which
    obtain ⟨own, _, _, found, _, _, same, done, _⟩ := connection_step which stepped
    -- the connection that writes is the one that takes the step, and it is not done
    cases same _ writes
    have current := (run.fresh.copies connection (List.mem_of_getElem? found)).resolve_left done copy holds
    omega
  cases event with
  | resume index outcome => exact reports index (.inl ⟨outcome, rfl⟩)
  | proceed index answer => exact reports index (.inr ⟨answer, rfl⟩)
  | _ => cases writes

open PeerBook (tablet tabletAddr)

/-- Nothing runs; a paired device is known. -/
def quiet : State (Block 32) :=
  ⟨0, ⟨.new, PeerBook.empty.seen tablet tabletAddr⟩, ⟨.replicate 32 1, 0⟩, .idle, 0, []⟩

def sending (limiter : GuessLimiter) (update : Update (Block 32)) (changes : Nat) (phase : SendPhase) :
    State (Block 32) :=
  { quiet with
    shared := ⟨limiter, quiet.shared.book⟩, update, changes
    connections := [⟨.outgoing tabletAddr phase, some quiet.context, some quiet.context⟩] }

theorem Run.connects {allowed : State (Block 32) → Event (Block 32) → Prop}
    (free : ∀ state event, state.update = .idle → event ≠ .keysChanged → allowed state event)
    {book : PeerBook} {context : Installed (Block 32)} {changes : Nat}
    (run : Run allowed 3232 ⟨0, ⟨.new, book⟩, context, .idle, changes, []⟩) :
    Run allowed 3232 ⟨0, ⟨.new, book⟩, context, .idle, changes,
      [⟨.outgoing tabletAddr .authenticating, some context, some context⟩]⟩ := by
  have unlocked : GuessLimiter.new.isLocked tabletAddr.ip 0 = false := by
    rw [GuessLimiter.isLocked_eq, GuessLimiter.lookup_new]
    rfl
  let waiting (phase : SendPhase) : State (Block 32) :=
    ⟨0, ⟨.new, book⟩, context, .idle, changes, [⟨.outgoing tabletAddr phase, none, some context⟩]⟩
  have connected := run.next (.connect tabletAddr) (free _ _ rfl (by simp)) rfl
  have copied := connected.next (.proceed 0 .failed) (free _ _ rfl (by simp)) rfl
  have asked : Run allowed 3232 (waiting (.asked 0)) := copied.next (.proceed 0 .failed) (free _ _ rfl (by simp)) rfl
  have told : step 3232 (waiting (.asked 0)) (.proceed 0 .failed) = some (waiting .admitted) := by
    simp only [step, waiting, List.getElem?_cons_zero, Option.bind_eq_bind, Option.bind_some, sendAnswered, unlocked]
    rfl
  have admitted := asked.next (.proceed 0 .failed) (free _ _ rfl (by simp)) told
  exact admitted.next (.proceed 0 .failed) (free _ _ rfl (by simp)) rfl

def counted : GuessLimiter := GuessLimiter.new.recordFailure tabletAddr.ip 0

def newKeys : Installed (Block 32) := ⟨.replicate 32 2, 1⟩

/-- The keys were changed while nothing ran, and a connection found with the new ones that
the passwords differ. -/
def changed : State (Block 32) :=
  ⟨0, ⟨counted, quiet.shared.book.keysChanged⟩, newKeys, .idle, 1, [⟨.outgoing tabletAddr .wrong, some newKeys, some newKeys⟩]⟩

/-- It records that, and it is right to. -/
theorem old_keys_not_reported_changed : Run Careful 3232 changed ∧ changed.changes = 1 ∧
    (∃ connection op, changed.writes 3232 (.proceed 0 .failed) = some (connection, op) ∧ Mismatch op ∧
      connection.Holds newKeys) ∧
    ¬ Stale 3232 changed (.proceed 0 .failed) := by
  have careful : ∀ (state : State (Block 32)) (event : Event (Block 32)), state.update = .idle →
      event ≠ .keysChanged → Careful state event := by
    intro state event idle other
    cases event with
    | keysChanged => exact absurd rfl other
    | resume index outcome => exact fun ⟨keys, same⟩ => by rw [idle] at same; cases same
    | proceed index answer => exact fun ⟨keys, same⟩ => by rw [idle] at same; cases same
    | _ => exact trivial
  have begun : Run Careful 3232 quiet := .start rfl rfl rfl
  have read := begun.next (.read newKeys.keys) trivial rfl
  have cleared := read.next .keysChanged (fun _ member => by cases member) rfl
  have installed := cleared.next .install trivial rfl
  have failed : Run Careful 3232 changed := (installed.connects careful).next (.proceed 0 .hungUp) (careful _ _ rfl (by simp)) rfl
  exact ⟨failed, rfl, ⟨_, _, rfl, trivial, .inl rfl⟩, old_keys_not_reported failed rfl⟩

/-- A device is shown with an incorrect password, and paused, for what a
connection found with the keys from before the update. -/
theorem old_keys_reported : ∃ state next : State (Block 32), Run (fun _ _ => True) 3232 state ∧
    step 3232 state (.proceed 0 .failed) = some next ∧ Stale 3232 state (.proceed 0 .failed) ∧
    next.shared.book.state tablet = .authPasswordDiffers ∧ next.shared.book.targets [tablet] next.clock = [] := by
  have idle : Run (fun _ _ => True) 3232 quiet := .start rfl rfl rfl
  have begun : Run (fun _ _ => True) 3232 (sending .new .idle 0 .authenticating) := idle.connects fun _ _ _ _ => trivial
  have read := begun.next (.read (.replicate 32 2)) trivial rfl
  have cleared := read.next .keysChanged trivial rfl
  have installed := cleared.next .install trivial rfl
  have failed := installed.next (.proceed 0 .hungUp) trivial rfl
  refine ⟨_, _, failed, rfl, ?_, rfl, rfl⟩
  exact ⟨_, _, quiet.context, rfl, trivial, .inl rfl, by decide⟩

end KeyChange

end CesaConn
