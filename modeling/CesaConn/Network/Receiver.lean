import CesaConn.Network.GuessLimiter

/-! Incoming connections and the limit on guesses.

`recv` admits a connection while fewer than sixteen handlers run. A handler asks
once whether its source is locked and may report a wrong password long after, so
a lockout does not stop the handlers that were admitted before it. The state
holds what handlers share: the limiter and the peer book, which the outgoing
connections use as well. A step runs to the next point where the code awaits.
-/

set_option autoImplicit false

namespace CesaConn

open Format

def SocketAddr.new : IpAddr → UInt16 → SocketAddr
  | .v4 octets, port => .v4 octets port
  | .v6 octets, port => .v6 octets port 0 0

def IpAddr.octets : IpAddr → Bytes
  | .v4 octets => octets.toList
  | .v6 octets => octets.toList

namespace Receiver

def maxConcurrentConnections : Nat := 16

inductive Phase where
  | started
  /-- `is_locked` read the clock and waits for the map. -/
  | asked (now : Instant)
  | authenticating
  /-- The failure is recorded, the peer book not told yet. -/
  | wrong
  /-- The success is recorded, the peer book not told yet. -/
  | known (peer : TrustedPeer)
  | reading (peer : TrustedPeer)
  /-- It uses the limiter and the book no more, but holds its slot. -/
  | ended

def Phase.authenticates : Phase → Bool
  | .authenticating => true
  | .started | .asked _ | .wrong | .known _ | .reading _ | .ended => false

structure Handler where
  peerAddr : SocketAddr
  phase : Phase

inductive Outcome where
  | wrongConfirmation
  | authenticated (peer : TrustedPeer)
  | data
  | undecryptable
  | failed

inductive Outgoing where
  | recordFailure (ip : IpAddr)
  | recordSuccess (ip : IpAddr)
  | wrongPasswordAt (ip : IpAddr)
  | seen (peer : TrustedPeer) (addr : SocketAddr)
  | dataOk (peer : TrustedPeer)
  | setState (peer : TrustedPeer) (state : PeerState)

inductive Event where
  | tick (now : Instant)
  | accept (peerAddr : SocketAddr)
  | resume (index : Nat) (outcome : Outcome)
  | leave (index : Nat)
  | outgoing (call : Outgoing)

structure Shared where
  limiter : GuessLimiter
  book : PeerBook

structure State where
  clock : Instant
  shared : Shared
  handlers : List Handler
  few : handlers.length ≤ maxConcurrentConnections

/-- The next part of `recv_handler`; `peerPort` is where devices listen. -/
def recvHandler (peerPort : UInt16) (clock : Instant) (shared : Shared) (handler : Handler) (outcome : Outcome) :
    Option (Shared × Phase) :=
  let ip := handler.peerAddr.ip
  match handler.phase with
  | .started => some (shared, .asked clock)
  | .asked now => some (shared, if shared.limiter.isLocked ip now then .ended else .authenticating)
  | .authenticating =>
      match outcome with
      | .wrongConfirmation => some ({ shared with limiter := shared.limiter.recordFailure ip clock }, .wrong)
      | .authenticated peer => some ({ shared with limiter := shared.limiter.recordSuccess ip }, .known peer)
      | .data | .undecryptable | .failed => some (shared, .ended)
  | .wrong => some ({ shared with book := shared.book.wrongPasswordAt ip.octets false clock }, .ended)
  | .known peer => some ({ shared with book := shared.book.seen peer (.new ip peerPort) }, .reading peer)
  | .reading peer =>
      match outcome with
      | .data => some ({ shared with book := shared.book.dataOk peer }, .ended)
      | .undecryptable => some ({ shared with book := shared.book.setState peer .dataPasswordDiffers clock }, .ended)
      | .wrongConfirmation | .authenticated _ | .failed => some (shared, .ended)
  | .ended => none

def outgoing (clock : Instant) (shared : Shared) : Outgoing → Shared
  | .recordFailure ip => { shared with limiter := shared.limiter.recordFailure ip clock }
  | .recordSuccess ip => { shared with limiter := shared.limiter.recordSuccess ip }
  | .wrongPasswordAt ip => { shared with book := shared.book.wrongPasswordAt ip.octets true clock }
  | .seen peer addr => { shared with book := shared.book.seen peer addr }
  | .dataOk peer => { shared with book := shared.book.dataOk peer }
  | .setState peer state => { shared with book := shared.book.setState peer state clock }

/-- All that a part of a handler does to the limiter, and where the handler is then. -/
theorem recvHandler_cases {peerPort : UInt16} {clock : Instant} {shared shared' : Shared} {handler : Handler}
    {outcome : Outcome} {phase : Phase} (ran : recvHandler peerPort clock shared handler outcome = some (shared', phase)) :
    handler.phase = .authenticating ∧ outcome = .wrongConfirmation ∧
      shared' = { shared with limiter := shared.limiter.recordFailure handler.peerAddr.ip clock } ∧ phase = .wrong ∨
    (handler.phase = .authenticating ∧ ∃ peer, outcome = .authenticated peer ∧
      shared' = { shared with limiter := shared.limiter.recordSuccess handler.peerAddr.ip } ∧ phase = .known peer) ∨
    shared'.limiter = shared.limiter ∧ (outcome = .wrongConfirmation → handler.phase.authenticates = false) ∧
      (phase = .asked clock ∨
        (∃ now, handler.phase = .asked now ∧ shared.limiter.isLocked handler.peerAddr.ip now = false ∧
          phase = .authenticating) ∨
        phase.authenticates = false ∧ ∀ now, phase ≠ .asked now) := by
  cases place : handler.phase with
  | started =>
      simp only [recvHandler, place, Option.some.injEq, Prod.mk.injEq] at ran
      obtain ⟨rfl, rfl⟩ := ran
      exact .inr (.inr ⟨rfl, fun _ => rfl, .inl rfl⟩)
  | asked now =>
      simp only [recvHandler, place, Option.some.injEq, Prod.mk.injEq] at ran
      obtain ⟨rfl, rfl⟩ := ran
      refine .inr (.inr ⟨rfl, fun _ => rfl, .inr ?_⟩)
      split
      · exact .inr ⟨rfl, fun _ => by simp⟩
      · next free => exact .inl ⟨now, rfl, by simpa using free, rfl⟩
  | authenticating =>
      cases outcome with
      | wrongConfirmation =>
          simp only [recvHandler, place, Option.some.injEq, Prod.mk.injEq] at ran
          exact .inl ⟨rfl, rfl, ran.1.symm, ran.2.symm⟩
      | authenticated peer =>
          simp only [recvHandler, place, Option.some.injEq, Prod.mk.injEq] at ran
          exact .inr (.inl ⟨rfl, peer, rfl, ran.1.symm, ran.2.symm⟩)
      | _ =>
          simp only [recvHandler, place, Option.some.injEq, Prod.mk.injEq] at ran
          obtain ⟨rfl, rfl⟩ := ran
          exact .inr (.inr ⟨rfl, (fun same => by cases same), .inr (.inr ⟨rfl, fun _ => by simp⟩)⟩)
  | ended => simp [recvHandler, place] at ran
  | _ =>
      -- the rest of a handler touches the book only
      cases outcome with
      | _ =>
          simp only [recvHandler, place, Option.some.injEq, Prod.mk.injEq] at ran
          obtain ⟨rfl, rfl⟩ := ran
          exact .inr (.inr ⟨rfl, fun _ => rfl, .inr (.inr ⟨rfl, fun _ => by simp⟩)⟩)

theorem length_accept {handlers : List Handler} (handler : Handler) (free : handlers.length < maxConcurrentConnections) :
    (handlers ++ [handler]).length ≤ maxConcurrentConnections := by
  rw [List.length_append]
  exact free

def step (peerPort : UInt16) (state : State) : Event → Option State
  | .tick now => if state.clock ≤ now then some { state with clock := now } else none
  | .accept peerAddr =>
      -- without a free slot the connection is closed at once
      if free : state.handlers.length < maxConcurrentConnections then
        some { state with handlers := state.handlers ++ [⟨peerAddr, .started⟩], few := length_accept _ free }
      else some state
  | .resume index outcome => do
      let handler ← state.handlers[index]?
      let (shared, phase) ← recvHandler peerPort state.clock state.shared handler outcome
      some { state with
        shared
        handlers := state.handlers.set index { handler with phase }
        few := by simpa using state.few }
  | .leave index =>
      some { state with
        handlers := state.handlers.eraseIdx index
        few := (List.eraseIdx_sublist _ _).length_le.trans state.few }
  | .outgoing call => some { state with shared := outgoing state.clock state.shared call }

theorem step_clock {peerPort : UInt16} {state next : State} {event : Event}
    (stepped : step peerPort state event = some next) : state.clock ≤ next.clock := by
  cases event with
  | tick now =>
      simp only [step, Option.ite_none_right_eq_some, Option.some.injEq] at stepped
      obtain ⟨later, rfl⟩ := stepped
      exact later
  | accept peerAddr =>
      simp only [step] at stepped
      split at stepped
      · cases stepped
        exact Nat.le_refl _
      · cases stepped
        exact Nat.le_refl _
  | resume index outcome =>
      simp only [step, Option.bind_eq_bind, Option.bind_eq_some_iff, Option.some.injEq] at stepped
      obtain ⟨_, _, _, _, rfl⟩ := stepped
      exact Nat.le_refl _
  | leave index =>
      cases stepped
      exact Nat.le_refl _
  | outgoing call =>
      cases stepped
      exact Nat.le_refl _

/-! ## Guesses of one source -/

def State.entry (state : State) (source : Source) : Option GuessLimiter.Entry := state.shared.limiter.lookup source

def State.locked (state : State) (source : Source) : Bool :=
  (state.entry source).any fun entry => entry.isLocked state.clock

/-- A handler of the source that may still evaluate a confirmation. -/
def Handler.ready (source : Source) (handler : Handler) : Bool :=
  Source.of handler.peerAddr.ip = source && handler.phase.authenticates

def State.evaluates (state : State) (source : Source) : Event → Bool
  | .resume index .wrongConfirmation => state.handlers[index]?.any (Handler.ready source)
  | _ => false

def State.succeeds (state : State) (source : Source) : Event → Bool
  | .resume index (.authenticated _) => state.handlers[index]?.any (Handler.ready source)
  | .outgoing (.recordSuccess ip) => Source.of ip = source
  | _ => false

/-- A run in which a tracked source never succeeds: so many of its wrong
confirmations were evaluated, and so many times it became locked. -/
inductive Run (peerPort : UInt16) (source : Source) : State → (guesses intervals : Nat) → Prop where
  | start {state : State} : state.handlers = [] → state.entry source = none → Run peerPort source state 0 0
  | next {state next : State} {guesses intervals : Nat} (event : Event) :
      Run peerPort source state guesses intervals →
      state.shared.limiter.entries.size < GuessLimiter.maxTracked →
      state.succeeds source event = false →
      step peerPort state event = some next →
      Run peerPort source next (guesses + (state.evaluates source event).toNat)
        (intervals + (!state.locked source && next.locked source).toNat)

/-! ## The bound -/

section Bound

variable {peerPort : UInt16} {source : Source} {state next : State} {guesses intervals : Nat}

def State.failures (state : State) (source : Source) : Nat :=
  (state.entry source).elim 0 GuessLimiter.Entry.failures

def State.readyCount (state : State) (source : Source) : Nat := state.handlers.countP (Handler.ready source)

theorem readyCount_le (state : State) (source : Source) : state.readyCount source ≤ 16 :=
  List.countP_le_length.trans state.few

/-- What ties the handlers under way to the counter and the lock. While the
source is locked no handler gets past the question, so those already past it are
the only ones that can still guess. -/
structure Bounded (source : Source) (state : State) (guesses intervals : Nat) : Prop where
  few : state.failures source < 5
  past : ∀ handler ∈ state.handlers, ∀ now, handler.phase = .asked now → now ≤ state.clock
  unlocked : state.locked source = false → guesses ≤ 20 * intervals + state.failures source
  locked : state.locked source = true → guesses + state.readyCount source ≤ 20 * intervals

theorem Bounded.guesses_le (bounded : Bounded source state guesses intervals) : guesses ≤ 20 * intervals + 4 := by
  have few := bounded.few
  cases lock : state.locked source with
  | false =>
      have limit := bounded.unlocked lock
      omega
  | true =>
      have limit := bounded.locked lock
      omega

/-- A step that leaves the entry of the source alone adds no guess and lets no
handler past a lock. -/
theorem Bounded.calm (bounded : Bounded source state guesses intervals)
    (clock : state.clock ≤ next.clock) (entry : next.entry source = state.entry source)
    (past : ∀ handler ∈ next.handlers, ∀ now, handler.phase = .asked now → now ≤ next.clock)
    (ready : state.locked source = true → next.readyCount source ≤ state.readyCount source) :
    Bounded source next guesses (intervals + (!state.locked source && next.locked source).toNat) := by
  have failures : next.failures source = state.failures source := by rw [State.failures, entry, State.failures]
  -- the lock can only run out
  have lock : next.locked source = true → state.locked source = true := by
    intro later
    rw [State.locked, entry] at later
    rw [State.locked]
    simp only [Option.any_eq_true, GuessLimiter.Entry.isLocked, decide_eq_true_eq] at later ⊢
    obtain ⟨found, same, last, ends, early⟩ := later
    exact ⟨found, same, last, ends, clock.trans_lt early⟩
  have calm : (!state.locked source && next.locked source) = false := by
    cases later : next.locked source with
    | false => exact Bool.and_false _
    | true => rw [lock later, Bool.not_true, Bool.false_and]
  rw [calm]
  constructor
  · exact failures ▸ bounded.few
  · exact past
  · intro free
    rw [failures]
    cases before : state.locked source with
    | false => exact bounded.unlocked before
    | true =>
        have limit := bounded.locked before
        simp only [Bool.toNat_false]
        omega
  · intro held
    have limit := bounded.locked (lock held)
    have fewer := ready (lock held)
    simp only [Bool.toNat_false]
    omega

theorem Bounded.failure (bounded : Bounded source state guesses intervals) (guess : Bool)
    (clock : next.clock = state.clock)
    (entry : next.entry source = some (((state.entry source).getD (.fresh state.clock)).count state.clock).2)
    (past : ∀ handler ∈ next.handlers, ∀ now, handler.phase = .asked now → now ≤ next.clock)
    (ready : next.readyCount source + guess.toNat = state.readyCount source) :
    Bounded source next (guesses + guess.toNat)
      (intervals + (!state.locked source && next.locked source).toNat) := by
  generalize known : (state.entry source).getD (.fresh state.clock) = old at entry
  have failures : old.failures = state.failures source := by
    rw [← known, State.failures]
    cases state.entry source with
    | none => rfl
    | some entry => rfl
  have lock : old.isLocked state.clock = state.locked source := by
    rw [← known, State.locked]
    cases state.entry source with
    | none => rfl
    | some entry => rfl
  have few := bounded.few
  have slots := readyCount_le state source
  have one : guess.toNat ≤ 1 := Bool.toNat_le guess
  rcases GuessLimiter.Entry.count_cases (failures ▸ bounded.few) state.clock with ⟨more, counted, same⟩ | ⟨four, none, locked⟩
  · have counted : next.failures source = state.failures source + 1 := by
      rw [State.failures, entry, Option.elim_some, counted, failures]
    have same : next.locked source = state.locked source := by
      rw [State.locked, entry, Option.any_some, clock, GuessLimiter.Entry.isLocked, same, ← lock]
      rfl
    rw [same, Bool.not_and_self, Bool.toNat_false, Nat.add_zero]
    refine ⟨by omega, past, ?_, ?_⟩
    · intro free
      have limit := bounded.unlocked (same ▸ free)
      omega
    · intro held
      have limit := bounded.locked (same ▸ held)
      omega
  · have none : next.failures source = 0 := by rw [State.failures, entry, Option.elim_some, none]
    have locked : next.locked source = true := by rw [State.locked, entry, Option.any_some, clock, locked]
    refine ⟨by omega, past, fun free => (by rw [locked] at free; cases free), fun _ => ?_⟩
    rw [locked, Bool.and_true]
    cases before : state.locked source with
    | false =>
        have limit := bounded.unlocked before
        simp only [Bool.not_false, Bool.toNat_true]
        omega
    | true =>
        have limit := bounded.locked before
        simp only [Bool.not_true, Bool.toNat_false]
        omega

theorem countP_set_of_found {p : Handler → Bool} {handlers : List Handler} {index : Nat} {old : Handler}
    (found : handlers[index]? = some old) (new : Handler) :
    (handlers.set index new).countP p + (p old).toNat = handlers.countP p + (p new).toNat := by
  obtain ⟨bound, same⟩ := List.getElem?_eq_some_iff.mp found
  have present : p old = true → 0 < handlers.countP p := fun holds =>
    List.countP_pos_iff.mpr ⟨old, List.mem_of_getElem? found, holds⟩
  rw [List.countP_set bound, same]
  cases before : p old with
  | false => cases p new <;> simp
  | true =>
      have positive := present before
      cases p new
      · simp only [↓reduceIte, Bool.false_eq_true, Bool.toNat_true, Bool.toNat_false]
        omega
      · simp only [↓reduceIte, Bool.toNat_true]
        omega

theorem past_set {index : Nat} {handler : Handler} {clock : Instant} {handlers : List Handler}
    (past : ∀ handler ∈ handlers, ∀ now, handler.phase = .asked now → now ≤ clock)
    (new : ∀ now, handler.phase = .asked now → now ≤ clock) :
    ∀ other ∈ handlers.set index handler, ∀ now, other.phase = .asked now → now ≤ clock := by
  intro other member
  rcases List.mem_or_eq_of_mem_set member with old | rfl
  · exact past other old
  · exact new

/-- The handler was told of no lock at a moment that has passed. -/
theorem ready_of_unlocked {handler : Handler} {now : Instant} (past : now ≤ state.clock)
    (free : state.shared.limiter.isLocked handler.peerAddr.ip now = false) (locked : state.locked source = true) :
    Handler.ready source { handler with phase := .authenticating } = false := by
  by_cases own : Source.of handler.peerAddr.ip = source
  · subst own
    rw [GuessLimiter.isLocked_eq] at free
    rw [State.locked, State.entry] at locked
    obtain ⟨entry, found, last, ends, early⟩ : ∃ entry, state.shared.limiter.lookup (Source.of handler.peerAddr.ip) =
        some entry ∧ ∃ last, entry.lockedUntil = some last ∧ state.clock < last := by
      simpa only [Option.any_eq_true, GuessLimiter.Entry.isLocked, decide_eq_true_eq] using locked
    rw [found, Option.any_some, GuessLimiter.Entry.isLocked, ends, Option.any_some, decide_eq_false_iff_not] at free
    exact absurd (past.trans_lt early) free
  · simp [Handler.ready, own]

theorem Bounded.quiet {index : Nat} {handler : Handler} {phase : Phase} {shared : Shared}
    (bounded : Bounded source state guesses intervals) (found : state.handlers[index]? = some handler)
    (few : (state.handlers.set index { handler with phase }).length ≤ maxConcurrentConnections)
    (entry : shared.limiter.lookup source = state.shared.limiter.lookup source)
    (asked : ∀ now, phase = .asked now → now ≤ state.clock)
    (ready : state.locked source = true → Handler.ready source { handler with phase } = false) :
    let next : State := ⟨state.clock, shared, state.handlers.set index { handler with phase }, few⟩
    Bounded source next guesses (intervals + (!state.locked source && next.locked source).toNat) := by
  refine bounded.calm (Nat.le_refl _) entry (past_set bounded.past asked) ?_
  intro locked
  have count := countP_set_of_found (p := Handler.ready source) found { handler with phase }
  rw [ready locked, Bool.toNat_false] at count
  simp only [State.readyCount]
  omega

theorem Bounded.resume {index : Nat} {outcome : Outcome} (bounded : Bounded source state guesses intervals)
    (room : state.shared.limiter.entries.size < GuessLimiter.maxTracked)
    (fails : state.succeeds source (.resume index outcome) = false)
    (stepped : step peerPort state (.resume index outcome) = some next) :
    Bounded source next (guesses + (state.evaluates source (.resume index outcome)).toNat)
      (intervals + (!state.locked source && next.locked source).toNat) := by
  simp only [step, Option.bind_eq_bind, Option.bind_eq_some_iff, Prod.exists, Option.some.injEq] at stepped
  obtain ⟨handler, found, shared, phase, ran, rfl⟩ := stepped
  have unready : phase.authenticates = false → Handler.ready source { handler with phase } = false := by
    intro other
    simp [Handler.ready, other]
  rcases recvHandler_cases ran with ⟨place, rfl, rfl, rfl⟩ | ⟨place, peer, rfl, rfl, rfl⟩ | ⟨same, place, goes⟩
  · -- the guess is counted against its own source
    have evaluated : state.evaluates source (.resume index .wrongConfirmation) = Handler.ready source handler := by
      simp [State.evaluates, found]
    have count := countP_set_of_found (p := Handler.ready source) found { handler with phase := .wrong }
    rw [unready rfl, Bool.toNat_false] at count
    have entry := GuessLimiter.lookup_recordFailure handler.peerAddr.ip source state.clock room
    rw [evaluated]
    by_cases own : Source.of handler.peerAddr.ip = source
    · rw [if_pos own] at entry
      exact bounded.failure _ rfl entry (past_set bounded.past fun _ same => by cases same) count
    · rw [if_neg own] at entry
      have other : Handler.ready source handler = false := by simp [Handler.ready, own]
      rw [other]
      exact bounded.quiet found _ entry (fun _ same => by cases same) fun _ => unready rfl
  · have other : Handler.ready source handler = false := by
      simpa [State.succeeds, found] using fails
    have foreign : Source.of handler.peerAddr.ip ≠ source := by
      simpa [Handler.ready, place, Phase.authenticates] using other
    have entry : (state.shared.limiter.recordSuccess handler.peerAddr.ip).lookup source =
        state.shared.limiter.lookup source := by
      rw [GuessLimiter.lookup_recordSuccess, if_neg foreign]
    exact bounded.quiet found _ entry (fun _ same => by cases same) fun _ => unready rfl
  · have idle : state.evaluates source (.resume index outcome) = false := by
      cases outcome with
      | wrongConfirmation => simp [State.evaluates, found, Handler.ready, place rfl]
      | _ => rfl
    have entry : shared.limiter.lookup source = state.shared.limiter.lookup source := by rw [same]
    rw [idle]
    rcases goes with rfl | ⟨now, asked, free, rfl⟩ | ⟨other, unasked⟩
    · exact bounded.quiet found _ entry (fun now same => by cases same; exact Nat.le_refl _) fun _ => unready rfl
    · have past := bounded.past handler (List.mem_of_getElem? found) now asked
      exact bounded.quiet found _ entry (fun _ same => by cases same) fun locked => ready_of_unlocked past free locked
    · exact bounded.quiet found _ entry (fun now same => absurd same (unasked now)) fun _ => unready other

theorem Bounded.step {event : Event} (bounded : Bounded source state guesses intervals)
    (room : state.shared.limiter.entries.size < GuessLimiter.maxTracked)
    (fails : state.succeeds source event = false) (stepped : step peerPort state event = some next) :
    Bounded source next (guesses + (state.evaluates source event).toNat)
      (intervals + (!state.locked source && next.locked source).toNat) := by
  cases event with
  | tick now =>
      simp only [Receiver.step, Option.ite_none_right_eq_some, Option.some.injEq] at stepped
      obtain ⟨later, rfl⟩ := stepped
      exact bounded.calm later rfl
        (fun handler member now' asked => (bounded.past handler member now' asked).trans later) fun _ => Nat.le_refl _
  | accept peerAddr =>
      simp only [Receiver.step] at stepped
      split at stepped
      · cases stepped
        refine bounded.calm (Nat.le_refl _) rfl ?_ ?_
        · intro handler member now asked
          rcases List.mem_append.mp member with old | new
          · exact bounded.past handler old now asked
          · cases List.mem_singleton.mp new
            cases asked
        · intro _
          simp [State.readyCount, List.countP_append, Handler.ready, Phase.authenticates]
      · cases stepped
        exact bounded.calm (Nat.le_refl _) rfl bounded.past fun _ => Nat.le_refl _
  | resume index outcome => exact bounded.resume room fails stepped
  | leave index =>
      cases stepped
      have sublist := List.eraseIdx_sublist state.handlers index
      exact bounded.calm (Nat.le_refl _) rfl (fun handler member => bounded.past handler (sublist.subset member))
        fun _ => sublist.countP_le
  | outgoing call =>
      cases stepped
      cases call with
      | recordFailure ip =>
          have entry := GuessLimiter.lookup_recordFailure ip source state.clock room
          by_cases own : Source.of ip = source
          · rw [if_pos own] at entry
            exact bounded.failure false rfl entry bounded.past rfl
          · rw [if_neg own] at entry
            exact bounded.calm (Nat.le_refl _) entry bounded.past fun _ => Nat.le_refl _
      | recordSuccess ip =>
          have foreign : Source.of ip ≠ source := by simpa [State.succeeds] using fails
          have entry : (state.shared.limiter.recordSuccess ip).lookup source = state.shared.limiter.lookup source := by
            rw [GuessLimiter.lookup_recordSuccess, if_neg foreign]
          exact bounded.calm (Nat.le_refl _) entry bounded.past fun _ => Nat.le_refl _
      | _ => exact bounded.calm (Nat.le_refl _) rfl bounded.past fun _ => Nat.le_refl _

theorem Run.bounded (run : Run peerPort source state guesses intervals) : Bounded source state guesses intervals := by
  induction run with
  | start idle untracked =>
      refine ⟨by simp [State.failures, untracked], by simp [idle], ?_, ?_⟩
      · intro _
        exact Nat.zero_le _
      · intro locked
        simp [State.locked, untracked] at locked
  | next event _ room fails stepped ih => exact ih.step room fails stepped

/-- However the connections of a source interleave with each other and with any
others, at most twenty of its guesses are evaluated for each time it was locked,
and four more. -/
theorem guesses_bounded {peerPort : UInt16} {source : Source} {state : State} {guesses intervals : Nat}
    (run : Run peerPort source state guesses intervals) : guesses ≤ 20 * intervals + 4 :=
  run.bounded.guesses_le

end Bound

def idle : State := ⟨0, ⟨.new, .empty⟩, [], by decide⟩

def strange : SocketAddr := .v4 ⟨[192, 168, 1, 51], rfl⟩ 40000

def guess : GuessLimiter.Call := ⟨.recordFailure, strange.ip, 0⟩

def guessed (n : Nat) : Shared := ⟨GuessLimiter.run (List.replicate n guess), .empty⟩

def guessing (n : Nat) (handlers : List Handler) (few : handlers.length ≤ maxConcurrentConnections) : State :=
  ⟨0, guessed n, handlers, few⟩

section

variable {n guesses intervals : Nat} {handlers rest : List Handler} {few : handlers.length ≤ maxConcurrentConnections}

theorem locked_guessing (bound : n ≤ 6) : (guessing n handlers few).locked (Source.of strange.ip) = decide (5 ≤ n) := by
  have entry : (guessing n handlers few).entry (Source.of strange.ip) = GuessLimiter.entryOf (List.replicate n 0) := by
    have times : GuessLimiter.history (Source.of strange.ip) (List.replicate n guess) = List.replicate n 0 :=
      GuessLimiter.history_replicate guess (by simp only [GuessLimiter.maxTracked]; omega) rfl
    rw [← times]
    exact GuessLimiter.lookup_run _ _
  have locks : ∀ n ≤ 6, ((GuessLimiter.entryOf (List.replicate n 0)).any fun entry => entry.isLocked 0) = decide (5 ≤ n) := by
    decide
  rw [State.locked, entry]
  exact locks n bound

/-- A step that the limiter is not asked to record anything in. -/
theorem Run.unrecorded (event : Event) (fewer : rest.length ≤ maxConcurrentConnections)
    (run : Run 3232 (Source.of strange.ip) (guessing n handlers few) guesses intervals) (bound : n ≤ 6)
    (calm : ∀ state : State, state.succeeds (Source.of strange.ip) event = false ∧
      state.evaluates (Source.of strange.ip) event = false)
    (stepped : Receiver.step 3232 (guessing n handlers few) event = some (guessing n rest fewer)) :
    Run 3232 (Source.of strange.ip) (guessing n rest fewer) guesses intervals := by
  have room : (guessing n handlers few).shared.limiter.entries.size < GuessLimiter.maxTracked := by
    have size := GuessLimiter.size_run_le (List.replicate n guess)
    rw [List.length_replicate] at size
    exact size.trans_lt (bound.trans_lt (by decide))
  have next := run.next event room (calm _).1 stepped
  rwa [(calm _).2, locked_guessing bound, locked_guessing bound, Bool.not_and_self] at next

theorem step_last {handler : Handler} {outcome : Outcome} {phase : Phase} {fits fits'}
    (ran : recvHandler 3232 0 (guessed n) handler outcome = some (guessed n, phase)) :
    Receiver.step 3232 (guessing n (handlers ++ [handler]) fits) (.resume handlers.length outcome) =
      some (guessing n (handlers ++ [{ handler with phase }]) fits') := by
  have found : (handlers ++ [handler])[handlers.length]? = some handler := List.getElem?_concat_length
  simp only [Receiver.step, guessing, found, Option.bind_eq_bind, Option.bind_some, ran]
  simp

end

def admitted (count : Nat) : List Handler := List.replicate count ⟨strange, .authenticating⟩

theorem length_admitted (count : Nat) : (admitted count).length = count := List.length_replicate

/-- All of them ask before the first one guesses. -/
theorem run_admitted (count : Nat) (fits : (admitted count).length ≤ maxConcurrentConnections) :
    Run 3232 (Source.of strange.ip) (guessing 0 (admitted count) fits) 0 0 := by
  induction count with
  | zero => exact .start rfl (GuessLimiter.lookup_new _)
  | succ count ih =>
      have room : (admitted count).length < maxConcurrentConnections := by
        rw [length_admitted] at fits ⊢
        exact fits
      have still : ∀ state : State, state.succeeds (Source.of strange.ip) (.resume (admitted count).length .failed) = false ∧
          state.evaluates (Source.of strange.ip) (.resume (admitted count).length .failed) = false := fun _ => ⟨rfl, rfl⟩
      have free : (GuessLimiter.run []).isLocked strange.ip 0 = false := by
        rw [GuessLimiter.isLocked_eq]
        exact congrArg (fun entry => Option.any _ entry) (GuessLimiter.lookup_new _)
      have told : recvHandler 3232 0 (guessed 0) ⟨strange, .asked 0⟩ .failed = some (guessed 0, .authenticating) := by
        simp only [recvHandler, guessed, List.replicate_zero, free, Bool.false_eq_true, ↓reduceIte]
      have accepted := Run.unrecorded (.accept strange) (length_accept ⟨strange, .started⟩ room) (ih room.le)
        (Nat.zero_le 6) (fun _ => ⟨rfl, rfl⟩) (dif_pos room)
      have asked := accepted.unrecorded _ (length_accept ⟨strange, .asked 0⟩ room) (Nat.zero_le 6) still (step_last rfl)
      have checked := asked.unrecorded _ (length_accept ⟨strange, .authenticating⟩ room) (Nat.zero_le 6) still (step_last told)
      have grown : admitted count ++ [⟨strange, .authenticating⟩] = admitted (count + 1) := List.replicate_succ'.symm
      simpa only [grown] using checked

/-- They guess one after the other; the fifth guess locks the source. -/
theorem run_guessing (n left : Nat) (bound : n + left = 6) (fits : (admitted left).length ≤ maxConcurrentConnections) :
    Run 3232 (Source.of strange.ip) (guessing n (admitted left) fits) n (n / 5) := by
  induction n generalizing left with
  | zero => exact run_admitted left fits
  | succ n ih =>
      have before := ih (left + 1) (by omega) (by rw [length_admitted]; simp only [maxConcurrentConnections]; omega)
      have room : (GuessLimiter.run (List.replicate n guess)).entries.size < GuessLimiter.maxTracked := by
        have size := GuessLimiter.size_run_le (List.replicate n guess)
        rw [List.length_replicate] at size
        simp only [GuessLimiter.maxTracked]
        omega
      have marked : (⟨strange, .wrong⟩ :: admitted left).length ≤ maxConcurrentConnections := by
        rw [List.length_cons, length_admitted]
        simp only [maxConcurrentConnections]
        omega
      have failed : Run 3232 (Source.of strange.ip) (guessing (n + 1) (⟨strange, .wrong⟩ :: admitted left) marked) (n + 1)
          (n / 5 + (!decide (5 ≤ n) && decide (5 ≤ n + 1)).toNat) := by
        rw [← locked_guessing (by omega : n ≤ 6), ← locked_guessing (by omega : n + 1 ≤ 6)]
        exact before.next (.resume 0 .wrongConfirmation) room rfl rfl
      have intervals : n / 5 + (!decide (5 ≤ n) && decide (5 ≤ n + 1)).toNat = (n + 1) / 5 := by
        have small : ∀ n < 6, n / 5 + (!decide (5 ≤ n) && decide (5 ≤ n + 1)).toNat = (n + 1) / 5 := by decide
        exact small n (by omega)
      rw [intervals] at failed
      exact failed.unrecorded (.leave 0) fits (by omega) (fun _ => ⟨rfl, rfl⟩) rfl

/-- Six connections of a source are admitted before it is locked, and all six guesses are evaluated. -/
theorem guesses_bounded_six : ∃ state, Run 3232 (Source.of strange.ip) state 6 1 ∧ 6 ≤ 20 * 1 + 4 := by
  have guessed := run_guessing 6 0 rfl (by decide)
  exact ⟨_, guessed, guesses_bounded guessed⟩

end Receiver

end CesaConn
