import CesaConn.Network.Receiver
import CesaConn.Peers.Pauses

/-! One limiter for both directions.

Whoever connects to us from the address of a paired device and fails on purpose
is counted against that address, and sync connects to no address that is locked.
The book keeps the device as a target all the time; whether sync gets through is
decided by the failures on record alone.
-/

set_option autoImplicit false

namespace CesaConn

open Format

namespace GuessLimiter

/-- Every lockout that the failures at `times`, newest first, started has ended. -/
def Over (times : List Instant) (now : Instant) : Prop :=
  ∀ later time earlier, times = later ++ time :: earlier → (earlier.length + 1) % 5 = 0 →
    time + min (60 * 2 ^ ((earlier.length + 1) / 5 - 1)) 3600 * second ≤ now

theorem history_sorted {source : Source} {calls : List Call} (clock : Clocked calls) :
    (history source calls).Pairwise fun later earlier => earlier ≤ later := by
  induction calls with
  | nil => exact .nil
  | cons call earlier ih =>
      have sorted := ih (List.pairwise_cons.mp clock).2
      simp only [history]
      split
      · split
        · refine .cons ?_ sorted
          intro time member
          obtain ⟨old, before, rfl⟩ := mem_history member
          exact (List.pairwise_cons.mp clock).1 old before
        · exact sorted
      · exact .nil

theorem over_iff {times : List Instant} (sorted : times.Pairwise fun later earlier => earlier ≤ later) (now : Instant) :
    Over times now ↔ ∀ last, deadline times = some last → last ≤ now := by
  induction times with
  | nil =>
      constructor
      · intro _ last ends
        cases ends
      · intro _ later time earlier shape
        cases later <;> cases shape
  | cons time earlier ih =>
      have rest := ih (List.pairwise_cons.mp sorted).2
      constructor
      · intro full last ends
        simp only [deadline] at ends
        split at ends
        · next fifth =>
          cases ends
          -- the newest failure started the lockout that ends last
          exact full [] time earlier rfl fifth
        · apply rest.mp _ last ends
          intro later old before shape
          exact full (time :: later) old before (by rw [shape, List.cons_append])
      · intro bound later old before shape fifth
        cases later with
        | nil =>
            cases shape
            exact bound _ (if_pos fifth)
        | cons first later =>
            cases shape
            -- an older lockout ended before the one that this failure may start
            have ends : ∀ last, deadline (later ++ old :: before) = some last → last ≤ now := by
              intro last ends
              obtain ⟨new, found, le⟩ := deadline_cons (List.pairwise_cons.mp sorted).1 ends
              exact le.trans (bound new found)
            exact rest.mpr ends later old before rfl fifth

theorem isLocked_eq_false_iff {calls : List Call} (clock : Clocked calls) {ip : IpAddr} {now : Instant} :
    (run calls).isLocked ip now = false ↔ Over (history (Source.of ip) calls) now := by
  rw [over_iff (history_sorted clock), ← Bool.not_eq_true, isLocked_run]
  constructor
  · intro free last ends
    exact Nat.not_lt.mp fun early => free ⟨last, ends, early⟩
  · intro bound ⟨last, ends, early⟩
    exact Nat.not_le.mpr early (bound last ends)

end GuessLimiter

namespace Receiver

/-- The check `authenticate_outgoing` starts with. -/
def lockedOut (state : State) (connectAddr : SocketAddr) : Bool :=
  state.shared.limiter.isLocked connectAddr.ip state.clock

/-- Connections from `ip` that do not authenticate, and sends to other devices of
the book that go through. -/
inductive Attack (ip : IpAddr) (device : StaticKey) (state : State) : Event → Prop where
  | tick (now : Instant) : Attack ip device state (.tick now)
  | accept (peerAddr : SocketAddr) : peerAddr.ip = ip → Attack ip device state (.accept peerAddr)
  | resume (index : Nat) (outcome : Outcome) : (∀ peer, outcome ≠ .authenticated peer) →
      Attack ip device state (.resume index outcome)
  | leave (index : Nat) : Attack ip device state (.leave index)
  | recordSuccess (other : IpAddr) : Attack ip device state (.outgoing (.recordSuccess other))
  | seen (peer : TrustedPeer) (addr : SocketAddr) : peer.x25519PubKey ≠ device →
      state.shared.book.knows peer.x25519PubKey = true → Attack ip device state (.outgoing (.seen peer addr))
  | dataOk (peer : TrustedPeer) : peer.x25519PubKey ≠ device →
      state.shared.book.knows peer.x25519PubKey = true → Attack ip device state (.outgoing (.dataOk peer))

def State.records (state : State) : Event → List GuessLimiter.Call
  | .resume index .wrongConfirmation =>
      match state.handlers[index]? with
      | some ⟨peerAddr, .authenticating⟩ => [⟨.recordFailure, peerAddr.ip, state.clock⟩]
      | _ => []
  | .outgoing (.recordSuccess ip) => [⟨.recordSuccess, ip, state.clock⟩]
  | _ => []

/-- A run of such events, with what the limiter was asked to record, newest first. -/
inductive Attacked (peerPort : UInt16) (ip : IpAddr) (device : StaticKey) (start : State) :
    State → List GuessLimiter.Call → Prop where
  | start : Attacked peerPort ip device start start []
  | next {state next : State} {calls : List GuessLimiter.Call} (event : Event) :
      Attacked peerPort ip device start state calls → Attack ip device state event →
      step peerPort state event = some next → Attacked peerPort ip device start next (state.records event ++ calls)

/-! ## What stays as it was -/

def Phase.hostile : Phase → Bool
  | .started | .asked _ | .authenticating | .wrong | .ended => true
  | .known _ | .reading _ => false

/-- The limiter holds what it was asked to record, and the device is where it was
with the pause it had. -/
structure Steady (past : List GuessLimiter.Call) (device : StaticKey) (addr : SocketAddr) (retry : Option Instant)
    (state : State) (calls : List GuessLimiter.Call) : Prop where
  limiter : state.shared.limiter = GuessLimiter.run (calls ++ past)
  clocked : GuessLimiter.Clocked (calls ++ past)
  before : ∀ call ∈ calls ++ past, call.now ≤ state.clock
  hostile : ∀ handler ∈ state.handlers, handler.phase.hostile = true
  entry : ∃ entry, state.shared.book.find device = some entry ∧ entry.addr = some addr ∧ entry.retryAfter = retry

section Steadiness

variable {peerPort : UInt16} {ip : IpAddr} {device : StaticKey} {addr : SocketAddr} {retry : Option Instant}
  {past calls : List GuessLimiter.Call} {state next : State}

theorem Steady.record (steady : Steady past device addr retry state calls) {call : GuessLimiter.Call}
    (now : call.now = state.clock) (clock : next.clock = state.clock)
    (limiter : next.shared.limiter = state.shared.limiter.perform call) (book : next.shared.book = state.shared.book)
    (hostile : ∀ handler ∈ next.handlers, handler.phase.hostile = true) :
    Steady past device addr retry next (call :: calls) where
  limiter := by rw [limiter, steady.limiter, List.cons_append, GuessLimiter.run]
  clocked := List.pairwise_cons.mpr ⟨fun old member => (steady.before old member).trans_eq now.symm, steady.clocked⟩
  before := by
    intro old member
    rw [clock]
    rcases List.mem_cons.mp member with rfl | member
    · exact Nat.le_of_eq now
    · exact steady.before old member
  hostile := hostile
  entry := book ▸ steady.entry

theorem Steady.keep (steady : Steady past device addr retry state calls) (clock : state.clock ≤ next.clock)
    (limiter : next.shared.limiter = state.shared.limiter)
    (hostile : ∀ handler ∈ next.handlers, handler.phase.hostile = true)
    (entry : ∃ entry, next.shared.book.find device = some entry ∧ entry.addr = some addr ∧ entry.retryAfter = retry) :
    Steady past device addr retry next calls where
  limiter := limiter.trans steady.limiter
  clocked := steady.clocked
  before call member := (steady.before call member).trans clock
  hostile := hostile
  entry := entry

theorem find_change_known {book : PeerBook} {key other : StaticKey} {f : Entry → Entry} (different : key ≠ other)
    (known : book.knows key = true) (kept : book.knows other = true) :
    (book.change key f).find other = book.find other := by
  apply PeerBook.find_change_other different
  rw [PeerBook.change, PeerBook.knows_update, PeerBook.entry, dif_pos known]
  exact kept

theorem records_resume {index : Nat} {outcome : Outcome} {handler : Handler}
    (found : state.handlers[index]? = some handler)
    (idle : outcome = .wrongConfirmation → handler.phase.authenticates = false) :
    state.records (.resume index outcome) = [] := by
  obtain ⟨peerAddr, phase⟩ := handler
  cases outcome with
  | wrongConfirmation =>
      have idle := idle rfl
      cases phase with
      | authenticating => cases idle
      | _ => simp [State.records, found]
  | _ => rfl

/-- What a handler that authenticated nobody does to the book: it may mark the
devices at its address. -/
theorem recvHandler_book {clock : Instant} {shared shared' : Shared} {handler : Handler} {outcome : Outcome}
    {phase : Phase} (hostile : handler.phase.hostile = true) (plain : ∀ peer, outcome ≠ .authenticated peer)
    (ran : recvHandler peerPort clock shared handler outcome = some (shared', phase)) :
    phase.hostile = true ∧ (shared'.book = shared.book ∨
      shared'.book = shared.book.wrongPasswordAt handler.peerAddr.ip.octets false clock) := by
  cases place : handler.phase with
  | authenticating =>
      cases outcome with
      | authenticated peer => exact absurd rfl (plain peer)
      | _ =>
          simp only [recvHandler, place, Option.some.injEq, Prod.mk.injEq] at ran
          obtain ⟨rfl, rfl⟩ := ran
          exact ⟨rfl, .inl rfl⟩
  | asked now =>
      simp only [recvHandler, place, Option.some.injEq, Prod.mk.injEq] at ran
      obtain ⟨rfl, rfl⟩ := ran
      refine ⟨?_, .inl rfl⟩
      split
      · rfl
      · rfl
  | wrong =>
      simp only [recvHandler, place, Option.some.injEq, Prod.mk.injEq] at ran
      obtain ⟨rfl, rfl⟩ := ran
      exact ⟨rfl, .inr rfl⟩
  | started =>
      simp only [recvHandler, place, Option.some.injEq, Prod.mk.injEq] at ran
      obtain ⟨rfl, rfl⟩ := ran
      exact ⟨rfl, .inl rfl⟩
  | known peer =>
      rw [place] at hostile
      cases hostile
  | reading peer =>
      rw [place] at hostile
      cases hostile
  | ended => simp [recvHandler, place] at ran

theorem Steady.resume (steady : Steady past device addr retry state calls) {index : Nat} {outcome : Outcome}
    (plain : ∀ peer, outcome ≠ .authenticated peer) (stepped : step peerPort state (.resume index outcome) = some next) :
    Steady past device addr retry next (state.records (.resume index outcome) ++ calls) := by
  simp only [step, Option.bind_eq_bind, Option.bind_eq_some_iff, Prod.exists, Option.some.injEq] at stepped
  obtain ⟨handler, found, shared, phase, ran, rfl⟩ := stepped
  obtain ⟨new, book⟩ := recvHandler_book (steady.hostile _ (List.mem_of_getElem? found)) plain ran
  have hostile : ∀ other ∈ state.handlers.set index { handler with phase }, other.phase.hostile = true := by
    intro other member
    rcases List.mem_or_eq_of_mem_set member with old | rfl
    · exact steady.hostile other old
    · exact new
  -- only a wrong confirmation is recorded
  rcases recvHandler_cases ran with ⟨place, rfl, rfl, rfl⟩ | ⟨-, peer, same, -⟩ | ⟨limiter, idle, -⟩
  · obtain ⟨peerAddr, _⟩ := handler
    cases place
    have recorded : state.records (.resume index .wrongConfirmation) = [⟨.recordFailure, peerAddr.ip, state.clock⟩] := by
      simp [State.records, found]
    rw [recorded]
    exact steady.record rfl rfl rfl rfl hostile
  · exact absurd same (plain peer)
  · rw [records_resume found idle]
    refine steady.keep (Nat.le_refl _) limiter hostile ?_
    rcases book with same | marked
    · rw [same]
      exact steady.entry
    · -- the mark leaves the address and the pause alone
      obtain ⟨entry, known, at_, pause⟩ := steady.entry
      rw [marked, PeerBook.wrongPasswordAt, PeerBook.find_update, known, Option.map_some]
      refine ⟨_, rfl, ?_⟩
      split
      · exact ⟨at_, pause⟩
      · exact ⟨at_, pause⟩

theorem Steady.step (steady : Steady past device addr retry state calls) {event : Event}
    (attack : Attack ip device state event) (stepped : step peerPort state event = some next) :
    Steady past device addr retry next (state.records event ++ calls) := by
  have kept : state.shared.book.knows device = true := by
    obtain ⟨entry, known, -⟩ := steady.entry
    rw [PeerBook.knows_eq, known]
    rfl
  cases attack with
  | tick now =>
      simp only [Receiver.step, Option.ite_none_right_eq_some, Option.some.injEq] at stepped
      obtain ⟨later, rfl⟩ := stepped
      exact steady.keep later rfl steady.hostile steady.entry
  | accept peerAddr own =>
      simp only [Receiver.step] at stepped
      split at stepped
      · cases stepped
        refine steady.keep (Nat.le_refl _) rfl ?_ steady.entry
        intro handler member
        rcases List.mem_append.mp member with old | new
        · exact steady.hostile handler old
        · cases List.mem_singleton.mp new
          rfl
      · cases stepped
        exact steady.keep (Nat.le_refl _) rfl steady.hostile steady.entry
  | resume index outcome plain => exact steady.resume plain stepped
  | leave index =>
      cases stepped
      have sublist := List.eraseIdx_sublist state.handlers index
      exact steady.keep (Nat.le_refl _) rfl (fun handler member => steady.hostile handler (sublist.subset member))
        steady.entry
  | recordSuccess other =>
      cases stepped
      exact steady.record rfl rfl rfl rfl steady.hostile
  | seen peer addr different known =>
      cases stepped
      refine steady.keep (Nat.le_refl _) rfl steady.hostile ?_
      rw [show (outgoing state.clock state.shared (.seen peer addr)).book = state.shared.book.seen peer addr from rfl,
        PeerBook.seen, find_change_known different known kept]
      exact steady.entry
  | dataOk peer different known =>
      cases stepped
      refine steady.keep (Nat.le_refl _) rfl steady.hostile ?_
      rw [show (outgoing state.clock state.shared (.dataOk peer)).book = state.shared.book.dataOk peer from rfl,
        PeerBook.dataOk, find_change_known different known kept]
      exact steady.entry

theorem Attacked.steady {start : State} (attacked : Attacked peerPort ip device start state calls)
    (begun : Steady past device addr retry start []) :
    Steady past device addr retry state calls ∧ start.clock ≤ state.clock := by
  induction attacked with
  | start => exact ⟨begun, Nat.le_refl _⟩
  | next event _ attack stepped ih =>
      exact ⟨ih.1.step attack stepped, ih.2.trans (step_clock stepped)⟩

end Steadiness

/-- Failing from the address of a paired device leaves it a sync target, and a
send to it gets through exactly when every lockout that the failures on record
against the address started has ended. -/
theorem sync_gets_through_iff {peerPort : UInt16} {device : TrustedPeer} {addr : SocketAddr} {peers : List TrustedPeer}
    {start state : State} {past calls : List GuessLimiter.Call} (idle : start.handlers = [])
    (recorded : start.shared.limiter = GuessLimiter.run past) (clock : GuessLimiter.Clocked past)
    (before : ∀ call ∈ past, call.now ≤ start.clock)
    (target : (device, addr) ∈ start.shared.book.targets peers start.clock)
    (attacked : Attacked peerPort addr.ip device.x25519PubKey start state calls) :
    (lockedOut state addr = false ∧ (device, addr) ∈ state.shared.book.targets peers state.clock) ↔
      GuessLimiter.Over (GuessLimiter.history (Source.of addr.ip) (calls ++ past)) state.clock := by
  obtain ⟨listed, entry, found, at_, free⟩ := PeerBook.mem_targets.mp target
  have begun : Steady past device.x25519PubKey addr entry.retryAfter start [] :=
    ⟨recorded, clock, before, by simp [idle], entry, found, at_, rfl⟩
  obtain ⟨steady, later⟩ := attacked.steady begun
  -- no event of the attack touches the address and the pause of the device
  have still : (device, addr) ∈ state.shared.book.targets peers state.clock := by
    obtain ⟨now, found', at_', pause⟩ := steady.entry
    exact PeerBook.mem_targets.mpr
      ⟨listed, now, found', at_', fun after paused => (free after (pause ▸ paused)).trans later⟩
  rw [lockedOut, steady.limiter, GuessLimiter.isLocked_eq_false_iff steady.clocked]
  exact ⟨And.left, fun full => ⟨full, still⟩⟩

/-! ## Five failures stop sync -/

open PeerBook (tablet tabletAddr)

def watchful : State := { idle with shared := ⟨.new, PeerBook.empty.seen tablet tabletAddr⟩ }

def failure : GuessLimiter.Call := ⟨.recordFailure, tabletAddr.ip, 0⟩

theorem watchful_target : (tablet, tabletAddr) ∈ watchful.shared.book.targets [tablet] watchful.clock :=
  List.mem_cons_self

def handling (limiter : GuessLimiter) (book : PeerBook) (phase : Phase) : State :=
  ⟨0, ⟨limiter, book⟩, [⟨tabletAddr, phase⟩], Nat.le_add_left 1 15⟩

/-- Connections from the address of the device, each to its end, up to the fifth. -/
theorem attacked_five (n : Nat) (few : n ≤ 5) : ∃ book fits, Attacked 3232 tabletAddr.ip tablet.x25519PubKey watchful
    ⟨0, ⟨GuessLimiter.run (List.replicate n failure), book⟩, [], fits⟩ (List.replicate n failure) := by
  induction n with
  | zero => exact ⟨_, _, .start⟩
  | succ n ih =>
      obtain ⟨book, fits, attacked⟩ := ih (by omega)
      have free : (GuessLimiter.run (List.replicate n failure)).isLocked tabletAddr.ip 0 = false := by
        have short : ∀ n < 5, GuessLimiter.deadline (List.replicate n 0) = none := by decide
        rw [← Bool.not_eq_true, GuessLimiter.isLocked_run]
        have times : GuessLimiter.history (Source.of tabletAddr.ip) (List.replicate n failure) = List.replicate n 0 :=
          GuessLimiter.history_replicate failure (by simp only [GuessLimiter.maxTracked]; omega) rfl
        rw [times, short n (by omega)]
        simp
      let before := GuessLimiter.run (List.replicate n failure)
      have admitted : Attacked 3232 tabletAddr.ip tablet.x25519PubKey watchful
          (handling before book .started) (List.replicate n failure) :=
        attacked.next (.accept tabletAddr) (.accept _ rfl) rfl
      have asked : Attacked 3232 tabletAddr.ip tablet.x25519PubKey watchful
          (handling before book (.asked 0)) (List.replicate n failure) :=
        admitted.next (.resume 0 .failed) (.resume _ _ (by simp)) rfl
      have told : step 3232 (handling before book (.asked 0)) (.resume 0 .failed) =
          some (handling before book .authenticating) := by
        simp only [step, handling, List.getElem?_cons_zero, Option.bind_eq_bind, Option.bind_some, recvHandler, before, free]
        rfl
      have checked : Attacked 3232 tabletAddr.ip tablet.x25519PubKey watchful
          (handling before book .authenticating) (List.replicate n failure) :=
        asked.next (.resume 0 .failed) (.resume _ _ (by simp)) told
      have guessed : Attacked 3232 tabletAddr.ip tablet.x25519PubKey watchful
          (handling (GuessLimiter.run (List.replicate (n + 1) failure)) book .wrong) (List.replicate (n + 1) failure) :=
        checked.next (.resume 0 .wrongConfirmation) (.resume _ _ (by simp)) rfl
      have marked := guessed.next (.resume 0 .failed) (.resume _ _ (by simp)) rfl
      exact ⟨_, _, marked.next (.leave 0) (.leave 0) rfl⟩

theorem history_failures : GuessLimiter.history (Source.of tabletAddr.ip) (List.replicate 5 failure) = List.replicate 5 0 :=
  GuessLimiter.history_replicate failure (by decide) rfl

/-- A minute after the fifth failure sync gets through again. -/
theorem sync_gets_through_after_lockout : ∃ state,
    Attacked 3232 tabletAddr.ip tablet.x25519PubKey watchful state (List.replicate 5 failure) ∧
    state.clock = 60 * GuessLimiter.second ∧
    lockedOut state tabletAddr = false ∧ (tablet, tabletAddr) ∈ state.shared.book.targets [tablet] state.clock := by
  obtain ⟨book, fits, attacked⟩ := attacked_five 5 (Nat.le_refl 5)
  let waiting : State := ⟨60 * GuessLimiter.second, ⟨GuessLimiter.run (List.replicate 5 failure), book⟩, [], fits⟩
  have waited : Attacked 3232 tabletAddr.ip tablet.x25519PubKey watchful waiting (List.replicate 5 failure) :=
    attacked.next (.tick waiting.clock) (.tick _) rfl
  refine ⟨waiting, waited, rfl, ?_⟩
  apply (sync_gets_through_iff rfl (show _ = GuessLimiter.run [] from rfl) .nil (by simp) watchful_target waited).mpr
  rw [List.append_nil, history_failures]
  intro later time earlier shape fifth
  have first : time = 0 := List.eq_of_mem_replicate (shape ▸ List.mem_append_right later List.mem_cons_self)
  have five := congrArg List.length shape
  rw [List.length_replicate, List.length_append, List.length_cons] at five
  have four : earlier.length = 4 := by omega
  rw [first, four]
  show 0 + min (60 * 2 ^ 0) 3600 * GuessLimiter.second ≤ 60 * GuessLimiter.second
  decide

/-- Sync to a device that is a target all along is refused after five failures
from its address. -/
theorem sync_stopped_by_failures :
    lockedOut watchful tabletAddr = false ∧
    (tablet, tabletAddr) ∈ watchful.shared.book.targets [tablet] watchful.clock ∧
    ∃ state, Attacked 3232 tabletAddr.ip tablet.x25519PubKey watchful state (List.replicate 5 failure) ∧
      lockedOut state tabletAddr = true := by
  refine ⟨?_, watchful_target, ?_⟩
  · rw [lockedOut, GuessLimiter.isLocked_eq]
    exact congrArg (fun entry => Option.any _ entry) (GuessLimiter.lookup_new _)
  · obtain ⟨book, fits, attacked⟩ := attacked_five 5 (Nat.le_refl 5)
    refine ⟨_, attacked, GuessLimiter.isLocked_run.mpr ?_⟩
    rw [history_failures]
    exact ⟨60 * GuessLimiter.second, rfl, Nat.lt_of_sub_eq_succ rfl⟩

end Receiver

end CesaConn
