import CesaConn.Daemon.Operation
import CesaConn.Auth.Pairing

/-! From a handshake that asks to the user's answer.

A request travels from its handshake through the inbox of a bridge into the
queue, and leaves it by an answer, by being dropped, or when the handshake has
stopped waiting. It is never in two places, so it is answered at most once. What
decides whether the user is asked (the window, a join) is not modelled here: a
bridge may find either, and the queue may be cleared at any time.
-/

set_option autoImplicit false

namespace CesaConn

open Format

namespace Daemon

def PendingPairings.prune (pairings : PendingPairings) (alive : PairingRequest → Bool) : PendingPairings :=
  { pairings with waiting := pairings.waiting.filter fun (_, request) => alive request }

/-- `queue_pairing` under the lock; `none` if too many are waiting. -/
def PendingPairings.push (pairings : PendingPairings) (request : PairingRequest) : Option PendingPairings :=
  if maxPendingPairings ≤ pairings.waiting.length then none
  else some ⟨pairings.nextId + 1, pairings.waiting ++ [(pairings.nextId, request)]⟩

/-- The queue of the daemon is this one. -/
theorem exec_pushPairing (setup : Setup) (task : Nat) (request : PairingRequest) (outcome : Outcome) (state : State) :
    exec setup task (.pushPairing request) outcome state = some ((), { state with
      pairings := ((state.pairings.prune state.alive).push request).getD (state.pairings.prune state.alive) }) := by
  by_cases full : maxPendingPairings ≤ (state.pairings.prune state.alive).waiting.length
  · rw [PendingPairings.push, if_pos full]
    simp only [PendingPairings.prune] at full
    simp only [exec, if_pos full]
    rfl
  · rw [PendingPairings.push, if_neg full]
    simp only [PendingPairings.prune] at full
    simp only [exec, if_neg full]
    rfl

end Daemon

namespace Answers

open Daemon (PairingCode PairingRequest PendingPairings maxPendingPairings)

inductive Oneshot where
  | waiting
  | sent (accept : Bool)
  /-- The request was dropped without an answer. -/
  | dropped
  /-- The handshake does not wait any more. -/
  | closed
  deriving DecidableEq

/-- The requests of a daemon, where they are, and what the handshakes behind them have
seen. A handshake has the number of the answer it waits for. -/
structure State where
  pairings : PendingPairings := {}
  /-- The requests that got an id since the daemon started. -/
  queued : Nat := 0
  /-- The inboxes of the bridges, by the number of the bridge. -/
  inbox : List (Nat × PairingRequest) := []
  /-- What a bridge took from its inbox and has not queued yet. -/
  held : List (Nat × PairingRequest) := []
  /-- The bridges that ended. -/
  ended : List Nat := []
  /-- The code of every handshake that asked. -/
  codes : List PairingCode := []
  oneshot : Nat → Oneshot := fun _ => .closed
  /-- What `ask_user` returned. -/
  seen : Nat → Option (Except AuthSnowErrors Bool) := fun _ => none
  /-- Every call of `PairingRequest::answer`. -/
  given : List (Nat × Bool) := []

inductive Event where
  /-- `ask_user` tries to send a request to a bridge. -/
  | ask (bridge : Nat) (name : String) (code : PairingCode)
  | recv (bridge : Nat)
  /-- `queue_pairing` outside "Add device" and a join. -/
  | refuse (bridge : Nat)
  | push (bridge : Nat)
  | endBridge (bridge : Nat)
  /-- `pending_pairing` and `status`. -/
  | pendingPairing
  | answerPairing (id : UInt32) (code : PairingCode) (accept : Bool)
  /-- Stop, cancel and reset. -/
  | clear
  /-- The handshake finds something on its channel. -/
  | poll (handshake : Nat)
  | timeout (handshake : Nat)
  /-- The task of the handshake is dropped. -/
  | leave (handshake : Nat)
  | restart

namespace State

variable (state : State)

/-- Not `PairingRequest::is_expired`. -/
def alive (request : PairingRequest) : Bool := state.oneshot request.decision ≠ .closed

def prune : State := { state with pairings := state.pairings.prune state.alive }

def answer (request : PairingRequest) (accept : Bool) : State := { state with
  given := state.given ++ [(request.decision, accept)]
  oneshot := if state.oneshot request.decision = .waiting then
    Function.update state.oneshot request.decision (.sent accept) else state.oneshot }

def dropRequests (requests : List PairingRequest) : State := { state with
  oneshot := fun handshake =>
    if state.oneshot handshake = .waiting ∧ handshake ∈ requests.map PairingRequest.decision then .dropped
    else state.oneshot handshake }

def close (handshake : Nat) (result : Option (Except AuthSnowErrors Bool)) : State := { state with
  oneshot := Function.update state.oneshot handshake .closed
  seen := result.elim state.seen fun result => Function.update state.seen handshake (some result) }

def taken (bridge : Nat) : Option PairingRequest := (state.held.find? fun entry => entry.1 = bridge).map Prod.snd

def release (bridge : Nat) : State := { state with held := state.held.eraseP fun entry => entry.1 = bridge }

end State

def ask (state : State) (bridge : Nat) (name : String) (code : PairingCode) : State :=
  let handshake := state.codes.length
  if bridge ∈ state.ended ∨ maxPendingPairings ≤ (state.inbox.filter fun entry => entry.1 = bridge).length then
    -- rejected at once, never queued behind others
    { state with
      codes := state.codes ++ [code]
      seen := Function.update state.seen handshake (some (.ok false)) }
  else
    { state with
      codes := state.codes ++ [code]
      inbox := state.inbox ++ [(bridge, ⟨name, code, handshake⟩)]
      oneshot := Function.update state.oneshot handshake .waiting }

def pushPairing (state : State) (request : PairingRequest) : State :=
  let state := state.prune
  match state.pairings.push request with
  | some pairings => { state with pairings, queued := state.queued + 1 }
  | none => state.answer request false

def answerPairing (state : State) (id : UInt32) (code : PairingCode) (accept : Bool) : State :=
  let state := state.prune
  let named (entry : UInt32 × PairingRequest) : Bool := entry.1 = id && entry.2.code = code
  match state.pairings.waiting.find? named with
  | none => state
  | some entry =>
      { state with pairings := { state.pairings with waiting := state.pairings.waiting.eraseP named } }.answer
        entry.2 accept

def poll (state : State) (handshake : Nat) : Option State :=
  match state.oneshot handshake with
  | .sent accept => some (state.close handshake (some (.ok accept)))
  | .dropped => some (state.close handshake (some (.ok false)))
  | .waiting | .closed => none

def step (state : State) : Event → Option State
  | .ask bridge name code => some (ask state bridge name code)
  | .recv bridge =>
      if (state.taken bridge).isSome then none
      else (state.inbox.find? fun entry => entry.1 = bridge).map fun entry => { state with
        inbox := state.inbox.eraseP fun entry => entry.1 = bridge
        held := state.held ++ [entry] }
  | .refuse bridge => (state.taken bridge).map fun request => (state.release bridge).answer request false
  | .push bridge => (state.taken bridge).map fun request => pushPairing (state.release bridge) request
  | .endBridge bridge =>
      some ({ state with
        inbox := state.inbox.filter fun entry => entry.1 ≠ bridge
        held := state.held.filter fun entry => entry.1 ≠ bridge
        ended := bridge :: state.ended }.dropRequests
          ((List.filter (fun (entry : Nat × PairingRequest) => entry.1 = bridge) (state.inbox ++ state.held)).map Prod.snd))
  | .pendingPairing => some state.prune
  | .answerPairing id code accept => some (answerPairing state id code accept)
  | .clear =>
      some ({ state with pairings := { state.pairings with waiting := [] } }.dropRequests
        (state.pairings.waiting.map Prod.snd))
  | .poll handshake => poll state handshake
  | .timeout handshake =>
      if state.oneshot handshake = .closed then none
      else some (state.close handshake (some (.error .pairingTimeout)))
  | .leave handshake => some (state.close handshake none)
  | .restart => some { codes := state.codes, seen := state.seen, given := state.given }

def run (state : State) : List Event → Option State
  | [] => some state
  | event :: rest => (step state event).bind fun next => run next rest

/-! ## All that a step does -/

def State.present (state : State) : List PairingRequest :=
  state.inbox.map Prod.snd ++ (state.held.map Prod.snd ++ state.pairings.waiting.map Prod.snd)

structure View where
  present : List PairingRequest
  codes : List PairingCode
  oneshot : Nat → Oneshot
  seen : Nat → Option (Except AuthSnowErrors Bool)
  given : List (Nat × Bool)

def State.view (state : State) : View := ⟨state.present, state.codes, state.oneshot, state.seen, state.given⟩

def dropped (oneshot : Nat → Oneshot) (requests : List PairingRequest) (handshake : Nat) : Oneshot :=
  if oneshot handshake = .waiting ∧ handshake ∈ requests.map PairingRequest.decision then .dropped else oneshot handshake

/-- An event that answers a request with yes is the user's, for this id and this code. -/
def UserAccepts (state : State) (event : Event) (request : PairingRequest) : Prop :=
  ∃ id, event = .answerPairing id request.code true ∧ (id, request) ∈ state.pairings.waiting ∧
    state.oneshot request.decision ≠ .closed

inductive Move (state : State) (event : Event) : View → Prop where
  /-- Requests are dropped, or only change their place. -/
  | drops (present gone : List PairingRequest) (split : state.present.Perm (present ++ gone)) :
      Move state event { state.view with present, oneshot := dropped state.oneshot gone }
  | answers (present gone : List PairingRequest) (request : PairingRequest) (accept : Bool)
      (split : state.present.Perm (request :: (present ++ gone)))
      (decided : accept = true → UserAccepts state event request) :
      Move state event { state.view with
        present
        given := state.given ++ [(request.decision, accept)]
        oneshot := if dropped state.oneshot gone request.decision = .waiting then
          Function.update (dropped state.oneshot gone) request.decision (.sent accept) else dropped state.oneshot gone }
  | asks (name : String) (code : PairingCode) (present : List PairingRequest)
      (split : present.Perm (⟨name, code, state.codes.length⟩ :: state.present)) :
      Move state event { state.view with
        present
        codes := state.codes ++ [code]
        oneshot := Function.update state.oneshot state.codes.length .waiting }
  | refused (code : PairingCode) : Move state event { state.view with
      codes := state.codes ++ [code]
      seen := Function.update state.seen state.codes.length (some (.ok false)) }
  | closes (handshake : Nat) (result : Option (Except AuthSnowErrors Bool))
      (honest : result = some (.ok true) → state.oneshot handshake = .sent true) :
      Move state event { state.view with
        oneshot := Function.update state.oneshot handshake .closed
        seen := result.elim state.seen fun result => Function.update state.seen handshake (some result) }
  | restarts : Move state event { state.view with present := [], oneshot := fun _ => .closed }

/-! ### Taking and dropping -/

theorem perm_eraseP {A : Type} {p : A → Bool} {l : List A} {a : A} (found : l.find? p = some a) : l.Perm (a :: l.eraseP p) := by
  induction l with
  | nil => cases found
  | cons first rest ih =>
      by_cases here : p first
      · rw [List.find?_cons_of_pos here] at found
        cases found
        rw [List.eraseP_cons_of_pos here]
      · rw [List.find?_cons_of_neg here] at found
        rw [List.eraseP_cons_of_neg here]
        exact ((ih found).cons first).trans (List.Perm.swap a first _)

theorem dropped_of_not_waiting {oneshot : Nat → Oneshot} {gone : List PairingRequest}
    (ended : ∀ request ∈ gone, oneshot request.decision ≠ .waiting) : dropped oneshot gone = oneshot := by
  funext handshake
  unfold dropped
  apply if_neg
  intro ⟨waits, member⟩
  obtain ⟨request, listed, same⟩ := List.mem_map.mp member
  exact ended request listed (same ▸ waits)

theorem dropped_nil (oneshot : Nat → Oneshot) : dropped oneshot [] = oneshot :=
  dropped_of_not_waiting (by simp)

def State.expired (state : State) : List PairingRequest :=
  (state.pairings.waiting.map Prod.snd).filter fun request => !state.alive request

theorem dropped_expired (state : State) : dropped state.oneshot state.expired = state.oneshot := by
  apply dropped_of_not_waiting
  intro request member
  have ended := (List.mem_filter.mp member).2
  have closed : state.oneshot request.decision = .closed := by simpa [State.alive] using ended
  rw [closed]
  decide

theorem perm_prune (state : State) : state.present.Perm (state.prune.present ++ state.expired) := by
  have kept : state.prune.pairings.waiting.map Prod.snd =
      (state.pairings.waiting.map Prod.snd).filter fun request => state.alive request := by
    rw [List.filter_map]
    rfl
  have split := List.filter_append_perm (fun request => state.alive request) (state.pairings.waiting.map Prod.snd)
  have whole := (split.symm.append_left (state.held.map Prod.snd)).append_left (state.inbox.map Prod.snd)
  show (state.inbox.map Prod.snd ++ (state.held.map Prod.snd ++ state.pairings.waiting.map Prod.snd)).Perm
    ((state.inbox.map Prod.snd ++ (state.held.map Prod.snd ++ state.prune.pairings.waiting.map Prod.snd)) ++ _)
  rw [kept]
  simpa only [State.expired, List.append_assoc] using whole

theorem taken_eq_some {state : State} {bridge : Nat} {request : PairingRequest} (taken : state.taken bridge = some request) :
    state.present.Perm (request :: (state.release bridge).present) := by
  obtain ⟨⟨number, _⟩, found, rfl⟩ := Option.map_eq_some_iff.mp taken
  have moved := (perm_eraseP found).map Prod.snd
  have whole := (moved.append_right (state.pairings.waiting.map Prod.snd)).append_left (state.inbox.map Prod.snd)
  exact whole.trans List.perm_middle

/-! ### The step lemma -/

theorem moves_ask (state : State) (event : Event) (bridge : Nat) (name : String) (code : PairingCode) :
    Move state event (ask state bridge name code).view := by
  unfold ask
  dsimp only
  split
  · exact .refused code
  · apply Move.asks name code
    show ((state.inbox ++ [(bridge, _)]).map Prod.snd ++ _).Perm _
    rw [List.map_append, List.append_assoc]
    exact List.perm_middle

theorem moves_prune (state : State) (event : Event) : Move state event state.prune.view := by
  have move : Move state event _ := .drops state.prune.present state.expired (perm_prune state)
  rw [dropped_expired] at move
  exact move

theorem moves_refuse {state : State} (event : Event) {bridge : Nat} {request : PairingRequest}
    (taken : state.taken bridge = some request) : Move state event ((state.release bridge).answer request false).view := by
  have move : Move state event _ := .answers (state.release bridge).present [] request false
    (by simpa using taken_eq_some taken) (by simp)
  rw [dropped_nil] at move
  exact move

theorem moves_push {state : State} (event : Event) {bridge : Nat} {request : PairingRequest}
    (taken : state.taken bridge = some request) : Move state event (pushPairing (state.release bridge) request).view := by
  have split : state.present.Perm (request :: ((state.release bridge).prune.present ++ state.expired)) :=
    (taken_eq_some taken).trans ((perm_prune (state.release bridge)).cons request)
  unfold pushPairing
  dsimp only
  split
  · next pairings pushed =>
    unfold PendingPairings.push at pushed
    split at pushed
    · cases pushed
    · cases pushed
      -- it moves from the bridge to the end of the queue
      have queued : (request :: ((state.release bridge).prune.present ++ state.expired)).Perm
          (((state.release bridge).prune.inbox.map Prod.snd ++ ((state.release bridge).prune.held.map Prod.snd ++
            ((state.release bridge).prune.pairings.waiting ++
              [((state.release bridge).prune.pairings.nextId, request)]).map Prod.snd)) ++ state.expired) := by
        rw [List.perm_iff_count]
        intro other
        simp only [State.present, List.map_append, List.map_cons, List.map_nil, List.count_append, List.count_cons,
          List.count_nil]
        omega
      have move : Move state event _ := .drops _ state.expired (split.trans queued)
      rw [dropped_expired] at move
      exact move
  · have move : Move state event _ := .answers (state.release bridge).prune.present state.expired request false split (by simp)
    rw [dropped_expired] at move
    exact move

theorem moves_answerPairing (state : State) (id : UInt32) (code : PairingCode) (accept : Bool) :
    Move state (.answerPairing id code accept) (answerPairing state id code accept).view := by
  unfold answerPairing
  dsimp only
  split
  · exact moves_prune state _
  · next entry found =>
    have named := List.find?_some found
    obtain ⟨number, request⟩ := entry
    simp only [Bool.and_eq_true, decide_eq_true_eq] at named
    obtain ⟨rfl, rfl⟩ := named
    -- the first entry with this id and this code leaves the queue
    have split : state.present.Perm (request :: ((state.prune.inbox.map Prod.snd ++ (state.prune.held.map Prod.snd ++
        (state.prune.pairings.waiting.eraseP fun entry => entry.1 = number && entry.2.code = request.code).map
          Prod.snd)) ++ state.expired)) := by
      rw [List.perm_iff_count]
      intro other
      have pruned := (perm_prune state).count_eq other
      have moved := ((perm_eraseP found).map Prod.snd).count_eq other
      simp only [State.present, List.map_cons, List.count_append, List.count_cons] at pruned moved ⊢
      omega
    obtain ⟨listed, alive⟩ := List.mem_filter.mp (List.mem_of_find?_eq_some found)
    have decided : accept = true → UserAccepts state (.answerPairing number request.code accept) request := by
      intro yes
      rw [yes]
      exact ⟨number, rfl, listed, by simpa [State.alive] using alive⟩
    have move : Move state (.answerPairing number request.code accept) _ := .answers _ state.expired request accept split decided
    rw [dropped_expired] at move
    exact move

theorem moves_recv {state next : State} (event : Event) {bridge : Nat} (stepped : step state (.recv bridge) = some next) :
    Move state event next.view := by
  obtain ⟨_, stepped⟩ := Option.ite_none_left_eq_some.mp stepped
  obtain ⟨entry, found, rfl⟩ := Option.map_eq_some_iff.mp stepped
  have split : state.present.Perm (((state.inbox.eraseP fun entry => entry.1 = bridge).map Prod.snd ++
      ((state.held ++ [entry]).map Prod.snd ++ state.pairings.waiting.map Prod.snd)) ++ []) := by
    rw [List.perm_iff_count]
    intro other
    have moved := ((perm_eraseP found).map Prod.snd).count_eq other
    simp only [State.present, List.map_append, List.map_cons, List.map_nil, List.count_append, List.count_cons,
      List.count_nil] at moved ⊢
    omega
  have move : Move state event _ := .drops _ [] split
  rw [dropped_nil] at move
  exact move

theorem moves_endBridge {state next : State} (event : Event) {bridge : Nat}
    (stepped : step state (.endBridge bridge) = some next) : Move state event next.view := by
  cases stepped
  have parts (entries : List (Nat × PairingRequest)) (other : PairingRequest) :
      (entries.map Prod.snd).count other = ((entries.filter fun entry => entry.1 ≠ bridge).map Prod.snd).count other +
        ((entries.filter fun entry => entry.1 = bridge).map Prod.snd).count other := by
    have split := List.filter_append_perm (fun entry : Nat × PairingRequest => decide (entry.1 = bridge)) entries
    have counted := (split.map Prod.snd).count_eq other
    simp only [List.map_append, List.count_append, ← decide_not] at counted
    simp only [ne_eq]
    omega
  have split : state.present.Perm (((state.inbox.filter fun entry => entry.1 ≠ bridge).map Prod.snd ++
      ((state.held.filter fun entry => entry.1 ≠ bridge).map Prod.snd ++ state.pairings.waiting.map Prod.snd)) ++
      ((state.inbox ++ state.held).filter fun entry => entry.1 = bridge).map Prod.snd) := by
    rw [List.perm_iff_count]
    intro other
    simp only [State.present, List.filter_append, List.map_append, List.count_append, parts state.inbox, parts state.held]
    omega
  exact .drops _ _ split

theorem moves_poll {state next : State} (event : Event) {handshake : Nat} (polled : poll state handshake = some next) :
    Move state event next.view := by
  unfold poll at polled
  cases here : state.oneshot handshake with
  | sent accept =>
      rw [here] at polled
      cases polled
      apply Move.closes handshake (some (.ok accept))
      intro yes
      cases yes
      exact here
  | dropped =>
      rw [here] at polled
      cases polled
      exact .closes handshake (some (.ok false)) (by simp)
  | waiting =>
      rw [here] at polled
      cases polled
  | closed =>
      rw [here] at polled
      cases polled

theorem moves {state next : State} {event : Event} (stepped : step state event = some next) : Move state event next.view := by
  cases event with
  | ask bridge name code =>
      cases stepped
      exact moves_ask state _ bridge name code
  | recv bridge => exact moves_recv _ stepped
  | refuse bridge =>
      obtain ⟨request, taken, rfl⟩ := Option.map_eq_some_iff.mp stepped
      exact moves_refuse _ taken
  | push bridge =>
      obtain ⟨request, taken, rfl⟩ := Option.map_eq_some_iff.mp stepped
      exact moves_push _ taken
  | endBridge bridge => exact moves_endBridge _ stepped
  | pendingPairing =>
      cases stepped
      exact moves_prune state _
  | answerPairing id code accept =>
      cases stepped
      exact moves_answerPairing state id code accept
  | clear =>
      cases stepped
      have split : state.present.Perm ((state.inbox.map Prod.snd ++ (state.held.map Prod.snd ++ [])) ++
          state.pairings.waiting.map Prod.snd) := by
        simp [State.present]
      exact .drops _ _ split
  | poll handshake => exact moves_poll _ stepped
  | timeout handshake =>
      obtain ⟨_, same⟩ := Option.ite_none_left_eq_some.mp stepped
      cases same
      exact .closes handshake (some (.error .pairingTimeout)) (by simp)
  | leave handshake =>
      cases stepped
      exact .closes handshake none (by simp)
  | restart =>
      cases stepped
      exact .restarts

/-! ## Every request is in one place and answered at most once -/

structure Fine (view : View) : Prop where
  distinct : (view.present.map PairingRequest.decision).Nodup
  /-- A request has the code of its handshake. -/
  own : ∀ request ∈ view.present, view.codes[request.decision]? = some request.code
  unanswered : ∀ request ∈ view.present, request.decision ∉ view.given.map Prod.fst
  untouched : ∀ request ∈ view.present, view.oneshot request.decision = .waiting ∨ view.oneshot request.decision = .closed
  complete : ∀ handshake, view.oneshot handshake = .waiting → handshake ∈ view.present.map PairingRequest.decision
  once : (view.given.map Prod.fst).Nodup
  asked : ∀ handshake ∈ view.given.map Prod.fst, handshake < view.codes.length
  sent : ∀ handshake accept, view.oneshot handshake = .sent accept → (handshake, accept) ∈ view.given
  seen : ∀ handshake, view.seen handshake = some (.ok true) → (handshake, true) ∈ view.given

theorem Fine.perm {view : View} (fine : Fine view) {present : List PairingRequest} (same : view.present.Perm present) :
    Fine { view with present } where
  distinct := (same.map _).nodup_iff.mp fine.distinct
  own request member := fine.own request (same.mem_iff.mpr member)
  unanswered request member := fine.unanswered request (same.mem_iff.mpr member)
  untouched request member := fine.untouched request (same.mem_iff.mpr member)
  complete handshake waits := (same.map _).mem_iff.mp (fine.complete handshake waits)
  once := fine.once
  asked := fine.asked
  sent := fine.sent
  seen := fine.seen

theorem Fine.drops {view : View} {present gone : List PairingRequest} (fine : Fine { view with present := present ++ gone }) :
    Fine { view with present, oneshot := dropped view.oneshot gone } := by
  have distinct := fine.distinct
  simp only [List.map_append, List.nodup_append] at distinct
  obtain ⟨own, _, apart⟩ := distinct
  have kept : ∀ request ∈ present, dropped view.oneshot gone request.decision = view.oneshot request.decision := by
    intro request member
    unfold dropped
    apply if_neg
    intro ⟨_, other⟩
    exact apart _ (List.mem_map_of_mem member) _ other rfl
  have sent : ∀ handshake accept, dropped view.oneshot gone handshake = .sent accept →
      view.oneshot handshake = .sent accept := by
    intro handshake accept sent
    unfold dropped at sent
    split at sent
    · cases sent
    · exact sent
  constructor
  · exact own
  · intro request member
    exact fine.own request (List.mem_append_left _ member)
  · intro request member
    exact fine.unanswered request (List.mem_append_left _ member)
  · intro request member
    rw [show View.oneshot _ request.decision = _ from kept request member]
    exact fine.untouched request (List.mem_append_left _ member)
  · intro handshake waits
    have still : view.oneshot handshake = .waiting ∧ ¬ handshake ∈ gone.map PairingRequest.decision := by
      have waits : dropped view.oneshot gone handshake = .waiting := waits
      unfold dropped at waits
      split at waits
      · cases waits
      · next outside => exact ⟨waits, fun member => outside ⟨waits, member⟩⟩
    -- a handshake that still waits has its request, and not among those that were dropped
    have listed := fine.complete handshake still.1
    rw [List.map_append, List.mem_append] at listed
    exact listed.resolve_right still.2
  · exact fine.once
  · exact fine.asked
  · intro handshake accept there
    exact fine.sent handshake accept (sent handshake accept there)
  · exact fine.seen

/-- An answer changes the channel of its own handshake, and only while somebody waits for it. -/
theorem answered_cases {oneshot : Nat → Oneshot} {decision handshake : Nat} {accept : Bool} {channel : Oneshot}
    (there : (if oneshot decision = .waiting then Function.update oneshot decision (.sent accept) else oneshot) handshake =
      channel) :
    (handshake = decision ∧ channel = .sent accept) ∨
      (oneshot handshake = channel ∧ (handshake = decision → channel ≠ .waiting)) := by
  split at there
  · by_cases same : handshake = decision
    · subst same
      rw [Function.update_self] at there
      exact .inl ⟨rfl, there.symm⟩
    · rw [Function.update_of_ne same] at there
      exact .inr ⟨there, fun own => absurd own same⟩
  · next other => exact .inr ⟨there, fun same waits => other (same ▸ there.trans waits)⟩

theorem Fine.answers {view : View} {request : PairingRequest} {rest : List PairingRequest} (accept : Bool)
    (fine : Fine { view with present := request :: rest }) :
    Fine { view with
      present := rest
      given := view.given ++ [(request.decision, accept)]
      oneshot := if view.oneshot request.decision = .waiting then
        Function.update view.oneshot request.decision (.sent accept) else view.oneshot } := by
  obtain ⟨first, others⟩ := List.nodup_cons.mp fine.distinct
  have known := fine.own request List.mem_cons_self
  have new := fine.unanswered request List.mem_cons_self
  have given : (view.given ++ [(request.decision, accept)]).map Prod.fst = view.given.map Prod.fst ++ [request.decision] := by
    simp
  have apart : ∀ other ∈ rest, other.decision ≠ request.decision :=
    fun other member same => first (same ▸ List.mem_map_of_mem member)
  -- at every other channel nothing changes
  have elsewhere : ∀ handshake, handshake ≠ request.decision →
      (if view.oneshot request.decision = .waiting then Function.update view.oneshot request.decision (.sent accept)
        else view.oneshot) handshake = view.oneshot handshake := by
    intro handshake other
    split
    · exact Function.update_of_ne other _ _
    · rfl
  constructor
  · exact others
  · intro other member
    exact fine.own other (List.mem_cons_of_mem _ member)
  · intro other member listed
    rw [given, List.mem_append, List.mem_singleton] at listed
    rcases listed with old | same
    · exact fine.unanswered other (List.mem_cons_of_mem _ member) old
    · exact apart other member same
  · intro other member
    dsimp only
    rw [elsewhere _ (apart other member)]
    exact fine.untouched other (List.mem_cons_of_mem _ member)
  · intro handshake waits
    rcases answered_cases waits with ⟨-, sent⟩ | ⟨old, other⟩
    · cases sent
    · exact (List.mem_cons.mp (fine.complete handshake old)).resolve_left fun same => other same rfl
  · rw [given, List.nodup_append]
    refine ⟨fine.once, List.nodup_singleton _, ?_⟩
    intro old member _ last same
    rw [List.mem_singleton.mp last] at same
    exact new (same ▸ member)
  · intro handshake listed
    rw [given, List.mem_append, List.mem_singleton] at listed
    rcases listed with old | same
    · exact fine.asked handshake old
    · rw [same]
      exact (List.getElem?_eq_some_iff.mp known).1
  · intro handshake yes there
    rcases answered_cases there with ⟨same, sent⟩ | ⟨old, -⟩
    · subst same
      cases sent
      exact List.mem_append_right _ (List.mem_singleton.mpr rfl)
    · exact List.mem_append_left _ (fine.sent handshake yes old)
  · intro handshake seen
    exact List.mem_append_left _ (fine.seen handshake seen)

theorem Fine.asks {view : View} (fine : Fine view) (name : String) (code : PairingCode) :
    Fine { view with
      present := ⟨name, code, view.codes.length⟩ :: view.present
      codes := view.codes ++ [code]
      oneshot := Function.update view.oneshot view.codes.length .waiting } := by
  have older : ∀ request ∈ view.present, request.decision < view.codes.length :=
    fun request member => (List.getElem?_eq_some_iff.mp (fine.own request member)).1
  have fresh : view.codes.length ∉ view.given.map Prod.fst := fun listed => Nat.lt_irrefl _ (fine.asked _ listed)
  constructor
  · refine List.nodup_cons.mpr ⟨?_, fine.distinct⟩
    intro listed
    obtain ⟨request, member, same⟩ := List.mem_map.mp listed
    exact Nat.ne_of_lt (older request member) same
  · intro request member
    rcases List.mem_cons.mp member with rfl | old
    · simp
    · dsimp only
      rw [List.getElem?_append_left (older request old)]
      exact fine.own request old
  · intro request member
    rcases List.mem_cons.mp member with rfl | old
    · exact fresh
    · exact fine.unanswered request old
  · intro request member
    rcases List.mem_cons.mp member with rfl | old
    · exact .inl (Function.update_self _ _ _)
    · dsimp only
      rw [Function.update_of_ne (Nat.ne_of_lt (older request old))]
      exact fine.untouched request old
  · intro handshake waits
    dsimp only at waits ⊢
    by_cases same : handshake = view.codes.length
    · rw [same]
      exact List.mem_cons_self
    · rw [Function.update_of_ne same] at waits
      exact List.mem_cons_of_mem _ (fine.complete handshake waits)
  · exact fine.once
  · intro handshake listed
    have less := fine.asked handshake listed
    simp only [List.length_append, List.length_singleton]
    omega
  · intro handshake accept there
    dsimp only at there
    by_cases same : handshake = view.codes.length
    · rw [same, Function.update_self] at there
      cases there
    · rw [Function.update_of_ne same] at there
      exact fine.sent handshake accept there
  · exact fine.seen

theorem Fine.refused {view : View} (fine : Fine view) (code : PairingCode) :
    Fine { view with
      codes := view.codes ++ [code]
      seen := Function.update view.seen view.codes.length (some (.ok false)) } := by
  constructor
  · exact fine.distinct
  · intro request member
    have known := fine.own request member
    dsimp only
    rw [List.getElem?_append_left (List.getElem?_eq_some_iff.mp known).1]
    exact known
  · exact fine.unanswered
  · exact fine.untouched
  · exact fine.complete
  · exact fine.once
  · intro handshake listed
    have less := fine.asked handshake listed
    simp only [List.length_append, List.length_singleton]
    omega
  · exact fine.sent
  · intro handshake seen
    dsimp only at seen
    by_cases same : handshake = view.codes.length
    · rw [same, Function.update_self] at seen
      cases seen
    · rw [Function.update_of_ne same] at seen
      exact fine.seen handshake seen

theorem Fine.closes {view : View} (fine : Fine view) (handshake : Nat) (result : Option (Except AuthSnowErrors Bool))
    (honest : result = some (.ok true) → view.oneshot handshake = .sent true) :
    Fine { view with
      oneshot := Function.update view.oneshot handshake .closed
      seen := result.elim view.seen fun result => Function.update view.seen handshake (some result) } := by
  have opened : ∀ other value, value ≠ .closed → Function.update view.oneshot handshake .closed other = value →
      view.oneshot other = value := by
    intro other value live there
    by_cases same : other = handshake
    · rw [same, Function.update_self] at there
      exact absurd there.symm live
    · rw [Function.update_of_ne same] at there
      exact there
  constructor
  · exact fine.distinct
  · exact fine.own
  · exact fine.unanswered
  · intro request member
    dsimp only
    by_cases same : request.decision = handshake
    · rw [same, Function.update_self]
      exact .inr rfl
    · rw [Function.update_of_ne same]
      exact fine.untouched request member
  · intro other waits
    exact fine.complete other (opened other _ (by decide) waits)
  · exact fine.once
  · exact fine.asked
  · intro other accept there
    exact fine.sent other accept (opened other _ (by simp) there)
  · intro other seen
    dsimp only at seen
    cases result with
    | none => exact fine.seen other seen
    | some result =>
        dsimp only [Option.elim_some] at seen
        by_cases same : other = handshake
        · rw [same, Function.update_self] at seen
          rw [same]
          -- a yes is seen only where it was sent
          exact fine.sent handshake true (honest seen)
        · rw [Function.update_of_ne same] at seen
          exact fine.seen other seen

theorem Fine.restarts {view : View} (fine : Fine view) : Fine { view with present := [], oneshot := fun _ => .closed } where
  distinct := List.nodup_nil
  own request member := by cases member
  unanswered request member := by cases member
  untouched request member := by cases member
  complete handshake waits := by cases waits
  once := fine.once
  asked := fine.asked
  sent handshake accept there := by cases there
  seen := fine.seen

theorem fine_step {state next : State} {event : Event} (stepped : step state event = some next) (fine : Fine state.view) :
    Fine next.view := by
  generalize same : next.view = view
  have move := moves stepped
  rw [same] at move
  cases move with
  | drops present gone split => exact (fine.perm split).drops
  | answers present gone request accept split decided =>
      have ordered : Fine { state.view with present := (request :: present) ++ gone } := fine.perm split
      have left : Fine { (⟨request :: present, state.codes, dropped state.oneshot gone, state.seen, state.given⟩ : View) with
          present := request :: present } := ordered.drops
      exact left.answers accept
  | asks name code present split => exact (fine.asks name code).perm split.symm
  | refused code => exact fine.refused code
  | closes handshake result honest => exact fine.closes handshake result honest
  | restarts => exact fine.restarts

theorem fine_start : Fine ({} : State).view := by
  constructor <;> simp [State.view, State.present]

theorem fine_run {events : List Event} {state final : State} (ran : run state events = some final) (fine : Fine state.view) :
    Fine final.view := by
  induction events generalizing state with
  | nil =>
      cases ran
      exact fine
  | cons event events ih =>
      obtain ⟨next, stepped, rest⟩ := Option.bind_eq_some_iff.mp ran
      exact ih rest (fine_step stepped fine)

/-! ## Only the user accepts -/

theorem accepted_step {state next : State} {event : Event} (stepped : step state event = some next) {handshake : Nat}
    (given : (handshake, true) ∈ next.given) :
    (handshake, true) ∈ state.given ∨ ∃ request, request.decision = handshake ∧ UserAccepts state event request := by
  have move := moves stepped
  generalize same : next.view = view at move
  have given : (handshake, true) ∈ view.given := by
    rw [← same]
    exact given
  cases move with
  | answers present gone request accept split decided =>
      rcases List.mem_append.mp given with old | new
      · exact .inl old
      · cases List.mem_singleton.mp new
        exact .inr ⟨request, rfl, decided rfl⟩
  -- no other step gives an answer
  | drops | asks | refused | closes | restarts => exact .inl given

theorem accepted_run {events : List Event} {state final : State} (ran : run state events = some final) {handshake : Nat}
    (given : (handshake, true) ∈ final.given) :
    (handshake, true) ∈ state.given ∨ ∃ before event after middle request, events = before ++ event :: after ∧
      run state before = some middle ∧ request.decision = handshake ∧ UserAccepts middle event request := by
  induction events generalizing state with
  | nil =>
      cases ran
      exact .inl given
  | cons event events ih =>
      obtain ⟨next, stepped, rest⟩ := Option.bind_eq_some_iff.mp ran
      rcases ih rest with old | ⟨before, later, after, middle, request, shape, reached, own, accepts⟩
      · rcases accepted_step stepped old with older | ⟨request, own, accepts⟩
        · exact .inl older
        · exact .inr ⟨[], event, events, state, request, rfl, rfl, own, accepts⟩
      · refine .inr ⟨event :: before, later, after, middle, request, ?_, ?_, own, accepts⟩
        · rw [shape, List.cons_append]
        · rw [run, stepped]
          exact reached

/-! ## Requests that are gone without an answer -/

/-- The handshake asked, its request is nowhere, and nobody answered it. -/
structure Retired (view : View) (handshake : Nat) : Prop where
  asked : handshake < view.codes.length
  absent : handshake ∉ view.present.map PairingRequest.decision
  unanswered : handshake ∉ view.given.map Prod.fst

theorem retired_step {state next : State} {event : Event} (stepped : step state event = some next) {handshake : Nat}
    (retired : Retired state.view handshake) : Retired next.view handshake := by
  obtain ⟨asked, absent, unanswered⟩ := retired
  have move := moves stepped
  generalize next.view = view at move
  cases move with
  | drops present gone split =>
      rw [show state.view.present = state.present from rfl, (split.map _).mem_iff, List.map_append, List.mem_append,
        not_or] at absent
      exact ⟨asked, absent.1, unanswered⟩
  | answers present gone request accept split decided =>
      rw [show state.view.present = state.present from rfl, (split.map _).mem_iff, List.map_cons, List.map_append,
        List.mem_cons, List.mem_append, not_or, not_or] at absent
      refine ⟨asked, absent.2.1, ?_⟩
      rw [List.map_append, List.mem_append, not_or]
      exact ⟨unanswered, fun same => absent.1 (List.mem_singleton.mp same)⟩
  | asks name code present split =>
      refine ⟨?_, ?_, unanswered⟩
      · simp only [List.length_append]
        exact Nat.lt_add_right _ asked
      · rw [(split.map _).mem_iff, List.map_cons, List.mem_cons, not_or]
        exact ⟨Nat.ne_of_lt asked, absent⟩
  | refused code =>
      refine ⟨?_, absent, unanswered⟩
      simp only [List.length_append]
      exact Nat.lt_add_right _ asked
  | closes handshake result honest => exact ⟨asked, absent, unanswered⟩
  | restarts => exact ⟨asked, List.not_mem_nil, unanswered⟩

theorem retired_run {events : List Event} {state final : State} (ran : run state events = some final) {handshake : Nat}
    (retired : Retired state.view handshake) : Retired final.view handshake := by
  induction events generalizing state with
  | nil =>
      cases ran
      exact retired
  | cons event events ih =>
      obtain ⟨next, stepped, rest⟩ := Option.bind_eq_some_iff.mp ran
      exact ih rest (retired_step stepped retired)

theorem Fine.rejected {view : View} (fine : Fine view) {handshake : Nat} (retired : Retired view handshake)
    {result : Except AuthSnowErrors Bool} (seen : view.seen handshake = some result) : Auth.accepts result = false := by
  cases result with
  | error error => rfl
  | ok accept =>
      cases accept with
      | false => rfl
      | true => exact absurd (List.mem_map_of_mem (fine.seen handshake seen)) retired.unanswered

theorem Fine.gone {view : View} (fine : Fine view) {handshake : Nat} (retired : Retired view handshake) :
    view.oneshot handshake = .dropped ∨ view.oneshot handshake = .closed := by
  cases here : view.oneshot handshake with
  | waiting => exact absurd (fine.complete handshake here) retired.absent
  | sent accept => exact absurd (List.mem_map_of_mem (fine.sent handshake accept here)) retired.unanswered
  | dropped => exact .inl rfl
  | closed => exact .inr rfl

/-! ## Ids -/

/-- The ids in the queue are those of different requests, counted from the start of the daemon. -/
structure Numbered (pairings : PendingPairings) (queued : Nat) : Prop where
  few : pairings.waiting.length ≤ maxPendingPairings
  next : pairings.nextId = UInt32.ofNat queued
  ids : ∃ numbers : List Nat, pairings.waiting.map Prod.fst = numbers.map UInt32.ofNat ∧ numbers.Nodup ∧
    ∀ number ∈ numbers, number < queued

inductive QueueMove (pairings : PendingPairings) (queued : Nat) : PendingPairings → Nat → Prop where
  | keeps (waiting : List (UInt32 × PairingRequest)) (part : waiting.Sublist pairings.waiting) :
      QueueMove pairings queued { pairings with waiting } queued
  | pushes (waiting : List (UInt32 × PairingRequest)) (request : PairingRequest) (part : waiting.Sublist pairings.waiting)
      (room : waiting.length < maxPendingPairings) :
      QueueMove pairings queued ⟨pairings.nextId + 1, waiting ++ [(pairings.nextId, request)]⟩ (queued + 1)
  | restarts : QueueMove pairings queued {} 0

theorem queueMoves_prune (state : State) : QueueMove state.pairings state.queued state.prune.pairings state.queued :=
  .keeps _ List.filter_sublist

theorem queueMoves_push (state : State) (request : PairingRequest) : QueueMove state.pairings state.queued
    (pushPairing state request).pairings (pushPairing state request).queued := by
  unfold pushPairing
  dsimp only
  split
  · next pairings pushed =>
    obtain ⟨room, same⟩ := Option.ite_none_left_eq_some.mp pushed
    cases same
    exact .pushes _ request List.filter_sublist (Nat.lt_of_not_le room)
  · exact queueMoves_prune state

theorem queueMoves {state next : State} {event : Event} (stepped : step state event = some next) :
    QueueMove state.pairings state.queued next.pairings next.queued := by
  have same : QueueMove state.pairings state.queued state.pairings state.queued := .keeps _ (List.Sublist.refl _)
  cases event with
  | ask bridge name code =>
      cases stepped
      dsimp only [ask]
      split <;> exact same
  | recv bridge =>
      obtain ⟨_, stepped⟩ := Option.ite_none_left_eq_some.mp stepped
      obtain ⟨entry, _, rfl⟩ := Option.map_eq_some_iff.mp stepped
      exact same
  | refuse bridge =>
      obtain ⟨request, _, rfl⟩ := Option.map_eq_some_iff.mp stepped
      exact same
  | push bridge =>
      obtain ⟨request, _, rfl⟩ := Option.map_eq_some_iff.mp stepped
      exact queueMoves_push (state.release bridge) request
  | endBridge bridge =>
      cases stepped
      exact same
  | pendingPairing =>
      cases stepped
      exact queueMoves_prune state
  | answerPairing id code accept =>
      cases stepped
      dsimp only [answerPairing]
      split
      · exact queueMoves_prune state
      · exact .keeps _ (List.eraseP_sublist.trans List.filter_sublist)
  | clear =>
      cases stepped
      exact .keeps [] (List.nil_sublist _)
  | poll handshake =>
      dsimp only [step, poll] at stepped
      split at stepped
      · cases stepped
        exact same
      · cases stepped
        exact same
      · cases stepped
      · cases stepped
  | timeout handshake =>
      obtain ⟨_, done⟩ := Option.ite_none_left_eq_some.mp stepped
      cases done
      exact same
  | leave handshake =>
      cases stepped
      exact same
  | restart =>
      cases stepped
      exact .restarts

theorem Numbered.sublist {pairings : PendingPairings} {queued : Nat} (numbered : Numbered pairings queued)
    {waiting : List (UInt32 × PairingRequest)} (part : waiting.Sublist pairings.waiting) :
    Numbered { pairings with waiting } queued := by
  obtain ⟨few, next, numbers, same, distinct, older⟩ := numbered
  have ids := part.map Prod.fst
  rw [same] at ids
  -- what is left of the ids comes from what is left of the numbers
  obtain ⟨fewer, inside, shape⟩ := List.sublist_map_iff.mp ids
  exact ⟨part.length_le.trans few, next, fewer, shape, distinct.sublist inside,
    fun number member => older number (inside.subset member)⟩

theorem Numbered.push {pairings : PendingPairings} {queued : Nat} (numbered : Numbered pairings queued)
    (room : pairings.waiting.length < maxPendingPairings) (request : PairingRequest) :
    Numbered ⟨pairings.nextId + 1, pairings.waiting ++ [(pairings.nextId, request)]⟩ (queued + 1) := by
  obtain ⟨_, next, numbers, same, distinct, older⟩ := numbered
  refine ⟨?_, ?_, numbers ++ [queued], ?_, ?_, ?_⟩
  · simp only [List.length_append, List.length_singleton]
    omega
  · simp [next]
  · simp [same, next]
  · rw [List.nodup_append]
    refine ⟨distinct, List.nodup_singleton _, ?_⟩
    intro old member last new
    rw [List.mem_singleton.mp new]
    exact Nat.ne_of_lt (older old member)
  · intro number member
    rcases List.mem_append.mp member with old | new
    · exact Nat.lt_succ_of_lt (older number old)
    · rw [List.mem_singleton.mp new]
      exact Nat.lt_succ_self queued

theorem numbered_start : Numbered {} 0 := ⟨Nat.zero_le _, rfl, [], rfl, List.nodup_nil, by simp⟩

theorem numbered_run {events : List Event} {state final : State} (ran : run state events = some final)
    (numbered : Numbered state.pairings state.queued) : Numbered final.pairings final.queued := by
  induction events generalizing state with
  | nil =>
      cases ran
      exact numbered
  | cons event events ih =>
      obtain ⟨next, stepped, rest⟩ := Option.bind_eq_some_iff.mp ran
      apply ih rest
      have move := queueMoves stepped
      generalize next.pairings = pairings, next.queued = queued at move
      cases move with
      | keeps waiting part => exact numbered.sublist part
      | pushes waiting request part room => exact (numbered.sublist part).push room request
      | restarts => exact numbered_start

theorem Numbered.distinct {pairings : PendingPairings} {queued : Nat} (numbered : Numbered pairings queued)
    (bound : queued < 2 ^ 32) : (pairings.waiting.map Prod.fst).Nodup := by
  obtain ⟨_, _, numbers, same, distinct, older⟩ := numbered
  rw [same]
  apply distinct.map_on
  intro one first other second equal
  have small : ∀ number ∈ numbers, number < 2 ^ 32 := fun number member => (older number member).trans bound
  -- below 2^32 an id is its number
  have values := congrArg UInt32.toNat equal
  rwa [UInt32.toNat_ofNat_of_lt' (small one first), UInt32.toNat_ofNat_of_lt' (small other second)] at values

/-! ## The answers of every run -/

/-- In every run, a yes that a handshake gets is the user's answer to its own id and code, given while
it waited; a request is answered at most once; one that is gone without an answer is a
rejection from then on; and the queue is short and, up to 2^32 requests, its ids are distinct. -/
theorem answers_reach_their_pairing (events : List Event) (final : State) (ran : run {} events = some final) :
    (∀ handshake, final.seen handshake = some (.ok true) ∨ final.oneshot handshake = .sent true →
      ∃ before id code after middle request, events = before ++ .answerPairing id code true :: after ∧
        run {} before = some middle ∧ (id, request) ∈ middle.pairings.waiting ∧ request.decision = handshake ∧
        request.code = code ∧ middle.codes[handshake]? = some code ∧ middle.oneshot handshake = .waiting) ∧
    (final.given.map Prod.fst).Nodup ∧
    (∀ handshake < final.codes.length, handshake ∉ final.present.map PairingRequest.decision →
      handshake ∉ final.given.map Prod.fst →
      (final.oneshot handshake = .dropped ∧
          (∃ next, step final (.poll handshake) = some next ∧ next.seen handshake = some (.ok false)) ∨
        final.oneshot handshake = .closed) ∧
      ∀ later last result, run final later = some last → last.seen handshake = some result →
        Auth.accepts result = false) ∧
    final.pairings.waiting.length ≤ maxPendingPairings ∧
    (final.queued < 2 ^ 32 → (final.pairings.waiting.map Prod.fst).Nodup) := by
  have fine := fine_run ran fine_start
  have numbered := numbered_run ran numbered_start
  refine ⟨?_, fine.once, ?_, numbered.few, numbered.distinct⟩
  · intro handshake delivered
    have given : (handshake, true) ∈ final.given := by
      rcases delivered with seen | sent
      · exact fine.seen handshake seen
      · exact fine.sent handshake true sent
    rcases accepted_run ran given with old | ⟨before, event, after, middle, request, shape, reached, own, accepts⟩
    · cases old
    · obtain ⟨id, rfl, listed, open_⟩ := accepts
      have fineThen := fine_run reached fine_start
      -- the request the user saw is in the queue, so it has the code of its handshake
      have present : request ∈ middle.view.present := by
        apply List.mem_append_right
        apply List.mem_append_right
        exact List.mem_map.mpr ⟨_, listed, rfl⟩
      subst own
      exact ⟨before, id, request.code, after, middle, request, shape, reached, listed, rfl, rfl,
        fineThen.own request present, (fineThen.untouched request present).resolve_right open_⟩
  · intro handshake asked absent unanswered
    have retired : Retired final.view handshake := ⟨asked, absent, unanswered⟩
    constructor
    · rcases fine.gone retired with dropped | closed
      · have dropped : final.oneshot handshake = .dropped := dropped
        refine .inl ⟨dropped, final.close handshake (some (.ok false)), ?_, ?_⟩
        · simp only [step, poll, dropped]
        · exact Function.update_self _ _ _
      · exact .inr closed
    · intro later last result ran seen
      exact (fine_run ran fine).rejected (retired_run ran retired) seen

/-- The answer to the id alone finds nothing; the one with the code is taken, and a second device is dropped. -/
def acceptedRun : List Event :=
  let code : PairingCode := List.Vector.replicate 8 1
  let other : PairingCode := List.Vector.replicate 8 2
  [.ask 0 "a" code, .recv 0, .push 0, .ask 1 "b" other, .recv 1, .push 1, .answerPairing 0 other true,
    .answerPairing 0 code true, .poll 0, .clear]

theorem answers_reach_their_pairing_accepted : ∃ final, run {} acceptedRun = some final ∧
    (∃ before id code after middle request, acceptedRun = before ++ .answerPairing id code true :: after ∧
      run {} before = some middle ∧ (id, request) ∈ middle.pairings.waiting ∧ request.decision = 0 ∧
      request.code = code ∧ middle.codes[0]? = some code ∧ middle.oneshot 0 = .waiting) ∧
    final.given = [(0, true)] ∧
    ∀ later last result, run final later = some last → last.seen 1 = some result → Auth.accepts result = false := by
  refine ⟨_, rfl, ?_, rfl, ?_⟩
  · exact (answers_reach_their_pairing acceptedRun _ rfl).1 0 (.inl rfl)
  · exact ((answers_reach_their_pairing acceptedRun _ rfl).2.2.1 1 (by decide) (by decide) (by decide)).2

end Answers

end CesaConn
