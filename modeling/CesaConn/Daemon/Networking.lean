import CesaConn.Daemon.Frame
import CesaConn.Program.Triple

/-! Networking follows the state.

A state change ends in `apply_network` with the change slot still held; a join
gives the slot back first. What the holder knows is a view: the keys and the
list handle, which nobody else changes, and which running networks may not fit
them yet. A network that another task publishes meanwhile has to fit what it
finds; `followed` says so for the tasks without the slot.
-/

set_option autoImplicit false

namespace CesaConn

open Format Program

namespace Daemon

open Vault

variable {setup : Setup}

def State.wants (state : State) (network : Network) : Bool :=
  state.keys.wanted.isSome && state.keys.context.isSome &&
    decide (state.contextKeys network.number = state.keys.context) &&
    decide (network.trustedPeers = state.trustedPeers)

/-- A task without the change slot publishes a network only while the state wants it. -/
def followed (task : Nat) : Op → State → Bool
  | .publishNetwork network, state =>
      decide (state.turn = some task) || state.runningNetwork.isSome || state.wants network
  | _, _ => true

inductive NetworkJob where
  | change (request : Request)
  | commitJoin (joined : Joined) (identity : Identity) (resets : Nat)
  | listenerFails (network : Nat)

def NetworkJob.program (setup : Setup) : NetworkJob → Task Unit
  | .change request => Daemon.change setup request
  | .commitJoin joined identity resets => do let _ ← Daemon.commitJoin setup joined identity resets
  | .listenerFails network => await (.listenerFails network)

def networkWorkload (setup : Setup) : Workload (machine setup) where
  Job := NetworkJob
  program := NetworkJob.program setup
  ready _ _ := true
  allows := followed

/-! ## Networks that fit the state -/

structure State.Fits (state : State) (network : Network) : Prop where
  made : network.number < state.nextNetwork
  wanted : state.keys.wanted.isSome
  handle : network.trustedPeers = state.trustedPeers
  context : ∃ keys, state.keys.context = some keys ∧ state.contextKeys network.number = some keys

theorem State.wants_iff {state : State} {network : Network} :
    state.wants network = true ↔
      state.keys.wanted.isSome ∧ network.trustedPeers = state.trustedPeers ∧
        ∃ keys, state.keys.context = some keys ∧ state.contextKeys network.number = some keys := by
  simp only [State.wants, Bool.and_eq_true, decide_eq_true_eq, Option.isSome_iff_exists]
  constructor
  · rintro ⟨⟨⟨wanted, keys, context⟩, same⟩, handle⟩
    exact ⟨wanted, handle, keys, context, same.trans context⟩
  · rintro ⟨wanted, handle, keys, context, same⟩
    exact ⟨⟨⟨wanted, keys, context⟩, same.trans context.symm⟩, handle⟩

/-- What others do to networking while a task has the slot. -/
structure Drift (before after : State) : Prop where
  keys : after.keys = before.keys
  handle : after.trustedPeers = before.trustedPeers
  contexts : ∀ number < before.nextNetwork, after.contextKeys number = before.contextKeys number
  running : ∀ network, after.runningNetwork = some network →
    before.runningNetwork = some network ∨ after.Fits network

theorem State.Fits.drift {before after : State} {network : Network} (fits : before.Fits network)
    (drift : Drift before after) (numbers : before.nextNetwork ≤ after.nextNetwork) : after.Fits network where
  made := fits.made.trans_le numbers
  wanted := by rw [drift.keys]; exact fits.wanted
  handle := fits.handle.trans drift.handle.symm
  context := by
    rw [drift.keys, drift.contexts _ fits.made]
    exact fits.context

theorem Drift.refl (state : State) : Drift state state := ⟨rfl, rfl, fun _ _ => rfl, fun _ => .inl⟩

theorem Drift.trans {first second third : State} (left : Drift first second) (right : Drift second third)
    (numbers : first.nextNetwork ≤ second.nextNetwork) (numbers' : second.nextNetwork ≤ third.nextNetwork) :
    Drift first third where
  keys := right.keys.trans left.keys
  handle := right.handle.trans left.handle
  contexts number small := (right.contexts number (small.trans_le numbers)).trans (left.contexts number small)
  running network found := by
    rcases right.running network found with before | fits
    · exact (left.running network before).imp_right fun fits => fits.drift right numbers'
    · exact .inr fits

structure NetworkInv (state : State) : Prop where
  follows : state.turn = none → ∀ network, state.runningNetwork = some network → state.Fits network
  made : ∀ network, state.network = some network → network.number < state.nextNetwork

def networking (setup : Setup) : Discipline (machine setup) Unit where
  inv state _ := NetworkInv state
  keep task before _ after _ :=
    before.nextNetwork ≤ after.nextNetwork ∧ (after.turn = some task ↔ before.turn = some task) ∧
      (before.turn = some task → Drift before after)
  idle task state _ := state.turn ≠ some task
  observe _ _ _ _ _ := True
  keep_refl _ _ _ := ⟨Nat.le_refl _, Iff.rfl, fun _ => .refl _⟩
  keep_trans _ _ _ _ _ _ _ first second :=
    ⟨first.1.trans second.1, second.2.1.trans first.2.1,
      fun held => (first.2.2 held).trans (second.2.2 (first.2.1.mpr held)) first.1 second.1⟩
  idle_keep _ _ _ _ _ kept idle := fun held => idle (kept.2.1.mp held)

abbrev Networks (setup : Setup) (task : Nat) {A : Type} (pre : State → Unit → Prop) (program : Task A)
    (post : A → State → Unit → Prop) : Prop :=
  (networking setup).Triple (networkWorkload setup).regime task pre program post

variable {task : Nat} {A B : Type}

/-- What the holder knows: the keys, the list handle and which running networks may not fit them. -/
structure View where
  keys : KeySlots
  handle : Nat
  stale : Network → Prop

structure Sees (task : Nat) (view : View) (state : State) (_ : Unit) : Prop where
  turn : state.turn = some task
  keys : state.keys = view.keys
  handle : state.trustedPeers = view.handle
  running : ∀ network, state.runningNetwork = some network → state.Fits network ∨ view.stale network

theorem stable_sees (view : View) : (networking setup).Stable task (Sees task view) := by
  rintro before _ after _ ⟨numbers, same, drifts⟩ ⟨turn, keys, handle, running⟩
  have drift := drifts turn
  refine ⟨same.mpr turn, drift.keys.trans keys, drift.handle.trans handle, fun network found => ?_⟩
  rcases drift.running network found with earlier | fits
  · exact (running network earlier).imp_left fun fits => fits.drift drift numbers
  · exact .inl fits

theorem stable_without : (networking setup).Stable task fun state _ => state.turn ≠ some task :=
  fun _ _ _ _ kept idle held => idle (kept.2.1.mp held)

theorem stable_made (number : Nat) : (networking setup).Stable task fun state _ => number < state.nextNetwork :=
  fun _ _ _ _ kept small => small.trans_le kept.1

/-! ## Operations that change neither the keys nor what runs -/

def Op.calm : Op → Bool
  | .acquire | .release | .writeKeys _ | .wipeKeys | .saltFor _ _ | .newPeers | .publishNetwork _
  | .setContextKeys _ _ => false
  | _ => true

theorem calm_writes {op : Op} (calm : op.calm = true) : .keys ∉ op.writes ∧ .turn ∉ op.writes := by
  cases op <;> simp [Op.calm] at calm <;> simp [Op.writes]

theorem State.running_cancel {state : State} (token : Token) {network : Network}
    (found : (state.cancel token).runningNetwork = some network) : state.runningNetwork = some network := by
  simp only [State.runningNetwork, Option.filter_eq_some_iff, Network.running, Bool.not_eq_true'] at found ⊢
  refine ⟨found.1, ?_⟩
  by_cases own : Token.network network.number = token
  · simp [State.cancel, own] at found
  · simpa [State.cancel, own] using found.2

theorem calm_running {op : Op} (calm : op.calm = true) {outcome : Outcome} {before after : State} {reply : Reply op}
    (executed : (machine setup).exec task op outcome before = some (reply, after)) {network : Network}
    (found : after.runningNetwork = some network) : before.runningNetwork = some network := by
  by_cases untouched : .network ∉ op.writes ∧ .cancelled ∉ op.writes
  · have same : after.network = before.network := exec_same executed .network untouched.1
    have cancelled : after.cancelled = before.cancelled := exec_same executed .cancelled untouched.2
    simpa only [State.runningNetwork, same, cancelled] using found
  · cases op <;> simp [Op.writes, Op.calm] at untouched calm
    case takeNetwork =>
      rcases takeNetwork_cases executed with ⟨-, -, rfl⟩ | ⟨_, -, -, rfl⟩
      · exact found
      · cases found
    case listenerFails =>
      cases executed
      exact State.running_cancel _ found
    case expireWindow =>
      cases executed
      exact State.running_cancel _ found
    case takeInvite =>
      rcases takeInvite_cases executed with ⟨-, rfl, -⟩ | ⟨slot, -, -, -, rfl⟩
      · exact found
      · exact State.running_cancel (.window slot.generation) found
    case stopInvite =>
      rcases stopInvite_cases executed with ⟨-, -, rfl⟩ | ⟨slot, -, -, rfl⟩
      · exact found
      · exact State.running_cancel (.window slot.generation) found
    case takeJoin =>
      rcases takeJoin_cases executed with ⟨-, -, rfl⟩ | ⟨slot, -, -, rfl⟩
      · exact found
      · exact State.running_cancel (.join slot.generation) found

theorem calm_handle {op : Op} (calm : op.calm = true) {outcome : Outcome} {before after : State} {reply : Reply op}
    (executed : (machine setup).exec task op outcome before = some (reply, after)) :
    after.trustedPeers = before.trustedPeers := by
  by_cases untouched : .peers ∉ op.writes
  · exact (exec_same executed .peers untouched).1
  · cases op <;> simp [Op.writes, Op.calm] at untouched calm <;> cases executed <;> rfl

theorem calm_contexts {op : Op} (calm : op.calm = true) {outcome : Outcome} {before after : State} {reply : Reply op}
    (executed : (machine setup).exec task op outcome before = some (reply, after)) :
    before.nextNetwork ≤ after.nextNetwork ∧
      ∀ number < before.nextNetwork, after.contextKeys number = before.contextKeys number := by
  by_cases untouched : .contexts ∉ op.writes
  · obtain ⟨contexts, next⟩ := exec_same executed .contexts untouched
    exact ⟨next.ge, fun number _ => by rw [contexts]⟩
  · cases op <;> simp [Op.writes, Op.calm] at untouched calm
    cases executed
    exact ⟨Nat.le_succ _, fun number small => by simp [Function.update_of_ne (Nat.ne_of_lt small)]⟩

theorem calm_drift {op : Op} (calm : op.calm = true) {outcome : Outcome} {before after : State} {reply : Reply op}
    (executed : (machine setup).exec task op outcome before = some (reply, after)) : Drift before after where
  keys := exec_same executed .keys (calm_writes calm).1
  handle := calm_handle calm executed
  contexts := (calm_contexts calm executed).2
  running _ found := .inl (calm_running calm executed found)

theorem calm_made {op : Op} (calm : op.calm = true) {outcome : Outcome} {before after : State} {reply : Reply op}
    (executed : (machine setup).exec task op outcome before = some (reply, after)) {network : Network}
    (found : after.network = some network) : before.network = some network := by
  by_cases untouched : .network ∉ op.writes
  · exact (exec_same executed .network untouched).symm.trans found
  · cases op <;> simp [Op.writes, Op.calm] at untouched calm
    rcases takeNetwork_cases executed with ⟨-, -, rfl⟩ | ⟨_, -, -, rfl⟩
    · exact found
    · cases found

theorem networks_calm {op : Op} (calm : op.calm = true) :
    (networking setup).Neutral (networkWorkload setup).regime task op := by
  intro before _ inv _ outcome reply after executed
  have drift := calm_drift calm executed
  have numbers := (calm_contexts calm executed).1
  have turn : after.turn = before.turn := exec_same executed .turn (calm_writes calm).2
  refine ⟨⟨?_, ?_⟩, trivial, fun other => ⟨numbers, by rw [turn], fun _ => drift⟩⟩
  · intro free network found
    exact (inv.follows (turn ▸ free) network (calm_running calm executed found)).drift drift numbers
  · intro network found
    exact (inv.made network (calm_made calm executed found)).trans_le numbers

/-! ## The holder's view -/

/-- From this view, the holder's program ends in a view that `post` allows. -/
abbrev Watches (setup : Setup) (task : Nat) (view : View) (program : Task A) (post : A → View → Prop) : Prop :=
  Networks setup task (Sees task view) program fun value state ghost =>
    ∃ next, post value next ∧ Sees task next state ghost

theorem watches_done {view : View} {value : A} {post : A → View → Prop} (holds : post value view) :
    Watches setup task view (.done value) post :=
  Discipline.Triple.done fun _ _ sees => ⟨view, holds, sees⟩

theorem watches_then {view : View} {program : Task A} {k : A → Task B} {mid : A → View → Prop}
    {post : B → State → Unit → Prop} (first : Watches setup task view program mid)
    (rest : ∀ value next, mid value next → Networks setup task (Sees task next) (k value) post) :
    Networks setup task (Sees task view) (program >>= k) post := by
  refine first.bind fun value state ghost held => ?_
  obtain ⟨next, holds, sees⟩ := held
  exact rest value next holds state ghost sees

theorem watches_mono {view : View} {program : Task A} {post weak : A → View → Prop}
    (watches : Watches setup task view program post) (weaker : ∀ value next, post value next → weak value next) :
    Watches setup task view program weak :=
  watches.consequence (fun _ _ sees => sees) fun value _ _ held => held.imp fun next => And.imp_left (weaker value next)

theorem Sees.grow {view : View} {state : State} {ghost : Unit} (sees : Sees task view state ghost)
    {stale : Network → Prop} (more : ∀ network, view.stale network → stale network) :
    Sees task { view with stale } state ghost :=
  { sees with running := fun network found => (sees.running network found).imp_right (more network) }

theorem watches_grow {view : View} {value : A} {stale : Network → Prop}
    (more : ∀ network, view.stale network → stale network) :
    Watches setup task view (.done value) fun _ next => next = { view with stale } :=
  Discipline.Triple.done fun _ _ sees => ⟨_, rfl, sees.grow more⟩

theorem watches_regrow {view mid : View} {program : Task A} {stale : Network → Prop}
    (watches : Watches setup task view program fun _ next => next = mid)
    (more : ∀ network, mid.stale network → stale network) :
    Watches setup task view program fun _ next => next = { mid with stale } := by
  refine watches.consequence (fun _ _ sees => sees) ?_
  rintro _ _ _ ⟨_, rfl, sees⟩
  exact ⟨_, rfl, sees.grow more⟩

theorem watches_call {view : View} {op : Op} {post : Reply op → View → Prop} (inside : .turn ∉ op.writes)
    (effect : ∀ before after outcome reply, (machine setup).exec task op outcome before = some (reply, after) →
      NetworkInv before → Sees task view before () →
        (∃ next, post reply next ∧ Sees task next after ()) ∧ before.nextNetwork ≤ after.nextNetwork ∧
          ∀ network, after.network = some network → network.number < after.nextNetwork) :
    Watches setup task view (await op) post := by
  refine Discipline.Triple.call (stable_sees _) ?_
  rintro before _ sees inv _ outcome reply after executed
  have turn : after.turn = before.turn := exec_same executed .turn inside
  obtain ⟨later, numbers, made⟩ := effect before after outcome reply executed inv sees
  refine ⟨(), ⟨?_, made⟩, trivial, ?_, later⟩
  · intro free
    rw [turn, sees.turn] at free
    cases free
  · intro other different
    have foreign : before.turn ≠ some other := by
      rw [sees.turn]
      exact fun own => different (Option.some.inj own).symm
    exact ⟨numbers, by rw [turn], fun own => absurd own foreign⟩

theorem watches_calm {view : View} {op : Op} (calm : op.calm = true) :
    Watches setup task view (await op) fun _ next => next = view :=
  ((networks_calm calm).triple (stable_sees view)).consequence (fun _ _ sees => sees)
    fun _ _ _ sees => ⟨view, rfl, sees⟩

theorem calm_of_within {fields : List Field} {op : Op} (within : op.Within fields)
    (apart : .keys ∉ fields ∧ .turn ∉ fields ∧ .peers ∉ fields ∧ .network ∉ fields ∧ .contexts ∉ fields) :
    op.calm = true := by
  obtain ⟨keys, turn, peers, network, contexts⟩ := apart
  cases op <;> first | rfl | (simp [Op.Within, Op.writes] at within; simp_all)

theorem watches_within {fields : List Field} {view : View} {program : Task A} (within : program.All (Op.Within fields))
    (apart : .keys ∉ fields ∧ .turn ∉ fields ∧ .peers ∉ fields ∧ .network ∉ fields ∧ .contexts ∉ fields) :
    Watches setup task view program fun _ next => next = view :=
  (Discipline.Triple.all within (stable_sees view) fun _ footprint =>
    (networks_calm (calm_of_within footprint apart)).performs (stable_sees view)).consequence (fun _ _ sees => sees)
    fun _ _ _ sees => ⟨view, rfl, sees⟩

theorem watches_readKeys {view : View} :
    Watches setup task view (await .readKeys) fun reply next => reply = view.keys ∧ next = view := by
  refine watches_call (by simp [Op.writes]) fun before after outcome reply executed inv sees => ?_
  cases executed
  exact ⟨⟨view, ⟨sees.keys, rfl⟩, sees⟩, Nat.le_refl _, inv.made⟩

theorem watches_runningNetwork {view : View} :
    Watches setup task view (await .runningNetwork) fun reply next =>
      next = { view with stale := fun network => view.stale network ∧ reply = some network } := by
  refine watches_call (by simp [Op.writes]) fun before after outcome reply executed inv sees => ?_
  cases executed
  refine ⟨⟨_, rfl, { sees with running := fun network found => ?_ }⟩, Nat.le_refl _, inv.made⟩
  exact (sees.running network found).imp_right fun stale => ⟨stale, found⟩

/-- Changed keys leave networks that fit, or ones that are stale from now on. -/
theorem watches_writeKeys {view : View} {change : KeySlots → KeySlots} {stale : Network → Prop}
    (more : ∀ network, view.stale network → stale network)
    (fitted : view.keys.wanted.isSome → view.keys.context.isSome →
      ((change view.keys).wanted.isSome ∧ (change view.keys).context = view.keys.context) ∨
        ∀ network, network.trustedPeers = view.handle → stale network) :
    Watches setup task view (await (.writeKeys change)) fun _ next =>
      next = { keys := change view.keys, handle := view.handle, stale } := by
  refine watches_call (by simp [Op.writes]) fun before after outcome reply executed inv sees => ?_
  cases executed
  refine ⟨⟨_, rfl, sees.turn, by rw [← sees.keys], sees.handle, fun network found => ?_⟩, Nat.le_refl _, inv.made⟩
  rcases sees.running network found with fits | old
  · obtain ⟨made, wanted, handle, keys, context, current⟩ := fits
    rw [sees.keys] at wanted context
    rcases fitted wanted (by simp [context]) with ⟨wanted', context'⟩ | all
    · refine .inl ⟨made, ?_, handle, keys, ?_, current⟩
      · simpa only [sees.keys] using wanted'
      · simpa only [sees.keys, context'] using context
    · exact .inr (all network (handle.trans sees.handle))
  · exact .inr (more network old)

theorem watches_wipeKeys {view : View} :
    Watches setup task view (await .wipeKeys) fun _ next =>
      next = { keys := {}, handle := view.handle, stale := fun _ => True } := by
  refine watches_call (by simp [Op.writes]) fun before after outcome reply executed inv sees => ?_
  cases executed
  exact ⟨⟨_, rfl, sees.turn, rfl, sees.handle, fun _ _ => .inr trivial⟩, Nat.le_refl _, inv.made⟩

theorem watches_newPeers {view : View} :
    Watches setup task view (await .newPeers) fun _ next => next.keys = view.keys := by
  refine watches_call (by simp [Op.writes]) fun before after outcome reply executed inv sees => ?_
  cases executed
  exact ⟨⟨⟨view.keys, before.nextList, fun _ => True⟩, rfl, sees.turn, sees.keys, rfl, fun _ _ => .inr trivial⟩,
    Nat.le_refl _, inv.made⟩

theorem watches_saltFor {view : View} (kind : KeyKind) (fresh : Option Salt) :
    Watches setup task view (await (.saltFor kind fresh)) fun _ next => ∃ keys, next = { view with keys } := by
  refine watches_call (by simp [Op.writes]) fun before after outcome reply executed inv sees => ?_
  simp only [machine, exec] at executed
  split at executed
  · cases executed
    exact ⟨⟨view, ⟨view.keys, rfl⟩, sees⟩, Nat.le_refl _, inv.made⟩
  · next missing =>
    split at executed
    · next salt =>
      cases executed
      refine ⟨⟨_, ⟨before.keys.setSalt salt kind, rfl⟩, sees.turn, rfl, sees.handle, fun network found => ?_⟩,
        Nat.le_refl _, inv.made⟩
      refine (sees.running network found).imp_left fun fits => ?_
      obtain ⟨made, wanted, handle, keys, context, current⟩ := fits
      cases kind with
      | auth => simp [KeySlots.context, show before.keys.aSalt = none from missing] at context
      | data => exact ⟨made, wanted, handle, keys, context, current⟩
    · cases executed
      exact ⟨⟨view, ⟨view.keys, rfl⟩, sees⟩, Nat.le_refl _, inv.made⟩

theorem watches_setContextKeys {view : View} {number : Nat} {keys : Keys} (context : view.keys.context = some keys)
    (only : ∀ network, view.stale network →
      network.number = number ∧ view.keys.wanted.isSome ∧ network.trustedPeers = view.handle) :
    Watches setup task view (await (.setContextKeys number keys)) fun _ next =>
      next = { view with stale := fun _ => False } := by
  refine watches_call (by simp [Op.writes]) fun before after outcome reply executed inv sees => ?_
  cases executed
  refine ⟨⟨_, rfl, sees.turn, sees.keys, sees.handle, fun network found => .inl ?_⟩, Nat.le_refl _, inv.made⟩
  have running : before.runningNetwork = some network := found
  have made := inv.made network (Option.filter_eq_some_iff.mp running).1
  rcases sees.running network running with fits | stale
  · refine ⟨made, fits.wanted, fits.handle, ?_⟩
    obtain ⟨current, held, same⟩ := fits.context
    refine ⟨current, held, ?_⟩
    by_cases own : network.number = number
    · rw [sees.keys, context] at held
      simp [own, Option.some.inj held]
    · simpa [Function.update_of_ne own] using same
  · obtain ⟨rfl, wanted, handle⟩ := only network stale
    refine ⟨made, by rw [sees.keys]; exact wanted, handle.trans sees.handle.symm, keys, ?_, by simp⟩
    rw [sees.keys]
    exact context

theorem watches_takeNetwork {view : View} :
    Watches setup task view (await .takeNetwork) fun _ next => next = { view with stale := fun _ => False } := by
  refine watches_call (by simp [Op.writes]) fun before after outcome reply executed inv sees => ?_
  rcases takeNetwork_cases executed with ⟨missing, -, rfl⟩ | ⟨network, -, -, rfl⟩
  · refine ⟨⟨_, rfl, { sees with running := fun network found => ?_ }⟩, Nat.le_refl _, inv.made⟩
    simp [State.runningNetwork, missing] at found
  · refine ⟨⟨_, rfl, sees.turn, sees.keys, sees.handle, ?_⟩, Nat.le_refl _, ?_⟩
    · rintro _ ⟨⟩
    · rintro _ ⟨⟩

def Made (task : Nat) (view : View) (keys : Keys) (network : Network) (state : State) (ghost : Unit) : Prop :=
  Sees task view state ghost ∧ network.trustedPeers = view.handle ∧ network.number < state.nextNetwork ∧
    state.contextKeys network.number = some keys

theorem stable_holderMade (view : View) (keys : Keys) (network : Network) :
    (networking setup).Stable task (Made task view keys network) := by
  rintro before ghost after ghost' kept ⟨sees, handle, made, context⟩
  refine ⟨stable_sees view _ _ _ _ kept sees, handle, made.trans_le kept.1, ?_⟩
  rw [(kept.2.2 sees.turn).contexts _ made]
  exact context

theorem watches_newContext {view : View} (keys : Keys) (identity : Identity) :
    Networks setup task (Sees task view) (await (.newContext keys identity)) (Made task view keys) := by
  refine Discipline.Triple.call (stable_sees view) ?_
  rintro before _ sees inv allowed outcome reply after executed
  obtain ⟨inv', _, keeps⟩ := networks_calm (by rfl) before () inv allowed outcome reply after executed
  refine ⟨(), inv', trivial, fun other _ => keeps other, stable_sees view _ _ _ _ (keeps task) sees, ?_⟩
  cases executed
  exact ⟨sees.handle, Nat.lt_succ_self _, by simp⟩

theorem watches_publishNetwork {view : View} {keys : Keys} (network : Network) (wanted : view.keys.wanted.isSome)
    (context : view.keys.context = some keys) :
    Networks setup task (Made task view keys network) (await (.publishNetwork network)) fun _ => Sees task view := by
  refine Discipline.Triple.call (stable_holderMade view keys network) ?_
  rintro before _ ⟨sees, handle, made, current⟩ inv _ outcome reply after executed
  have foreign : ∀ other, other ≠ task → before.turn ≠ some other := by
    intro other different own
    rw [sees.turn] at own
    exact different (Option.some.inj own).symm
  have taken : before.turn ≠ none := by simp [sees.turn]
  rcases publishNetwork_cases executed with ⟨-, rfl⟩ | ⟨-, rfl⟩
  · refine ⟨(), ⟨fun free => absurd free taken, inv.made⟩, trivial, ?_, { sees with running := ?_ }⟩
    · exact fun other different => ⟨Nat.le_refl _, Iff.rfl, fun own => absurd own (foreign other different)⟩
    · intro other found
      refine (sees.running other (State.running_cancel _ found)).imp_left fun fits => ?_
      exact { fits with }
  · refine ⟨(), ⟨fun free => absurd free taken, ?_⟩, trivial, ?_, sees.turn, sees.keys, sees.handle, ?_⟩
    · rintro _ ⟨⟩
      exact made
    · exact fun other different => ⟨Nat.le_refl _, Iff.rfl, fun own => absurd own (foreign other different)⟩
    · intro other found
      obtain ⟨⟨⟩, -⟩ := Option.filter_eq_some_iff.mp found
      refine .inl ⟨made, ?_, handle.trans sees.handle.symm, keys, ?_, current⟩
      · simpa only [sees.keys] using wanted
      · simpa only [sees.keys] using context

/-! ## The functions, with the slot -/

theorem watches_stopNetwork {view : View} :
    Watches setup task view stopNetwork fun _ next => next = { view with stale := fun _ => False } := by
  refine watches_then watches_takeNetwork ?_
  rintro found _ rfl
  split
  · refine watches_then (watches_calm rfl) ?_
    rintro taken _ rfl
    cases taken with
    | none => exact watches_calm rfl
    | some slot =>
        refine watches_then (watches_calm rfl) ?_
        rintro _ _ rfl
        exact watches_calm rfl
  · exact watches_done rfl

theorem watches_startNetwork {view : View} (identity : Identity) (wanted : view.keys.wanted.isSome) :
    Watches setup task view (startNetwork identity) fun _ next => next = view := by
  refine watches_then watches_readKeys ?_
  rintro _ view ⟨rfl, rfl⟩
  split
  · exact watches_done rfl
  · next keys context =>
    refine watches_then (watches_calm rfl) ?_
    rintro bound view rfl
    split
    · refine (watches_newContext keys identity).bind fun network => ?_
      exact (watches_publishNetwork network wanted context).consequence (fun _ _ made => made)
        fun _ _ _ sees => ⟨view, rfl, sees⟩
    · exact watches_done rfl

/-- Afterwards every running network fits, if networks were stale only where none is wanted. -/
theorem watches_applyNetwork {view : View} (unwanted : ∀ network, view.stale network → view.keys.wanted = none) :
    Watches setup task view applyNetwork fun _ next => next = { view with stale := fun _ => False } := by
  refine watches_then watches_readKeys ?_
  rintro _ view ⟨rfl, rfl⟩
  refine watches_then watches_runningNetwork ?_
  rintro running _ rfl
  cases wanted : view.keys.wanted with
  | none =>
      cases running with
      | none => exact watches_grow fun _ stale => nomatch stale.2
      | some network => exact watches_stopNetwork
  | some identity =>
      cases running with
      | none =>
          have on : view.keys.wanted.isSome := by simp [wanted]
          have started : Watches setup task
              ⟨view.keys, view.handle, fun network => view.stale network ∧ none = some network⟩
              (startNetwork identity) _ := watches_startNetwork identity on
          have none_stale : ∀ network, view.stale network ∧ none = some network → False := fun _ stale => nomatch stale.2
          have settled := watches_regrow started none_stale
          exact settled
      | some network =>
          refine watches_grow fun other stale => ?_
          rw [unwanted other stale.1] at wanted
          cases wanted

/-- Afterwards every running network has the keys of the state. -/
theorem watches_updateNetworkKeys {view : View}
    (stale : ∀ network, view.stale network →
      view.keys.wanted.isSome ∧ view.keys.context.isSome ∧ network.trustedPeers = view.handle) :
    Watches setup task view updateNetworkKeys fun _ next => next = { view with stale := fun _ => False } := by
  refine watches_then watches_readKeys ?_
  rintro _ view ⟨rfl, rfl⟩
  cases context : view.keys.context with
  | none =>
      refine watches_grow fun network old => ?_
      simpa [context] using (stale network old).2.1
  | some keys =>
      refine watches_then watches_runningNetwork ?_
      rintro running _ rfl
      refine watches_then (watches_calm rfl) ?_
      rintro _ _ rfl
      cases running with
      | none => exact watches_grow fun _ stale => nomatch stale.2
      | some network =>
          refine watches_setContextKeys context ?_
          rintro other ⟨old, ⟨⟩⟩
          obtain ⟨wanted, -, handle⟩ := stale network old
          exact ⟨rfl, wanted, handle⟩

def View.Fresh (view : View) : Prop := ∀ network, ¬ view.stale network

theorem watches_reseal {view : View} (config : Option Config) :
    Watches setup task view (reseal setup config) fun _ next => next = view :=
  watches_within (reseal_within config) (by simp)

theorem watches_setConfig {view : View} (fresh : view.Fresh) (config : Config) :
    Watches setup task view (await (.writeKeys (KeySlots.setConfig config))) fun _ next =>
      ∀ network, next.stale network → next.keys.wanted = none := by
  have switched : Watches setup task view (await (.writeKeys (KeySlots.setConfig config))) fun _ next =>
      next = ⟨view.keys.setConfig config, view.handle, fun _ => (view.keys.setConfig config).wanted = none⟩ := by
    refine watches_writeKeys (fun network stale => absurd stale (fresh network)) fun _ _ => ?_
    cases wanted : (view.keys.setConfig config).wanted with
    | none => exact .inr fun _ _ => rfl
    | some identity => exact .inl ⟨rfl, rfl⟩
  refine watches_mono switched ?_
  rintro _ _ rfl network unwanted
  exact unwanted

theorem watches_saveConfig {view : View} (fresh : view.Fresh) (config : Config) :
    Watches setup task view (saveConfig setup config) fun _ next =>
      ∀ network, next.stale network → next.keys.wanted = none := by
  refine watches_then (watches_reseal _) ?_
  rintro result view rfl
  cases result with
  | error e => exact watches_done fun network stale => absurd stale (fresh network)
  | ok _ =>
      refine watches_then (watches_setConfig fresh config) ?_
      exact fun _ _ unwanted => watches_done unwanted

theorem watches_savedConfig {view : View} : Watches setup task view savedConfig fun _ next => next = view := by
  refine watches_then watches_readKeys ?_
  rintro _ view ⟨rfl, rfl⟩
  split
  · exact watches_done rfl
  · split <;> exact watches_done rfl

theorem watches_keepKeys {view : View} {change : KeySlots → KeySlots}
    (wanted : (change view.keys).wanted = view.keys.wanted) (context : (change view.keys).context = view.keys.context) :
    Watches setup task view (await (.writeKeys change)) fun _ next => next = { view with keys := change view.keys } :=
  watches_writeKeys (fun _ stale => stale) fun some _ => .inl ⟨wanted ▸ some, context⟩

theorem watches_turnOn {view : View} {change : KeySlots → KeySlots} (fresh : view.Fresh)
    (unwanted : view.keys.wanted = none) :
    Watches setup task view (await (.writeKeys change)) fun _ next =>
      next = ⟨change view.keys, view.handle, fun _ => False⟩ :=
  watches_writeKeys (fun network stale => fresh network stale) fun some _ => by simp [unwanted] at some

theorem wanted_of_closed {keys : KeySlots} (closed : keys.vault = none) : keys.wanted = none := by
  simp [KeySlots.wanted, closed]

theorem wanted_of_locked {keys : KeySlots} (locked : keys.locked = true) : keys.wanted = none := by
  unfold KeySlots.wanted
  split <;> simp [locked]

theorem watches_createVault {view : View} (fresh : view.Fresh) (closed : view.keys.vault = none)
    (identity : Option Identity) (config : Config) :
    Watches setup task view (createVault setup identity config) fun _ next => next.Fresh := by
  unfold createVault
  split
  · exact watches_done fresh
  refine watches_then watches_readKeys ?_
  rintro _ view ⟨rfl, rfl⟩
  split
  · refine watches_then (watches_within encodedPeers_within (by simp)) ?_
    rintro encoded view rfl
    cases encoded with
    | error e => exact watches_done fresh
    | ok peers =>
        refine watches_then (watches_within encodedAddresses_within (by simp)) ?_
        rintro addresses view rfl
        refine watches_then (watches_calm rfl) ?_
        rintro storageSalt view rfl
        refine watches_then (watches_calm rfl) ?_
        rintro dek view rfl
        refine watches_then (watches_calm rfl) ?_
        rintro wrapNonce view rfl
        refine watches_then (watches_calm rfl) ?_
        rintro seed view rfl
        refine watches_then (watches_calm rfl) ?_
        rintro nonce view rfl
        split
        · exact watches_done fresh
        · refine watches_then (watches_calm rfl) ?_
          rintro salts view rfl
          split
          · refine watches_then (watches_calm rfl) ?_
            rintro file view rfl
            split
            · refine watches_mono (watches_turnOn fresh (wanted_of_closed closed)) ?_
              rintro _ _ rfl
              exact fun _ => id
            · exact watches_done fresh
          · exact watches_done fresh
  · exact watches_done fresh

theorem wanted_setWrapped (keys : KeySlots) (wrapped : WrappedDek) : (keys.setWrapped wrapped).wanted = keys.wanted := by
  unfold KeySlots.wanted KeySlots.setWrapped
  cases keys.vault <;> rfl

theorem watches_saveChangedKey {view : View} (fresh : view.Fresh) (kind : KeyKind) (key : Block 32) :
    Watches setup task view (saveChangedKey setup kind key) fun _ next => next.Fresh := by
  unfold saveChangedKey
  split
  · exact watches_done fresh
  refine watches_then (watches_within encodedPeers_within (by simp)) ?_
  rintro encoded view rfl
  cases encoded with
  | error e => exact watches_done fresh
  | ok peers =>
      refine watches_then (watches_within encodedAddresses_within (by simp)) ?_
      rintro addresses view rfl
      refine watches_then (watches_calm rfl) ?_
      rintro wrapNonce view rfl
      refine watches_then (watches_calm rfl) ?_
      rintro nonce view rfl
      refine watches_then watches_readKeys ?_
      rintro _ view ⟨rfl, rfl⟩
      split
      · split
        · exact watches_done fresh
        next newKey wrapped _ =>
        split
        · exact watches_done fresh
        refine watches_then (watches_calm rfl) ?_
        rintro written view rfl
        split
        · exact watches_done fresh
        cases kind with
        | auth => exact watches_done fresh
        | data =>
            refine watches_then (watches_keepKeys (wanted_setWrapped _ wrapped) rfl) ?_
            rintro _ _ rfl
            split
            · refine watches_then (watches_calm rfl) ?_
              rintro kept _ rfl
              split
              · exact watches_done fresh
              · refine watches_then (watches_calm rfl) ?_
                rintro _ _ rfl
                refine watches_then (watches_keepKeys rfl rfl) ?_
                rintro _ _ rfl
                exact watches_done fresh
            · exact watches_done fresh
      · exact watches_done fresh

theorem wanted_setKey {keys : KeySlots} (key : Block 32) (kind : KeyKind) (wanted : keys.wanted.isSome)
    (context : keys.context.isSome) :
    (keys.setKey key kind).wanted.isSome ∧ (keys.setKey key kind).context.isSome := by
  obtain ⟨aKey, dKey, aSalt, dSalt, vault, locked, _, _, _⟩ := keys
  cases aKey <;> cases dKey <;> cases aSalt <;> simp [KeySlots.context] at context
  cases vault with
  | none => simp [KeySlots.wanted] at wanted
  | some vault => cases kind <;> exact ⟨wanted, rfl⟩

theorem watches_setKey {view : View} (fresh : view.Fresh) (key : Block 32) (kind : KeyKind) {rest : Task A}
    {post : A → View → Prop} (after : ∀ next : View, next.Fresh → Watches setup task next rest post) :
    Watches setup task view (do await (.writeKeys fun keys => keys.setKey key kind); updateNetworkKeys; rest)
      post := by
  have set : Watches setup task view (await (.writeKeys fun keys => keys.setKey key kind)) fun _ next =>
      next = ⟨view.keys.setKey key kind, view.handle, fun network =>
        (view.keys.setKey key kind).wanted.isSome ∧ (view.keys.setKey key kind).context.isSome ∧
          network.trustedPeers = view.handle⟩ := by
    refine watches_writeKeys (fun network stale => absurd stale (fresh network)) fun wanted context => .inr ?_
    obtain ⟨wanted', context'⟩ := wanted_setKey key kind wanted context
    exact fun network handle => ⟨wanted', context', handle⟩
  refine watches_then set ?_
  rintro _ _ rfl
  refine watches_then (watches_updateNetworkKeys fun network stale => stale) ?_
  rintro _ _ rfl
  exact after _ fun _ => id

theorem watches_setPassword {view : View} (fresh : view.Fresh) (kind : KeyKind) (password : Bytes) :
    Watches setup task view (setPassword setup kind password) fun _ next => next.Fresh := by
  unfold setPassword
  split
  · exact watches_done fresh
  refine watches_then watches_readKeys ?_
  rintro _ view ⟨rfl, rfl⟩
  split
  · exact watches_done fresh
  refine watches_then (watches_calm rfl) ?_
  rintro drawn view rfl
  refine watches_then (watches_saltFor kind drawn) ?_
  rintro salt _ ⟨keys, rfl⟩
  have fresh : View.Fresh { view with keys } := fresh
  cases salt with
  | none => exact watches_done fresh
  | some salt =>
      refine watches_then (watches_within (derive_within password salt) (by simp)) ?_
      rintro derived _ rfl
      cases derived with
      | error e => exact watches_done fresh
      | ok key =>
          refine watches_then watches_readKeys ?_
          rintro keys _ ⟨rfl, rfl⟩
          have changed : Watches setup task { view with keys }
              (if keys.vault.isSome then saveChangedKey setup kind key else pure (.ok ()))
              fun _ next => next.Fresh := by
            split
            · exact watches_saveChangedKey fresh kind key
            · exact watches_done fresh
          refine watches_then changed fun result next fresh => ?_
          cases result with
          | error e => exact watches_done fresh
          | ok _ =>
              refine watches_setKey fresh key kind fun next fresh => ?_
              refine watches_then watches_readKeys ?_
              rintro _ next ⟨rfl, rfl⟩
              split
              · next closed =>
                refine watches_then (watches_createVault fresh (by simpa using closed) none {}) ?_
                exact fun _ _ fresh => watches_done fresh
              · exact watches_done fresh

theorem watches_unlockWith {view : View} (fresh : view.Fresh) (locked : view.keys.locked = true) (dKey : DataKey) :
    Watches setup task view (unlockWith setup dKey) fun _ next => next.Fresh := by
  unfold unlockWith
  split
  · exact watches_done fresh
  refine watches_then (watches_calm rfl) ?_
  rintro salts view rfl
  split
  · exact watches_done fresh
  · split
    · exact watches_done fresh
    refine watches_then (watches_calm rfl) ?_
    rintro file view rfl
    split
    · exact watches_done fresh
    · exact watches_done fresh
    split
    · exact watches_done fresh
    split
    · exact watches_done fresh
    split
    · exact watches_done fresh
    split
    · exact watches_done fresh
    refine watches_then (watches_calm rfl) ?_
    rintro list view rfl
    refine watches_then (watches_calm rfl) ?_
    rintro _ view rfl
    refine watches_then (watches_calm rfl) ?_
    rintro _ view rfl
    refine watches_then (watches_turnOn fresh (wanted_of_locked locked)) ?_
    rintro _ _ rfl
    exact watches_done fun _ => id
  · exact watches_done fresh

theorem watches_unlock {view : View} (fresh : view.Fresh) (password : Bytes) :
    Watches setup task view (unlock setup password) fun _ next => next.Fresh := by
  unfold unlock
  split
  · exact watches_done fresh
  refine watches_then watches_readKeys ?_
  rintro _ view ⟨rfl, rfl⟩
  refine watches_then (watches_calm rfl) ?_
  rintro now view rfl
  split
  · exact watches_done fresh
  next locked =>
  split
  · exact watches_done fresh
  refine watches_then (watches_calm rfl) ?_
  rintro salts view rfl
  split
  · exact watches_done fresh
  · split
    · exact watches_done fresh
    next salts _ =>
    refine watches_then (watches_within (derive_within password salts.dSalt) (by simp)) ?_
    rintro derived view rfl
    cases derived with
    | error e => exact watches_done fresh
    | ok dKey =>
        refine watches_then (watches_unlockWith fresh (by simpa using locked) dKey) ?_
        intro result next fresh
        refine watches_then (watches_calm rfl) ?_
        rintro now next rfl
        have counted : Watches setup task next (await (.writeKeys (countUnlock result now))) fun _ later =>
            later = { next with keys := countUnlock result now next.keys } := by
          refine watches_keepKeys ?_ ?_ <;> unfold countUnlock <;> split <;> rfl
        refine watches_then counted ?_
        rintro _ _ rfl
        exact watches_done fresh
  · exact watches_done fresh

theorem watches_setAutoLogin {view : View} (fresh : view.Fresh) (on : Bool) :
    Watches setup task view (setAutoLogin setup on) fun _ next => next.Fresh := by
  unfold setAutoLogin
  split
  · exact watches_done fresh
  refine watches_then watches_readKeys ?_
  rintro _ view ⟨rfl, rfl⟩
  split
  · exact watches_done fresh
  split
  · exact watches_done fresh
  split
  · exact watches_done fresh
  next dKey _ =>
  have kept : Watches setup task view
      (if on then await (.keychainSet .dataKey dKey.toList) else await (.keychainDelete .dataKey))
      fun _ next => next = view := by
    split <;> exact watches_calm rfl
  refine watches_then kept ?_
  rintro reply view rfl
  split
  · exact watches_done fresh
  · refine watches_then (watches_keepKeys rfl rfl) ?_
    rintro _ _ rfl
    exact watches_done fresh

theorem watches_forgetPeer {view : View} (fresh : view.Fresh) (fingerprint : Block fingerprintLen) :
    Watches setup task view (forgetPeer setup fingerprint) fun _ next => next.Fresh := by
  refine watches_then watches_readKeys ?_
  rintro _ view ⟨rfl, rfl⟩
  split
  · exact watches_done fresh
  refine watches_then (watches_calm rfl) ?_
  rintro list view rfl
  refine watches_then (watches_calm rfl) ?_
  rintro removed view rfl
  split
  · exact watches_done fresh
  refine watches_then watches_readKeys ?_
  rintro _ view ⟨rfl, rfl⟩
  have resealed : Watches setup task view (if view.keys.vault.isSome then reseal setup none else pure (.ok ()))
      fun _ next => next = view := by
    split
    · exact watches_reseal none
    · exact watches_done rfl
  refine watches_then resealed ?_
  rintro result view rfl
  cases result with
  | error e =>
      refine watches_then (watches_calm rfl) ?_
      rintro _ view rfl
      exact watches_done fresh
  | ok _ =>
      refine watches_then (watches_within (removePeers_within removed) (by simp)) ?_
      rintro _ view rfl
      exact watches_done fresh

/-- Stale networks are left only where none is wanted. -/
def View.Followable (view : View) : Prop := ∀ network, view.stale network → view.keys.wanted = none

theorem View.Fresh.followable {view : View} (fresh : view.Fresh) : view.Followable :=
  fun network stale => absurd stale (fresh network)

theorem watches_resetDevice {view : View} (fresh : view.Fresh) :
    Watches setup task view (resetDevice setup) fun _ next => next.Followable := by
  have deleted : ∀ view : View, Watches setup task view
      (if setup.storage then do return (← await .deleteFile).result storageError else pure (.ok ()))
      fun _ next => next = view := by
    intro view
    split
    · refine watches_then (watches_calm rfl) ?_
      rintro _ view rfl
      exact watches_done rfl
    · exact watches_done rfl
  refine watches_then (watches_calm rfl) ?_
  rintro _ view rfl
  refine watches_then (watches_within cancelJoin_within (by simp)) ?_
  rintro _ view rfl
  refine watches_then watches_stopNetwork ?_
  rintro _ _ rfl
  refine watches_then (deleted _) ?_
  rintro result _ rfl
  cases result with
  | error e => exact watches_done (View.Fresh.followable fun _ => id)
  | ok _ =>
      refine watches_then watches_wipeKeys ?_
      rintro _ _ rfl
      refine watches_then watches_newPeers fun _ next empty => ?_
      have followable : next.Followable := fun _ _ => empty ▸ rfl
      refine watches_then (watches_calm rfl) ?_
      rintro _ next rfl
      refine watches_then (watches_calm rfl) ?_
      rintro _ next rfl
      split
      · refine watches_then (watches_calm rfl) ?_
        rintro salts next rfl
        split
        · refine watches_then (watches_calm rfl) ?_
          rintro dataKey next rfl
          split <;> exact watches_done followable
        · exact watches_done followable
      · exact watches_done followable

theorem watches_setSync {view : View} (fresh : view.Fresh) (on : Bool) :
    Watches setup task view (setSync setup on) fun _ next => next.Followable := by
  refine watches_then watches_savedConfig ?_
  rintro saved view rfl
  cases saved with
  | error e => exact watches_done fresh.followable
  | ok saved => exact watches_saveConfig fresh _

theorem watches_setClipboard {view : View} (fresh : view.Fresh) (on : Bool) :
    Watches setup task view (setClipboard setup on) fun _ next => next.Followable := by
  unfold setClipboard
  split
  · exact watches_done fresh.followable
  · refine watches_then watches_savedConfig ?_
    rintro saved view rfl
    cases saved with
    | error e => exact watches_done fresh.followable
    | ok saved => exact watches_saveConfig fresh _

theorem watches_performRequest {view : View} (fresh : view.Fresh) (request : Request) :
    Watches setup task view (performRequest setup request) fun _ next => next.Followable := by
  have follows : ∀ {A : Type} {program : Task A}, Watches setup task view program (fun _ next => next.Fresh) →
      Watches setup task view program fun _ next => next.Followable :=
    fun watches => watches_mono watches fun _ _ fresh => fresh.followable
  cases request with
  | setAuthPassword password => exact follows (watches_setPassword fresh .auth password)
  | setDataPassword password => exact follows (watches_setPassword fresh .data password)
  | unlock password => exact follows (watches_unlock fresh password)
  | setAutoLogin on => exact follows (watches_setAutoLogin fresh on)
  | setSync on => exact watches_setSync fresh on
  | setClipboard on => exact watches_setClipboard fresh on
  | forgetPeer fingerprint => exact follows (watches_forgetPeer fresh fingerprint)
  | resetDevice => exact watches_resetDevice fresh

/-! ## Without the slot -/

abbrev Without (task : Nat) (state : State) (_ : Unit) : Prop := state.turn ≠ some task

theorem networks_acquire {program : Task A} {post : A → State → Unit → Prop}
    (watches : ∀ view : View, view.Fresh → Networks setup task (Sees task view) program post) :
    Networks setup task (Without task) (await .acquire >>= fun _ => program) post := by
  have acquired : Networks setup task (Without task) (await .acquire) fun _ state ghost =>
      ∃ view : View, view.Fresh ∧ Sees task view state ghost := by
    refine Discipline.Triple.call stable_without ?_
    rintro before _ _ inv _ outcome reply after executed
    obtain ⟨free, rfl⟩ := acquire_cases executed
    refine ⟨(), ⟨?_, inv.made⟩, trivial, ?_, ⟨before.keys, before.trustedPeers, fun _ => False⟩, fun _ => id, rfl, rfl,
      rfl, fun network found => .inl ?_⟩
    · rintro ⟨⟩
    · intro other different
      exact ⟨Nat.le_refl _, by simp [free, Ne.symm different], fun own => by simp [free] at own⟩
    · obtain ⟨made, wanted, handle, context⟩ := inv.follows free network found
      exact ⟨made, wanted, handle, context⟩
  refine acquired.bind fun _ state ghost held => ?_
  obtain ⟨view, fresh, sees⟩ := held
  exact watches view fresh state ghost sees

/-- The slot is given back once every running network fits. -/
theorem networks_release {view : View} (fresh : view.Fresh) :
    Networks setup task (Sees task view) (await .release) fun _ => Without task := by
  refine Discipline.Triple.call (stable_sees view) ?_
  rintro before _ sees inv _ outcome reply after executed
  obtain ⟨held, rfl⟩ := release_cases executed
  refine ⟨(), ⟨fun _ network found => ?_, inv.made⟩, trivial, ?_, by simp⟩
  · obtain ⟨made, wanted, handle, context⟩ := (sees.running network found).resolve_right (fresh network)
    exact ⟨made, wanted, handle, context⟩
  · intro other different
    have foreign : before.turn ≠ some other := by
      rw [held]
      exact fun own => different (Option.some.inj own).symm
    exact ⟨Nat.le_refl _, by simp [held, Ne.symm different], fun own => absurd own foreign⟩

theorem without_done {value : A} : Networks setup task (Without task) (.done value) fun _ => Without task :=
  Discipline.Triple.done fun _ _ outside => outside

theorem without_await {op : Op} (calm : op.calm = true) :
    Networks setup task (Without task) (await op) fun _ => Without task :=
  (networks_calm calm).triple stable_without

theorem without_then {op : Op} {k : Reply op → Task A} {post : A → State → Unit → Prop} (calm : op.calm = true)
    (rest : ∀ reply, Networks setup task (Without task) (k reply) post) :
    Networks setup task (Without task) (await op >>= k) post :=
  (without_await calm).bind rest

theorem networks_newContext (keys : Keys) (identity : Identity) :
    Networks setup task (Without task) (await (.newContext keys identity)) fun network state ghost =>
      Without task state ghost ∧ network.number < state.nextNetwork := by
  refine Discipline.Triple.call stable_without ?_
  rintro before _ outside inv allowed outcome reply after executed
  obtain ⟨inv', _, keeps⟩ := networks_calm (by rfl) before () inv allowed outcome reply after executed
  refine ⟨(), inv', trivial, fun other _ => keeps other, stable_without _ _ _ _ (keeps task) outside, ?_⟩
  cases executed
  exact Nat.lt_succ_self _

theorem networks_publishNetwork (network : Network) :
    Networks setup task (fun state ghost => Without task state ghost ∧ network.number < state.nextNetwork)
      (await (.publishNetwork network)) fun _ => Without task := by
  refine Discipline.Triple.call (stable_without.and (stable_made _)) ?_
  rintro before _ ⟨outside, made⟩ inv allowed outcome reply after executed
  rcases publishNetwork_cases executed with ⟨-, rfl⟩ | ⟨stopped, rfl⟩
  · have drift : Drift before (before.cancel (.network network.number)) :=
      ⟨rfl, rfl, fun _ _ => rfl, fun _ found => .inl (State.running_cancel _ found)⟩
    refine ⟨(), ⟨?_, inv.made⟩, trivial, fun _ _ => ⟨Nat.le_refl _, Iff.rfl, fun _ => drift⟩, outside⟩
    intro free other found
    exact (inv.follows free other (State.running_cancel _ found)).drift drift (Nat.le_refl _)
  · have wants : before.wants network = true := by
      have may : followed task (.publishNetwork network) before := allowed
      simpa [followed, outside, stopped] using may
    obtain ⟨wanted, handle, context⟩ := State.wants_iff.mp wants
    have fits : ∀ other, State.runningNetwork { before with network := some network, adding := false } = some other →
        State.Fits { before with network := some network, adding := false } other := by
      intro other found
      obtain ⟨⟨⟩, -⟩ := Option.filter_eq_some_iff.mp found
      exact ⟨made, wanted, handle, context⟩
    refine ⟨(), ⟨fun _ => fits, ?_⟩, trivial, ?_, outside⟩
    · rintro _ ⟨⟩
      exact made
    · exact fun _ _ => ⟨Nat.le_refl _, Iff.rfl, fun _ => ⟨rfl, rfl, fun _ _ => rfl, fun other found => .inr (fits other found)⟩⟩

theorem networks_startNetwork (identity : Identity) :
    Networks setup task (Without task) (startNetwork identity) fun _ => Without task := by
  refine without_then rfl fun slots => ?_
  split
  · exact without_done
  · refine without_then rfl fun bound => ?_
    split
    · exact (networks_newContext _ identity).bind fun network => networks_publishNetwork network
    · exact without_done

theorem networks_stopNetwork : Networks setup task (Without task) stopNetwork fun _ => Without task := by
  refine without_then rfl fun found => ?_
  split
  · refine without_then rfl fun taken => ?_
    cases taken with
    | none => exact without_await rfl
    | some slot => exact without_then rfl fun _ => without_await rfl
  · exact without_done

theorem networks_applyNetwork : Networks setup task (Without task) applyNetwork fun _ => Without task := by
  refine without_then rfl fun slots => without_then rfl fun running => ?_
  split
  · exact networks_startNetwork _
  · exact networks_stopNetwork
  · exact without_done

theorem networks_change (request : Request) :
    Networks setup task (Without task) (change setup request) fun _ => Without task := by
  refine networks_acquire fun view fresh => ?_
  refine watches_then (watches_performRequest fresh request) fun _ next followable => ?_
  refine watches_then (watches_applyNetwork followable) ?_
  rintro _ _ rfl
  exact networks_release fun _ => id

theorem networks_commitJoin (joined : Joined) (identity : Identity) (resets : Nat) :
    Networks setup task (Without task) (commitJoin setup joined identity resets) fun _ => Without task := by
  refine networks_acquire fun view fresh => ?_
  refine watches_then (watches_calm rfl) ?_
  rintro current view rfl
  split
  · exact (networks_release fresh).bind fun _ => without_done
  refine watches_then watches_readKeys ?_
  rintro _ view ⟨rfl, rfl⟩
  split
  · exact (networks_release fresh).bind fun _ => without_done
  next empty =>
  have closed : view.keys.vault = none := by
    simp only [KeySlots.fresh, Bool.not_eq_true', Bool.and_eq_true, Option.isNone_iff_eq_none,
      Bool.not_eq_false] at empty
    exact empty.1.1.1.1.2
  refine watches_then (watches_turnOn fresh (wanted_of_closed closed)) ?_
  rintro _ _ rfl
  refine watches_then (watches_calm rfl) ?_
  rintro _ _ rfl
  refine watches_then (watches_calm rfl) ?_
  rintro list _ rfl
  refine watches_then (watches_calm rfl) ?_
  rintro _ _ rfl
  refine watches_then (watches_createVault ?_ ?_ _ _) fun _ next fresh => ?_
  · exact fun _ => id
  · exact closed
  refine watches_then watches_readKeys ?_
  rintro _ next ⟨rfl, rfl⟩
  exact (networks_release fresh).bind fun _ => networks_applyNetwork.bind fun _ => without_done

theorem networks_covered : (networking setup).Covers (networkWorkload setup).regime := by
  refine Discipline.covers_of_jobs fun task job state ghost start => ?_
  obtain ⟨outside, -⟩ := start
  cases job with
  | change request => exact networks_change request state ghost outside
  | commitJoin joined identity resets =>
      exact ((networks_commitJoin joined identity resets).bind fun _ => without_done) state ghost outside
  | listenerFails network => exact without_await rfl state ghost outside

/-! ## Whole runs -/

def State.Offline (state : State) : Prop := state.turn = none ∧ state.network = none

/-- Networking runs with the state's keys and list, and only where the state wants it. -/
def State.Following (state : State) (network : Network) : Prop :=
  (∃ vault, state.keys.vault = some vault ∧ vault.config.sync = true) ∧ state.keys.locked = false ∧
  (∃ keys, state.contextKeys network.number = some keys ∧ state.keys.aKey = some keys.aKey ∧
    state.keys.aSalt = some keys.aSalt ∧ state.keys.dKey = some keys.dKey) ∧
  network.trustedPeers = state.trustedPeers

theorem context_eq_some {keys : KeySlots} {context : Keys} (found : keys.context = some context) :
    keys.aKey = some context.aKey ∧ keys.aSalt = some context.aSalt ∧ keys.dKey = some context.dKey := by
  simp only [KeySlots.context, Option.bind_eq_bind, Option.bind_eq_some_iff, Option.pure_def,
    Option.some.injEq] at found
  obtain ⟨_, hasA, _, hasS, _, hasD, rfl⟩ := found
  exact ⟨hasA, hasS, hasD⟩

theorem State.Fits.following {state : State} {network : Network} (fits : state.Fits network) :
    state.Following network := by
  obtain ⟨-, wanted, handle, keys, context, current⟩ := fits
  have same := context_eq_some context
  unfold KeySlots.wanted at wanted
  split at wanted
  · next vault found =>
    split at wanted
    · next on => exact ⟨⟨vault, found, on.1⟩, by simpa using on.2.1, ⟨keys, current, same⟩, handle⟩
    · cases wanted
  · cases wanted

/-- While tasks without the slot publish only networks the state wants: with
nothing in the middle, a running network follows the state. -/
theorem networking_follows {pool : Pool (machine setup)}
    (reached : Reachable (networkWorkload setup).regime State.Offline pool) (quiet : pool.Quiet) {network : Network}
    (running : pool.state.runningNetwork = some network) : pool.state.Following network := by
  obtain ⟨ghost, sound⟩ := Discipline.sound_reachable networks_covered (fun state offline =>
    ⟨(), ⟨fun _ network found => by simp [State.runningNetwork, offline.2] at found,
      fun network found => by simp [offline.2] at found⟩, fun _ => by simp [networking, offline.1]⟩) reached
  obtain ⟨inv, outside⟩ := sound.quiet quiet
  have free : pool.state.turn = none := by
    by_contra held
    obtain ⟨task, held⟩ := Option.ne_none_iff_exists'.mp held
    exact outside task held
  exact (inv.follows free network running).following

/-- A new device that joins the group of a phone, up to publishing its network. -/
def joinsPhone (W : Workload (machine plainSetup)) (jobs : NetworkJob → W.Job) : List W.Move :=
  let drawn (size : Nat) : W.Move := .resume 0 (.drawn (List.replicate size 9))
  [.start (jobs (.commitJoin ⟨.replicate 32 1, .replicate 32 3, .replicate 32 2, .replicate 32 4,
    ⟨phoneKey, .replicate mldsa87VkLen 0, phoneAddr.toString⟩, phoneAddr⟩ (.replicate identitySeedLen 8) 0)) .done] ++
  List.replicate 12 (.resume 0 .done) ++ [drawn 32, drawn 32, drawn 12, drawn identitySeedLen, drawn 12] ++
  List.replicate 10 (.resume 0 .done)

def newDevice : State := new none fun _ => none

def joinedDevice : List (networkWorkload plainSetup).Move := joinsPhone _ id ++ [.resume 0 .done]

theorem networking_follows_joined :
    ∃ pool, Reachable (networkWorkload plainSetup).regime State.Offline pool ∧ pool.Quiet ∧
      ∃ network, pool.state.runningNetwork = some network ∧ pool.state.Following network := by
  obtain ⟨pool, reached, quiet, running⟩ := Workload.reachable_of_play newDevice joinedDevice
    (fun pool => pool.Quiet ∧ pool.state.runningNetwork = some ⟨0, .replicate identitySeedLen 8, 0⟩)
    (show State.Offline newDevice from ⟨rfl, rfl⟩) (by decide +kernel)
  exact ⟨pool, reached, quiet, _, running, networking_follows reached quiet running⟩

/-- The device is reset after the join gave the slot back and before its network runs. -/
def resetWhileStarting : List (networkWorkload plainSetup).unrestricted.Move :=
  joinsPhone (networkWorkload plainSetup).unrestricted id ++ [.start (.change .resetDevice) .done] ++ List.replicate 13 (.resume 1 .done) ++
  [.resume 0 .done]

theorem network_outlives_reset :
    ¬ ∀ pool, Reachable (networkWorkload plainSetup).unrestricted.regime State.Offline pool → pool.Quiet →
      ∀ network, pool.state.runningNetwork = some network → pool.state.Following network := by
  intro always
  obtain ⟨pool, reached, quiet, running, wiped⟩ := Workload.reachable_of_play newDevice resetWhileStarting
    (fun pool => pool.Quiet ∧ pool.state.runningNetwork = some ⟨0, .replicate identitySeedLen 8, 0⟩ ∧
      pool.state.keys = {})
    (show State.Offline newDevice from ⟨rfl, rfl⟩) (by decide +kernel)
  obtain ⟨⟨vault, found, -⟩, -⟩ := always pool reached quiet _ running
  rw [wiped] at found
  cases found

end Daemon

end CesaConn
