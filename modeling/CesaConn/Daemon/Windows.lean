import CesaConn.Daemon.Frame
import CesaConn.Program.Triple

/-! Invite windows do not disturb each other.

A window is claimed by the flag `adding`, published as a slot, and closed in two
steps: the slot is taken, then its offer and the flag are cleared. The ghost
state is the window's phase, with the task that is in the middle of it. Two
steps of other functions clear the flag without looking at the phase; `apart`
is what they need to find.
-/

set_option autoImplicit false

namespace CesaConn

open Format Program

namespace Daemon

variable {setup : Setup}

inductive WindowJob where
  | addDevice
  | endInvite (generation : Option Nat)
  | windowExpires (generation : Nat)
  | stopAddDevice
  | stopNetwork
  | startNetwork (identity : Vault.Identity)
  | listenerFails (network : Nat)

def WindowJob.program : WindowJob → Task Unit
  | .addDevice => do let _ ← Daemon.addDevice
  | .endInvite generation => do let _ ← Daemon.endInvite generation
  | .windowExpires generation => Daemon.windowExpires generation
  | .stopAddDevice => Daemon.stopAddDevice
  | .stopNetwork => Daemon.stopNetwork
  | .startNetwork identity => Daemon.startNetwork identity
  | .listenerFails network => await (.listenerFails network)

/-- Only a window that was opened has a timer, only a network that was made a listener. -/
def WindowJob.ready : WindowJob → State → Bool
  | .windowExpires generation, state => generation ∈ state.windows
  | .listenerFails network, state => network < state.nextNetwork
  | _, _ => true

/-- The flag is cleared from outside only where it is not set: a network is
published with no window open or opening, and one is stopped with its window
published or none. -/
def apart : Op → State → Bool
  | .publishNetwork _, state => state.runningNetwork.isSome || !state.adding
  | .stopInvite, state => state.invite.isSome || !state.adding
  | _, _ => true

def windowWorkload (setup : Setup) : Workload (machine setup) where
  Job := WindowJob
  program := WindowJob.program
  ready := WindowJob.ready
  allows _ := apart

/-! ## Phases -/

inductive WindowPhase where
  | closed
  | claimed (task : Nat)
  | published
  | closing (task : Nat)
  deriving DecidableEq

/-- The window `generation` is over, or it is the published one. -/
def State.Held (state : State) (generation : Nat) : Prop :=
  state.cancelled (.window generation) = true ∨ state.invite.map InviteSlot.generation = some generation

structure PhaseOf (state : State) (phase : WindowPhase) : Prop where
  adding : state.adding = true ↔ phase ≠ .closed
  invite : state.invite.isSome ↔ phase = .published
  held : ∀ generation ∈ state.windows, state.Held generation

def windows (setup : Setup) : Discipline (machine setup) WindowPhase where
  inv := PhaseOf
  keep task state phase state' phase' :=
    (phase' = .claimed task ↔ phase = .claimed task) ∧ (phase' = .closing task ↔ phase = .closing task) ∧
      ∀ generation, state.Held generation → state'.Held generation
  idle task _ phase := phase ≠ .claimed task ∧ phase ≠ .closing task
  -- whoever closes a window, no window is published at that moment
  observe op state _ _ _ := ∀ slot generation, op = .closeOffer slot generation → state.invite = none
  keep_refl _ _ _ := ⟨Iff.rfl, Iff.rfl, fun _ held => held⟩
  keep_trans _ _ _ _ _ _ _ first second :=
    ⟨second.1.trans first.1, second.2.1.trans first.2.1, fun _ held => second.2.2 _ (first.2.2 _ held)⟩
  idle_keep _ _ _ _ _ kept idle := ⟨fun own => idle.1 (kept.1.mp own), fun own => idle.2 (kept.2.1.mp own)⟩

abbrev Windows (setup : Setup) (task : Nat) {A : Type} (pre : State → WindowPhase → Prop) (program : Task A)
    (post : A → State → WindowPhase → Prop) : Prop :=
  (windows setup).Triple (windowWorkload setup).regime task pre program post

abbrev Idle (task : Nat) (_ : State) (phase : WindowPhase) : Prop := phase ≠ .claimed task ∧ phase ≠ .closing task

variable {task : Nat}

theorem stable_idle : (windows setup).Stable task (Idle task) := fun _ _ _ _ kept => (windows setup).idle_keep _ _ _ _ _ kept

theorem stable_claimed : (windows setup).Stable task fun _ phase => phase = .claimed task :=
  fun _ _ _ _ kept claimed => kept.1.mpr claimed

theorem stable_closing : (windows setup).Stable task fun _ phase => phase = .closing task :=
  fun _ _ _ _ kept closing => kept.2.1.mpr closing

theorem stable_held (generation : Nat) : (windows setup).Stable task fun state _ => state.Held generation :=
  fun _ _ _ _ kept held => kept.2.2 generation held

/-! ## One step -/

@[simp] def Op.Elsewhere (op : Op) : Prop := .adding ∉ op.writes ∧ .invite ∉ op.writes ∧ .windows ∉ op.writes

theorem windows_elsewhere {op : Op} (elsewhere : op.Elsewhere) :
    (windows setup).Neutral (windowWorkload setup).regime task op := by
  intro before phase inv _ outcome reply after executed
  have adding : after.adding = before.adding := exec_same executed .adding elsewhere.1
  have invite : after.invite = before.invite := exec_same executed .invite elsewhere.2.1
  have opened : after.windows = before.windows := exec_same executed .windows elsewhere.2.2
  have held : ∀ generation, before.Held generation → after.Held generation := by
    intro generation held
    unfold State.Held at held ⊢
    rw [invite]
    exact held.imp_left (exec_cancelled executed)
  refine ⟨⟨by rw [adding]; exact inv.adding, by rw [invite]; exact inv.invite, ?_⟩, ?_,
    fun other => ⟨Iff.rfl, Iff.rfl, held⟩⟩
  · rw [opened]
    exact fun generation member => held generation (inv.held generation member)
  · rintro slot generation rfl
    exact absurd elsewhere.1 (by simp [Op.writes])

theorem State.Held.cancel {state : State} {generation : Nat} (held : state.Held generation) (token : Token) :
    (state.cancel token).Held generation := by
  refine held.imp_left fun cancelled => ?_
  by_cases same : Token.window generation = token
  · simp [State.cancel, same]
  · simpa [State.cancel, same] using cancelled

theorem windows_publishNetwork (network : Network) :
    (windows setup).Neutral (windowWorkload setup).regime task (.publishNetwork network) := by
  intro before phase inv allowed outcome reply after executed
  have clear : apart (.publishNetwork network) before := allowed
  rcases publishNetwork_cases executed with ⟨running, rfl⟩ | ⟨stopped, rfl⟩
  · refine ⟨⟨inv.adding, inv.invite, fun generation member => (inv.held generation member).cancel _⟩, ?_,
      fun other => ⟨Iff.rfl, Iff.rfl, fun _ held => held.cancel _⟩⟩
    rintro slot generation ⟨⟩
  · -- the flag it clears is not set
    have unset : before.adding = false := by simpa [apart, stopped] using clear
    refine ⟨⟨?_, inv.invite, inv.held⟩, ?_, fun other => ⟨Iff.rfl, Iff.rfl, fun _ held => held⟩⟩
    · rw [← unset]
      exact inv.adding
    · rintro slot generation ⟨⟩

theorem windows_claimWindow : Windows setup task (Idle task) (await .claimWindow) fun reply state phase =>
    match reply with
    | .ok (some _) => phase = .claimed task
    | _ => Idle task state phase := by
  refine Discipline.Triple.call stable_idle ?_
  intro before phase idle inv _ outcome reply after executed
  rcases claimWindow_cases executed with ⟨rfl, other⟩ | ⟨dSalt, unset, rfl, rfl⟩
  · refine ⟨phase, inv, ?_, fun _ _ => (windows setup).keep_refl _ _ _, ?_⟩
    · rintro slot generation ⟨⟩
    · dsimp only
      split
      · exact absurd rfl (other _)
      · exact idle
  · -- nobody has a window: the flag was not set
    have closed : phase = .closed := by
      by_contra other
      rw [inv.adding.mpr other] at unset
      cases unset
    subst closed
    have missing : before.invite.isSome ↔ False := by simpa using inv.invite
    refine ⟨.claimed task, ⟨by simp, by simpa using missing, inv.held⟩, ?_, ?_, rfl⟩
    · rintro slot generation ⟨⟩
    · intro other different
      exact ⟨by simp [Ne.symm different], by simp, fun _ held => held⟩

theorem windows_storeInvite (slot : InviteSlot) :
    Windows setup task (fun _ phase => phase = .claimed task) (await (.storeInvite slot)) fun _ state phase =>
      Idle task state phase ∧ state.Held slot.generation := by
  refine Discipline.Triple.call stable_claimed ?_
  rintro before _ rfl inv _ outcome reply after executed
  cases executed
  have missing : before.invite = none := by simpa using inv.invite
  -- without a published window, every held one is over
  have held : ∀ generation, before.Held generation →
      State.Held { before with invite := some slot } generation := by
    intro generation held
    refine .inl (held.elim id fun current => ?_)
    rw [missing] at current
    cases current
  refine ⟨.published, ⟨?_, by simp, fun generation member => held generation (inv.held generation member)⟩, ?_, ?_,
    ⟨by simp, by simp⟩, .inr rfl⟩
  · simpa using inv.adding
  · rintro slot generation ⟨⟩
  · intro other different
    exact ⟨by simp [Ne.symm different], by simp, held⟩

theorem windows_offerSalt (slot : InviteSlot) (dSalt : Vault.Salt) :
    Windows setup task (fun state phase => Idle task state phase ∧ state.Held slot.generation)
      (await (.offerSalt slot dSalt)) fun _ => Idle task := by
  refine Discipline.Triple.call (stable_idle.and (stable_held _)) ?_
  rintro before phase ⟨idle, current⟩ inv _ outcome reply after executed
  cases executed
  refine ⟨phase, ⟨inv.adding, inv.invite, ?_⟩, ?_, fun other _ => ⟨Iff.rfl, Iff.rfl, fun _ held => held⟩, idle⟩
  · intro generation member
    rcases List.mem_cons.mp member with rfl | member
    · exact current
    · exact inv.held generation member
  · rintro slot generation ⟨⟩

theorem taken_slot (task : Nat) {before : State} {phase : WindowPhase} {slot : InviteSlot} (inv : PhaseOf before phase)
    (found : before.invite = some slot) :
    phase = .published ∧
      PhaseOf { before.cancel (.window slot.generation) with invite := none } (.closing task) ∧
      ∀ generation, before.Held generation →
        State.Held { before.cancel (.window slot.generation) with invite := none } generation := by
  have phased : phase = .published := inv.invite.mp (by simp [found])
  have held : ∀ generation, before.Held generation →
      State.Held { before.cancel (.window slot.generation) with invite := none } generation := by
    intro generation held
    by_cases own : generation = slot.generation
    · subst own
      exact .inl (by simp [State.cancel])
    · refine (held.cancel (.window slot.generation)).imp_right fun current => ?_
      simp only [State.cancel, found, Option.map_some, Option.some.injEq] at current
      exact absurd current.symm own
  subst phased
  refine ⟨rfl, ⟨?_, by simp, fun generation member => held generation (inv.held generation member)⟩, held⟩
  simpa [State.cancel] using inv.adding

theorem windows_takeInvite (generation : Option Nat) :
    Windows setup task (Idle task) (await (.takeInvite generation)) fun reply state phase =>
      match reply with
      | some _ => phase = .closing task
      | none => Idle task state phase := by
  refine Discipline.Triple.call stable_idle ?_
  intro before phase idle inv _ outcome reply after executed
  rcases takeInvite_cases executed with ⟨rfl, rfl, -⟩ | ⟨slot, found, rfl, -, rfl⟩
  · refine ⟨phase, inv, ?_, fun _ _ => (windows setup).keep_refl _ _ _, idle⟩
    rintro slot generation ⟨⟩
  · obtain ⟨rfl, closing, held⟩ := taken_slot task inv found
    refine ⟨.closing task, closing, ?_, ?_, rfl⟩
    · rintro slot generation ⟨⟩
    · intro other different
      exact ⟨by simp, by simp [Ne.symm different], held⟩

theorem windows_stopInvite :
    Windows setup task (Idle task) (await .stopInvite) fun reply state phase =>
      match reply with
      | some _ => phase = .closing task
      | none => Idle task state phase := by
  refine Discipline.Triple.call stable_idle ?_
  intro before phase idle inv allowed outcome reply after executed
  have clear : apart .stopInvite before := allowed
  rcases stopInvite_cases executed with ⟨missing, rfl, rfl⟩ | ⟨slot, found, rfl, rfl⟩
  · have unset : before.adding = false := by simpa [apart, missing] using clear
    refine ⟨phase, ⟨?_, inv.invite, inv.held⟩, ?_, fun _ _ => ⟨Iff.rfl, Iff.rfl, fun _ held => held⟩, idle⟩
    · rw [← unset]
      exact inv.adding
    · rintro slot generation ⟨⟩
  · obtain ⟨rfl, closing, held⟩ := taken_slot task inv found
    refine ⟨.closing task, closing, ?_, ?_, rfl⟩
    · rintro slot generation ⟨⟩
    · intro other different
      exact ⟨by simp, by simp [Ne.symm different], held⟩

theorem windows_closeOffer (slot : InviteSlot) (generation : Option Nat) :
    Windows setup task (fun _ phase => phase = .closing task) (await (.closeOffer slot generation))
      fun _ => Idle task := by
  refine Discipline.Triple.call stable_closing ?_
  rintro before _ rfl inv _ outcome reply after executed
  cases executed
  have missing : before.invite = none := by simpa using inv.invite
  refine ⟨.closed, ⟨by simp, by simp [missing], inv.held⟩, fun _ _ _ => missing, ?_, ⟨by simp, by simp⟩⟩
  intro other different
  exact ⟨by simp, by simp [Ne.symm different], fun _ held => held⟩

/-! ## The functions -/

theorem idle_await {op : Op} (elsewhere : op.Elsewhere) :
    Windows setup task (Idle task) (await op) fun _ => Idle task :=
  (windows_elsewhere elsewhere).triple stable_idle

theorem idle_then {op : Op} {A : Type} {k : Reply op → Task A} {post : A → State → WindowPhase → Prop}
    (elsewhere : op.Elsewhere) (rest : ∀ reply, Windows setup task (Idle task) (k reply) post) :
    Windows setup task (Idle task) (await op >>= k) post :=
  (idle_await elsewhere).bind rest

theorem idle_done {A : Type} {value : A} : Windows setup task (Idle task) (.done value) fun _ => Idle task :=
  Discipline.Triple.done fun _ _ idle => idle

theorem windows_endInvite (generation : Option Nat) :
    Windows setup task (Idle task) (endInvite generation) fun _ => Idle task := by
  refine (windows_takeInvite generation).bind fun taken => ?_
  cases taken with
  | none => exact idle_done
  | some slot => exact (windows_closeOffer slot generation).bind fun _ => idle_done

theorem windows_stopNetwork : Windows setup task (Idle task) stopNetwork fun _ => Idle task := by
  refine idle_then (by simp) fun found => ?_
  split
  · refine windows_stopInvite.bind fun taken => ?_
    cases taken with
    | none => exact idle_await (by simp)
    | some slot => exact (windows_closeOffer slot none).bind fun _ => idle_await (by simp)
  · exact idle_done

theorem windows_startNetwork (identity : Vault.Identity) :
    Windows setup task (Idle task) (startNetwork identity) fun _ => Idle task := by
  refine idle_then (by simp) fun slots => ?_
  split
  · exact idle_done
  · refine idle_then (by simp) fun bound => ?_
    split
    · exact idle_then (by simp) fun network => (windows_publishNetwork network).triple stable_idle
    · exact idle_done

theorem windows_openInvite : Windows setup task (Idle task) openInvite fun _ => Idle task := by
  refine idle_then (by simp) fun running => ?_
  cases running with
  | none => exact idle_done
  | some network =>
      refine windows_claimWindow.bind fun claimed => ?_
      rcases claimed with e | _ | claim
      · exact idle_done
      · exact idle_done
      · refine (windows_storeInvite _).bind fun _ => ?_
        refine ((windows_elsewhere ?_).triple (stable_idle.and (stable_held _))).bind fun _ => ?_
        · simp [Op.Elsewhere, Op.writes]
        · exact (windows_offerSalt _ _).bind fun _ => idle_done

theorem windows_addDevice : Windows setup task (Idle task) addDevice fun _ => Idle task := by
  refine windows_openInvite.bind fun opened => ?_
  cases opened <;> exact idle_done

theorem windows_windowExpires (generation : Nat) :
    Windows setup task (Idle task) (windowExpires generation) fun _ => Idle task :=
  idle_then (by simp) fun _ => (windows_endInvite _).bind fun _ => idle_done

theorem windows_stopAddDevice : Windows setup task (Idle task) stopAddDevice fun _ => Idle task := by
  refine (windows_endInvite none).bind fun ended => ?_
  split
  · refine idle_then (by simp) fun running => ?_
    split
    · exact idle_done
    · exact idle_await (by simp)
  · exact idle_done

theorem windows_covered : (windows setup).Covers (windowWorkload setup).regime := by
  refine Discipline.covers_of_jobs fun task job state phase ready => ?_
  cases job with
  | addDevice => exact (windows_addDevice.bind fun _ => idle_done) state phase ready.1
  | endInvite generation => exact ((windows_endInvite generation).bind fun _ => idle_done) state phase ready.1
  | windowExpires generation => exact windows_windowExpires generation state phase ready.1
  | stopAddDevice => exact windows_stopAddDevice state phase ready.1
  | stopNetwork => exact windows_stopNetwork state phase ready.1
  | startNetwork identity => exact windows_startNetwork identity state phase ready.1
  | listenerFails network => exact idle_await (by simp) state phase ready.1

/-! ## Whole runs -/

def State.NoWindow (state : State) : Prop := state.adding = false ∧ state.invite = none ∧ state.windows = []

def State.Opened (state : State) (generation : Nat) : Prop :=
  generation ∈ state.windows ∨ state.invite.map InviteSlot.generation = some generation

def Op.Ends (generation : Nat) : Op → Prop
  | .expireWindow ending => ending = generation
  | .takeInvite ending => ending = some generation
  | .closeOffer slot _ => slot.generation = generation
  | _ => False

theorem windows_sound {pool : Pool (machine setup)}
    (reached : Reachable (windowWorkload setup).regime State.NoWindow pool) :
    ∃ phase, (windows setup).Sound (windowWorkload setup).regime pool phase := by
  refine Discipline.sound_reachable windows_covered ?_ reached
  rintro state ⟨unset, missing, none⟩
  exact ⟨.closed, ⟨by simp [unset], by simp [missing], by simp [none]⟩, fun _ => ⟨by simp, by simp⟩⟩

/-- While the flag is only cleared from outside where it is not set: with nothing
in the middle the flag says whether a window is published, at most one published
window is not over, and the steps that end one window leave the token, the offer
and the flag of another published one alone. -/
theorem windows_undisturbed {pool : Pool (machine setup)}
    (reached : Reachable (windowWorkload setup).regime State.NoWindow pool) :
    (pool.Quiet → (pool.state.adding = true ↔ pool.state.invite.isSome)) ∧
    (∀ first second, pool.state.Opened first → pool.state.Opened second →
      pool.state.cancelled (.window first) = false → pool.state.cancelled (.window second) = false →
        first = second) ∧
    (∀ task op pool', Step (windowWorkload setup).regime pool task op pool' →
      ∀ generation slot, op.Ends generation → pool.state.invite = some slot → slot.generation ≠ generation →
        pool'.state.cancelled (.window slot.generation) = pool.state.cancelled (.window slot.generation) ∧
        pool'.state.saltOffer slot.offer = pool.state.saltOffer slot.offer ∧
        pool'.state.adding = pool.state.adding) := by
  obtain ⟨phase, sound⟩ := windows_sound reached
  have inv : PhaseOf pool.state phase := sound.1
  refine ⟨fun quiet => ?_, fun first second => ?_, fun task op pool' step generation slot ends found other => ?_⟩
  · have idle := (sound.quiet quiet).2
    rw [inv.adding, inv.invite]
    cases phase with
    | closed => simp
    | published => simp
    | claimed task => exact absurd rfl (idle task).1
    | closing task => exact absurd rfl (idle task).2
  · have current : ∀ generation, pool.state.Opened generation →
        pool.state.cancelled (.window generation) = false →
        pool.state.invite.map InviteSlot.generation = some generation := by
      rintro generation (member | published) live
      · exact (inv.held generation member).resolve_left (by simp [live])
      · exact published
    intro opened opened' live live'
    exact Option.some.inj ((current first opened live).symm.trans (current second opened' live'))
  · obtain ⟨_, _, observed⟩ := Discipline.sound_step windows_covered sound step
    obtain ⟨_, outcome, reply, executed⟩ := step.exec
    cases op with
    | expireWindow ending =>
        cases ends
        rw [expireWindow_eq executed]
        exact ⟨by simp [State.cancel, other], rfl, rfl⟩
    | takeInvite ending =>
        cases ends
        rcases takeInvite_cases executed with ⟨-, same, -⟩ | ⟨taken, found', -, wanted, -⟩
        · rw [same]
          exact ⟨rfl, rfl, rfl⟩
        · cases found.symm.trans found'
          exact absurd (wanted generation rfl).symm other
    | closeOffer closing ending =>
        have missing := observed closing ending rfl
        rw [missing] at found
        cases found
    | _ => cases ends

/-- The user stops the first window and opens the second before the task of the
first one, whose time is over, comes to end it. -/
def lateEnd : List (windowWorkload plainSetup).Move := List.flatten
  [[.start (.startNetwork (.replicate Vault.identitySeedLen 8)) .done], List.replicate 3 (.resume 0 .done),
    [.start .addDevice .done], List.replicate 4 (.resume 1 .done),
    [.start (.windowExpires 0) .done],
    [.start .stopAddDevice .done], List.replicate 3 (.resume 3 .done),
    [.start .addDevice .done], List.replicate 4 (.resume 4 .done),
    [.resume 2 .done]]

theorem windows_undisturbed_late :
    ∃ pool, Reachable (windowWorkload plainSetup).regime State.NoWindow pool ∧ pool.Quiet ∧
      pool.state.windows = [1, 0] ∧ pool.state.invite = some ⟨1, 0⟩ ∧ (pool.state.saltOffer 0).isSome ∧
      pool.state.adding = true ∧
      ∀ generation, pool.state.Opened generation → pool.state.cancelled (.window generation) = false → generation = 1 := by
  obtain ⟨pool, reached, quiet, opened, found, offered, live⟩ :=
    Workload.reachable_of_play (W := windowWorkload plainSetup) unpaired lateEnd
      (fun pool => pool.Quiet ∧ pool.state.windows = [1, 0] ∧ pool.state.invite = some ⟨1, 0⟩ ∧
        (pool.state.saltOffer 0).isSome ∧ pool.state.cancelled (.window 1) = false)
      (show State.NoWindow unpaired from ⟨rfl, rfl, rfl⟩) (by decide +kernel)
  have ⟨flag, single, _⟩ := windows_undisturbed reached
  refine ⟨pool, reached, quiet, opened, found, offered, (flag quiet).mpr (by simp [found]), ?_⟩
  exact fun generation other live' => single generation 1 other (.inl (by simp [opened])) live' live

/-- The listener fails under an open window; the next network clears the flag, and
a second window opens before the first one's task notices. -/
def failedListener : List (windowWorkload plainSetup).unrestricted.Move := List.flatten
  [[.start (.startNetwork (.replicate Vault.identitySeedLen 8)) .done], List.replicate 3 (.resume 0 .done),
    [.start .addDevice .done], List.replicate 4 (.resume 1 .done),
    [.start (.listenerFails 0) .done],
    [.start (.startNetwork (.replicate Vault.identitySeedLen 8)) .done], List.replicate 3 (.resume 3 .done),
    [.start .addDevice .done], List.replicate 4 (.resume 4 .done)]

theorem two_windows_open :
    ¬ ∀ pool, Reachable (windowWorkload plainSetup).unrestricted.regime State.NoWindow pool →
      ∀ first second, pool.state.Opened first → pool.state.Opened second →
        pool.state.cancelled (.window first) = false → pool.state.cancelled (.window second) = false →
          first = second := by
  intro always
  obtain ⟨pool, reached, opened, live, live'⟩ := Workload.reachable_of_play unpaired failedListener
    (fun pool => pool.state.windows = [1, 0] ∧ pool.state.cancelled (.window 0) = false ∧
      pool.state.cancelled (.window 1) = false)
    (show State.NoWindow unpaired from ⟨rfl, rfl, rfl⟩) (by decide +kernel)
  have same := always pool reached 0 1 (.inl (by simp [opened])) (.inl (by simp [opened])) live live'
  cases same

end Daemon

end CesaConn
