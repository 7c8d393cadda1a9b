import CesaConn.Daemon.Frame
import CesaConn.Program.Triple

/-! A pairing waits for the user only while somebody asked to pair.

Every ending of a window or a join first lets go of its asker and then looks
whether the queue has to be cleared; in between its task owes that. Two steps
owe nothing: the push of `queue_pairing`, which looked for an asker some time
ago, and the end of a window's own task, which never clears the queue. `asking`
is what they need to find.
-/

set_option autoImplicit false

namespace CesaConn

open Format Program

namespace Daemon

variable {setup : Setup}

def State.prompting (state : State) : Bool := state.pairings.waiting.any fun (_, request) => state.alive request

def State.asked (state : State) : Bool := state.adding || state.joinRunning

inductive PromptJob where
  | queuePairing (request : PairingRequest)
  | handshakeEnds (decision : Nat)
  | addDevice
  | stopAddDevice
  | windowExpires (generation : Nat)
  | joinGroup
  | cancelJoin
  | endJoin (generation : Nat)
  | stopNetwork
  | resetDevice

def PromptJob.program (setup : Setup) : PromptJob → Task Unit
  | .queuePairing request => Daemon.queuePairing request
  | .handshakeEnds decision => await (.closeDecision decision)
  | .addDevice => do let _ ← Daemon.addDevice
  | .stopAddDevice => Daemon.stopAddDevice
  | .windowExpires generation => Daemon.windowExpires generation
  | .joinGroup => do let _ ← Daemon.joinGroup setup
  | .cancelJoin => Daemon.cancelJoin
  | .endJoin generation => Daemon.endJoin generation
  | .stopNetwork => Daemon.stopNetwork
  | .resetDevice => do let _ ← Daemon.resetDevice setup

/-- A push would add a request that waits. -/
def State.admits (state : State) (request : PairingRequest) : Bool :=
  state.alive request &&
    (state.pairings.waiting.filter fun (_, request) => state.alive request).length < maxPendingPairings

/-- A request that waits is queued while somebody still asks, and a window's own task
ends it with a join running or nothing waiting. -/
def asking : Op → State → Bool
  | .pushPairing request, state => state.asked || !state.admits request
  | .closeOffer _ (some _), state => state.joinRunning || !state.prompting
  | _, _ => true

def promptWorkload (setup : Setup) : Workload (machine setup) where
  Job := PromptJob
  program := PromptJob.program setup
  ready _ _ := true
  allows _ := asking

/-! ## Who owes the queue a look -/

def PromptInv (state : State) (owes : Nat → Prop) : Prop :=
  state.prompting = true → state.asked = true ∨ ∃ task, owes task

def prompts (setup : Setup) : Discipline (machine setup) (Nat → Prop) where
  inv := PromptInv
  keep task _ owes _ owes' := owes' task ↔ owes task
  idle task _ owes := ¬ owes task
  observe _ _ _ _ _ := True
  keep_refl _ _ _ := Iff.rfl
  keep_trans _ _ _ _ _ _ _ first second := second.trans first
  idle_keep _ _ _ _ _ kept idle := fun owed => idle (kept.mp owed)

abbrev Prompts (setup : Setup) (task : Nat) {A : Type} (pre : State → (Nat → Prop) → Prop) (program : Task A)
    (post : A → State → (Nat → Prop) → Prop) : Prop :=
  (prompts setup).Triple (promptWorkload setup).regime task pre program post

abbrev Free (task : Nat) (_ : State) (owes : Nat → Prop) : Prop := ¬ owes task

abbrev Owing (task : Nat) (_ : State) (owes : Nat → Prop) : Prop := owes task

variable {task : Nat}

theorem stable_free : (prompts setup).Stable task (Free task) :=
  fun _ _ _ _ kept free owed => free (kept.mp owed)

theorem stable_owing : (prompts setup).Stable task (Owing task) := fun _ _ _ _ kept owed => kept.mpr owed

/-- The task owes, or it no longer does. -/
def owe (owes : Nat → Prop) (task : Nat) (owed : Prop) : Nat → Prop := Function.update owes task owed

@[simp] theorem owe_self (owes : Nat → Prop) (task : Nat) (owed : Prop) : owe owes task owed task = owed := by
  simp [owe]

theorem keeps_owe {before after : State} {owes : Nat → Prop} {owed : Prop} :
    ∀ other, other ≠ task → (prompts setup).keep other before owes after (owe owes task owed) := by
  intro other different
  change owe owes task owed other ↔ owes other
  rw [owe, Function.update_of_ne different]

/-! ## One step -/

@[simp] def Op.Unasked (op : Op) : Prop :=
  .adding ∉ op.writes ∧ .join ∉ op.writes ∧ .pairings ∉ op.writes ∧ .closed ∉ op.writes

theorem State.joinRunning_cancel {state : State} {token : Token} (other : ∀ generation, token ≠ .join generation) :
    (state.cancel token).joinRunning = state.joinRunning := by
  simp [State.joinRunning, State.cancel, JoinSlot.running, (other _).symm]

theorem exec_joinRunning {op : Op} {outcome : Outcome} {before after : State} {reply : Reply op}
    (executed : (machine setup).exec task op outcome before = some (reply, after)) (aside : .join ∉ op.writes) :
    after.joinRunning = before.joinRunning := by
  have join : after.join = before.join := exec_same executed .join aside
  by_cases untouched : .cancelled ∉ op.writes
  · have cancelled : after.cancelled = before.cancelled := exec_same executed .cancelled untouched
    simp only [State.joinRunning, join, cancelled]
  · cases op <;> simp [Op.writes] at untouched aside
    case publishNetwork network =>
      rcases publishNetwork_cases executed with ⟨-, rfl⟩ | ⟨-, rfl⟩
      · exact State.joinRunning_cancel (by simp)
      · rfl
    case takeNetwork =>
      rcases takeNetwork_cases executed with ⟨-, -, rfl⟩ | ⟨network, -, -, rfl⟩
      · rfl
      · exact State.joinRunning_cancel (by simp)
    case takeInvite generation =>
      rcases takeInvite_cases executed with ⟨-, rfl, -⟩ | ⟨slot, -, -, -, rfl⟩
      · rfl
      · exact State.joinRunning_cancel (by simp)
    case stopInvite =>
      rcases stopInvite_cases executed with ⟨-, -, rfl⟩ | ⟨slot, -, -, rfl⟩
      · rfl
      · exact State.joinRunning_cancel (by simp)
    case listenerFails network =>
      cases executed
      exact State.joinRunning_cancel (by simp)
    case expireWindow generation =>
      cases executed
      exact State.joinRunning_cancel (by simp)

theorem prompts_unasked {op : Op} (unasked : op.Unasked) :
    (prompts setup).Neutral (promptWorkload setup).regime task op := by
  intro before owes inv _ outcome reply after executed
  have adding : after.adding = before.adding := exec_same executed .adding unasked.1
  have joining : after.joinRunning = before.joinRunning := exec_joinRunning executed unasked.2.1
  have pairings : after.pairings = before.pairings := exec_same executed .pairings unasked.2.2.1
  have closed : after.closed = before.closed := exec_same executed .closed unasked.2.2.2
  refine ⟨?_, trivial, fun _ => Iff.rfl⟩
  intro waiting
  simp only [State.asked, adding, joining]
  refine inv ?_
  simpa only [State.prompting, State.alive, pairings, closed] using waiting

theorem prompts_closeDecision (decision : Nat) :
    (prompts setup).Neutral (promptWorkload setup).regime task (.closeDecision decision) := by
  intro before owes inv _ outcome reply after executed
  cases executed
  refine ⟨fun waiting => inv ?_, trivial, fun _ => Iff.rfl⟩
  -- who waits afterwards waited before
  obtain ⟨entry, member, alive⟩ := List.any_eq_true.mp waiting
  refine List.any_eq_true.mpr ⟨entry, member, ?_⟩
  by_cases own : entry.2.decision = decision
  · simp [State.alive, own] at alive
  · simpa [State.alive, own] using alive

theorem prompting_of_pushPairing {request : PairingRequest} {outcome : Outcome} {before after : State}
    {reply : Reply (.pushPairing request)} (idle : before.admits request = false)
    (executed : (machine setup).exec task (.pushPairing request) outcome before = some (reply, after))
    (waiting : after.prompting = true) : before.prompting = true := by
  have kept : (before.pairings.waiting.filter fun (_, request) => before.alive request).any
      (fun (_, request) => before.alive request) = true → before.prompting = true := by
    intro some
    obtain ⟨entry, member, alive⟩ := List.any_eq_true.mp some
    exact List.any_eq_true.mpr ⟨entry, (List.mem_filter.mp member).1, alive⟩
  simp only [machine, exec] at executed
  split at executed
  · cases executed
    exact kept waiting
  · next room =>
    cases executed
    have dead : before.alive request = false := by
      simpa [State.admits, Nat.lt_of_not_le room] using idle
    have waiting : ((before.pairings.waiting.filter fun (_, request) => before.alive request) ++
        [(before.pairings.nextId, request)]).any (fun (_, request) => before.alive request) = true := waiting
    rw [List.any_append, Bool.or_eq_true] at waiting
    obtain old | new := waiting
    · exact kept old
    · simp [dead] at new

theorem prompts_pushPairing (request : PairingRequest) :
    (prompts setup).Neutral (promptWorkload setup).regime task (.pushPairing request) := by
  intro before owes inv allowed outcome reply after executed
  have allowed : (before.asked || !before.admits request) = true := allowed
  refine ⟨fun waiting => ?_, trivial, fun _ => Iff.rfl⟩
  have same : after.asked = before.asked := by
    simp only [machine, exec] at executed
    split at executed <;> cases executed <;> rfl
  rw [same]
  obtain asked | idle := (Bool.or_eq_true _ _).mp allowed
  · exact .inl asked
  · -- whatever waits then waited before
    have idle : State.admits before request = false := by simpa using idle
    exact inv (prompting_of_pushPairing idle executed waiting)

theorem prompts_claimWindow : (prompts setup).Neutral (promptWorkload setup).regime task .claimWindow := by
  intro before owes inv _ outcome reply after executed
  refine ⟨?_, trivial, fun _ => Iff.rfl⟩
  rcases claimWindow_cases executed with ⟨rfl, -⟩ | ⟨dSalt, -, -, rfl⟩
  · exact inv
  · exact fun _ => .inl rfl

theorem prompts_claimJoin (generation : Nat) :
    (prompts setup).Neutral (promptWorkload setup).regime task (.claimJoin generation) := by
  intro before owes inv _ outcome reply after executed
  refine ⟨?_, trivial, fun _ => Iff.rfl⟩
  rcases claimJoin_cases executed with ⟨-, rfl⟩ | ⟨stopped, rfl⟩
  · exact inv
  · intro waiting
    refine (inv waiting).imp_left fun asked => ?_
    -- the slot it replaces was of a join that does not run
    have adding : before.adding = true := by simpa [State.asked, stopped] using asked
    simp [State.asked, adding]

/-- A task that lets go of an asker owes the queue a look; that covers whatever waits. -/
theorem prompts_owing {pre : State → (Nat → Prop) → Prop} (stable : (prompts setup).Stable task pre) (op : Op) :
    Prompts setup task pre (await op) fun _ => Owing task := by
  refine Discipline.Triple.call stable ?_
  intro before owes _ _ _ outcome reply after _
  have owed : owe owes task True task := by simp
  exact ⟨owe owes task True, fun _ => .inr ⟨task, owed⟩, trivial, keeps_owe, owed⟩

theorem prompts_closeExpired (slot : InviteSlot) (generation : Nat) :
    (prompts setup).Neutral (promptWorkload setup).regime task (.closeOffer slot (some generation)) := by
  intro before owes inv allowed outcome reply after executed
  have unneeded : asking (.closeOffer slot (some generation)) before := allowed
  cases executed
  refine ⟨fun waiting => .inl ?_, trivial, fun _ => Iff.rfl⟩
  have prompting : before.prompting = true := waiting
  have joining : before.joinRunning = true := by simpa [asking, prompting] using unneeded
  exact (Bool.or_eq_true _ _).mpr (.inr joining)

/-- What a task owes after it took a join while `adding` was read. -/
def Owes (task : Nat) (adding : Bool) (state : State) (owes : Nat → Prop) : Prop :=
  if adding then Free task state owes else Owing task state owes

theorem prompts_joinEnds (setup : Setup) (before after : State) (owes : Nat → Prop) {adding : Bool}
    (same : adding = after.adding) :
    ∃ owes', PromptInv after owes' ∧ (∀ other, other ≠ task → (prompts setup).keep other before owes after owes') ∧
      Owes task adding after owes' := by
  refine ⟨owe owes task (adding = false), fun _ => ?_, keeps_owe, ?_⟩
  · cases adding with
    | true => exact .inl (by simp [State.asked, ← same])
    | false => exact .inr ⟨task, by simp⟩
  · cases adding <;> simp [Owes, Free]

theorem prompts_takeJoin :
    Prompts setup task (Free task) (await .takeJoin) fun reply => Owes task (reply.getD true) := by
  refine Discipline.Triple.call stable_free ?_
  intro before owes free inv _ outcome reply after executed
  rcases takeJoin_cases executed with ⟨-, rfl, rfl⟩ | ⟨slot, -, rfl, rfl⟩
  · exact ⟨owes, inv, trivial, fun _ _ => Iff.rfl, free⟩
  · obtain ⟨owes', inv', kept, owed⟩ := prompts_joinEnds setup before
      { before.cancel (.join slot.generation) with join := none } owes rfl
    exact ⟨owes', inv', trivial, kept, owed⟩

theorem prompts_endJoinSlot (generation : Nat) :
    Prompts setup task (Free task) (await (.endJoin generation)) fun reply => Owes task (reply.getD true) := by
  refine Discipline.Triple.call stable_free ?_
  intro before owes free inv _ outcome reply after executed
  rcases endJoin_cases executed with ⟨rfl, rfl⟩ | ⟨-, rfl, rfl⟩
  · exact ⟨owes, inv, trivial, fun _ _ => Iff.rfl, free⟩
  · obtain ⟨owes', inv', kept, owed⟩ := prompts_joinEnds setup before { before with join := none } owes rfl
    exact ⟨owes', inv', trivial, kept, owed⟩

theorem prompts_joinRunning :
    Prompts setup task (Owing task) (await .joinRunning) fun running => Owes task running := by
  refine Discipline.Triple.call stable_owing ?_
  intro before owes owing inv _ outcome reply after executed
  cases executed
  refine ⟨owe owes task (before.joinRunning = false), fun _ => ?_, trivial, keeps_owe, ?_⟩
  · cases joining : before.joinRunning with
    | true => exact .inl (by simp [State.asked, joining])
    | false => exact .inr ⟨task, by simp⟩
  · cases joining : before.joinRunning <;> simp [Owes, Free]

theorem prompts_clear {pre : State → (Nat → Prop) → Prop} (stable : (prompts setup).Stable task pre) {op : Op}
    (clears : ∀ before after : State, ∀ outcome reply,
      (machine setup).exec task op outcome before = some (reply, after) → after.pairings.waiting = []) :
    Prompts setup task pre (await op) fun _ => Free task := by
  refine Discipline.Triple.call stable ?_
  intro before owes _ inv _ outcome reply after executed
  refine ⟨owe owes task False, fun waiting => ?_, trivial, keeps_owe, by simp [Free]⟩
  simp [State.prompting, clears before after outcome reply executed] at waiting

theorem prompts_clearPairings {pre : State → (Nat → Prop) → Prop} (stable : (prompts setup).Stable task pre) :
    Prompts setup task pre (await .clearPairings) fun _ => Free task := by
  refine prompts_clear stable fun before after outcome reply executed => ?_
  cases executed
  rfl

theorem prompts_clearPrompts : Prompts setup task (Free task) (await .clearPrompts) fun _ => Free task := by
  refine prompts_clear stable_free fun before after outcome reply executed => ?_
  cases executed
  rfl

/-! ## The functions -/

theorem free_done {A : Type} {value : A} : Prompts setup task (Free task) (.done value) fun _ => Free task :=
  Discipline.Triple.done fun _ _ free => free

theorem free_await {op : Op} (unasked : op.Unasked) :
    Prompts setup task (Free task) (await op) fun _ => Free task :=
  (prompts_unasked unasked).triple stable_free

theorem free_then {op : Op} {A : Type} {k : Reply op → Task A} {post : A → State → (Nat → Prop) → Prop}
    (unasked : op.Unasked) (rest : ∀ reply, Prompts setup task (Free task) (k reply) post) :
    Prompts setup task (Free task) (await op >>= k) post :=
  (free_await unasked).bind rest

theorem prompts_queuePairing (request : PairingRequest) :
    Prompts setup task (Free task) (queuePairing request) fun _ => Free task := by
  have push : Prompts setup task (Free task) (await (.pushPairing request)) fun _ => Free task :=
    (prompts_pushPairing request).triple stable_free
  refine free_then (by simp) fun adding => ?_
  split
  · exact push
  · refine free_then (by simp) fun running => ?_
    split
    · exact push
    · exact free_done

theorem prompts_openInvite : Prompts setup task (Free task) openInvite fun _ => Free task := by
  refine free_then (by simp) fun running => ?_
  cases running with
  | none => exact free_done
  | some network =>
      refine (prompts_claimWindow.triple stable_free).bind fun claimed => ?_
      rcases claimed with e | _ | claim
      · exact free_done
      · exact free_done
      · exact free_then (by simp) fun _ => free_then (by simp) fun _ => free_then (by simp) fun _ => free_done

theorem prompts_addDevice : Prompts setup task (Free task) addDevice fun _ => Free task := by
  refine prompts_openInvite.bind fun opened => ?_
  cases opened <;> exact free_done

theorem prompts_windowExpires (generation : Nat) :
    Prompts setup task (Free task) (windowExpires generation) fun _ => Free task := by
  refine free_then (by simp) fun _ => free_then (by simp) fun taken => ?_
  cases taken with
  | none => exact free_done
  | some slot => exact ((prompts_closeExpired slot generation).triple stable_free).bind fun _ => free_done

/-- The look that is owed: with no join running the queue is cleared. -/
theorem prompts_look {A : Type} (value : A) :
    Prompts setup task (Owing task)
      (do if ← await .joinRunning then return value else await .clearPairings; return value) fun _ => Free task := by
  refine prompts_joinRunning.bind fun running => ?_
  cases running with
  | true => exact free_done
  | false => exact (prompts_clearPairings stable_owing).bind fun _ => free_done

theorem prompts_stopAddDevice : Prompts setup task (Free task) stopAddDevice fun _ => Free task := by
  refine free_then (by simp) fun taken => ?_
  cases taken with
  | none => exact free_done
  | some slot => exact (prompts_owing stable_free (.closeOffer slot none)).bind fun _ => prompts_look ()

theorem prompts_finishJoin (adding : Bool) :
    Prompts setup task (Owes task adding) (finishJoin adding) fun _ => Free task := by
  cases adding with
  | true => exact free_done
  | false => exact prompts_look ()

theorem prompts_cancelJoin : Prompts setup task (Free task) cancelJoin fun _ => Free task := by
  refine prompts_takeJoin.bind fun taken => ?_
  cases taken with
  | none => exact free_done
  | some adding => exact prompts_finishJoin adding

theorem prompts_endJoin (generation : Nat) :
    Prompts setup task (Free task) (endJoin generation) fun _ => Free task := by
  refine (prompts_endJoinSlot generation).bind fun ended => ?_
  cases ended with
  | none => exact free_done
  | some adding => exact prompts_finishJoin adding

theorem prompts_joinGroup : Prompts setup task (Free task) (joinGroup setup) fun _ => Free task := by
  unfold joinGroup
  split
  · exact free_done
  · refine free_then (by simp) fun begun => ?_
    rcases begun with e | claim
    · exact free_done
    · refine ((prompts_claimJoin claim.generation).triple stable_free).bind fun claimed => ?_
      split <;> exact free_done

theorem prompts_stopNetwork : Prompts setup task (Free task) stopNetwork fun _ => Free task := by
  refine free_then (by simp) fun found => ?_
  split
  · refine (prompts_owing stable_free .stopInvite).bind fun taken => ?_
    cases taken with
    | none => exact prompts_clearPairings stable_owing
    | some slot =>
        exact (prompts_owing stable_owing (.closeOffer slot none)).bind fun _ => prompts_clearPairings stable_owing
  · exact free_done

theorem prompts_resetDevice : Prompts setup task (Free task) (resetDevice setup) fun _ => Free task := by
  refine free_then (by simp) fun _ => prompts_cancelJoin.bind fun _ => prompts_stopNetwork.bind fun _ => ?_
  have deletes : Prompts setup task (Free task)
      (if setup.storage then do return (← await .deleteFile).result storageError else pure (.ok ()))
      fun _ => Free task := by
    split
    · exact free_then (by simp) fun _ => free_done
    · exact free_done
  refine deletes.bind fun deleted => ?_
  cases deleted with
  | error e => exact free_done
  | ok _ =>
      refine free_then (by simp) fun _ => free_then (by simp) fun _ => free_then (by simp) fun _ => prompts_clearPrompts.bind fun _ => ?_
      split
      · refine free_then (by simp) fun salts => ?_
        split
        · refine free_then (by simp) fun dataKey => ?_
          split <;> exact free_done
        · exact free_done
      · exact free_done

theorem prompts_covered : (prompts setup).Covers (promptWorkload setup).regime := by
  refine Discipline.covers_of_jobs fun task job state owes start => ?_
  obtain ⟨free, -⟩ := start
  cases job with
  | queuePairing request => exact prompts_queuePairing request state owes free
  | handshakeEnds decision => exact (prompts_closeDecision decision).triple stable_free state owes free
  | addDevice => exact (prompts_addDevice.bind fun _ => free_done) state owes free
  | stopAddDevice => exact prompts_stopAddDevice state owes free
  | windowExpires generation => exact prompts_windowExpires generation state owes free
  | joinGroup => exact (prompts_joinGroup.bind fun _ => free_done) state owes free
  | cancelJoin => exact prompts_cancelJoin state owes free
  | endJoin generation => exact prompts_endJoin generation state owes free
  | stopNetwork => exact prompts_stopNetwork state owes free
  | resetDevice => exact (prompts_resetDevice.bind fun _ => free_done) state owes free

/-! ## Whole runs -/

def State.Invited (state : State) : Prop := state.prompting = true → state.adding = true ∨ state.joinRunning = true

/-- While requests that wait are queued with an asker and windows expire without one:
with nothing in the middle, whatever waits for the user was asked for. -/
theorem prompts_asked {pool : Pool (machine setup)}
    (reached : Reachable (promptWorkload setup).regime State.Invited pool) (quiet : pool.Quiet) :
    pool.state.Invited := by
  obtain ⟨owes, sound⟩ := Discipline.sound_reachable (D := prompts setup) prompts_covered (fun state invited =>
    ⟨fun _ => False, fun waiting => .inl ((Bool.or_eq_true _ _).mpr (invited waiting)), fun _ => id⟩) reached
  obtain ⟨inv, free⟩ := sound.quiet quiet
  intro waiting
  rcases inv waiting with asked | ⟨task, owed⟩
  · exact (Bool.or_eq_true _ _).mp asked
  · exact absurd owed (free task)

def connected : State :=
  { unpaired with network := some ⟨0, .replicate Vault.identitySeedLen 8, 0⟩, nextNetwork := 1 }

def pairingAsked (W : Workload (machine plainSetup)) (jobs : PromptJob → W.Job) : List W.Move :=
  [.start (jobs .addDevice) .done] ++ List.replicate 4 (.resume 0 .done) ++
  [.start (jobs (.queuePairing ⟨"192.168.0.7:50000", .replicate 8 0, 0⟩)) .done, .resume 1 .done]

theorem connected_invited : connected.Invited := by
  intro waiting
  cases waiting

theorem prompts_asked_opened :
    ∃ pool, Reachable (promptWorkload plainSetup).regime State.Invited pool ∧ pool.Quiet ∧
      pool.state.prompting = true ∧ (pool.state.adding = true ∨ pool.state.joinRunning = true) := by
  obtain ⟨pool, reached, quiet, waiting⟩ := Workload.reachable_of_play connected
    (pairingAsked (promptWorkload plainSetup) id) (fun pool => pool.Quiet ∧ pool.state.prompting = true)
    connected_invited (by decide +kernel)
  exact ⟨pool, reached, quiet, waiting, prompts_asked reached quiet waiting⟩

/-- The window's own task ends it and leaves the prompt. -/
def expiredPrompt : List (promptWorkload plainSetup).unrestricted.Move :=
  pairingAsked _ id ++ [.start (.windowExpires 0) .done, .resume 2 .done, .resume 2 .done]

theorem prompt_outlives_window :
    ¬ ∀ pool, Reachable (promptWorkload plainSetup).unrestricted.regime State.Invited pool → pool.Quiet →
      pool.state.Invited := by
  intro always
  obtain ⟨pool, reached, quiet, waiting, closed, alone⟩ := Workload.reachable_of_play connected expiredPrompt
    (fun pool => pool.Quiet ∧ pool.state.prompting = true ∧ pool.state.adding = false ∧
      pool.state.joinRunning = false)
    connected_invited (by decide +kernel)
  rcases always pool reached quiet waiting with adding | joining
  · rw [closed] at adding
    cases adding
  · rw [alone] at joining
    cases joining

end Daemon

end CesaConn
