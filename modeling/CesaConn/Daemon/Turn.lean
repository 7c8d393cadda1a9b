import CesaConn.Daemon.Frame
import CesaConn.Program.Triple

/-! State changes under the change slot.

Only the holder of the slot writes the keys, the file and the keychain, so to
the holder its operations on them are a sequential program. `Does` follows such
a program from one saved state to the next; `settled` is what every holder has
to leave behind.
-/

set_option autoImplicit false

namespace CesaConn

open Format Program

namespace Daemon

open Vault

theorem KeySlots.fresh_iff {keys : KeySlots} :
    keys.fresh = true ↔ keys.locked = false ∧ keys.vault = none ∧ keys.aKey = none ∧ keys.dKey = none ∧
      keys.aSalt = none ∧ keys.dSalt = none := by
  simp [KeySlots.fresh, and_assoc]

structure Saved where
  keys : KeySlots
  file : Option Bytes
  keychain : Item → Option Bytes

def State.saved (state : State) : Saved := ⟨state.keys, state.file, state.keychain⟩

/-- An open vault stays open, with its salts, its identity and its DEK. -/
def KeySlots.Continues (before after : KeySlots) : Prop :=
  ∀ vault, before.vault = some vault →
    after.aSalt = before.aSalt ∧ after.dSalt = before.dSalt ∧
      ∃ later, after.vault = some later ∧ later.identity = vault.identity ∧ later.dek = vault.dek

theorem KeySlots.Continues.refl (keys : KeySlots) : keys.Continues keys :=
  fun vault found => ⟨rfl, rfl, vault, found, rfl, rfl⟩

theorem KeySlots.Continues.trans {first second third : KeySlots} (left : first.Continues second)
    (right : second.Continues third) : first.Continues third := by
  intro vault found
  obtain ⟨aSalt, dSalt, later, found', identity, dek⟩ := left vault found
  obtain ⟨aSalt', dSalt', last, found'', identity', dek'⟩ := right later found'
  exact ⟨aSalt'.trans aSalt, dSalt'.trans dSalt, last, found'', identity'.trans identity, dek'.trans dek⟩

theorem KeySlots.continues_of_none {before after : KeySlots} (closed : before.vault = none) :
    before.Continues after := by
  intro vault found
  rw [closed] at found
  cases found

def turns (setup : Setup) (settled : Saved → Prop) : Discipline (machine setup) Unit where
  inv state _ := state.turn = none → settled state.saved
  keep task before _ after _ :=
    (after.turn = some task ↔ before.turn = some task) ∧ (before.turn = some task → after.saved = before.saved)
  idle task state _ := state.turn ≠ some task
  observe op before _ after _ := op ≠ .wipeKeys → before.keys.Continues after.keys
  keep_refl _ _ _ := ⟨Iff.rfl, fun _ => rfl⟩
  keep_trans _ _ _ _ _ _ _ first second :=
    ⟨second.1.trans first.1, fun held => (second.2 (first.1.mpr held)).trans (first.2 held)⟩
  idle_keep _ _ _ _ _ kept idle := fun held => idle (kept.1.mp held)

variable {setup : Setup} {settled : Saved → Prop} {R : Regime (machine setup)} {task : Nat} {A B : Type}

def Holds (task : Nat) (P : Saved → Prop) (state : State) (_ : Unit) : Prop :=
  state.turn = some task ∧ P state.saved

theorem stable_holds (P : Saved → Prop) : (turns setup settled).Stable task (Holds task P) := by
  rintro before _ after _ ⟨same, saved⟩ ⟨held, holds⟩
  exact ⟨same.mpr held, by rw [saved held]; exact holds⟩

theorem stable_outside : (turns setup settled).Stable task fun state _ => state.turn ≠ some task :=
  fun _ _ _ _ kept idle held => idle (kept.1.mp held)

/-- From `saved`, the holder's program ends in a saved state that `post` allows. -/
abbrev Does (setup : Setup) (settled : Saved → Prop) (R : Regime (machine setup)) (task : Nat) (saved : Saved)
    (program : Task A) (post : A → Saved → Prop) : Prop :=
  (turns setup settled).Triple R task (Holds task (· = saved)) program fun value => Holds task (post value)

theorem does_done {saved : Saved} {value : A} {post : A → Saved → Prop} (holds : post value saved) :
    Does setup settled R task saved (.done value) post := by
  rintro state _ ⟨held, rfl⟩
  exact ⟨held, holds⟩

theorem does_bind {saved : Saved} {program : Task A} {k : A → Task B} {mid : A → Saved → Prop}
    {post : B → Saved → Prop} (first : Does setup settled R task saved program mid)
    (rest : ∀ value next, mid value next → Does setup settled R task next (k value) post) :
    Does setup settled R task saved (program >>= k) post :=
  first.bind fun value state ghost held => rest value state.saved held.2 state ghost ⟨held.1, rfl⟩

theorem does_mono {saved : Saved} {program : Task A} {post weak : A → Saved → Prop}
    (does : Does setup settled R task saved program post) (weaker : ∀ value next, post value next → weak value next) :
    Does setup settled R task saved program weak :=
  does.consequence (fun _ _ held => held) fun value _ _ held => ⟨held.1, weaker value _ held.2⟩

theorem does_call {saved : Saved} {op : Op} {post : Reply op → Saved → Prop} (inside : .turn ∉ op.writes)
    (effect : ∀ before after outcome reply, (machine setup).exec task op outcome before = some (reply, after) →
      before.saved = saved → post reply after.saved ∧ (op ≠ .wipeKeys → before.keys.Continues after.keys)) :
    Does setup settled R task saved (await op) post := by
  refine Discipline.Triple.call (stable_holds _) ?_
  rintro before _ ⟨held, same⟩ _ _ outcome reply after executed
  have turn : after.turn = before.turn := exec_same executed .turn inside
  obtain ⟨holds, continues⟩ := effect before after outcome reply executed same
  refine ⟨(), ?_, continues, ?_, turn.trans held, holds⟩
  · intro free
    rw [turn, held] at free
    cases free
  · intro other different
    have foreign : before.turn ≠ some other := by
      rw [held]
      exact fun own => different (Option.some.inj own).symm
    exact ⟨by rw [turn], fun own => absurd own foreign⟩

/-! ## The operations -/

@[simp] def Op.Unsaved (op : Op) : Prop :=
  .keys ∉ op.writes ∧ .file ∉ op.writes ∧ .keychain ∉ op.writes ∧ .turn ∉ op.writes

theorem exec_unsaved {op : Op} {outcome : Outcome} {before after : State} {reply : Reply op}
    (executed : (machine setup).exec task op outcome before = some (reply, after)) (unsaved : op.Unsaved) :
    after.saved = before.saved := by
  have keys : after.keys = before.keys := exec_same executed .keys unsaved.1
  have file : after.file = before.file := exec_same executed .file unsaved.2.1
  have keychain : after.keychain = before.keychain := exec_same executed .keychain unsaved.2.2.1
  simp only [State.saved, keys, file, keychain]

theorem turns_unsaved {op : Op} (unsaved : op.Unsaved) : (turns setup settled).Neutral R task op := by
  intro before _ inv _ outcome reply after executed
  have saved : after.saved = before.saved := exec_unsaved executed unsaved
  have keys : after.keys = before.keys := exec_same executed .keys unsaved.1
  have turn : after.turn = before.turn := exec_same executed .turn unsaved.2.2.2
  refine ⟨?_, fun _ => by rw [keys]; exact .refl _, fun other => ⟨by rw [turn], fun _ => saved⟩⟩
  intro free
  rw [saved]
  exact inv (turn ▸ free)

theorem does_aside {saved : Saved} {op : Op} (unsaved : op.Unsaved) :
    Does setup settled R task saved (await op) fun _ next => next = saved :=
  (turns_unsaved unsaved).triple (stable_holds _)

/-- A function whose footprint leaves the saved state alone. -/
theorem does_within {fields : List Field} {saved : Saved} {program : Task A} (within : program.All (Op.Within fields))
    (apart : .keys ∉ fields ∧ .file ∉ fields ∧ .keychain ∉ fields ∧ .turn ∉ fields) :
    Does setup settled R task saved program fun _ next => next = saved := by
  refine Discipline.Triple.all within (stable_holds _) fun op footprint => ?_
  refine (turns_unsaved ⟨?_, ?_, ?_, ?_⟩).performs (stable_holds _)
  · exact fun member => apart.1 (footprint member)
  · exact fun member => apart.2.1 (footprint member)
  · exact fun member => apart.2.2.1 (footprint member)
  · exact fun member => apart.2.2.2 (footprint member)

theorem does_readKeys {saved : Saved} :
    Does setup settled R task saved (await .readKeys) fun reply next => reply = saved.keys ∧ next = saved := by
  refine does_call (by simp [Op.writes]) fun before after outcome reply executed same => ?_
  cases executed
  exact ⟨⟨by rw [← same]; rfl, same⟩, fun _ => .refl _⟩

theorem does_writeKeys {saved : Saved} {change : KeySlots → KeySlots}
    (continues : saved.keys.Continues (change saved.keys)) :
    Does setup settled R task saved (await (.writeKeys change)) fun _ next =>
      next = { saved with keys := change saved.keys } := by
  refine does_call (by simp [Op.writes]) fun before after outcome reply executed same => ?_
  cases executed
  subst same
  exact ⟨rfl, fun _ => continues⟩

theorem does_wipeKeys {saved : Saved} :
    Does setup settled R task saved (await .wipeKeys) fun _ next => next = { saved with keys := {} } := by
  refine does_call (by simp [Op.writes]) fun before after outcome reply executed same => ?_
  cases executed
  subst same
  exact ⟨rfl, fun other => absurd rfl other⟩

theorem does_saltFor {saved : Saved} {kind : KeyKind} {fresh : Option Salt}
    (known : saved.keys.vault ≠ none → saved.keys.salt kind ≠ none) :
    Does setup settled R task saved (await (.saltFor kind fresh)) fun _ next =>
      next = saved ∨ saved.keys.vault = none ∧ ∃ salt, next = { saved with keys := saved.keys.setSalt salt kind } := by
  refine does_call (by simp [Op.writes]) fun before after outcome reply executed same => ?_
  subst same
  simp only [machine, exec] at executed
  split at executed
  · cases executed
    exact ⟨.inl rfl, fun _ => .refl _⟩
  · next missing =>
    have closed : before.keys.vault = none := by
      by_contra opened
      exact known opened missing
    split at executed
    · next salt =>
      cases executed
      exact ⟨.inr ⟨closed, salt, rfl⟩, fun _ => KeySlots.continues_of_none closed⟩
    · cases executed
      exact ⟨.inl rfl, fun _ => .refl _⟩

theorem does_keychainGet {saved : Saved} {item : Item} :
    Does setup settled R task saved (await (.keychainGet item)) fun reply next =>
      next = saved ∧ ∀ value, reply = .ok value → value = saved.keychain item := by
  refine does_call (by simp [Op.writes]) fun before after outcome reply executed same => ?_
  cases executed
  subst same
  refine ⟨⟨rfl, fun value answered => ?_⟩, fun _ => .refl _⟩
  cases outcome <;> cases answered <;> rfl

theorem does_readFile {saved : Saved} :
    Does setup settled R task saved (await .readFile) fun reply next =>
      next = saved ∧ ∀ value, reply = .ok value → value = saved.file := by
  refine does_call (by simp [Op.writes]) fun before after outcome reply executed same => ?_
  cases executed
  subst same
  refine ⟨⟨rfl, fun value answered => ?_⟩, fun _ => .refl _⟩
  cases outcome <;> cases answered <;> rfl

/-- A store call has written, or it has failed and the store is as it was. -/
def Stored {E : Type} (reply : Call E Unit) (saved written next : Saved) : Prop :=
  (reply = .ok () ∧ next = written) ∨ (reply.isOk = false ∧ next = saved)

theorem stored_write {E : Type} {outcome : Outcome} {error : VaultErrors → E} {before written after : State}
    {reply : Call E Unit} (executed : some (outcome.write error before written) = some (reply, after)) :
    Stored reply before.saved written.saved after.saved ∧
      (written.keys = before.keys → before.keys.Continues after.keys) := by
  cases outcome <;> cases executed
  case lost | failed => exact ⟨.inr ⟨rfl, rfl⟩, fun _ => .refl _⟩
  all_goals exact ⟨.inl ⟨rfl, rfl⟩, fun same => by rw [same]; exact .refl _⟩

theorem does_writeFile {saved : Saved} (bytes : Bytes) :
    Does setup settled R task saved (await (.writeFile bytes)) fun reply =>
      Stored reply saved { saved with file := some bytes } := by
  refine does_call (by simp [Op.writes]) fun before after outcome reply executed same => ?_
  subst same
  exact ⟨(stored_write executed).1, fun _ => (stored_write executed).2 rfl⟩

theorem does_deleteFile {saved : Saved} :
    Does setup settled R task saved (await .deleteFile) fun reply =>
      Stored reply saved { saved with file := none } := by
  refine does_call (by simp [Op.writes]) fun before after outcome reply executed same => ?_
  subst same
  exact ⟨(stored_write executed).1, fun _ => (stored_write executed).2 rfl⟩

theorem does_keychainSet {saved : Saved} (item : Item) (bytes : Bytes) :
    Does setup settled R task saved (await (.keychainSet item bytes)) fun reply =>
      Stored reply saved { saved with keychain := Function.update saved.keychain item (some bytes) } := by
  refine does_call (by simp [Op.writes]) fun before after outcome reply executed same => ?_
  subst same
  exact ⟨(stored_write executed).1, fun _ => (stored_write executed).2 rfl⟩

theorem does_keychainDelete {saved : Saved} (item : Item) :
    Does setup settled R task saved (await (.keychainDelete item)) fun reply =>
      Stored reply saved { saved with keychain := Function.update saved.keychain item none } := by
  refine does_call (by simp [Op.writes]) fun before after outcome reply executed same => ?_
  subst same
  exact ⟨(stored_write executed).1, fun _ => (stored_write executed).2 rfl⟩

/-! ## Taking and giving back the slot -/

theorem turns_acquire :
    (turns setup settled).Triple R task (fun state _ => state.turn ≠ some task) (await .acquire)
      fun _ => Holds task settled := by
  refine Discipline.Triple.call stable_outside ?_
  rintro before _ _ inv _ outcome reply after executed
  obtain ⟨free, rfl⟩ := acquire_cases executed
  refine ⟨(), ?_, fun _ => .refl _, ?_, rfl, inv free⟩
  · rintro ⟨⟩
  · intro other different
    exact ⟨by simp [free, Ne.symm different], fun _ => rfl⟩

theorem turns_release :
    (turns setup settled).Triple R task (Holds task settled) (await .release)
      fun _ state _ => state.turn ≠ some task := by
  refine Discipline.Triple.call (stable_holds _) ?_
  rintro before _ ⟨held, holds⟩ _ _ outcome reply after executed
  obtain ⟨-, rfl⟩ := release_cases executed
  refine ⟨(), fun _ => holds, fun _ => .refl _, ?_, by simp⟩
  intro other different
  exact ⟨by simp [held, Ne.symm different], fun _ => rfl⟩

/-- What follows from every settled state follows when the slot is taken. -/
theorem turns_section {program : Task A} {post : A → State → Unit → Prop}
    (does : ∀ saved, settled saved →
      (turns setup settled).Triple R task (Holds task (· = saved)) program post) :
    (turns setup settled).Triple R task (fun state _ => state.turn ≠ some task)
      (await .acquire >>= fun _ => program) post :=
  turns_acquire.bind fun _ state ghost held => does state.saved held.2 state ghost ⟨held.1, rfl⟩

end Daemon

end CesaConn
