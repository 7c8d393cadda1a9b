import CesaConn.Daemon.Turn
import CesaConn.Program.Sequential

/-! State changes one after the other.

While a task has the change slot the other tasks leave alone what the slot
protects. A state change is then an execution from one saved state to the next,
with everything else drifting.
-/

set_option autoImplicit false

namespace CesaConn

open Format Program

namespace Daemon

open Vault

def Outcome.fails : Outcome → Bool
  | .lost | .failed _ => true
  | _ => false

def Beside (before after : State) : Prop := after.turn = before.turn ∧ after.saved = before.saved

variable {setup : Setup} {allowed : Op → Outcome → State → Bool} {task : Nat} {A B : Type} {saved : Saved}

/-- Every execution from `saved` ends in a saved state that `post` allows. -/
def Ends (setup : Setup) (allowed : Op → Outcome → State → Bool) (task : Nat) (saved : Saved) (program : Task A)
    (post : A → Saved → Prop) : Prop :=
  Ensures ((machine setup).restrict allowed) task Beside (fun state => State.saved state = saved) program
    fun value state => post value (State.saved state)

theorem Ends.executes {program : Task A} {post : A → Saved → Prop} {before after : State} {value : A}
    (ends : Ends setup (fun _ _ _ => true) task before.saved program post)
    (execution : Executes (machine setup) task Beside program before value after) : post value after.saved :=
  ends before value after rfl execution.restrict

theorem ends_done {value : A} {post : A → Saved → Prop} (holds : post value saved) :
    Ends setup allowed task saved (.done value) post := by
  apply ensures_done
  rintro state rfl
  exact holds

theorem ends_bind {program : Task A} {k : A → Task B} {mid : A → Saved → Prop} {post : B → Saved → Prop}
    (first : Ends setup allowed task saved program mid)
    (rest : ∀ value next, mid value next → Ends setup allowed task next (k value) post) :
    Ends setup allowed task saved (program >>= k) post :=
  ensures_bind first fun value state result last held => rest value _ held state result last rfl

theorem ends_mono {program : Task A} {post weak : A → Saved → Prop} (ends : Ends setup allowed task saved program post)
    (weaker : ∀ value next, post value next → weak value next) : Ends setup allowed task saved program weak :=
  ensures_mono ends fun value _ => weaker value _

theorem ends_call {op : Op} {post : Reply op → Saved → Prop}
    (effect : ∀ before outcome reply after, State.saved before = saved → allowed op outcome before →
      (machine setup).exec task op outcome before = some (reply, after) → post reply after.saved) :
    Ends setup allowed task saved (await op) post := by
  apply ensures_call
  · exact fun _ _ drifted held => drifted.2.trans held
  · intro before outcome reply after held executed
    obtain ⟨possible, executed⟩ := Machine.exec_of_restrict executed
    exact effect before outcome reply after held possible executed

theorem ends_frame {fields : List Field} {program : Task A} (within : program.All (Op.Within fields)) :
    Ends setup allowed task saved program fun _ next =>
      (.keys ∉ fields → next.keys = saved.keys) ∧ (.file ∉ fields → next.file = saved.file) ∧
        (.keychain ∉ fields → next.keychain = saved.keychain) := by
  have kept : Ensures ((machine setup).restrict allowed) task Beside
      (fun state => (.keys ∉ fields → State.keys state = saved.keys) ∧ (.file ∉ fields → State.file state = saved.file) ∧
        (.keychain ∉ fields → State.keychain state = saved.keychain)) program
      fun _ state => (.keys ∉ fields → State.keys state = saved.keys) ∧
        (.file ∉ fields → State.file state = saved.file) ∧ (.keychain ∉ fields → State.keychain state = saved.keychain) := by
    apply ensures_all within
    · rintro state before ⟨-, drifted⟩ held
      simp only [State.saved, Saved.mk.injEq] at drifted
      rwa [drifted.1, drifted.2.1, drifted.2.2]
    · intro op footprint before outcome reply after held executed
      obtain ⟨-, executed⟩ := Machine.exec_of_restrict executed
      refine ⟨fun apart => ?_, fun apart => ?_, fun apart => ?_⟩
      · exact (exec_same executed .keys fun member => apart (footprint member)).trans (held.1 apart)
      · exact (exec_same executed .file fun member => apart (footprint member)).trans (held.2.1 apart)
      · exact (exec_same executed .keychain fun member => apart (footprint member)).trans (held.2.2 apart)
  rintro state value last rfl execution
  exact kept state value last ⟨fun _ => rfl, fun _ => rfl, fun _ => rfl⟩ execution

theorem ends_within {fields : List Field} {program : Task A} (within : program.All (Op.Within fields))
    (apart : .keys ∉ fields ∧ .file ∉ fields ∧ .keychain ∉ fields) :
    Ends setup allowed task saved program fun _ next => next = saved := by
  refine ends_mono (ends_frame within) ?_
  rintro _ ⟨_, _, _⟩ ⟨keys, file, keychain⟩
  cases keys apart.1
  cases file apart.2.1
  cases keychain apart.2.2
  rfl

theorem ends_aside {op : Op} (apart : .keys ∉ op.writes ∧ .file ∉ op.writes ∧ .keychain ∉ op.writes) :
    Ends setup allowed task saved (await op) fun _ next => next = saved :=
  ends_within (within_await (List.Subset.refl _)) apart

theorem ends_readKeys :
    Ends setup allowed task saved (await .readKeys) fun reply next => reply = saved.keys ∧ next = saved := by
  apply ends_call
  rintro before outcome reply after rfl - executed
  cases executed
  exact ⟨rfl, rfl⟩

theorem ends_writeKeys (change : KeySlots → KeySlots) :
    Ends setup allowed task saved (await (.writeKeys change)) fun _ next =>
      next = { saved with keys := change saved.keys } := by
  apply ends_call
  rintro before outcome reply after rfl - executed
  cases executed
  rfl

theorem ends_wipeKeys : Ends setup allowed task saved (await .wipeKeys) fun _ next => next = { saved with keys := {} } := by
  apply ends_call
  rintro before outcome reply after rfl - executed
  cases executed
  rfl

theorem ends_saltFor (kind : KeyKind) (fresh : Option Salt) :
    Ends setup allowed task saved (await (.saltFor kind fresh)) fun _ next =>
      next = saved ∨ ∃ salt, next = { saved with keys := saved.keys.setSalt salt kind } := by
  apply ends_call
  rintro before outcome reply after rfl - executed
  simp only [machine, exec] at executed
  split at executed
  · cases executed
    exact .inl rfl
  · split at executed
    · next salt =>
      cases executed
      exact .inr ⟨salt, rfl⟩
    · cases executed
      exact .inl rfl

theorem ends_keychainGet (item : Item) :
    Ends setup allowed task saved (await (.keychainGet item)) fun reply next =>
      next = saved ∧ ∀ value, reply = .ok value → value = saved.keychain item := by
  apply ends_call
  rintro before outcome reply after rfl - executed
  cases executed
  refine ⟨rfl, fun value answered => ?_⟩
  cases outcome <;> cases answered <;> rfl

theorem ends_derive (password : Bytes) (salt : Salt) :
    Ends setup allowed task saved (derive password salt) fun reply next =>
      next = saved ∧ match reply with
        | .ok key => setup.crypto.deriveKey password salt = some key
        | .error e => e ≠ .wrongPassword := by
  have called : Ends setup allowed task saved (await (.derive password salt)) fun reply next =>
      next = saved ∧ ∀ key, reply = .ok key → setup.crypto.deriveKey password salt = some key := by
    apply ends_call
    rintro before outcome reply after rfl - executed
    simp only [machine, exec] at executed
    split at executed
    · next key derived =>
      cases executed
      refine ⟨rfl, fun other answered => ?_⟩
      cases outcome <;> cases answered <;> exact derived
    · cases executed
      exact ⟨rfl, fun other answered => by cases answered⟩
  apply ends_bind called
  rintro reply saved ⟨rfl, derived⟩
  apply ends_done
  refine ⟨rfl, ?_⟩
  cases reply with
  | lost => exact fun same => by cases same
  | failed e => exact fun same => by cases same
  | ok key => exact derived key rfl

/-- A file that cannot be read says nothing about the password. -/
theorem ends_readFile :
    Ends setup allowed task saved (await .readFile) fun reply next =>
      next = saved ∧ match reply.result storageError with
        | .ok file => file = saved.file
        | .error e => e ≠ .wrongPassword := by
  apply ends_call
  rintro before outcome reply after rfl - executed
  cases executed
  refine ⟨rfl, ?_⟩
  cases outcome with
  | lost => exact fun same => by cases same
  | failed e => cases e <;> exact fun same => by cases same
  | done => rfl
  | drawn bytes => rfl
  | «at» instant => rfl

theorem stored_fails {E : Type} {outcome : Outcome} {error : VaultErrors → E} {before written after : State}
    {reply : Call E Unit} (executed : some (outcome.write error before written) = some (reply, after)) :
    reply.isOk = !outcome.fails := by
  cases outcome <;> cases executed <;> rfl

theorem stored_sure {E : Type} {outcome : Outcome} {error : VaultErrors → E} {before written after : State}
    {reply : Call E Unit} (executed : some (outcome.write error before written) = some (reply, after))
    (sure : outcome.fails = false) : reply = .ok () ∧ after.saved = written.saved := by
  have went := stored_fails executed
  rcases (stored_write executed).1 with stored | ⟨failed, -⟩
  · exact stored
  · rw [failed, sure] at went
    cases went

theorem ends_writeFile (bytes : Bytes) :
    Ends setup allowed task saved (await (.writeFile bytes)) fun reply =>
      Stored reply saved { saved with file := some bytes } := by
  apply ends_call
  rintro before outcome reply after rfl - executed
  exact (stored_write executed).1

theorem ends_deleteFile :
    Ends setup allowed task saved (await .deleteFile) fun reply => Stored reply saved { saved with file := none } := by
  apply ends_call
  rintro before outcome reply after rfl - executed
  exact (stored_write executed).1

theorem ends_keychainSet (item : Item) (bytes : Bytes) :
    Ends setup allowed task saved (await (.keychainSet item bytes)) fun reply =>
      Stored reply saved { saved with keychain := Function.update saved.keychain item (some bytes) } := by
  apply ends_call
  rintro before outcome reply after rfl - executed
  exact (stored_write executed).1

theorem ends_keychainDelete (item : Item) :
    Ends setup allowed task saved (await (.keychainDelete item)) fun reply =>
      Stored reply saved { saved with keychain := Function.update saved.keychain item none } := by
  apply ends_call
  rintro before outcome reply after rfl - executed
  exact (stored_write executed).1

end Daemon

end CesaConn
