import Mathlib.Data.List.Basic

/-! Programs over a state that can fail.

A program stops at its first error and keeps the state it has then, so a caller
can go on after an error. A run that returns is a run of its parts.
-/

set_option autoImplicit false

namespace Program

/-- A program over states `S` that stops at its first error. -/
abbrev Stateful (S E A : Type) := ExceptT E (StateM S) A

namespace Stateful

variable {S E F A B : Type}

/-- From the first state the program returns the value and ends in the second state. -/
def Returns (program : Stateful S E A) (before : S) (value : A) (after : S) : Prop :=
  program.run.run before = (.ok value, after)

def mapError (f : E → F) (program : Stateful S E A) : Stateful S F A := ExceptT.adapt f program

def attempt (program : Stateful S E A) : Stateful S F (Except E A) := ExceptT.lift program.run

variable {program : Stateful S E A} {before middle after : S} {value : A}

theorem returns_pure (value : A) (before : S) : Returns (pure value : Stateful S E A) before value before := rfl

theorem Returns.bind {next : A → Stateful S E B} {result : B} (first : Returns program before value middle)
    (rest : Returns (next value) middle result after) : Returns (program >>= next) before result after := by
  unfold Returns at first rest ⊢
  rw [ExceptT.run_bind, StateT.run_bind, first]
  exact rest

theorem Returns.of_bind {next : A → Stateful S E B} {result : B} (returns : Returns (program >>= next) before result after) :
    ∃ value middle, Returns program before value middle ∧ Returns (next value) middle result after := by
  unfold Returns at returns ⊢
  rw [ExceptT.run_bind, StateT.run_bind] at returns
  rcases first : program.run.run before with ⟨_ | value, middle⟩
  · rw [first] at returns
    cases congrArg Prod.fst returns
  · rw [first] at returns
    exact ⟨value, middle, rfl, returns⟩

theorem Returns.mapError {f : E → F} (returns : Returns program before value after) :
    Returns (program.mapError f) before value after := by
  unfold Returns at returns ⊢
  show (fun result : Except E A × S => (result.1.mapError f, result.2)) (program.run.run before) = _
  rw [returns]
  rfl

theorem Returns.attempt (returns : Returns program before value after) :
    Returns (program.attempt : Stateful S F (Except E A)) before (.ok value) after := by
  unfold Returns at returns ⊢
  show (fun result : Except E A × S => (Except.ok result.1, result.2)) (program.run.run before) = _
  rw [returns]

/-- From the first state the program stops at the error, in the second state. -/
def Fails (program : Stateful S E A) (before : S) (error : E) (after : S) : Prop :=
  program.run.run before = (.error error, after)

theorem fails_throw (error : E) (before : S) : Fails (throw error : Stateful S E A) before error before := rfl

theorem Returns.fails {next : A → Stateful S E B} {error : E} (first : Returns program before value middle)
    (rest : Fails (next value) middle error after) : Fails (program >>= next) before error after := by
  unfold Returns Fails at *
  rw [ExceptT.run_bind, StateT.run_bind, first]
  exact rest

theorem Fails.bind {next : A → Stateful S E B} {error : E} (first : Fails program before error after) :
    Fails (program >>= next) before error after := by
  unfold Fails at *
  rw [ExceptT.run_bind, StateT.run_bind, first]
  rfl

theorem Fails.mapError {f : E → F} {error : E} (fails : Fails program before error after) :
    Fails (program.mapError f) before (f error) after := by
  unfold Fails at *
  show (fun result : Except E A × S => (result.1.mapError f, result.2)) (program.run.run before) = _
  rw [fails]
  rfl

theorem returns_get (state : S) : Returns (get : Stateful S E S) state state state := rfl

theorem returns_set (state next : S) : Returns (set next : Stateful S E PUnit) state ⟨⟩ next := rfl

/-! ## Results and errors -/

/-- From the state the program ends with a result, or an error, and a state that `post` allows. -/
def Ends (program : Stateful S E A) (before : S) (post : Except E A → S → Prop) : Prop :=
  post (program.run.run before).1 (program.run.run before).2

variable {post weak : Except E A → S → Prop}

theorem ends_get {post : Except E S → S → Prop} (holds : post (.ok before) before) :
    Ends (get : Stateful S E S) before post := holds

theorem Ends.mono (ends : Ends program before post) (weaker : ∀ result state, post result state → weak result state) :
    Ends program before weak :=
  weaker _ _ ends

theorem ends_bind {next : A → Stateful S E B} {post : Except E B → S → Prop}
    (first : Ends program before fun result middle =>
      match result with
      | .ok value => Ends (next value) middle post
      | .error e => post (.error e) middle) :
    Ends (program >>= next) before post := by
  unfold Ends at first ⊢
  rw [ExceptT.run_bind, StateT.run_bind]
  rcases ran : program.run.run before with ⟨e | value, middle⟩
  · rw [ran] at first
    exact first
  · rw [ran] at first
    exact first

theorem ends_mapError {f : E → F} {post : Except F A → S → Prop}
    (ends : Ends program before fun result state => post (result.mapError f) state) :
    Ends (program.mapError f) before post := ends

theorem ends_attempt {post : Except F (Except E A) → S → Prop}
    (ends : Ends program before fun result state => post (.ok result) state) :
    Ends (program.attempt : Stateful S F (Except E A)) before post := ends

end Stateful

end Program
