import CesaConn.Program.Sequential

/-! Programs as seen through a part of the state.

A view is what an observer reads off the state. Where the drift cannot be seen,
a program goes from one look of the state to the next. A program that keeps the
look whenever its result is bad has undone all it did, or not done it yet.
-/

set_option autoImplicit false

namespace Program

variable {I : Signature} {M : Machine I} {A B V : Type} {task : Nat} {drift : M.State → M.State → Prop}

/-- From a state that looks like `seen`, every execution ends with a look that `post` allows. -/
def Shows (M : Machine I) (task : Nat) (drift : M.State → M.State → Prop) (view : M.State → V) (seen : V)
    (program : Proc I A) (post : A → V → Prop) : Prop :=
  Ensures M task drift (fun state => view state = seen) program fun value state => post value (view state)

variable {view : M.State → V} {seen : V}

theorem shows_done {value : A} {post : A → V → Prop} (holds : post value seen) :
    Shows M task drift view seen (.done value) post := by
  apply ensures_done
  intro state same
  rw [same]
  exact holds

theorem shows_bind {program : Proc I A} {k : A → Proc I B} {mid : A → V → Prop} {post : B → V → Prop}
    (first : Shows M task drift view seen program mid)
    (rest : ∀ value next, mid value next → Shows M task drift view next (k value) post) :
    Shows M task drift view seen (program >>= k) post :=
  ensures_bind first fun value state result last held => rest value _ held state result last rfl

theorem shows_mono {program : Proc I A} {post weak : A → V → Prop} (shows' : Shows M task drift view seen program post)
    (weaker : ∀ value next, post value next → weak value next) : Shows M task drift view seen program weak :=
  ensures_mono shows' fun value _ => weaker value _

section Unseen

variable (unseen : ∀ before after, drift before after → view after = view before)
include unseen

theorem shows_call {op : I.Op} {post : I.Reply op → V → Prop}
    (effect : ∀ before outcome reply after, view before = seen → M.exec task op outcome before = some (reply, after) →
      post reply (view after)) : Shows M task drift view seen (.call op .done) post := by
  apply ensures_call
  · exact fun before after drifted same => (unseen before after drifted).trans same
  · exact effect

theorem shows_all {P : I.Op → Prop} {program : Proc I A} (within : program.All P)
    (keeps : ∀ op, P op → ∀ before outcome reply after, M.exec task op outcome before = some (reply, after) →
      view after = view before) : Shows M task drift view seen program fun _ next => next = seen :=
  ensures_all within (fun before after drifted same => (unseen before after drifted).trans same)
    fun op allowed before outcome reply after same executed => (keeps op allowed before outcome reply after executed).trans same

end Unseen

/-! ## Bad results -/

/-- With a bad result the look is as it was. -/
def Undoes (M : Machine I) (task : Nat) (drift : M.State → M.State → Prop) (view : M.State → V) (seen : V)
    (program : Proc I A) (bad : A → Prop) : Prop :=
  Shows M task drift view seen program fun value next => bad value → next = seen

def Proc.Results (P : A → Prop) : Proc I A → Prop
  | .done value => P value
  | .call _ next => ∀ reply, (next reply).Results P

theorem Proc.results_bind {P : B → Prop} {program : Proc I A} {k : A → Proc I B} (rest : ∀ value, (k value).Results P) :
    (program >>= k).Results P := by
  induction program with
  | done value => exact rest value
  | call op next ih => exact ih

theorem Executes.results {P : A → Prop} {program : Proc I A} {state last : M.State} {value : A}
    (execution : Executes M task drift program state value last) (results : program.Results P) : P value := by
  induction execution with
  | done => exact results
  | call _ _ _ ih => exact ih (results _)

theorem undoes_done {bad : A → Prop} (value : A) : Undoes M task drift view seen (.done value) bad :=
  shows_done fun _ => rfl

theorem undoes_results {bad : A → Prop} {program : Proc I A} (results : program.Results fun value => ¬ bad value) :
    Undoes M task drift view seen program bad :=
  fun _ _ _ _ execution wrong => absurd wrong (execution.results results)

theorem undoes_same {bad : A → Prop} {program : Proc I A}
    (same : Shows M task drift view seen program fun _ next => next = seen) : Undoes M task drift view seen program bad :=
  shows_mono same fun _ _ holds _ => holds

/-- After results that are bad the program goes on from the old look, and after
the others it comes to no bad result. -/
theorem undoes_bind {program : Proc I A} {k : A → Proc I B} {mid : A → Prop} {bad : B → Prop}
    (first : Undoes M task drift view seen program mid)
    (rest : ∀ value, mid value → Undoes M task drift view seen (k value) bad)
    (other : ∀ value, ¬ mid value → (k value).Results fun result => ¬ bad result) :
    Undoes M task drift view seen (program >>= k) bad := by
  apply shows_bind first
  intro value next held state result last same execution wrong
  by_cases stays : mid value
  · cases held stays
    exact rest value stays state result last same execution wrong
  · exact absurd wrong (execution.results (other value stays))

theorem undoes_then {program : Proc I A} {k : A → Proc I B} {bad : B → Prop}
    (first : Shows M task drift view seen program fun _ next => next = seen)
    (rest : ∀ value, Undoes M task drift view seen (k value) bad) : Undoes M task drift view seen (program >>= k) bad := by
  have always : Undoes M task drift view seen program fun _ => True := undoes_same first
  apply undoes_bind always
  · exact fun value _ => rest value
  · exact fun _ never => absurd trivial never

end Program
