import CesaConn.Program.Pool

/-! Pre- and postconditions of a task under a discipline.

A triple says that a program is safe from every state its precondition allows.
An assertion a task holds across an operation of its own has to be stable: no
other task can invalidate it in between.
-/

set_option autoImplicit false

namespace Program

namespace Discipline

variable {I : Signature} {M : Machine I} {Ghost : Type} {A B : Type}

/-- No other task can invalidate the assertion. -/
def Stable (D : Discipline M Ghost) (task : Nat) (holds : M.State → Ghost → Prop) : Prop :=
  ∀ state ghost state' ghost', D.keep task state ghost state' ghost' → holds state ghost → holds state' ghost'

def Triple (D : Discipline M Ghost) (R : Regime M) (task : Nat) (pre : M.State → Ghost → Prop)
    (program : Proc I A) (post : A → M.State → Ghost → Prop) : Prop :=
  ∀ state ghost, pre state ghost → D.Safe R task post program state ghost

/-- What one operation does under the discipline, from where the precondition holds. -/
def Performs (D : Discipline M Ghost) (R : Regime M) (task : Nat) (pre : M.State → Ghost → Prop)
    (op : I.Op) (post : I.Reply op → M.State → Ghost → Prop) : Prop :=
  ∀ before ghost, pre before ghost → D.inv before ghost → R.allows task op before →
    ∀ outcome reply after, M.exec task op outcome before = some (reply, after) →
      ∃ ghost', D.inv after ghost' ∧ D.observe op before ghost after ghost' ∧
        (∀ other, other ≠ task → D.keep other before ghost after ghost') ∧ post reply after ghost'

variable {D : Discipline M Ghost} {R : Regime M} {task : Nat}

theorem Stable.and {first second : M.State → Ghost → Prop} (left : D.Stable task first)
    (right : D.Stable task second) : D.Stable task fun state ghost => first state ghost ∧ second state ghost :=
  fun _ _ _ _ kept both => ⟨left _ _ _ _ kept both.1, right _ _ _ _ kept both.2⟩

theorem Triple.done {pre : M.State → Ghost → Prop} {post : A → M.State → Ghost → Prop} {value : A}
    (holds : ∀ state ghost, pre state ghost → post value state ghost) : D.Triple R task pre (.done value) post :=
  holds

theorem Triple.bind {pre : M.State → Ghost → Prop} {mid : A → M.State → Ghost → Prop}
    {post : B → M.State → Ghost → Prop} {program : Proc I A} {k : A → Proc I B}
    (first : D.Triple R task pre program mid) (rest : ∀ value, D.Triple R task (mid value) (k value) post) :
    D.Triple R task pre (program >>= k) post :=
  fun state ghost holds => (first state ghost holds).bind fun value => rest value

theorem Triple.consequence {pre strong : M.State → Ghost → Prop} {post weak : A → M.State → Ghost → Prop}
    {program : Proc I A} (triple : D.Triple R task pre program post)
    (before : ∀ state ghost, strong state ghost → pre state ghost)
    (after : ∀ value state ghost, post value state ghost → weak value state ghost) :
    D.Triple R task strong program weak :=
  fun state ghost holds => (triple state ghost (before _ _ holds)).mono after

theorem Triple.call {pre : M.State → Ghost → Prop} {op : I.Op} {mid : I.Reply op → M.State → Ghost → Prop}
    (stable : D.Stable task pre) (performs : D.Performs R task pre op mid) :
    D.Triple R task pre (.call op .done) mid := by
  intro state ghost holds before ghost₁ kept invariant allowed outcome reply after executed
  exact performs before ghost₁ (stable _ _ _ _ kept holds) invariant allowed outcome reply after executed

/-- An operation that is to every task, also to its own, like a step of another. -/
def Neutral (D : Discipline M Ghost) (R : Regime M) (task : Nat) (op : I.Op) : Prop :=
  ∀ before ghost, D.inv before ghost → R.allows task op before →
    ∀ outcome reply after, M.exec task op outcome before = some (reply, after) →
      D.inv after ghost ∧ D.observe op before ghost after ghost ∧ ∀ other, D.keep other before ghost after ghost

theorem Neutral.performs {op : I.Op} (neutral : D.Neutral R task op) {holds : M.State → Ghost → Prop}
    (stable : D.Stable task holds) : D.Performs R task holds op fun _ => holds := by
  intro before ghost held invariant allowed outcome reply after executed
  obtain ⟨invariant', observed, keeps⟩ := neutral before ghost invariant allowed outcome reply after executed
  exact ⟨ghost, invariant', observed, fun other _ => keeps other, stable _ _ _ _ (keeps task) held⟩

theorem Neutral.triple {op : I.Op} (neutral : D.Neutral R task op) {holds : M.State → Ghost → Prop}
    (stable : D.Stable task holds) : D.Triple R task holds (.call op .done) fun _ => holds :=
  Triple.call stable (neutral.performs stable)

theorem Triple.all {holds : M.State → Ghost → Prop} {P : I.Op → Prop} {program : Proc I A}
    (within : program.All P) (stable : D.Stable task holds)
    (performs : ∀ op, P op → D.Performs R task holds op fun _ => holds) :
    D.Triple R task holds program fun _ => holds := by
  induction program with
  | done value => exact fun _ _ before => before
  | call op next ih =>
      intro state ghost before state₁ ghost₁ kept invariant allowed outcome reply after executed
      obtain ⟨ghost₂, invariant', observed, others, later⟩ :=
        performs op within.1 state₁ ghost₁ (stable _ _ _ _ kept before) invariant allowed outcome reply after
          executed
      exact ⟨ghost₂, invariant', observed, others, ih reply (within.2 reply) after ghost₂ later⟩

/-- The discipline of an invariant alone: tasks rely on nothing else. -/
def ofInvariant (inv : M.State → Prop) : Discipline M Unit where
  inv state _ := inv state
  keep _ _ _ _ _ := True
  idle _ _ _ := True
  observe _ _ _ _ _ := True
  keep_refl _ _ _ := trivial
  keep_trans _ _ _ _ _ _ _ _ _ := trivial
  idle_keep _ _ _ _ _ _ _ := trivial

/-- Under an invariant alone an operation has to preserve it and to answer as promised. -/
theorem Triple.preserves {inv : M.State → Prop} {op : I.Op} {post : I.Reply op → Prop}
    (preserves : ∀ before, inv before → R.allows task op before →
      ∀ outcome reply after, M.exec task op outcome before = some (reply, after) → inv after ∧ post reply) :
    (ofInvariant inv).Triple R task (fun _ _ => True) (.call op .done) fun reply _ _ => post reply := by
  refine Triple.call (fun _ _ _ _ _ _ => trivial) ?_
  intro before ghost _ holds allowed outcome reply after executed
  obtain ⟨later, answered⟩ := preserves before holds allowed outcome reply after executed
  exact ⟨(), later, trivial, fun _ _ => trivial, answered⟩

theorem covers_of_jobs {W : Workload M}
    (jobs : ∀ task job, D.Triple W.regime task
      (fun state ghost => D.idle task state ghost ∧ W.ready job state) (W.program job) fun _ => D.idle task) :
    D.Covers W.regime := by
  rintro state ghost task _ ⟨job, ready, rfl⟩ _ idle
  exact jobs task job state ghost ⟨idle, ready⟩

end Discipline

end Program
