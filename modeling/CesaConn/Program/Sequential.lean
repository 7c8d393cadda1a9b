import CesaConn.Program.Pool

/-! One program from its first operation to its result.

Between two operations the state drifts: whatever the other tasks may do to it
there. The rules are those of pre- and postconditions; an assertion that is held
across an operation has to survive the drift before it.
-/

set_option autoImplicit false

namespace Program

variable {I : Signature} {M : Machine I} {A B : Type}

/-- The machine on which only some outcomes come up. -/
def Machine.restrict (M : Machine I) (allowed : I.Op → M.Outcome → M.State → Bool) : Machine I where
  State := M.State
  Outcome := M.Outcome
  exec task op outcome state := if allowed op outcome state then M.exec task op outcome state else none

theorem Machine.exec_restrict {allowed : I.Op → M.Outcome → M.State → Bool} {task : Nat} {op : I.Op}
    {outcome : M.Outcome} {before : M.State} (possible : allowed op outcome before) :
    (M.restrict allowed).exec task op outcome before = M.exec task op outcome before :=
  if_pos possible

theorem Machine.exec_of_restrict {allowed : I.Op → M.Outcome → M.State → Bool} {task : Nat} {op : I.Op}
    {outcome : M.Outcome} {before : M.State} {result : I.Reply op × M.State}
    (executed : (M.restrict allowed).exec task op outcome before = some result) :
    allowed op outcome before ∧ M.exec task op outcome before = some result :=
  Option.ite_none_right_eq_some.mp executed

/-- The program runs from a state to its result, and to the state its last operation leaves. -/
inductive Executes (M : Machine I) (task : Nat) (drift : M.State → M.State → Prop) {A : Type} :
    Proc I A → M.State → A → M.State → Prop where
  | done {value : A} {state : M.State} : Executes M task drift (.done value) state value state
  | call {op : I.Op} {next : I.Reply op → Proc I A} {outcome : M.Outcome} {reply : I.Reply op}
      {state before after last : M.State} {value : A} :
      drift state before → M.exec task op outcome before = some (reply, after) →
      Executes M task drift (next reply) after value last → Executes M task drift (.call op next) state value last

variable {task : Nat} {drift : M.State → M.State → Prop}

theorem Executes.of_bind {program : Proc I A} {k : A → Proc I B} {state last : M.State} {result : B}
    (whole : Executes M task drift (program >>= k) state result last) :
    ∃ value middle, Executes M task drift program state value middle ∧
      Executes M task drift (k value) middle result last := by
  induction program generalizing state with
  | done value => exact ⟨value, state, .done, whole⟩
  | call op next ih =>
      cases whole with
      | call drifted executed rest =>
          obtain ⟨value, middle, first, later⟩ := ih _ rest
          exact ⟨value, middle, .call drifted executed first, later⟩

theorem Executes.restrict {program : Proc I A} {state last : M.State} {value : A}
    (execution : Executes M task drift program state value last) :
    Executes (M.restrict fun _ _ _ => true) task drift program state value last := by
  induction execution with
  | done => exact .done
  | call drifted executed _ ih => exact .call drifted ((Machine.exec_restrict rfl).trans executed) ih

theorem Executes.of_restrict {allowed : I.Op → M.Outcome → M.State → Bool} {program : Proc I A}
    {state last : (M.restrict allowed).State} {drift : (M.restrict allowed).State → (M.restrict allowed).State → Prop}
    {value : A} (execution : Executes (M.restrict allowed) task drift program state value last) :
    Executes M task drift program state value last := by
  induction execution with
  | done => exact .done
  | call drifted executed _ ih => exact .call (M := M) drifted (Machine.exec_of_restrict executed).2 ih

theorem Executes.drifts {more : M.State → M.State → Prop} (allows : ∀ state state', drift state state' → more state state')
    {program : Proc I A} {state last : M.State} {value : A}
    (execution : Executes M task drift program state value last) : Executes M task more program state value last := by
  induction execution with
  | done => exact .done
  | call drifted executed _ ih => exact .call (allows _ _ drifted) executed ih

theorem Executes.exists {P : I.Op → Prop} {program : Proc I A} (within : program.All P)
    (total : ∀ op, P op → ∀ state, ∃ outcome reply after, M.exec task op outcome state = some (reply, after))
    (still : ∀ state, drift state state) (state : M.State) :
    ∃ value last, Executes M task drift program state value last := by
  induction program generalizing state with
  | done value => exact ⟨value, state, .done⟩
  | call op next ih =>
      obtain ⟨outcome, reply, after, executed⟩ := total op within.1 state
      obtain ⟨value, last, rest⟩ := ih reply (within.2 reply) after
      exact ⟨value, last, .call (still state) executed rest⟩

def Machine.plays (M : Machine I) (task : Nat) : List M.Outcome → Proc I A → M.State → Option (A × M.State)
  | [], .done value, state => some (value, state)
  | outcome :: rest, .call op next, state =>
      (M.exec task op outcome state).bind fun (reply, after) => M.plays task rest (next reply) after
  | _, _, _ => none

theorem executes_of_played (still : ∀ state, drift state state) {outcomes : List M.Outcome} {program : Proc I A}
    {state last : M.State} {value : A} (played : M.plays task outcomes program state = some (value, last)) :
    Executes M task drift program state value last := by
  induction outcomes generalizing program state with
  | nil =>
      cases program with
      | done value =>
          cases played
          exact .done
      | call op next => cases played
  | cons outcome rest ih =>
      cases program with
      | done value => cases played
      | call op next =>
          obtain ⟨⟨reply, after⟩, executed, later⟩ := Option.bind_eq_some_iff.mp played
          exact .call (still state) executed (ih later)

/-- Evaluating the outcomes is enough to have an execution with a decidable property. -/
theorem executes_of_plays (still : ∀ state, drift state state) (outcomes : List M.Outcome) {program : Proc I A}
    {state : M.State} {P : A → M.State → Prop} [∀ value last, Decidable (P value last)]
    (played : (M.plays task outcomes program state).any fun (value, last) => P value last) :
    ∃ value last, Executes M task drift program state value last ∧ P value last := by
  obtain ⟨⟨value, last⟩, ends, holds⟩ := (Option.any_eq_true _ _).mp played
  exact ⟨value, last, executes_of_played still ends, of_decide_eq_true holds⟩

/-- Every execution from where `pre` holds ends where `post` does. -/
def Ensures (M : Machine I) (task : Nat) (drift : M.State → M.State → Prop) (pre : M.State → Prop)
    (program : Proc I A) (post : A → M.State → Prop) : Prop :=
  ∀ state value last, pre state → Executes M task drift program state value last → post value last

theorem ensures_done {pre : M.State → Prop} {post : A → M.State → Prop} {value : A}
    (holds : ∀ state, pre state → post value state) : Ensures M task drift pre (.done value) post := by
  intro state result last held execution
  cases execution
  exact holds state held

theorem ensures_bind {pre : M.State → Prop} {program : Proc I A} {k : A → Proc I B}
    {mid : A → M.State → Prop} {post : B → M.State → Prop} (first : Ensures M task drift pre program mid)
    (rest : ∀ value, Ensures M task drift (mid value) (k value) post) :
    Ensures M task drift pre (program >>= k) post := by
  intro state result last held execution
  obtain ⟨value, middle, before, after⟩ := execution.of_bind
  exact rest value middle result last (first state value middle held before) after

theorem ensures_mono {pre : M.State → Prop} {program : Proc I A} {post weak : A → M.State → Prop}
    (ensures : Ensures M task drift pre program post)
    (weaker : ∀ value state, post value state → weak value state) : Ensures M task drift pre program weak :=
  fun state value last held execution => weaker value last (ensures state value last held execution)

theorem ensures_pre {pre strong : M.State → Prop} {program : Proc I A} {post : A → M.State → Prop}
    (ensures : Ensures M task drift pre program post) (stronger : ∀ state, strong state → pre state) :
    Ensures M task drift strong program post :=
  fun state value last held execution => ensures state value last (stronger state held) execution

theorem ensures_call {pre : M.State → Prop} {op : I.Op} {post : I.Reply op → M.State → Prop}
    (stable : ∀ state before, drift state before → pre state → pre before)
    (effect : ∀ before outcome reply after, pre before → M.exec task op outcome before = some (reply, after) →
      post reply after) : Ensures M task drift pre (.call op .done) post := by
  intro state value last held execution
  cases execution with
  | call drifted executed rest =>
      cases rest
      exact effect _ _ _ _ (stable _ _ drifted held) executed

theorem ensures_all {holds : M.State → Prop} {P : I.Op → Prop} {program : Proc I A} (within : program.All P)
    (stable : ∀ state before, drift state before → holds state → holds before)
    (keeps : ∀ op, P op → ∀ before outcome reply after, holds before →
      M.exec task op outcome before = some (reply, after) → holds after) :
    Ensures M task drift holds program fun _ => holds := by
  intro state value last held execution
  induction execution with
  | done => exact held
  | call drifted executed _ ih =>
      exact ih (within.2 _) (keeps _ within.1 _ _ _ _ (stable _ _ drifted held) executed)

end Program
