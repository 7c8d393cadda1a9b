import CesaConn.Program.Attempt
import CesaConn.Program.Sequential

/-! Executions with a log of what was asked and answered. -/

set_option autoImplicit false

namespace Program

variable {I : Signature} {M : Machine I} {A B : Type} {task : Nat} {drift : M.State → M.State → Prop}

/-- The execution of a program, with its operations and their replies in order. -/
inductive Logs (M : Machine I) (task : Nat) (drift : M.State → M.State → Prop) {A : Type} :
    Proc I A → M.State → List (Event I) → A → M.State → Prop where
  | done {value : A} {state : M.State} : Logs M task drift (.done value) state [] value state
  | call {op : I.Op} {next : I.Reply op → Proc I A} {outcome : M.Outcome} {reply : I.Reply op}
      {state before after last : M.State} {events : List (Event I)} {value : A} :
      drift state before → M.exec task op outcome before = some (reply, after) →
      Logs M task drift (next reply) after events value last →
      Logs M task drift (.call op next) state (⟨op, reply⟩ :: events) value last

variable {program : Proc I A} {state last : M.State} {events : List (Event I)} {value : A}

theorem Logs.executes (logs : Logs M task drift program state events value last) :
    Executes M task drift program state value last := by
  induction logs with
  | done => exact .done
  | call drifted executed _ ih => exact .call drifted executed ih

theorem Executes.logs (execution : Executes M task drift program state value last) :
    ∃ events, Logs M task drift program state events value last := by
  induction execution with
  | done => exact ⟨[], .done⟩
  | call drifted executed _ ih =>
      obtain ⟨events, logs⟩ := ih
      exact ⟨_ :: events, .call drifted executed logs⟩

theorem Logs.of_call {op : I.Op} {next : I.Reply op → Proc I A} (logs : Logs M task drift (.call op next) state events value last) :
    ∃ outcome reply before after rest, events = ⟨op, reply⟩ :: rest ∧ drift state before ∧
      M.exec task op outcome before = some (reply, after) ∧ Logs M task drift (next reply) after rest value last := by
  cases logs with
  | call drifted executed rest => exact ⟨_, _, _, _, _, rfl, drifted, executed, rest⟩

theorem Logs.of_done {result : A} (logs : Logs M task drift (.done result) state events value last) :
    events = [] ∧ value = result ∧ last = state := by
  cases logs
  exact ⟨rfl, rfl, rfl⟩

theorem Logs.of_bind {k : A → Proc I B} {result : B} (whole : Logs M task drift (program >>= k) state events result last) :
    ∃ first rest value middle, events = first ++ rest ∧ Logs M task drift program state first value middle ∧
      Logs M task drift (k value) middle rest result last := by
  induction program generalizing state events with
  | done value => exact ⟨[], events, value, state, rfl, .done, whole⟩
  | call op next ih =>
      obtain ⟨outcome, reply, before, after, rest, rfl, drifted, executed, logs⟩ := whole.of_call
      obtain ⟨first, later, value, middle, rfl, begins, ends⟩ := ih reply logs
      exact ⟨⟨op, reply⟩ :: first, later, value, middle, rfl, .call drifted executed begins, ends⟩

/-- What relates the ends of every log of some operations, by one operation more in front. -/
theorem Logs.relates {P : I.Op → Prop} {relates : M.State → List (Event I) → M.State → Prop} (within : program.All P)
    (none : ∀ state, relates state [] state)
    (more : ∀ op, P op → ∀ state before outcome reply after events last, drift state before →
      M.exec task op outcome before = some (reply, after) → relates after events last →
      relates state (⟨op, reply⟩ :: events) last)
    (logs : Logs M task drift program state events value last) : relates state events last := by
  induction logs with
  | done => exact none _
  | call drifted executed _ ih => exact more _ within.1 _ _ _ _ _ _ _ drifted executed (ih (within.2 _))

end Program
