import CesaConn.Program.Attempt
import Mathlib.Data.List.Induction

/-! What holds at every point of a run.

A history is everything that was done so far. A rule says what holds of the history
before each operation of a program and at its end, from a history on.
-/

set_option autoImplicit false

namespace Program

variable {I : Signature} {A B E F : Type}

namespace Proc

/-- Every history from this one on satisfies `holds`, and the last one `post`. -/
def Always (holds : List (Event I) → Prop) (post : List (Event I) → A → Prop) : Proc I A → List (Event I) → Prop
  | .done value, past => holds past ∧ post past value
  | .call op next, past => holds past ∧ ∀ reply, (next reply).Always holds post (past ++ [⟨op, reply⟩])

theorem Leads.append {first second : List (Event I)} {p q r : Proc I A} (here : p.Leads first q)
    (there : q.Leads second r) : p.Leads (first ++ second) r := by
  induction here with
  | here p => exact there
  | step _ ih => exact .step (ih there)

theorem leads_answered (reply : (op : I.Op) → I.Reply op) (p : Proc I A) :
    p.Leads (p.answered reply).1 (.done (p.answered reply).2) := by
  induction p with
  | done value => exact .here _
  | call op next ih => exact .step (ih (reply op))

section

variable {holds : List (Event I) → Prop} {post weak : List (Event I) → A → Prop} {p : Proc I A} {past : List (Event I)}

theorem Always.now (always : p.Always holds post past) : holds past := by
  cases p with
  | done value => exact always.1
  | call op next => exact always.1

theorem Always.mono (always : p.Always holds post past) (weaker : ∀ later value, post later value → weak later value) :
    p.Always holds weak past := by
  induction p generalizing past with
  | done value => exact ⟨always.1, weaker past value always.2⟩
  | call op next ih => exact ⟨always.1, fun reply => ih reply (always.2 reply)⟩

theorem Always.strengthen (always : p.Always holds post past) :
    p.Always holds (fun later value => holds later ∧ post later value) past := by
  induction p generalizing past with
  | done value => exact ⟨always.1, always⟩
  | call op next ih => exact ⟨always.1, fun reply => ih reply (always.2 reply)⟩

theorem Always.onwards {first : List (Event I)} (always : p.Always holds post past) (begins : first <+: past) :
    p.Always holds (fun later value => first <+: later ∧ post later value) past := by
  induction p generalizing past with
  | done value => exact ⟨always.1, begins, always.2⟩
  | call op next ih => exact ⟨always.1, fun reply => ih reply (always.2 reply) (begins.trans (List.prefix_append _ _))⟩

theorem Always.bind {mid : List (Event I) → A → Prop} {post : List (Event I) → B → Prop} {k : A → Proc I B}
    (first : p.Always holds mid past) (rest : ∀ value later, mid later value → (k value).Always holds post later) :
    (p >>= k).Always holds post past := by
  induction p generalizing past with
  | done value => exact rest value past first.2
  | call op next ih => exact ⟨first.1, fun reply => ih reply (first.2 reply)⟩

theorem Always.leads {events : List (Event I)} {rest : Proc I A} (always : p.Always holds post past)
    (leads : p.Leads events rest) : rest.Always holds post (past ++ events) := by
  induction leads generalizing past with
  | here p => rwa [List.append_nil]
  | @step op next reply events last later ih =>
      have after := ih (always.2 reply)
      rwa [List.append_assoc] at after

/-- What always holds, holds of every beginning of a run. -/
theorem Always.begins {events : List (Event I)} {rest : Proc I A} (always : p.Always holds post [])
    (leads : p.Leads events rest) : holds events := (always.leads leads).now

end

end Proc

/-- Whatever was done was allowed by what had been done before. -/
def Justified (allowed : List (Event I) → I.Op → Prop) (past : List (Event I)) : Prop :=
  ∀ first event rest, past = first ++ event :: rest → allowed first event.op

section

variable {allowed : List (Event I) → I.Op → Prop} {past : List (Event I)}

theorem justified_nil : Justified allowed [] := by
  intro first event rest same
  cases first <;> cases same

theorem Justified.snoc (justified : Justified allowed past) {op : I.Op} (now : allowed past op) (reply : I.Reply op) :
    Justified allowed (past ++ [⟨op, reply⟩]) := by
  intro first event rest same
  induction rest using List.reverseRecOn with
  | nil =>
      obtain ⟨rfl, last⟩ := List.append_inj' same rfl
      cases last
      exact now
  | append_singleton rest last _ =>
      rw [← List.cons_append, ← List.append_assoc] at same
      exact justified first event rest (List.append_inj' same rfl).1

end

namespace Attempt

variable {holds : List (Event I) → Prop} {past : List (Event I)}

def Either (post : List (Event I) → A → Prop) (failed : List (Event I) → E → Prop) (past : List (Event I)) :
    Except E A → Prop
  | .ok value => post past value
  | .error error => failed past error

/-- `Proc.Always` of an attempt: its errors have a condition of their own. -/
def Always (holds : List (Event I) → Prop) (post : List (Event I) → A → Prop) (failed : List (Event I) → E → Prop)
    (x : Attempt I E A) (past : List (Event I)) : Prop := x.run.Always holds (Either post failed) past

variable {post : List (Event I) → A → Prop} {failed : List (Event I) → E → Prop} {x : Attempt I E A}

theorem Always.mono {weak : List (Event I) → A → Prop} {fails : List (Event I) → E → Prop} (always : x.Always holds post failed past)
    (weaker : ∀ later value, post later value → weak later value)
    (more : ∀ later error, failed later error → fails later error) : x.Always holds weak fails past := by
  refine Proc.Always.mono (p := x.run) always ?_
  intro later result outcome
  cases result with
  | ok value => exact weaker later value outcome
  | error error => exact more later error outcome

theorem Always.bind {after : List (Event I) → B → Prop} {f : A → Attempt I E B} (first : x.Always holds post failed past)
    (rest : ∀ value later, post later value → (f value).Always holds after failed later) :
    (x >>= f).Always holds after failed past := by
  rw [Always, run_bind]
  refine Proc.Always.bind (Proc.Always.strengthen first) ?_
  intro result later outcome
  cases result with
  | ok value => exact rest value later outcome.2
  | error error => exact outcome

theorem always_pure {value : A} (now : holds past) (result : post past value) :
    (pure value : Attempt I E A).Always holds post failed past := ⟨now, result⟩

theorem always_perform {op : I.Op} {post : List (Event I) → I.Reply op → Prop} (now : holds past)
    (after : ∀ reply, holds (past ++ [⟨op, reply⟩]) ∧ post (past ++ [⟨op, reply⟩]) reply) :
    (perform op : Attempt I E _).Always holds post failed past :=
  ⟨now, fun reply => after reply⟩

theorem always_ensure {condition : Bool} {error : E} {post : List (Event I) → Unit → Prop} (now : holds past)
    (yes : condition = true → post past ()) (no : condition = false → failed past error) :
    (ensure condition error : Attempt I E Unit).Always holds post failed past := by
  cases condition with
  | true => exact ⟨now, yes rfl⟩
  | false => exact ⟨now, no rfl⟩

theorem always_perform_bind {op : I.Op} {f : I.Reply op → Attempt I E A} (now : holds past)
    (rest : ∀ reply, (f reply).Always holds post failed (past ++ [⟨op, reply⟩])) :
    (perform op >>= f).Always holds post failed past := ⟨now, rest⟩

theorem always_require_bind {value : Option B} {error : E} {f : B → Attempt I E A} (now : holds past)
    (none : value = none → failed past error) (some : ∀ found, value = some found → (f found).Always holds post failed past) :
    (require value error >>= f).Always holds post failed past := by
  cases value with
  | none => exact ⟨now, none rfl⟩
  | some value => exact some value rfl

theorem always_ensure_bind {condition : Bool} {error : E} {f : Unit → Attempt I E A} (now : holds past)
    (no : condition = false → failed past error) (yes : condition = true → (f ()).Always holds post failed past) :
    (ensure condition error >>= f).Always holds post failed past := by
  cases condition with
  | false => exact ⟨now, no rfl⟩
  | true => exact yes rfl

theorem always_outcome {failed : List (Event I) → F → Prop} {post : List (Event I) → Except E A → Prop}
    (always : x.run.Always holds post past) : (outcome x : Attempt I F _).Always holds post failed past := by
  have returned : ∀ result later, holds later ∧ post later result →
      Proc.Always holds (Either post failed) (.done (Except.ok result)) later := fun _ _ after => after
  exact Proc.Always.bind (Proc.Always.strengthen always) returned

end Attempt

end Program
