import CesaConn.Program.Proc
import Mathlib.Logic.Relation

/-! Any number of tasks over one shared state.

A pool holds the shared state and the rest of every task ever started, in
starting order; a task's position is its identity. One step performs one
operation of one task. An operation is atomic, so the operations of a program
are its atomic sections and the places between them are where tasks interleave.

A discipline is a rely-guarantee argument with auxiliary state. Every task may
rely on `keep` between two of its own operations, and every operation of a task
has to establish the invariant and the `keep` of all other tasks.
-/

set_option autoImplicit false

namespace Program

/-- What the operations do to the shared state. An operation that is blocked, or
that has no such outcome, is `none`. -/
structure Machine (I : Signature) where
  State : Type
  Outcome : Type
  exec : (task : Nat) → (op : I.Op) → Outcome → State → Option (I.Reply op × State)

structure Pool {I : Signature} (M : Machine I) where
  state : M.State
  tasks : List (Proc I Unit)

variable {I : Signature} {M : Machine I}

/-- Which programs may be started in a state, and which operations a task may perform. -/
structure Regime (M : Machine I) where
  starts : M.State → Proc I Unit → Prop
  allows : Nat → I.Op → M.State → Prop

/-- One step, labelled with the task and its operation. A task is started
together with its first operation. -/
inductive Step (R : Regime M) : Pool M → Nat → I.Op → Pool M → Prop where
  | start {state : M.State} {tasks : List (Proc I Unit)} {op : I.Op} {next : I.Reply op → Proc I Unit}
      {outcome : M.Outcome} {reply : I.Reply op} {after : M.State} :
      R.starts state (.call op next) → R.allows tasks.length op state →
      M.exec tasks.length op outcome state = some (reply, after) →
      Step R ⟨state, tasks⟩ tasks.length op ⟨after, tasks ++ [next reply]⟩
  | resume {state : M.State} {tasks : List (Proc I Unit)} {task : Nat} {op : I.Op}
      {next : I.Reply op → Proc I Unit} {outcome : M.Outcome} {reply : I.Reply op} {after : M.State} :
      tasks[task]? = some (.call op next) → R.allows task op state →
      M.exec task op outcome state = some (reply, after) →
      Step R ⟨state, tasks⟩ task op ⟨after, tasks.set task (next reply)⟩

theorem Step.exec {R : Regime M} {first second : Pool M} {task : Nat} {op : I.Op}
    (step : Step R first task op second) :
    R.allows task op first.state ∧ ∃ outcome reply, M.exec task op outcome first.state = some (reply, second.state) := by
  cases step with
  | start _ allowed executed => exact ⟨allowed, _, _, executed⟩
  | resume _ allowed executed => exact ⟨allowed, _, _, executed⟩

/-- Finitely many steps, every one of which performs an operation in `P`. -/
inductive Run (R : Regime M) (P : I.Op → Prop) : Pool M → Pool M → Prop where
  | refl {pool : Pool M} : Run R P pool pool
  | tail {first second third : Pool M} {task : Nat} {op : I.Op} :
      Run R P first second → P op → Step R second task op third → Run R P first third

/-- Reached from an initial state with no task started. -/
def Reachable (R : Regime M) (init : M.State → Prop) (pool : Pool M) : Prop :=
  ∃ state, init state ∧ Run R (fun _ => True) ⟨state, []⟩ pool

/-- No started task has an operation left. -/
def Pool.Quiet (pool : Pool M) : Prop := ∀ task ∈ pool.tasks, ∃ value, task = .done value

instance (program : Proc I Unit) : Decidable (∃ value, program = .done value) :=
  match program with
  | .done value => .isTrue ⟨value, rfl⟩
  | .call _ _ => .isFalse (by rintro ⟨_, same⟩; cases same)

instance (pool : Pool M) : Decidable pool.Quiet := inferInstanceAs (Decidable (∀ _ ∈ _, _))

theorem Run.trans {R : Regime M} {P : I.Op → Prop} {first second third : Pool M}
    (left : Run R P first second) (right : Run R P second third) : Run R P first third := by
  induction right with
  | refl => exact left
  | tail _ member step ih => exact .tail ih member step

/-! ## Workloads and schedules -/

/-- The programs a system starts, named by jobs, when each of them may start, and
which operations are performed. All of it can be evaluated. -/
structure Workload (M : Machine I) where
  Job : Type
  program : Job → Proc I Unit
  ready : Job → M.State → Bool
  allows : Nat → I.Op → M.State → Bool

namespace Workload

variable (W : Workload M)

def regime : Regime M where
  starts state program := ∃ job, W.ready job state ∧ program = W.program job
  allows task op state := W.allows task op state

def unrestricted : Workload M := { W with allows := fun _ _ _ => true }

/-- A scheduling decision: start a job, or let a started task go on. -/
inductive Move where
  | start (job : W.Job) (outcome : M.Outcome)
  | resume (task : Nat) (outcome : M.Outcome)

def advance (task : Nat) (program : Proc I Unit) (outcome : M.Outcome) (state : M.State) :
    Option (Proc I Unit × M.State) :=
  match program with
  | .done _ => none
  | .call op next =>
      if W.allows task op state then
        (M.exec task op outcome state).map fun (reply, after) => (next reply, after)
      else none

def move (pool : Pool M) : W.Move → Option (Pool M)
  | .start job outcome =>
      if W.ready job pool.state then
        (W.advance pool.tasks.length (W.program job) outcome pool.state).map fun (rest, after) =>
          ⟨after, pool.tasks ++ [rest]⟩
      else none
  | .resume task outcome =>
      pool.tasks[task]?.bind fun program =>
        (W.advance task program outcome pool.state).map fun (rest, after) =>
          ⟨after, pool.tasks.set task rest⟩

def play (pool : Pool M) : List W.Move → Option (Pool M)
  | [] => some pool
  | move :: rest => (W.move pool move).bind fun next => play next rest

variable {W}

theorem advance_eq_some {task : Nat} {program rest : Proc I Unit} {outcome : M.Outcome} {state after : M.State}
    (found : W.advance task program outcome state = some (rest, after)) :
    ∃ op next reply, program = .call op next ∧ W.allows task op state ∧
      M.exec task op outcome state = some (reply, after) ∧ rest = next reply := by
  unfold advance at found
  split at found
  · cases found
  · next op next =>
    split at found
    · next allowed =>
      simp only [Option.map_eq_some_iff, Prod.exists, Prod.mk.injEq] at found
      obtain ⟨reply, _, executed, rfl, rfl⟩ := found
      exact ⟨op, next, reply, rfl, allowed, executed, rfl⟩
    · cases found

theorem step_of_move {pool pool' : Pool M} {move : W.Move} (found : W.move pool move = some pool') :
    ∃ task op, Step W.regime pool task op pool' := by
  obtain ⟨state, tasks⟩ := pool
  cases move with
  | start job outcome =>
      simp only [Workload.move] at found
      split at found
      · next ready =>
        simp only [Option.map_eq_some_iff, Prod.exists] at found
        obtain ⟨rest, after, advanced, rfl⟩ := found
        obtain ⟨op, next, reply, same, allowed, executed, rfl⟩ := advance_eq_some advanced
        exact ⟨_, op, .start ⟨job, ready, same.symm⟩ allowed executed⟩
      · cases found
  | resume task outcome =>
      simp only [Workload.move, Option.bind_eq_some_iff, Option.map_eq_some_iff, Prod.exists] at found
      obtain ⟨program, selected, rest, after, advanced, rfl⟩ := found
      obtain ⟨op, next, reply, rfl, allowed, executed, rfl⟩ := advance_eq_some advanced
      exact ⟨task, op, .resume selected allowed executed⟩

theorem run_of_play {pool pool' : Pool M} {moves : List W.Move} (played : W.play pool moves = some pool') :
    Run W.regime (fun _ => True) pool pool' := by
  induction moves generalizing pool with
  | nil =>
      cases played
      exact .refl
  | cons first rest ih =>
      simp only [play, Option.bind_eq_some_iff] at played
      obtain ⟨second, moved, later⟩ := played
      obtain ⟨task, op, step⟩ := step_of_move moved
      exact (Run.tail .refl trivial step).trans (ih later)

/-- Evaluating a schedule is enough to reach a pool with a decidable property. -/
theorem reachable_of_play (state : M.State) (moves : List W.Move) (P : Pool M → Prop) [DecidablePred P]
    {init : M.State → Prop} (start : init state) (played : (W.play ⟨state, []⟩ moves).any (fun pool => P pool)) :
    ∃ pool, Reachable W.regime init pool ∧ P pool := by
  simp only [Option.any_eq_true, decide_eq_true_eq] at played
  obtain ⟨pool, same, holds⟩ := played
  exact ⟨pool, ⟨state, start, run_of_play same⟩, holds⟩

end Workload

/-! ## Disciplines -/

structure Discipline (M : Machine I) (Ghost : Type) where
  inv : M.State → Ghost → Prop
  /-- What a task relies on while it does not run. -/
  keep : Nat → M.State → Ghost → M.State → Ghost → Prop
  /-- What holds of a task that is not in the middle of anything. -/
  idle : Nat → M.State → Ghost → Prop
  /-- What every operation guarantees to an observer outside. -/
  observe : I.Op → M.State → Ghost → M.State → Ghost → Prop
  keep_refl : ∀ task state ghost, keep task state ghost state ghost
  keep_trans : ∀ task state ghost state' ghost' state'' ghost'',
    keep task state ghost state' ghost' → keep task state' ghost' state'' ghost'' →
      keep task state ghost state'' ghost''
  idle_keep : ∀ task state ghost state' ghost',
    keep task state ghost state' ghost' → idle task state ghost → idle task state' ghost'

namespace Discipline

variable {Ghost : Type} {A B : Type} (D : Discipline M Ghost) (R : Regime M)

/-- The rest of a task behaves under the discipline and ends in `post`, whatever
the other tasks do between its operations. -/
def Safe (task : Nat) (post : A → M.State → Ghost → Prop) : Proc I A → M.State → Ghost → Prop
  | .done value, state, ghost => post value state ghost
  | .call op next, state, ghost =>
      ∀ before ghost₁, D.keep task state ghost before ghost₁ → D.inv before ghost₁ →
        R.allows task op before →
        ∀ outcome reply after, M.exec task op outcome before = some (reply, after) →
          ∃ ghost₂, D.inv after ghost₂ ∧ D.observe op before ghost₁ after ghost₂ ∧
            (∀ other, other ≠ task → D.keep other before ghost₁ after ghost₂) ∧
            Safe task post (next reply) after ghost₂

variable {D R}

theorem Safe.mono {task : Nat} {post out : A → M.State → Ghost → Prop} {program : Proc I A}
    {state : M.State} {ghost : Ghost} (safe : D.Safe R task post program state ghost)
    (implies : ∀ value state ghost, post value state ghost → out value state ghost) :
    D.Safe R task out program state ghost := by
  induction program generalizing state ghost with
  | done value => exact implies _ _ _ safe
  | call op next ih =>
      intro before ghost₁ kept holds allowed outcome reply after executed
      obtain ⟨ghost₂, holds', observed, others, rest⟩ :=
        safe before ghost₁ kept holds allowed outcome reply after executed
      exact ⟨ghost₂, holds', observed, others, ih reply rest⟩

theorem Safe.bind {task : Nat} {post : A → M.State → Ghost → Prop} {out : B → M.State → Ghost → Prop}
    {program : Proc I A} {k : A → Proc I B} {state : M.State} {ghost : Ghost}
    (safe : D.Safe R task post program state ghost)
    (rest : ∀ value state ghost, post value state ghost → D.Safe R task out (k value) state ghost) :
    D.Safe R task out (program >>= k) state ghost := by
  induction program generalizing state ghost with
  | done value => exact rest _ _ _ safe
  | call op next ih =>
      intro before ghost₁ kept holds allowed outcome reply after executed
      obtain ⟨ghost₂, holds', observed, others, tail⟩ :=
        safe before ghost₁ kept holds allowed outcome reply after executed
      exact ⟨ghost₂, holds', observed, others, ih reply tail⟩

/-- A task that waits only relies on what it is promised: its proof survives. -/
theorem Safe.keep {task : Nat} {post : A → M.State → Ghost → Prop} {program : Proc I A}
    {state state' : M.State} {ghost ghost' : Ghost}
    (stable : ∀ value state ghost state' ghost', D.keep task state ghost state' ghost' →
      post value state ghost → post value state' ghost')
    (safe : D.Safe R task post program state ghost) (kept : D.keep task state ghost state' ghost') :
    D.Safe R task post program state' ghost' := by
  cases program with
  | done value => exact stable _ _ _ _ _ kept safe
  | call op next =>
      intro before ghost₁ later
      exact safe before ghost₁ (D.keep_trans _ _ _ _ _ _ _ kept later)

def Standing (D : Discipline M Ghost) (R : Regime M) (pool : Pool M) (ghost : Ghost) (task : Nat) : Prop :=
  match pool.tasks[task]? with
  | some program => D.Safe R task (fun _ => D.idle task) program pool.state ghost
  | none => D.idle task pool.state ghost

/-- The invariant holds and every task can still be accounted for. -/
def Sound (D : Discipline M Ghost) (R : Regime M) (pool : Pool M) (ghost : Ghost) : Prop :=
  D.inv pool.state ghost ∧ ∀ task, D.Standing R pool ghost task

/-- Every program the regime may start is safe from an idle task. -/
def Covers (D : Discipline M Ghost) (R : Regime M) : Prop :=
  ∀ state ghost task program, R.starts state program → D.inv state ghost → D.idle task state ghost →
    D.Safe R task (fun _ => D.idle task) program state ghost

theorem Standing.keep {pool : Pool M} {ghost ghost' : Ghost} {task : Nat} {pool' : Pool M}
    (standing : D.Standing R pool ghost task) (same : pool'.tasks[task]? = pool.tasks[task]?)
    (kept : D.keep task pool.state ghost pool'.state ghost') : D.Standing R pool' ghost' task := by
  unfold Standing at standing ⊢
  rw [same]
  cases selected : pool.tasks[task]? with
  | none =>
      rw [selected] at standing
      exact D.idle_keep _ _ _ _ _ kept standing
  | some program =>
      rw [selected] at standing
      exact Safe.keep (fun _ _ _ _ _ later held => D.idle_keep _ _ _ _ _ later held) standing kept

theorem sound_step (covers : D.Covers R) {first second : Pool M} {task : Nat} {op : I.Op} {ghost : Ghost}
    (sound : D.Sound R first ghost) (step : Step R first task op second) :
    ∃ ghost', D.Sound R second ghost' ∧ D.observe op first.state ghost second.state ghost' := by
  obtain ⟨holds, standing⟩ := sound
  cases step with
  | @start state tasks op next outcome reply after begins allowed executed =>
      have idle : D.idle tasks.length state ghost := by
        simpa [Standing] using standing tasks.length
      obtain ⟨ghost', holds', observed, others, rest⟩ :=
        covers state ghost tasks.length _ begins holds idle state ghost (D.keep_refl _ _ _) holds allowed
          outcome reply after executed
      refine ⟨ghost', ⟨holds', fun other => ?_⟩, observed⟩
      by_cases own : other = tasks.length
      · subst own
        simpa [Standing] using rest
      · refine (standing other).keep ?_ (others other own)
        by_cases earlier : other < tasks.length
        · simp [List.getElem?_append, earlier]
        · have beyond : tasks.length < other := by omega
          rw [List.getElem?_eq_none (by simp; omega), List.getElem?_eq_none (by simp; omega)]
  | @resume state tasks _ op next outcome reply after selected allowed executed =>
      have safe : D.Safe R task (fun _ => D.idle task) (.call op next) state ghost := by
        simpa [Standing, selected] using standing task
      obtain ⟨ghost', holds', observed, others, rest⟩ :=
        safe state ghost (D.keep_refl _ _ _) holds allowed outcome reply after executed
      refine ⟨ghost', ⟨holds', fun other => ?_⟩, observed⟩
      by_cases own : other = task
      · subst own
        have bound := (List.getElem?_eq_some_iff.mp selected).1
        simpa [Standing, List.getElem?_set, bound] using rest
      · refine (standing other).keep ?_ (others other own)
        simp [Ne.symm own]

theorem Sound.run (covers : D.Covers R) {P : I.Op → Prop} {first second : Pool M} {ghost : Ghost}
    (sound : D.Sound R first ghost) (run : Run R P first second) : ∃ ghost', D.Sound R second ghost' := by
  induction run with
  | refl => exact ⟨ghost, sound⟩
  | tail _ _ step ih =>
      obtain ⟨before, sound₁⟩ := ih
      obtain ⟨after, sound₂, _⟩ := sound_step covers sound₁ step
      exact ⟨after, sound₂⟩

theorem sound_reachable (covers : D.Covers R) {init : M.State → Prop}
    (start : ∀ state, init state → ∃ ghost, D.inv state ghost ∧ ∀ task, D.idle task state ghost)
    {pool : Pool M} (reached : Reachable R init pool) : ∃ ghost, D.Sound R pool ghost := by
  obtain ⟨state, begins, run⟩ := reached
  obtain ⟨ghost, holds, idle⟩ := start state begins
  have sound : D.Sound R ⟨state, []⟩ ghost := ⟨holds, fun task => by simpa [Standing] using idle task⟩
  exact sound.run covers run

theorem Sound.idle {pool : Pool M} {ghost : Ghost} (sound : D.Sound R pool ghost) {task : Nat}
    (finished : ∀ program, pool.tasks[task]? = some program → ∃ value, program = .done value) :
    D.idle task pool.state ghost := by
  have standing := sound.2 task
  unfold Standing at standing
  cases selected : pool.tasks[task]? with
  | none => rwa [selected] at standing
  | some program =>
      obtain ⟨value, same⟩ := finished program selected
      subst same
      rw [selected] at standing
      exact standing

/-- When every started task has finished, all tasks are idle. -/
theorem Sound.quiet {pool : Pool M} {ghost : Ghost} (sound : D.Sound R pool ghost) (quiet : pool.Quiet) :
    D.inv pool.state ghost ∧ ∀ task, D.idle task pool.state ghost :=
  ⟨sound.1, fun _ => sound.idle fun _ selected => quiet _ (List.mem_of_getElem? selected)⟩

/-- What every operation of a run guarantees, the whole run does. -/
theorem Sound.observed (covers : D.Covers R) {P : I.Op → Prop} (relates : M.State → M.State → Prop)
    (refl : ∀ state, relates state state)
    (trans : ∀ first second third, relates first second → relates second third → relates first third)
    (observes : ∀ op state ghost state' ghost', P op → D.observe op state ghost state' ghost' → relates state state')
    {first second : Pool M} {ghost : Ghost} (sound : D.Sound R first ghost) (run : Run R P first second) :
    relates first.state second.state := by
  suffices both : relates first.state second.state ∧ ∃ ghost', D.Sound R second ghost' from both.1
  induction run with
  | refl => exact ⟨refl _, ghost, sound⟩
  | tail _ member step ih =>
      obtain ⟨before, ghost₁, sound₁⟩ := ih
      obtain ⟨ghost₂, sound₂, observed⟩ := sound_step covers sound₁ step
      exact ⟨trans _ _ _ before (observes _ _ _ _ _ member observed), ghost₂, sound₂⟩

end Discipline

end Program
