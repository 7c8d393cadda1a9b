import CesaConn.Program.Triple

/-! Runs with a record of what every task did.

A record lists the moments of a run, oldest first: the task, the job it was
started for, its operation, and the state before and after. A discipline under
which every job shows what it is expected to show accounts for the whole record.
-/

set_option autoImplicit false

namespace Program

variable {I : Signature} {M : Machine I}

/-! ## Tasks and their jobs -/

def Assigned {J T : Type} (jobs : List J) (tasks : List T) (Q : Nat → T → J → Prop) : Prop :=
  ∀ task program job, tasks[task]? = some program → jobs[task]? = some job → Q task program job

section Assigned

variable {J T : Type} {jobs : List J} {tasks : List T} {Q Q' : Nat → T → J → Prop} {program : T} {job : J}

theorem Assigned.concat (assigned : Assigned jobs tasks Q) (length : jobs.length = tasks.length)
    (keeps : ∀ other program job, other < tasks.length → Q other program job → Q' other program job)
    (last : Q' tasks.length program job) : Assigned (jobs ++ [job]) (tasks ++ [program]) Q' := by
  intro task found found' selected named
  have bound := (List.getElem?_eq_some_iff.mp selected).1
  simp only [List.length_append, List.length_cons, List.length_nil] at bound
  by_cases own : task = tasks.length
  · subst own
    rw [List.getElem?_append_right (Nat.le_refl _), Nat.sub_self] at selected
    rw [List.getElem?_append_right (by omega), length, Nat.sub_self] at named
    cases selected
    cases named
    exact last
  · have earlier : task < tasks.length := by omega
    rw [List.getElem?_append_left earlier] at selected
    rw [List.getElem?_append_left (by omega)] at named
    exact keeps task found found' earlier (assigned task found found' selected named)

theorem Assigned.set {task : Nat} (assigned : Assigned jobs tasks Q) (named : jobs[task]? = some job)
    (keeps : ∀ other program job, other ≠ task → Q other program job → Q' other program job)
    (new : Q' task program job) : Assigned jobs (tasks.set task program) Q' := by
  intro other found found' selected named'
  by_cases own : other = task
  · subst own
    rw [List.getElem?_set_self (by simpa using (List.getElem?_eq_some_iff.mp selected).1)] at selected
    cases selected
    cases named.symm.trans named'
    exact new
  · rw [List.getElem?_set_ne (Ne.symm own)] at selected
    exact keeps other found found' own (assigned other found found' selected named')

end Assigned

/-! ## Records -/

structure Moment (W : Workload M) where
  task : Nat
  job : W.Job
  op : I.Op
  before : M.State
  after : M.State

/-- A run from an initial state, with the jobs of its tasks and its moments. -/
inductive Recorded (W : Workload M) (init : M.State → Prop) :
    List W.Job → List (Moment W) → Pool M → Prop where
  | init {state : M.State} : init state → Recorded W init [] [] ⟨state, []⟩
  | start {jobs : List W.Job} {moments : List (Moment W)} {state after : M.State} {tasks : List (Proc I Unit)}
      {job : W.Job} {op : I.Op} {next : I.Reply op → Proc I Unit} {outcome : M.Outcome} {reply : I.Reply op} :
      Recorded W init jobs moments ⟨state, tasks⟩ → W.ready job state → W.program job = .call op next →
      W.allows tasks.length op state → M.exec tasks.length op outcome state = some (reply, after) →
      Recorded W init (jobs ++ [job]) (moments ++ [⟨tasks.length, job, op, state, after⟩])
        ⟨after, tasks ++ [next reply]⟩
  | resume {jobs : List W.Job} {moments : List (Moment W)} {state after : M.State} {tasks : List (Proc I Unit)}
      {task : Nat} {job : W.Job} {op : I.Op} {next : I.Reply op → Proc I Unit} {outcome : M.Outcome}
      {reply : I.Reply op} :
      Recorded W init jobs moments ⟨state, tasks⟩ → tasks[task]? = some (.call op next) → jobs[task]? = some job →
      W.allows task op state → M.exec task op outcome state = some (reply, after) →
      Recorded W init jobs (moments ++ [⟨task, job, op, state, after⟩]) ⟨after, tasks.set task (next reply)⟩

namespace Recorded

variable {W : Workload M} {init : M.State → Prop} {jobs : List W.Job} {moments : List (Moment W)} {pool : Pool M}

theorem length_jobs (recorded : Recorded W init jobs moments pool) : jobs.length = pool.tasks.length := by
  induction recorded with
  | init _ => rfl
  | start _ _ _ _ _ ih => simpa using ih
  | resume _ _ _ _ _ ih => simpa using ih

theorem job_of_task (recorded : Recorded W init jobs moments pool) :
    ∀ moment ∈ moments, jobs[moment.task]? = some moment.job := by
  induction recorded with
  | init _ => simp
  | @start jobs moments state after tasks job op next outcome reply recorded _ _ _ _ ih =>
      have length : jobs.length = tasks.length := recorded.length_jobs
      intro moment member
      rcases List.mem_append.mp member with earlier | last
      · have found := ih moment earlier
        have bound := (List.getElem?_eq_some_iff.mp found).1
        rw [List.getElem?_append_left bound]
        exact found
      · cases List.mem_singleton.mp last
        simp [← length]
  | resume _ _ named _ _ ih =>
      intro moment member
      rcases List.mem_append.mp member with earlier | last
      · exact ih moment earlier
      · cases List.mem_singleton.mp last
        exact named

theorem within (recorded : Recorded W init jobs moments pool) {P : W.Job → I.Op → Prop}
    (all : ∀ job, (W.program job).All (P job)) : ∀ moment ∈ moments, P moment.job moment.op := by
  suffices both : Assigned jobs pool.tasks (fun _ program job => program.All (P job)) ∧
      ∀ moment ∈ moments, P moment.job moment.op from both.2
  induction recorded with
  | init _ => simp [Assigned]
  | @start jobs moments state after tasks job op next outcome reply recorded _ program _ _ ih =>
      have first : P job op ∧ ∀ reply, (next reply).All (P job) := by
        have whole := all job
        rw [program] at whole
        exact whole
      refine ⟨ih.1.concat recorded.length_jobs (fun _ _ _ _ rest => rest) (first.2 reply), fun moment member => ?_⟩
      rcases List.mem_append.mp member with earlier | last
      · exact ih.2 moment earlier
      · cases List.mem_singleton.mp last
        exact first.1
  | @resume jobs moments state after tasks task job op next outcome reply recorded selected named _ _ ih =>
      have first : P job op ∧ ∀ reply, (next reply).All (P job) := ih.1 task _ job selected named
      refine ⟨ih.1.set named (fun _ _ _ _ rest => rest) (first.2 reply), fun moment member => ?_⟩
      rcases List.mem_append.mp member with earlier | last
      · exact ih.2 moment earlier
      · cases List.mem_singleton.mp last
        exact first.1

/-- What the operations carry on, in order, the record has. -/
theorem along (recorded : Recorded W init jobs moments pool) (P : List (Moment W) → M.State → Prop)
    (start : ∀ state, init state → P [] state)
    (step : ∀ moments moment outcome reply, P moments moment.before →
      M.exec moment.task moment.op outcome moment.before = some (reply, moment.after) →
      P (moments ++ [moment]) moment.after) : P moments pool.state := by
  induction recorded with
  | init begins => exact start _ begins
  | start _ _ _ _ executed ih => exact step _ ⟨_, _, _, _, _⟩ _ _ ih executed
  | resume _ _ _ _ executed ih => exact step _ ⟨_, _, _, _, _⟩ _ _ ih executed

theorem executed (recorded : Recorded W init jobs moments pool) {moment : Moment W} (member : moment ∈ moments) :
    ∃ outcome reply, M.exec moment.task moment.op outcome moment.before = some (reply, moment.after) := by
  apply recorded.along (fun moments _ => ∀ moment ∈ moments, ∃ outcome reply,
    M.exec moment.task moment.op outcome moment.before = some (reply, moment.after)) _ _ moment member
  · intro state begins moment none
    cases none
  · intro moments last outcome reply before executed moment member
    rcases List.mem_append.mp member with earlier | last
    · exact before moment earlier
    · cases List.mem_singleton.mp last
      exact ⟨outcome, reply, executed⟩

end Recorded

theorem cut_concat {A : Type} {items earlier later : List A} {item last : A}
    (cut : items ++ [last] = earlier ++ item :: later) :
    (earlier = items ∧ item = last ∧ later = []) ∨ ∃ rest, later = rest ++ [last] ∧ items = earlier ++ item :: rest := by
  rcases List.eq_nil_or_concat later with rfl | ⟨rest, end', rfl⟩
  · have ends := List.append_inj' cut rfl
    cases ends.2
    exact .inl ⟨ends.1.symm, rfl, rfl⟩
  · have longer : items ++ [last] = (earlier ++ item :: rest) ++ [end'] := by
      rw [cut]
      simp
    have ends := List.append_inj' longer rfl
    cases ends.2
    exact .inr ⟨rest, by simp, ends.1⟩

section Follows

variable {W : Workload M} {init : M.State → Prop} {jobs : List W.Job} {moments : List (Moment W)} {pool : Pool M}

/-- What holds after a moment and is kept by all later ones holds throughout. -/
theorem Recorded.carries (recorded : Recorded W init jobs moments pool) (holds : M.State → Prop)
    {earlier later : List (Moment W)} {first : Moment W} (cut : moments = earlier ++ first :: later)
    (starts : holds first.after) (keeps : ∀ moment ∈ later, holds moment.before → holds moment.after) :
    (∀ moment ∈ later, holds moment.before) ∧ holds pool.state := by
  apply recorded.along (fun moments state => ∀ later, moments = earlier ++ first :: later →
    (∀ moment ∈ later, holds moment.before → holds moment.after) →
    (∀ moment ∈ later, holds moment.before) ∧ holds state) _ _ later cut keeps
  · intro state begins later cut
    simp at cut
  · intro moments last outcome reply before executed later cut keeps
    rcases cut_concat cut with ⟨rfl, rfl, rfl⟩ | ⟨rest, rfl, rfl⟩
    · exact ⟨by simp, starts⟩
    · obtain ⟨between, reached⟩ := before rest rfl fun moment member => keeps moment (List.mem_append_left _ member)
      refine ⟨fun moment member => ?_, keeps last (by simp) reached⟩
      rcases List.mem_append.mp member with inside | final
      · exact between moment inside
      · cases List.mem_singleton.mp final
        exact reached

/-- A preorder that every operation respects leads from each moment to all later ones. -/
theorem Recorded.follows (recorded : Recorded W init jobs moments pool) (relates : M.State → M.State → Prop)
    (refl : ∀ state, relates state state)
    (trans : ∀ first second third, relates first second → relates second third → relates first third)
    (respects : ∀ task op outcome before reply after, M.exec task op outcome before = some (reply, after) →
      relates before after)
    {earlier later : List (Moment W)} {first : Moment W} (cut : moments = earlier ++ first :: later) :
    (∀ second ∈ later, relates first.after second.before) ∧ relates first.after pool.state := by
  apply recorded.carries (relates first.after) cut (refl first.after)
  intro moment member reached
  obtain ⟨outcome, reply, executed⟩ := recorded.executed (by simp [cut, member] : moment ∈ moments)
  exact trans _ _ _ reached (respects _ _ _ _ _ _ executed)

end Follows

/-- Every run has a record. -/
theorem Reachable.recorded {W : Workload M} {init : M.State → Prop} {pool : Pool M}
    (reached : Reachable W.regime init pool) : ∃ jobs moments, Recorded W init jobs moments pool := by
  obtain ⟨state, begins, run⟩ := reached
  induction run with
  | refl => exact ⟨[], [], .init begins⟩
  | tail _ _ step ih =>
      obtain ⟨jobs, moments, recorded⟩ := ih
      cases step with
      | start starts allowed executed =>
          obtain ⟨job, ready, program⟩ := starts
          exact ⟨_, _, .start recorded ready program.symm allowed executed⟩
      | resume selected allowed executed =>
          have bound := (List.getElem?_eq_some_iff.mp selected).1
          rw [← recorded.length_jobs] at bound
          exact ⟨_, _, .resume recorded selected (List.getElem?_eq_getElem bound) allowed executed⟩

/-! ## Accounts -/

section Accounts

variable {Ghost : Type} {W : Workload M}

/-- The same discipline with something else to show. -/
def Discipline.showing (D : Discipline M Ghost) (observe : I.Op → M.State → Ghost → M.State → Ghost → Prop) :
    Discipline M Ghost :=
  { D with observe }

/-- What a task that was started for a job shows. -/
abbrev Discipline.forJob (D : Discipline M Ghost) (shows : Moment W → Ghost → Ghost → Prop) (task : Nat)
    (job : W.Job) : Discipline M Ghost :=
  D.showing fun op before ghost after ghost' => shows ⟨task, job, op, before, after⟩ ghost ghost'

/-- Every job, started idle, shows what it should and ends idle. -/
def Discipline.Accounts (D : Discipline M Ghost) (W : Workload M) (shows : Moment W → Ghost → Ghost → Prop) : Prop :=
  ∀ task job, (D.forJob shows task job).Triple W.regime task
    (fun state ghost => D.idle task state ghost ∧ W.ready job state) (W.program job) fun _ => D.idle task

variable {D : Discipline M Ghost} {shows : Moment W → Ghost → Ghost → Prop}

def Posted (D : Discipline M Ghost) (shows : Moment W → Ghost → Ghost → Prop) (jobs : List W.Job) (pool : Pool M)
    (ghost : Ghost) : Prop :=
  Assigned jobs pool.tasks (fun task program job =>
    (D.forJob shows task job).Safe W.regime task (fun _ => D.idle task) program pool.state ghost) ∧
  ∀ task, pool.tasks.length ≤ task → D.idle task pool.state ghost

theorem Posted.safe_keep {task : Nat} {job : W.Job} {program : Proc I Unit} {state state' : M.State}
    {ghost ghost' : Ghost}
    (safe : (D.forJob shows task job).Safe W.regime task (fun _ => D.idle task) program state ghost)
    (kept : D.keep task state ghost state' ghost') :
    (D.forJob shows task job).Safe W.regime task (fun _ => D.idle task) program state' ghost' :=
  Discipline.Safe.keep (fun _ _ _ _ _ later held => D.idle_keep _ _ _ _ _ later held) safe kept

theorem Posted.start {jobs : List W.Job} {state after : M.State} {tasks : List (Proc I Unit)} {job : W.Job}
    {program : Proc I Unit} {ghost ghost' : Ghost} (posted : Posted D shows jobs ⟨state, tasks⟩ ghost)
    (length : jobs.length = tasks.length)
    (others : ∀ other, other ≠ tasks.length → D.keep other state ghost after ghost')
    (rest : (D.forJob shows tasks.length job).Safe W.regime tasks.length (fun _ => D.idle tasks.length) program after
      ghost') : Posted D shows (jobs ++ [job]) ⟨after, tasks ++ [program]⟩ ghost' := by
  constructor
  · refine posted.1.concat length (fun other program job earlier safe => ?_) rest
    exact safe_keep safe (others other (Nat.ne_of_lt earlier))
  · intro task beyond
    simp only [List.length_append, List.length_cons, List.length_nil] at beyond
    exact D.idle_keep _ _ _ _ _ (others task (by omega)) (posted.2 task (by simp only; omega))

theorem Posted.resume {jobs : List W.Job} {state after : M.State} {tasks : List (Proc I Unit)} {job : W.Job}
    {program : Proc I Unit} {task : Nat} {ghost ghost' : Ghost} (posted : Posted D shows jobs ⟨state, tasks⟩ ghost)
    (named : jobs[task]? = some job) (bound : task < tasks.length)
    (others : ∀ other, other ≠ task → D.keep other state ghost after ghost')
    (rest : (D.forJob shows task job).Safe W.regime task (fun _ => D.idle task) program after ghost') :
    Posted D shows jobs ⟨after, tasks.set task program⟩ ghost' := by
  constructor
  · refine posted.1.set named (fun other program job different safe => ?_) rest
    exact safe_keep safe (others other different)
  · intro other beyond
    simp only [List.length_set] at beyond
    exact D.idle_keep _ _ _ _ _ (others other (by omega)) (posted.2 other beyond)

theorem Recorded.account {init : M.State → Prop} {jobs : List W.Job} {moments : List (Moment W)} {pool : Pool M}
    (accounts : D.Accounts W shows) (P : List (Moment W) → M.State → Ghost → Prop)
    (start : ∀ state, init state →
      ∃ ghost, D.inv state ghost ∧ (∀ task, D.idle task state ghost) ∧ P [] state ghost)
    (step : ∀ moments moment ghost ghost', P moments moment.before ghost → D.inv moment.before ghost →
      D.inv moment.after ghost' → shows moment ghost ghost' → P (moments ++ [moment]) moment.after ghost')
    (recorded : Recorded W init jobs moments pool) :
    ∃ ghost, D.inv pool.state ghost ∧ Posted D shows jobs pool ghost ∧ P moments pool.state ghost := by
  induction recorded with
  | @init state begins =>
      obtain ⟨ghost, holds, idle, empty⟩ := start state begins
      exact ⟨ghost, holds, ⟨by simp [Assigned], fun task _ => idle task⟩, empty⟩
  | @start jobs moments state after tasks job op next outcome reply recorded ready program allowed executed ih =>
      obtain ⟨ghost, holds, posted, before⟩ := ih
      have safe := accounts tasks.length job state ghost ⟨posted.2 _ (Nat.le_refl _), ready⟩
      rw [program] at safe
      obtain ⟨ghost', holds', shown, others, rest⟩ :=
        safe state ghost (D.keep_refl _ _ _) holds allowed outcome reply after executed
      exact ⟨ghost', holds', posted.start recorded.length_jobs others rest,
        step moments ⟨_, _, _, _, _⟩ ghost ghost' before holds holds' shown⟩
  | @resume jobs moments state after tasks task job op next outcome reply recorded selected named allowed executed ih =>
      obtain ⟨ghost, holds, posted, before⟩ := ih
      have safe := posted.1 task _ job selected named
      obtain ⟨ghost', holds', shown, others, rest⟩ :=
        safe state ghost (D.keep_refl _ _ _) holds allowed outcome reply after executed
      have bound := (List.getElem?_eq_some_iff.mp selected).1
      exact ⟨ghost', holds', posted.resume named bound others rest,
        step moments ⟨_, _, _, _, _⟩ ghost ghost' before holds holds' shown⟩

/-- Every moment of a record has shown what it should. -/
theorem Recorded.shown {init : M.State → Prop} {jobs : List W.Job} {moments : List (Moment W)} {pool : Pool M}
    (accounts : D.Accounts W shows)
    (start : ∀ state, init state → ∃ ghost, D.inv state ghost ∧ ∀ task, D.idle task state ghost)
    (recorded : Recorded W init jobs moments pool) :
    ∀ moment ∈ moments, ∃ ghost ghost', shows moment ghost ghost' := by
  obtain ⟨-, -, -, all⟩ := recorded.account accounts
    (fun moments _ _ => ∀ moment ∈ moments, ∃ ghost ghost', shows moment ghost ghost')
    (fun state begins => by
      obtain ⟨ghost, holds, idle⟩ := start state begins
      exact ⟨ghost, holds, idle, by simp⟩)
    (fun moments last ghost ghost' before _ _ shown moment member => by
      rcases List.mem_append.mp member with earlier | final
      · exact before moment earlier
      · cases List.mem_singleton.mp final
        exact ⟨ghost, ghost', shown⟩)
  exact all

end Accounts

end Program
