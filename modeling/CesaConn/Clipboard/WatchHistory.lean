import CesaConn.Clipboard.ClipWatch
import Mathlib.Data.List.TakeDrop

/-! What the watch remembers of the polls before: the last counter, and whether a change
seen with the switch on still waits. -/

set_option autoImplicit false

namespace CesaConn

namespace Clipboard

structure Tick where
  on : Bool
  count : Int
  busy : Bool
  deriving DecidableEq, Repr

/-- The watch after these polls, none of them with a remote write in between. -/
def watched (start : Int) (ticks : List Tick) : ClipWatch :=
  ticks.foldl (fun watch tick => (watch.tick tick.on tick.count tick.busy).2) (.new start)

def decision (start : Int) (ticks : List Tick) (n : Nat) : Option ClipTick :=
  ticks[n]?.map fun tick => ((watched start (ticks.take n)).tick tick.on tick.count tick.busy).1

/-- The counter of the poll before, at first the one the task started with. -/
def countBefore (start : Int) (ticks : List Tick) : Nat → Int
  | 0 => start
  | n + 1 => ticks[n]?.elim start Tick.count

def Noticed (start : Int) (ticks : List Tick) (m : Nat) : Prop :=
  ∃ tick, ticks[m]? = some tick ∧ tick.count ≠ countBefore start ticks m ∧ tick.on = true

/-- The switch stayed on and the counter still, from the poll `m` until before `n`. -/
def Still (ticks : List Tick) (count : Int) (m n : Nat) : Prop :=
  ∀ k tick, m ≤ k → k < n → ticks[k]? = some tick → tick.on = true ∧ tick.count = count

def NoneSent (start : Int) (ticks : List Tick) (m n : Nat) : Prop :=
  ∀ k, m < k → k < n → decision start ticks k ≠ some .send

/-- The change noticed at `m` is sent at `n`: nothing changed since and nothing was sent. -/
structure Answers (start : Int) (ticks : List Tick) (m n : Nat) : Prop where
  later : m < n
  noticed : Noticed start ticks m
  still : ∃ now, ticks[n]? = some now ∧ now.busy = false ∧ Still ticks now.count m (n + 1)
  first : NoneSent start ticks m n

def Waits (start : Int) (ticks : List Tick) (n : Nat) : Prop :=
  ∃ m, m < n ∧ Noticed start ticks m ∧ Still ticks (countBefore start ticks n) m n ∧ NoneSent start ticks m n

theorem countBefore_succ {start : Int} {ticks : List Tick} {n : Nat} {tick : Tick} (here : ticks[n]? = some tick) :
    countBefore start ticks (n + 1) = tick.count := by
  rw [countBefore, here]
  rfl

theorem watched_succ {start : Int} {ticks : List Tick} {n : Nat} {tick : Tick} (here : ticks[n]? = some tick) :
    watched start (ticks.take (n + 1)) =
      ((watched start (ticks.take n)).tick tick.on tick.count tick.busy).2 := by
  rw [List.take_add_one, here, watched, List.foldl_append]
  rfl

theorem decision_eq {start : Int} {ticks : List Tick} {n : Nat} {tick : Tick} (here : ticks[n]? = some tick) :
    decision start ticks n = some ((watched start (ticks.take n)).tick tick.on tick.count tick.busy).1 := by
  rw [decision, here]
  rfl

namespace ClipWatch

theorem tick_send {watch : ClipWatch} {on busy : Bool} {count : Int} :
    (watch.tick on count busy).1 = .send ↔
      count = watch.lastCount ∧ on = true ∧ busy = false ∧ watch.pending = true := by
  obtain ⟨lastCount, pending⟩ := watch
  by_cases same : count = lastCount
  · cases on <;> cases busy <;> cases pending <;> simp [tick, same]
  · simp [tick, same]

theorem tick_lastCount (watch : ClipWatch) (on : Bool) (count : Int) (busy : Bool) :
    (watch.tick on count busy).2.lastCount = count := by
  by_cases same : count = watch.lastCount
  · cases on <;> cases busy <;> cases pending : watch.pending <;> simp [tick, same, pending]
  · simp [tick, same]

theorem tick_changed {watch : ClipWatch} {on busy : Bool} {count : Int} (changed : count ≠ watch.lastCount) :
    (watch.tick on count busy).2.pending = on := by
  simp [tick, changed]

theorem tick_unchanged {watch : ClipWatch} {on busy : Bool} {count : Int} (same : count = watch.lastCount) :
    (watch.tick on count busy).2.pending = true ↔
      watch.pending = true ∧ on = true ∧ (watch.tick on count busy).1 ≠ .send := by
  obtain ⟨lastCount, pending⟩ := watch
  cases on <;> cases busy <;> cases pending <;> simp [tick, same]

end ClipWatch

theorem waits_succ_changed {start : Int} {ticks : List Tick} {n : Nat} {tick : Tick} (here : ticks[n]? = some tick)
    (changed : tick.count ≠ countBefore start ticks n) :
    Waits start ticks (n + 1) ↔ tick.on = true := by
  constructor
  · intro ⟨m, before, _, still, _⟩
    exact (still n tick (by omega) (by omega) here).1
  · intro on
    -- this poll is the one that noticed it
    refine ⟨n, by omega, ⟨tick, here, changed, on⟩, ?_, ?_⟩
    · intro k other low high found
      have same : k = n := by omega
      rw [same, here] at found
      cases found
      exact ⟨on, (countBefore_succ here).symm⟩
    · intro k low high
      omega

theorem waits_succ_unchanged {start : Int} {ticks : List Tick} {n : Nat} {tick : Tick} (here : ticks[n]? = some tick)
    (same : tick.count = countBefore start ticks n) :
    Waits start ticks (n + 1) ↔
      Waits start ticks n ∧ tick.on = true ∧ decision start ticks n ≠ some .send := by
  have count : countBefore start ticks (n + 1) = countBefore start ticks n := (countBefore_succ here).trans same
  constructor
  · intro ⟨m, before, noticed, still, first⟩
    -- it was not noticed here, where nothing changed
    have earlier : m ≠ n := by
      intro equal
      obtain ⟨change, found, changed, _⟩ := noticed
      rw [equal] at found changed
      rw [here] at found
      cases found
      exact changed same
    refine ⟨⟨m, by omega, noticed, ?_, ?_⟩, ?_, ?_⟩
    · intro k other low high found
      rw [← count]
      exact still k other low (by omega) found
    · intro k low high
      exact first k low (by omega)
    · exact (still n tick (by omega) (by omega) here).1
    · exact first n (by omega) (by omega)
  · intro ⟨⟨m, before, noticed, still, first⟩, on, unsent⟩
    refine ⟨m, by omega, noticed, ?_, ?_⟩
    · intro k other low high found
      rw [count]
      by_cases last : k = n
      · rw [last, here] at found
        cases found
        exact ⟨on, same⟩
      · exact still k other low (by omega) found
    · intro k low high
      by_cases last : k = n
      · rwa [last]
      · exact first k low (by omega)

/-- After every prefix: the last counter, and whether a change waits. -/
theorem watched_take {start : Int} {ticks : List Tick} {n : Nat} (within : n ≤ ticks.length) :
    (watched start (ticks.take n)).lastCount = countBefore start ticks n ∧
      ((watched start (ticks.take n)).pending = true ↔ Waits start ticks n) := by
  induction n with
  | zero =>
      constructor
      · rfl
      · constructor
        · intro pending
          cases pending
        · intro ⟨m, before, _⟩
          omega
  | succ n ih =>
      obtain ⟨last, waits⟩ := ih (by omega)
      have here : ticks[n]? = some ticks[n] := List.getElem?_eq_getElem (by omega)
      rw [watched_succ here, countBefore_succ here]
      refine ⟨ClipWatch.tick_lastCount _ _ _ _, ?_⟩
      -- as the code compares: a counter that moved, or the same one again
      by_cases same : ticks[n].count = countBefore start ticks n
      · rw [waits_succ_unchanged here same, ClipWatch.tick_unchanged (same.trans last.symm), waits, decision_eq here]
        simp
      · rw [waits_succ_changed here same, ClipWatch.tick_changed (last ▸ same)]

theorem decision_send {start : Int} {ticks : List Tick} {n : Nat} :
    decision start ticks n = some .send ↔ ∃ m, Answers start ticks m n := by
  cases here : ticks[n]? with
  | none =>
      constructor
      · intro sent
        rw [decision, here] at sent
        cases sent
      · intro ⟨m, answers⟩
        obtain ⟨now, found, _⟩ := answers.still
        rw [here] at found
        cases found
  | some now =>
      have within : n ≤ ticks.length := Nat.le_of_lt (List.getElem?_eq_some_iff.mp here).1
      obtain ⟨last, waits⟩ : (watched start (ticks.take n)).lastCount = countBefore start ticks n ∧
        ((watched start (ticks.take n)).pending = true ↔ Waits start ticks n) := watched_take within
      rw [decision_eq here, Option.some.injEq, ClipWatch.tick_send, last, waits]
      constructor
      · intro ⟨same, on, free, m, before, noticed, still, first⟩
        refine ⟨m, before, noticed, ⟨now, here, free, ?_⟩, first⟩
        intro k tick low high found
        by_cases final : k = n
        · rw [final, here] at found
          cases found
          exact ⟨on, rfl⟩
        · rw [same]
          exact still k tick low (by omega) found
      · intro ⟨m, before, noticed, ⟨other, found, free, still⟩, first⟩
        rw [here] at found
        cases found
        -- the poll before this one is not before the one that noticed the change
        have previous : countBefore start ticks n = now.count := by
          obtain ⟨prior, rfl⟩ : ∃ prior, n = prior + 1 := ⟨n - 1, by omega⟩
          have there : ticks[prior]? = some ticks[prior] := List.getElem?_eq_getElem (by omega)
          rw [countBefore_succ there]
          exact (still prior _ (by omega) (by omega) there).2
        have on := (still n now (by omega) (by omega) here).1
        refine ⟨previous.symm, on, free, m, before, noticed, ?_, first⟩
        intro k tick low high found
        rw [previous]
        exact still k tick low (by omega) found

theorem Answers.unchanged {start : Int} {ticks : List Tick} {m n k : Nat} {tick : Tick}
    (answers : Answers start ticks m n) (low : m < k) (high : k ≤ n) (here : ticks[k]? = some tick) :
    tick.count = countBefore start ticks k := by
  obtain ⟨now, _, _, still⟩ := answers.still
  have within : k < ticks.length := (List.getElem?_eq_some_iff.mp here).1
  obtain ⟨prior, rfl⟩ : ∃ prior, k = prior + 1 := ⟨k - 1, by omega⟩
  have there : ticks[prior]? = some ticks[prior] := List.getElem?_eq_getElem (by omega)
  rw [countBefore_succ there]
  calc tick.count
      = now.count := (still (prior + 1) tick (by omega) (by omega) here).2
    _ = ticks[prior].count := (still prior _ (by omega) (by omega) there).2.symm

theorem Answers.latest {start : Int} {ticks : List Tick} {m n k : Nat} (answers : Answers start ticks m n)
    (noticed : Noticed start ticks k) (before : k ≤ n) : k ≤ m := by
  obtain ⟨tick, here, changed, _⟩ := noticed
  apply Nat.le_of_not_lt
  intro low
  exact changed (answers.unchanged low before here)

theorem Answers.once {start : Int} {ticks : List Tick} {m n n' : Nat} (answers : Answers start ticks m n)
    (again : Answers start ticks m n') : n ≤ n' := by
  apply Nat.le_of_not_lt
  intro low
  exact answers.first n' again.later low (decision_send.mpr ⟨m, again⟩)

theorem noneSent_busy {start : Int} {ticks : List Tick} {m n : Nat}
    (busy : ∀ k tick, m < k → k < n → ticks[k]? = some tick → tick.busy = true) : NoneSent start ticks m n := by
  intro k low high sent
  obtain ⟨_, answers⟩ := decision_send.mp sent
  obtain ⟨now, here, free, _⟩ := answers.still
  rw [busy k now low high here] at free
  cases free

/-- A poll sends exactly if a change noticed earlier is still to be sent and no round runs.
So a change is sent at most once, a poll sends the last change and no older one, and a
change held back by a round goes at the first poll without one. -/
theorem watch_refines_history (start : Int) (ticks : List Tick) :
    (∀ n, decision start ticks n = some .send ↔ ∃ m, Answers start ticks m n) ∧
    (∀ m n n', Answers start ticks m n → Answers start ticks m n' → n = n') ∧
    (∀ m n, Answers start ticks m n → ∀ k, Noticed start ticks k → k ≤ n → k ≤ m) ∧
    ∀ m n now, Noticed start ticks m → m < n → ticks[n]? = some now → Still ticks now.count m (n + 1) →
      (∀ k tick, m < k → k < n → ticks[k]? = some tick → tick.busy = true) → now.busy = false →
      decision start ticks n = some .send := by
  refine ⟨fun n => decision_send, ?_, ?_, ?_⟩
  · intro m n n' answers again
    exact Nat.le_antisymm (answers.once again) (again.once answers)
  · intro m n answers k noticed before
    exact answers.latest noticed before
  · intro m n now noticed later here still busy free
    exact decision_send.mpr ⟨m, later, noticed, ⟨now, here, free, still⟩, noneSent_busy busy⟩

/-- Two copies in a row: the first is not sent, the second waits for a round and goes once. -/
example : (List.range 5).map (decision 10 [⟨true, 11, false⟩, ⟨true, 12, false⟩, ⟨true, 12, true⟩, ⟨true, 12, false⟩,
    ⟨true, 12, false⟩]) = [some .wait, some .wait, some .wait, some .send, some .wait] := by decide

end Clipboard

end CesaConn
