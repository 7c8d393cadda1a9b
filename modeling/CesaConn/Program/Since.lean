import Mathlib.Data.List.Induction

/-! What brought a machine to show what it shows.

A machine takes events, and something of its state is watched. Where a value is shown
that was not shown at the start, one event was the last to bring it up; the events since
have left it there.
-/

set_option autoImplicit false

namespace Program

universe u v w

variable {σ : Type u} {ε : Type v} {α : Type w}

section

variable (step : σ → ε → σ) (start : σ) (see : σ → α) (value : α) (before : List ε) (opening : ε)

/-- The value came up with `opening`, after `before`, and is still there. -/
inductive Since : List ε → Prop where
  | opens (other : see (before.foldl step start) ≠ value)
      (now : see ((before ++ [opening]).foldl step start) = value) : Since []
  | stays {since : List ε} (earlier : Since since) (event : ε)
      (still : see ((before ++ opening :: (since ++ [event])).foldl step start) = value) : Since (since ++ [event])

end

variable {step : σ → ε → σ} {start : σ} {see : σ → α} {value : α} {before since : List ε} {opening : ε}

theorem Since.now (shown : Since step start see value before opening since) :
    see ((before ++ opening :: since).foldl step start) = value := by
  cases shown with
  | opens _ now => exact now
  | stays _ _ still => exact still

/-- A value that is shown came up with some event. -/
theorem exists_since {events : List ε} (other : see start ≠ value) (now : see (events.foldl step start) = value) :
    ∃ before opening since, events = before ++ opening :: since ∧ Since step start see value before opening since := by
  induction events using List.reverseRecOn with
  | nil => exact absurd now other
  | append_singleton events event ih =>
      by_cases earlier : see (events.foldl step start) = value
      · obtain ⟨before, opening, since, rfl, shown⟩ := ih earlier
        refine ⟨before, opening, since ++ [event], by simp, shown.stays event ?_⟩
        rw [List.append_assoc, List.cons_append] at now
        exact now
      · exact ⟨events, event, [], rfl, .opens earlier now⟩

end Program
