import Mathlib.Data.Finset.Card
import Mathlib.Data.Finset.Dedup

/-! The first entries of a list, one a key and not too many.

Entries come one after another. An entry is kept unless one of its key has been
kept before or the list is full. What is kept of a list can be told from the list:
an entry is kept if it is the first of its key and few keys come before it.
-/

set_option autoImplicit false

namespace Program

variable {A K : Type} [DecidableEq K] (key : A → K) (cap : Nat)

def collect (kept : List A) (entry : A) : List A :=
  if key entry ∈ kept.map key ∨ cap ≤ kept.length then kept else kept ++ [entry]

def collected (entries : List A) : List A := entries.foldl (collect key cap) []

/-- No entry before has its key, and the keys before leave room. -/
def Leads (before : List A) (entry : A) : Prop :=
  (∀ earlier ∈ before, key earlier ≠ key entry) ∧ (before.map key).toFinset.card < cap

theorem collected_concat (entries : List A) (entry : A) :
    collected key cap (entries ++ [entry]) = collect key cap (collected key cap entries) entry := by
  simp [collected]

variable {key cap}

theorem collected_subset (entries : List A) : ∀ entry ∈ collected key cap entries, entry ∈ entries := by
  induction entries using List.reverseRecOn with
  | nil => exact fun _ member => member
  | append_singleton entries last ih =>
      intro entry member
      rw [collected_concat, collect] at member
      split at member
      · exact List.mem_append_left _ (ih entry member)
      · rw [List.mem_append, List.mem_singleton] at member
        obtain old | rfl := member
        · exact List.mem_append_left _ (ih entry old)
        · exact List.mem_append_right _ (List.mem_singleton_self _)

theorem nodup_collected (entries : List A) : ((collected key cap entries).map key).Nodup := by
  induction entries using List.reverseRecOn with
  | nil => exact List.nodup_nil
  | append_singleton entries last ih =>
      rw [collected_concat, collect]
      split
      · exact ih
      · next new =>
        rw [List.map_append, List.nodup_append]
        refine ⟨ih, List.nodup_singleton _, ?_⟩
        intro first member second only same
        apply new
        rw [List.map_singleton, List.mem_singleton] at only
        rw [← only, ← same]
        exact .inl member

theorem key_mem_collected {entries : List A} (room : (collected key cap entries).length < cap) :
    ∀ entry ∈ entries, key entry ∈ (collected key cap entries).map key := by
  induction entries using List.reverseRecOn with
  | nil => exact fun _ member => by cases member
  | append_singleton entries last ih =>
      intro entry member
      rw [collected_concat, collect] at room ⊢
      rw [List.mem_append, List.mem_singleton] at member
      split at room
      · next dropped =>
        rw [if_pos dropped]
        obtain old | rfl := member
        · exact ih room entry old
        · exact dropped.resolve_right (Nat.not_le.mpr room)
      · next new =>
        rw [if_neg new, List.map_append, List.mem_append]
        rw [List.length_append, List.length_singleton] at room
        obtain old | rfl := member
        · exact .inl (ih (by omega) entry old)
        · exact .inr (List.mem_singleton_self _)

theorem kept_iff_leads (entries : List A) (entry : A) :
    ¬ (key entry ∈ (collected key cap entries).map key ∨ cap ≤ (collected key cap entries).length) ↔
      Leads key cap entries entry := by
  have size : (collected key cap entries).length = ((collected key cap entries).map key).toFinset.card := by
    rw [List.toFinset_card_of_nodup (nodup_collected entries), List.length_map]
  have inside : ((collected key cap entries).map key).toFinset ⊆ (entries.map key).toFinset := by
    intro found member
    rw [List.mem_toFinset, List.mem_map] at member ⊢
    obtain ⟨kept, old, same⟩ := member
    exact ⟨kept, collected_subset entries kept old, same⟩
  constructor
  · intro new
    have room : (collected key cap entries).length < cap := by
      by_contra full
      exact new (.inr (Nat.not_lt.mp full))
    have complete := key_mem_collected room
    constructor
    · intro earlier member same
      apply new
      rw [← same]
      exact .inl (complete earlier member)
    · have outside : (entries.map key).toFinset ⊆ ((collected key cap entries).map key).toFinset := by
        intro found member
        rw [List.mem_toFinset, List.mem_map] at member
        obtain ⟨earlier, old, rfl⟩ := member
        exact List.mem_toFinset.mpr (complete earlier old)
      rw [size] at room
      exact (Finset.card_le_card outside).trans_lt room
  · rintro ⟨first, few⟩ (again | full)
    · obtain ⟨kept, old, same⟩ := List.mem_map.mp again
      exact first kept (collected_subset entries kept old) same
    · rw [size] at full
      have less := Finset.card_le_card inside
      omega

/-- The kept entries are those that lead where they stand. -/
theorem mem_collected_iff {entries : List A} {entry : A} :
    entry ∈ collected key cap entries ↔ ∃ before after, entries = before ++ entry :: after ∧ Leads key cap before entry := by
  induction entries using List.reverseRecOn with
  | nil =>
      constructor
      · intro member
        cases member
      · rintro ⟨before, after, same, -⟩
        simp at same
  | append_singleton entries last ih =>
      rw [collected_concat, collect]
      constructor
      · intro member
        have earlier : entry ∈ collected key cap entries →
            ∃ before after, entries ++ [last] = before ++ entry :: after ∧ Leads key cap before entry := by
          intro old
          obtain ⟨before, after, rfl, leads⟩ := ih.mp old
          exact ⟨before, after ++ [last], by simp, leads⟩
        split at member
        · exact earlier member
        · next new =>
          rw [List.mem_append, List.mem_singleton] at member
          obtain old | rfl := member
          · exact earlier old
          · exact ⟨entries, [], rfl, (kept_iff_leads entries entry).mp new⟩
      · rintro ⟨before, after, same, leads⟩
        induction after using List.reverseRecOn with
        | nil =>
            obtain ⟨rfl, only⟩ := List.append_inj' same rfl
            cases only
            rw [if_neg ((kept_iff_leads entries entry).mpr leads)]
            exact List.mem_append_right _ (List.mem_singleton_self _)
        | append_singleton after final _ =>
            rw [← List.cons_append, ← List.append_assoc] at same
            obtain ⟨split, -⟩ := List.append_inj' same rfl
            have old := ih.mpr ⟨before, after, split, leads⟩
            split
            · exact old
            · exact List.mem_append_left _ old

end Program
