import CesaConn.Network.GuessLimiter
import Mathlib.Data.Finset.Card

/-! The limit on answers to the salt query.

The table is purged only when it is full, so it may hold more than the recent grants. It
never holds less, and that decides every answer.
-/

set_option autoImplicit false

namespace CesaConn

open Std

namespace SaltService

def answerInterval : Nat := 5 * GuessLimiter.second

def maxRemembered : Nat := 1024

abbrev Answered := HashMap Source Instant

def recent (now last : Instant) : Bool := now - last < answerInterval

/-- Check, then record in one step. -/
def Answered.allow (answered : Answered) (source : Source) (now : Instant) : Bool × Answered :=
  if answered[source]?.any (recent now) then (false, answered)
  else if maxRemembered ≤ answered.size then
    -- whoever is past the interval is forgotten; still full: new sources are refused
    let kept := answered.filter fun _ last => recent now last
    if maxRemembered ≤ kept.size then (false, kept) else (true, kept.insert source now)
  else (true, answered.insert source now)

structure Query where
  source : Source
  now : Instant
  deriving DecidableEq

def answeredAfter : List Query → Answered
  | [] => ∅
  | query :: earlier => ((answeredAfter earlier).allow query.source query.now).2

def granted : List Query → List Query
  | [] => []
  | query :: earlier =>
      if ((answeredAfter earlier).allow query.source query.now).1 then query :: granted earlier else granted earlier

def recentSources (grants : List Query) (now : Instant) : Finset Source :=
  ((grants.filter fun grant => recent now grant.now).map Query.source).toFinset

def window (grants : List Query) (start : Instant) : List Query :=
  grants.filter fun grant => start ≤ grant.now ∧ grant.now < start + answerInterval

theorem mem_recentSources {grants : List Query} {now : Instant} {source : Source} :
    source ∈ recentSources grants now ↔ ∃ grant ∈ grants, recent now grant.now = true ∧ grant.source = source := by
  simp [recentSources, and_assoc]

theorem recent_earlier {now later last : Instant} (order : now ≤ later) (still : recent later last = true) :
    recent now last = true := by
  have close : later - last < answerInterval := of_decide_eq_true still
  exact decide_eq_true ((Nat.sub_le_sub_right order last).trans_lt close)

/-- The table holds grants only, and all of them that are recent. -/
structure Remembers (answered : Answered) (grants : List Query) (now : Instant) : Prop where
  held : ∀ grant ∈ grants, recent now grant.now = true → answered[grant.source]? = some grant.now
  real : ∀ source last, answered[source]? = some last → ⟨source, last⟩ ∈ grants
  few : answered.size ≤ maxRemembered

namespace Remembers

variable {answered : Answered} {grants : List Query} {now : Instant} {source : Source}

theorem later (remembers : Remembers answered grants now) {later : Instant} (order : now ≤ later) :
    Remembers answered grants later := by
  refine ⟨?_, remembers.real, remembers.few⟩
  intro grant member still
  exact remembers.held grant member (recent_earlier order still)

theorem lookup (remembers : Remembers answered grants now) :
    answered[source]?.any (recent now) = true ↔ source ∈ recentSources grants now := by
  rw [mem_recentSources]
  constructor
  · intro found
    obtain ⟨last, held, still⟩ := (Option.any_eq_true _ _).mp found
    exact ⟨⟨source, last⟩, remembers.real source last held, still, rfl⟩
  · intro ⟨grant, member, still, same⟩
    rw [← same, remembers.held grant member still]
    exact still

theorem getElem?_purged {source : Source} : (answered.filter fun _ last => recent now last)[source]? =
    answered[source]?.filter (recent now) := by
  rw [HashMap.getElem?_filter']

theorem size_purged (remembers : Remembers answered grants now) :
    (answered.filter fun _ last => recent now last).size = (recentSources grants now).card := by
  have same : (answered.filter fun _ last => recent now last).keys.toFinset = recentSources grants now := by
    ext source
    rw [List.mem_toFinset, HashMap.mem_keys, HashMap.mem_iff_isSome_getElem?, getElem?_purged, ← remembers.lookup]
    cases answered[source]? <;> simp [Option.filter]
  rw [← same, List.toFinset_card_of_nodup HashMap.nodup_keys, HashMap.length_keys]

theorem purged (remembers : Remembers answered grants now) :
    Remembers (answered.filter fun _ last => recent now last) grants now := by
  refine ⟨?_, ?_, HashMap.size_filter_le_size.trans remembers.few⟩
  · intro grant member still
    rw [getElem?_purged, remembers.held grant member still]
    simp [Option.filter, still]
  · intro source last found
    rw [getElem?_purged] at found
    exact remembers.real source last (Option.filter_eq_some_iff.mp found).1

theorem insert (remembers : Remembers answered grants now) (fresh : source ∉ recentSources grants now)
    (room : answered.size < maxRemembered) :
    Remembers (answered.insert source now) (⟨source, now⟩ :: grants) now := by
  refine ⟨?_, ?_, HashMap.size_insert_le.trans room⟩
  · intro grant member still
    rw [HashMap.getElem?_insert]
    by_cases same : source = grant.source
    · cases member with
      | head => simp
      | tail _ older => exact absurd (mem_recentSources.mpr ⟨grant, older, still, same.symm⟩) fresh
    · rw [if_neg (by simpa using same)]
      cases member with
      | head => exact absurd rfl same
      | tail _ older => exact remembers.held grant older still
  · intro other last found
    rw [HashMap.getElem?_insert] at found
    by_cases same : source = other
    · rw [if_pos (by simpa using same)] at found
      cases found
      rw [same]
      exact List.mem_cons_self
    · rw [if_neg (by simpa using same)] at found
      exact List.mem_cons_of_mem _ (remembers.real other last found)

/-- A call is refused exactly if its source is recent or the table is full of recent ones. -/
theorem allow_iff (remembers : Remembers answered grants now) :
    (answered.allow source now).1 = true ↔
      source ∉ recentSources grants now ∧ (recentSources grants now).card < maxRemembered := by
  rw [← remembers.lookup, ← remembers.size_purged, Answered.allow]
  by_cases own : answered[source]?.any (recent now) = true
  · rw [if_pos own]
    simp [own]
  · rw [if_neg own]
    by_cases full : maxRemembered ≤ answered.size
    · rw [if_pos full]
      by_cases still : maxRemembered ≤ (answered.filter fun _ last => recent now last).size
      · simp [still]
      · have room := Nat.lt_of_not_le still
        simp [still, own, room]
    · have less : (answered.filter fun _ last => recent now last).size < maxRemembered :=
        HashMap.size_filter_le_size.trans_lt (Nat.lt_of_not_le full)
      simp [full, own, less]

theorem allow (remembers : Remembers answered grants now) :
    Remembers (answered.allow source now).2
      (if (answered.allow source now).1 then ⟨source, now⟩ :: grants else grants) now := by
  by_cases own : answered[source]?.any (recent now) = true
  · rw [Answered.allow, if_pos own]
    exact remembers
  · have fresh : source ∉ recentSources grants now := fun member => own (remembers.lookup.mpr member)
    rw [Answered.allow, if_neg own]
    by_cases full : maxRemembered ≤ answered.size
    · rw [if_pos full]
      by_cases still : maxRemembered ≤ (answered.filter fun _ last => recent now last).size
      -- refused or not, the purged table is the one that is kept
      · simp only [still, if_true]
        exact remembers.purged
      · simp only [still, if_false]
        exact remembers.purged.insert fresh (Nat.lt_of_not_le still)
    · rw [if_neg full]
      exact remembers.insert fresh (Nat.lt_of_not_le full)

end Remembers

def Clocked : List Query → Prop := List.Pairwise fun later earlier => earlier.now ≤ later.now

theorem remembers_after {queries : List Query} (clock : Clocked queries) {now : Instant}
    (last : ∀ query ∈ queries, query.now ≤ now) : Remembers (answeredAfter queries) (granted queries) now := by
  induction queries generalizing now with
  | nil =>
      refine ⟨nofun, ?_, by simp [answeredAfter]⟩
      intro source last found
      rw [answeredAfter, HashMap.getElem?_empty] at found
      cases found
  | cons query earlier ih =>
      obtain ⟨order, before⟩ := List.pairwise_cons.mp clock
      exact (ih before order).allow.later (last query List.mem_cons_self)

/-- In an interval every source is granted once, and not more sources than are remembered. -/
theorem window_granted {queries : List Query} (clock : Clocked queries) (start : Instant) :
    ((window (granted queries) start).map Query.source).Nodup ∧
      (window (granted queries) start).length ≤ maxRemembered := by
  induction queries with
  | nil => exact ⟨List.nodup_nil, Nat.zero_le _⟩
  | cons query earlier ih =>
      obtain ⟨order, before⟩ := List.pairwise_cons.mp clock
      obtain ⟨once, few⟩ := ih before
      rw [granted]
      split
      · next allowed =>
        -- granted, so its source is not recent and fewer are than can be remembered
        obtain ⟨fresh, room⟩ := (remembers_after before order).allow_iff.mp allowed
        by_cases inside : start ≤ query.now ∧ query.now < start + answerInterval
        · -- what was granted earlier in this interval is recent at this call
          have close : ∀ source ∈ (window (granted earlier) start).map Query.source,
              source ∈ recentSources (granted earlier) query.now := by
            intro source member
            obtain ⟨grant, found, same⟩ := List.mem_map.mp member
            obtain ⟨made, bounds⟩ := List.mem_filter.mp found
            have recently : query.now - grant.now < answerInterval :=
              calc query.now - grant.now
                  ≤ query.now - start := Nat.sub_le_sub_left (of_decide_eq_true bounds).1 query.now
                _ < answerInterval := Nat.sub_lt_left_of_lt_add inside.1 inside.2
            exact mem_recentSources.mpr ⟨grant, made, decide_eq_true recently, same⟩
          have fits : (window (granted earlier) start).length ≤ (recentSources (granted earlier) query.now).card := by
            rw [← List.length_map Query.source, ← List.toFinset_card_of_nodup once]
            apply Finset.card_le_card
            intro source member
            exact close source (List.mem_toFinset.mp member)
          rw [window, List.filter_cons, if_pos (decide_eq_true inside)]
          constructor
          · exact List.nodup_cons.mpr ⟨fun member => fresh (close query.source member), once⟩
          · exact fits.trans_lt room
        · rw [window, List.filter_cons, if_neg (by simpa using inside)]
          exact ⟨once, few⟩
      · exact ⟨once, few⟩

/-- A source answered less than the interval ago is refused, and any source while as many as
are remembered were; nothing else is refused, whatever the table still holds. -/
theorem answers_limited {query : Query} {earlier : List Query} (clock : Clocked (query :: earlier)) :
    (((answeredAfter earlier).allow query.source query.now).1 = false ↔
      (∃ grant ∈ granted earlier, grant.source = query.source ∧ query.now - grant.now < answerInterval) ∨
      maxRemembered ≤ (recentSources (granted earlier) query.now).card) ∧
    (∀ start, ((window (granted (query :: earlier)) start).map Query.source).Nodup ∧
      (window (granted (query :: earlier)) start).length ≤ maxRemembered) ∧
    (answeredAfter (query :: earlier)).size ≤ maxRemembered ∧
    ((∀ grant ∈ granted earlier, grant.source = query.source → answerInterval ≤ query.now - grant.now) →
      (recentSources (granted earlier) query.now).card < maxRemembered →
      ((answeredAfter earlier).allow query.source query.now).1 = true) := by
  obtain ⟨order, before⟩ := List.pairwise_cons.mp clock
  have remembers := remembers_after before order
  have allowed : ((answeredAfter earlier).allow query.source query.now).1 = true ↔
      query.source ∉ recentSources (granted earlier) query.now ∧
        (recentSources (granted earlier) query.now).card < maxRemembered := remembers.allow_iff
  refine ⟨?_, fun start => window_granted clock start, remembers.allow.few, ?_⟩
  · rw [← Bool.not_eq_true, allowed, Decidable.not_and_iff_not_or_not, not_not, Nat.not_lt, mem_recentSources]
    simp only [recent, decide_eq_true_eq, and_comm]
  · intro past room
    refine allowed.mpr ⟨?_, room⟩
    intro member
    obtain ⟨grant, found, still, same⟩ := mem_recentSources.mp member
    exact Nat.not_lt.mpr (past grant found same) (of_decide_eq_true still)

/-- The same source a second later is refused, and has its one answer in the window. -/
theorem answers_limited_again :
    ∃ source, granted [⟨source, 0⟩] = [⟨source, 0⟩] ∧
      ((answeredAfter [⟨source, 0⟩]).allow source GuessLimiter.second).1 = false ∧
      (answeredAfter [⟨source, GuessLimiter.second⟩, ⟨source, 0⟩]).size ≤ maxRemembered := by
  let source : Source := ⟨.v4 ⟨[10, 0, 0, 1], rfl⟩⟩
  have first : granted [⟨source, 0⟩] = [⟨source, 0⟩] := by
    simp [granted, answeredAfter, Answered.allow, maxRemembered]
  have clock : Clocked [⟨source, GuessLimiter.second⟩, ⟨source, 0⟩] := by simp [Clocked]
  obtain ⟨refused, _, few, _⟩ := answers_limited clock
  refine ⟨source, first, refused.mpr (.inl ?_), few⟩
  rw [first]
  exact ⟨⟨source, 0⟩, List.mem_singleton_self _, rfl, by decide⟩

end SaltService

end CesaConn
