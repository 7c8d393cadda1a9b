import CesaConn.Peers.PeerBook

/-! The limit on online password guessing.

Every wrong password is counted against its source, and every fifth one locks
the source out, each time for longer. The limiter keeps four numbers for a
source. They are functions of the moments of its failures since it was last
untracked, and everything that is promised of a lockout follows from that.

A moment of the clock is an unbounded number here, so the deadline of a lockout
never overflows.
-/

set_option autoImplicit false

namespace CesaConn

open Format Std

instance {size : Nat} : Hashable (Block size) := ⟨fun block => hash block.toList⟩

deriving instance Hashable for IpAddr

/-- The first octets of an IPv6 address that stands for an IPv4 one. -/
def mappedStart : Bytes := List.replicate 10 0 ++ [0xFF, 0xFF]

/-- `IpAddr::to_canonical`: an address that stands for an IPv4 one becomes that. -/
def IpAddr.toCanonical : IpAddr → IpAddr
  | .v4 octets => .v4 octets
  | .v6 octets =>
      if octets.toList.take 12 = mappedStart then .v4 ⟨octets.toList.drop 12, by simp⟩ else .v6 octets

/-- Whom a failure is counted against: an IPv4 address or an IPv6 /64. -/
structure Source where
  ip : IpAddr
  deriving DecidableEq, Hashable

def networkOf (octets : Block 16) : Block 16 := ⟨octets.toList.take 8 ++ List.replicate 8 0, by simp⟩

def Source.of (ip : IpAddr) : Source :=
  match ip.toCanonical with
  | .v4 octets => ⟨.v4 octets⟩
  | .v6 octets => ⟨.v6 (networkOf octets)⟩

namespace GuessLimiter

def maxFailures : Nat := 5

def second : Nat := 10 ^ 9

def firstLockout : Nat := 60 * second

def maxLockout : Nat := 60 * 60 * second

def maxTracked : Nat := 4096

def forgetAfter : Nat := 2 * 60 * 60 * second

def u32Max : Nat := 2 ^ 32 - 1

structure Entry where
  failures : Nat
  lockouts : Nat
  lockedUntil : Option Instant
  lastFailure : Instant
  deriving DecidableEq

def Entry.isLocked (entry : Entry) (now : Instant) : Bool := entry.lockedUntil.any fun deadline => now < deadline

/-- Safe to forget: not locked and quiet for long enough. -/
def Entry.isStale (entry : Entry) (now : Instant) : Bool :=
  !entry.isLocked now && forgetAfter < now - entry.lastFailure

/-- The length of the `n`-th lockout. A shift by 32 or more gives nothing. -/
def lockoutDuration (n : Nat) : Nat :=
  let factor := if n - 1 < 32 then 2 ^ (n - 1) else u32Max
  min (firstLockout * factor) maxLockout

inductive Counted where
  | notTracked
  | recorded
  | lockedOut (duration : Nat)
  deriving DecidableEq

def Entry.count (entry : Entry) (now : Instant) : Counted × Entry :=
  let failures := min (entry.failures + 1) u32Max
  if failures < maxFailures then (.recorded, { entry with failures, lastFailure := now })
  else
    let lockouts := min (entry.lockouts + 1) u32Max
    let duration := lockoutDuration lockouts
    (.lockedOut duration,
      { failures := 0, lockouts, lockedUntil := some (now + duration), lastFailure := now })

abbrev Entries := HashMap Source Entry

/-- The end of `countFailure`: the source has an entry or gets one. -/
def countTracked (entries : Entries) (source : Source) (now : Instant) : Counted × Entries :=
  let (counted, entry) := (entries[source]?.getD ⟨0, 0, none, now⟩).count now
  (counted, entries.insert source entry)

def countFailure (entries : Entries) (source : Source) (now : Instant) : Counted × Entries :=
  if !entries.contains source && maxTracked ≤ entries.size then
    let kept := entries.filter fun _ entry => !entry.isStale now
    if maxTracked ≤ kept.size then (.notTracked, kept) else countTracked kept source now
  else countTracked entries source now

/-! ## The map is bounded -/

theorem size_countTracked_le {entries : Entries} {source : Source} (now : Instant)
    (few : entries.size ≤ maxTracked) (room : entries.contains source = false → entries.size < maxTracked) :
    (countTracked entries source now).2.size ≤ maxTracked := by
  simp only [countTracked, HashMap.size_insert, HashMap.mem_iff_contains]
  split
  · exact few
  · next missing => exact room (by simpa using missing)

theorem size_countFailure_le {entries : Entries} (source : Source) (now : Instant)
    (few : entries.size ≤ maxTracked) : (countFailure entries source now).2.size ≤ maxTracked := by
  unfold countFailure
  split
  · have kept : (entries.filter fun _ entry => !entry.isStale now).size ≤ maxTracked :=
      HashMap.size_filter_le_size.trans few
    dsimp only
    split
    · exact kept
    · exact size_countTracked_le now kept fun _ => by omega
  · next room =>
    apply size_countTracked_le now few
    intro missing
    simp only [missing, Bool.not_false, Bool.true_and, decide_eq_true_eq] at room
    omega

end GuessLimiter

structure GuessLimiter where
  entries : GuessLimiter.Entries
  few : entries.size ≤ GuessLimiter.maxTracked

namespace GuessLimiter

def new : GuessLimiter := ⟨∅, by simp⟩

def isLocked (limiter : GuessLimiter) (ip : IpAddr) (now : Instant) : Bool :=
  limiter.entries[Source.of ip]?.any fun entry => entry.isLocked now

def recordFailure (limiter : GuessLimiter) (ip : IpAddr) (now : Instant) : GuessLimiter :=
  ⟨(countFailure limiter.entries (Source.of ip) now).2, size_countFailure_le _ now limiter.few⟩

def recordSuccess (limiter : GuessLimiter) (ip : IpAddr) : GuessLimiter :=
  ⟨limiter.entries.erase (Source.of ip), HashMap.size_erase_le.trans limiter.few⟩

def lookup (limiter : GuessLimiter) (source : Source) : Option Entry := limiter.entries[source]?

def Tracks (limiter : GuessLimiter) (source : Source) : Prop := limiter.lookup source ≠ none

instance (limiter : GuessLimiter) (source : Source) : Decidable (limiter.Tracks source) :=
  inferInstanceAs (Decidable (_ ≠ _))

/-- How many sources are tracked and not stale. -/
def active (limiter : GuessLimiter) (now : Instant) : Nat :=
  (limiter.entries.filter fun _ entry => !entry.isStale now).size

theorem active_le_size (limiter : GuessLimiter) (now : Instant) : limiter.active now ≤ limiter.entries.size :=
  HashMap.size_filter_le_size

theorem isLocked_eq (limiter : GuessLimiter) (ip : IpAddr) (now : Instant) :
    limiter.isLocked ip now = (limiter.lookup (Source.of ip)).any fun entry => entry.isLocked now := rfl

@[simp] theorem lookup_new (source : Source) : new.lookup source = none := HashMap.getElem?_empty

@[simp] theorem lookup_recordSuccess (limiter : GuessLimiter) (ip : IpAddr) (source : Source) :
    (limiter.recordSuccess ip).lookup source =
      if Source.of ip = source then none else limiter.lookup source := by
  simp only [lookup, recordSuccess, HashMap.getElem?_erase, beq_iff_eq]

/-! ## What one failure does -/

def Entry.fresh (now : Instant) : Entry := ⟨0, 0, none, now⟩

theorem lookup_countTracked (entries : Entries) (source other : Source) (now : Instant) :
    (countTracked entries source now).2[other]? =
      if source = other then some ((entries[source]?.getD (.fresh now)).count now).2 else entries[other]? := by
  simp only [countTracked, Entry.fresh, HashMap.getElem?_insert, beq_iff_eq]

/-- A failure of a tracked source is counted on its entry. An untracked source
gets one, unless the map is full of active sources. -/
theorem recordFailure_own (limiter : GuessLimiter) (ip : IpAddr) (now : Instant) :
    (limiter.Tracks (Source.of ip) ∨ limiter.active now < maxTracked) ∧
      (countFailure limiter.entries (Source.of ip) now).1 =
        (((limiter.lookup (Source.of ip)).getD (.fresh now)).count now).1 ∧
      (limiter.recordFailure ip now).lookup (Source.of ip) =
        some (((limiter.lookup (Source.of ip)).getD (.fresh now)).count now).2 ∨
    limiter.lookup (Source.of ip) = none ∧ limiter.active now = maxTracked ∧
      (countFailure limiter.entries (Source.of ip) now).1 = .notTracked ∧
      (limiter.recordFailure ip now).lookup (Source.of ip) = none := by
  have fewer := limiter.active_le_size now
  simp only [recordFailure, Tracks, lookup, countFailure]
  split
  · next full =>
    simp only [Bool.and_eq_true, Bool.not_eq_true', HashMap.contains_eq_isSome_getElem?,
      Option.isSome_eq_false_iff, Option.isNone_iff_eq_none, decide_eq_true_eq] at full
    obtain ⟨missing, full⟩ := full
    have gone : (limiter.entries.filter fun _ entry => !entry.isStale now)[Source.of ip]? = none := by
      rw [HashMap.getElem?_filter', missing]
      rfl
    split
    · next still => exact .inr ⟨missing, Nat.le_antisymm (fewer.trans limiter.few) still, rfl, gone⟩
    · next room =>
      refine .inl ⟨.inr (Nat.lt_of_not_le room), ?_⟩
      rw [lookup_countTracked, if_pos rfl, gone, missing]
      simp only [countTracked, gone, Entry.fresh, Option.getD_none, and_self]
  · next free =>
    have counted : limiter.entries[Source.of ip]? ≠ none ∨ limiter.active now < maxTracked := by
      simp only [Bool.and_eq_true, Bool.not_eq_true', HashMap.contains_eq_isSome_getElem?, Option.isSome_eq_false_iff,
        Option.isNone_iff_eq_none, decide_eq_true_eq, not_and, Nat.not_le] at free
      by_cases missing : limiter.entries[Source.of ip]? = none
      · exact .inr (fewer.trans_lt (free missing))
      · exact .inl missing
    refine .inl ⟨counted, ?_⟩
    rw [lookup_countTracked, if_pos rfl]
    exact ⟨rfl, rfl⟩

theorem tracks_recordFailure (limiter : GuessLimiter) (ip : IpAddr) (now : Instant) :
    (limiter.recordFailure ip now).Tracks (Source.of ip) ↔
      limiter.Tracks (Source.of ip) ∨ limiter.active now < maxTracked := by
  rcases limiter.recordFailure_own ip now with ⟨counted, -, found⟩ | ⟨missing, full, -, gone⟩
  · refine iff_of_true ?_ counted
    rw [Tracks, found]
    exact Option.some_ne_none _
  · refine iff_of_false (not_not_intro gone) ?_
    rintro (tracked | room)
    · exact tracked missing
    · omega

/-- A failure of another source leaves an entry alone or drops it as stale; it
drops one only when the map is full. -/
theorem recordFailure_other (limiter : GuessLimiter) {ip : IpAddr} {source : Source} (now : Instant)
    (other : Source.of ip ≠ source) :
    (limiter.recordFailure ip now).lookup source = limiter.lookup source ∨
    limiter.entries.size = maxTracked ∧ (limiter.recordFailure ip now).lookup source = none ∧
      ∃ entry, limiter.lookup source = some entry ∧ entry.isStale now = true := by
  have filtered : ∀ found, limiter.entries[source]? = found →
      (limiter.entries.filter fun _ entry => !entry.isStale now)[source]? = found ∨
      (limiter.entries.filter fun _ entry => !entry.isStale now)[source]? = none ∧
        ∃ entry, found = some entry ∧ entry.isStale now = true := by
    intro found looked
    rw [HashMap.getElem?_filter', looked]
    cases found with
    | none => exact .inl rfl
    | some entry =>
        cases stale : entry.isStale now with
        | false => exact .inl (by simp [stale])
        | true => exact .inr ⟨by simp [stale], entry, rfl, stale⟩
  simp only [recordFailure, lookup, countFailure]
  split
  · next full =>
    simp only [Bool.and_eq_true, decide_eq_true_eq] at full
    have size := Nat.le_antisymm limiter.few full.2
    split
    · rcases filtered _ rfl with same | ⟨gone, stale⟩
      · exact .inl same
      · exact .inr ⟨size, gone, stale⟩
    · rw [lookup_countTracked, if_neg other]
      rcases filtered _ rfl with same | ⟨gone, stale⟩
      · exact .inl same
      · exact .inr ⟨size, gone, stale⟩
  · rw [lookup_countTracked, if_neg other]
    exact .inl rfl

theorem lookup_recordFailure {limiter : GuessLimiter} (ip : IpAddr) (source : Source) (now : Instant)
    (room : limiter.entries.size < maxTracked) :
    (limiter.recordFailure ip now).lookup source =
      if Source.of ip = source then some (((limiter.lookup source).getD (.fresh now)).count now).2
      else limiter.lookup source := by
  split
  · next own =>
    subst own
    rcases limiter.recordFailure_own ip now with ⟨-, -, found⟩ | ⟨-, full, -⟩
    · exact found
    · have fewer := limiter.active_le_size now
      omega
  · next other =>
    rcases limiter.recordFailure_other now other with same | ⟨full, -⟩
    · exact same
    · omega

theorem lockoutDuration_pos (n : Nat) : 0 < lockoutDuration n := by
  have power : 0 < 2 ^ (n - 1) := Nat.two_pow_pos _
  have factor : 0 < if n - 1 < 32 then 2 ^ (n - 1) else u32Max := by
    split
    · exact power
    · decide
  exact Nat.lt_min.mpr ⟨Nat.mul_pos (by decide) factor, by decide⟩

/-- Four failures are only counted; the fifth locks the source. -/
theorem Entry.count_cases {entry : Entry} (few : entry.failures < 5) (now : Instant) :
    entry.failures < 4 ∧ (entry.count now).2.failures = entry.failures + 1 ∧
      (entry.count now).2.lockedUntil = entry.lockedUntil ∨
    entry.failures = 4 ∧ (entry.count now).2.failures = 0 ∧ (entry.count now).2.isLocked now = true := by
  have unsaturated : min (entry.failures + 1) u32Max = entry.failures + 1 :=
    Nat.min_eq_left (by simp only [u32Max]; omega)
  simp only [Entry.count, unsaturated]
  split
  · next more =>
    simp only [maxFailures] at more
    exact .inl ⟨by omega, rfl, rfl⟩
  · next fifth =>
    simp only [maxFailures] at fifth
    refine .inr ⟨by omega, rfl, ?_⟩
    simp only [Entry.isLocked, Option.any_some, decide_eq_true_eq]
    exact Nat.lt_add_of_pos_right (lockoutDuration_pos _)

/-! ## An entry is a function of the failures it counted -/

/-- The length of the `n`-th lockout, as it is promised: a minute, doubled each
time, an hour at most. -/
def lockout (n : Nat) : Nat := min (60 * 2 ^ (n - 1)) 3600 * second

theorem lockoutDuration_min (n : Nat) : lockoutDuration (min n u32Max) = lockout n := by
  by_cases few : n - 1 < 32
  · have small : min n u32Max = n := Nat.min_eq_left (by simp only [u32Max]; omega)
    simp only [lockoutDuration, lockout, small, if_pos few, firstLockout, maxLockout]
    rw [← Nat.mul_min_mul_right, Nat.mul_right_comm]
  · -- from the 33rd lockout on both are the longest one
    have many : ¬ min n u32Max - 1 < 32 := by simp only [u32Max]; omega
    have power : 2 ^ 32 ≤ 2 ^ (n - 1) := Nat.pow_le_pow_right (by decide) (by omega)
    simp only [lockoutDuration, lockout, if_neg many]
    simp only [firstLockout, maxLockout, u32Max, second]
    rw [Nat.min_eq_right (by omega), Nat.min_eq_right (by omega)]

theorem lockout_mono {m n : Nat} (le : m ≤ n) : lockout m ≤ lockout n := by
  have power : 2 ^ (m - 1) ≤ 2 ^ (n - 1) := Nat.pow_le_pow_right (by decide) (by omega)
  apply Nat.mul_le_mul_right
  omega

/-- When the last lockout of a source ends that failed at `times`, newest first. -/
def deadline : List Instant → Option Instant
  | [] => none
  | now :: earlier =>
      if (earlier.length + 1) % maxFailures = 0 then some (now + lockout ((earlier.length + 1) / maxFailures))
      else deadline earlier

def entryOf : List Instant → Option Entry
  | [] => none
  | now :: earlier => some {
      failures := (earlier.length + 1) % maxFailures
      lockouts := min ((earlier.length + 1) / maxFailures) u32Max
      lockedUntil := deadline (now :: earlier)
      lastFailure := now }

/-- What the limiter makes of the newest of the failures at `times`. -/
def countedOf (times : List Instant) : Counted :=
  if times.length % maxFailures = 0 then .lockedOut (lockout (times.length / maxFailures)) else .recorded

theorem count_entryOf (times : List Instant) (now : Instant) :
    some (((entryOf times).getD (.fresh now)).count now).2 = entryOf (now :: times) ∧
      (((entryOf times).getD (.fresh now)).count now).1 = countedOf (now :: times) := by
  have known : ∃ last, (entryOf times).getD (.fresh now) =
      ⟨times.length % maxFailures, min (times.length / maxFailures) u32Max, deadline times, last⟩ := by
    cases times with
    | nil => exact ⟨now, rfl⟩
    | cons last earlier => exact ⟨last, rfl⟩
  obtain ⟨last, known⟩ := known
  have below : times.length % maxFailures < 5 := Nat.mod_lt _ (by decide)
  have unsaturated : min (times.length % maxFailures + 1) u32Max = times.length % maxFailures + 1 :=
    Nat.min_eq_left (by simp only [u32Max]; omega)
  rw [known]
  simp only [Entry.count, unsaturated, entryOf, deadline, countedOf, List.length_cons]
  -- the fifth failure starts the count again and sets a deadline, every other one leaves it
  by_cases fifth : (times.length + 1) % maxFailures = 0
  · have last : ¬ times.length % maxFailures + 1 < maxFailures := by simp only [maxFailures] at *; omega
    have lockouts : min (min (times.length / maxFailures) u32Max + 1) u32Max =
        min ((times.length + 1) / maxFailures) u32Max := by
      simp only [maxFailures, u32Max] at *
      omega
    rw [if_neg last, if_pos fifth, if_pos fifth, lockouts, lockoutDuration_min, fifth]
    exact ⟨rfl, rfl⟩
  · have next : times.length % maxFailures + 1 = (times.length + 1) % maxFailures := by
      simp only [maxFailures] at *
      omega
    have lockouts : times.length / maxFailures = (times.length + 1) / maxFailures := by
      simp only [maxFailures] at *
      omega
    have more : times.length % maxFailures + 1 < maxFailures := by simp only [maxFailures] at *; omega
    rw [if_pos more, if_neg fifth, if_neg fifth, lockouts, next]
    exact ⟨rfl, rfl⟩

theorem lockedUntil_entryOf (times : List Instant) : (entryOf times).bind Entry.lockedUntil = deadline times := by
  cases times with
  | nil => rfl
  | cons now earlier => rfl

theorem deadline_le {times : List Instant} {last : Instant} (ends : deadline times = some last) :
    ∃ now ∈ times, last ≤ now + lockout (times.length / maxFailures) := by
  induction times with
  | nil => cases ends
  | cons now earlier ih =>
      simp only [deadline] at ends
      split at ends
      · cases ends
        exact ⟨now, List.mem_cons_self, Nat.le_refl _⟩
      · obtain ⟨time, member, le⟩ := ih ends
        have longer : lockout (earlier.length / maxFailures) ≤ lockout ((now :: earlier).length / maxFailures) :=
          lockout_mono (Nat.div_le_div_right (by simp))
        exact ⟨time, List.mem_cons_of_mem now member, le.trans (Nat.add_le_add_left longer time)⟩

theorem deadline_cons {times : List Instant} {now last : Instant} (clock : ∀ time ∈ times, time ≤ now)
    (ends : deadline times = some last) : ∃ later, deadline (now :: times) = some later ∧ last ≤ later := by
  simp only [deadline]
  split
  -- the new lockout starts later than the old one and is at least as long
  · obtain ⟨time, member, le⟩ := deadline_le ends
    have longer : lockout (times.length / maxFailures) ≤ lockout ((times.length + 1) / maxFailures) :=
      lockout_mono (Nat.div_le_div_right (by simp))
    exact ⟨_, rfl, le.trans (Nat.add_le_add (clock time member) longer)⟩
  · exact ⟨last, ends, Nat.le_refl _⟩

/-! ## Runs -/

inductive Op where
  | isLocked
  | recordFailure
  | recordSuccess
  deriving DecidableEq

structure Call where
  op : Op
  ip : IpAddr
  now : Instant

def Call.Fails (call : Call) (source : Source) : Prop := call.op = .recordFailure ∧ Source.of call.ip = source

def Call.Clears (call : Call) (source : Source) : Prop := call.op = .recordSuccess ∧ Source.of call.ip = source

instance (call : Call) (source : Source) : Decidable (call.Fails source) :=
  inferInstanceAs (Decidable (_ ∧ _))

def perform (limiter : GuessLimiter) (call : Call) : GuessLimiter :=
  match call.op with
  | .isLocked => limiter
  | .recordFailure => limiter.recordFailure call.ip call.now
  | .recordSuccess => limiter.recordSuccess call.ip

def run : List Call → GuessLimiter
  | [] => new
  | call :: earlier => (run earlier).perform call

def Clocked : List Call → Prop := List.Pairwise fun later earlier => earlier.now ≤ later.now

def lockedUntil (limiter : GuessLimiter) (source : Source) : Option Instant :=
  (limiter.lookup source).bind Entry.lockedUntil

/-- The failures of a source since it was last untracked, newest first. -/
def history (source : Source) : List Call → List Instant
  | [] => []
  | call :: earlier =>
      if (run (call :: earlier)).Tracks source then
        if call.Fails source then call.now :: history source earlier else history source earlier
      else []

theorem perform_cases (limiter : GuessLimiter) (call : Call) (source : Source) :
    call.Fails source ∧
      (countFailure limiter.entries source call.now).1 =
        (((limiter.lookup source).getD (.fresh call.now)).count call.now).1 ∧
      (limiter.perform call).lookup source =
        some (((limiter.lookup source).getD (.fresh call.now)).count call.now).2 ∨
    ¬ call.Fails source ∧ (limiter.perform call).lookup source = limiter.lookup source ∨
    (limiter.perform call).lookup source = none ∧
      (call.Clears source ∨ limiter.entries.size = maxTracked ∧
        (limiter.lookup source = none ∨ ∃ entry, limiter.lookup source = some entry ∧ entry.isStale call.now = true)) := by
  obtain ⟨op, ip, now⟩ := call
  cases op with
  | isLocked => exact .inr (.inl ⟨by simp [Call.Fails], rfl⟩)
  | recordFailure =>
      by_cases own : Source.of ip = source
      · subst own
        rcases limiter.recordFailure_own ip now with ⟨-, counted, found⟩ | ⟨missing, full, -, gone⟩
        · exact .inl ⟨⟨rfl, rfl⟩, counted, found⟩
        · have size : limiter.entries.size = maxTracked :=
            Nat.le_antisymm limiter.few (full.symm.trans_le (limiter.active_le_size now))
          exact .inr (.inr ⟨gone, .inr ⟨size, .inl missing⟩⟩)
      · rcases limiter.recordFailure_other now own with same | ⟨full, gone, stale⟩
        · exact .inr (.inl ⟨fun fails => own fails.2, same⟩)
        · exact .inr (.inr ⟨gone, .inr ⟨full, .inr stale⟩⟩)
  | recordSuccess =>
      by_cases own : Source.of ip = source
      · exact .inr (.inr ⟨by simp [perform, own], .inl ⟨rfl, own⟩⟩)
      · exact .inr (.inl ⟨by simp [Call.Fails], by simp [perform, own]⟩)

/-- The limiter refines its history: what it knows of a source are the failures
since the source was last untracked. -/
theorem lookup_run (calls : List Call) (source : Source) :
    (run calls).lookup source = entryOf (history source calls) := by
  induction calls with
  | nil => exact lookup_new source
  | cons call earlier ih =>
      simp only [history]
      -- a failure of the source, a call that leaves its entry alone, or one that untracks it
      rcases (run earlier).perform_cases call source with ⟨fails, -, found⟩ | ⟨other, same⟩ | ⟨gone, -⟩
      · have tracked : (run (call :: earlier)).Tracks source := by
          rw [Tracks, run, found]
          exact Option.some_ne_none _
        rw [if_pos tracked, if_pos fails, run, found, ih]
        exact (count_entryOf _ _).1
      · rw [if_neg other]
        split
        · rw [run, same, ih]
        · next missing => simpa [Tracks, entryOf] using missing
      · have untracked : ¬ (run (call :: earlier)).Tracks source := not_not_intro gone
        rw [if_neg untracked]
        exact gone

theorem lockedUntil_run (calls : List Call) (source : Source) :
    (run calls).lockedUntil source = deadline (history source calls) := by
  rw [lockedUntil, lookup_run, lockedUntil_entryOf]

theorem mem_history {source : Source} {calls : List Call} {time : Instant} (member : time ∈ history source calls) :
    ∃ call ∈ calls, call.now = time := by
  induction calls with
  | nil => cases member
  | cons call earlier ih =>
      simp only [history] at member
      split at member
      · split at member
        · rcases List.mem_cons.mp member with same | member
          · exact ⟨call, List.mem_cons_self, same.symm⟩
          · obtain ⟨found, before, same⟩ := ih member
            exact ⟨found, List.mem_cons_of_mem call before, same⟩
        · obtain ⟨found, before, same⟩ := ih member
          exact ⟨found, List.mem_cons_of_mem call before, same⟩
      · cases member

theorem history_cons_of_tracks {source : Source} {call : Call} {calls : List Call}
    (tracked : (run (call :: calls)).Tracks source) :
    history source (call :: calls) =
      if call.Fails source then call.now :: history source calls else history source calls := by
  rw [history, if_pos tracked]

theorem isLocked_run {calls : List Call} {ip : IpAddr} {now : Instant} :
    (run calls).isLocked ip now = true ↔ ∃ last, deadline (history (Source.of ip) calls) = some last ∧ now < last := by
  rw [isLocked_eq, ← lockedUntil_run, lockedUntil]
  cases (run calls).lookup (Source.of ip) with
  | none => simp
  | some entry => simp [Entry.isLocked, Option.any_eq_true]

theorem tracks_step {calls : List Call} {call : Call} {source : Source} (tracked : (run calls).Tracks source)
    (lost : ¬ (run (call :: calls)).Tracks source) :
    call.Clears source ∨ (run calls).entries.size = maxTracked ∧
      ∃ entry, (run calls).lookup source = some entry ∧ entry.isStale call.now = true := by
  rcases (run calls).perform_cases call source with
    ⟨-, -, found⟩ | ⟨-, same⟩ | ⟨-, cleared | ⟨full, missing | stale⟩⟩
  · exact absurd (by rw [Tracks, run, found]; exact Option.some_ne_none _) lost
  · exact absurd (by rw [Tracks, run, same]; exact tracked) lost
  · exact .inl cleared
  · exact absurd missing tracked
  · exact .inr ⟨full, stale⟩

/-- A source becomes tracked by a failure of its own, and by every one for which there is room. -/
theorem tracked_step {calls : List Call} {call : Call} {source : Source} :
    if call.Fails source then
      ((run (call :: calls)).Tracks source ↔ (run calls).Tracks source ∨ (run calls).active call.now < maxTracked)
    else (run (call :: calls)).Tracks source → (run calls).Tracks source := by
  split
  · next fails =>
    obtain ⟨op, ip, now⟩ := call
    obtain ⟨rfl, rfl⟩ := fails
    exact tracks_recordFailure _ ip now
  · next other =>
    intro tracked
    rcases (run calls).perform_cases call source with ⟨fails, -⟩ | ⟨-, same⟩ | ⟨gone, -⟩
    · exact absurd fails other
    · rwa [Tracks, run, same] at tracked
    · exact absurd gone tracked

/-- What is kept of a deadline: a later one, or its moment has passed. -/
def Kept (last : Instant) (source : Source) (more earlier : List Call) : Prop :=
  (∀ later, deadline (history source (more ++ earlier)) = some later → last ≤ later) ∧
  (deadline (history source (more ++ earlier)) = none → ∃ call ∈ more, last ≤ call.now)

theorem kept_step {last : Instant} {source : Source} {call : Call} {more earlier : List Call}
    (clock : Clocked (call :: (more ++ earlier))) (uncleared : ¬ call.Clears source)
    (kept : Kept last source more earlier) : Kept last source (call :: more) earlier := by
  have before := (List.pairwise_cons.mp clock).1
  have passed : (∃ old ∈ more, last ≤ old.now) → ∃ old ∈ call :: more, last ≤ old.now := by
    intro ⟨old, member, le⟩
    exact ⟨old, List.mem_cons_of_mem call member, le⟩
  by_cases tracked : (run (call :: (more ++ earlier))).Tracks source
  · rw [Kept, List.cons_append, history_cons_of_tracks tracked]
    split
    · cases ends : deadline (history source (more ++ earlier)) with
      | none =>
          obtain ⟨old, member, le⟩ := kept.2 ends
          have now : last ≤ call.now := le.trans (before old (List.mem_append_left _ member))
          refine ⟨fun later found => ?_, fun _ => ⟨call, List.mem_cons_self, now⟩⟩
          simp only [deadline, ends] at found
          split at found
          · cases found
            exact Nat.le_add_right_of_le now
          · cases found
      | some old =>
          have times : ∀ time ∈ history source (more ++ earlier), time ≤ call.now := by
            intro time member
            obtain ⟨found, old, rfl⟩ := mem_history member
            exact before found old
          -- a failure may set a deadline, and then a later one
          obtain ⟨new, found, le⟩ := deadline_cons times ends
          rw [found]
          refine ⟨fun later same => ?_, fun none => by cases none⟩
          cases same
          exact (kept.1 old ends).trans le
    · exact ⟨kept.1, fun none => passed (kept.2 none)⟩
  · rw [Kept, List.cons_append, history, if_neg tracked]
    refine ⟨fun later found => (by cases found), fun _ => ?_⟩
    by_cases old : (run (more ++ earlier)).Tracks source
    · -- a stale entry is not locked, so its deadline has passed
      obtain cleared | ⟨-, entry, found, stale⟩ := tracks_step old tracked
      · exact absurd cleared uncleared
      · simp only [Entry.isStale, Entry.isLocked, Bool.and_eq_true, Bool.not_eq_true'] at stale
        have ends : entry.lockedUntil = deadline (history source (more ++ earlier)) := by
          rw [← lockedUntil_run, lockedUntil, found]
          rfl
        cases known : entry.lockedUntil with
        | none => exact passed (kept.2 (ends ▸ known))
        | some later =>
            rw [known] at stale
            have ended : later ≤ call.now := by simpa using stale.1
            exact ⟨call, List.mem_cons_self, (kept.1 later (ends ▸ known)).trans ended⟩
    · have none : deadline (history source (more ++ earlier)) = none := by
        rw [← lockedUntil_run, lockedUntil, not_not.mp old]
        rfl
      exact passed (kept.2 none)

theorem kept_run {last : Instant} {source : Source} {more earlier : List Call}
    (clock : Clocked (more ++ earlier)) (uncleared : ∀ call ∈ more, ¬ call.Clears source)
    (ends : deadline (history source earlier) = some last) : Kept last source more earlier := by
  induction more with
  | nil =>
      constructor
      · intro later found
        cases ends.symm.trans found
        exact Nat.le_refl _
      · intro none
        cases ends.symm.trans none
  | cons call more ih =>
      have rest := ih (List.pairwise_cons.mp clock).2 fun old member => uncleared old (List.mem_cons_of_mem call member)
      exact kept_step clock (uncleared call List.mem_cons_self) rest

/-! ## Which addresses share a counter -/

def IsV4 (ip : IpAddr) (octets : Block 4) : Prop :=
  ip = .v4 octets ∨ ∃ mapped, ip = .v6 mapped ∧ mapped.toList = mappedStart ++ octets.toList

def Shares (a b : IpAddr) : Prop :=
  (∃ octets, IsV4 a octets ∧ IsV4 b octets) ∨
  (∃ x y : Block 16, a = .v6 x ∧ b = .v6 y ∧ (¬ ∃ octets, IsV4 a octets) ∧ (¬ ∃ octets, IsV4 b octets) ∧
    x.toList.take 8 = y.toList.take 8)

theorem toCanonical_eq_v4 {ip : IpAddr} {octets : Block 4} : ip.toCanonical = .v4 octets ↔ IsV4 ip octets := by
  cases ip with
  | v4 own => simp [IpAddr.toCanonical, IsV4]
  | v6 own =>
      -- the mapped form is told by its first twelve bytes
      simp only [IpAddr.toCanonical, IsV4, reduceCtorEq, IpAddr.v6.injEq, exists_eq_left', false_or]
      constructor
      · intro same
        split at same
        · next mapped =>
          cases same
          rw [← mapped]
          exact (List.take_append_drop 12 own.toList).symm
        · cases same
      · intro mapped
        have size : mappedStart.length = 12 := rfl
        have start : own.toList.take 12 = mappedStart := by rw [mapped, ← size, List.take_left]
        have rest : own.toList.drop 12 = octets.toList := by rw [mapped, ← size, List.drop_left]
        rw [if_pos start]
        exact congrArg IpAddr.v4 (List.Vector.toList_injective rest)

theorem toCanonical_eq_v6 {ip : IpAddr} {octets : Block 16} :
    ip.toCanonical = .v6 octets ↔ ip = .v6 octets ∧ ¬ ∃ short, IsV4 ip short := by
  constructor
  · intro same
    have other : ¬ ∃ short, IsV4 ip short := by
      intro ⟨short, mapped⟩
      rw [toCanonical_eq_v4.mpr mapped] at same
      cases same
    cases ip with
    | v4 own => cases same
    | v6 own =>
        simp only [IpAddr.toCanonical] at same
        split at same
        · cases same
        · exact ⟨same, other⟩
  · intro ⟨same, other⟩
    subst same
    cases canonical : (IpAddr.v6 octets).toCanonical with
    | v4 short => exact absurd ⟨short, toCanonical_eq_v4.mp canonical⟩ other
    | v6 own =>
        simp only [IpAddr.toCanonical] at canonical
        split at canonical
        · cases canonical
        · exact canonical.symm

theorem networkOf_inj {x y : Block 16} : networkOf x = networkOf y ↔ x.toList.take 8 = y.toList.take 8 := by
  constructor
  · intro same
    have lists : x.toList.take 8 ++ List.replicate 8 (0 : UInt8) = y.toList.take 8 ++ List.replicate 8 0 :=
      congrArg List.Vector.toList same
    exact List.append_cancel_right lists
  · intro same
    apply List.Vector.toList_injective
    exact congrArg (· ++ List.replicate 8 (0 : UInt8)) same

theorem source_eq_iff (a b : IpAddr) : Source.of a = Source.of b ↔ Shares a b := by
  simp only [Shares, ← toCanonical_eq_v4]
  cases first : a.toCanonical with
  | v4 x =>
      cases other : b.toCanonical with
      | v4 y => simp [Source.of, first, other, eq_comm]
      | v6 y => simp [Source.of, first, other]
  | v6 x =>
      cases other : b.toCanonical with
      | v4 y => simp [Source.of, first, other]
      | v6 y =>
          obtain ⟨rfl, -⟩ := toCanonical_eq_v6.mp first
          obtain ⟨rfl, -⟩ := toCanonical_eq_v6.mp other
          simp [Source.of, first, other, networkOf_inj]

/-! ## A source on its own -/

theorem size_countTracked_succ (entries : Entries) (source : Source) (now : Instant) :
    (countTracked entries source now).2.size ≤ entries.size + 1 := HashMap.size_insert_le

theorem size_run_le (calls : List Call) : (run calls).entries.size ≤ calls.length := by
  induction calls with
  | nil => simp [run, new]
  | cons call earlier ih =>
      have one : ((run earlier).perform call).entries.size ≤ (run earlier).entries.size + 1 := by
        obtain ⟨op, ip, now⟩ := call
        cases op with
        | isLocked => exact Nat.le_succ _
        | recordFailure =>
            simp only [perform, recordFailure, countFailure]
            have kept : ((run earlier).entries.filter fun _ entry => !entry.isStale now).size ≤ (run earlier).entries.size :=
              HashMap.size_filter_le_size
            split
            · split
              · exact kept.trans (Nat.le_succ _)
              · exact (size_countTracked_succ _ _ _).trans (Nat.succ_le_succ kept)
            · exact size_countTracked_succ _ _ _
        | recordSuccess => exact HashMap.size_erase_le.trans (Nat.le_succ _)
      simp only [run, List.length_cons]
      omega

theorem history_replicate {n : Nat} (call : Call) (few : n ≤ maxTracked) (fails : call.op = .recordFailure) :
    history (Source.of call.ip) (List.replicate n call) = List.replicate n call.now := by
  induction n with
  | zero => rfl
  | succ n ih =>
      have fails : call.Fails (Source.of call.ip) := ⟨fails, rfl⟩
      have tracked : (run (List.replicate (n + 1) call)).Tracks (Source.of call.ip) := by
        have size := size_run_le (List.replicate n call)
        rw [List.length_replicate] at size
        -- with so few failures the map has room, so none of them is refused
        rcases (run (List.replicate n call)).perform_cases call (Source.of call.ip) with
          ⟨-, -, found⟩ | ⟨other, -⟩ | ⟨-, cleared | ⟨full, -⟩⟩
        · exact fun none => by cases found.symm.trans none
        · exact absurd fails other
        · cases fails.1.symm.trans cleared.1
        · omega
      rw [List.replicate_succ, history_cons_of_tracks tracked, if_pos fails, ih (by omega), List.replicate_succ]

/-! ## The promise -/

/-- What a call that leaves the source tracked does to its lockout: its failures
start one exactly at every fifth of them, and nothing else touches it. -/
theorem counted_step {calls : List Call} {call : Call} {source : Source}
    (tracked : (run (call :: calls)).Tracks source) :
    if call.Fails source then
      (countFailure (run calls).entries source call.now).1 = countedOf (call.now :: history source calls) ∧
        history source (call :: calls) = call.now :: history source calls
    else history source (call :: calls) = history source calls := by
  have shape := history_cons_of_tracks tracked
  split
  · next fails =>
    rw [if_pos fails] at shape
    rcases (run calls).perform_cases call source with ⟨-, counted, -⟩ | ⟨other, -⟩ | ⟨gone, -⟩
    · rw [counted, lookup_run]
      exact ⟨(count_entryOf _ _).2, shape⟩
    · exact absurd fails other
    · exact absurd gone tracked
  · next other =>
    rwa [if_neg other] at shape

def guesser : IpAddr := .v4 ⟨[192, 168, 1, 50], rfl⟩

def guess : Call := ⟨.recordFailure, guesser, 0⟩

def stranger : Call := ⟨.recordFailure, .v4 ⟨[10, 0, 0, 1], rfl⟩, second⟩

end GuessLimiter

end CesaConn
