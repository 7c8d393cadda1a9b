import Mathlib.Data.Vector.Basic

/-! Byte strings, fixed-size byte arrays, and reading them from the front.

Every reader takes what it needs from the front and leaves the rest. Its law is
an equivalence, so one lemma serves both the writer's round trip and the claim
that only written bytes are read.
-/

set_option autoImplicit false

namespace Format

abbrev Bytes := List UInt8

/-- A byte array whose length is part of its type. -/
abbrev Block (size : Nat) := List.Vector UInt8 size

def splitFirstChunk (size : Nat) (bytes : Bytes) : Option (Block size × Bytes) :=
  if long : size ≤ bytes.length then
    some (⟨bytes.take size, by simp [long]⟩, bytes.drop size)
  else none

theorem splitFirstChunk_eq_some {size : Nat} {bytes rest : Bytes} {chunk : Block size} :
    splitFirstChunk size bytes = some (chunk, rest) ↔ bytes = chunk.toList ++ rest := by
  constructor
  · intro found
    unfold splitFirstChunk at found
    split at found
    · cases found
      exact (List.take_append_drop size bytes).symm
    · cases found
  · rintro rfl
    have long : size ≤ (chunk.toList ++ rest).length := by simp
    rw [splitFirstChunk, dif_pos long]
    refine congrArg some (Prod.ext (List.Vector.toList_injective ?_) (by simp))
    show (chunk.toList ++ rest).take size = chunk.toList
    simp

@[simp] theorem splitFirstChunk_append {size : Nat} (chunk : Block size) (rest : Bytes) :
    splitFirstChunk size (chunk.toList ++ rest) = some (chunk, rest) :=
  splitFirstChunk_eq_some.mpr rfl

/-- The bytes as an array of exactly `size`, or nothing. -/
def toBlock (size : Nat) (bytes : Bytes) : Option (Block size) :=
  if exact : bytes.length = size then some ⟨bytes, exact⟩ else none

theorem toBlock_eq_some {size : Nat} {bytes : Bytes} {block : Block size} :
    toBlock size bytes = some block ↔ bytes = block.toList := by
  constructor
  · intro found
    unfold toBlock at found
    split at found
    · cases found
      rfl
    · cases found
  · rintro rfl
    simp only [toBlock, List.Vector.toList_length, ↓reduceDIte]
    rfl

@[simp] theorem toBlock_toList {size : Nat} (block : Block size) :
    toBlock size block.toList = some block :=
  toBlock_eq_some.mpr rfl

def splitAtChecked (count : Nat) (bytes : Bytes) : Option (Bytes × Bytes) :=
  if count ≤ bytes.length then some (bytes.splitAt count) else none

theorem splitAtChecked_eq_some {count : Nat} {bytes front rest : Bytes} :
    splitAtChecked count bytes = some (front, rest) ↔ bytes = front ++ rest ∧ front.length = count := by
  constructor
  · intro found
    unfold splitAtChecked at found
    split at found
    · simp only [List.splitAt_eq, Option.some.injEq, Prod.mk.injEq] at found
      obtain ⟨rfl, rfl⟩ := found
      exact ⟨(List.take_append_drop count bytes).symm, by simpa using ‹count ≤ bytes.length›⟩
    · cases found
  · rintro ⟨rfl, rfl⟩
    simp [splitAtChecked]

/-! ## Little-endian numbers -/

/-- The `size` low bytes of `value`, lowest first. -/
def little : (size : Nat) → Nat → Bytes
  | 0, _ => []
  | size + 1, value => UInt8.ofNat value :: little size (value / 256)

def valueLE : Bytes → Nat
  | [] => 0
  | byte :: rest => byte.toNat + 256 * valueLE rest

@[simp] theorem length_little (size value : Nat) : (little size value).length = size := by
  induction size generalizing value with
  | zero => rfl
  | succ size ih => simp [little, ih]

theorem valueLE_little {size value : Nat} (fits : value < 256 ^ size) :
    valueLE (little size value) = value := by
  induction size generalizing value with
  | zero =>
      have : value = 0 := by simpa using fits
      rw [this]
      rfl
  | succ size ih =>
      have next : value / 256 < 256 ^ size :=
        (Nat.div_lt_iff_lt_mul (by decide)).mpr (by simpa [Nat.pow_succ] using fits)
      simp only [little, valueLE, ih next, UInt8.toNat_ofNat']
      omega

theorem little_valueLE (bytes : Bytes) : little bytes.length (valueLE bytes) = bytes := by
  induction bytes with
  | nil => rfl
  | cons byte rest ih =>
      have low : byte.toNat < 256 := byte.toNat_lt
      have quotient : (byte.toNat + 256 * valueLE rest) / 256 = valueLE rest := by omega
      have residue : UInt8.ofNat (byte.toNat + 256 * valueLE rest) = byte := by
        apply UInt8.toNat_inj.mp
        rw [UInt8.toNat_ofNat']
        omega
      simp only [List.length_cons, valueLE, little, quotient, residue, ih]

theorem valueLE_lt (bytes : Bytes) : valueLE bytes < 256 ^ bytes.length := by
  induction bytes with
  | nil => simp [valueLE]
  | cons byte rest ih =>
      have low : byte.toNat < 256 := byte.toNat_lt
      simp only [valueLE, List.length_cons, Nat.pow_succ]
      omega

def readLE (size : Nat) (bytes : Bytes) : Option (Nat × Bytes) :=
  (splitFirstChunk size bytes).map fun (chunk, rest) => (valueLE chunk.toList, rest)

theorem readLE_eq_some {size value : Nat} {bytes rest : Bytes} :
    readLE size bytes = some (value, rest) ↔ bytes = little size value ++ rest ∧ value < 256 ^ size := by
  constructor
  · intro found
    simp only [readLE, Option.map_eq_some_iff, Prod.exists, Prod.mk.injEq] at found
    obtain ⟨chunk, after, split, rfl, rfl⟩ := found
    rw [splitFirstChunk_eq_some] at split
    subst split
    have exact : chunk.toList.length = size := chunk.toList_length
    refine ⟨?_, by simpa only [exact] using valueLE_lt chunk.toList⟩
    have written := little_valueLE chunk.toList
    rw [exact] at written
    rw [written]
  · rintro ⟨rfl, fits⟩
    have split := splitFirstChunk_append (⟨little size value, length_little size value⟩ : Block size) rest
    rw [List.Vector.toList_mk] at split
    simp only [readLE, split, Option.map_some, List.Vector.toList_mk, valueLE_little fits]

theorem readLE_append (size value : Nat) (fits : value < 256 ^ size) (rest : Bytes) :
    readLE size (little size value ++ rest) = some (value, rest) :=
  readLE_eq_some.mpr ⟨rfl, fits⟩

def littleBlock (size value : Nat) : Block size := ⟨little size value, length_little size value⟩

theorem nodup_map_little {size count : Nat} (fits : count ≤ 256 ^ size) : ((List.range count).map (little size)).Nodup := by
  apply List.Nodup.map_on _ List.nodup_range
  intro first low second high same
  have small {number : Nat} (member : number ∈ List.range count) : number < 256 ^ size :=
    (List.mem_range.mp member).trans_le fits
  rw [← valueLE_little (small low), same, valueLE_little (small high)]

/-! ## Counted records -/

theorem length_flatMap_le {A : Type} {f : A → Bytes} {size : Nat} {records : List A}
    (short : ∀ record ∈ records, (f record).length ≤ size) : (records.flatMap f).length ≤ records.length * size := by
  induction records with
  | nil => simp
  | cons record rest ih =>
      have first := short record List.mem_cons_self
      have others := ih fun other member => short other (List.mem_cons_of_mem _ member)
      simp only [List.flatMap_cons, List.length_append, List.length_cons, Nat.succ_mul]
      omega

theorem length_flatMap_eq {A : Type} {f : A → Bytes} {size : Nat} {records : List A}
    (exact : ∀ record ∈ records, (f record).length = size) : (records.flatMap f).length = records.length * size := by
  rw [List.length_flatMap, List.map_congr_left exact, List.map_const', List.sum_replicate_nat]

section Records

variable {A K : Type} [DecidableEq K]

/-- `count` more records after those in `out`; a record whose key is taken is refused. -/
def readDistinct (read : Bytes → Option (A × Bytes)) (key : A → K) :
    Nat → List A → Bytes → Option (List A × Bytes)
  | 0, out, rest => some (out, rest)
  | count + 1, out, rest => do
      let (record, after) ← read rest
      if out.any fun saved => key saved = key record then none
      else readDistinct read key count (out ++ [record]) after

/-- A reader that takes exactly what `write` makes of the records in `ok` gives a
record list exactly when it was written, with distinct keys. -/
theorem readDistinct_eq_some {read : Bytes → Option (A × Bytes)} {key : A → K} {write : A → Bytes}
    {ok : A → Prop}
    (law : ∀ {bytes record rest}, read bytes = some (record, rest) ↔ ok record ∧ bytes = write record ++ rest)
    {count : Nat} {out records : List A} {bytes rest : Bytes} (distinct : (out.map key).Nodup) :
    readDistinct read key count out bytes = some (records, rest) ↔
      ∃ more, records = out ++ more ∧ more.length = count ∧ (∀ record ∈ more, ok record) ∧
        (records.map key).Nodup ∧ bytes = more.flatMap write ++ rest := by
  induction count generalizing out bytes with
  | zero =>
      simp only [readDistinct, Option.some.injEq, Prod.mk.injEq, List.length_eq_zero_iff]
      constructor
      · rintro ⟨rfl, rfl⟩
        exact ⟨[], by simp, rfl, by simp, distinct, by simp⟩
      · rintro ⟨_, rfl, rfl, -, -, rfl⟩
        simp
  | succ count ih =>
      simp only [readDistinct, Option.bind_eq_bind, Option.bind_eq_some_iff, Prod.exists, law,
        List.any_eq_true, decide_eq_true_eq, Option.ite_none_left_eq_some]
      constructor
      · rintro ⟨record, after, ⟨fine, rfl⟩, fresh, read⟩
        have extended : ((out ++ [record]).map key).Nodup := by
          simp only [List.map_append, List.map_cons, List.map_nil, List.nodup_append, distinct,
            List.nodup_singleton, List.mem_map, List.mem_singleton, true_and]
          rintro _ ⟨saved, member, rfl⟩ _ rfl same
          exact fresh ⟨saved, member, same⟩
        obtain ⟨more, rfl, size, all, nodup, rfl⟩ := (ih extended).mp read
        exact ⟨record :: more, by simp, by simp [size], by simpa using ⟨fine, all⟩, nodup, by simp⟩
      · rintro ⟨more, rfl, size, all, nodup, rfl⟩
        obtain ⟨record, more, rfl⟩ := List.exists_cons_of_length_eq_add_one size
        have shape : out ++ record :: more = (out ++ [record]) ++ more := by simp
        have extended : ((out ++ [record]).map key).Nodup := by
          rw [shape, List.map_append] at nodup
          exact (List.nodup_append.mp nodup).1
        refine ⟨record, more.flatMap write ++ rest, ⟨all record (by simp), by simp⟩, ?_, ?_⟩
        · rintro ⟨saved, member, same⟩
          simp only [List.map_append, List.map_cons, List.map_nil, List.nodup_append, List.mem_map,
            List.mem_singleton] at extended
          exact extended.2.2 _ ⟨saved, member, rfl⟩ _ rfl same
        · exact (ih extended).mpr ⟨more, shape, by simpa using size,
            fun other member => all other (List.mem_cons_of_mem _ member), nodup, rfl⟩

def readCount (read : Bytes → Option (A × Bytes)) : Nat → List A → Bytes → Option (List A × Bytes)
  | 0, out, rest => some (out, rest)
  | count + 1, out, rest => do
      let (record, after) ← read rest
      readCount read count (out ++ [record]) after

theorem readCount_eq_some {read : Bytes → Option (A × Bytes)} {write : A → Bytes} {ok : A → Prop}
    (law : ∀ {bytes record rest}, read bytes = some (record, rest) ↔ ok record ∧ bytes = write record ++ rest)
    {count : Nat} {out records : List A} {bytes rest : Bytes} :
    readCount read count out bytes = some (records, rest) ↔
      ∃ more, records = out ++ more ∧ more.length = count ∧ (∀ record ∈ more, ok record) ∧
        bytes = more.flatMap write ++ rest := by
  induction count generalizing out bytes with
  | zero =>
      simp only [readCount, Option.some.injEq, Prod.mk.injEq, List.length_eq_zero_iff]
      constructor
      · intro ⟨same, left⟩
        exact ⟨[], by simp [same], rfl, by simp, by simp [left]⟩
      · intro ⟨_, same, empty, _, left⟩
        subst empty
        exact ⟨by simp [same], by simpa using left⟩
  | succ count ih =>
      simp only [readCount, Option.bind_eq_bind, Option.bind_eq_some_iff, Prod.exists, law, ih]
      constructor
      · intro ⟨record, after, ⟨fine, shape⟩, more, same, size, all, left⟩
        refine ⟨record :: more, by simp [same], by simp [size], ?_, by simp [shape, left]⟩
        exact List.forall_mem_cons.mpr ⟨fine, all⟩
      · intro ⟨more, same, size, all, shape⟩
        obtain ⟨record, more, rfl⟩ := List.exists_cons_of_length_eq_add_one size
        obtain ⟨fine, others⟩ := List.forall_mem_cons.mp all
        exact ⟨record, more.flatMap write ++ rest, ⟨fine, by simp [shape]⟩, more, by simp [same],
          by simpa using size, others, rfl⟩

/-- As many records on both sides, then anything: where one ends nothing is left open. -/
theorem flatMap_append_inj {read : Bytes → Option (A × Bytes)} {write : A → Bytes} {ok : A → Prop}
    (law : ∀ {bytes record rest}, read bytes = some (record, rest) ↔ ok record ∧ bytes = write record ++ rest)
    {first second : List A} {left right : Bytes} (fine : ∀ record ∈ first, ok record)
    (fine' : ∀ record ∈ second, ok record) (size : first.length = second.length)
    (same : first.flatMap write ++ left = second.flatMap write ++ right) : first = second ∧ left = right := by
  induction first generalizing second with
  | nil =>
      have none : second = [] := List.length_eq_zero_iff.mp size.symm
      subst none
      exact ⟨rfl, same⟩
  | cons record first ih =>
      obtain ⟨other, second, rfl⟩ := List.exists_cons_of_length_eq_add_one size.symm
      rw [List.flatMap_cons, List.flatMap_cons, List.append_assoc, List.append_assoc] at same
      have own : read (write record ++ (first.flatMap write ++ left)) = some (record, first.flatMap write ++ left) :=
        law.mpr ⟨fine record List.mem_cons_self, rfl⟩
      rw [same, law.mpr ⟨fine' other List.mem_cons_self, rfl⟩] at own
      simp only [Option.some.injEq, Prod.mk.injEq] at own
      obtain ⟨rfl, later⟩ := own
      have rest := ih (fun record member => fine record (List.mem_cons_of_mem _ member))
        (fun record member => fine' record (List.mem_cons_of_mem _ member)) (Nat.succ.inj size) later.symm
      exact ⟨congrArg (other :: ·) rest.1, rest.2⟩

end Records

end Format
