import CesaConn.Format.Bytes

/-! Text as UTF-8 bytes, and cutting it.

A byte that continues a character is told by its two highest bits, so a cut can
be moved back to the last character boundary without reading the text. What is
left is the longest list of whole characters that fits.
-/

set_option autoImplicit false

namespace Format

def encodeChars (chars : List Char) : Bytes := chars.flatMap String.utf8EncodeChar

@[simp] theorem encodeChars_nil : encodeChars [] = [] := rfl

@[simp] theorem encodeChars_cons (c : Char) (rest : List Char) :
    encodeChars (c :: rest) = String.utf8EncodeChar c ++ encodeChars rest := rfl

@[simp] theorem encodeChars_append (first second : List Char) :
    encodeChars (first ++ second) = encodeChars first ++ encodeChars second := List.flatMap_append

/-- `str::is_char_boundary`. -/
def isCharBoundary (bytes : Bytes) (index : Nat) : Bool :=
  if index = 0 then true
  else match bytes[index]? with
    | none => index = bytes.length
    | some byte => byte.toNat < 0x80 || 0xC0 ≤ byte.toNat

/-- The last character boundary up to an index. -/
def floorCharBoundary (bytes : Bytes) : Nat → Nat
  | 0 => 0
  | index + 1 => if isCharBoundary bytes (index + 1) then index + 1 else floorCharBoundary bytes index

/-- As many whole characters as fit into `limit` bytes. -/
def fitChars : (limit : Nat) → List Char → List Char
  | _, [] => []
  | limit, c :: rest =>
      if (String.utf8EncodeChar c).length ≤ limit then
        c :: fitChars (limit - (String.utf8EncodeChar c).length) rest
      else []

/-! ## The bytes of a character -/

theorem utf8EncodeChar_shape (c : Char) : ∃ first rest, String.utf8EncodeChar c = first :: rest ∧
    (first.toNat < 0x80 ∨ 0xC0 ≤ first.toNat) ∧ ∀ byte ∈ rest, 0x80 ≤ byte.toNat ∧ byte.toNat < 0xC0 := by
  have valid : c.val.toNat < 0x110000 := by
    rcases c.valid with low | high
    · exact low.trans (by decide)
    · exact high.2
  unfold String.utf8EncodeChar
  dsimp only
  split
  · refine ⟨_, _, rfl, .inl ?_, by simp⟩
    simp only [UInt8.toNat_ofNat']
    omega
  · split
    · refine ⟨_, _, rfl, .inr ?_, ?_⟩
      · simp only [UInt8.toNat_ofNat']
        omega
      · simp only [List.mem_cons, List.not_mem_nil, or_false, forall_eq, UInt8.toNat_ofNat']
        omega
    · split
      · refine ⟨_, _, rfl, .inr ?_, ?_⟩
        · simp only [UInt8.toNat_ofNat']
          omega
        · simp only [List.mem_cons, List.not_mem_nil, or_false, forall_eq_or_imp, forall_eq, UInt8.toNat_ofNat']
          omega
      · refine ⟨_, _, rfl, .inr ?_, ?_⟩
        · simp only [UInt8.toNat_ofNat']
          omega
        · simp only [List.mem_cons, List.not_mem_nil, or_false, forall_eq_or_imp, forall_eq, UInt8.toNat_ofNat']
          omega

theorem isCharBoundary_append (first second : List Char) :
    isCharBoundary (encodeChars (first ++ second)) (encodeChars first).length = true := by
  unfold isCharBoundary
  split
  · rfl
  · rw [encodeChars_append, List.getElem?_append_right (Nat.le_refl _), Nat.sub_self]
    cases second with
    | nil => simp
    | cons c rest =>
        obtain ⟨lead, more, shape, outer, -⟩ := utf8EncodeChar_shape c
        simpa [shape] using outer

theorem isCharBoundary_inside (first rest : List Char) (c : Char) {offset : Nat} (after : 0 < offset)
    (before : offset < (String.utf8EncodeChar c).length) :
    isCharBoundary (encodeChars (first ++ c :: rest)) ((encodeChars first).length + offset) = false := by
  obtain ⟨lead, more, shape, -, inner⟩ := utf8EncodeChar_shape c
  obtain ⟨offset, rfl⟩ := Nat.exists_eq_succ_of_ne_zero (Nat.ne_of_gt after)
  have bound : offset < more.length := by
    rw [shape, List.length_cons] at before
    omega
  have found : (encodeChars (first ++ c :: rest))[(encodeChars first).length + (offset + 1)]? = some (more.get ⟨offset, bound⟩) := by
    rw [encodeChars_append, List.getElem?_append_right (Nat.le_add_right _ _), Nat.add_sub_cancel_left, encodeChars_cons,
      shape, List.cons_append, List.getElem?_cons_succ, List.getElem?_append_left bound]
    exact List.getElem?_eq_getElem bound
  have byte := inner _ (List.get_mem more ⟨offset, bound⟩)
  unfold isCharBoundary
  rw [if_neg (by omega), found]
  simp only [Bool.or_eq_false_iff, decide_eq_false_iff_not]
  omega

/-! ## The cut -/

theorem floorCharBoundary_eq {bytes : Bytes} {limit index : Nat} (le : index ≤ limit)
    (boundary : isCharBoundary bytes index = true)
    (last : ∀ other, index < other → other ≤ limit → isCharBoundary bytes other = false) :
    floorCharBoundary bytes limit = index := by
  induction limit with
  | zero => exact (Nat.le_zero.mp le).symm
  | succ limit ih =>
      rw [floorCharBoundary]
      rcases Nat.lt_or_eq_of_le le with less | same
      · rw [last (limit + 1) less (Nat.le_refl _), if_neg Bool.false_ne_true]
        exact ih (Nat.le_of_lt_succ less) fun other after fits => last other after (Nat.le_succ_of_le fits)
      · rw [← same, boundary, if_pos rfl]

/-- What is left out begins with a character that does not fit any more. -/
theorem fitChars_split (limit : Nat) (chars : List Char) : ∃ rest, chars = fitChars limit chars ++ rest ∧
    (encodeChars (fitChars limit chars)).length ≤ limit ∧
    ∀ c more, rest = c :: more → limit < (encodeChars (fitChars limit chars)).length + (String.utf8EncodeChar c).length := by
  induction chars generalizing limit with
  | nil => exact ⟨[], rfl, Nat.zero_le _, fun c more none => by cases none⟩
  | cons c rest ih =>
      by_cases fits : (String.utf8EncodeChar c).length ≤ limit
      · obtain ⟨left, shape, size, last⟩ := ih (limit - (String.utf8EncodeChar c).length)
        rw [fitChars, if_pos fits]
        refine ⟨left, by rw [List.cons_append, ← shape], ?_, ?_⟩
        · rw [encodeChars_cons, List.length_append]
          omega
        · intro next more same
          have outside := last next more same
          rw [encodeChars_cons, List.length_append]
          omega
      · rw [fitChars, if_neg fits]
        refine ⟨c :: rest, rfl, Nat.zero_le _, ?_⟩
        intro next more same
        cases same
        simpa using fits

theorem fitChars_begins (limit : Nat) (chars : List Char) : fitChars limit chars <+: chars := by
  obtain ⟨rest, shape, -⟩ := fitChars_split limit chars
  exact ⟨rest, shape.symm⟩

theorem fitChars_longest {limit : Nat} {chars other : List Char} (begins : other <+: chars)
    (fits : (encodeChars other).length ≤ limit) : other <+: fitChars limit chars := by
  induction chars generalizing limit other with
  | nil => exact begins
  | cons c rest ih =>
      cases other with
      | nil => exact List.nil_prefix
      | cons d other =>
          obtain ⟨rfl, tail⟩ := List.cons_prefix_cons.mp begins
          rw [encodeChars_cons, List.length_append] at fits
          rw [fitChars, if_pos (by omega)]
          exact List.cons_prefix_cons.mpr ⟨rfl, ih tail (by omega)⟩

theorem fitChars_of_le {limit : Nat} {chars : List Char} (fits : (encodeChars chars).length ≤ limit) :
    fitChars limit chars = chars :=
  (fitChars_begins limit chars).eq_of_length_le (fitChars_longest (List.prefix_refl chars) fits).length_le

/-- Moving a cut back to a boundary leaves the characters that fit. -/
theorem floorCharBoundary_encodeChars {limit : Nat} {chars : List Char} (le : limit ≤ (encodeChars chars).length) :
    floorCharBoundary (encodeChars chars) limit = (encodeChars (fitChars limit chars)).length := by
  obtain ⟨rest, shape, size, last⟩ := fitChars_split limit chars
  apply floorCharBoundary_eq size
  · conv => lhs; arg 1; rw [shape]
    exact isCharBoundary_append _ _
  · intro other after fits
    cases rest with
    | nil =>
        rw [List.append_nil] at shape
        rw [← shape] at after
        omega
    | cons c more =>
        have outside := last c more rfl
        have inside := isCharBoundary_inside (fitChars limit chars) more c
          (show 0 < other - (encodeChars (fitChars limit chars)).length by omega) (by omega)
        rw [← shape, Nat.add_sub_cancel' (Nat.le_of_lt after)] at inside
        exact inside

end Format
