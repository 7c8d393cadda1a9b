import CesaConn.Format.Bytes

/-! Socket addresses and the text the standard library writes for them.

The text of an address is the name of a device that was never named, so it has
to be a name the vault keeps: short and without control characters.
-/

set_option autoImplicit false

namespace CesaConn

open Format

inductive SocketAddr where
  | v4 (ip : Block 4) (port : UInt16)
  | v6 (ip : Block 16) (port : UInt16) (flowinfo scopeId : UInt32)
  deriving DecidableEq

inductive IpAddr where
  | v4 (octets : Block 4)
  | v6 (octets : Block 16)
  deriving DecidableEq

def SocketAddr.ip : SocketAddr → IpAddr
  | .v4 ip _ => .v4 ip
  | .v6 ip _ _ _ => .v6 ip

namespace SocketAddr

def decimal (value : Nat) : List Char := Nat.toDigits 10 value

def displayV4 (octets : Bytes) : List Char :=
  ['.'].intercalate (octets.map fun octet => decimal octet.toNat)

def segments : Bytes → List Nat
  | high :: low :: rest => (256 * high.toNat + low.toNat) :: segments rest
  | _ => []

def formatSubslice (chunk : List Nat) : List Char :=
  [':'].intercalate (chunk.map fun segment => Nat.toDigits 16 segment)

structure Span where
  start : Nat
  len : Nat

/-- The first of the longest runs of zero groups, in one pass. -/
def longestZeroes : (index : Nat) → (longest current : Span) → List Nat → Span
  | _, longest, _, [] => longest
  | index, longest, current, segment :: rest =>
      if segment = 0 then
        let current : Span := ⟨if current.len = 0 then index else current.start, current.len + 1⟩
        longestZeroes (index + 1) (if longest.len < current.len then current else longest) current rest
      else longestZeroes (index + 1) longest ⟨0, 0⟩ rest

def displayV6 (octets : Bytes) : List Char :=
  -- an address that stands for an IPv4 one keeps the dotted form
  if octets.take 12 = List.replicate 10 0 ++ [0xFF, 0xFF] then
    "::ffff:".toList ++ displayV4 (octets.drop 12)
  else
    let groups := segments octets
    let zeroes := longestZeroes 0 ⟨0, 0⟩ ⟨0, 0⟩ groups
    if 1 < zeroes.len then
      formatSubslice (groups.take zeroes.start) ++
        ("::".toList ++ formatSubslice (groups.drop (zeroes.start + zeroes.len)))
    else formatSubslice groups

def text : SocketAddr → List Char
  | .v4 ip port => displayV4 ip.toList ++ (':' :: decimal port.toNat)
  | .v6 ip port _ scopeId =>
      if scopeId = 0 then '[' :: displayV6 ip.toList ++ ("]:".toList ++ decimal port.toNat)
      else '[' :: displayV6 ip.toList ++
        ('%' :: decimal scopeId.toNat ++ ("]:".toList ++ decimal port.toNat))

/-- `SocketAddr::to_string`. -/
def toString (addr : SocketAddr) : String := String.ofList addr.text

example : toString (.v4 ⟨[192, 168, 1, 20], rfl⟩ 3232) = "192.168.1.20:3232" := by decide

example : toString (.v6 ⟨[0xFE, 0x80, 0, 0, 0, 0, 0, 0, 0, 0, 0, 0, 0, 0, 0, 1], rfl⟩ 80 0 0) =
    "[fe80::1]:80" := by decide

/-! ## The text is short and printable -/

structure Plain (size : Nat) (text : List Char) : Prop where
  printable : ∀ c ∈ text, 0x20 ≤ c.toNat ∧ c.toNat < 0x7F
  short : text.length ≤ size

theorem Plain.append {m n : Nat} {first second : List Char} (left : Plain m first) (right : Plain n second) :
    Plain (m + n) (first ++ second) where
  printable c member := (List.mem_append.mp member).elim (left.printable c) (right.printable c)
  short := by
    rw [List.length_append]
    exact Nat.add_le_add left.short right.short

theorem Plain.mono {m n : Nat} {text : List Char} (plain : Plain m text) (larger : m ≤ n) : Plain n text :=
  ⟨plain.printable, plain.short.trans larger⟩

theorem Plain.cons {n : Nat} {c : Char} {text : List Char} (printable : 0x20 ≤ c.toNat ∧ c.toNat < 0x7F)
    (plain : Plain n text) : Plain (n + 1) (c :: text) where
  printable other member := by
    cases member with
    | head => exact printable
    | tail _ later => exact plain.printable other later
  short := by simpa using plain.short

theorem plain_toDigits {base value digits : Nat} (usual : 1 < base) (small : base ≤ 16) (some : 0 < digits)
    (fits : value < base ^ digits) : Plain digits (Nat.toDigits base value) where
  printable c member := by
    -- a digit of a base up to sixteen is one of sixteen characters
    have digit : ∀ fuel n (rest : List Char), (∀ c ∈ rest, 0x20 ≤ c.toNat ∧ c.toNat < 0x7F) →
        ∀ c ∈ Nat.toDigitsCore base fuel n rest, 0x20 ≤ c.toNat ∧ c.toNat < 0x7F := by
      intro fuel
      induction fuel with
      | zero => intro n rest fine; simpa [Nat.toDigitsCore] using fine
      | succ fuel ih =>
          intro n rest fine
          have char : 0x20 ≤ (Nat.digitChar (n % base)).toNat ∧ (Nat.digitChar (n % base)).toNat < 0x7F := by
            have below : n % base < 16 := (Nat.mod_lt n (by omega)).trans_le small
            generalize n % base = d at below
            revert d
            decide
          have extended : ∀ c ∈ Nat.digitChar (n % base) :: rest, 0x20 ≤ c.toNat ∧ c.toNat < 0x7F := by
            simpa using ⟨char, fine⟩
          rw [Nat.toDigitsCore]
          split
          · exact extended
          · exact ih _ _ extended
    exact digit _ _ [] (by simp) c member
  short := (Nat.length_toDigits_le_iff usual some).mpr fits

theorem plain_intercalate {size : Nat} {pieces : List (List Char)} (separator : Char)
    (printable : 0x20 ≤ separator.toNat ∧ separator.toNat < 0x7F) (plain : ∀ piece ∈ pieces, Plain size piece) :
    Plain (pieces.length * (size + 1)) ([separator].intercalate pieces) := by
  induction pieces with
  | nil => exact ⟨by simp, by simp⟩
  | cons piece rest ih =>
      have head := plain piece (by simp)
      cases rest with
      | nil => simpa using head.mono (Nat.le_succ size)
      | cons next later =>
          have tail := ih fun other member => plain other (List.mem_cons_of_mem _ member)
          have whole := head.append (tail.cons printable)
          refine (?_ : Plain _ _).mono (?_ : size + ((next :: later).length * (size + 1) + 1) ≤ _)
          · simpa [List.intercalate] using whole
          · simp only [List.length_cons, Nat.add_mul]
            omega

theorem plain_displayV4 (octets : Bytes) : Plain (octets.length * 4) (displayV4 octets) := by
  have pieces : ∀ piece ∈ octets.map fun octet => decimal octet.toNat, Plain 3 piece := by
    simp only [List.mem_map, forall_exists_index, and_imp, forall_apply_eq_imp_iff₂]
    intro octet _
    have small : octet.toNat < 256 := octet.toNat_lt
    exact plain_toDigits (by decide) (by decide) (by decide) (by omega)
  have whole := plain_intercalate '.' (by decide) pieces
  rwa [List.length_map] at whole

theorem segments_lt (octets : Bytes) : ∀ segment ∈ segments octets, segment < 16 ^ 4 := by
  induction octets using segments.induct with
  | case1 high low rest ih =>
      have upper : high.toNat < 256 := high.toNat_lt
      have lower : low.toNat < 256 := low.toNat_lt
      simp only [segments, List.mem_cons, forall_eq_or_imp]
      exact ⟨by omega, ih⟩
  | case2 octets short =>
      unfold segments
      split
      · exact absurd rfl (short _ _ _)
      · simp

theorem length_segments (octets : Bytes) : (segments octets).length ≤ octets.length / 2 := by
  induction octets using segments.induct with
  | case1 high low rest ih =>
      simp only [segments, List.length_cons]
      omega
  | case2 octets short =>
      unfold segments
      split
      · exact absurd rfl (short _ _ _)
      · simp

theorem plain_formatSubslice (chunk : List Nat) (small : ∀ segment ∈ chunk, segment < 16 ^ 4) :
    Plain (chunk.length * 5) (formatSubslice chunk) := by
  have pieces : ∀ piece ∈ chunk.map fun segment => Nat.toDigits 16 segment, Plain 4 piece := by
    simp only [List.mem_map, forall_exists_index, and_imp, forall_apply_eq_imp_iff₂]
    exact fun segment member => plain_toDigits (by decide) (by decide) (by decide) (small segment member)
  have whole := plain_intercalate ':' (by decide) pieces
  rwa [List.length_map] at whole

theorem plain_displayV6 (ip : Block 16) : Plain 100 (displayV6 ip.toList) := by
  have groups : (segments ip.toList).length ≤ 8 := by
    have bound := length_segments ip.toList
    rwa [List.Vector.toList_length] at bound
  have small := segments_lt ip.toList
  unfold displayV6
  split
  · have dotted := plain_displayV4 (ip.toList.drop 12)
    rw [List.length_drop, List.Vector.toList_length] at dotted
    have label : Plain 7 "::ffff:".toList := ⟨by simp, by simp⟩
    exact (label.append dotted).mono (by decide)
  · dsimp only
    split
    · generalize longestZeroes 0 ⟨0, 0⟩ ⟨0, 0⟩ (segments ip.toList) = zeroes
      have before := plain_formatSubslice ((segments ip.toList).take zeroes.start)
        fun segment member => small segment (List.mem_of_mem_take member)
      have after := plain_formatSubslice ((segments ip.toList).drop (zeroes.start + zeroes.len))
        fun segment member => small segment (List.mem_of_mem_drop member)
      have gap : Plain 2 "::".toList := ⟨by simp, by simp⟩
      refine (before.append (gap.append after)).mono ?_
      rw [List.length_take, List.length_drop]
      omega
    · exact (plain_formatSubslice _ small).mono (by omega)

theorem plain_text (addr : SocketAddr) : Plain 125 addr.text := by
  have port : ∀ port : UInt16, Plain 5 (decimal port.toNat) := fun port =>
    plain_toDigits (by decide) (by decide) (by decide) (port.toNat_lt.trans (by decide))
  have close : Plain 2 "]:".toList := ⟨by simp, by simp⟩
  cases addr with
  | v4 ip portNumber =>
      have whole := (plain_displayV4 ip.toList).append ((port portNumber).cons (c := ':') (by decide))
      rw [List.Vector.toList_length] at whole
      exact whole.mono (by decide)
  | v6 ip portNumber flowinfo scopeId =>
      have shown := (plain_displayV6 ip).cons (c := '[') (by decide)
      simp only [text]
      split
      · exact (shown.append (close.append (port portNumber))).mono (by decide)
      · have scope : Plain 10 (decimal scopeId.toNat) :=
          plain_toDigits (by decide) (by decide) (by decide) (scopeId.toNat_lt.trans (by decide))
        exact (shown.append ((scope.cons (c := '%') (by decide)).append (close.append (port portNumber)))).mono
          (by decide)

end SocketAddr

end CesaConn
