import Mathlib.Algebra.Group.Nat.Defs
import Mathlib.Data.List.Induction

/-! Numbers written with a fixed number of digits, the highest digit first. -/

set_option autoImplicit false

namespace Format

def valueBE (base : Nat) (digits : List Nat) : Nat := digits.foldl (fun value digit => value * base + digit) 0

def digitsBE (base : Nat) : (size : Nat) → Nat → List Nat
  | 0, _ => []
  | size + 1, value => digitsBE base size (value / base) ++ [value % base]

variable {base : Nat}

@[simp] theorem valueBE_nil : valueBE base [] = 0 := rfl

@[simp] theorem valueBE_concat (digits : List Nat) (digit : Nat) :
    valueBE base (digits ++ [digit]) = valueBE base digits * base + digit := by
  rw [valueBE, List.foldl_append]
  rfl

@[simp] theorem length_digitsBE (size value : Nat) : (digitsBE base size value).length = size := by
  induction size generalizing value with
  | zero => rfl
  | succ size ih => rw [digitsBE, List.length_append, ih, List.length_singleton]

theorem lt_of_mem_digitsBE (some : 0 < base) {size value digit : Nat} (member : digit ∈ digitsBE base size value) :
    digit < base := by
  induction size generalizing value with
  | zero => cases member
  | succ size ih =>
      rw [digitsBE, List.mem_append, List.mem_singleton] at member
      cases member with
      | inl high => exact ih high
      | inr low =>
          rw [low]
          exact Nat.mod_lt value some

theorem valueBE_digitsBE {size value : Nat} (fits : value < base ^ size) : valueBE base (digitsBE base size value) = value := by
  induction size generalizing value with
  | zero =>
      have none : value = 0 := Nat.lt_one_iff.mp fits
      rw [none]
      rfl
  | succ size ih =>
      have high : value / base < base ^ size := Nat.div_lt_of_lt_mul (by rwa [Nat.pow_succ'] at fits)
      rw [digitsBE, valueBE_concat, ih high, Nat.mul_comm]
      exact Nat.div_add_mod value base

theorem valueBE_lt {digits : List Nat} (small : ∀ digit ∈ digits, digit < base) :
    valueBE base digits < base ^ digits.length := by
  induction digits using List.reverseRecOn with
  | nil => exact Nat.one_pos
  | append_singleton digits digit ih =>
      have high := ih fun other member => small other (List.mem_append_left _ member)
      have low : digit < base := small digit (List.mem_append_right _ (List.mem_singleton_self digit))
      rw [valueBE_concat, List.length_append, List.length_singleton, Nat.pow_succ]
      have next : valueBE base digits * base + digit < (valueBE base digits + 1) * base := by
        rw [Nat.succ_mul]
        exact Nat.add_lt_add_left low _
      exact Nat.lt_of_lt_of_le next (Nat.mul_le_mul_right base high)

theorem digitsBE_valueBE {digits : List Nat} (small : ∀ digit ∈ digits, digit < base) :
    digitsBE base digits.length (valueBE base digits) = digits := by
  induction digits using List.reverseRecOn with
  | nil => rfl
  | append_singleton digits digit ih =>
      have low : digit < base := small digit (List.mem_append_right _ (List.mem_singleton_self digit))
      have some : 0 < base := Nat.zero_lt_of_lt low
      have quotient : (valueBE base digits * base + digit) / base = valueBE base digits := by
        rw [Nat.mul_comm, Nat.mul_add_div some, Nat.div_eq_of_lt low, Nat.add_zero]
      have residue : (valueBE base digits * base + digit) % base = digit := by
        rw [Nat.mul_comm, Nat.mul_add_mod, Nat.mod_eq_of_lt low]
      rw [valueBE_concat, List.length_append, List.length_singleton, digitsBE, quotient, residue,
        ih fun other member => small other (List.mem_append_left _ member)]

end Format
