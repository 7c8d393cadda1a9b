import CesaConn.Auth.Pairing
import CesaConn.Format.Digits
import CesaConn.Ipc.Request

/-! The pairing code keeps every bit of the expanded handshake hash.

Six bytes and eight symbols are two ways to write one number, as 256 ^ 6 and 64 ^ 8 are
the same.
-/

set_option autoImplicit false

namespace CesaConn

namespace Auth

open Format
open Ipc (isValid pairingSymbols)

def cut (bits : Nat) : PairingCode :=
  ⟨[42, 36, 30, 24, 18, 12, 6, 0].map fun shift => UInt8.ofNat ((bits >>> shift) &&& 0x3F), rfl⟩

def symbolsOf (okm : Block 6) : PairingCode := cut (okm.toList.foldl (fun bits byte => bits * 256 + byte.toNat) 0)

theorem pairingCode_eq {crypto : Primitives} {handshakeHash : HandshakeHash} {okm : Block 6}
    (expanded : crypto.hkdf 6 handshakeHash.toList pairingCodeLabel = some okm) :
    pairingCode crypto handshakeHash = .ok (symbolsOf okm) := by
  rw [pairingCode, expanded]
  rfl

def numbers {size : Nat} (block : Block size) : List Nat := block.toList.map UInt8.toNat

theorem length_numbers {size : Nat} (block : Block size) : (numbers block).length = size := by
  rw [numbers, List.length_map, List.Vector.toList_length]

theorem lt_of_mem_numbers {size number : Nat} {block : Block size} (member : number ∈ numbers block) : number < 256 := by
  obtain ⟨byte, -, rfl⟩ := List.mem_map.mp member
  exact byte.toNat_lt

theorem numbers_injective {size : Nat} {first second : Block size} (same : numbers first = numbers second) :
    first = second :=
  List.Vector.toList_injective (List.map_injective_iff.mpr (fun _ _ => UInt8.toNat_inj.mp) same)

/-- The bytes that were cut into these symbols, the first symbol highest. -/
def okmOf (code : PairingCode) : Block 6 :=
  ⟨(digitsBE 256 6 (valueBE 64 (numbers code))).map UInt8.ofNat, by simp⟩

theorem isValid_iff {code : PairingCode} : isValid code = true ↔ ∀ number ∈ numbers code, number < 64 := by
  rw [isValid, List.all_eq_true, numbers, List.forall_mem_map]
  exact forall₂_congr fun _ _ => decide_eq_true_iff

theorem numbers_symbolsOf (okm : Block 6) : numbers (symbolsOf okm) = digitsBE 64 8 (valueBE 256 (numbers okm)) := by
  have whole : okm.toList.foldl (fun bits byte => bits * 256 + byte.toNat) 0 = valueBE 256 (numbers okm) := by
    rw [valueBE, numbers, List.foldl_map]
  have symbol (bits : Nat) : (UInt8.ofNat (bits &&& 0x3F)).toNat = bits % 64 := by
    have low : bits &&& 0x3F = bits % 64 := Nat.and_two_pow_sub_one_eq_mod bits 6
    have small : bits % 64 < 64 := Nat.mod_lt bits (by decide)
    rw [low, UInt8.toNat_ofNat']
    omega
  -- the shifts are eight divisions by 64, one after the other
  simp only [numbers, symbolsOf, cut, List.Vector.toList_mk, List.map_map, Function.comp_def, symbol, whole]
  simp [digitsBE, Nat.shiftRight_eq_div_pow, Nat.div_div_eq_div_mul]

theorem numbers_okmOf (code : PairingCode) : numbers (okmOf code) = digitsBE 256 6 (valueBE 64 (numbers code)) := by
  have kept : ∀ number ∈ digitsBE 256 6 (valueBE 64 (numbers code)), (UInt8.ofNat number).toNat = number := by
    intro number member
    rw [UInt8.toNat_ofNat']
    exact Nat.mod_eq_of_lt (lt_of_mem_digitsBE (by decide) member)
  rw [numbers, okmOf, List.Vector.toList_mk, List.map_map]
  calc (digitsBE 256 6 (valueBE 64 (numbers code))).map (UInt8.toNat ∘ UInt8.ofNat)
      = (digitsBE 256 6 (valueBE 64 (numbers code))).map id := List.map_congr_left kept
    _ = digitsBE 256 6 (valueBE 64 (numbers code)) := List.map_id _

theorem isValid_symbolsOf (okm : Block 6) : isValid (symbolsOf okm) = true := by
  rw [isValid_iff, numbers_symbolsOf]
  exact fun number member => lt_of_mem_digitsBE (by decide) member

theorem okmOf_symbolsOf (okm : Block 6) : okmOf (symbolsOf okm) = okm := by
  have small : ∀ number ∈ numbers okm, number < 256 := fun number member => lt_of_mem_numbers member
  -- 256 ^ 6 and 64 ^ 8 are the same number
  have fits : valueBE 256 (numbers okm) < 64 ^ 8 := by
    have bound := valueBE_lt small
    rw [length_numbers] at bound
    exact bound
  have written := digitsBE_valueBE small
  rw [length_numbers] at written
  apply numbers_injective
  rw [numbers_okmOf, numbers_symbolsOf, valueBE_digitsBE fits, written]

theorem symbolsOf_okmOf {code : PairingCode} (valid : isValid code = true) : symbolsOf (okmOf code) = code := by
  have small := isValid_iff.mp valid
  have fits : valueBE 64 (numbers code) < 256 ^ 6 := by
    have bound := valueBE_lt small
    rw [length_numbers] at bound
    exact bound
  have written := digitsBE_valueBE small
  rw [length_numbers] at written
  apply numbers_injective
  rw [numbers_symbolsOf, numbers_okmOf, valueBE_digitsBE fits, written]

/-- The symbols are the 48 expanded bits, the highest six first. They are valid and the bytes
can be read from them, so two connections show one code exactly if they expanded the same
bytes; and every valid code is the code of one expansion. -/
theorem pairing_code_keeps_bits (crypto : Primitives) :
    (∀ hash okm, crypto.hkdf 6 (hash : HandshakeHash).toList pairingCodeLabel = some okm →
      pairingCode crypto hash = .ok (symbolsOf okm)) ∧
    (∀ okm, isValid (symbolsOf okm) = true ∧ okmOf (symbolsOf okm) = okm ∧
      numbers (symbolsOf okm) = digitsBE 64 8 (valueBE 256 (numbers okm))) ∧
    (∀ first second okm okm', crypto.hkdf 6 (first : HandshakeHash).toList pairingCodeLabel = some okm →
      crypto.hkdf 6 (second : HandshakeHash).toList pairingCodeLabel = some okm' →
      (pairingCode crypto first = pairingCode crypto second ↔ okm = okm')) ∧
    ∀ code, isValid code = true → ∃! okm, symbolsOf okm = code := by
  refine ⟨fun hash okm expanded => pairingCode_eq expanded, ?_, ?_, ?_⟩
  · intro okm
    exact ⟨isValid_symbolsOf okm, okmOf_symbolsOf okm, numbers_symbolsOf okm⟩
  · intro first second okm okm' expanded expanded'
    rw [pairingCode_eq expanded, pairingCode_eq expanded']
    constructor
    · intro same
      rw [← okmOf_symbolsOf okm, Except.ok.inj same, okmOf_symbolsOf]
    · intro same
      rw [same]
  · intro code valid
    apply ExistsUnique.intro (okmOf code) (symbolsOf_okmOf valid)
    intro okm same
    rw [← same, okmOf_symbolsOf]

end Auth

end CesaConn
