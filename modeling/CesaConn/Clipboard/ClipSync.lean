import CesaConn.Auth.SecureConnection
import CesaConn.Clipboard.UpdateOrder

/-! A clipboard update as bytes. -/

set_option autoImplicit false

namespace CesaConn

open Format

namespace Clipboard

def clipVersion : UInt8 := 0x01

def clipKindText : UInt8 := 0x01

def clipHeaderLen : Nat := 22

def clipMaxLen : Nat := 1024 * 1024

def clipMaxWireLen : Nat := clipHeaderLen + clipMaxLen + Auth.dataLayerOverhead

def clipMinWireLen : Nat := clipHeaderLen + 1 + Auth.dataLayerOverhead

structure ClipMessage where
  epoch : Epoch
  seq : UInt64
  text : String
  deriving DecidableEq

def encode (epoch : Epoch) (seq : UInt64) (text : String) : Option Bytes :=
  let content := asBytes text
  if content.length = 0 ∨ clipMaxLen < content.length then none
  else if content.length < 2 ^ 32 then
    some (clipVersion :: clipKindText :: (epoch.toList ++ (little 8 seq.toNat ++
      (little 4 content.length ++ content))))
  else none

def decode (payload : Bytes) : Option ClipMessage :=
  match payload with
  | version :: kind :: rest =>
      if version ≠ clipVersion ∨ kind ≠ clipKindText then none
      else do
        let (epoch, rest) ← splitFirstChunk 8 rest
        let (seq, rest) ← readLE 8 rest
        let (contentLen, content) ← readLE 4 rest
        if contentLen = 0 ∨ clipMaxLen < contentLen ∨ contentLen ≠ content.length then none
        else
          let text ← fromUtf8 content
          return ⟨epoch, UInt64.ofNat seq, text⟩
  | _ => none

theorem encode_eq_some {epoch : Epoch} {seq : UInt64} {text : String} {payload : Bytes} :
    encode epoch seq text = some payload ↔
      1 ≤ (asBytes text).length ∧ (asBytes text).length ≤ clipMaxLen ∧
      payload = clipVersion :: clipKindText :: (epoch.toList ++ (little 8 seq.toNat ++
        (little 4 (asBytes text).length ++ asBytes text))) := by
  constructor
  · intro written
    unfold encode at written
    dsimp only at written
    split at written
    · cases written
    · next allowed =>
      split at written
      · cases written
        exact ⟨by omega, by omega, rfl⟩
      · cases written
  · intro ⟨long, fits, shape⟩
    have small : (asBytes text).length < 2 ^ 32 := fits.trans_lt (by decide)
    unfold encode
    dsimp only
    rw [if_neg (by omega), if_pos small, shape]

theorem length_encode {epoch : Epoch} {seq : UInt64} {text : String} {payload : Bytes}
    (written : encode epoch seq text = some payload) :
    clipHeaderLen + 1 ≤ payload.length ∧ payload.length ≤ clipHeaderLen + clipMaxLen := by
  obtain ⟨long, fits, rfl⟩ := encode_eq_some.mp written
  simp only [clipHeaderLen, List.length_cons, List.length_append, List.Vector.toList_length, length_little]
  omega

/-- The decoder takes exactly what the encoder makes. -/
theorem decode_eq_some {payload : Bytes} {message : ClipMessage} :
    decode payload = some message ↔ encode message.epoch message.seq message.text = some payload := by
  rw [encode_eq_some]
  constructor
  · intro found
    unfold decode at found
    split at found
    · next version kind rest =>
      split at found
      · cases found
      · next known =>
        simp only [Option.bind_eq_bind, Option.bind_eq_some_iff, Prod.exists, splitFirstChunk_eq_some,
          readLE_eq_some, fromUtf8_eq_some, Option.ite_none_left_eq_some] at found
        obtain ⟨epoch, _, rfl, number, _, ⟨rfl, fits⟩, size, _, ⟨rfl, _⟩, allowed, text, rfl, same⟩ := found
        cases same
        have versions : version = clipVersion ∧ kind = clipKindText := by simpa [not_or] using known
        have seq : (UInt64.ofNat number).toNat = number := by
          rw [UInt64.toNat_ofNat', Nat.mod_eq_of_lt (by simpa using fits)]
        have whole : size = (asBytes text).length := by omega
        refine ⟨?_, ?_, ?_⟩
        · dsimp only
          omega
        · dsimp only
          omega
        · dsimp only
          rw [versions.1, versions.2, seq, whole]
    · cases found
  · intro ⟨long, fits, shape⟩
    subst shape
    have small : (asBytes message.text).length < 256 ^ 4 := fits.trans_lt (by decide)
    have number : message.seq.toNat < 256 ^ 8 := message.seq.toNat_lt
    have allowed : ¬ ((asBytes message.text).length = 0 ∨ clipMaxLen < (asBytes message.text).length ∨
        (asBytes message.text).length ≠ (asBytes message.text).length) := by omega
    have text : fromUtf8 (asBytes message.text) = some message.text := fromUtf8_eq_some.mpr rfl
    simp only [decode, ne_eq, not_true_eq_false, or_self, if_false, splitFirstChunk_append, Option.bind_eq_bind,
      Option.bind_some, readLE_append 8 _ number, readLE_append 4 _ small, UInt64.ofNat_toNat, text]
    rw [if_neg (by simpa using allowed)]
    rfl

end Clipboard

end CesaConn
