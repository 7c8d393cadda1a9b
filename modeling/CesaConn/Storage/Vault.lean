import CesaConn.Format.Bytes

/-! The encrypted vault file: layout, sealing and opening.

Lengths are natural numbers; the `usize` operations that could wrap keep their
checked or saturating form. Random nonces are arguments, `none` when the
operating system gave no random bytes.
-/

set_option autoImplicit false

namespace CesaConn

open Format

/-! ## Primitives -/

/-- AES-256-GCM: key, nonce, then the data and the associated data. -/
structure Aead where
  encrypt : Block 32 → Block 12 → Bytes → Bytes → Option Bytes
  decrypt : Block 32 → Block 12 → Bytes → Bytes → Option Bytes

/-- What the vault relies on: the 16-byte tag, and that decryption inverts encryption. -/
structure Aead.Correct (aead : Aead) : Prop where
  expands : ∀ {key nonce data aad ciphertext},
    aead.encrypt key nonce data aad = some ciphertext → ciphertext.length = data.length + 16
  opens : ∀ {key nonce data aad ciphertext},
    aead.encrypt key nonce data aad = some ciphertext → aead.decrypt key nonce ciphertext aad = some data

structure Crypto where
  aead : Aead
  /-- `HKDF-BLAKE2s` expanded to 32 bytes: input key material, salt, label. -/
  hkdf : Bytes → Bytes → Bytes → Option (Block 32)
  /-- Argon2id of a password with a salt. -/
  deriveKey : Bytes → Block 32 → Option (Block 32)

/-- A cipher that hides nothing: what the vault relies on says nothing about secrecy. -/
def Aead.plain : Aead where
  encrypt _ _ data _ := some (data ++ List.replicate 16 0)
  decrypt _ _ ciphertext _ := some (ciphertext.take (ciphertext.length - 16))

theorem Aead.plain_correct : Aead.plain.Correct where
  expands encrypted := by
    cases encrypted
    simp
  opens encrypted := by
    cases encrypted
    simp [Aead.plain]

def Crypto.plain : Crypto where
  aead := .plain
  hkdf key _ _ := toBlock 32 key
  deriveKey _ salt := some salt

def usizeMax : Nat := 2 ^ 64 - 1

def saturatingAdd (a b : Nat) : Nat := min (a + b) usizeMax

def checkedMul (a b : Nat) : Option Nat := if a * b ≤ usizeMax then some (a * b) else none

def divCeil (a b : Nat) : Nat := (a + b - 1) / b

/-- `Vec::resize` with zero bytes. -/
def resize (bytes : Bytes) (size : Nat) : Bytes :=
  bytes.take size ++ List.replicate (size - bytes.length) 0

namespace Vault

abbrev AuthKey := Block 32
abbrev DataKey := Block 32
abbrev Salt := Block 32
abbrev Dek := Block 32
abbrev Kek := Block 32

def headerLen : Nat := 9
def nonceLen : Nat := 12
def tagLen : Nat := 16
def wrappedDekLen : Nat := 32 + tagLen
def wrapLen : Nat := nonceLen + wrappedDekLen
def padBlock : Nat := 4096
def maxVaultLen : Nat := 4 * 1024 * 1024
def minVaultLen : Nat := headerLen + wrapLen + nonceLen + padBlock + tagLen
def maxConfigLen : Nat := 64 * 1024
def maxPeersLen : Nat := 1024 * 1024
def identitySeedLen : Nat := 64

abbrev Identity := Block identitySeedLen
/-- The wrap nonce followed by the wrapped DEK. -/
abbrev WrappedDek := Block wrapLen

def ascii (text : String) : Bytes := text.toList.map fun c => UInt8.ofNat c.toNat

def kekLabel : Bytes := ascii "cesaconn-storage-v1"
def wrapLabel : Bytes := ascii "cesaconn-vault-dek"
def dataLabel : Bytes := ascii "cesaconn-vault-data"

def version : UInt8 := 2

inductive VaultErrors where
  | malformed
  | wrongKey
  | corrupt
  | tooLarge
  | crypto
  | io
  | insecureDirectory
  deriving DecidableEq, Repr

/-! ## Salts -/

structure Salts where
  dSalt : Salt
  storageSalt : Salt
  deriving DecidableEq

/-- `d_salt || storage salt`, as stored in the keychain. -/
def Salts.toBytes (salts : Salts) : Bytes := salts.dSalt.toList ++ salts.storageSalt.toList

def Salts.fromBytes (bytes : Bytes) : Option Salts := do
  let (dSalt, rest) ← splitFirstChunk 32 bytes
  let storageSalt ← toBlock 32 rest
  return ⟨dSalt, storageSalt⟩

@[simp] theorem Salts.fromBytes_toBytes (salts : Salts) : fromBytes salts.toBytes = some salts := by
  simp [fromBytes, toBytes]

def deriveKek (crypto : Crypto) (dKey : DataKey) (storageSalt : Salt) : Except VaultErrors Kek :=
  match crypto.hkdf dKey.toList storageSalt.toList kekLabel with
  | some kek => .ok kek
  | none => .error .crypto

/-! ## Contents: tag, length and value of five entries -/

structure VaultContents where
  aKey : AuthKey
  aSalt : Salt
  config : Bytes
  identity : Identity
  peers : Bytes
  deriving DecidableEq

def tagAKey : UInt8 := 0x01
def tagASalt : UInt8 := 0x02
def tagConfig : UInt8 := 0x03
def tagIdentity : UInt8 := 0x04
def tagPeers : UInt8 := 0x05

/-- One entry; a value whose length is no `u32` has none. -/
def entry (tag : UInt8) (value : Bytes) : Except VaultErrors Bytes :=
  if value.length < 2 ^ 32 then .ok (tag :: little 4 value.length ++ value) else .error .tooLarge

def VaultContents.encode (contents : VaultContents) : Except VaultErrors Bytes := do
  if maxConfigLen < contents.config.length ∨ maxPeersLen < contents.peers.length then
    throw .tooLarge
  let aKey ← entry tagAKey contents.aKey.toList
  let aSalt ← entry tagASalt contents.aSalt.toList
  let config ← entry tagConfig contents.config
  let identity ← entry tagIdentity contents.identity.toList
  let peers ← entry tagPeers contents.peers
  return aKey ++ (aSalt ++ (config ++ (identity ++ peers)))

def takeEntry (bytes : Bytes) (tag : UInt8) : Option (Bytes × Bytes) :=
  match bytes with
  | [] => none
  | found :: rest =>
      if found ≠ tag then none
      else do
        let (len, rest) ← readLE 4 rest
        splitAtChecked len rest

def VaultContents.decode (bytes : Bytes) : Option VaultContents := do
  let (aKey, rest) ← takeEntry bytes tagAKey
  let (aSalt, rest) ← takeEntry rest tagASalt
  let (config, rest) ← takeEntry rest tagConfig
  let (identity, rest) ← takeEntry rest tagIdentity
  let (peers, rest) ← takeEntry rest tagPeers
  if rest ≠ [] ∨ maxConfigLen < config.length ∨ maxPeersLen < peers.length then none
  else
    let identity ← toBlock identitySeedLen identity
    let aKey ← toBlock 32 aKey
    let aSalt ← toBlock 32 aSalt
    return ⟨aKey, aSalt, config, identity, peers⟩

theorem takeEntry_eq_some {bytes value rest : Bytes} {tag : UInt8} :
    takeEntry bytes tag = some (value, rest) ↔
      ∃ written, entry tag value = .ok written ∧ bytes = written ++ rest := by
  cases bytes with
  | nil =>
      simp only [takeEntry, reduceCtorEq, false_iff, not_exists, not_and]
      intro written made empty
      unfold entry at made
      split at made <;> cases made
      cases empty
  | cons found tail =>
      simp only [takeEntry, ne_eq, ite_not, entry]
      constructor
      · intro taken
        split at taken
        · next same =>
          subst same
          simp only [Option.bind_eq_bind, Option.bind_eq_some_iff, Prod.exists, readLE_eq_some,
            splitAtChecked_eq_some] at taken
          obtain ⟨len, after, ⟨rfl, fits⟩, rfl, exact⟩ := taken
          subst exact
          have short : value.length < 2 ^ 32 := by simpa using fits
          exact ⟨found :: little 4 value.length ++ value, if_pos short, by simp⟩
        · cases taken
      · rintro ⟨written, made, whole⟩
        split at made
        · next fits =>
          cases made
          simp only [List.cons_append, List.cons.injEq, List.append_assoc] at whole
          obtain ⟨rfl, rfl⟩ := whole
          simp [readLE_append 4 value.length (by simpa using fits), splitAtChecked_eq_some]
        · cases made

theorem VaultContents.encode_eq_ok {contents : VaultContents} {bytes : Bytes} :
    contents.encode = .ok bytes ↔
      (contents.config.length ≤ maxConfigLen ∧ contents.peers.length ≤ maxPeersLen) ∧
      ∃ aKey aSalt config identity peers,
        entry tagAKey contents.aKey.toList = .ok aKey ∧ entry tagASalt contents.aSalt.toList = .ok aSalt ∧
        entry tagConfig contents.config = .ok config ∧
        entry tagIdentity contents.identity.toList = .ok identity ∧
        entry tagPeers contents.peers = .ok peers ∧
        bytes = aKey ++ (aSalt ++ (config ++ (identity ++ peers))) := by
  unfold encode
  by_cases large : maxConfigLen < contents.config.length ∨ maxPeersLen < contents.peers.length
  · simp only [large, ↓reduceIte]
    constructor
    · intro written
      cases written
    · rintro ⟨⟨config, peers⟩, _⟩
      omega
  · simp only [large, ↓reduceIte, show contents.config.length ≤ maxConfigLen ∧
      contents.peers.length ≤ maxPeersLen by omega, true_and]
    cases entry tagAKey contents.aKey.toList <;> cases entry tagASalt contents.aSalt.toList <;>
      cases entry tagConfig contents.config <;> cases entry tagIdentity contents.identity.toList <;>
      cases entry tagPeers contents.peers <;>
      simp [Bind.bind, Except.bind, Pure.pure, Except.pure, eq_comm]

/-- The decoder accepts exactly what the encoder writes. -/
theorem VaultContents.decode_eq_some {contents : VaultContents} {bytes : Bytes} :
    decode bytes = some contents ↔ contents.encode = .ok bytes := by
  rw [encode_eq_ok]
  unfold decode
  constructor
  · intro read
    simp only [Option.bind_eq_bind, Option.bind_eq_some_iff, Prod.exists, takeEntry_eq_some] at read
    obtain ⟨aKey, _, ⟨a, writtenA, rfl⟩, aSalt, _, ⟨b, writtenB, rfl⟩, config, _, ⟨c, writtenC, rfl⟩,
      identity, _, ⟨d, writtenD, rfl⟩, peers, rest, ⟨e, writtenE, rfl⟩, read⟩ := read
    split at read
    · cases read
    · next limits =>
      simp only [Option.bind_eq_some_iff, toBlock_eq_some, Option.pure_def,
        Option.some.injEq] at read
      obtain ⟨_, rfl, _, rfl, _, rfl, rfl⟩ := read
      simp only [ne_eq, not_or, Decidable.not_not] at limits
      obtain ⟨rfl, config, peers⟩ := limits
      exact ⟨⟨by simpa using config, by simpa using peers⟩, a, b, c, d, e, writtenA, writtenB, writtenC,
        writtenD, writtenE, by simp⟩
  · rintro ⟨⟨config, peers⟩, a, b, c, d, e, writtenA, writtenB, writtenC, writtenD, writtenE, rfl⟩
    have take : ∀ {tag value written rest}, entry tag value = .ok written →
        takeEntry (written ++ rest) tag = some (value, rest) :=
      fun written => takeEntry_eq_some.mpr ⟨_, written, rfl⟩
    have last : takeEntry e tagPeers = some (contents.peers, []) := by
      simpa using @take _ _ _ [] writtenE
    simp only [take writtenA, take writtenB, take writtenC, take writtenD, last, Option.bind_eq_bind,
      Option.bind_some, ne_eq, not_true_eq_false, show ¬ maxConfigLen < contents.config.length by omega,
      show ¬ maxPeersLen < contents.peers.length by omega, or_self, ↓reduceIte, toBlock_toList]
    rfl

/-! ## The envelope -/

def header : Block headerLen := ⟨[0x43, 0x45, 0x53, 0x41, 0x56, 0x4C, 0x54, 0x00, version], rfl⟩

def aad (head : Block headerLen) (label : Bytes) : Bytes := head.toList ++ label

def encryptWithAad (aead : Aead) (nonce : Option (Block 12)) (key : Block 32) (data aad : Bytes) :
    Option (Bytes × Block 12) := do
  let nonce ← nonce
  let ciphertext ← aead.encrypt key nonce data aad
  return (ciphertext, nonce)

def wrapDek (aead : Aead) (nonce : Option (Block 12)) (kek : Kek) (dek : Dek) :
    Except VaultErrors WrappedDek :=
  match encryptWithAad aead nonce kek dek.toList (aad header wrapLabel) with
  | none => .error .crypto
  | some (ciphertext, nonce) =>
      if exact : ciphertext.length = wrappedDekLen then
        .ok ⟨nonce.toList ++ ciphertext, by simp [exact, wrapLen, nonceLen]⟩
      else .error .crypto

/-- The contents with their length in front, zero-padded to whole blocks. -/
def pad (encoded : Bytes) : Option Bytes := do
  let used := saturatingAdd encoded.length 4
  let blocks := max (divCeil used padBlock) 1
  let paddedLen ← checkedMul blocks padBlock
  return resize (little 4 encoded.length ++ encoded) paddedLen

def sealVault (aead : Aead) (nonce : Option (Block 12)) (wrapped : WrappedDek) (dek : Dek)
    (contents : VaultContents) : Except VaultErrors Bytes := do
  let encoded ← contents.encode
  if 2 ^ 32 ≤ encoded.length then
    throw .tooLarge
  match pad encoded with
  | none => throw .tooLarge
  | some plaintext =>
      match encryptWithAad aead nonce dek plaintext (aad header dataLabel) with
      | none => throw .crypto
      | some (ciphertext, nonce) =>
          if maxVaultLen < saturatingAdd (headerLen + wrapLen + nonceLen) ciphertext.length then
            throw .tooLarge
          return header.toList ++ (wrapped.toList ++ (nonce.toList ++ ciphertext))

/-- The contents, if the length fits and every padding byte is zero. -/
def unpad (plaintext : Bytes) : Option Bytes := do
  let (len, rest) ← readLE 4 plaintext
  let (contents, padding) ← splitAtChecked len rest
  if padding.all (· == 0) then return contents else none

structure Opened where
  wrapped : WrappedDek
  dek : Dek
  contents : VaultContents
  deriving DecidableEq

/-- `Option::ok_or`. -/
def okOr {A : Type} (value : Option A) (error : VaultErrors) : Except VaultErrors A :=
  match value with
  | some found => .ok found
  | none => .error error

theorem okOr_eq_ok {A : Type} {value : Option A} {error : VaultErrors} {found : A} :
    okOr value error = .ok found ↔ value = some found := by
  cases value <;> simp [okOr]

theorem bind_eq_ok {A B : Type} {first : Except VaultErrors A} {rest : A → Except VaultErrors B} {result : B} :
    (first >>= rest) = .ok result ↔ ∃ value, first = .ok value ∧ rest value = .ok result := by
  cases first <;> simp [Bind.bind, Except.bind]

/-- A check that refuses was passed. -/
theorem refuse_eq_ok {A B : Type} {refused : Prop} [Decidable refused] {error : VaultErrors}
    {k : A → Except VaultErrors B} {rest : Except VaultErrors B} {result : B} :
    (if refused then throw error >>= k else rest) = .ok result ↔ ¬ refused ∧ rest = .ok result := by
  split
  · next no => simp [no, Bind.bind, Except.bind, throw, throwThe, MonadExceptOf.throw]
  · next yes => simp [yes]

def openVault (aead : Aead) (kek : Kek) (file : Bytes) : Except VaultErrors Opened := do
  if maxVaultLen < file.length then
    throw .tooLarge
  if file.length < minVaultLen then
    throw .malformed
  let (head, rest) ← okOr (splitFirstChunk headerLen file) .malformed
  if head ≠ header then
    throw .malformed
  let (wrap, rest) ← okOr (splitFirstChunk wrapLen rest) .malformed
  let (dataNonce, ciphertext) ← okOr (splitFirstChunk nonceLen rest) .malformed
  if (ciphertext.length - tagLen) % padBlock ≠ 0 then
    throw .malformed
  -- the only place a wrong password shows
  let (wrapNonce, wrappedDek) ← okOr (splitFirstChunk nonceLen wrap.toList) .malformed
  let dekBytes ← okOr (aead.decrypt kek wrapNonce wrappedDek (aad head wrapLabel)) .wrongKey
  let dek ← okOr (toBlock 32 dekBytes) .corrupt
  let plaintext ← okOr (aead.decrypt dek dataNonce ciphertext (aad head dataLabel)) .corrupt
  let encoded ← okOr (unpad plaintext) .corrupt
  let contents ← okOr (VaultContents.decode encoded) .corrupt
  return ⟨wrap, dek, contents⟩

/-! ## What was sealed opens again -/

theorem pad_eq_some {encoded plaintext : Bytes} (short : encoded.length < 2 ^ 32)
    (padded : pad encoded = some plaintext) :
    ∃ padding, plaintext = little 4 encoded.length ++ (encoded ++ List.replicate padding 0) ∧
      plaintext.length % padBlock = 0 ∧ padBlock ≤ plaintext.length := by
  have used : saturatingAdd encoded.length 4 = encoded.length + 4 := by
    simp only [saturatingAdd, usizeMax]
    omega
  simp only [pad, checkedMul, used, Option.bind_eq_bind, Option.bind_eq_some_iff,
    Option.ite_none_right_eq_some, Option.pure_def, Option.some.injEq] at padded
  obtain ⟨_, ⟨_, rfl⟩, rfl⟩ := padded
  have room : encoded.length + 4 ≤ max (divCeil (encoded.length + 4) padBlock) 1 * padBlock := by
    simp only [divCeil, padBlock]
    omega
  have some : 1 ≤ max (divCeil (encoded.length + 4) padBlock) 1 := le_max_right _ _
  generalize max (divCeil (encoded.length + 4) padBlock) 1 = blocks at room some
  have whole : (little 4 encoded.length ++ encoded).length ≤ blocks * padBlock := by
    simp only [List.length_append, length_little]
    omega
  have size : (resize (little 4 encoded.length ++ encoded) (blocks * padBlock)).length =
      blocks * padBlock := by
    rw [resize, List.take_of_length_le whole, List.length_append, List.length_replicate,
      Nat.add_sub_cancel' whole]
  refine ⟨blocks * padBlock - (little 4 encoded.length ++ encoded).length, ?_, ?_, ?_⟩
  · rw [resize, List.take_of_length_le whole, List.append_assoc]
  · rw [size, Nat.mul_mod_left]
  · rw [size]
    exact Nat.le_mul_of_pos_left _ some

theorem unpad_pad {encoded plaintext : Bytes} (short : encoded.length < 2 ^ 32)
    (padded : pad encoded = some plaintext) : unpad plaintext = some encoded := by
  obtain ⟨padding, rfl, _, _⟩ := pad_eq_some short padded
  have split : splitAtChecked encoded.length (encoded ++ List.replicate padding 0) =
      some (encoded, List.replicate padding 0) := splitAtChecked_eq_some.mpr ⟨rfl, rfl⟩
  simp [unpad, readLE_append 4 encoded.length (by simpa using short), split]

def Unwraps (aead : Aead) (kek : Kek) (wrapped : WrappedDek) (dek : Dek) : Prop :=
  ∃ (nonce : Block 12) (ciphertext : Bytes), wrapped.toList = nonce.toList ++ ciphertext ∧
    aead.decrypt kek nonce ciphertext (aad header wrapLabel) = some dek.toList

theorem unwraps_wrapDek {aead : Aead} (correct : aead.Correct) {nonce : Option (Block 12)} {kek : Kek} {dek : Dek}
    {wrapped : WrappedDek} (made : wrapDek aead nonce kek dek = .ok wrapped) : Unwraps aead kek wrapped dek := by
  unfold wrapDek at made
  split at made
  · cases made
  · next ciphertext drawn found =>
    split at made
    · cases made
      simp only [encryptWithAad, Option.bind_eq_bind, Option.bind_eq_some_iff, Option.pure_def,
        Option.some.injEq, Prod.mk.injEq] at found
      obtain ⟨_, _, _, encrypted, rfl, rfl⟩ := found
      exact ⟨_, _, rfl, correct.opens encrypted⟩
    · cases made

theorem unwraps_openVault {aead : Aead} {kek : Kek} {file : Bytes} {opened : Opened}
    (found : openVault aead kek file = .ok opened) : Unwraps aead kek opened.wrapped opened.dek := by
  simp only [openVault, refuse_eq_ok, bind_eq_ok, okOr_eq_ok, Prod.exists, splitFirstChunk_eq_some,
    toBlock_eq_some] at found
  obtain ⟨-, -, head, _, -, known, wrap, _, -, _, _, -, -, nonce, ciphertext, layout, _, unwrapped, dek, rfl, found⟩ :=
    found
  obtain ⟨_, _, _, _, _, _, same⟩ := found
  cases same
  refine ⟨nonce, ciphertext, layout, ?_⟩
  rw [← Decidable.not_not.mp known]
  exact unwrapped

theorem sealVault_eq_ok {aead : Aead} {nonce : Option (Block 12)} {wrapped : WrappedDek} {dek : Dek}
    {contents : VaultContents} {file : Bytes}
    (made : sealVault aead nonce wrapped dek contents = .ok file) :
    ∃ encoded plaintext ciphertext, ∃ drawn : Block 12,
      contents.encode = .ok encoded ∧ encoded.length < 2 ^ 32 ∧ pad encoded = some plaintext ∧
      aead.encrypt dek drawn plaintext (aad header dataLabel) = some ciphertext ∧
      headerLen + wrapLen + nonceLen + ciphertext.length ≤ maxVaultLen ∧
      file = header.toList ++ (wrapped.toList ++ (drawn.toList ++ ciphertext)) := by
  unfold sealVault at made
  cases written : contents.encode with
  | error e =>
      rw [written] at made
      cases made
  | ok encoded =>
      simp only [written, Bind.bind, Except.bind, Pure.pure, Except.pure] at made
      split at made
      · cases made
      · next short =>
        split at made
        · cases made
        · next plaintext padded =>
          split at made
          · cases made
          · next ciphertext drawn found =>
            split at made
            · cases made
            · next small =>
              cases made
              simp only [encryptWithAad, Option.bind_eq_bind, Option.bind_eq_some_iff, Option.pure_def,
                Option.some.injEq, Prod.mk.injEq] at found
              obtain ⟨_, _, _, encrypted, rfl, rfl⟩ := found
              refine ⟨encoded, plaintext, _, _, rfl, by omega, padded, encrypted, ?_, rfl⟩
              have bound : maxVaultLen < usizeMax := by decide
              simp only [saturatingAdd] at small
              omega

theorem length_sealVault {aead : Aead}
    (expands : ∀ {key nonce data aad ciphertext}, aead.encrypt key nonce data aad = some ciphertext →
      ciphertext.length = data.length + 16)
    {nonce : Option (Block 12)} {wrapped : WrappedDek} {dek : Dek} {contents : VaultContents} {file : Bytes}
    (made : sealVault aead nonce wrapped dek contents = .ok file) :
    minVaultLen ≤ file.length ∧ file.length ≤ maxVaultLen := by
  obtain ⟨encoded, plaintext, ciphertext, drawn, _, short, padded, encrypted, small, rfl⟩ :=
    sealVault_eq_ok made
  obtain ⟨_, _, _, full⟩ := pad_eq_some short padded
  have grown := expands encrypted
  simp only [List.length_append, List.Vector.toList_length, minVaultLen, tagLen, nonceLen] at small ⊢
  omega

/-- A file sealed with a DEK opens under a KEK that opens its wrap, and gives back
the contents, the DEK and the wrap. -/
theorem openVault_sealVault {aead : Aead} (correct : aead.Correct) {nonce : Option (Block 12)}
    {kek : Kek} {dek : Dek} {wrapped : WrappedDek} {contents : VaultContents} {file : Bytes}
    (wrap : Unwraps aead kek wrapped dek)
    (made : sealVault aead nonce wrapped dek contents = .ok file) :
    openVault aead kek file = .ok ⟨wrapped, dek, contents⟩ := by
  obtain ⟨least, most⟩ := length_sealVault correct.expands made
  obtain ⟨wrapDrawn, wrapCiphertext, layout, unwrapped⟩ := wrap
  obtain ⟨encoded, plaintext, ciphertext, drawn, written, short, padded, encrypted, _, rfl⟩ :=
    sealVault_eq_ok made
  obtain ⟨_, _, blocks, _⟩ := pad_eq_some short padded
  have whole : (ciphertext.length - tagLen) % padBlock = 0 := by
    rw [correct.expands encrypted, tagLen, Nat.add_sub_cancel]
    exact blocks
  have wrapSplit : splitFirstChunk nonceLen wrapped.toList = some (wrapDrawn, wrapCiphertext) :=
    splitFirstChunk_eq_some.mpr layout
  have dataSplit : splitFirstChunk nonceLen (drawn.toList ++ ciphertext) = some (drawn, ciphertext) :=
    splitFirstChunk_append drawn ciphertext
  unfold openVault
  simp only [show ¬ maxVaultLen < _ from Nat.not_lt.mpr most,
    show ¬ _ < minVaultLen from Nat.not_lt.mpr least, ↓reduceIte, splitFirstChunk_append, okOr,
    wrapSplit, dataSplit, whole, unwrapped, correct.opens encrypted,
    unpad_pad short padded, VaultContents.decode_eq_some.mpr written, toBlock_toList, ne_eq,
    not_true_eq_false, Bind.bind, Except.bind, Pure.pure, Except.pure]

end Vault

end CesaConn
