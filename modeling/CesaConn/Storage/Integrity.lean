import CesaConn.Storage.Vault

/-! What was sealed opens again, and nothing else does.

The cipher is ideal for a history of calls: it decrypts exactly what a call of
the history encrypted. What a call encrypts does not depend on the cipher, so
every history has an ideal cipher.
-/

set_option autoImplicit false

namespace CesaConn

open Format

/-- The 16-byte tag. -/
def Aead.Expands (aead : Aead) : Prop :=
  ∀ {key nonce data aad ciphertext}, aead.encrypt key nonce data aad = some ciphertext →
    ciphertext.length = data.length + 16

/-- Encryption goes through for everything AES-GCM has room for. -/
def Aead.Encrypts (aead : Aead) : Prop :=
  ∀ key nonce data aad, data.length < 2 ^ 36 → aad.length < 2 ^ 36 → ∃ ciphertext,
    aead.encrypt key nonce data aad = some ciphertext

theorem Aead.plain_encrypts : Aead.plain.Encrypts :=
  fun _ _ _ _ _ _ => ⟨_, rfl⟩

namespace Vault

/-! ## The round trip -/

theorem length_entry {tag : UInt8} {value written : Bytes} (made : entry tag value = .ok written) :
    written.length = value.length + 5 := by
  unfold entry at made
  split at made
  · cases made
    simp only [List.cons_append, List.length_cons, List.length_append, length_little]
    omega
  · cases made

theorem entry_ok (tag : UInt8) {value : Bytes} (short : value.length < 2 ^ 32) : ∃ written, entry tag value = .ok written :=
  ⟨_, if_pos short⟩

theorem encode_ok {contents : VaultContents} (config : contents.config.length ≤ maxConfigLen)
    (peers : contents.peers.length ≤ maxPeersLen) :
    ∃ encoded, contents.encode = .ok encoded ∧
      encoded.length = 5 * 5 + 32 + 32 + identitySeedLen + contents.config.length + contents.peers.length := by
  simp only [maxConfigLen, maxPeersLen] at config peers
  have small : ∀ {size : Nat} (block : Block size), size < 2 ^ 32 → block.toList.length < 2 ^ 32 :=
    fun block less => block.toList_length.symm ▸ less
  obtain ⟨a, writtenA⟩ := entry_ok tagAKey (small contents.aKey (by decide))
  obtain ⟨b, writtenB⟩ := entry_ok tagASalt (small contents.aSalt (by decide))
  obtain ⟨c, writtenC⟩ := entry_ok tagConfig (show contents.config.length < 2 ^ 32 by omega)
  obtain ⟨d, writtenD⟩ := entry_ok tagIdentity (small contents.identity (by decide))
  obtain ⟨e, writtenE⟩ := entry_ok tagPeers (show contents.peers.length < 2 ^ 32 by omega)
  refine ⟨a ++ (b ++ (c ++ (d ++ e))), VaultContents.encode_eq_ok.mpr ⟨⟨?_, ?_⟩, a, b, c, d, e, writtenA, writtenB,
    writtenC, writtenD, writtenE, rfl⟩, ?_⟩
  · simpa [maxConfigLen] using config
  · simpa [maxPeersLen] using peers
  · simp only [List.length_append, length_entry writtenA, length_entry writtenB, length_entry writtenC,
      length_entry writtenD, length_entry writtenE, List.Vector.toList_length]
    omega

/-- The blocks of a padded length: at least the length field is there. -/
def blocks (encoded : Bytes) : Nat := divCeil (encoded.length + 4) padBlock

theorem pad_ok (encoded : Bytes) (short : encoded.length < 2 ^ 32) :
    ∃ plaintext, pad encoded = some plaintext ∧ plaintext.length = blocks encoded * padBlock := by
  have used : saturatingAdd encoded.length 4 = encoded.length + 4 := by
    simp only [saturatingAdd, usizeMax]
    omega
  have some : max (divCeil (encoded.length + 4) padBlock) 1 = blocks encoded := by
    simp only [blocks, divCeil, padBlock]
    omega
  have room : encoded.length + 4 ≤ blocks encoded * padBlock := by
    simp only [blocks, divCeil, padBlock]
    omega
  have fits : blocks encoded * padBlock ≤ usizeMax := by
    simp only [blocks, divCeil, padBlock, usizeMax]
    omega
  refine ⟨resize (little 4 encoded.length ++ encoded) (blocks encoded * padBlock), ?_, ?_⟩
  · simp only [pad, checkedMul, used, some, if_pos fits, Option.bind_eq_bind, Option.bind_some, Option.pure_def]
  · have whole : (little 4 encoded.length ++ encoded).length ≤ blocks encoded * padBlock := by
      simp only [List.length_append, length_little]
      omega
    rw [resize, List.take_of_length_le whole, List.length_append, List.length_replicate, Nat.add_sub_cancel' whole]

theorem wrapDek_ok {aead : Aead} (expands : aead.Expands) (encrypts : aead.Encrypts) (nonce : Block 12) (kek : Kek)
    (dek : Dek) : ∃ wrapped, wrapDek aead (some nonce) kek dek = .ok wrapped := by
  obtain ⟨ciphertext, encrypted⟩ := encrypts kek nonce dek.toList (aad header wrapLabel) (by simp) (by decide)
  have size : ciphertext.length = wrappedDekLen := by
    rw [expands encrypted, List.Vector.toList_length]
    rfl
  refine ⟨⟨nonce.toList ++ ciphertext, by simp [size, wrapLen, nonceLen]⟩, ?_⟩
  simp only [wrapDek, encryptWithAad, encrypted, Option.bind_eq_bind, Option.bind_some, Option.pure_def, dif_pos size]

theorem sealVault_of_encrypted {aead : Aead} {nonce : Block 12} (wrapped : WrappedDek) {dek : Dek}
    {contents : VaultContents} {encoded plaintext ciphertext : Bytes} (written : contents.encode = .ok encoded)
    (short : encoded.length < 2 ^ 32) (padded : pad encoded = some plaintext)
    (encrypted : aead.encrypt dek nonce plaintext (aad header dataLabel) = some ciphertext)
    (small : headerLen + wrapLen + nonceLen + ciphertext.length ≤ maxVaultLen) :
    sealVault aead (some nonce) wrapped dek contents =
      .ok (header.toList ++ (wrapped.toList ++ (nonce.toList ++ ciphertext))) := by
  have fits : ¬ maxVaultLen < saturatingAdd (headerLen + wrapLen + nonceLen) ciphertext.length := by
    simp only [saturatingAdd]
    omega
  simp only [sealVault, written, padded, encryptWithAad, encrypted, Option.bind_some, Bind.bind, Except.bind,
    Pure.pure, Except.pure, if_neg fits, if_neg (Nat.not_le.mpr short)]

/-- Contents within the limits are padded to what a vault file has room for. -/
theorem padded_fits {contents : VaultContents} (config : contents.config.length ≤ maxConfigLen)
    (peers : contents.peers.length ≤ maxPeersLen) :
    ∃ encoded plaintext, contents.encode = .ok encoded ∧ encoded.length < 2 ^ 32 ∧ pad encoded = some plaintext ∧
      plaintext.length = blocks encoded * padBlock ∧
      headerLen + wrapLen + nonceLen + (plaintext.length + tagLen) ≤ maxVaultLen := by
  obtain ⟨encoded, written, size⟩ := encode_ok config peers
  simp only [maxConfigLen, maxPeersLen] at config peers
  have short : encoded.length ≤ 1114265 := by
    simp only [identitySeedLen] at size
    omega
  have whole : blocks encoded * padBlock ≤ 1118208 := by
    simp only [blocks, divCeil, padBlock]
    omega
  obtain ⟨plaintext, padded, length⟩ := pad_ok encoded (by omega)
  refine ⟨encoded, plaintext, written, by omega, padded, length, ?_⟩
  simp only [maxVaultLen, headerLen, wrapLen, nonceLen, wrappedDekLen, tagLen]
  omega

/-- What fits is sealed, into a file whose length tells the number of blocks and nothing else. -/
theorem sealVault_ok {aead : Aead} (expands : aead.Expands) (encrypts : aead.Encrypts) (nonce : Block 12)
    (wrapped : WrappedDek) (dek : Dek) {contents : VaultContents} (config : contents.config.length ≤ maxConfigLen)
    (peers : contents.peers.length ≤ maxPeersLen) :
    ∃ encoded file, contents.encode = .ok encoded ∧ sealVault aead (some nonce) wrapped dek contents = .ok file ∧
      file.length = headerLen + wrapLen + nonceLen + tagLen + blocks encoded * padBlock := by
  obtain ⟨encoded, plaintext, written, short, padded, length, small⟩ := padded_fits config peers
  have room : plaintext.length < 2 ^ 36 := by
    simp only [maxVaultLen] at small
    omega
  obtain ⟨ciphertext, encrypted⟩ := encrypts dek nonce plaintext (aad header dataLabel) room (by decide)
  have grown : ciphertext.length = plaintext.length + tagLen := expands encrypted
  rw [← grown] at small
  refine ⟨encoded, _, written, sealVault_of_encrypted wrapped written short padded encrypted small, ?_⟩
  simp only [List.length_append, List.Vector.toList_length, grown, length, tagLen, nonceLen]
  omega

/-- Sealing succeeds and opening gives everything back, also after a change of the KEK; contents
have exactly one encoding, and the length of a file tells only its number of blocks. -/
theorem vault_round_trip {aead : Aead} (correct : aead.Correct) (encrypts : aead.Encrypts) (kek kek' : Kek) (dek : Dek)
    (contents : VaultContents) (config : contents.config.length ≤ maxConfigLen)
    (peers : contents.peers.length ≤ maxPeersLen) (wrapNonce nonce wrapNonce' nonce' : Block 12) :
    (∃ wrapped file opened, wrapDek aead (some wrapNonce) kek dek = .ok wrapped ∧
      sealVault aead (some nonce) wrapped dek contents = .ok file ∧ openVault aead kek file = .ok opened ∧
      opened = ⟨wrapped, dek, contents⟩ ∧
      (∃ rewrapped file', wrapDek aead (some wrapNonce') kek' opened.dek = .ok rewrapped ∧
        sealVault aead (some nonce') rewrapped opened.dek opened.contents = .ok file' ∧
        openVault aead kek' file' = .ok ⟨rewrapped, dek, contents⟩) ∧
      ∃ encoded, contents.encode = .ok encoded ∧ VaultContents.decode encoded = some contents ∧
        file.length = headerLen + wrapLen + nonceLen + tagLen + divCeil (encoded.length + 4) padBlock * padBlock) ∧
    ∀ bytes decoded, VaultContents.decode bytes = some decoded → decoded.encode = .ok bytes := by
  obtain ⟨wrapped, wraps⟩ := wrapDek_ok correct.expands encrypts wrapNonce kek dek
  obtain ⟨rewrapped, rewraps⟩ := wrapDek_ok correct.expands encrypts wrapNonce' kek' dek
  obtain ⟨encoded, file, written, made, size⟩ := sealVault_ok correct.expands encrypts nonce wrapped dek config peers
  obtain ⟨_, file', _, made', _⟩ := sealVault_ok correct.expands encrypts nonce' rewrapped dek config peers
  refine ⟨⟨wrapped, file, _, wraps, made, openVault_sealVault correct (unwraps_wrapDek correct wraps) made, rfl,
    ⟨rewrapped, file', rewraps, made', openVault_sealVault correct (unwraps_wrapDek correct rewraps) made'⟩,
    encoded, written, VaultContents.decode_eq_some.mpr written, size⟩, fun bytes decoded read => ?_⟩
  exact VaultContents.decode_eq_some.mp read

def smallContents : VaultContents := ⟨.replicate 32 1, .replicate 32 2, [], .replicate identitySeedLen 3, []⟩

theorem vault_round_trip_plain :
    ∃ wrapped file, sealVault .plain (some (.replicate 12 6)) wrapped (.replicate 32 5) smallContents = .ok file ∧
      openVault .plain (.replicate 32 4) file = .ok ⟨wrapped, .replicate 32 5, smallContents⟩ := by
  obtain ⟨⟨wrapped, file, opened, -, made, opens, rfl, -⟩, -⟩ := vault_round_trip Aead.plain_correct Aead.plain_encrypts
    (.replicate 32 4) (.replicate 32 4) (.replicate 32 5) smallContents (by decide) (by decide) (.replicate 12 6)
    (.replicate 12 6) (.replicate 12 6) (.replicate 12 6)
  exact ⟨wrapped, file, made, opens⟩

/-! ## Layout -/

/-- The parts of a byte string that has the outer form of a vault file. -/
structure Layout (file : Bytes) (wrap : WrappedDek) (nonce : Block 12) (ciphertext : Bytes) : Prop where
  parts : file = header.toList ++ (wrap.toList ++ (nonce.toList ++ ciphertext))
  least : minVaultLen ≤ file.length
  most : file.length ≤ maxVaultLen
  whole : (ciphertext.length - tagLen) % padBlock = 0

/-- What `open` does once the outer form is right. -/
def openLayers (aead : Aead) (kek : Kek) (wrap : WrappedDek) (nonce : Block 12) (ciphertext : Bytes) :
    Except VaultErrors Opened := do
  let (wrapNonce, wrappedDek) ← okOr (splitFirstChunk nonceLen wrap.toList) .malformed
  let dekBytes ← okOr (aead.decrypt kek wrapNonce wrappedDek (aad header wrapLabel)) .wrongKey
  let dek ← okOr (toBlock 32 dekBytes) .corrupt
  let plaintext ← okOr (aead.decrypt dek nonce ciphertext (aad header dataLabel)) .corrupt
  let encoded ← okOr (unpad plaintext) .corrupt
  let contents ← okOr (VaultContents.decode encoded) .corrupt
  return ⟨wrap, dek, contents⟩

theorem openVault_of_layout {aead : Aead} {kek : Kek} {file ciphertext : Bytes} {wrap : WrappedDek} {nonce : Block 12}
    (layout : Layout file wrap nonce ciphertext) :
    openVault aead kek file = openLayers aead kek wrap nonce ciphertext := by
  obtain ⟨parts, least, most, whole⟩ := layout
  have dataSplit : splitFirstChunk nonceLen (nonce.toList ++ ciphertext) = some (nonce, ciphertext) :=
    splitFirstChunk_append nonce ciphertext
  rw [openVault, if_neg (Nat.not_lt.mpr most), if_neg (Nat.not_lt.mpr least), parts]
  simp only [splitFirstChunk_append, okOr, dataSplit, whole, Bind.bind, Except.bind, ne_eq,
    not_true_eq_false, ↓reduceIte]
  rfl

theorem Layout.wrap_eq {file ciphertext ciphertext' : Bytes} {wrap wrap' : WrappedDek} {nonce nonce' : Block 12}
    (first : Layout file wrap nonce ciphertext) (second : Layout file wrap' nonce' ciphertext') : wrap = wrap' := by
  have parts := first.parts.symm.trans second.parts
  obtain ⟨same, -⟩ := List.append_inj (List.append_cancel_left parts) (by simp)
  exact List.Vector.toList_injective same

theorem wrap_split (wrap : WrappedDek) :
    ∃ (nonce : Block 12) (wrappedDek : Bytes), wrap.toList = nonce.toList ++ wrappedDek := by
  have long : 12 ≤ wrap.toList.length := by
    rw [List.Vector.toList_length]
    decide
  refine ⟨⟨wrap.toList.take 12, by rw [List.length_take, Nat.min_eq_left long]⟩, wrap.toList.drop 12, ?_⟩
  exact (List.take_append_drop 12 wrap.toList).symm

theorem openVault_misshapen (aead : Aead) (kek : Kek) {file : Bytes}
    (misshapen : ∀ wrap nonce ciphertext, ¬ Layout file wrap nonce ciphertext) :
    openVault aead kek file = .error .malformed ∨ openVault aead kek file = .error .tooLarge := by
  unfold openVault
  by_cases large : maxVaultLen < file.length
  · right
    rw [if_pos large]
    rfl
  left
  rw [if_neg large]
  by_cases small : file.length < minVaultLen
  · rw [if_pos small]
    rfl
  rw [if_neg small]
  cases first : splitFirstChunk headerLen file with
  | none => rfl
  | some parts =>
      obtain ⟨head, rest⟩ := parts
      by_cases known : head = header
      · cases second : splitFirstChunk wrapLen rest with
        | none => simp [okOr, Bind.bind, Except.bind, known, second]
        | some parts =>
            obtain ⟨wrap, rest'⟩ := parts
            cases third : splitFirstChunk nonceLen rest' with
            | none => simp [okOr, Bind.bind, Except.bind, known, second, third]
            | some parts =>
                obtain ⟨nonce, ciphertext⟩ := parts
                have parts : file = header.toList ++ (wrap.toList ++ (nonce.toList ++ ciphertext)) := by
                  rw [splitFirstChunk_eq_some.mp first, splitFirstChunk_eq_some.mp second,
                    splitFirstChunk_eq_some.mp third, known]
                have ragged : (ciphertext.length - tagLen) % padBlock ≠ 0 := by
                  intro whole
                  exact misshapen wrap nonce ciphertext
                    ⟨parts, Nat.not_lt.mp small, Nat.not_lt.mp large, whole⟩
                simp [okOr, Bind.bind, Except.bind, known, second, third, ragged, throw, throwThe,
                  MonadExceptOf.throw]
      · simp [okOr, Bind.bind, Except.bind, known, throw, throwThe, MonadExceptOf.throw]

theorem layout_of_openVault {aead : Aead} {kek : Kek} {file : Bytes} {opened : Opened}
    (found : openVault aead kek file = .ok opened) : ∃ wrap nonce ciphertext, Layout file wrap nonce ciphertext := by
  by_contra misshapen
  simp only [not_exists] at misshapen
  rcases openVault_misshapen aead kek misshapen with other | other <;>
    rw [found] at other <;> cases other

/-! ## An ideal cipher -/

structure Encryption where
  key : Block 32
  nonce : Block 12
  data : Bytes
  aad : Bytes
  deriving DecidableEq

/-- A call of `wrap_dek` or `seal`, with the nonce it draws. -/
inductive VaultCall where
  | wrapDek (nonce : Option (Block 12)) (kek : Kek) (dek : Dek)
  | sealVault (nonce : Option (Block 12)) (wrapped : WrappedDek) (dek : Dek) (contents : VaultContents)

def VaultCall.encryption : VaultCall → Option Encryption
  | .wrapDek nonce kek dek => do
      let nonce ← nonce
      return ⟨kek, nonce, dek.toList, aad header wrapLabel⟩
  | .sealVault nonce _ dek contents => do
      let encoded ← contents.encode.toOption.filter fun encoded => encoded.length < 2 ^ 32
      let plaintext ← pad encoded
      let nonce ← nonce
      return ⟨dek, nonce, plaintext, aad header dataLabel⟩

/-- The cipher decrypts exactly what was encrypted in these calls. -/
structure Ideal (aead : Aead) (history : List VaultCall) : Prop where
  expands : aead.Expands
  decrypts : ∀ {key nonce ciphertext aad data}, aead.decrypt key nonce ciphertext aad = some data ↔
    ∃ call ∈ history, call.encryption = some ⟨key, nonce, data, aad⟩ ∧
      aead.encrypt key nonce data aad = some ciphertext

/-- The cipher that appends an empty tag, and decrypts by looking up what was encrypted. -/
def recording (made : List Encryption) : Aead where
  encrypt _ _ data _ := some (data ++ List.replicate 16 0)
  decrypt key nonce ciphertext aad :=
    (made.find? fun encryption => encryption.key = key ∧ encryption.nonce = nonce ∧ encryption.aad = aad ∧
      ciphertext = encryption.data ++ List.replicate 16 0).map Encryption.data

/-- Every history has an ideal cipher. -/
theorem ideal_recording (history : List VaultCall) :
    Ideal (recording (history.filterMap VaultCall.encryption)) history where
  expands encrypted := by
    cases encrypted
    simp
  decrypts := by
    intro key nonce ciphertext aad data
    simp only [recording, Option.map_eq_some_iff]
    constructor
    · rintro ⟨encryption, found, rfl⟩
      have member := List.mem_of_find?_eq_some found
      have selected := List.find?_some found
      simp only [decide_eq_true_eq] at selected
      obtain ⟨rfl, rfl, rfl, rfl⟩ := selected
      obtain ⟨call, recorded, made⟩ := List.mem_filterMap.mp member
      exact ⟨call, recorded, made, rfl⟩
    · rintro ⟨call, recorded, made, encrypted⟩
      cases encrypted
      have member : Encryption.mk key nonce data aad ∈ history.filterMap VaultCall.encryption :=
        List.mem_filterMap.mpr ⟨call, recorded, made⟩
      cases found : (history.filterMap VaultCall.encryption).find? fun encryption => encryption.key = key ∧
          encryption.nonce = nonce ∧ encryption.aad = aad ∧
          data ++ List.replicate 16 0 = encryption.data ++ List.replicate 16 0 with
      | none =>
          have unmatched := List.find?_eq_none.mp found _ member
          simp at unmatched
      | some encryption =>
          have selected := List.find?_some found
          simp only [decide_eq_true_eq] at selected
          exact ⟨encryption, rfl, (List.append_cancel_right selected.2.2.2).symm⟩

theorem label_ne : aad header dataLabel ≠ aad header wrapLabel := by decide

theorem wrap_of_encryption {call : VaultCall} {kek : Kek} {nonce : Block 12} {data : Bytes}
    (made : call.encryption = some ⟨kek, nonce, data, aad header wrapLabel⟩) :
    ∃ dek : Dek, call = .wrapDek (some nonce) kek dek ∧ data = dek.toList := by
  cases call with
  | wrapDek drawn key dek =>
      simp only [VaultCall.encryption, Option.bind_eq_bind, Option.bind_eq_some_iff, Option.pure_def,
        Option.some.injEq, Encryption.mk.injEq] at made
      obtain ⟨_, rfl, rfl, rfl, rfl, -⟩ := made
      exact ⟨dek, rfl, rfl⟩
  | sealVault drawn wrapped dek contents =>
      simp only [VaultCall.encryption, Option.bind_eq_bind, Option.bind_eq_some_iff, Option.pure_def,
        Option.some.injEq, Encryption.mk.injEq] at made
      obtain ⟨_, -, _, -, _, -, -, -, -, label⟩ := made
      exact absurd label label_ne

theorem seal_of_encryption {call : VaultCall} {dek : Dek} {nonce : Block 12} {plaintext : Bytes}
    (made : call.encryption = some ⟨dek, nonce, plaintext, aad header dataLabel⟩) :
    ∃ wrapped contents encoded, call = .sealVault (some nonce) wrapped dek contents ∧ contents.encode = .ok encoded ∧
      encoded.length < 2 ^ 32 ∧ pad encoded = some plaintext := by
  cases call with
  | wrapDek drawn key dek =>
      simp only [VaultCall.encryption, Option.bind_eq_bind, Option.bind_eq_some_iff, Option.pure_def,
        Option.some.injEq, Encryption.mk.injEq] at made
      obtain ⟨_, -, -, -, -, label⟩ := made
      exact absurd label label_ne.symm
  | sealVault drawn wrapped key contents =>
      simp only [VaultCall.encryption, Option.bind_eq_bind, Option.bind_eq_some_iff, Option.pure_def,
        Option.some.injEq, Encryption.mk.injEq, Option.filter_eq_some_iff, decide_eq_true_eq] at made
      obtain ⟨encoded, ⟨written, short⟩, plaintext, padded, _, rfl, rfl, rfl, rfl, -⟩ := made
      refine ⟨wrapped, contents, encoded, rfl, ?_, short, padded⟩
      cases result : contents.encode with
      | error e => simp [result, Except.toOption] at written
      | ok bytes =>
          rw [result] at written
          cases written
          rfl

theorem wrapDek_eq_ok {aead : Aead} {nonce : Option (Block 12)} {kek : Kek} {dek : Dek} {wrapped : WrappedDek} :
    wrapDek aead nonce kek dek = .ok wrapped ↔ ∃ drawn ciphertext, nonce = some drawn ∧
      aead.encrypt kek drawn dek.toList (aad header wrapLabel) = some ciphertext ∧
      wrapped.toList = drawn.toList ++ ciphertext := by
  constructor
  · intro made
    unfold wrapDek at made
    split at made
    · cases made
    · next ciphertext drawn found =>
      split at made
      · cases made
        simp only [encryptWithAad, Option.bind_eq_bind, Option.bind_eq_some_iff, Option.pure_def,
          Option.some.injEq, Prod.mk.injEq] at found
        obtain ⟨_, rfl, _, encrypted, rfl, rfl⟩ := found
        exact ⟨_, _, rfl, encrypted, rfl⟩
      · cases made
  · rintro ⟨drawn, ciphertext, rfl, encrypted, parts⟩
    have size : ciphertext.length = wrappedDekLen := by
      have whole : wrapLen = 12 + ciphertext.length := by simpa using congrArg List.length parts
      simp only [wrapLen, nonceLen] at whole
      omega
    simp only [wrapDek, encryptWithAad, encrypted, Option.bind_eq_bind, Option.bind_some, Option.pure_def,
      dif_pos size]
    exact congrArg Except.ok (List.Vector.toList_injective parts.symm)

section

variable {aead : Aead} {history : List VaultCall} {kek : Kek} {file ciphertext : Bytes} {wrap : WrappedDek}
  {nonce : Block 12}

def Wrapped (aead : Aead) (history : List VaultCall) (kek : Kek) (wrap : WrappedDek) (dek : Dek) : Prop :=
  ∃ drawn, .wrapDek drawn kek dek ∈ history ∧ wrapDek aead drawn kek dek = .ok wrap

/-- A wrap opens exactly when it was made, and gives the DEK it was made of. -/
theorem unwraps_iff (ideal : Ideal aead history) {wrapNonce : Block 12} {wrappedDek data : Bytes}
    (parts : wrap.toList = wrapNonce.toList ++ wrappedDek) :
    aead.decrypt kek wrapNonce wrappedDek (aad header wrapLabel) = some data ↔
      ∃ dek, Wrapped aead history kek wrap dek ∧ data = dek.toList := by
  rw [ideal.decrypts]
  constructor
  · rintro ⟨call, recorded, made, encrypted⟩
    obtain ⟨dek, rfl, rfl⟩ := wrap_of_encryption made
    exact ⟨dek, ⟨_, recorded, wrapDek_eq_ok.mpr ⟨_, _, rfl, encrypted, parts⟩⟩, rfl⟩
  · rintro ⟨dek, ⟨_, recorded, made⟩, rfl⟩
    obtain ⟨drawn, ciphertext, rfl, encrypted, same⟩ := wrapDek_eq_ok.mp made
    obtain ⟨drawn_eq, rfl⟩ := List.append_inj (same.symm.trans parts) (by simp)
    cases List.Vector.toList_injective drawn_eq
    exact ⟨_, recorded, rfl, encrypted⟩

theorem openLayers_wrongKey (ideal : Ideal aead history) :
    openLayers aead kek wrap nonce ciphertext = .error .wrongKey ↔ ∀ dek, ¬ Wrapped aead history kek wrap dek := by
  obtain ⟨wrapNonce, wrappedDek, parts⟩ := wrap_split wrap
  have unwraps : ∀ data, aead.decrypt kek wrapNonce wrappedDek (aad header wrapLabel) = some data ↔
      ∃ dek, Wrapped aead history kek wrap dek ∧ data = dek.toList := fun _ => unwraps_iff ideal parts
  have split : splitFirstChunk nonceLen wrap.toList = some (wrapNonce, wrappedDek) := splitFirstChunk_eq_some.mpr parts
  simp only [openLayers, split, okOr, Bind.bind, Except.bind]
  cases unwrapped : aead.decrypt kek wrapNonce wrappedDek (aad header wrapLabel) with
  | none =>
      simp only [true_iff]
      intro dek made
      have opens := (unwraps _).mpr ⟨dek, made, rfl⟩
      rw [unwrapped] at opens
      cases opens
  | some data =>
      obtain ⟨dek, made, rfl⟩ := (unwraps data).mp unwrapped
      have found : ¬ ∀ dek, ¬ Wrapped aead history kek wrap dek := fun none => none dek made
      simp only [found, iff_false, toBlock_toList]
      -- what is left can only be corrupt
      cases aead.decrypt dek nonce ciphertext (aad header dataLabel) with
      | none => simp
      | some plaintext =>
          simp only
          cases unpad plaintext with
          | none => simp
          | some encoded =>
              simp only
              cases VaultContents.decode encoded <;> simp [Pure.pure, Except.pure]

/-- The outer form is right and the wrap is nobody's: the only wrong key there is. -/
theorem openVault_wrongKey (ideal : Ideal aead history) :
    openVault aead kek file = .error .wrongKey ↔ ∃ wrap nonce ciphertext, Layout file wrap nonce ciphertext ∧
      ∀ dek, ¬ Wrapped aead history kek wrap dek := by
  by_cases shaped : ∃ wrap nonce ciphertext, Layout file wrap nonce ciphertext
  · obtain ⟨wrap, nonce, ciphertext, layout⟩ := shaped
    rw [openVault_of_layout layout, openLayers_wrongKey ideal]
    constructor
    · exact fun unmade => ⟨wrap, nonce, ciphertext, layout, unmade⟩
    · rintro ⟨_, _, _, other, unmade⟩
      rwa [layout.wrap_eq other]
  · have misshapen : ∀ wrap nonce ciphertext, ¬ Layout file wrap nonce ciphertext := by simpa using shaped
    constructor
    · intro wrong
      rcases openVault_misshapen aead kek misshapen with other | other <;>
        rw [wrong] at other <;> cases other
    · rintro ⟨_, _, _, layout, -⟩
      exact absurd layout (misshapen _ _ _)

/-- What opens was made by a wrap under this KEK and a seal with the wrapped DEK. -/
theorem openVault_made (ideal : Ideal aead history) {opened : Opened} (found : openVault aead kek file = .ok opened) :
    Wrapped aead history kek opened.wrapped opened.dek ∧ ∃ drawn wrapped rest,
      .sealVault drawn wrapped opened.dek opened.contents ∈ history ∧
      sealVault aead drawn wrapped opened.dek opened.contents = .ok (header.toList ++ (wrapped.toList ++ rest)) ∧
      file = header.toList ++ (opened.wrapped.toList ++ rest) := by
  obtain ⟨wrap, nonce, ciphertext, layout⟩ := layout_of_openVault found
  rw [openVault_of_layout layout] at found
  obtain ⟨wrapNonce, wrappedDek, parts⟩ := wrap_split wrap
  have split : splitFirstChunk nonceLen wrap.toList = some (wrapNonce, wrappedDek) := splitFirstChunk_eq_some.mpr parts
  simp only [openLayers, split, bind_eq_ok, okOr_eq_ok, Prod.exists, toBlock_eq_some] at found
  obtain ⟨_, _, same, _, unwrapped, dek, rfl, plaintext, decrypted, encoded, unpadded, contents, decoded, rest⟩ := found
  cases same
  cases rest
  obtain ⟨_, wrapped, same⟩ := (unwraps_iff ideal parts).mp unwrapped
  cases List.Vector.toList_injective same
  obtain ⟨call, recorded, made, encrypted⟩ := ideal.decrypts.mp decrypted
  obtain ⟨wrapped', contents', encoded', rfl, written, short, padded⟩ := seal_of_encryption made
  -- the strict decoder gives back what was encoded
  cases (unpad_pad short padded).symm.trans unpadded
  cases (VaultContents.decode_eq_some.mpr written).symm.trans decoded
  have small : headerLen + wrapLen + nonceLen + ciphertext.length ≤ maxVaultLen := by
    have most := layout.most
    rw [layout.parts] at most
    simpa [Nat.add_assoc, nonceLen] using most
  exact ⟨wrapped, _, wrapped', nonce.toList ++ ciphertext, recorded,
    sealVault_of_encrypted wrapped' written short padded encrypted small, layout.parts⟩

theorem layout_of_sealVault (expands : aead.Expands) {drawn : Option (Block 12)} {dek : Dek}
    {contents : VaultContents} (made : sealVault aead drawn wrap dek contents = .ok file) :
    ∃ nonce ciphertext, Layout file wrap nonce ciphertext := by
  obtain ⟨least, most⟩ := length_sealVault expands made
  obtain ⟨encoded, plaintext, ciphertext, nonce, -, short, padded, encrypted, -, parts⟩ := sealVault_eq_ok made
  obtain ⟨-, -, blocks, -⟩ := pad_eq_some short padded
  refine ⟨nonce, ciphertext, parts, least, most, ?_⟩
  rw [expands encrypted, tagLen, Nat.add_sub_cancel]
  exact blocks

end

/-- What opens was made, wrap and data by one call each, and gives the contents that were sealed.
Where one wrap and one seal are all that was made, only their file opens, with its own KEK. -/
theorem vault_integrity {aead : Aead} {history : List VaultCall} (ideal : Ideal aead history) :
    (∀ kek file opened, openVault aead kek file = .ok opened → ∃ wrapNonce sealNonce wrapped data,
      .wrapDek wrapNonce kek opened.dek ∈ history ∧ wrapDek aead wrapNonce kek opened.dek = .ok opened.wrapped ∧
      .sealVault sealNonce wrapped opened.dek opened.contents ∈ history ∧
      sealVault aead sealNonce wrapped opened.dek opened.contents =
        .ok (header.toList ++ (wrapped.toList ++ data)) ∧
      file = header.toList ++ (opened.wrapped.toList ++ data)) ∧
    ∀ wrapNonce kek dek wrapped sealNonce contents file,
      (∀ call ∈ history, call = .wrapDek wrapNonce kek dek ∨ call = .sealVault sealNonce wrapped dek contents) →
      wrapDek aead wrapNonce kek dek = .ok wrapped → sealVault aead sealNonce wrapped dek contents = .ok file →
      (∀ key other opened, other ≠ file → openVault aead key other ≠ .ok opened) ∧
      ∀ key, key ≠ kek → openVault aead key file = .error .wrongKey := by
  constructor
  · intro kek file opened found
    obtain ⟨⟨wrapNonce, recorded, made⟩, sealNonce, wrapped, data, sealed⟩ := openVault_made ideal found
    exact ⟨wrapNonce, sealNonce, wrapped, data, recorded, made, sealed⟩
  · intro wrapNonce kek dek wrapped sealNonce contents file only wraps seals
    constructor
    · intro key other opened different found
      obtain ⟨⟨drawn, recorded, made⟩, drawn', wrapped', data, recorded', made', rfl⟩ := openVault_made ideal found
      rcases only _ recorded with same | same <;> cases same
      rcases only _ recorded' with same | same <;> cases same
      cases made.symm.trans wraps
      cases made'.symm.trans seals
      exact different rfl
    · intro key different
      obtain ⟨nonce, ciphertext, layout⟩ := layout_of_sealVault ideal.expands seals
      apply (openVault_wrongKey ideal).mpr
      refine ⟨wrapped, nonce, ciphertext, layout, ?_⟩
      rintro dek' ⟨drawn, recorded, -⟩
      rcases only _ recorded with same | same <;> cases same
      exact different rfl

def smallWrap : WrappedDek := ⟨List.replicate 12 6 ++ (List.replicate 32 5 ++ List.replicate 16 0), rfl⟩

def smallHistory : List VaultCall :=
  [.wrapDek (some (.replicate 12 6)) (.replicate 32 4) (.replicate 32 5),
    .sealVault (some (.replicate 12 6)) smallWrap (.replicate 32 5) smallContents]

def smallAead : Aead := recording (smallHistory.filterMap VaultCall.encryption)

theorem smallAead_ideal : Ideal smallAead smallHistory := ideal_recording smallHistory

theorem smallAead_wraps :
    wrapDek smallAead (some (.replicate 12 6)) (.replicate 32 4) (.replicate 32 5) = .ok smallWrap :=
  wrapDek_eq_ok.mpr ⟨_, _, rfl, rfl, rfl⟩

theorem smallAead_seals : ∃ file,
    sealVault smallAead (some (.replicate 12 6)) smallWrap (.replicate 32 5) smallContents = .ok file := by
  obtain ⟨_, file, -, seals, -⟩ := sealVault_ok smallAead_ideal.expands (fun _ _ _ _ _ _ => ⟨_, rfl⟩)
    (.replicate 12 6) smallWrap (.replicate 32 5) (show smallContents.config.length ≤ _ by decide) (by decide)
  exact ⟨file, seals⟩

theorem vault_integrity_small : ∃ file,
    sealVault smallAead (some (.replicate 12 6)) smallWrap (.replicate 32 5) smallContents = .ok file ∧
    (∀ other opened, other ≠ file → openVault smallAead (.replicate 32 4) other ≠ .ok opened) ∧
    openVault smallAead (.replicate 32 7) file = .error .wrongKey := by
  obtain ⟨file, seals⟩ := smallAead_seals
  obtain ⟨only, other⟩ := (vault_integrity smallAead_ideal).2 (some (.replicate 12 6)) (.replicate 32 4)
    (.replicate 32 5) smallWrap (some (.replicate 12 6)) smallContents file (by simp [smallHistory]) smallAead_wraps
    seals
  exact ⟨file, seals, only _, other _ (by decide)⟩

end Vault

end CesaConn
