import CesaConn.Daemon.State
import CesaConn.Storage.AtomicFile
import CesaConn.Storage.Integrity

/-! Everything the daemon can hold fits in the vault.

Five limits in three formats meet here. The buffers are sized before they are filled, with
additions that saturate or are checked; none of them comes near its end, so every size is
the size of what is written.
-/

set_option autoImplicit false

namespace CesaConn

open Format

def checkedAdd (a b : Nat) : Option Nat := if a + b ≤ usizeMax then some (a + b) else none

def saturatingMul (a b : Nat) : Nat := min (a * b) usizeMax

theorem saturatingAdd_eq {a b : Nat} (fits : a + b ≤ usizeMax) : saturatingAdd a b = a + b := Nat.min_eq_left fits

theorem checkedAdd_eq {a b : Nat} (fits : a + b ≤ usizeMax) : checkedAdd a b = some (a + b) := if_pos fits

/-! ## The sizes of the buffers -/

def encodedPeerFixedLen : Nat := 32 + mldsa87VkLen + 1

def addPeerLen (len : Nat) (peer : TrustedPeer) : Option Nat := do
  let len ← checkedAdd len encodedPeerFixedLen
  checkedAdd len (asBytes peer.name).length

/-- The size `encode_peers` adds up for its buffer. -/
def peersLen (peers : List TrustedPeer) : Option Nat := peers.foldlM addPeerLen 2

namespace PeerBook

def capacity (saved : Nat) : Nat := saturatingAdd (saturatingMul saved 51) 2

end PeerBook

def Daemon.Config.capacity (addresses : Bytes) : Nat := saturatingAdd addresses.length 2

def Vault.VaultContents.capacity (contents : VaultContents) : Nat :=
  saturatingAdd (saturatingAdd (5 * 5 + 32 + 32 + identitySeedLen) contents.config.length) contents.peers.length

theorem length_peerBytes (peer : TrustedPeer) :
    (peerBytes peer).length = encodedPeerFixedLen + (asBytes peer.name).length := by
  simp only [peerBytes, List.length_append, List.length_cons, List.Vector.toList_length, encodedPeerFixedLen]
  omega

theorem peersLen_from (peers : List TrustedPeer) {start : Nat}
    (fits : start + (peers.flatMap peerBytes).length ≤ usizeMax) :
    peers.foldlM addPeerLen start = some (start + (peers.flatMap peerBytes).length) := by
  induction peers generalizing start with
  | nil => rfl
  | cons peer rest ih =>
      rw [List.flatMap_cons, List.length_append, length_peerBytes] at fits ⊢
      have added : addPeerLen start peer = some (start + (encodedPeerFixedLen + (asBytes peer.name).length)) := by
        rw [addPeerLen, checkedAdd_eq (by omega), Option.bind_eq_bind, Option.bind_some, checkedAdd_eq (by omega),
          Nat.add_assoc]
      rw [List.foldlM_cons, added, Option.bind_eq_bind, Option.bind_some, ih (by omega), Nat.add_assoc]

/-- The list is written, into a buffer of exactly its size. -/
theorem encodePeers_fits {peers : List TrustedPeer} (few : peers.length ≤ maxTrustedPeers)
    (named : ∀ peer ∈ peers, validPeerName peer.name) :
    ∃ encoded, encodePeers peers = some encoded ∧ encoded.length ≤ Vault.maxPeersLen ∧
      peersLen peers = some encoded.length := by
  have written := encodePeers_eq_some.mpr ⟨few, named, rfl⟩
  have bound := length_encodePeers written
  refine ⟨_, written, bound.trans (by decide), ?_⟩
  rw [List.length_append, length_little] at bound ⊢
  exact peersLen_from peers (bound.trans (by decide))

namespace PeerBook

theorem length_saved (book : PeerBook) (peers : List TrustedPeer) : (book.saved peers).length ≤ maxTrustedPeers :=
  List.length_take_le _ _

theorem capacity_eq {saved : Nat} (few : saved ≤ maxTrustedPeers) : capacity saved = saved * 51 + 2 := by
  have bound : saved * 51 + 2 ≤ usizeMax := (Nat.add_le_add_right (Nat.mul_le_mul_right 51 few) 2).trans (by decide)
  have product : saturatingMul saved 51 = saved * 51 := Nat.min_eq_left (by omega)
  rw [capacity, product, saturatingAdd_eq bound]

theorem length_encode_le_capacity (book : PeerBook) (peers : List TrustedPeer) :
    (book.encode peers).length ≤ capacity (book.saved peers).length := by
  rw [capacity_eq (book.length_saved peers), Nat.add_comm]
  exact book.length_encode_le peers

end PeerBook

namespace Vault

/-! ## Reading the file -/

/-- What the operating system tells of a path, links not followed. -/
structure Metadata where
  isFile : Bool
  own : Bool
  /-- Nobody else may open it. -/
  secret : Bool
  len : Nat

/-- What `read_file` is answered; `content` is the file as it is when it is read. -/
structure Reading where
  privateDir : Bool
  metadata : Except IoError Metadata
  content : Option Bytes

def readFile (path : Path) (reading : Reading) : Except VaultErrors (Option Bytes) :=
  match path.parent with
  | none => .error .io
  | some _ =>
      if !reading.privateDir then .error .insecureDirectory
      else
        match reading.metadata with
        | .error .notFound => .ok none
        | .error .other => .error .io
        | .ok metadata =>
            if !metadata.isFile || !metadata.own || !metadata.secret then .error .insecureDirectory
            else if maxVaultLen < metadata.len then .error .tooLarge
            else
              match reading.content with
              | none => .error .io
              | some content =>
                  -- bounded even if the file grows after the check
                  let bytes := content.take (saturatingAdd maxVaultLen 1)
                  if maxVaultLen < bytes.length then .error .tooLarge else .ok (some bytes)

structure Finds (reading : Reading) (file : Bytes) : Prop where
  metadata : ∀ metadata, reading.metadata = .ok metadata → metadata.len = file.length
  content : ∀ content, reading.content = some content → content = file

/-- A file within the limit is not refused as too large, and is read whole. -/
theorem readFile_within {path : Path} {reading : Reading} {file : Bytes} (finds : Finds reading file)
    (small : file.length ≤ maxVaultLen) :
    readFile path reading ≠ .error .tooLarge ∧ ∀ bytes, readFile path reading = .ok (some bytes) → bytes = file := by
  have whole : file.take (saturatingAdd maxVaultLen 1) = file :=
    List.take_of_length_le (small.trans (by decide))
  have fits : ¬ maxVaultLen < file.length := Nat.not_lt.mpr small
  unfold readFile
  cases path.parent with
  | none => exact ⟨nofun, nofun⟩
  | some dir =>
      -- a refusal before the length is looked at is another one, and reads nothing
      cases reading.privateDir with
      | false => exact ⟨nofun, nofun⟩
      | true =>
          cases answered : reading.metadata with
          | error e => cases e <;> exact ⟨nofun, nofun⟩
          | ok metadata =>
              have length : metadata.len = file.length := finds.metadata metadata answered
              by_cases refused : (!metadata.isFile || !metadata.own || !metadata.secret) = true
              · simp [refused]
              · cases read : reading.content with
                | none => simp [refused, length, fits]
                | some content =>
                    have same : content = file := finds.content content read
                    simp [refused, length, fits, same, whole]

/-! ## Sealing -/

theorem sealVault_ne_tooLarge {aead : Aead} (expands : aead.Expands) {contents : VaultContents}
    (config : contents.config.length ≤ maxConfigLen) (peers : contents.peers.length ≤ maxPeersLen)
    (nonce : Option (Block 12)) (wrapped : WrappedDek) (dek : Dek) :
    sealVault aead nonce wrapped dek contents ≠ .error .tooLarge := by
  obtain ⟨encoded, plaintext, written, short, padded, _, small⟩ := padded_fits config peers
  cases nonce with
  | none =>
      simp only [sealVault, written, padded, encryptWithAad, Option.bind_none, Bind.bind, Except.bind, Pure.pure,
        if_neg (Nat.not_le.mpr short)]
      intro failed
      cases failed
  | some nonce =>
      cases encrypted : aead.encrypt dek nonce plaintext (aad header dataLabel) with
      | none =>
          simp only [sealVault, written, padded, encryptWithAad, encrypted, Option.bind_none, Option.bind_some,
            Bind.bind, Except.bind, Pure.pure, if_neg (Nat.not_le.mpr short)]
          intro failed
          cases failed
      | some ciphertext =>
          have grown : ciphertext.length = plaintext.length + tagLen := expands encrypted
          rw [← grown] at small
          rw [sealVault_of_encrypted wrapped written short padded encrypted small]
          intro failed
          cases failed

/-- With the outer form right, what can still go wrong is the key or the data. -/
theorem openLayers_error {aead : Aead} {kek : Kek} {wrap : WrappedDek} {nonce : Block 12} {ciphertext : Bytes}
    {error : VaultErrors} (failed : openLayers aead kek wrap nonce ciphertext = .error error) :
    error = .wrongKey ∨ error = .corrupt := by
  obtain ⟨wrapNonce, wrappedDek, parts⟩ := wrap_split wrap
  -- the wrap has the length its type gives it, so the first split can't fail
  have split : splitFirstChunk nonceLen wrap.toList = some (wrapNonce, wrappedDek) := splitFirstChunk_eq_some.mpr parts
  have passes {A B : Type} {value : Option A} {kind : VaultErrors} {rest : A → Except VaultErrors B}
      (failed : (okOr value kind >>= rest) = .error error) : error = kind ∨ ∃ found, rest found = .error error := by
    cases value with
    | none =>
        cases failed
        exact .inl rfl
    | some found => exact .inr ⟨found, failed⟩
  rw [openLayers, split] at failed
  have unwrap : (okOr (aead.decrypt kek wrapNonce wrappedDek (aad header wrapLabel)) .wrongKey >>= _) = .error error := failed
  rcases passes unwrap with wrong | ⟨data, failed⟩
  · exact .inl wrong
  rcases passes failed with corrupt | ⟨dek, failed⟩
  · exact .inr corrupt
  rcases passes failed with corrupt | ⟨plaintext, failed⟩
  · exact .inr corrupt
  rcases passes failed with corrupt | ⟨encoded, failed⟩
  · exact .inr corrupt
  rcases passes failed with corrupt | ⟨contents, failed⟩
  · exact .inr corrupt
  · cases failed

/-- What a sealed file is accepted for: no size on the way to its contents is refused. -/
structure Accepted (file : Bytes) : Prop where
  least : minVaultLen ≤ file.length
  most : file.length ≤ maxVaultLen
  /-- The sum that `seal` checks is the length of the file. -/
  total : ∃ (wrapped : WrappedDek) (nonce : Block 12) (ciphertext : Bytes),
    file = header.toList ++ (wrapped.toList ++ (nonce.toList ++ ciphertext)) ∧
      saturatingAdd (headerLen + wrapLen + nonceLen) ciphertext.length = file.length
  opens : ∀ aead kek, openVault aead kek file ≠ .error .tooLarge ∧ openVault aead kek file ≠ .error .malformed
  reads : ∀ path reading, Finds reading file → readFile path reading ≠ .error .tooLarge

theorem accepted_of_sealVault {aead : Aead} (expands : aead.Expands) {nonce : Option (Block 12)}
    {wrapped : WrappedDek} {dek : Dek} {contents : VaultContents} {file : Bytes}
    (made : sealVault aead nonce wrapped dek contents = .ok file) : Accepted file := by
  obtain ⟨drawn, ciphertext, layout⟩ := layout_of_sealVault expands made
  have total : headerLen + wrapLen + nonceLen + ciphertext.length = file.length := by
    rw [layout.parts, List.length_append, List.length_append, List.length_append, List.Vector.toList_length,
      List.Vector.toList_length, List.Vector.toList_length, nonceLen]
    omega
  refine ⟨layout.least, layout.most, ⟨wrapped, drawn, ciphertext, layout.parts, ?_⟩, ?_, ?_⟩
  · rw [saturatingAdd_eq (total.le.trans (layout.most.trans (by decide))), total]
  · intro aead kek
    rw [openVault_of_layout layout]
    constructor
    · intro failed
      rcases openLayers_error failed with other | other <;> cases other
    · intro failed
      rcases openLayers_error failed with other | other <;> cases other
  · intro path reading finds
    exact (readFile_within finds layout.most).1

end Vault

namespace Daemon

open Vault

/-- On the way to the file every conversion has room and every sum is exact. -/
structure Exact (config : Config) (book : PeerBook) (peers : List TrustedPeer) (encoded : Bytes)
    (contents : VaultContents) : Prop where
  count : peers.length < 2 ^ 16
  names : ∀ peer ∈ peers, (asBytes peer.name).length < 2 ^ 8
  peersLen : CesaConn.peersLen peers = some encoded.length
  saved : (book.saved peers).length < 2 ^ 16
  addresses : PeerBook.capacity (book.saved peers).length = (book.saved peers).length * 51 + 2 ∧
    (book.encode peers).length ≤ PeerBook.capacity (book.saved peers).length
  config : Config.capacity (book.encode peers) = (config.encode (book.encode peers)).length
  values : ∀ value ∈ [contents.aKey.toList, contents.aSalt.toList, contents.config, contents.identity.toList,
    contents.peers], value.length < 2 ^ 32
  sealed : ∃ written, contents.encode = .ok written ∧ contents.capacity = written.length ∧ written.length < 2 ^ 32 ∧
    saturatingAdd written.length 4 = written.length + 4 ∧
    checkedMul (max (divCeil (written.length + 4) padBlock) 1) padBlock =
      some (max (divCeil (written.length + 4) padBlock) 1 * padBlock)

theorem values_small {contents : VaultContents} (config : contents.config.length ≤ maxConfigLen)
    (peers : contents.peers.length ≤ maxPeersLen) {value : Bytes}
    (member : value ∈ [contents.aKey.toList, contents.aSalt.toList, contents.config, contents.identity.toList,
      contents.peers]) : value.length < 2 ^ 32 := by
  simp only [List.mem_cons, List.not_mem_nil, or_false] at member
  rcases member with rfl | rfl | rfl | rfl | rfl
  · rw [List.Vector.toList_length]
    decide
  · rw [List.Vector.toList_length]
    decide
  · exact config.trans_lt (by decide)
  · rw [List.Vector.toList_length]
    decide
  · exact peers.trans_lt (by decide)

/-- The contents are as long as their buffer, and their padded length is no wrapped product. -/
theorem sealed_exact {contents : VaultContents} (config : contents.config.length ≤ maxConfigLen)
    (peers : contents.peers.length ≤ maxPeersLen) :
    ∃ written, contents.encode = .ok written ∧ contents.capacity = written.length ∧ written.length < 2 ^ 32 ∧
      saturatingAdd written.length 4 = written.length + 4 ∧
      checkedMul (max (divCeil (written.length + 4) padBlock) 1) padBlock =
        some (max (divCeil (written.length + 4) padBlock) 1 * padBlock) := by
  obtain ⟨written, whole, total⟩ := encode_ok config peers
  simp only [maxConfigLen, maxPeersLen] at config peers
  have short : written.length ≤ 1114265 := by
    simp only [identitySeedLen] at total
    omega
  refine ⟨written, whole, ?_, by omega, saturatingAdd_eq ?_, if_pos ?_⟩
  · have inner : 5 * 5 + 32 + 32 + identitySeedLen + contents.config.length ≤ usizeMax := by
      simp only [identitySeedLen, usizeMax]
      omega
    have outer : 5 * 5 + 32 + 32 + identitySeedLen + contents.config.length + contents.peers.length ≤ usizeMax := by
      rw [← total, usizeMax]
      omega
    rw [VaultContents.capacity, saturatingAdd_eq inner, saturatingAdd_eq outer, total]
  · rw [usizeMax]
    omega
  · simp only [divCeil, padBlock, usizeMax]
    omega

theorem length_config_encode (config : Config) (addresses : Bytes) :
    (config.encode addresses).length = addresses.length + 2 := by
  rw [Config.encode, List.length_cons, List.length_cons]

/-- Whatever list, book and settings the daemon holds: they are encoded within their limits, and
sealed into a file that is never refused for its size; no length is wrong on the way. -/
theorem everything_fits {aead : Aead} (expands : aead.Expands) {peers : List TrustedPeer}
    (few : peers.length ≤ maxTrustedPeers) (named : ∀ peer ∈ peers, validPeerName peer.name) (book : PeerBook)
    (config : Config) (aKey : AuthKey) (aSalt : Salt) (identity : Identity) :
    ∃ encoded, encodePeers peers = some encoded ∧ encoded.length ≤ maxPeersLen ∧
      (config.encode (book.encode peers)).length ≤ maxConfigLen ∧
      Exact config book peers encoded ⟨aKey, aSalt, config.encode (book.encode peers), identity, encoded⟩ ∧
      ∀ nonce wrapped dek,
        sealVault aead nonce wrapped dek ⟨aKey, aSalt, config.encode (book.encode peers), identity, encoded⟩ ≠
          .error .tooLarge ∧
        ∀ file, sealVault aead nonce wrapped dek
          ⟨aKey, aSalt, config.encode (book.encode peers), identity, encoded⟩ = .ok file → Accepted file := by
  -- the list and the settings first; the sizes of the file follow from theirs
  obtain ⟨encoded, written, small, sized⟩ := encodePeers_fits few named
  have length := length_config_encode config (book.encode peers)
  have addresses := book.length_encode peers
  have settings : (config.encode (book.encode peers)).length ≤ maxConfigLen := by
    rw [length]
    exact (Nat.add_le_add_right addresses 2).trans (by decide)
  let contents : VaultContents := ⟨aKey, aSalt, config.encode (book.encode peers), identity, encoded⟩
  have configFits : contents.config.length ≤ maxConfigLen := settings
  have peersFit : contents.peers.length ≤ maxPeersLen := small
  refine ⟨encoded, written, small, settings, ?_, ?_⟩
  · refine ⟨few.trans_lt (by decide), fun peer member => length_asBytes (named peer member), sized,
      (book.length_saved peers).trans_lt (by decide),
      ⟨PeerBook.capacity_eq (book.length_saved peers), book.length_encode_le_capacity peers⟩, ?_, ?_, ?_⟩
    · rw [Config.capacity, saturatingAdd_eq ((Nat.add_le_add_right addresses 2).trans (by decide)), length]
    · intro value member
      exact values_small configFits peersFit member
    · exact sealed_exact configFits peersFit
  · intro nonce wrapped dek
    exact ⟨sealVault_ne_tooLarge expands configFits peersFit nonce wrapped dek,
      fun file made => accepted_of_sealVault expands made⟩

def longNamed (number : Nat) : TrustedPeer :=
  ⟨littleBlock 32 number, .replicate mldsa87VkLen 0, String.ofList (List.replicate maxPeerNameLen 'n')⟩

def crowd : List TrustedPeer := (List.range maxTrustedPeers).map longNamed

def crowdBook : PeerBook where
  entries := crowd.map fun peer => ⟨peer.x25519PubKey, some (.v6 (.replicate 16 1) 3232 0 0), .ok, none⟩
  few := by simp [crowd]
  distinct := by
    have keys := nodup_map_little (by decide : maxTrustedPeers ≤ 256 ^ 32)
    refine List.Nodup.of_map List.Vector.toList ?_
    rw [crowd, List.map_map, List.map_map, List.map_map]
    exact keys

theorem length_longName : (asBytes (String.ofList (List.replicate maxPeerNameLen 'n'))).length = maxPeerNameLen := by
  decide +kernel

theorem named_crowd {peer : TrustedPeer} (member : peer ∈ crowd) : validPeerName peer.name := by
  obtain ⟨_, _, rfl⟩ := List.mem_map.mp member
  refine validPeerName_iff.mpr ⟨(length_asBytes_eq _).ge.trans length_longName.le, fun c among => ?_⟩
  rw [longNamed, String.toList_ofList] at among
  rw [List.eq_of_mem_replicate among]
  decide

theorem length_crowdPeers {encoded : Bytes} (written : encodePeers crowd = some encoded) :
    encoded.length = 2 + 256 * 2880 := by
  obtain ⟨_, _, rfl⟩ := encodePeers_eq_some.mp written
  have size : ∀ peer ∈ crowd, (peerBytes peer).length = 2880 := by
    intro peer member
    obtain ⟨_, _, rfl⟩ := List.mem_map.mp member
    rw [length_peerBytes, longNamed, length_longName]
    rfl
  rw [List.length_append, length_little, length_flatMap_eq size, crowd, List.length_map, List.length_range]
  rfl

theorem length_crowdAddresses : (crowdBook.encode crowd).length = 2 + 256 * 51 := by
  have all : crowdBook.saved crowd = crowd.map fun peer => (peer.x25519PubKey, .v6 (.replicate 16 1) 3232 0 0) := by
    have known : crowdBook.entries.filter (fun entry => knows crowd entry.peerId) = crowdBook.entries := by
      rw [List.filter_eq_self]
      intro entry member
      obtain ⟨peer, among, rfl⟩ := List.mem_map.mp member
      exact List.any_eq_true.mpr ⟨peer, among, decide_eq_true rfl⟩
    rw [PeerBook.saved, known, crowdBook, List.filterMap_map]
    refine (congrArg (List.take _) (congrFun List.filterMap_eq_map' crowd)).trans (List.take_of_length_le ?_)
    simp [crowd]
  have size : ∀ record ∈ crowdBook.saved crowd, (PeerBook.savedBytes record).length = 51 := by
    rw [all]
    intro record member
    obtain ⟨peer, _, rfl⟩ := List.mem_map.mp member
    simp [PeerBook.savedBytes]
  have count : (crowdBook.saved crowd).length = 256 := by
    rw [all]
    simp [crowd, maxTrustedPeers]
  simp only [PeerBook.encode, count, Nat.reduceLT, Nat.reducePow, ↓reduceIte]
  rw [List.length_append, length_little, List.take_of_length_le count.le, length_flatMap_eq size, count]

/-- A full list of devices with the longest names, all seen at addresses of the longer kind. -/
theorem everything_fits_full :
    ∃ encoded file, encodePeers crowd = some encoded ∧ encoded.length = 2 + 256 * 2880 ∧
      (crowdBook.encode crowd).length = 2 + 256 * 51 ∧
      sealVault .plain (some (.replicate 12 6)) (.replicate wrapLen 7) (.replicate 32 5)
        ⟨.replicate 32 1, .replicate 32 2, Config.encode ⟨true, true⟩ (crowdBook.encode crowd),
          .replicate identitySeedLen 3, encoded⟩ = .ok file ∧ Accepted file := by
  obtain ⟨encoded, written, small, settings, _, seals⟩ := everything_fits Aead.plain_correct.expands
    (by simp [crowd] : crowd.length ≤ maxTrustedPeers) (fun _ => named_crowd) crowdBook ⟨true, true⟩ (.replicate 32 1)
    (.replicate 32 2) (.replicate identitySeedLen 3)
  let contents : VaultContents := ⟨.replicate 32 1, .replicate 32 2, Config.encode ⟨true, true⟩ (crowdBook.encode crowd),
    .replicate identitySeedLen 3, encoded⟩
  obtain ⟨_, file, _, made, _⟩ := sealVault_ok Aead.plain_correct.expands Aead.plain_encrypts (.replicate 12 6)
    (.replicate wrapLen 7) (.replicate 32 5) (show contents.config.length ≤ maxConfigLen from settings) small
  exact ⟨encoded, file, written, length_crowdPeers written, length_crowdAddresses, made, (seals _ _ _).2 file made⟩
end Daemon

end CesaConn
