import CesaConn.Peers.Address
import Mathlib.Data.List.Nodup
import Mathlib.Data.List.Perm.Basic

/-! The list of trusted peers: its saved form and everything that changes it.

`Saveable` is the condition under which the list survives a save: the encoder
accepts it and the decoder gives exactly it back.
-/

set_option autoImplicit false

namespace CesaConn

open Format

inductive AuthSnowErrors where
  | failedToReadFromStream
  | failedToWriteToStream
  | failedToGenerateRandomData
  | failedToFinishSpake2Exchange
  | failedToExpandHkdf
  | failedToConvertToArray
  | failedToParseText
  | failedToSetLocalPrivateKey
  | failedToSetPsk
  | failedToBuildSnowResponder
  | failedToReadSnowMessage
  | failedToWriteSnowMessage
  | failedToEnterTransportMode
  | failedToExchangeSpake2
  | failedToConfirmMutualAuthSpake2
  | failedToConfirmKex
  | kexFailed
  | wrongTag
  | readTimeout
  | writeTimeout
  | snowFailedToGetRemoteStatic
  | mlKemInvalidPublicKey
  | failedToCalculateSharedSecret
  | failedToReadFromSecureConnection
  | failedToPairNewDevice
  | failedToVerifySignature
  | failedToSignData
  | failedToWriteToSecureConnection
  | pairingTimeout
  | noClientConfirmation
  | noServerConfirmation
  | failedToBuildSnowInitiator
  | peerKeyMismatch
  | messageTooLarge
  | failedToEncryptData
  | handshakeTimeout
  | failedToDecryptData
  deriving DecidableEq, Repr

def mldsa87VkLen : Nat := 2592
def maxTrustedPeers : Nat := 256
def maxPeerNameLen : Nat := 255
def fingerprintLen : Nat := 8

abbrev StaticKey := Block 32
abbrev VerificationKey := Block mldsa87VkLen

structure TrustedPeer where
  x25519PubKey : StaticKey
  mldsaVerificationKey : VerificationKey
  name : String
  deriving DecidableEq

def TrustedPeer.fingerprint (peer : TrustedPeer) : Block fingerprintLen :=
  ⟨peer.x25519PubKey.toList.take fingerprintLen, by simp [fingerprintLen]⟩

/-- `char::is_control`. -/
def isControl (c : Char) : Bool := c.toNat < 0x20 || (0x7F ≤ c.toNat && c.toNat < 0xA0)

def validPeerName (name : String) : Bool :=
  name.utf8ByteSize ≤ maxPeerNameLen && !name.toList.any isControl

theorem validPeerName_iff {name : String} :
    validPeerName name ↔ name.utf8ByteSize ≤ maxPeerNameLen ∧ ∀ c ∈ name.toList, ¬ isControl c := by
  simp [validPeerName]

/-- A device without a name is called by its address, and that is a valid name. -/
theorem validPeerName_toString (addr : SocketAddr) : validPeerName addr.toString := by
  have plain := addr.plain_text
  have size : ∀ text : List Char, (∀ c ∈ text, 0x20 ≤ c.toNat ∧ c.toNat < 0x7F) →
      (String.ofList text).utf8ByteSize = text.length := by
    intro text
    rw [← String.size_toByteArray, String.toByteArray_ofList]
    induction text with
    | nil => intro _; simp
    | cons c rest ih =>
        intro printable
        obtain ⟨_, low⟩ := printable c (by simp)
        have one : (String.utf8EncodeChar c).length = 1 := by
          rw [String.length_utf8EncodeChar, Char.utf8Size_eq_one_iff, UInt32.le_iff_toNat_le]
          exact Nat.le_of_lt low
        rw [List.utf8Encode_cons, ByteArray.size_append, List.utf8Encode_singleton,
          ih fun other member => printable other (List.mem_cons_of_mem _ member)]
        simp [one, Nat.add_comm]
  refine validPeerName_iff.mpr ⟨?_, fun c member => ?_⟩
  · rw [SocketAddr.toString, size _ plain.printable]
    exact plain.short.trans (by decide)
  · rw [SocketAddr.toString, String.toList_ofList] at member
    have bounds := plain.printable c member
    simp only [isControl, Bool.or_eq_true, decide_eq_true_eq, Bool.and_eq_true]
    omega

/-! ## The saved form -/

def asBytes (name : String) : Bytes := name.toByteArray.data.toList

/-- `std::str::from_utf8`. -/
def fromUtf8 (bytes : Bytes) : Option String := String.fromUTF8? ⟨⟨bytes⟩⟩

theorem fromUtf8_eq_some {bytes : Bytes} {name : String} :
    fromUtf8 bytes = some name ↔ bytes = asBytes name := by
  unfold fromUtf8 String.fromUTF8?
  constructor
  · intro found
    split at found
    · cases found
      rfl
    · cases found
  · rintro rfl
    exact dif_pos name.isValidUTF8

theorem length_asBytes_eq (name : String) : (asBytes name).length = name.utf8ByteSize := by
  rw [asBytes, Array.length_toList]
  rfl

theorem length_asBytes {name : String} (valid : validPeerName name) : (asBytes name).length < 256 :=
  Nat.lt_succ_of_le (validPeerName_iff.mp valid).1

def encodePeer (peer : TrustedPeer) : Option Bytes :=
  if (asBytes peer.name).length < 256 then
    some (peer.x25519PubKey.toList ++ (peer.mldsaVerificationKey.toList ++
      (UInt8.ofNat (asBytes peer.name).length :: asBytes peer.name)))
  else none

/-- The buffer's capacity is left out: no sum of at most 256 such peers overflows. -/
def encodePeers (peers : List TrustedPeer) : Option Bytes :=
  if maxTrustedPeers < peers.length ∨ ¬ peers.all (fun peer => validPeerName peer.name) then none
  else if peers.length < 2 ^ 16 then do
    let encoded ← peers.mapM encodePeer
    return little 2 peers.length ++ encoded.flatten
  else none

def readPeer (bytes : Bytes) : Option (TrustedPeer × Bytes) := do
  let (x25519PubKey, after) ← splitFirstChunk 32 bytes
  let (mldsaVerificationKey, after) ← splitFirstChunk mldsa87VkLen after
  match after with
  | [] => none
  | nameLen :: after =>
      let (name, after) ← splitAtChecked nameLen.toNat after
      let name ← fromUtf8 name
      if validPeerName name then return (⟨x25519PubKey, mldsaVerificationKey, name⟩, after) else none

def decodePeers (bytes : Bytes) : Option (List TrustedPeer) := do
  let (count, rest) ← readLE 2 bytes
  if maxTrustedPeers < count then none
  else
    let (peers, rest) ← readDistinct readPeer TrustedPeer.x25519PubKey count [] rest
    if rest = [] then return peers else none

def peerBytes (peer : TrustedPeer) : Bytes :=
  peer.x25519PubKey.toList ++ (peer.mldsaVerificationKey.toList ++
    (UInt8.ofNat (asBytes peer.name).length :: asBytes peer.name))

theorem encodePeer_valid {peer : TrustedPeer} (valid : validPeerName peer.name) :
    encodePeer peer = some (peerBytes peer) :=
  if_pos (length_asBytes valid)

theorem readPeer_eq_some {bytes rest : Bytes} {peer : TrustedPeer} :
    readPeer bytes = some (peer, rest) ↔ validPeerName peer.name ∧ bytes = peerBytes peer ++ rest := by
  unfold readPeer
  simp only [Option.bind_eq_bind, Option.bind_eq_some_iff, Prod.exists, splitFirstChunk_eq_some]
  constructor
  · rintro ⟨key, _, rfl, vk, after, rfl, read⟩
    cases after with
    | nil => cases read
    | cons nameLen after =>
        simp only [Option.bind_eq_some_iff, Prod.exists, splitAtChecked_eq_some, fromUtf8_eq_some,
          Option.ite_none_right_eq_some] at read
        obtain ⟨_, left, ⟨rfl, exact⟩, name, rfl, valid, same⟩ := read
        cases same
        refine ⟨valid, ?_⟩
        simp [peerBytes, exact]
  · rintro ⟨valid, rfl⟩
    refine ⟨peer.x25519PubKey, peer.mldsaVerificationKey.toList ++
      (UInt8.ofNat (asBytes peer.name).length :: (asBytes peer.name ++ rest)), by simp [peerBytes],
      peer.mldsaVerificationKey, _, rfl, ?_⟩
    have split : splitAtChecked (UInt8.ofNat (asBytes peer.name).length).toNat (asBytes peer.name ++ rest) =
        some (asBytes peer.name, rest) := by
      rw [UInt8.toNat_ofNat', Nat.mod_eq_of_lt (length_asBytes valid)]
      exact splitAtChecked_eq_some.mpr ⟨rfl, rfl⟩
    have named : fromUtf8 (asBytes peer.name) = some peer.name := fromUtf8_eq_some.mpr rfl
    simp only [split, named, valid, Option.bind_some, ↓reduceIte]
    rfl

theorem encodePeers_eq_some {peers : List TrustedPeer} {bytes : Bytes} :
    encodePeers peers = some bytes ↔
      peers.length ≤ maxTrustedPeers ∧ (∀ peer ∈ peers, validPeerName peer.name) ∧
        bytes = little 2 peers.length ++ peers.flatMap peerBytes := by
  have all : (∀ peer ∈ peers, validPeerName peer.name) → peers.mapM encodePeer = some (peers.map peerBytes) := by
    intro valid
    induction peers with
    | nil => rfl
    | cons peer rest ih =>
        simp [List.mapM_cons, encodePeer_valid (valid peer (by simp)),
          ih fun other member => valid other (List.mem_cons_of_mem _ member)]
  unfold encodePeers
  by_cases fine : peers.length ≤ maxTrustedPeers ∧ ∀ peer ∈ peers, validPeerName peer.name
  · obtain ⟨few, valid⟩ := fine
    have accepted : ¬ (maxTrustedPeers < peers.length ∨ ¬ peers.all fun peer => validPeerName peer.name) := by
      simpa using ⟨few, valid⟩
    rw [if_neg accepted, if_pos (few.trans_lt (by decide)), all valid]
    simp only [Option.bind_eq_bind, Option.bind_some, Option.pure_def, Option.some.injEq, few, true_and]
    exact ⟨fun same => ⟨valid, same.symm⟩, fun same => same.2.symm⟩
  · have refused : maxTrustedPeers < peers.length ∨ ¬ peers.all fun peer => validPeerName peer.name := by
      simp only [not_and_or, not_le] at fine
      simpa using fine
    rw [if_pos refused]
    simp only [reduceCtorEq, false_iff]
    rintro ⟨few, valid, -⟩
    exact fine ⟨few, valid⟩

theorem length_encodePeers {peers : List TrustedPeer} {bytes : Bytes} (written : encodePeers peers = some bytes) :
    bytes.length ≤ 2 + maxTrustedPeers * (32 + mldsa87VkLen + 256) := by
  obtain ⟨few, named, rfl⟩ := encodePeers_eq_some.mp written
  have short : ∀ peer ∈ peers, (peerBytes peer).length ≤ 32 + mldsa87VkLen + 256 := by
    intro peer member
    have name := length_asBytes (named peer member)
    simp only [peerBytes, List.length_append, List.length_cons, List.Vector.toList_length]
    omega
  have total := length_flatMap_le short
  have most := Nat.mul_le_mul_right (32 + mldsa87VkLen + 256) few
  rw [List.length_append, length_little]
  exact Nat.add_le_add_left (total.trans most) 2

/-- The decoder accepts exactly the encodings of lists without a repeated key. -/
theorem decodePeers_eq_some {peers : List TrustedPeer} {bytes : Bytes} :
    decodePeers bytes = some peers ↔
      (peers.map TrustedPeer.x25519PubKey).Nodup ∧ encodePeers peers = some bytes := by
  have empty : (([] : List TrustedPeer).map TrustedPeer.x25519PubKey).Nodup := List.nodup_nil
  rw [encodePeers_eq_some]
  unfold decodePeers
  simp only [Option.bind_eq_bind, Option.bind_eq_some_iff, Prod.exists, readLE_eq_some,
    Option.ite_none_left_eq_some, Option.ite_none_right_eq_some,
    readDistinct_eq_some readPeer_eq_some empty]
  constructor
  · rintro ⟨count, _, ⟨rfl, fits⟩, few, _, _, ⟨more, rfl, size, valid, distinct, rfl⟩, rfl, same⟩
    cases same
    subst size
    exact ⟨distinct, by simpa using few, valid, by simp⟩
  · rintro ⟨distinct, few, valid, rfl⟩
    exact ⟨peers.length, _, ⟨rfl, few.trans_lt (by decide)⟩, by simpa using few, peers, [],
      ⟨peers, rfl, rfl, valid, distinct, by simp⟩, rfl, rfl⟩

/-! ## Lists that can be saved and loaded -/

structure Saveable (peers : List TrustedPeer) : Prop where
  few : peers.length ≤ maxTrustedPeers
  distinct : (peers.map TrustedPeer.x25519PubKey).Nodup
  named : ∀ peer ∈ peers, validPeerName peer.name

theorem Saveable.nil : Saveable [] := ⟨by decide, List.nodup_nil, by simp⟩

theorem saveable_iff {peers : List TrustedPeer} :
    Saveable peers ↔ ∃ bytes, encodePeers peers = some bytes ∧ decodePeers bytes = some peers := by
  constructor
  · intro saveable
    have written := encodePeers_eq_some.mpr ⟨saveable.few, saveable.named, rfl⟩
    exact ⟨_, written, decodePeers_eq_some.mpr ⟨saveable.distinct, written⟩⟩
  · rintro ⟨bytes, written, read⟩
    obtain ⟨few, named, -⟩ := encodePeers_eq_some.mp written
    exact ⟨few, (decodePeers_eq_some.mp read).1, named⟩

theorem Saveable.decoded {bytes : Bytes} {peers : List TrustedPeer} (read : decodePeers bytes = some peers) :
    Saveable peers :=
  saveable_iff.mpr ⟨bytes, (decodePeers_eq_some.mp read).2, read⟩

theorem Saveable.perm {first second : List TrustedPeer} (saveable : Saveable first) (same : first.Perm second) :
    Saveable second where
  few := same.length_eq ▸ saveable.few
  distinct := (same.map _).nodup_iff.mp saveable.distinct
  named peer member := saveable.named peer (same.mem_iff.mpr member)

theorem saveable_append {first second : List TrustedPeer} :
    Saveable (first ++ second) ↔
      Saveable first ∧ Saveable second ∧ first.length + second.length ≤ maxTrustedPeers ∧
        ∀ peer ∈ first, ∀ other ∈ second, peer.x25519PubKey ≠ other.x25519PubKey := by
  constructor
  · rintro ⟨few, distinct, named⟩
    rw [List.map_append, List.nodup_append] at distinct
    rw [List.length_append] at few
    refine ⟨⟨by omega, distinct.1, fun peer member => named peer (List.mem_append_left _ member)⟩,
      ⟨by omega, distinct.2.1, fun peer member => named peer (List.mem_append_right _ member)⟩, few, ?_⟩
    intro peer member other member'
    exact distinct.2.2 _ (List.mem_map_of_mem member) _ (List.mem_map_of_mem member')
  · rintro ⟨left, right, few, apart⟩
    refine ⟨by rwa [List.length_append], ?_, fun peer member => ?_⟩
    · rw [List.map_append, List.nodup_append]
      refine ⟨left.distinct, right.distinct, ?_⟩
      rintro _ first _ second rfl
      obtain ⟨peer, member, rfl⟩ := List.mem_map.mp first
      obtain ⟨other, member', same⟩ := List.mem_map.mp second
      exact apart peer member other member' same.symm
    · exact (List.mem_append.mp member).elim (left.named peer) (right.named peer)

/-! ## What changes the list -/

def knows (peers : List TrustedPeer) (key : StaticKey) : Bool :=
  peers.any fun saved => saved.x25519PubKey = key

def savePeer (peers : List TrustedPeer) (peer : TrustedPeer) :
    Except AuthSnowErrors Unit × List TrustedPeer :=
  if knows peers peer.x25519PubKey then (.ok (), peers)
  else if maxTrustedPeers ≤ peers.length then (.error .failedToPairNewDevice, peers)
  else (.ok (), peers ++ [peer])

/-- The peers with this fingerprint and where they stood, and the list without them. -/
def takePeers (peers : List TrustedPeer) (fingerprint : Block fingerprintLen) :
    List (Nat × TrustedPeer) × List TrustedPeer :=
  ((peers.zipIdx.filter fun (peer, _) => peer.fingerprint = fingerprint).map fun (peer, index) => (index, peer),
    peers.filter fun peer => peer.fingerprint ≠ fingerprint)

/-- Puts removed peers back where they stood, as far as the list still goes there. -/
def putBack (peers : List TrustedPeer) (removed : List (Nat × TrustedPeer)) : List TrustedPeer :=
  removed.foldl (fun peers (index, peer) => peers.insertIdx (min index peers.length) peer) peers

theorem saveable_singleton {peer : TrustedPeer} (named : validPeerName peer.name) : Saveable [peer] :=
  ⟨by simp [maxTrustedPeers], List.nodup_singleton _, by simpa using named⟩

theorem Saveable.push {peers : List TrustedPeer} {peer : TrustedPeer} (saveable : Saveable peers)
    (named : validPeerName peer.name) (unknown : knows peers peer.x25519PubKey = false)
    (room : peers.length < maxTrustedPeers) : Saveable (peers ++ [peer]) := by
  refine saveable_append.mpr ⟨saveable, saveable_singleton named, room, ?_⟩
  simp only [knows, List.any_eq_false, decide_eq_true_eq] at unknown
  simpa using unknown

theorem Saveable.savePeer {peers : List TrustedPeer} {peer : TrustedPeer} (saveable : Saveable peers)
    (named : validPeerName peer.name) : Saveable (savePeer peers peer).2 := by
  unfold CesaConn.savePeer
  split
  · exact saveable
  · next unknown =>
    split
    · exact saveable
    · next room => exact saveable.push named (by simpa using unknown) (by omega)

theorem map_snd_takePeers (peers : List TrustedPeer) (fingerprint : Block fingerprintLen) :
    (takePeers peers fingerprint).1.map Prod.snd = peers.filter fun peer => decide (peer.fingerprint = fingerprint) := by
  have plain : peers = peers.zipIdx.map Prod.fst := by simp
  conv_rhs => rw [plain]
  simp only [takePeers, List.map_map, List.filter_map]
  rfl

theorem perm_takePeers (peers : List TrustedPeer) (fingerprint : Block fingerprintLen) :
    peers.Perm ((takePeers peers fingerprint).1.map Prod.snd ++ (takePeers peers fingerprint).2) := by
  rw [map_snd_takePeers]
  have split := List.filter_append_perm (fun peer => decide (peer.fingerprint = fingerprint)) peers
  simpa [takePeers] using split.symm

theorem perm_putBack (peers : List TrustedPeer) (removed : List (Nat × TrustedPeer)) :
    (putBack peers removed).Perm (removed.map Prod.snd ++ peers) := by
  induction removed generalizing peers with
  | nil => exact .refl _
  | cons first rest ih =>
      obtain ⟨index, peer⟩ := first
      have inserted : (peers.insertIdx (min index peers.length) peer).Perm (peer :: peers) :=
        List.perm_insertIdx peer peers (min_le_right _ _)
      calc putBack peers ((index, peer) :: rest)
          = putBack (peers.insertIdx (min index peers.length) peer) rest := rfl
        _ |>.Perm (rest.map Prod.snd ++ peers.insertIdx (min index peers.length) peer) := ih _
        _ |>.Perm (rest.map Prod.snd ++ peer :: peers) := inserted.append_left _
        _ |>.Perm (peer :: (rest.map Prod.snd ++ peers)) := List.perm_middle

theorem insertIdx_append_length {A : Type} (first rest : List A) (value : A) :
    (first ++ rest).insertIdx first.length value = first ++ value :: rest := by
  induction first with
  | nil => rfl
  | cons head first ih => exact congrArg (head :: ·) ih

/-- Where a list has a beginning that was left alone, putting back what was taken
from the rest gives the list. -/
theorem putBack_taken (rest : List TrustedPeer) (fingerprint : Block fingerprintLen) (first : List TrustedPeer) :
    putBack (first ++ rest.filter fun peer => peer.fingerprint ≠ fingerprint)
      (((rest.zipIdx first.length).filter fun (peer, _) => peer.fingerprint = fingerprint).map
        fun (peer, index) => (index, peer)) = first ++ rest := by
  induction rest generalizing first with
  | nil => rfl
  | cons peer rest ih =>
      -- the first peer of the rest belongs to the beginning from here on
      have later := ih (first ++ [peer])
      rw [List.length_append, List.length_singleton, List.append_assoc, List.singleton_append, List.append_assoc,
        List.singleton_append] at later
      rw [List.zipIdx_cons]
      by_cases matching : peer.fingerprint = fingerprint
      · rw [List.filter_cons_of_neg (by simp [matching]), List.filter_cons_of_pos (by simp [matching]), List.map_cons]
        have short : first.length ≤ (first ++ rest.filter fun peer => decide (peer.fingerprint ≠ fingerprint)).length := by
          simp
        show putBack (List.insertIdx _ _ _) _ = _
        rw [min_eq_left short, insertIdx_append_length]
        exact later
      · rw [List.filter_cons_of_pos (by simp [matching]), List.filter_cons_of_neg (by simp [matching])]
        exact later

theorem putBack_takePeers (peers : List TrustedPeer) (fingerprint : Block fingerprintLen) :
    putBack (takePeers peers fingerprint).2 (takePeers peers fingerprint).1 = peers :=
  putBack_taken peers fingerprint []

theorem Saveable.taken {peers : List TrustedPeer} (saveable : Saveable peers)
    (fingerprint : Block fingerprintLen) :
    Saveable ((takePeers peers fingerprint).1.map Prod.snd) ∧ Saveable (takePeers peers fingerprint).2 := by
  have split := saveable_append.mp (saveable.perm (perm_takePeers peers fingerprint))
  exact ⟨split.1, split.2.1⟩

/-- Removed peers may go back exactly while nobody took their keys or their room. -/
theorem saveable_putBack {peers : List TrustedPeer} {removed : List (Nat × TrustedPeer)}
    (saveable : Saveable peers) (taken : Saveable (removed.map Prod.snd)) :
    Saveable (putBack peers removed) ↔
      peers.length + removed.length ≤ maxTrustedPeers ∧
        ∀ entry ∈ removed, knows peers entry.2.x25519PubKey = false := by
  have moved := perm_putBack peers removed
  have whole : Saveable (putBack peers removed) ↔ Saveable (removed.map Prod.snd ++ peers) :=
    ⟨fun back => back.perm moved, fun back => back.perm moved.symm⟩
  rw [whole, saveable_append]
  simp only [taken, saveable, true_and, List.length_map, List.mem_map, forall_exists_index, and_imp,
    forall_apply_eq_imp_iff₂, knows, List.any_eq_false, decide_eq_true_eq, Nat.add_comm removed.length]
  exact and_congr_right fun _ => forall₂_congr fun _ _ => forall₂_congr fun _ _ => ne_comm

end CesaConn
