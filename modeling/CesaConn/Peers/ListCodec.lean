import CesaConn.Peers.TrustedPeers

/-! The saved list of peers is written in one way only.

Bytes that are not the encoding of a list are refused whatever is wrong with them: one
byte too many, an entry cut off, a name that is no text or that is not to be shown.
-/

set_option autoImplicit false

namespace CesaConn

open Format

/-- Bytes that are no entry, or only the beginning of one. -/
inductive NoPeer : Bytes → Prop where
  | cut {part : Bytes} : part.length ≤ 32 + mldsa87VkLen → NoPeer part
  | cutName (key : StaticKey) (vk : VerificationKey) {nameLen : UInt8} {name : Bytes} :
      name.length < nameLen.toNat → NoPeer (key.toList ++ (vk.toList ++ (nameLen :: name)))
  /-- No UTF-8, too long or not to be shown. -/
  | badName (key : StaticKey) (vk : VerificationKey) {name : Bytes} (rest : Bytes) :
      name.length < 256 → (∀ text, fromUtf8 name = some text → ¬ validPeerName text) →
      NoPeer (key.toList ++ (vk.toList ++ (UInt8.ofNat name.length :: (name ++ rest))))

/-- Every peer is written as itself, so what follows so many peers is determined. -/
theorem peerBytes_append_inj {first second : List TrustedPeer} {left right : Bytes}
    (named : ∀ peer ∈ first, validPeerName peer.name) (named' : ∀ peer ∈ second, validPeerName peer.name)
    (size : first.length = second.length)
    (same : first.flatMap peerBytes ++ left = second.flatMap peerBytes ++ right) : first = second ∧ left = right :=
  flatMap_append_inj (fun {_ _ _} => readPeer_eq_some) named named' size same

/-- What `decode_peers` accepts, seen from the front. -/
theorem decodePeers_shape {count : Nat} {rest : Bytes} {peers : List TrustedPeer} (fits : count < 2 ^ 16)
    (read : decodePeers (little 2 count ++ rest) = some peers) :
    peers.length = count ∧ (∀ peer ∈ peers, validPeerName peer.name) ∧ rest = peers.flatMap peerBytes := by
  obtain ⟨few, named, shape⟩ := encodePeers_eq_some.mp (decodePeers_eq_some.mp read).2
  have own : readLE 2 (little 2 count ++ rest) = some (count, rest) := readLE_append 2 count fits rest
  rw [shape, readLE_append 2 peers.length (few.trans_lt (by decide))] at own
  cases own
  exact ⟨rfl, named, rfl⟩

theorem decodePeers_append {bytes extra : Bytes} {peers : List TrustedPeer} (read : decodePeers bytes = some peers)
    (more : extra ≠ []) : decodePeers (bytes ++ extra) = none := by
  obtain ⟨few, named, shape⟩ := encodePeers_eq_some.mp (decodePeers_eq_some.mp read).2
  cases again : decodePeers (bytes ++ extra) with
  | none => rfl
  | some others =>
      rw [shape, List.append_assoc] at again
      obtain ⟨size, named', same⟩ := decodePeers_shape (few.trans_lt (by decide)) again
      have ends : others.flatMap peerBytes ++ [] = peers.flatMap peerBytes ++ extra := by rw [List.append_nil, same]
      exact absurd (peerBytes_append_inj named' named size ends).2.symm more

theorem decodePeers_cut {bytes part extra : Bytes} {peers : List TrustedPeer} (read : decodePeers bytes = some peers)
    (split : bytes = part ++ extra) (cut : extra ≠ []) : decodePeers part = none := by
  cases accepted : decodePeers part with
  | none => rfl
  | some others =>
      rw [split, decodePeers_append accepted cut] at read
      cases read

theorem decodePeers_bad {before : List TrustedPeer} {count : Nat} {after : Bytes} (fits : count < 2 ^ 16)
    (more : before.length < count) (named : ∀ peer ∈ before, validPeerName peer.name) (bad : readPeer after = none) :
    decodePeers (little 2 count ++ (before.flatMap peerBytes ++ after)) = none := by
  cases accepted : decodePeers (little 2 count ++ (before.flatMap peerBytes ++ after)) with
  | none => rfl
  | some peers =>
      obtain ⟨size, named', same⟩ := decodePeers_shape fits accepted
      -- the peers before it are read as themselves, so the next peer was read where it can't be
      obtain ⟨peer, rest, tail⟩ : ∃ peer rest, peers.drop before.length = peer :: rest :=
        List.exists_cons_of_length_pos (by rw [List.length_drop]; omega)
      have whole : before.flatMap peerBytes ++ after =
          (peers.take before.length).flatMap peerBytes ++ (peer :: rest).flatMap peerBytes := by
        rw [same, ← tail, ← List.flatMap_append, List.take_append_drop]
      have front : before.length = (peers.take before.length).length := by
        rw [List.length_take]
        omega
      have ends := peerBytes_append_inj named (fun peer member => named' peer (List.mem_of_mem_take member)) front whole
      have member : peer ∈ peers := List.mem_of_mem_drop (tail ▸ List.mem_cons_self)
      have good : readPeer after = some (peer, rest.flatMap peerBytes) :=
        readPeer_eq_some.mpr ⟨named' peer member, ends.2⟩
      rw [bad] at good
      cases good

theorem readPeer_noPeer {after : Bytes} (damaged : NoPeer after) : readPeer after = none := by
  cases damaged with
  | cut short =>
      cases read : readPeer after with
      | none => rfl
      | some found =>
          obtain ⟨peer, rest⟩ := found
          have shape := (readPeer_eq_some.mp read).2
          rw [shape, peerBytes, List.length_append, List.length_append, List.length_append, List.length_cons,
            List.Vector.toList_length, List.Vector.toList_length] at short
          omega
  | @cutName key vk nameLen name short =>
      have split : splitAtChecked nameLen.toNat name = none := if_neg (Nat.not_le.mpr short)
      simp only [readPeer, splitFirstChunk_append, Option.bind_eq_bind, Option.bind_some, split]
      rfl
  | @badName key vk name rest size bad =>
      have split : splitAtChecked (UInt8.ofNat name.length).toNat (name ++ rest) = some (name, rest) := by
        rw [UInt8.toNat_ofNat', Nat.mod_eq_of_lt size]
        exact splitAtChecked_eq_some.mpr ⟨rfl, rfl⟩
      simp only [readPeer, splitFirstChunk_append, Option.bind_eq_bind, Option.bind_some, split]
      cases text : fromUtf8 name with
      | none => rfl
      | some text' => exact if_neg (bad text' text)

/-- The decoder accepts exactly what the encoder makes of a list with valid names and no
repeated key, so it accepts every list in one form, nothing that goes on after it or ends
before it, no entry that is cut off and no name that is not a valid one in UTF-8. -/
theorem decodePeers_exact (bytes : Bytes) :
    (∀ peers, decodePeers bytes = some peers ↔
      peers.length ≤ maxTrustedPeers ∧ (peers.map TrustedPeer.x25519PubKey).Nodup ∧
        (∀ peer ∈ peers, validPeerName peer.name) ∧ encodePeers peers = some bytes) ∧
    (∀ peers, decodePeers bytes = some peers →
      (∀ other, decodePeers other = some peers → other = bytes) ∧
      (∀ extra, extra ≠ [] → decodePeers (bytes ++ extra) = none) ∧
      ∀ part extra, bytes = part ++ extra → extra ≠ [] → decodePeers part = none) ∧
    ∀ count (before : List TrustedPeer) after, count < 2 ^ 16 → before.length < count →
      (∀ peer ∈ before, validPeerName peer.name) → NoPeer after →
      bytes = little 2 count ++ (before.flatMap peerBytes ++ after) → decodePeers bytes = none := by
  refine ⟨?_, ?_, ?_⟩
  · intro peers
    rw [decodePeers_eq_some]
    constructor
    · intro ⟨distinct, written⟩
      obtain ⟨few, named, _⟩ := encodePeers_eq_some.mp written
      exact ⟨few, distinct, named, written⟩
    · intro ⟨_, distinct, _, written⟩
      exact ⟨distinct, written⟩
  · intro peers read
    refine ⟨?_, fun extra more => decodePeers_append read more, fun part extra split cut => decodePeers_cut read split cut⟩
    intro other same
    have written := (decodePeers_eq_some.mp read).2
    rw [(decodePeers_eq_some.mp same).2] at written
    exact Option.some.inj written
  · intro count before after fits more named damaged shape
    rw [shape]
    exact decodePeers_bad fits more named (readPeer_noPeer damaged)

end CesaConn
