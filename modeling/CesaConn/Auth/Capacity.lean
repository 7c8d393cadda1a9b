import CesaConn.Auth.Pairing

/-! A full list of devices, seen before the user is asked and seen again by the save.

The two checks are the same but for a device that is in the list already: the save lets it
through, the check before the question does not look for it.
-/

set_option autoImplicit false

namespace CesaConn

open Format Program

namespace Auth

open Attempt

variable {crypto : Primitives} {role : Role} {name : String} {pairing : Pairing} {hash : HandshakeHash}

/-- `finish_auth` for a peer that needs pairing ends when it has read the list, so nobody is asked. -/
def RefusesEarly (crypto : Primitives) (role : Role) (name : String) (pairing : Pairing) (hash : HandshakeHash)
    (peers : List TrustedPeer) (peer : TrustedPeer) : Prop :=
  (finishAuth crypto (some (.ok (some ⟨peer, hash, false⟩))) role name pairing).run.Traces
    [⟨.readPeers, peers⟩] (.error .failedToPairNewDevice)

def SaveFails (peers : List TrustedPeer) (peer : TrustedPeer) : Prop := (CesaConn.savePeer peers peer).1 ≠ .ok ()

theorem traces_confirmPairing_ne_nil {events : List (Event wire)} {result : Except AuthSnowErrors Unit}
    (traced : (confirmPairing crypto role name hash pairing).run.Traces events result) : events ≠ [] := by
  rcases (traces_bind _ _ _ _).mp traced with ⟨error, asked, _⟩ | ⟨first, rest, asked, rfl, _, traced⟩
  · obtain ⟨_, _, same⟩ := traces_lift asked
    cases same
  · have sends {events : List (Event wire)} {result : Except AuthSnowErrors Unit}
        (traced : (sendSecure (flag (accepts asked)) role.acceptTag timeout).run.Traces events result) : events ≠ [] := by
      obtain ⟨_, _, rfl, _⟩ := traced
      exact List.cons_ne_nil _ _
    rcases (traces_bind _ _ _ _).mp traced with ⟨error, sent, _⟩ | ⟨before, after, _, rfl, sent, _⟩
    · exact List.append_ne_nil_of_right_ne_nil first (sends sent)
    · exact List.append_ne_nil_of_right_ne_nil first (List.append_ne_nil_of_left_ne_nil (sends sent) after)

/-- After the list has been read, the run goes on exactly if there is room. -/
theorem traces_finishAuth {peers : List TrustedPeer} {peer : TrustedPeer} {events : List (Event wire)}
    {result : Except AuthSnowErrors (Option Authenticated)}
    (traced : (finishAuth crypto (some (.ok (some ⟨peer, hash, false⟩))) role name pairing).run.Traces
      (⟨.readPeers, peers⟩ :: events) result) :
    maxTrustedPeers ≤ peers.length ∧ events = [] ∨ peers.length < maxTrustedPeers ∧ events ≠ [] := by
  obtain ⟨_, _, same, traced⟩ := traced
  cases same
  -- the length of the list alone decides, the peer is not looked for
  have traced : (ensure (peers.length < maxTrustedPeers) .failedToPairNewDevice >>= fun _ => _ :
      Exchange (Option Authenticated)).run.Traces events result := traced
  by_cases room : peers.length < maxTrustedPeers
  · right
    rw [decide_eq_true room] at traced
    refine ⟨room, ?_⟩
    rcases (traces_bind _ _ _ _).mp traced with ⟨error, passed, _⟩ | ⟨first, rest, _, rfl, passed, traced⟩
    -- both sides confirm in turn, and either confirmation sends something
    · cases passed.2
    · rcases (traces_bind _ _ _ _).mp traced with ⟨error, confirmed, _⟩ | ⟨before, after, _, rfl, confirmed, _⟩
      · exact List.append_ne_nil_of_right_ne_nil first (traces_confirmPairing_ne_nil confirmed)
      · exact List.append_ne_nil_of_right_ne_nil first
          (List.append_ne_nil_of_left_ne_nil (traces_confirmPairing_ne_nil confirmed) after)
  · left
    rw [decide_eq_false room] at traced
    exact ⟨Nat.le_of_not_lt room, traced.1⟩

theorem refusesEarly_iff {peers : List TrustedPeer} {peer : TrustedPeer} :
    RefusesEarly crypto role name pairing hash peers peer ↔ maxTrustedPeers ≤ peers.length := by
  constructor
  · intro refused
    rcases traces_finishAuth refused with ⟨full, _⟩ | ⟨_, goes⟩
    · exact full
    · exact absurd rfl goes
  · intro full
    refine ⟨peers, [], rfl, ?_⟩
    show (ensure (peers.length < maxTrustedPeers) .failedToPairNewDevice >>= fun _ => _ :
      Exchange (Option Authenticated)).run.Traces [] _
    rw [decide_eq_false (Nat.not_lt.mpr full)]
    exact ⟨rfl, rfl⟩

theorem saveFails_iff {peers : List TrustedPeer} {peer : TrustedPeer} :
    SaveFails peers peer ↔ knows peers peer.x25519PubKey = false ∧ maxTrustedPeers ≤ peers.length := by
  rw [SaveFails, CesaConn.savePeer]
  by_cases known : knows peers peer.x25519PubKey = true
  · simp [known]
  · by_cases full : maxTrustedPeers ≤ peers.length
    · simp [known, full]
    · simp [known, full]

/-- The early refusal agrees with the save except for a device that a full list already holds;
and whoever is asked about a device can keep it. -/
theorem early_refusal_agrees_iff (crypto : Primitives) (role : Role) (name : String) (pairing : Pairing)
    (hash : HandshakeHash) (peers : List TrustedPeer) (peer : TrustedPeer) :
    ((RefusesEarly crypto role name pairing hash peers peer ↔ SaveFails peers peer) ↔
      ¬ (maxTrustedPeers ≤ peers.length ∧ knows peers peer.x25519PubKey = true)) ∧
    ∀ events result, (finishAuth crypto (some (.ok (some ⟨peer, hash, false⟩))) role name pairing).run.Traces
      (⟨.readPeers, peers⟩ :: events) result → events ≠ [] → ¬ SaveFails peers peer := by
  rw [refusesEarly_iff, saveFails_iff]
  constructor
  · cases knows peers peer.x25519PubKey <;> simp
  · intro events result traced asked failed
    rcases traces_finishAuth traced with ⟨_, ends⟩ | ⟨room, _⟩
    · exact asked ends
    · exact Nat.not_lt.mpr failed.2 room

def numbered (number : Nat) : TrustedPeer := ⟨littleBlock 32 number, .replicate mldsa87VkLen 0, "device"⟩

theorem saveable_numbered : Saveable ((List.range maxTrustedPeers).map numbered) := by
  refine ⟨by simp, ?_, ?_⟩
  · refine List.Nodup.of_map List.Vector.toList ?_
    rw [List.map_map, List.map_map]
    exact nodup_map_little (by decide)
  · intro peer member
    obtain ⟨_, _, rfl⟩ := List.mem_map.mp member
    exact (by decide : validPeerName "device" = true)

/-- A full list with the device in it, which the other side forgot: refused, though it needs no room. -/
theorem full_list_refuses_known :
    ¬ ∀ crypto role name pairing hash peers peer, Saveable peers →
      (RefusesEarly crypto role name pairing hash peers peer ↔ SaveFails peers peer) := by
  intro always
  have agrees := always .plain .server "device" .channel (.replicate 32 0) _ (numbered 0) saveable_numbered
  apply ((early_refusal_agrees_iff _ _ _ _ _ _ _).1.mp agrees)
  constructor
  · simp
  · rw [knows, List.any_eq_true]
    refine ⟨numbered 0, List.mem_map_of_mem (List.mem_range.mpr (by decide)), decide_eq_true rfl⟩

end Auth

end CesaConn
