import CesaConn.Peers.Pauses
import Mathlib.Data.Finset.Card

/-! The addresses a run of the peer book leaves.

A full book forgets its oldest device. As long as no more devices turn up than
the book has room for, it is never full when a new one comes, so what was last
said of a device's address is what the book says.
-/

set_option autoImplicit false

namespace CesaConn

open Format

namespace PeerBook

def Op.keys : Op → List StaticKey
  | .seen peer _ | .dataOk peer | .setState peer _ => [peer.x25519PubKey]
  | .load saved => saved.addrs.map Prod.fst
  | .wrongPasswordAt _ _ | .keysChanged | .remove _ | .clear => []

/-- What an operation says of a device's address, if it says anything: none is an answer. -/
def Op.reports (op : Op) (key : StaticKey) : Option (Option SocketAddr) :=
  match op with
  | .seen peer addr => if peer.x25519PubKey = key then some (some addr) else none
  | .load saved => some ((saved.addrs.find? fun record => record.1 = key).map Prod.snd)
  | .remove peer => if peer.x25519PubKey = key then some none else none
  | .clear => some none
  | .dataOk _ | .setState _ _ | .wrongPasswordAt _ _ | .keysChanged => none

/-- The address the latest operation gives that says anything of the device. -/
def latest (calls : List Call) (key : StaticKey) : Option SocketAddr :=
  (calls.reverse.findSome? fun call => call.op.reports key).join

def address (book : PeerBook) (key : StaticKey) : Option SocketAddr := (book.find key).bind Entry.addr

/-! ## One step -/

def Within (book : PeerBook) (keys : Finset StaticKey) : Prop := ∀ entry ∈ book.entries, entry.peerId ∈ keys

/-- A device of a small set is known, or there is room for it. -/
theorem Within.room {book : PeerBook} {keys : Finset StaticKey} (within : book.Within keys)
    (few : keys.card ≤ maxTrustedPeers) {key : StaticKey} (member : key ∈ keys) :
    book.knows key = true ∨ book.entries.length < maxTrustedPeers := by
  by_cases known : book.knows key = true
  · exact .inl known
  · have absent : key ∉ book.entries.map Entry.peerId := by
      intro listed
      obtain ⟨entry, found, same⟩ := List.mem_map.mp listed
      exact known (List.any_eq_true.mpr ⟨entry, found, decide_eq_true same⟩)
    have distinct : (key :: book.entries.map Entry.peerId).Nodup := List.nodup_cons.mpr ⟨absent, book.distinct⟩
    have inside : (key :: book.entries.map Entry.peerId).toFinset ⊆ keys := by
      intro other listed
      rcases List.mem_cons.mp (List.mem_toFinset.mp listed) with same | old
      · exact same ▸ member
      · obtain ⟨entry, found, same⟩ := List.mem_map.mp old
        exact same ▸ within entry found
    have counted := Finset.card_le_card inside
    rw [List.toFinset_card_of_nodup distinct, List.length_cons, List.length_map] at counted
    exact .inr (counted.trans few)

theorem find_entry_of_room {book : PeerBook} {key other : StaticKey} (different : key ≠ other)
    (room : book.knows key = true ∨ book.entries.length < maxTrustedPeers) :
    (book.entry key).find other = book.find other := by
  unfold entry
  split
  · rfl
  · next unknown =>
    have space : ¬ maxTrustedPeers ≤ book.entries.length := Nat.not_le.mpr (room.resolve_left unknown)
    have last : List.find? (fun entry : Entry => decide (entry.peerId = other)) [⟨key, none, .unknown, none⟩] = none := by
      simp [different]
    simp only [find, makeRoom, if_neg space, List.find?_append, last, Option.or_none]

theorem address_change {book : PeerBook} {key : StaticKey} {f : Entry → Entry} (other : StaticKey)
    (room : book.knows key = true ∨ book.entries.length < maxTrustedPeers) :
    (book.change key f).address other =
      if key = other then (f ((book.find key).getD ⟨key, none, .unknown, none⟩)).addr else book.address other := by
  unfold address
  split
  · next same =>
    subst same
    rw [find_change_self]
    rfl
  · next different =>
    rw [change, find_update, find_entry_of_room different room]
    cases found : book.find other with
    | none => rfl
    | some entry =>
        have own : entry.peerId = other := by simpa [find] using List.find?_some found
        rw [Option.map_some, own, decide_eq_false (Ne.symm different), if_neg Bool.false_ne_true]

theorem address_change_same {book : PeerBook} {key : StaticKey} {f : Entry → Entry} (other : StaticKey)
    (room : book.knows key = true ∨ book.entries.length < maxTrustedPeers) (keeps : ∀ entry, (f entry).addr = entry.addr) :
    (book.change key f).address other = book.address other := by
  rw [address_change other room]
  split
  · next same =>
    subst same
    rw [keeps]
    cases found : book.find key with
    | none => simp [address, found]
    | some entry => simp [address, found]
  · rfl

theorem address_update {book : PeerBook} {which : Entry → Bool} {f : Entry → Entry} (key : StaticKey)
    (keeps : ∀ entry, (f entry).addr = entry.addr) : (book.update which f).address key = book.address key := by
  unfold address
  rw [find_update]
  cases book.find key with
  | none => rfl
  | some entry =>
      dsimp only [Option.map_some, Option.bind_some]
      split
      · exact keeps entry
      · rfl

theorem address_remove (book : PeerBook) (peer : TrustedPeer) (key : StaticKey) :
    (book.remove peer).address key = if peer.x25519PubKey = key then none else book.address key := by
  unfold address find remove
  rw [List.find?_filter]
  split
  · next same =>
    rw [Option.bind_eq_none_iff]
    intro entry found
    have both := List.find?_some found
    simp [same] at both
  · next different =>
    congr 2
    funext entry
    by_cases own : entry.peerId = key
    · simp [own, Ne.symm different]
    · simp [own]

theorem address_load {saved : SavedAddrs} (few : saved.addrs.length ≤ maxTrustedPeers) (key : StaticKey) :
    (load saved).address key = (saved.addrs.find? fun record => record.1 = key).map Prod.snd := by
  have entries : (load saved).entries = saved.addrs.map fun record => ⟨record.1, some record.2, .unknown, none⟩ :=
    congrArg (List.map fun record : SavedAddr => Entry.mk record.1 (some record.2) .unknown none) (List.take_of_length_le few)
  rw [address, find, entries, List.find?_map]
  show Option.bind (Option.map _ (saved.addrs.find? fun record => record.1 = key)) _ = _
  cases saved.addrs.find? fun record => record.1 = key with
  | none => rfl
  | some record => rfl

theorem within_update {book : PeerBook} {keys : Finset StaticKey} (within : book.Within keys) (which : Entry → Bool)
    (f : Entry → Entry) : (book.update which f).Within keys := by
  intro entry member
  obtain ⟨old, found, rfl⟩ := List.mem_map.mp member
  split
  · exact within old found
  · exact within old found

theorem within_entry {book : PeerBook} {keys : Finset StaticKey} (within : book.Within keys) {key : StaticKey}
    (member : key ∈ keys) : (book.entry key).Within keys := by
  unfold entry
  split
  · exact within
  · intro entry found
    rcases List.mem_append.mp found with old | new
    · exact within entry ((makeRoom_sublist book.entries).subset old)
    · rw [List.mem_singleton.mp new]
      exact member

theorem within_perform {book : PeerBook} {keys : Finset StaticKey} (within : book.Within keys) {call : Call}
    (inside : ∀ key ∈ call.op.keys, key ∈ keys) : (book.perform call).Within keys := by
  obtain ⟨op, now⟩ := call
  cases op with
  | seen peer addr => exact within_update (within_entry within (inside _ List.mem_cons_self)) _ _
  | dataOk peer => exact within_update (within_entry within (inside _ List.mem_cons_self)) _ _
  | setState peer state => exact within_update (within_entry within (inside _ List.mem_cons_self)) _ _
  | wrongPasswordAt ip weConnected => exact within_update within _ _
  | keysChanged => exact within_update within _ _
  | remove peer => exact fun entry found => within entry (List.mem_filter.mp found).1
  | clear => exact fun entry found => absurd found List.not_mem_nil
  | load saved =>
      intro entry found
      obtain ⟨record, listed, rfl⟩ := List.mem_map.mp found
      exact inside _ (List.mem_map_of_mem (List.mem_of_mem_take listed))

/-- An operation leaves the address it says, and otherwise the address that was. -/
theorem address_perform {book : PeerBook} {keys : Finset StaticKey} (within : book.Within keys)
    (few : keys.card ≤ maxTrustedPeers) {call : Call} (inside : ∀ key ∈ call.op.keys, key ∈ keys) (key : StaticKey) :
    (book.perform call).address key = (call.op.reports key).getD (book.address key) := by
  obtain ⟨op, now⟩ := call
  cases op with
  | seen peer addr =>
      show (book.change _ _).address key = _
      rw [address_change key (within.room few (inside _ List.mem_cons_self))]
      simp only [Op.reports]
      split
      · split
        · rfl
        · rfl
      · rfl
  | dataOk peer => exact address_change_same key (within.room few (inside _ List.mem_cons_self)) fun _ => rfl
  | setState peer state => exact address_change_same key (within.room few (inside _ List.mem_cons_self)) fun _ => rfl
  | wrongPasswordAt ip weConnected => exact address_update key fun _ => rfl
  | keysChanged => exact address_update key fun _ => rfl
  | remove peer =>
      show (book.remove peer).address key = _
      rw [address_remove]
      simp only [Op.reports]
      split
      · rfl
      · rfl
  | clear => rfl
  | load saved =>
      -- different devices out of a small set are few
      have listed : (saved.addrs.map Prod.fst).toFinset ⊆ keys := fun other member => inside other (List.mem_toFinset.mp member)
      have counted := Finset.card_le_card listed
      rw [List.toFinset_card_of_nodup saved.distinct, List.length_map] at counted
      exact address_load (counted.trans few) key

/-! ## Whole runs -/

theorem run_concat (book : PeerBook) (calls : List Call) (call : Call) :
    book.run (calls ++ [call]) = (book.run calls).perform call := by
  simp [run]

theorem within_run {keys : Finset StaticKey} {calls : List Call}
    (inside : ∀ call ∈ calls, ∀ key ∈ call.op.keys, key ∈ keys) : (empty.run calls).Within keys := by
  induction calls using List.reverseRecOn with
  | nil => exact fun entry found => absurd found List.not_mem_nil
  | append_singleton calls call ih =>
      rw [run_concat]
      have earlier := ih fun other member => inside other (List.mem_append_left _ member)
      exact within_perform earlier (inside call (by simp))

theorem latest_concat (calls : List Call) (call : Call) (key : StaticKey) :
    latest (calls ++ [call]) key = (call.op.reports key).getD (latest calls key) := by
  unfold latest
  rw [List.reverse_append, List.reverse_singleton, List.singleton_append, List.findSome?_cons]
  cases call.op.reports key with
  | none => rfl
  | some said => rfl

/-- Whatever is done to the book, it has few entries, of different devices. If the
devices are few, the address of each is the one that was last said. -/
theorem addresses_kept :
    (∀ calls : List Call, ((empty.run calls).entries.map Entry.peerId).Nodup ∧
      (empty.run calls).entries.length ≤ maxTrustedPeers) ∧
    ∀ (keys : Finset StaticKey) (calls : List Call), keys.card ≤ maxTrustedPeers →
      (∀ call ∈ calls, ∀ key ∈ call.op.keys, key ∈ keys) →
        ∀ key, (empty.run calls).address key = latest calls key := by
  refine ⟨fun calls => ⟨(empty.run calls).distinct, (empty.run calls).few⟩, ?_⟩
  intro keys calls few inside key
  induction calls using List.reverseRecOn with
  | nil => rfl
  | append_singleton calls call ih =>
      have before : ∀ other ∈ calls, ∀ key ∈ other.op.keys, key ∈ keys :=
        fun other member => inside other (List.mem_append_left _ member)
      rw [run_concat, latest_concat, ← ih before]
      exact address_perform (within_run before) few (inside call (by simp)) key

def movedAddr : SocketAddr := .v4 ⟨[192, 168, 1, 31], rfl⟩ 3232

/-- Seen, forgotten, seen elsewhere; then data goes through. -/
def forgottenOnce : List Call :=
  [⟨.seen tablet tabletAddr, 1⟩, ⟨.remove tablet, 2⟩, ⟨.seen tablet movedAddr, 3⟩, ⟨.dataOk tablet, 4⟩]

theorem addresses_kept_once :
    (empty.run forgottenOnce).address tablet.x25519PubKey = some movedAddr := by
  have inside : ∀ call ∈ forgottenOnce, ∀ key ∈ call.op.keys, key ∈ ({tablet.x25519PubKey} : Finset StaticKey) := by
    simp [forgottenOnce, Op.keys]
  rw [addresses_kept.2 {tablet.x25519PubKey} forgottenOnce (by decide) inside]
  rfl

end PeerBook

end CesaConn
