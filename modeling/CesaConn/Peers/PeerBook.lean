import CesaConn.Peers.TrustedPeers

/-! Where the paired devices were last seen and what connecting to them showed.

The book is bounded and has one entry for a device, whatever is done to it; the
structure carries both facts, so its saved form can always be read again.
-/

set_option autoImplicit false

namespace CesaConn

open Format

inductive PeerState where
  | unknown
  | ok
  | authPasswordDiffers
  | dataPasswordDiffers
  | unreachable
  deriving DecidableEq, Repr

/-- A moment of the daemon's monotonic clock, in nanoseconds. -/
abbrev Instant := Nat

def passwordRetry : Nat := 5 * 60 * 10 ^ 9

structure Entry where
  peerId : StaticKey
  addr : Option SocketAddr
  state : PeerState
  retryAfter : Option Instant
  deriving DecidableEq

structure PeerBook where
  entries : List Entry
  few : entries.length ≤ maxTrustedPeers
  distinct : (entries.map Entry.peerId).Nodup
  deriving DecidableEq

namespace PeerBook

def empty : PeerBook := ⟨[], by decide, List.nodup_nil⟩

def knows (book : PeerBook) (key : StaticKey) : Bool := book.entries.any fun entry => entry.peerId = key

/-- The oldest entry makes room in a full book. -/
def makeRoom (entries : List Entry) : List Entry :=
  if maxTrustedPeers ≤ entries.length then entries.tail else entries

theorem makeRoom_sublist (entries : List Entry) : (makeRoom entries).Sublist entries := by
  unfold makeRoom
  split
  · exact List.tail_sublist entries
  · exact .refl entries

theorem length_makeRoom_push (book : PeerBook) (entry : Entry) :
    (makeRoom book.entries ++ [entry]).length ≤ maxTrustedPeers := by
  have bound := book.few
  simp only [makeRoom, List.length_append, List.length_singleton]
  split
  · simp only [List.length_tail, maxTrustedPeers] at bound ⊢
    omega
  · omega

theorem nodup_makeRoom_push {book : PeerBook} {entry : Entry} (unknown : ¬ book.knows entry.peerId) :
    ((makeRoom book.entries ++ [entry]).map Entry.peerId).Nodup := by
  simp only [PeerBook.knows, List.any_eq_true, decide_eq_true_eq, not_exists, not_and] at unknown
  have left := makeRoom_sublist book.entries
  rw [List.map_append, List.nodup_append]
  refine ⟨book.distinct.sublist (left.map _), List.nodup_singleton _, ?_⟩
  simp only [List.map_cons, List.map_nil, List.mem_map, List.mem_singleton]
  rintro _ ⟨old, member, rfl⟩ _ rfl same
  exact unknown old (left.subset member) same

/-- The book with an entry of `key`, made empty if there is none. -/
def entry (book : PeerBook) (key : StaticKey) : PeerBook :=
  if known : book.knows key then book
  else ⟨makeRoom book.entries ++ [⟨key, none, .unknown, none⟩], length_makeRoom_push book _, nodup_makeRoom_push known⟩

/-- Changes what is known of the devices in `which`; an entry keeps its device. -/
def update (book : PeerBook) (which : Entry → Bool) (f : Entry → Entry) : PeerBook where
  entries := book.entries.map fun entry =>
    if which entry then { f entry with peerId := entry.peerId } else entry
  few := by simpa using book.few
  distinct := by
    have same : (Entry.peerId ∘ fun entry =>
        if which entry then { f entry with peerId := entry.peerId } else entry) = Entry.peerId := by
      funext entry
      dsimp only [Function.comp]
      split <;> rfl
    simpa [same] using book.distinct

/-- `entry` and a change of what it returned; a book has one entry of a key. -/
def change (book : PeerBook) (key : StaticKey) (f : Entry → Entry) : PeerBook :=
  (book.entry key).update (fun entry => entry.peerId = key) f

def seen (book : PeerBook) (peer : TrustedPeer) (addr : SocketAddr) : PeerBook :=
  book.change peer.x25519PubKey fun entry =>
    if entry.state ≠ .dataPasswordDiffers then { entry with addr := some addr, state := .ok, retryAfter := none }
    else { entry with addr := some addr }

def dataOk (book : PeerBook) (peer : TrustedPeer) : PeerBook :=
  book.change peer.x25519PubKey fun entry => { entry with state := .ok, retryAfter := none }

def ipOf : SocketAddr → Bytes
  | .v4 ip _ => ip.toList
  | .v6 ip _ _ _ => ip.toList

def wrongPasswordAt (book : PeerBook) (ip : Bytes) (weConnected : Bool) (now : Instant) : PeerBook :=
  book.update (fun entry => entry.addr.any fun addr => ipOf addr = ip) fun entry =>
    { entry with
      state := .authPasswordDiffers
      retryAfter := if weConnected then some (now + passwordRetry) else entry.retryAfter }

def setState (book : PeerBook) (peer : TrustedPeer) (state : PeerState) (now : Instant) : PeerBook :=
  let retryAfter := match state with
    | .authPasswordDiffers | .dataPasswordDiffers => some (now + passwordRetry)
    | .unknown | .ok | .unreachable => none
  book.change peer.x25519PubKey fun entry => { entry with state, retryAfter }

def state (book : PeerBook) (peer : TrustedPeer) : PeerState :=
  (book.entries.find? fun entry => entry.peerId = peer.x25519PubKey).elim .unknown Entry.state

def keysChanged (book : PeerBook) : PeerBook :=
  book.update (fun _ => true) fun entry =>
    { entry with
      state := if entry.state = .authPasswordDiffers ∨ entry.state = .dataPasswordDiffers then .unknown
        else entry.state
      retryAfter := none }

def remove (book : PeerBook) (peer : TrustedPeer) : PeerBook where
  entries := book.entries.filter fun entry => entry.peerId ≠ peer.x25519PubKey
  few := (List.length_filter_le _ _).trans book.few
  distinct := book.distinct.sublist (List.filter_sublist.map _)

def clear (_book : PeerBook) : PeerBook := empty

def targets (book : PeerBook) (peers : List TrustedPeer) (now : Instant) : List (TrustedPeer × SocketAddr) :=
  peers.filterMap fun peer => do
    let entry ← book.entries.find? fun entry => entry.peerId = peer.x25519PubKey
    let paused := entry.retryAfter.any fun after => now < after
    (entry.addr.filter fun _ => !paused).map fun addr => (peer, addr)

/-! ## The saved form of the addresses -/

def familyV4 : UInt8 := 4
def familyV6 : UInt8 := 6

abbrev SavedAddr := StaticKey × SocketAddr

def savedBytes : SavedAddr → Bytes
  | (key, .v4 ip port) => key.toList ++ (familyV4 :: (ip.toList ++ little 2 port.toNat))
  | (key, .v6 ip port _ _) => key.toList ++ (familyV6 :: (ip.toList ++ little 2 port.toNat))

def saved (book : PeerBook) (peers : List TrustedPeer) : List SavedAddr :=
  ((book.entries.filter fun entry => CesaConn.knows peers entry.peerId).filterMap fun entry =>
    entry.addr.map fun addr => (entry.peerId, addr)).take maxTrustedPeers

def encode (book : PeerBook) (peers : List TrustedPeer) : Bytes :=
  let saved := book.saved peers
  let count := if saved.length < 2 ^ 16 then saved.length else 0
  little 2 count ++ (saved.take count).flatMap savedBytes

def readAddr (bytes : Bytes) : Option (SavedAddr × Bytes) := do
  let (key, after) ← splitFirstChunk 32 bytes
  match after with
  | [] => none
  | family :: after =>
      if family = familyV4 then
        let (ip, after) ← splitFirstChunk 4 after
        let (port, after) ← readLE 2 after
        return ((key, .v4 ip (UInt16.ofNat port)), after)
      else if family = familyV6 then
        let (ip, after) ← splitFirstChunk 16 after
        let (port, after) ← readLE 2 after
        return ((key, .v6 ip (UInt16.ofNat port) 0 0), after)
      else none

def readAddrs (bytes : Bytes) : Option (List SavedAddr) := do
  let (count, rest) ← readLE 2 bytes
  if maxTrustedPeers < count then none
  else
    let (saved, rest) ← readDistinct readAddr Prod.fst count [] rest
    if rest = [] then return saved else none

/-- A saved address keeps no flow label and no scope. -/
def unscoped : SavedAddr → SavedAddr
  | (key, .v4 ip port) => (key, .v4 ip port)
  | (key, .v6 ip port _ _) => (key, .v6 ip port 0 0)

@[simp] theorem fst_unscoped (record : SavedAddr) : (unscoped record).1 = record.1 := by
  obtain ⟨key, _ | _⟩ := record <;> rfl

@[simp] theorem savedBytes_unscoped (record : SavedAddr) : savedBytes (unscoped record) = savedBytes record := by
  obtain ⟨key, _ | _⟩ := record <;> rfl

theorem readAddr_eq_some {bytes rest : Bytes} {record : SavedAddr} :
    readAddr bytes = some (record, rest) ↔ unscoped record = record ∧ bytes = savedBytes record ++ rest := by
  have port : ∀ {value : Nat}, value < 256 ^ 2 → (UInt16.ofNat value).toNat = value := fun fits => by
    rw [UInt16.toNat_ofNat', Nat.mod_eq_of_lt (by simpa using fits)]
  have read : ∀ (number : UInt16) (rest : Bytes), readLE 2 (little 2 number.toNat ++ rest) =
      some (number.toNat, rest) := fun number rest =>
    readLE_append 2 _ (number.toNat_lt.trans_le (by decide)) rest
  unfold readAddr
  simp only [Option.bind_eq_bind, Option.bind_eq_some_iff, Prod.exists, splitFirstChunk_eq_some]
  constructor
  · rintro ⟨key, after, rfl, found⟩
    cases after with
    | nil => cases found
    | cons family after =>
        dsimp only at found
        split at found
        · next same =>
          simp only [Option.bind_eq_some_iff, Prod.exists, splitFirstChunk_eq_some, readLE_eq_some] at found
          obtain ⟨ip, _, rfl, number, _, ⟨rfl, fits⟩, same'⟩ := found
          cases same'
          exact ⟨rfl, by simp [savedBytes, same, port fits]⟩
        · split at found
          · next same =>
            simp only [Option.bind_eq_some_iff, Prod.exists, splitFirstChunk_eq_some, readLE_eq_some] at found
            obtain ⟨ip, _, rfl, number, _, ⟨rfl, fits⟩, same'⟩ := found
            cases same'
            exact ⟨rfl, by simp [savedBytes, same, port fits]⟩
          · cases found
  · rintro ⟨plain, rfl⟩
    obtain ⟨key, addr⟩ := record
    cases addr with
    | v4 ip number =>
        refine ⟨key, familyV4 :: (ip.toList ++ (little 2 number.toNat ++ rest)), by simp [savedBytes], ?_⟩
        simp [read]
    | v6 ip number flowinfo scopeId =>
        cases plain
        refine ⟨key, familyV6 :: (ip.toList ++ (little 2 number.toNat ++ rest)), by simp [savedBytes], ?_⟩
        simp [read, familyV4, familyV6]

theorem saved_sublist (book : PeerBook) (peers : List TrustedPeer) :
    ((book.saved peers).map Prod.fst).Sublist (book.entries.map Entry.peerId) := by
  have keys : ∀ entries : List Entry, ((entries.filterMap fun entry =>
      entry.addr.map fun addr => (entry.peerId, addr)).map Prod.fst).Sublist (entries.map Entry.peerId) := by
    intro entries
    induction entries with
    | nil => exact .slnil
    | cons entry rest ih =>
        cases known : entry.addr with
        | none => simpa [known] using ih.cons entry.peerId
        | some addr => simpa [known] using ih.cons_cons entry.peerId
  exact ((List.take_sublist _ _).map _).trans ((keys _).trans (List.filter_sublist.map _))

theorem distinct_readAddrs {bytes : Bytes} {saved : List SavedAddr} (found : readAddrs bytes = some saved) :
    (saved.map Prod.fst).Nodup := by
  have empty : (([] : List SavedAddr).map Prod.fst).Nodup := List.nodup_nil
  simp only [readAddrs, Option.bind_eq_bind, Option.bind_eq_some_iff, Prod.exists,
    Option.ite_none_left_eq_some, Option.ite_none_right_eq_some,
    readDistinct_eq_some readAddr_eq_some empty] at found
  obtain ⟨_, _, _, _, _, _, ⟨_, _, _, _, distinct, _⟩, _, same⟩ := found
  cases same
  exact distinct

theorem readAddrs_encode (book : PeerBook) (peers : List TrustedPeer) :
    readAddrs (book.encode peers) = some ((book.saved peers).map unscoped) := by
  have few : (book.saved peers).length ≤ maxTrustedPeers := List.length_take_le _ _
  have distinct : (((book.saved peers).map unscoped).map Prod.fst).Nodup := by
    have keys := book.distinct.sublist (book.saved_sublist peers)
    simpa [Function.comp_def] using keys
  have small : (book.saved peers).length < 2 ^ 16 := few.trans_lt (by decide)
  have written : book.encode peers =
      little 2 (book.saved peers).length ++ ((book.saved peers).map unscoped).flatMap savedBytes := by
    simp only [encode, if_pos small, List.take_length, List.flatMap_map,
      savedBytes_unscoped]
  have empty : (([] : List SavedAddr).map Prod.fst).Nodup := List.nodup_nil
  have plain : ∀ record ∈ (book.saved peers).map unscoped, unscoped record = record := by
    simp only [List.mem_map, forall_exists_index, and_imp, forall_apply_eq_imp_iff₂]
    rintro ⟨key, _ | _⟩ _ <;> rfl
  have read : readDistinct readAddr Prod.fst (book.saved peers).length []
      (((book.saved peers).map unscoped).flatMap savedBytes) = some ((book.saved peers).map unscoped, []) :=
    (readDistinct_eq_some readAddr_eq_some empty).mpr
      ⟨_, rfl, List.length_map _, plain, distinct, (List.append_nil _).symm⟩
  simp only [readAddrs, written, readLE_append 2 _ (by simpa using small), Option.bind_eq_bind,
    Option.bind_some, if_neg (Nat.not_lt.mpr few), read, ↓reduceIte]
  rfl

theorem length_encode_le (book : PeerBook) (peers : List TrustedPeer) :
    (book.encode peers).length ≤ 2 + (book.saved peers).length * 51 := by
  have few : (book.saved peers).length ≤ maxTrustedPeers := List.length_take_le _ _
  have short : ∀ record ∈ book.saved peers, (savedBytes record).length ≤ 51 := by
    intro record _
    obtain ⟨key, addr⟩ := record
    cases addr <;> simp [savedBytes]
  have small : (book.saved peers).length < 2 ^ 16 := few.trans_lt (by decide)
  simp only [encode, if_pos small, List.take_length, List.length_append, length_little]
  exact Nat.add_le_add_left (length_flatMap_le short) 2

theorem length_encode (book : PeerBook) (peers : List TrustedPeer) :
    (book.encode peers).length ≤ 2 + maxTrustedPeers * 51 := by
  have few : (book.saved peers).length ≤ maxTrustedPeers := List.length_take_le _ _
  exact (book.length_encode_le peers).trans (Nat.add_le_add_left (Nat.mul_le_mul_right 51 few) 2)

structure SavedAddrs where
  addrs : List SavedAddr
  distinct : (addrs.map Prod.fst).Nodup

def SavedAddrs.empty : SavedAddrs := ⟨[], List.nodup_nil⟩

def decode (bytes : Bytes) : Option SavedAddrs :=
  match found : readAddrs bytes with
  | some addrs => some ⟨addrs, distinct_readAddrs found⟩
  | none => none

theorem decode_encode (book : PeerBook) (peers : List TrustedPeer) :
    ∃ saved, decode (book.encode peers) = some saved := by
  unfold decode
  split
  · exact ⟨_, rfl⟩
  · next missing =>
    rw [readAddrs_encode] at missing
    cases missing

def load (saved : SavedAddrs) : PeerBook where
  entries := (saved.addrs.take maxTrustedPeers).map fun (key, addr) => ⟨key, some addr, .unknown, none⟩
  few := by simp [List.length_take]
  distinct := by
    have keys := saved.distinct.sublist ((List.take_sublist maxTrustedPeers saved.addrs).map Prod.fst)
    simpa [Function.comp_def] using keys

end PeerBook

end CesaConn
