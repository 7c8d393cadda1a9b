import CesaConn.Daemon.State

/-! The saved settings, and with them the addresses of the paired devices.

Both decoders accept what the encoders make and nothing else, older vaults apart, so a
saved entry that is damaged refuses the unlock and a whole one is never changed by it.
-/

set_option autoImplicit false

namespace CesaConn

open Format

namespace PeerBook

def trustedAddr (peers : List TrustedPeer) (entry : Entry) : Option SavedAddr :=
  if CesaConn.knows peers entry.peerId then entry.addr.map fun addr => unscoped (entry.peerId, addr) else none

/-- The bound on the saved form leaves out no entry of a book. -/
theorem map_unscoped_saved (book : PeerBook) (peers : List TrustedPeer) :
    (book.saved peers).map unscoped = book.entries.filterMap (trustedAddr peers) := by
  have whole : ((book.entries.filter fun entry => CesaConn.knows peers entry.peerId).filterMap fun entry =>
      entry.addr.map fun addr => (entry.peerId, addr)).length ≤ maxTrustedPeers :=
    (List.length_filterMap_le _ _).trans ((List.length_filter_le _ _).trans book.few)
  rw [saved, List.take_of_length_le whole, List.map_filterMap, List.filterMap_filter]
  apply List.filterMap_congr
  intro entry _
  rw [trustedAddr]
  split
  · rw [Option.map_map]
    rfl
  · rfl

theorem readAddrs_eq_some {bytes : Bytes} {records : List SavedAddr} :
    readAddrs bytes = some records ↔
      records.length ≤ maxTrustedPeers ∧ (records.map Prod.fst).Nodup ∧ (∀ record ∈ records, unscoped record = record) ∧
        bytes = little 2 records.length ++ records.flatMap savedBytes := by
  have empty : (([] : List SavedAddr).map Prod.fst).Nodup := List.nodup_nil
  unfold readAddrs
  simp only [Option.bind_eq_bind, Option.bind_eq_some_iff, Prod.exists, readLE_eq_some, Option.ite_none_left_eq_some,
    Option.ite_none_right_eq_some, readDistinct_eq_some readAddr_eq_some empty]
  constructor
  · rintro ⟨count, _, ⟨shape, fits⟩, few, _, _, ⟨more, same, size, plain, distinct, left⟩, ends, found⟩
    cases found
    rw [List.nil_append] at same
    subst same size
    refine ⟨Nat.le_of_not_lt few, distinct, plain, ?_⟩
    rw [shape, left, ends, List.append_nil]
  · rintro ⟨few, distinct, plain, shape⟩
    exact ⟨records.length, _, ⟨shape, few.trans_lt (by decide)⟩, Nat.not_lt.mpr few, records, [],
      ⟨records, rfl, rfl, plain, distinct, (List.append_nil _).symm⟩, rfl, rfl⟩

theorem decode_eq_some {bytes : Bytes} {saved : SavedAddrs} :
    decode bytes = some saved ↔ readAddrs bytes = some saved.addrs := by
  unfold decode
  constructor
  · intro found
    split at found
    · next read =>
      cases found
      exact read
    · cases found
  · intro read
    split
    · next other =>
      rw [read] at other
      cases other
      rfl
    · next missing =>
      rw [read] at missing
      cases missing

/-- A book loaded from decoded addresses is written as the bytes they were decoded from. -/
theorem encode_load {bytes : Bytes} {saved : SavedAddrs} {peers : List TrustedPeer} (read : decode bytes = some saved)
    (trusted : ∀ record ∈ saved.addrs, CesaConn.knows peers record.1 = true) : (load saved).encode peers = bytes := by
  obtain ⟨few, _, _, shape⟩ := readAddrs_eq_some.mp (decode_eq_some.mp read)
  have loaded : (load saved).entries = saved.addrs.map fun record => ⟨record.1, some record.2, .unknown, none⟩ := by
    show (saved.addrs.take maxTrustedPeers).map _ = _
    rw [List.take_of_length_le few]
  -- neither the filter nor the bound leaves out anything that was decoded
  have known : (load saved).entries.filter (fun entry => CesaConn.knows peers entry.peerId) = (load saved).entries := by
    rw [List.filter_eq_self, loaded]
    intro entry member
    obtain ⟨record, own, rfl⟩ := List.mem_map.mp member
    exact trusted record own
  have kept : (load saved).saved peers = saved.addrs := by
    rw [PeerBook.saved, known, loaded, List.filterMap_map]
    calc (saved.addrs.filterMap some).take maxTrustedPeers
        = saved.addrs.take maxTrustedPeers := by rw [List.filterMap_some]
      _ = saved.addrs := List.take_of_length_le few
  have small : saved.addrs.length < 2 ^ 16 := few.trans_lt (by decide)
  simp only [encode, kept, if_pos small, List.take_length]
  exact shape.symm

theorem mem_trustedAddr {entries : List Entry} {peers : List TrustedPeer} {record : SavedAddr}
    (member : record ∈ entries.filterMap (trustedAddr peers)) : CesaConn.knows peers record.1 = true := by
  obtain ⟨entry, _, found⟩ := List.mem_filterMap.mp member
  rw [trustedAddr] at found
  split at found
  · next known =>
    obtain ⟨addr, _, rfl⟩ := Option.map_eq_some_iff.mp found
    rwa [fst_unscoped]
  · cases found

end PeerBook

namespace Daemon

theorem flags_known (flags : UInt8) : flags &&& ~~~(configSync ||| configClipboard) = 0 →
    Config.flags ⟨flags &&& configSync ≠ 0, flags &&& configClipboard ≠ 0⟩ = flags := by
  obtain ⟨bits⟩ := flags
  revert bits
  decide +kernel

theorem Config.decode_current {rest : Bytes} {config : Config} {saved : PeerBook.SavedAddrs}
    (read : Config.decode (configVersion :: rest) = some (config, saved)) :
    ∃ addresses, rest = config.flags :: addresses ∧ PeerBook.decode addresses = some saved := by
  cases rest with
  | nil => cases read
  | cons flags addresses =>
      have newer : configVersion ≠ configVersion1 := by decide
      simp only [Config.decode, newer, false_and, if_false, true_and, Option.ite_none_right_eq_some,
        Option.map_eq_some_iff, Prod.mk.injEq] at read
      obtain ⟨known, _, found, rfl, rfl⟩ := read
      exact ⟨addresses, by rw [flags_known flags known], found⟩

/-- What is left of the formats before: nothing, or the one switch there was. -/
theorem Config.decode_older {bytes : Bytes} (older : bytes.head? ≠ some configVersion)
    (found : Config × PeerBook.SavedAddrs) :
    Config.decode bytes = some found ↔
      bytes = [] ∧ found = ({}, .empty) ∨
      ∃ flags, bytes = [configVersion1, flags] ∧ flags &&& ~~~configSync = 0 ∧
        found = ({ sync := flags &&& configSync ≠ 0 }, .empty) := by
  rcases bytes with _ | ⟨version, _ | ⟨flags, addresses⟩⟩
  · constructor
    · intro read
      exact .inl ⟨rfl, (Option.some.inj read).symm⟩
    · rintro (⟨_, same⟩ | ⟨flags, shape, _⟩)
      · exact congrArg some same.symm
      · cases shape
  · constructor
    · intro read
      cases read
    · rintro (⟨empty, _⟩ | ⟨flags, shape, _⟩)
      · cases empty
      · cases shape
  -- two bytes or more: only the first version is left, and it ends here
  · have other : version ≠ configVersion := fun same => older (by rw [same]; rfl)
    simp only [Config.decode, other, false_and, if_false, Option.ite_none_right_eq_some]
    constructor
    · rintro ⟨⟨first, ends, known⟩, same⟩
      cases same
      rw [first, ends]
      exact .inr ⟨flags, rfl, known, rfl⟩
    · rintro (⟨empty, _⟩ | ⟨others, shape, known, same⟩)
      · cases empty
      · cases shape
        exact ⟨⟨rfl, rfl, known⟩, congrArg some same.symm⟩

/-- What is saved is read back as the settings and, in the order of the book, the addresses
of trusted devices, and saved again as the same bytes. Of the present version nothing else
is read, of older ones nothing and one switch. -/
theorem settings_codec_exact :
    (∀ (config : Config) (book : PeerBook) (peers : List TrustedPeer),
      ∃ saved, Config.decode (config.encode (book.encode peers)) = some (config, saved) ∧
        saved.addrs = book.entries.filterMap (PeerBook.trustedAddr peers) ∧
        (PeerBook.load saved).encode peers = book.encode peers) ∧
    (∀ (bytes : Bytes) (config : Config) (saved : PeerBook.SavedAddrs), bytes.head? = some configVersion →
      Config.decode bytes = some (config, saved) → ∀ peers, (∀ record ∈ saved.addrs, knows peers record.1 = true) →
      config.encode ((PeerBook.load saved).encode peers) = bytes) ∧
    ∀ bytes : Bytes, bytes.head? ≠ some configVersion → ∀ found, Config.decode bytes = some found ↔
      bytes = [] ∧ found = ({}, .empty) ∨
      ∃ flags, bytes = [configVersion1, flags] ∧ flags &&& ~~~configSync = 0 ∧
        found = ({ sync := flags &&& configSync ≠ 0 }, .empty) := by
  refine ⟨?_, ?_, fun bytes older found => Config.decode_older older found⟩
  · intro config book peers
    obtain ⟨saved, read⟩ := book.decode_encode peers
    have kept : saved.addrs = book.entries.filterMap (PeerBook.trustedAddr peers) := by
      have found := PeerBook.decode_eq_some.mp read
      rw [PeerBook.readAddrs_encode, PeerBook.map_unscoped_saved] at found
      exact (Option.some.inj found).symm
    refine ⟨saved, config.decode_encode read, kept, PeerBook.encode_load read ?_⟩
    intro record member
    rw [kept] at member
    exact PeerBook.mem_trustedAddr member
  · intro bytes config saved first read peers trusted
    obtain ⟨rest, rfl⟩ := List.head?_eq_some_iff.mp first
    obtain ⟨addresses, rfl, found⟩ := Config.decode_current read
    rw [PeerBook.encode_load found trusted, Config.encode]

end Daemon

end CesaConn
