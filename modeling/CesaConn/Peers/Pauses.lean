import CesaConn.Peers.PeerBook
import Mathlib.Data.List.Forall2

/-! Runs of the peer book: who is paused, and for how long.

Anyone can connect from an address and fail on purpose. What such a call does to
the book is compared with the book it was not made on: entry by entry the
devices and their addresses are the same, and a pause can only be missing. A
missing pause is what a data password that differs loses that way.
-/

set_option autoImplicit false

namespace CesaConn

open Format

structure Entry.Eased (plain eased : Entry) : Prop where
  peerId : eased.peerId = plain.peerId
  addr : eased.addr = plain.addr
  pause : eased.retryAfter = none ∨ eased.retryAfter = plain.retryAfter
  -- `seen` ends a pause unless the state is this one
  state : eased.state = .dataPasswordDiffers → plain.state = .dataPasswordDiffers

theorem Entry.Eased.refl (entry : Entry) : Entry.Eased entry entry := ⟨rfl, rfl, .inr rfl, id⟩

namespace PeerBook

inductive Op where
  | seen (peer : TrustedPeer) (addr : SocketAddr)
  | dataOk (peer : TrustedPeer)
  | wrongPasswordAt (ip : Bytes) (weConnected : Bool)
  | setState (peer : TrustedPeer) (state : PeerState)
  | keysChanged
  | remove (peer : TrustedPeer)
  | clear
  | load (saved : SavedAddrs)

structure Call where
  op : Op
  now : Instant

def perform (book : PeerBook) (call : Call) : PeerBook :=
  match call.op with
  | .seen peer addr => book.seen peer addr
  | .dataOk peer => book.dataOk peer
  | .wrongPasswordAt ip weConnected => book.wrongPasswordAt ip weConnected call.now
  | .setState peer state => book.setState peer state call.now
  | .keysChanged => book.keysChanged
  | .remove peer => book.remove peer
  | .clear => book.clear
  | .load saved => .load saved

def run (book : PeerBook) (calls : List Call) : PeerBook := calls.foldl perform book

/-! ## The entry of one device -/

def find (book : PeerBook) (key : StaticKey) : Option Entry := book.entries.find? fun entry => entry.peerId = key

theorem knows_eq (book : PeerBook) (key : StaticKey) : book.knows key = (book.find key).isSome := by
  rw [find, List.isSome_find?, knows]

theorem state_eq (book : PeerBook) (peer : TrustedPeer) :
    book.state peer = (book.find peer.x25519PubKey).elim .unknown Entry.state := rfl

theorem mem_targets {book : PeerBook} {peers : List TrustedPeer} {now : Instant} {peer : TrustedPeer} {addr : SocketAddr} :
    (peer, addr) ∈ book.targets peers now ↔ peer ∈ peers ∧ ∃ entry, book.find peer.x25519PubKey = some entry ∧
      entry.addr = some addr ∧ ∀ after, entry.retryAfter = some after → after ≤ now := by
  have free : ∀ retry : Option Instant, (retry.any fun after => now < after) = false ↔
      ∀ after, retry = some after → after ≤ now := by
    intro retry
    cases retry with
    | none => simp
    | some after => simp
  simp only [targets, find, List.mem_filterMap, Option.bind_eq_bind, Option.bind_eq_some_iff, Option.map_eq_some_iff,
    Option.filter_eq_some_iff, Bool.not_eq_true', Prod.mk.injEq, free]
  constructor
  · intro ⟨_, listed, entry, found, _, known, rfl, rfl⟩
    exact ⟨listed, entry, found, known⟩
  · intro ⟨listed, entry, found, known⟩
    exact ⟨peer, listed, entry, found, addr, known, rfl, rfl⟩

theorem find_update (book : PeerBook) (which : Entry → Bool) (f : Entry → Entry) (key : StaticKey) :
    (book.update which f).find key = (book.find key).map fun entry =>
      if which entry then { f entry with peerId := entry.peerId } else entry := by
  unfold find update
  rw [List.find?_map]
  congr 2
  funext entry
  dsimp only [Function.comp]
  split
  · rfl
  · rfl

theorem find_entry_self (book : PeerBook) (key : StaticKey) :
    (book.entry key).find key = some ((book.find key).getD ⟨key, none, .unknown, none⟩) := by
  unfold entry
  split
  · next known =>
    rw [knows_eq] at known
    obtain ⟨entry, found⟩ := Option.isSome_iff_exists.mp known
    rw [found]
    rfl
  · next unknown =>
    rw [knows_eq, Option.not_isSome_iff_eq_none] at unknown
    have missing : (makeRoom book.entries).find? (fun entry => entry.peerId = key) = none := by
      rw [find, List.find?_eq_none] at unknown
      rw [List.find?_eq_none]
      exact fun entry member => unknown entry ((makeRoom_sublist book.entries).subset member)
    simp [find, List.find?_append, missing, show book.entries.find? (fun entry => entry.peerId = key) = none from unknown]

/-- Making an entry leaves that of another device alone, unless the full book
forgets just that device. -/
theorem find_entry_other {book : PeerBook} {key other : StaticKey} (different : key ≠ other)
    (kept : (book.entry key).knows other = true) : (book.entry key).find other = book.find other := by
  unfold entry at kept ⊢
  split
  · rfl
  · next unknown =>
    rw [dif_neg unknown, knows_eq] at kept
    simp only [find, List.find?_append] at kept ⊢
    have last : List.find? (fun entry : Entry => decide (entry.peerId = other)) [⟨key, none, .unknown, none⟩] = none := by
      simp [different]
    rw [last, Option.or_none] at kept ⊢
    unfold makeRoom at kept ⊢
    split
    · next full =>
      rw [if_pos full] at kept
      have distinct := book.distinct
      cases shape : book.entries with
      | nil => rfl
      | cons oldest rest =>
          simp only [shape, List.tail_cons, List.map_cons, List.nodup_cons] at kept distinct ⊢
          have own : oldest.peerId ≠ other := by
            intro same
            obtain ⟨entry, member, found⟩ : ∃ entry ∈ rest, entry.peerId = other := by simpa using kept
            exact distinct.1 (List.mem_map.mpr ⟨entry, member, found.trans same.symm⟩)
          rw [List.find?_cons, decide_eq_false own]
    · rfl

theorem knows_update (book : PeerBook) (which : Entry → Bool) (f : Entry → Entry) (key : StaticKey) :
    (book.update which f).knows key = book.knows key := by
  rw [knows_eq, find_update, Option.isSome_map, knows_eq]

theorem find_change_self (book : PeerBook) (key : StaticKey) (f : Entry → Entry) :
    (book.change key f).find key =
      some { f ((book.find key).getD ⟨key, none, .unknown, none⟩) with peerId := key } := by
  have own : ((book.find key).getD ⟨key, none, .unknown, none⟩).peerId = key := by
    cases found : book.find key with
    | none => rfl
    | some entry => simpa [find] using List.find?_some found
  rw [change, find_update, find_entry_self, Option.map_some, own, decide_eq_true rfl, if_pos rfl]

theorem find_change_other {book : PeerBook} {key other : StaticKey} {f : Entry → Entry} (different : key ≠ other)
    (kept : (book.change key f).knows other = true) : (book.change key f).find other = book.find other := by
  rw [change, knows_update] at kept
  rw [change, find_update, find_entry_other different kept]
  cases found : book.find other with
  | none => rfl
  | some entry =>
      have own : entry.peerId = other := by simpa [find] using List.find?_some found
      rw [Option.map_some, own, decide_eq_false (Ne.symm different), if_neg Bool.false_ne_true]

/-! ## Books that differ by incoming failures -/

def Eases (plain eased : PeerBook) : Prop := List.Forall₂ Entry.Eased plain.entries eased.entries

theorem Eases.refl (book : PeerBook) : Eases book book := List.forall₂_same.mpr fun entry _ => .refl entry

section Simulation

variable {plain eased : PeerBook}

theorem find?_eased {first second : List Entry} (alike : List.Forall₂ Entry.Eased first second) (key : StaticKey) :
    Option.Rel Entry.Eased (first.find? fun entry => entry.peerId = key) (second.find? fun entry => entry.peerId = key) := by
  induction alike with
  | nil => exact .none
  | @cons a b _ _ head _ ih =>
      simp only [List.find?_cons, head.peerId]
      cases decide (a.peerId = key) with
      | false => exact ih
      | true => exact .some head

theorem Eases.knows (eases : Eases plain eased) (key : StaticKey) : eased.knows key = plain.knows key := by
  have alike := find?_eased eases key
  simp only [PeerBook.knows, ← List.isSome_find?]
  generalize plain.entries.find? _ = first at alike
  generalize eased.entries.find? _ = second at alike
  cases alike with
  | none => rfl
  | some => rfl

/-- A change that treats both entries alike keeps the books alike. -/
theorem Eases.update (eases : Eases plain eased) {which : Entry → Bool} {f : Entry → Entry}
    (same : ∀ {a b : Entry}, Entry.Eased a b → which b = which a)
    (alike : ∀ {a b : Entry}, Entry.Eased a b → Entry.Eased { f a with peerId := a.peerId } { f b with peerId := b.peerId }) :
    Eases (plain.update which f) (eased.update which f) := by
  unfold Eases PeerBook.update
  simp only [List.forall₂_map_left_iff, List.forall₂_map_right_iff]
  refine List.Forall₂.imp (fun a b related => ?_) eases
  rw [same related]
  split
  · exact alike related
  · exact related

theorem Eases.entry (eases : Eases plain eased) (key : StaticKey) : Eases (plain.entry key) (eased.entry key) := by
  have length := List.Forall₂.length_eq eases
  have known := eases.knows key
  unfold PeerBook.entry
  by_cases old : plain.knows key = true
  · rw [dif_pos old, dif_pos (known.trans old)]
    exact eases
  · rw [dif_neg old, dif_neg (known ▸ old)]
    apply List.rel_append
    · simp only [makeRoom, ← length]
      split
      · simpa only [List.drop_one] using List.forall₂_drop 1 eases
      · exact eases
    · exact .cons (.refl _) .nil

theorem Eases.change (eases : Eases plain eased) (key : StaticKey) {f : Entry → Entry}
    (alike : ∀ {a b : Entry}, Entry.Eased a b → Entry.Eased { f a with peerId := a.peerId } { f b with peerId := b.peerId }) :
    Eases (plain.change key f) (eased.change key f) := by
  apply (eases.entry key).update
  · intro a b related
    rw [related.peerId]
  · exact alike

theorem Eases.perform (eases : Eases plain eased) (call : Call) : Eases (plain.perform call) (eased.perform call) := by
  obtain ⟨op, now⟩ := call
  cases op with
  | seen peer addr =>
      apply eases.change
      intro a b related
      -- a state that keeps the pause of the second entry keeps that of the first
      by_cases held : b.state = .dataPasswordDiffers
      · have same := related.state held
        simp only [held, same, ne_eq, not_true_eq_false, ↓reduceIte]
        exact ⟨related.peerId, rfl, related.pause, fun _ => rfl⟩
      · simp only [ne_eq, held, not_false_eq_true, ↓reduceIte]
        exact ⟨related.peerId, by split <;> rfl, .inl rfl, fun other => by cases other⟩
  | dataOk peer =>
      apply eases.change
      intro a b related
      exact ⟨related.peerId, related.addr, .inl rfl, fun other => by cases other⟩
  | wrongPasswordAt ip weConnected =>
      apply eases.update
      · intro a b related
        rw [related.addr]
      · intro a b related
        -- only a report of our own connection pauses, and it pauses both
        refine ⟨related.peerId, related.addr, ?_, fun other => by cases other⟩
        cases weConnected with
        | false => exact related.pause
        | true => exact .inr rfl
  | setState peer state =>
      apply eases.change
      intro a b related
      exact ⟨related.peerId, related.addr, .inr rfl, id⟩
  | keysChanged =>
      apply eases.update
      · intro a b related
        rfl
      · intro a b related
        -- cleared entries are not paused; a state that is left is no wrong password
        refine ⟨related.peerId, related.addr, .inl rfl, ?_⟩
        intro other
        dsimp only at other
        split at other
        · cases other
        · next wrong => exact absurd (.inr other) wrong
  | remove peer =>
      apply List.rel_filter (fun a b related => ?_) eases
      simp only [related.peerId]
  | clear => exact .refl _
  | load saved => exact .refl _

theorem Eases.targets (eases : Eases plain eased) {peers : List TrustedPeer} {now : Instant} {peer : TrustedPeer}
    {addr : SocketAddr} (member : (peer, addr) ∈ plain.targets peers now) : (peer, addr) ∈ eased.targets peers now := by
  obtain ⟨listed, entry, found, known, free⟩ := mem_targets.mp member
  have alike := find?_eased eases peer.x25519PubKey
  rw [show plain.entries.find? _ = some entry from found] at alike
  generalize second : List.find? _ eased.entries = found' at alike
  cases alike with
  | some related =>
      refine mem_targets.mpr ⟨listed, _, second, related.addr.trans known, ?_⟩
      intro after paused
      rcases related.pause with none | same
      · rw [none] at paused
        cases paused
      · exact free after (same ▸ paused)

/-- A failed connection to us, on the second book only. -/
theorem Eases.insert (eases : Eases plain eased) (ip : Bytes) (now : Instant) :
    Eases plain (eased.wrongPasswordAt ip false now) := by
  unfold Eases PeerBook.wrongPasswordAt PeerBook.update
  simp only [List.forall₂_map_right_iff]
  refine List.Forall₂.imp (fun a b related => ?_) eases
  split
  · exact ⟨related.peerId, related.addr, related.pause, fun other => by cases other⟩
  · exact related

end Simulation

/-- The second list is the first with failed connections to us put in. -/
inductive Inserted : List Call → List Call → Prop where
  | nil : Inserted [] []
  | keep {calls more : List Call} (call : Call) : Inserted calls more → Inserted (call :: calls) (call :: more)
  | insert {calls more : List Call} (ip : Bytes) (now : Instant) :
      Inserted calls more → Inserted calls (⟨.wrongPasswordAt ip false, now⟩ :: more)

theorem Inserted.eases {calls more : List Call} (inserted : Inserted calls more) {plain eased : PeerBook}
    (eases : Eases plain eased) : Eases (plain.run calls) (eased.run more) := by
  induction inserted generalizing plain eased with
  | nil => exact eases
  | keep call _ ih => exact ih (eases.perform call)
  | insert ip now _ ih => exact ih (eases.insert ip now)

/-- Failed connections to us never take a device from the targets, and change
neither whom the book holds nor where. -/
theorem incoming_failures_keep_targets (book : PeerBook) {calls more : List Call} (inserted : Inserted calls more) :
    (book.run more).entries.map (fun entry => (entry.peerId, entry.addr)) =
        (book.run calls).entries.map (fun entry => (entry.peerId, entry.addr)) ∧
      ∀ (peers : List TrustedPeer) (now : Instant), ∀ target ∈ (book.run calls).targets peers now,
        target ∈ (book.run more).targets peers now := by
  have eases := inserted.eases (.refl book)
  refine ⟨?_, fun peers now ⟨peer, addr⟩ member => eases.targets member⟩
  have same : List.Forall₂ (· = ·) ((book.run calls).entries.map fun entry => (entry.peerId, entry.addr))
      ((book.run more).entries.map fun entry => (entry.peerId, entry.addr)) := by
    simp only [List.forall₂_map_left_iff, List.forall₂_map_right_iff]
    exact List.Forall₂.imp (fun a b related => by rw [related.peerId, related.addr]) eases
  rw [List.forall₂_eq_eq_eq] at same
  exact same.symm

def tablet : TrustedPeer := ⟨.replicate 32 7, .replicate mldsa87VkLen 0, "tablet"⟩

def tabletAddr : SocketAddr := .v4 ⟨[192, 168, 1, 30], rfl⟩ 3232

/-- A device stays a target though someone failed at its address. -/
theorem incoming_failures_keep_targets_once :
    (tablet, tabletAddr) ∈ (empty.run [⟨.seen tablet tabletAddr, 1⟩]).targets [tablet] 3 ∧
    (tablet, tabletAddr) ∈ (empty.run [⟨.seen tablet tabletAddr, 1⟩,
      ⟨.wrongPasswordAt (ipOf tabletAddr) false, 2⟩]).targets [tablet] 3 := by
  have before : (tablet, tabletAddr) ∈ (empty.run [⟨.seen tablet tabletAddr, 1⟩]).targets [tablet] 3 :=
    List.mem_cons_self
  exact ⟨before, (incoming_failures_keep_targets empty (.keep _ (.insert _ 2 .nil))).2 _ _ _ before⟩

/-! ## A data password that differs -/

def Call.Contact (call : Call) : Prop :=
  (∃ peer addr, call.op = .seen peer addr) ∨ ∃ ip weConnected, call.op = .wrongPasswordAt ip weConnected

def Call.Sees (call : Call) (key : StaticKey) : Prop :=
  ∃ peer addr, call.op = .seen peer addr ∧ peer.x25519PubKey = key

def Throughout (holds : PeerBook → Prop) (book : PeerBook) : List Call → Prop
  | [] => holds book
  | call :: rest => holds book ∧ Throughout holds (book.perform call) rest

/-- The device is in no targets before `until`, and is not shown as fine. -/
def Paused (peer : TrustedPeer) (last : Instant) (book : PeerBook) : Prop :=
  book.state peer ≠ .ok ∧ ∀ (peers : List TrustedPeer) (now : Instant), now < last →
    ∀ target ∈ book.targets peers now, target.1.x25519PubKey ≠ peer.x25519PubKey

/-- A failure at the address where the device was last seen comes before it is
seen again. -/
def Overwritten (key : StaticKey) : Option SocketAddr → List Call → Prop
  | _, [] => False
  | addr, call :: rest =>
      match call.op with
      | .seen peer new => Overwritten key (if peer.x25519PubKey = key then some new else addr) rest
      | .wrongPasswordAt ip _ =>
          if addr.any fun addr => ipOf addr = ip then ∃ later ∈ rest, later.Sees key else Overwritten key addr rest
      | _ => Overwritten key addr rest

def Call.effect (call : Call) (key : StaticKey) (entry : Entry) : Entry :=
  match call.op with
  | .seen peer addr =>
      if peer.x25519PubKey = key then
        if entry.state ≠ .dataPasswordDiffers then { entry with addr := some addr, state := .ok, retryAfter := none }
        else { entry with addr := some addr }
      else entry
  | .wrongPasswordAt ip weConnected =>
      if entry.addr.any fun addr => ipOf addr = ip then
        { entry with
          state := .authPasswordDiffers
          retryAfter := if weConnected then some (call.now + passwordRetry) else entry.retryAfter }
      else entry
  | _ => entry

theorem find_perform {book : PeerBook} {call : Call} {key : StaticKey} {entry : Entry} (contact : call.Contact)
    (found : book.find key = some entry) (kept : (book.perform call).knows key = true) :
    (book.perform call).find key = some (call.effect key entry) := by
  have own : entry.peerId = key := by simpa [find] using List.find?_some found
  obtain ⟨op, now⟩ := call
  rcases contact with ⟨peer, addr, same⟩ | ⟨ip, weConnected, same⟩
  · cases same
    simp only [perform, seen, Call.effect] at kept ⊢
    split
    · next same =>
      rw [same, find_change_self, found, Option.getD_some]
      subst own
      split
      · rfl
      · rfl
    · next different => rw [find_change_other different kept, found]
  · cases same
    simp only [perform, wrongPasswordAt, Call.effect]
    rw [find_update, found, Option.map_some]

section DataPause

variable {peer : TrustedPeer} {last : Instant} {book : PeerBook} {entry : Entry}

theorem paused_of_find (found : book.find peer.x25519PubKey = some entry) (state : entry.state ≠ .ok)
    (pause : ∃ after, entry.retryAfter = some after ∧ last ≤ after) : Paused peer last book := by
  refine ⟨by rw [state_eq, found]; exact state, ?_⟩
  intro peers now early ⟨other, addr⟩ member same
  obtain ⟨-, entry', found', -, free⟩ := mem_targets.mp member
  obtain ⟨after, paused, le⟩ := pause
  have again : book.find peer.x25519PubKey = some entry' := same ▸ found'
  cases found.symm.trans again
  exact Nat.not_le.mpr (early.trans_le le) (free after paused)

theorem Throughout.start {holds : PeerBook → Prop} {calls : List Call} (always : Throughout holds book calls) :
    holds book := by
  cases calls with
  | nil => exact always
  | cons call rest => exact always.1

/-- The pause lasts, and the state is the first one, not overwritten by the
calls to come, or was overwritten and the device is not seen again. -/
def Held (key : StaticKey) (last : Instant) (calls : List Call) (entry : Entry) : Prop :=
  (∃ after, entry.retryAfter = some after ∧ last ≤ after) ∧
  (entry.state = .dataPasswordDiffers ∧ ¬ Overwritten key entry.addr calls ∨
    entry.state = .authPasswordDiffers ∧ ∀ later ∈ calls, ¬ later.Sees key)

theorem Held.paused {calls : List Call} (held : Held peer.x25519PubKey last calls entry)
    (found : book.find peer.x25519PubKey = some entry) : Paused peer last book := by
  apply paused_of_find found _ held.1
  rcases held.2 with ⟨state, -⟩ | ⟨state, -⟩
  · rw [state]
    decide
  · rw [state]
    decide

theorem Held.effect {key : StaticKey} {call : Call} {rest : List Call} (held : Held key last (call :: rest) entry)
    (contact : call.Contact) (clock : last ≤ call.now + passwordRetry) : Held key last rest (call.effect key entry) := by
  obtain ⟨op, now⟩ := call
  obtain ⟨pause, held⟩ := held
  rcases contact with ⟨peer, addr, same⟩ | ⟨ip, weConnected, same⟩
  · cases same
    simp only [Call.effect, Overwritten, List.forall_mem_cons] at held ⊢
    by_cases own : peer.x25519PubKey = key
    · rcases held with ⟨state, plain⟩ | ⟨-, unseen, -⟩
      · rw [if_pos own, state, if_neg (not_not_intro rfl)]
        rw [if_pos own] at plain
        exact ⟨pause, .inl ⟨rfl, plain⟩⟩
      · exact absurd ⟨peer, addr, rfl, own⟩ unseen
    · rw [if_neg own]
      rw [if_neg own] at held
      exact ⟨pause, held.imp id fun other => ⟨other.1, other.2.2⟩⟩
  · cases same
    simp only [Call.effect, Overwritten, List.forall_mem_cons] at held ⊢
    split
    · next hit =>
      rw [if_pos hit] at held
      -- the state is overwritten, so the device must not be seen from now on
      refine ⟨?_, .inr ⟨rfl, ?_⟩⟩
      · cases weConnected with
        | false => exact pause
        | true => exact ⟨_, rfl, clock⟩
      · rcases held with ⟨-, plain⟩ | ⟨-, -, unseen⟩
        · exact fun later member sees => plain ⟨later, member, sees⟩
        · exact unseen
    · next miss =>
      rw [if_neg miss] at held
      exact ⟨pause, held.imp id fun other => ⟨other.1, other.2.2⟩⟩

theorem throughout_paused {calls : List Call} (contacts : ∀ call ∈ calls, call.Contact)
    (clock : ∀ call ∈ calls, last ≤ call.now + passwordRetry)
    (kept : Throughout (fun book => book.knows peer.x25519PubKey = true) book calls)
    (found : book.find peer.x25519PubKey = some entry) (held : Held peer.x25519PubKey last calls entry) :
    Throughout (Paused peer last) book calls := by
  induction calls generalizing book entry with
  | nil => exact held.paused found
  | cons call rest ih =>
      have contact := contacts call List.mem_cons_self
      have time := clock call List.mem_cons_self
      have next := find_perform contact found kept.2.start
      exact ⟨held.paused found, ih (fun other member => contacts other (List.mem_cons_of_mem call member))
        (fun other member => clock other (List.mem_cons_of_mem call member)) kept.2 next (held.effect contact time)⟩

/-- Once the state is another one, the next contact of the device clears it. -/
theorem not_throughout_of_sees {calls : List Call} (contacts : ∀ call ∈ calls, call.Contact)
    (kept : Throughout (fun book => book.knows peer.x25519PubKey = true) book calls)
    (found : book.find peer.x25519PubKey = some entry) (state : entry.state ≠ .dataPasswordDiffers)
    (sees : ∃ later ∈ calls, later.Sees peer.x25519PubKey) : ¬ Throughout (Paused peer last) book calls := by
  induction calls generalizing book entry with
  | nil => simp at sees
  | cons call rest ih =>
      intro always
      have contact := contacts call List.mem_cons_self
      have next := find_perform contact found kept.2.start
      have others := fun other member => contacts other (List.mem_cons_of_mem call member)
      obtain ⟨op, now⟩ := call
      rcases contact with ⟨other, addr, same⟩ | ⟨ip, weConnected, same⟩
      · cases same
        by_cases own : other.x25519PubKey = peer.x25519PubKey
        · -- it is seen now, and shown as fine
          simp only [Call.effect, if_pos own, if_pos state] at next
          apply always.2.start.1
          rw [state_eq, next]
          rfl
        · simp only [Call.effect, if_neg own] at next
          obtain ⟨later, member, seen⟩ := sees
          rcases List.mem_cons.mp member with rfl | member
          · obtain ⟨_, _, same, own'⟩ := seen
            cases same
            exact own own'
          · exact ih others kept.2 next state ⟨later, member, seen⟩ always.2
      · cases same
        obtain ⟨later, member, seen⟩ := sees
        have member : later ∈ rest := by
          rcases List.mem_cons.mp member with rfl | member
          · obtain ⟨_, _, same, -⟩ := seen
            cases same
          · exact member
        simp only [Call.effect] at next
        split at next
        · exact ih others kept.2 next (by simp) ⟨later, member, seen⟩ always.2
        · exact ih others kept.2 next state ⟨later, member, seen⟩ always.2

theorem not_throughout_of_overwritten {calls : List Call} (contacts : ∀ call ∈ calls, call.Contact)
    (kept : Throughout (fun book => book.knows peer.x25519PubKey = true) book calls)
    (found : book.find peer.x25519PubKey = some entry) (state : entry.state = .dataPasswordDiffers)
    (overwritten : Overwritten peer.x25519PubKey entry.addr calls) : ¬ Throughout (Paused peer last) book calls := by
  induction calls generalizing book entry with
  | nil => exact overwritten.elim
  | cons call rest ih =>
      intro always
      have contact := contacts call List.mem_cons_self
      have next := find_perform contact found kept.2.start
      have others := fun other member => contacts other (List.mem_cons_of_mem call member)
      obtain ⟨op, now⟩ := call
      rcases contact with ⟨other, addr, same⟩ | ⟨ip, weConnected, same⟩
      · cases same
        simp only [Call.effect, Overwritten] at next overwritten
        by_cases own : other.x25519PubKey = peer.x25519PubKey
        · rw [if_pos own, if_neg (not_not_intro state)] at next
          rw [if_pos own] at overwritten
          exact ih others kept.2 next state overwritten always.2
        · rw [if_neg own] at next overwritten
          exact ih others kept.2 next state overwritten always.2
      · cases same
        simp only [Call.effect, Overwritten] at next overwritten
        split at next
        · next hit =>
          rw [if_pos hit] at overwritten
          exact not_throughout_of_sees others kept.2 next (by simp) overwritten always.2
        · next miss =>
          rw [if_neg miss] at overwritten
          exact ih others kept.2 next state overwritten always.2

end DataPause

/-- After a data password was found to differ, the device stays paused and is not
shown as fine through any contacts with any devices, exactly when no failure at
the address where it was last seen comes before it is seen again. -/
theorem data_pause_lasts_iff (book : PeerBook) (peer : TrustedPeer) (time : Instant) (calls : List Call)
    (contacts : ∀ call ∈ calls, call.Contact) (clock : ∀ call ∈ calls, time ≤ call.now)
    (kept : Throughout (fun book => book.knows peer.x25519PubKey = true)
      (book.setState peer .dataPasswordDiffers time) calls) :
    Throughout (Paused peer (time + passwordRetry)) (book.setState peer .dataPasswordDiffers time) calls ↔
      ¬ Overwritten peer.x25519PubKey ((book.find peer.x25519PubKey).bind Entry.addr) calls := by
  have found := find_change_self book peer.x25519PubKey fun entry =>
    { entry with state := .dataPasswordDiffers, retryAfter := some (time + passwordRetry) }
  have addr : ((book.find peer.x25519PubKey).getD ⟨peer.x25519PubKey, none, .unknown, none⟩).addr =
      (book.find peer.x25519PubKey).bind Entry.addr := by
    cases book.find peer.x25519PubKey with
    | none => rfl
    | some entry => rfl
  rw [← addr]
  constructor
  · intro always overwritten
    exact not_throughout_of_overwritten contacts kept found rfl overwritten always
  · intro plain
    apply throughout_paused contacts _ kept found ⟨⟨_, rfl, Nat.le_refl _⟩, .inl ⟨rfl, plain⟩⟩
    intro call member
    exact Nat.add_le_add_right (clock call member) _

def elsewhere : List Call :=
  [⟨.seen tablet tabletAddr, 1⟩, ⟨.wrongPasswordAt [10, 0, 0, 1] true, 2⟩, ⟨.seen tablet tabletAddr, 3⟩]

theorem data_pause_lasts_elsewhere :
    Throughout (Paused tablet (0 + passwordRetry)) (empty.setState tablet .dataPasswordDiffers 0) elsewhere := by
  apply (data_pause_lasts_iff empty tablet 0 elsewhere ?_ (by simp) (by simp only [elsewhere, Throughout]; decide)).mpr
  · have miss : ((some tabletAddr).any fun addr => ipOf addr = [10, 0, 0, 1]) = false := by decide
    simp only [elsewhere, Overwritten, ↓reduceIte, miss, Bool.false_eq_true, not_false_eq_true]
  · intro call member
    simp only [elsewhere, List.mem_cons, List.not_mem_nil, or_false] at member
    rcases member with rfl | rfl | rfl
    · exact .inl ⟨_, _, rfl⟩
    · exact .inr ⟨_, _, rfl⟩
    · exact .inl ⟨_, _, rfl⟩

def mixedUp : List Call :=
  [⟨.seen tablet tabletAddr, 1⟩, ⟨.wrongPasswordAt (ipOf tabletAddr) false, 2⟩, ⟨.seen tablet tabletAddr, 3⟩]

/-- The failure replaces the state that `seen` keeps, so the pause is gone. -/
theorem data_pause_lost : (∀ call ∈ mixedUp, call.Contact) ∧ (∀ call ∈ mixedUp, 0 ≤ call.now) ∧
    Throughout (fun book => book.knows tablet.x25519PubKey = true) (empty.setState tablet .dataPasswordDiffers 0) mixedUp ∧
    ¬ Throughout (Paused tablet (0 + passwordRetry)) (empty.setState tablet .dataPasswordDiffers 0) mixedUp := by
  refine ⟨?_, by simp, by simp only [mixedUp, Throughout]; decide, ?_⟩
  · intro call member
    simp only [mixedUp, List.mem_cons, List.not_mem_nil, or_false] at member
    rcases member with rfl | rfl | rfl
    · exact .inl ⟨_, _, rfl⟩
    · exact .inr ⟨_, _, rfl⟩
    · exact .inl ⟨_, _, rfl⟩
  · intro always
    exact always.2.2.2.1 rfl

end PeerBook

end CesaConn
