import CesaConn.Peers.TrustedPeers
import Mathlib.Data.Finset.Card

/-! The order in which clipboard updates of a peer are taken.

An update carries the epoch of its sender's run, random and without an order,
and its number in that run. The receiver remembers one epoch and one number for
each peer. As long as no peer is forgotten, what is taken from one peer depends
on the deliveries of that peer alone.
-/

set_option autoImplicit false

namespace CesaConn

open Format

namespace Clipboard

abbrev Epoch := Block 8

/-- An update as far as its order goes: who sent it, in which run, and its number there. -/
structure Update where
  peer : StaticKey
  epoch : Epoch
  seq : UInt64
  deriving DecidableEq

structure UpdateOrder where
  last : List Update := []
  deriving DecidableEq

namespace UpdateOrder

/-- Whether the update is newer than the last one taken; if so it is recorded. -/
def accept (order : UpdateOrder) (peer : StaticKey) (epoch : Epoch) (seq : UInt64) : Bool × UpdateOrder :=
  let index := order.last.findIdx fun known => known.peer = peer
  match order.last[index]? with
  | some known =>
      if known.epoch = epoch ∧ seq ≤ known.seq then (false, order)
      else (true, ⟨order.last.set index { known with epoch, seq }⟩)
  | none =>
      -- the oldest entry makes room
      let last := if maxTrustedPeers ≤ order.last.length ∧ order.last ≠ [] then order.last.eraseIdx 0 else order.last
      (true, ⟨last ++ [⟨peer, epoch, seq⟩]⟩)

def newest (order : UpdateOrder) (peer : StaticKey) : Option Update :=
  order.last.find? fun known => known.peer = peer

end UpdateOrder

def taken (order : UpdateOrder) : List Update → List Update
  | [] => []
  | update :: rest =>
      match order.accept update.peer update.epoch update.seq with
      | (true, order) => update :: taken order rest
      | (false, order) => taken order rest

/-! ## One peer -/

def newer (known : Option Update) (update : Update) : Bool :=
  known.all fun known => !(known.epoch = update.epoch ∧ update.seq ≤ known.seq)

/-- The same for the updates of one peer. -/
def takenFrom (known : Option Update) : List Update → List Update
  | [] => []
  | update :: rest => if newer known update then update :: takenFrom (some update) rest else takenFrom known rest

theorem takenFrom_subset {known : Option Update} {updates : List Update} : takenFrom known updates ⊆ updates := by
  induction updates generalizing known with
  | nil => exact List.Subset.refl _
  | cons update rest ih =>
      rw [takenFrom]
      split
      · exact List.cons_subset_cons update ih
      · exact List.subset_cons_of_subset update ih

structure UpdateOrder.Within (order : UpdateOrder) (peers : Finset StaticKey) : Prop where
  distinct : (order.last.map Update.peer).Nodup
  known : ∀ entry ∈ order.last, entry.peer ∈ peers

theorem UpdateOrder.Within.room {order : UpdateOrder} {peers : Finset StaticKey} (within : order.Within peers)
    {peer : StaticKey} (member : peer ∈ peers) (bounded : peers.card ≤ maxTrustedPeers)
    (unknown : order.newest peer = none) : order.last.length < maxTrustedPeers := by
  have absent : ∀ entry ∈ order.last, entry.peer ≠ peer := by
    simpa [newest, List.find?_eq_none] using unknown
  have fresh : peer ∉ order.last.map Update.peer := by
    simpa using absent
  have all : (peer :: order.last.map Update.peer).toFinset ⊆ peers := by
    intro key listed
    simp only [List.mem_toFinset, List.mem_cons, List.mem_map] at listed
    obtain rfl | ⟨entry, listed, rfl⟩ := listed
    · exact member
    · exact within.known entry listed
  have counted := Finset.card_le_card all
  rw [List.toFinset_card_of_nodup (List.nodup_cons.mpr ⟨fresh, within.distinct⟩)] at counted
  simp only [List.length_cons, List.length_map] at counted
  omega

section Replace

variable (new : Update) (last : List Update)

theorem map_peer_set : (last.set (last.findIdx fun known => known.peer = new.peer) new).map Update.peer =
    last.map Update.peer := by
  induction last with
  | nil => rfl
  | cons first rest ih =>
      by_cases own : first.peer = new.peer
      · simp [List.findIdx_cons, own]
      · simp [List.findIdx_cons, own, ih]

theorem find?_set (peer : StaticKey) :
    (last.set (last.findIdx fun known => known.peer = new.peer) new).find? (fun known => known.peer = peer) =
      if peer = new.peer then (last.find? fun known => known.peer = peer).map fun _ => new
      else last.find? fun known => known.peer = peer := by
  induction last with
  | nil => simp
  | cons first rest ih =>
      by_cases own : first.peer = new.peer
      · by_cases same : peer = new.peer
        · simp [List.findIdx_cons, own, same]
        · simp [List.findIdx_cons, own, same, Ne.symm same]
      · by_cases found : first.peer = peer
        · have other : peer ≠ new.peer := found ▸ own
          simp [List.findIdx_cons, found, other]
        · simp [List.findIdx_cons, own, found, ih]

end Replace

theorem accept_unknown {order : UpdateOrder} {peers : Finset StaticKey} (within : order.Within peers) {update : Update}
    (member : update.peer ∈ peers) (bounded : peers.card ≤ maxTrustedPeers)
    (unknown : order.newest update.peer = none) :
    order.accept update.peer update.epoch update.seq = (true, ⟨order.last ++ [update]⟩) ∧
      UpdateOrder.Within ⟨order.last ++ [update]⟩ peers := by
  have looked : order.last[order.last.findIdx fun known => known.peer = update.peer]? = none :=
    List.find?_eq_getElem?_findIdx.symm.trans unknown
  have room := within.room member bounded unknown
  have full : ¬ (maxTrustedPeers ≤ order.last.length ∧ order.last ≠ []) := by omega
  have absent : ∀ entry ∈ order.last, entry.peer ≠ update.peer := by
    simpa [UpdateOrder.newest, List.find?_eq_none] using unknown
  refine ⟨by simp only [UpdateOrder.accept, looked, if_neg full], ?_, ?_⟩
  · simp only [List.map_append, List.map_cons, List.map_nil]
    exact List.nodup_append.mpr ⟨within.distinct, by simp, by simpa using absent⟩
  · intro entry listed
    obtain old | rfl : entry ∈ order.last ∨ entry = update := by simpa using listed
    · exact within.known entry old
    · exact member

theorem accept_known {order : UpdateOrder} {peers : Finset StaticKey} (within : order.Within peers) {update known : Update}
    (found : order.newest update.peer = some known) :
    ∃ after, order.accept update.peer update.epoch update.seq = (newer (some known) update, after) ∧
      after.Within peers ∧
      ∀ peer, after.newest peer =
        if newer (some known) update ∧ peer = update.peer then some update else order.newest peer := by
  have looked : order.last[order.last.findIdx fun known => known.peer = update.peer]? = some known :=
    List.find?_eq_getElem?_findIdx.symm.trans found
  have own : known.peer = update.peer := by simpa using List.find?_some found
  simp only [UpdateOrder.accept, looked]
  by_cases old : known.epoch = update.epoch ∧ update.seq ≤ known.seq
  · exact ⟨order, by simp [newer, old], within, fun peer => by simp [newer, old]⟩
  · have entry : Update.mk known.peer update.epoch update.seq = update := by
      cases update
      cases own
      rfl
    have fresh : newer (some known) update = true := by
      show (!decide (known.epoch = update.epoch ∧ update.seq ≤ known.seq)) = true
      rw [decide_eq_false old]
      rfl
    rw [if_neg old, entry]
    refine ⟨⟨order.last.set (order.last.findIdx fun known => known.peer = update.peer) update⟩, by rw [fresh],
      ⟨?_, ?_⟩, fun peer => ?_⟩
    · rw [map_peer_set]
      exact within.distinct
    · intro entry listed
      have peer : entry.peer ∈ order.last.map Update.peer := by
        rw [← map_peer_set update order.last]
        exact List.mem_map_of_mem listed
      obtain ⟨before, listed, same⟩ := List.mem_map.mp peer
      exact same ▸ within.known before listed
    · have seen : order.last.find? (fun known => known.peer = update.peer) = some known := found
      rw [UpdateOrder.newest, find?_set, fresh]
      by_cases same : peer = update.peer
      · subst same
        simp [seen]
      · simp [same, UpdateOrder.newest]

/-- One delivery: the table answers for the peer alone and changes what it knows of it alone. -/
theorem accept_spec {order : UpdateOrder} {peers : Finset StaticKey} (within : order.Within peers) {update : Update}
    (member : update.peer ∈ peers) (bounded : peers.card ≤ maxTrustedPeers) :
    ∃ after, order.accept update.peer update.epoch update.seq = (newer (order.newest update.peer) update, after) ∧
      after.Within peers ∧
      ∀ peer, after.newest peer =
        if newer (order.newest update.peer) update ∧ peer = update.peer then some update else order.newest peer := by
  cases found : order.newest update.peer with
  | some known => exact accept_known within found
  | none =>
      obtain ⟨accepted, within'⟩ := accept_unknown within member bounded found
      refine ⟨_, accepted, within', fun peer => ?_⟩
      have missing : order.last.find? (fun known => known.peer = update.peer) = none := found
      by_cases same : peer = update.peer
      · subst same
        simp [UpdateOrder.newest, newer, missing]
      · simp [UpdateOrder.newest, newer, same, Ne.symm same]

/-- What is taken from one peer does not depend on the others. -/
theorem taken_from {peers : Finset StaticKey} (bounded : peers.card ≤ maxTrustedPeers) (peer : StaticKey)
    (updates : List Update) : ∀ {order : UpdateOrder}, order.Within peers → (∀ update ∈ updates, update.peer ∈ peers) →
    (taken order updates).filter (fun update => update.peer = peer) =
      takenFrom (order.newest peer) (updates.filter fun update => update.peer = peer) := by
  induction updates with
  | nil => intro order _ _; rfl
  | cons update rest ih =>
      intro order within listed
      obtain ⟨after, accepted, within', newest⟩ := accept_spec within (listed update (by simp)) bounded
      have later := ih within' fun other member => listed other (by simp [member])
      by_cases own : update.peer = peer
      · subst own
        simp only [taken, accepted, takenFrom, List.filter_cons, decide_true, ↓reduceIte]
        by_cases fresh : newer (order.newest update.peer) update
        · simp [fresh, later, newest]
        · simp [fresh, later, newest]
      · have apart : after.newest peer = order.newest peer := by
          simp [newest, Ne.symm own]
        simp only [taken, accepted, List.filter_cons, own, decide_false, Bool.false_eq_true, ↓reduceIte]
        cases newer (order.newest update.peer) update
        · simp [later, apart]
        · simp [own, later, apart]

/-! ## Several runs of the senders -/

/-- The epochs of each peer's runs, in the order of the runs. -/
structure Senders where
  epochs : StaticKey → List Epoch
  distinct : ∀ peer, (epochs peer).Nodup

namespace Senders

variable (senders : Senders)

def run (update : Update) : Nat := (senders.epochs update.peer).idxOf update.epoch

def Produced (update : Update) : Prop := update.epoch ∈ senders.epochs update.peer

theorem epoch_of_run {first second : Update} (produced : senders.Produced first) (same : first.peer = second.peer)
    (runs : senders.run first = senders.run second) : first.epoch = second.epoch := by
  unfold run at runs
  rw [← same] at runs
  exact (List.idxOf_inj produced).mp runs

end Senders

/-- Nothing is taken twice, numbers grow within a run, and no older run follows a newer one. -/
structure InOrder (senders : Senders) (taken : List Update) : Prop where
  once : taken.Nodup
  grows : taken.Pairwise fun first second => first.peer = second.peer → first.epoch = second.epoch → first.seq < second.seq
  runs : taken.Pairwise fun first second => first.peer = second.peer → senders.run first ≤ senders.run second

/-- No update of an earlier run of a peer is delivered after one of a later run. -/
def RunsInTurn (senders : Senders) (updates : List Update) : Prop :=
  updates.Pairwise fun first second => first.peer = second.peer → senders.run first ≤ senders.run second

/-- A relation between updates of one peer can be checked peer by peer. -/
theorem pairwise_peers {R : Update → Update → Prop} {updates : List Update} :
    (updates.Pairwise fun first second => first.peer = second.peer → R first second) ↔
      ∀ peer, (updates.filter fun update => update.peer = peer).Pairwise R := by
  simp only [List.pairwise_filter, decide_eq_true_eq]
  constructor
  · intro all peer
    refine all.imp fun related first second => ?_
    exact related (first.trans second.symm)
  · intro each
    induction updates with
    | nil => exact .nil
    | cons update rest ih =>
        have split := fun peer => List.pairwise_cons.mp (each peer)
        refine List.pairwise_cons.mpr ⟨fun other member same => ?_, ih fun peer => (split peer).2⟩
        exact (split update.peer).1 other member rfl same.symm

section OnePeer

-- the updates of one peer, where equal runs are equal epochs
variable {run : Update → Nat} {Own : Update → Prop}
  (epochs : ∀ first second, Own first → Own second → (run first = run second ↔ first.epoch = second.epoch))
include epochs

theorem newer_iff {known update : Update} (own : Own known) (own' : Own update) :
    newer (some known) update = true ↔ run known ≠ run update ∨ known.seq < update.seq := by
  simp only [newer, Option.all_some, Bool.not_eq_true', decide_eq_false_iff_not, not_and, UInt64.not_le,
    ne_eq, epochs known update own own']
  exact Decidable.imp_iff_not_or

theorem takenFrom_ordered (updates : List Update) : ∀ known : Option Update,
    (∀ update ∈ known.toList ++ updates, Own update) →
    ((known.toList ++ updates).Pairwise fun first second => run first ≤ run second) →
    (known.toList ++ takenFrom known updates).Pairwise fun first second =>
      run first < run second ∨ run first = run second ∧ first.seq < second.seq := by
  induction updates with
  | nil =>
      intro known _ _
      cases known <;> simp [takenFrom]
  | cons update rest ih =>
      intro known own turns
      cases known with
      | none => exact ih (some update) own turns
      | some known =>
          have tail : ∀ other ∈ update :: rest, Own other := fun other member => own other (by simp [member])
          have ordered : run known ≤ run update ∧ ∀ other ∈ rest, run known ≤ run other := by
            simpa using (List.pairwise_cons.mp turns).1
          have later := List.Pairwise.of_cons turns
          rw [takenFrom]
          by_cases fresh : newer (some known) update
          · rw [if_pos fresh]
            have follows := ih (some update) tail later
            have next : run known < run update ∨ run known = run update ∧ known.seq < update.seq := by
              rcases (newer_iff epochs (own known (by simp)) (tail update (by simp))).mp fresh with other | more
              · exact .inl (Nat.lt_of_le_of_ne ordered.1 other)
              · exact (Nat.lt_or_eq_of_le ordered.1).imp id fun same => ⟨same, more⟩
            refine List.pairwise_cons.mpr ⟨fun other member => ?_, follows⟩
            rcases List.mem_cons.mp member with same | member
            · subst same
              exact next
            · have after := (List.pairwise_cons.mp follows).1 other member
              rcases next with less | ⟨same, less⟩ <;> rcases after with less' | ⟨same', less'⟩
              · exact .inl (less.trans less')
              · exact .inl (same' ▸ less)
              · exact .inl (same ▸ less')
              · exact .inr ⟨same.trans same', UInt64.lt_trans less less'⟩
          · rw [if_neg fresh]
            refine ih (some known) (fun other member => own other ?_) (List.pairwise_cons.mpr ⟨ordered.2, later.of_cons⟩)
            simp only [Option.toList_some, List.cons_append, List.nil_append, List.mem_cons] at member ⊢
            exact member.imp id .inr

/-- An update of another run is always taken: if what is taken is in turn, so was what was delivered. -/
theorem turns_of_takenFrom (updates : List Update) : ∀ known : Option Update,
    (∀ update ∈ known.toList ++ updates, Own update) →
    ((known.toList ++ takenFrom known updates).Pairwise fun first second => run first ≤ run second) →
    (known.toList ++ updates).Pairwise fun first second => run first ≤ run second := by
  induction updates with
  | nil =>
      intro known _ _
      cases known <;> simp
  | cons update rest ih =>
      intro known own turns
      cases known with
      | none => exact ih (some update) own turns
      | some known =>
          have tail : ∀ other ∈ update :: rest, Own other := fun other member => own other (by simp [member])
          rw [takenFrom] at turns
          by_cases fresh : newer (some known) update
          · rw [if_pos fresh] at turns
            have later := ih (some update) tail turns.of_cons
            have first : run known ≤ run update := (List.pairwise_cons.mp turns).1 update (by simp)
            refine List.pairwise_cons.mpr ⟨fun other member => ?_, later⟩
            rcases List.mem_cons.mp member with same | member
            · exact same ▸ first
            · exact first.trans ((List.pairwise_cons.mp later).1 other member)
          · rw [if_neg fresh] at turns
            -- a refused update is of the run taken last
            have same : run known = run update := by
              by_contra other
              exact fresh ((newer_iff epochs (own known (by simp)) (tail update (by simp))).mpr (.inl other))
            have later := ih (some known) (fun other member => own other (by
              simp only [Option.toList_some, List.cons_append, List.nil_append, List.mem_cons] at member ⊢
              exact member.imp id .inr)) turns
            obtain ⟨bound, rest⟩ := List.pairwise_cons.mp later
            refine List.pairwise_cons.mpr ⟨fun other member => ?_, List.pairwise_cons.mpr ⟨fun other member => ?_, rest⟩⟩
            · rcases List.mem_cons.mp member with again | member
              · exact again ▸ same.le
              · exact bound other member
            · exact same ▸ bound other member

end OnePeer

theorem Senders.own (senders : Senders) (peer : StaticKey) (first second : Update)
    (produced : first.peer = peer ∧ senders.Produced first) (produced' : second.peer = peer ∧ senders.Produced second) :
    senders.run first = senders.run second ↔ first.epoch = second.epoch := by
  obtain ⟨rfl, produced⟩ := produced
  constructor
  · exact senders.epoch_of_run produced produced'.1.symm
  · intro same
    rw [Senders.run, Senders.run, same, produced'.1]

/-- What is taken is in order exactly if the runs of every peer arrive in turn. -/
theorem updates_in_order_iff (senders : Senders) (updates : List Update)
    (produced : ∀ update ∈ updates, senders.Produced update)
    (bounded : (updates.map Update.peer).toFinset.card ≤ maxTrustedPeers) :
    InOrder senders (taken {} updates) ↔ RunsInTurn senders updates := by
  have each : ∀ peer, (taken {} updates).filter (fun update => update.peer = peer) =
      takenFrom none (updates.filter fun update => update.peer = peer) := fun peer =>
    taken_from bounded peer updates ⟨by simp, by simp⟩ fun update member => by
      simpa using ⟨update, member, rfl⟩
  have own : ∀ peer, ∀ update ∈ updates.filter (fun update => update.peer = peer),
      update.peer = peer ∧ senders.Produced update := by
    intro peer update member
    obtain ⟨listed, same⟩ := List.mem_filter.mp member
    exact ⟨by simpa using same, produced update listed⟩
  constructor
  · intro inOrder
    refine pairwise_peers.mpr fun peer => ?_
    have runs := pairwise_peers.mp inOrder.runs peer
    rw [each peer] at runs
    exact turns_of_takenFrom (senders.own peer) _ none (own peer) runs
  · intro turns
    have ordered := fun peer => takenFrom_ordered (senders.own peer) _ none (own peer) (pairwise_peers.mp turns peer)
    have grows : (taken {} updates).Pairwise fun first second =>
        first.peer = second.peer → senders.run first < senders.run second ∨
          senders.run first = senders.run second ∧ first.seq < second.seq := by
      refine pairwise_peers.mpr fun peer => ?_
      rw [each peer]
      exact ordered peer
    refine ⟨?_, ?_, ?_⟩
    · refine grows.imp fun related same => ?_
      subst same
      rcases related rfl with less | ⟨_, less⟩
      · exact Nat.lt_irrefl _ less
      · exact UInt64.lt_irrefl _ less
    · refine grows.imp @fun first second related peer epoch => ?_
      have same : senders.run first = senders.run second := by rw [Senders.run, Senders.run, epoch, peer]
      rcases related peer with less | ⟨_, less⟩
      · omega
      · exact less
    · refine grows.imp fun related peer => ?_
      rcases related peer with less | ⟨same, _⟩ <;> omega

/-! A laptop that was restarted: an update of its first run is still on the way. -/

def laptop : StaticKey := .replicate 32 0x01

def phone : StaticKey := .replicate 32 0x02

def firstRun : Epoch := .replicate 8 0x01

def secondRun : Epoch := .replicate 8 0x02

def restarted : Senders := ⟨fun _ => [firstRun, secondRun], fun _ => by decide⟩

theorem updates_in_order_restarted :
    (∀ update ∈ [⟨laptop, firstRun, 1⟩, ⟨laptop, firstRun, 2⟩, ⟨laptop, secondRun, 1⟩], restarted.Produced update) ∧
    InOrder restarted (taken {} [⟨laptop, firstRun, 1⟩, ⟨laptop, firstRun, 2⟩, ⟨laptop, secondRun, 1⟩]) := by
  have produced : ∀ update ∈ [⟨laptop, firstRun, 1⟩, ⟨laptop, firstRun, 2⟩, ⟨laptop, secondRun, 1⟩],
      restarted.Produced update := by
    unfold Senders.Produced
    decide
  refine ⟨produced, (updates_in_order_iff restarted _ produced (by decide)).mpr ?_⟩
  unfold RunsInTurn
  decide

/-- The late update is taken after the restart, and puts the older text back. -/
theorem older_run_taken : ∃ (senders : Senders) (updates : List Update),
    (∀ update ∈ updates, senders.Produced update) ∧
    (updates.map Update.peer).toFinset.card ≤ maxTrustedPeers ∧ ¬ InOrder senders (taken {} updates) := by
  refine ⟨restarted, [⟨laptop, firstRun, 1⟩, ⟨laptop, secondRun, 1⟩, ⟨laptop, firstRun, 2⟩], ?_, by decide, ?_⟩
  · unfold Senders.Produced
    decide
  · intro inOrder
    have runs := inOrder.runs
    revert runs
    decide

/-! ## One run of every sender -/

def lastTaken (updates : List Update) (peer : StaticKey) : Option Update :=
  ((taken {} updates).filter fun update => update.peer = peer).getLast?

/-- Within one epoch the newest update is the one with the greatest number so far. -/
theorem getLast?_takenFrom {epoch : Epoch} (updates : List Update) : ∀ known : Update,
    (∀ update ∈ known :: updates, update.epoch = epoch) →
    ∃ last ∈ known :: updates, (known :: takenFrom (some known) updates).getLast? = some last ∧
      ∀ update ∈ known :: updates, update.seq ≤ last.seq := by
  induction updates with
  | nil =>
      intro known _
      exact ⟨known, by simp, rfl, by simp⟩
  | cons update rest ih =>
      intro known single
      rw [takenFrom]
      by_cases fresh : newer (some known) update
      · obtain ⟨last, member, found, greatest⟩ := ih update fun other member => single other (.tail _ member)
        rw [if_pos fresh, List.getLast?_cons_cons]
        have less : known.seq < update.seq := by
          have same : known.epoch = update.epoch := (single known (by simp)).trans (single update (by simp)).symm
          simpa [newer, same] using fresh
        refine ⟨last, .tail _ member, found, fun other member => ?_⟩
        rcases List.mem_cons.mp member with same | member
        · subst same
          exact UInt64.le_trans (UInt64.le_of_lt less) (greatest update (by simp))
        · exact greatest other member
      · obtain ⟨last, member, found, greatest⟩ := ih known fun other member => single other (by
          rcases List.mem_cons.mp member with same | member <;> simp [*])
        rw [if_neg fresh]
        have bound : update.seq ≤ known.seq := by
          simp only [newer, Option.all_some, Bool.not_eq_true', decide_eq_false_iff_not, not_not] at fresh
          exact fresh.2
        refine ⟨last, ?_, found, fun other member => ?_⟩
        · rcases List.mem_cons.mp member with same | member <;> simp [*]
        · simp only [List.mem_cons] at member
          rcases member with same | same | member
          · exact greatest other (by simp [same])
          · subst same
            exact UInt64.le_trans bound (greatest known (by simp))
          · exact greatest other (.tail _ member)

/-- Every peer keeps to one epoch, and there are not too many peers. -/
structure SingleRun (epoch : StaticKey → Epoch) (updates : List Update) : Prop where
  single : ∀ update ∈ updates, update.epoch = epoch update.peer
  bounded : (updates.map Update.peer).toFinset.card ≤ maxTrustedPeers

section SingleRun

variable {epoch : StaticKey → Epoch} {updates : List Update} (runs : SingleRun epoch updates)
include runs

theorem lastTaken_eq (peer : StaticKey) :
    lastTaken updates peer = (takenFrom none (updates.filter fun update => update.peer = peer)).getLast? := by
  have empty : UpdateOrder.Within {} (updates.map Update.peer).toFinset := ⟨by simp, by simp⟩
  have each := taken_from runs.bounded peer updates empty fun update member => by
    simpa using ⟨update, member, rfl⟩
  exact congrArg List.getLast? each

theorem greatest_lastTaken (peer : StaticKey) (delivered : ∃ update ∈ updates, update.peer = peer) :
    ∃ last ∈ updates, last.peer = peer ∧ lastTaken updates peer = some last ∧
      ∀ update ∈ updates, update.peer = peer → update.seq ≤ last.seq := by
  obtain ⟨update, member, own⟩ := delivered
  cases found : updates.filter fun update => update.peer = peer with
  | nil =>
      have absent := List.filter_eq_nil_iff.mp found update member
      simp [own] at absent
  | cons first rest =>
      have listed : ∀ update, update ∈ first :: rest ↔ update ∈ updates ∧ update.peer = peer := by
        intro update
        rw [← found, List.mem_filter, decide_eq_true_eq]
      have single : ∀ update ∈ first :: rest, update.epoch = epoch peer := by
        intro update member
        obtain ⟨member, own⟩ := (listed update).mp member
        exact own ▸ runs.single update member
      obtain ⟨last, member, taken, greatest⟩ := getLast?_takenFrom rest first single
      obtain ⟨member, own⟩ := (listed last).mp member
      refine ⟨last, member, own, ?_, fun update member own => greatest update ((listed update).mpr ⟨member, own⟩)⟩
      rw [lastTaken_eq runs, found]
      exact taken

theorem lastTaken_eq_some {peer : StaticKey} {update : Update} : lastTaken updates peer = some update ↔
    update ∈ updates ∧ update.peer = peer ∧ ∀ other ∈ updates, other.peer = peer → other.seq ≤ update.seq := by
  constructor
  · intro found
    have taken : update ∈ (takenFrom none (updates.filter fun update => update.peer = peer)) :=
      List.mem_of_getLast? ((lastTaken_eq runs peer).symm.trans found)
    obtain ⟨member, own⟩ : update ∈ updates ∧ update.peer = peer := by
      simpa using takenFrom_subset taken
    obtain ⟨last, _, _, found', greatest⟩ := greatest_lastTaken runs peer ⟨update, member, own⟩
    cases found.symm.trans found'
    exact ⟨member, own, greatest⟩
  · rintro ⟨member, own, greatest⟩
    obtain ⟨last, member', own', found, greatest'⟩ := greatest_lastTaken runs peer ⟨update, member, own⟩
    have number : update.seq = last.seq := UInt64.le_antisymm (greatest' update member own) (greatest last member' own')
    have same : update = last := by
      have epochs : update.epoch = last.epoch := by
        rw [runs.single update member, runs.single last member', own, own']
      cases update
      cases last
      simp_all
    rw [same]
    exact found

theorem SingleRun.perm {others : List Update} (perm : others.Perm updates) : SingleRun epoch others where
  single update member := runs.single update (perm.mem_iff.mp member)
  bounded := by
    rw [List.toFinset_eq_of_perm _ _ (perm.map _)]
    exact runs.bounded

end SingleRun

/-- The update taken last from a peer is the delivered one with the greatest number, so it depends on
neither the order nor the repetition of the deliveries, nor on the other peers. -/
theorem last_taken_converges {epoch : StaticKey → Epoch} {updates : List Update} (runs : SingleRun epoch updates)
    (peer : StaticKey) :
    (∀ update, lastTaken updates peer = some update ↔
      update ∈ updates ∧ update.peer = peer ∧ ∀ other ∈ updates, other.peer = peer → other.seq ≤ update.seq) ∧
    (∀ others, others.Perm updates → lastTaken others peer = lastTaken updates peer) ∧
    ∀ others, SingleRun epoch others →
      (∀ update, update.peer = peer → (update ∈ others ↔ update ∈ updates)) →
      lastTaken others peer = lastTaken updates peer := by
  have same : ∀ others, SingleRun epoch others →
      (∀ update, update.peer = peer → (update ∈ others ↔ update ∈ updates)) →
      lastTaken others peer = lastTaken updates peer := by
    intro others runs' members
    refine Option.ext fun update => ?_
    rw [lastTaken_eq_some runs', lastTaken_eq_some runs]
    constructor
    · rintro ⟨member, own, greatest⟩
      exact ⟨(members update own).mp member, own, fun other member own =>
        greatest other ((members other own).mpr member) own⟩
    · rintro ⟨member, own, greatest⟩
      exact ⟨(members update own).mpr member, own, fun other member own =>
        greatest other ((members other own).mp member) own⟩
  refine ⟨fun update => lastTaken_eq_some runs, fun others perm => ?_, same⟩
  exact same others (runs.perm perm) fun update _ => perm.mem_iff

/-- The phone's second update overtakes the first, and comes twice. -/
theorem last_taken_overtaken :
    lastTaken [⟨laptop, firstRun, 7⟩, ⟨phone, secondRun, 2⟩, ⟨phone, secondRun, 1⟩, ⟨phone, secondRun, 2⟩] phone =
      some ⟨phone, secondRun, 2⟩ := by
  have runs : SingleRun (fun peer => if peer = laptop then firstRun else secondRun)
      [⟨laptop, firstRun, 7⟩, ⟨phone, secondRun, 2⟩, ⟨phone, secondRun, 1⟩, ⟨phone, secondRun, 2⟩] :=
    ⟨by decide, by decide⟩
  exact ((last_taken_converges runs phone).1 _).mpr (by decide)

end Clipboard

end CesaConn
