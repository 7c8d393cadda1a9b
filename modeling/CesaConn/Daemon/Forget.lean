import CesaConn.Daemon.Turn
import CesaConn.Program.View

/-! Forgetting a device, and taking it back.

The matching devices leave the list before the file is written. If that fails
each goes back to the place it had, and the list is the old one again.
-/

set_option autoImplicit false

namespace CesaConn

open Format Program

namespace Daemon

open Vault

/-- What a state change saves, and the devices it trusts. -/
structure Holdings where
  saved : Saved
  list : Nat
  peers : List TrustedPeer

def State.held (state : State) : Holdings := ⟨state.saved, state.trustedPeers, state.lists state.trustedPeers⟩

/-- What is seen of a state; the book only where nobody else changes it. -/
def State.seen (alone : Prop) (state : State) : Holdings × (alone → PeerBook) := (state.held, fun _ => state.peerBook)

variable {setup : Setup} {task : Nat} {drift : State → State → Prop} {alone : Prop} {A : Type}
  {seen : Holdings × (alone → PeerBook)}

def Unseen (drift : State → State → Prop) (alone : Prop) : Prop :=
  ∀ before after, drift before after → after.seen alone = before.seen alone

/-- From what is seen the program goes to what `post` allows to be seen. -/
abbrev ShowsSeen (setup : Setup) (task : Nat) (drift : State → State → Prop) {alone : Prop} (seen : Holdings × (alone → PeerBook))
    (program : Task A) (post : A → Holdings × (alone → PeerBook) → Prop) : Prop :=
  Shows (machine setup) task drift (State.seen alone) seen program post

theorem seen_of_writes {op : Op} {outcome : Outcome} {before after : State} {reply : Reply op}
    (executed : (machine setup).exec task op outcome before = some (reply, after)) (unsaved : op.Unsaved)
    (apart : .peers ∉ op.writes ∧ .book ∉ op.writes) : after.seen alone = before.seen alone := by
  have saved : after.saved = before.saved := exec_unsaved executed unsaved
  obtain ⟨list, lists, -⟩ := exec_same executed .peers apart.1
  have book : after.peerBook = before.peerBook := exec_same executed .book apart.2
  simp only [State.seen, State.held, saved, list, lists, book]

/-! ## Operations -/

section

variable (unseen : Unseen drift alone)
include unseen

theorem sees_await {op : Op} {post : Reply op → Holdings × (alone → PeerBook) → Prop}
    (effect : ∀ before outcome reply after, before.seen alone = seen →
      (machine setup).exec task op outcome before = some (reply, after) → post reply (after.seen alone)) :
    ShowsSeen setup task drift seen (await op) post :=
  shows_call (M := machine setup) unseen effect

theorem sees_aside {op : Op} (unsaved : op.Unsaved) (apart : .peers ∉ op.writes ∧ .book ∉ op.writes) :
    ShowsSeen setup task drift seen (await op) fun _ next => next = seen := by
  apply sees_await unseen
  intro before outcome reply after same executed
  exact (seen_of_writes executed unsaved apart).trans same

theorem sees_readKeys :
    ShowsSeen setup task drift seen (await .readKeys) fun reply next => reply = seen.1.saved.keys ∧ next = seen := by
  apply sees_await unseen
  rintro before outcome reply after rfl executed
  cases executed
  exact ⟨rfl, rfl⟩

theorem sees_peerList : ShowsSeen setup task drift seen (await .peerList) fun reply next => reply = seen.1.list ∧ next = seen := by
  apply sees_await unseen
  rintro before outcome reply after rfl executed
  cases executed
  exact ⟨rfl, rfl⟩

theorem sees_trustedCopy : ShowsSeen setup task drift seen trustedCopy fun reply next => reply = seen.1.peers ∧ next = seen := by
  apply shows_bind (sees_peerList unseen)
  rintro list next ⟨rfl, rfl⟩
  apply sees_await unseen
  rintro before outcome reply after rfl executed
  cases executed
  exact ⟨rfl, rfl⟩

theorem sees_encodedPeers :
    ShowsSeen setup task drift seen encodedPeers fun reply next =>
      next = seen ∧ ∀ bytes, reply = .ok bytes → encodePeers seen.1.peers = some bytes := by
  apply shows_bind (sees_trustedCopy unseen)
  rintro peers next ⟨rfl, rfl⟩
  split
  · next bytes encoded =>
    apply shows_done
    refine ⟨rfl, fun other same => ?_⟩
    cases same
    exact encoded
  · apply shows_done
    exact ⟨rfl, fun other same => by cases same⟩

theorem sees_encodedAddresses : ShowsSeen setup task drift seen encodedAddresses fun _ next => next = seen := by
  apply shows_bind (sees_trustedCopy unseen)
  rintro peers next ⟨-, rfl⟩
  apply shows_bind (sees_aside unseen (by simp) (by simp))
  rintro book next rfl
  exact shows_done rfl

def written (seen : Holdings × (alone → PeerBook)) (file : Bytes) : Holdings × (alone → PeerBook) :=
  ({ seen.1 with saved := { seen.1.saved with file := some file } }, seen.2)

omit unseen in
theorem seen_writeFile {file : Bytes} {outcome : Outcome} {before after : State} {reply : Call VaultErrors Unit}
    (executed : (machine setup).exec task (.writeFile file) outcome before = some (reply, after)) :
    (reply = .ok () ∧ after.seen alone = written (before.seen alone) file) ∨
      (reply.isOk = false ∧ after.seen alone = before.seen alone) := by
  cases outcome with
  | lost | failed e =>
      cases executed
      exact .inr ⟨rfl, rfl⟩
  | done | drawn bytes | «at» instant =>
      cases executed
      exact .inl ⟨rfl, rfl⟩

def Sealed (setup : Setup) (held : Holdings) (file : Bytes) : Prop :=
  ∃ vault nonce contents, held.saved.keys.vault = some vault ∧ encodePeers held.peers = some contents.peers ∧
    sealVault setup.crypto.aead nonce vault.wrapped vault.dek contents = .ok file

theorem sees_reseal (config : Option Config) :
    ShowsSeen setup task drift seen (reseal setup config) fun result next =>
      match result with
      | .error _ => next = seen
      | .ok () => ∃ file, Sealed setup seen.1 file ∧ next = written seen file := by
  unfold reseal
  split
  · exact shows_done rfl
  apply shows_bind (sees_encodedPeers unseen)
  rintro encoded next ⟨rfl, fits⟩
  cases encoded with
  | error e => exact shows_done rfl
  | ok peers =>
      apply shows_bind (sees_encodedAddresses unseen)
      rintro addresses next rfl
      apply shows_bind (sees_aside unseen (by simp) (by simp))
      rintro nonce next rfl
      apply shows_bind (sees_readKeys unseen)
      rintro slots next ⟨rfl, rfl⟩
      split
      · next vault aKey aSalt found _ _ =>
        split
        · exact shows_done rfl
        · next file made =>
          have wrote : ShowsSeen setup task drift next (await (.writeFile file)) fun reply last =>
              (reply = .ok () ∧ last = written next file) ∨ (reply.isOk = false ∧ last = next) := by
            apply sees_await unseen
            rintro before outcome reply after rfl executed
            exact seen_writeFile executed
          apply shows_bind wrote
          rintro reply last (⟨rfl, rfl⟩ | ⟨failed, rfl⟩)
          · exact shows_done ⟨file, ⟨vault, nonce, _, found, fits peers rfl, made⟩, rfl⟩
          · cases reply with
            | ok value => cases failed
            | lost | failed e => exact shows_done rfl
      · exact shows_done rfl

theorem sees_writeBook (change : PeerBook → PeerBook) :
    ShowsSeen setup task drift seen (await (.writeBook change)) fun _ next => next = (seen.1, fun own => change (seen.2 own)) := by
  apply sees_await unseen
  rintro before outcome reply after rfl executed
  cases executed
  rfl

theorem sees_removePeers (removed : List (Nat × TrustedPeer)) :
    ShowsSeen setup task drift seen (removePeers removed) fun _ next =>
      next = (seen.1, fun own => removed.foldl (fun book entry => book.remove entry.2) (seen.2 own)) := by
  induction removed generalizing seen with
  | nil => exact shows_done rfl
  | cons first rest ih =>
      apply shows_bind (sees_writeBook unseen _)
      rintro _ next rfl
      exact ih

def withPeers (seen : Holdings × (alone → PeerBook)) (peers : List TrustedPeer) : Holdings × (alone → PeerBook) :=
  ({ seen.1 with peers }, seen.2)

theorem sees_takePeers (fingerprint : Block fingerprintLen) :
    ShowsSeen setup task drift seen (await (.takePeers seen.1.list fingerprint)) fun removed next =>
      removed = (CesaConn.takePeers seen.1.peers fingerprint).1 ∧
        next = withPeers seen (CesaConn.takePeers seen.1.peers fingerprint).2 := by
  apply sees_await unseen
  rintro before outcome reply after rfl executed
  cases executed
  refine ⟨rfl, ?_⟩
  simp only [State.seen, State.held, withPeers, State.setList, Function.update_self]
  rfl

theorem sees_putBack (removed : List (Nat × TrustedPeer)) :
    ShowsSeen setup task drift seen (await (.putBack seen.1.list removed)) fun _ next =>
      next = withPeers seen (CesaConn.putBack seen.1.peers removed) := by
  apply sees_await unseen
  rintro before outcome reply after rfl executed
  cases executed
  simp only [State.seen, State.held, withPeers, State.setList, Function.update_self]
  rfl

theorem sees_forgetPeer (fingerprint : Block fingerprintLen) :
    ShowsSeen setup task drift seen (forgetPeer setup fingerprint) fun result next =>
      match result with
      | .error _ => next = seen
      | .ok () =>
          next.1.peers = (CesaConn.takePeers seen.1.peers fingerprint).2 ∧ next.1.saved.keys = seen.1.saved.keys ∧
            (∀ vault, seen.1.saved.keys.vault = some vault →
              ∃ file, Sealed setup next.1 file ∧ next.1.saved.file = some file) ∧
            next.2 = fun own => (CesaConn.takePeers seen.1.peers fingerprint).1.foldl
              (fun book entry => book.remove entry.2) (seen.2 own) := by
  apply shows_bind (sees_readKeys unseen)
  rintro slots next ⟨rfl, rfl⟩
  split
  · exact shows_done rfl
  apply shows_bind (sees_peerList unseen)
  rintro list seen ⟨rfl, rfl⟩
  apply shows_bind (sees_takePeers unseen fingerprint)
  rintro removed next ⟨rfl, rfl⟩
  split
  · next none =>
    -- nothing matched, so nothing was taken out
    apply shows_done
    have same := putBack_takePeers seen.1.peers fingerprint
    rw [List.isEmpty_iff.mp none] at same
    show withPeers seen _ = seen
    rw [withPeers, show (CesaConn.takePeers seen.1.peers fingerprint).2 = seen.1.peers from same]
  apply shows_bind (sees_readKeys unseen)
  rintro slots next ⟨rfl, rfl⟩
  have resealed : ShowsSeen setup task drift (withPeers seen (CesaConn.takePeers seen.1.peers fingerprint).2)
      (if seen.1.saved.keys.vault.isSome then reseal setup none else pure (.ok ())) fun result next =>
        match result with
        | .error _ => next = withPeers seen (CesaConn.takePeers seen.1.peers fingerprint).2
        | .ok () => next.1.peers = (CesaConn.takePeers seen.1.peers fingerprint).2 ∧ next.1.saved.keys = seen.1.saved.keys ∧
            (∀ vault, seen.1.saved.keys.vault = some vault →
              ∃ file, Sealed setup next.1 file ∧ next.1.saved.file = some file) ∧ next.2 = seen.2 := by
    split
    · apply shows_mono (sees_reseal unseen none)
      rintro (e | _) next held
      · exact held
      · obtain ⟨file, made, rfl⟩ := held
        exact ⟨rfl, rfl, fun _ _ => ⟨file, made, rfl⟩, rfl⟩
    · next closed =>
      apply shows_done
      refine ⟨rfl, rfl, fun vault found => ?_, rfl⟩
      rw [found] at closed
      exact absurd rfl closed
  apply shows_bind resealed
  rintro (e | _) next held
  · subst held
    apply shows_bind (sees_putBack unseen _)
    rintro _ next rfl
    apply shows_done
    show withPeers (withPeers seen _) (CesaConn.putBack (CesaConn.takePeers seen.1.peers fingerprint).2 _) = seen
    rw [putBack_takePeers]
    rfl
  · obtain ⟨left, keys, saved, same⟩ := held
    apply shows_bind (sees_removePeers unseen _)
    rintro _ last rfl
    exact shows_done ⟨left, keys, saved, by rw [same]⟩

end

/-! ## The promise -/

theorem entries_removes (book : PeerBook) (removed : List (Nat × TrustedPeer)) :
    (removed.foldl (fun book entry => book.remove entry.2) book).entries =
      book.entries.filter fun entry => !(removed.map Prod.snd).any fun peer => peer.x25519PubKey = entry.peerId := by
  induction removed generalizing book with
  | nil => exact (List.filter_eq_self.mpr fun _ _ => rfl).symm
  | cons first rest ih =>
      rw [List.foldl_cons, ih]
      show List.filter _ (List.filter _ book.entries) = _
      rw [List.filter_filter]
      congr 1
      funext entry
      simp [eq_comm, Bool.and_comm]

/-- Where nobody else changes the list, forgetting a device either fails and
leaves the list as it was, or takes exactly the matching devices out of it, and
the vault is written with what is left. The book, where nobody else changes it,
loses the entries of the devices that were taken out, and no others. -/
theorem forget_rolls_back (fingerprint : Block fingerprintLen) {before after : State} {result : Except DaemonError Unit}
    (still : ∀ state state', drift state state' → state'.held = state.held)
    (execution : Executes (machine setup) task drift (forgetPeer setup fingerprint) before result after) :
    (match result with
    | .error _ => after.held = before.held
    | .ok () => after.held.peers = before.held.peers.filter (fun peer => peer.fingerprint ≠ fingerprint) ∧
        ∀ vault, before.keys.vault = some vault → ∃ file nonce contents, after.file = some file ∧
          encodePeers after.held.peers = some contents.peers ∧
          sealVault setup.crypto.aead nonce vault.wrapped vault.dek contents = .ok file) ∧
    ((∀ state state', drift state state' → state'.peerBook = state.peerBook) →
      match result with
      | .error _ => after.peerBook = before.peerBook
      | .ok () => after.peerBook.entries = before.peerBook.entries.filter fun entry =>
          !before.held.peers.any fun peer => peer.fingerprint = fingerprint && peer.x25519PubKey = entry.peerId) := by
  constructor
  · have unseen : Unseen drift False := fun state state' drifted => Prod.ext (still state state' drifted) (funext fun never => never.elim)
    have ends := sees_forgetPeer unseen fingerprint before result after rfl execution
    cases result with
    | error e => exact congrArg Prod.fst ends
    | ok _ =>
        obtain ⟨left, keys, saved, -⟩ := ends
        refine ⟨left, fun vault found => ?_⟩
        obtain ⟨file, ⟨own, nonce, contents, opened, encoded, made⟩, stored⟩ := saved vault found
        have same : own = vault := Option.some.inj (opened.symm.trans ((congrArg KeySlots.vault keys).trans found))
        subst same
        exact ⟨file, nonce, contents, stored, encoded, made⟩
  · intro apart
    have unseen : Unseen drift True := fun state state' drifted =>
      Prod.ext (still state state' drifted) (funext fun _ => apart state state' drifted)
    have ends := sees_forgetPeer unseen fingerprint before result after rfl execution
    cases result with
    | error e => exact congrFun (congrArg Prod.snd ends) trivial
    | ok _ =>
        have book := congrFun ends.2.2.2 trivial
        show after.peerBook.entries = _
        rw [show after.peerBook = _ from book, entries_removes, map_snd_takePeers]
        simp only [List.any_filter]
        rfl

/-- Three devices, the first and the last of which have one fingerprint. -/
def crowded : State := { unpaired with
  lists := fun _ => [⟨.replicate 32 9, .replicate mldsa87VkLen 0, "phone"⟩, ⟨.replicate 32 8, .replicate mldsa87VkLen 0, "laptop"⟩,
    ⟨⟨List.replicate 31 9 ++ [1], rfl⟩, .replicate mldsa87VkLen 0, "old phone"⟩] }

def forgetting (write : Outcome) (rest : Nat) : List Outcome :=
  List.replicate 9 .done ++ [.drawn (List.replicate 12 6), .done, write] ++ List.replicate rest .done

theorem forget_rolls_back_crowded :
    (∃ after, Executes (machine plainSetup) 0 Eq (forgetPeer plainSetup (.replicate fingerprintLen 9)) crowded
      (.error .storageFailed) after ∧ after.held = crowded.held) ∧
    ∃ after, Executes (machine plainSetup) 0 Eq (forgetPeer plainSetup (.replicate fingerprintLen 9)) crowded (.ok ()) after ∧
      after.held.peers.map TrustedPeer.name = ["laptop"] := by
  have still : ∀ state state' : State, state = state' → state'.held = state.held := by
    rintro state _ rfl
    rfl
  constructor
  · have runs : ∃ result after, Executes (machine plainSetup) 0 Eq (forgetPeer plainSetup (.replicate fingerprintLen 9))
        crowded result after ∧ result = .error .storageFailed :=
      executes_of_plays (fun _ => rfl) (forgetting (.failed .io) 1) (by decide +kernel)
    obtain ⟨result, after, execution, rfl⟩ := runs
    exact ⟨after, execution, (forget_rolls_back _ still execution).1⟩
  · have runs : ∃ result after, Executes (machine plainSetup) 0 Eq (forgetPeer plainSetup (.replicate fingerprintLen 9))
        crowded result after ∧ result = .ok () :=
      executes_of_plays (fun _ => rfl) (forgetting .done 2) (by decide +kernel)
    obtain ⟨result, after, execution, rfl⟩ := runs
    refine ⟨after, execution, ?_⟩
    rw [(forget_rolls_back _ still execution).1.1]
    decide +kernel

end Daemon

end CesaConn
