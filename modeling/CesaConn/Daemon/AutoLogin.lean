import CesaConn.Daemon.Inner
import CesaConn.Daemon.Sequence
import CesaConn.Storage.Integrity

/-! What the automatic-login flag says about the keychain.

With the vault open, the flag and the keychain item belong together. A start
sets the flag for an item it has only read; the flag is true then only if the
item is the vault's own key, or if the start gets as far as removing it.
-/

set_option autoImplicit false

namespace CesaConn

open Format Program

namespace Daemon

open Vault

variable {setup : Setup} {allowed : Op → Outcome → State → Bool} {task : Nat} {saved next : Saved}

/-! ## What the flag promises -/

def Opens (setup : Setup) (file : Option Bytes) (keychain : Item → Option Bytes) (dKey : DataKey) : Prop :=
  ∃ salts bytes kek opened, (keychain .salts).bind Salts.fromBytes = some salts ∧ file = some bytes ∧
    deriveKek setup.crypto dKey salts.storageSalt = .ok kek ∧ openVault setup.crypto.aead kek bytes = .ok opened

def Genuine (setup : Setup) (file : Option Bytes) (keychain : Item → Option Bytes) : Prop :=
  ∀ bytes dKey, keychain .dataKey = some bytes → Opens setup file keychain dKey → bytes = dKey.toList

/-- With the flag set, the item is the data key in memory; on a locked device, the one that will be. -/
def Truthful (setup : Setup) (saved : Saved) : Prop :=
  saved.keys.autoLogin = true → setup.storage = true ∧
    (saved.keys.locked = true ∧ saved.keys.vault = none ∧ (saved.keychain .dataKey).isSome ∧
        Genuine setup saved.file saved.keychain ∨
      saved.keys.locked = false ∧ saved.keys.vault.isSome ∧
        ∃ dKey, saved.keys.dKey = some dKey ∧ saved.keychain .dataKey = some dKey.toList)

/-- Automatic login is off and left nothing behind. -/
def Removed (saved : Saved) : Prop := saved.keys.autoLogin = false ∧ saved.keychain .dataKey = none

/-- Neither is lost. -/
def Honest (setup : Setup) (saved next : Saved) : Prop :=
  (Truthful setup saved → Truthful setup next) ∧ (Removed saved → Removed next)

theorem Honest.refl (saved : Saved) : Honest setup saved saved := ⟨id, id⟩

theorem Honest.trans {third : Saved} (first : Honest setup saved next) (second : Honest setup next third) :
    Honest setup saved third :=
  ⟨fun holds => second.1 (first.1 holds), fun holds => second.2 (first.2 holds)⟩

structure Keeps (before after : Saved) : Prop where
  flag : after.keys.autoLogin = before.keys.autoLogin
  item : after.keychain .dataKey = before.keychain .dataKey
  locked : after.keys.locked = before.keys.locked
  opened : before.keys.vault.isSome → after.keys.vault.isSome ∧ after.keys.dKey = before.keys.dKey

theorem Keeps.refl (saved : Saved) : Keeps saved saved := ⟨rfl, rfl, rfl, fun some => ⟨some, rfl⟩⟩

theorem Keeps.trans {third : Saved} (first : Keeps saved next) (second : Keeps next third) : Keeps saved third where
  flag := second.flag.trans first.flag
  item := second.item.trans first.item
  locked := second.locked.trans first.locked
  opened some := by
    obtain ⟨some', same⟩ := first.opened some
    obtain ⟨some'', same'⟩ := second.opened some'
    exact ⟨some'', same'.trans same⟩

theorem Keeps.honest (keeps : Keeps saved next) (unlocked : saved.keys.locked = false) : Honest setup saved next := by
  constructor
  · intro truthful set
    obtain ⟨storage, ⟨locked, -⟩ | ⟨-, opened, dKey, has, item⟩⟩ := truthful (keeps.flag.symm.trans set)
    · rw [unlocked] at locked
      cases locked
    · obtain ⟨opened', same⟩ := keeps.opened opened
      exact ⟨storage, .inr ⟨keeps.locked.trans unlocked, opened', dKey, same.trans has, keeps.item.trans item⟩⟩
  · rintro ⟨clear, absent⟩
    exact ⟨keeps.flag.trans clear, keeps.item.trans absent⟩

@[simp] theorem KeySlots.autoLogin_setKey (keys : KeySlots) (key : Block 32) (kind : KeyKind) :
    (keys.setKey key kind).autoLogin = keys.autoLogin := by
  cases kind <;> rfl

@[simp] theorem KeySlots.locked_setKey (keys : KeySlots) (key : Block 32) (kind : KeyKind) :
    (keys.setKey key kind).locked = keys.locked := by
  cases kind <;> rfl

@[simp] theorem KeySlots.locked_setWrapped (keys : KeySlots) (wrapped : WrappedDek) :
    (keys.setWrapped wrapped).locked = keys.locked := rfl

theorem truthful_of_clear (clear : next.keys.autoLogin = false) : Truthful setup next := by
  intro set
  rw [clear] at set
  cases set

/-! ## What the functions do to it -/

theorem keeps_within {A : Type} {fields : List Field} {program : Task A} (within : program.All (Op.Within fields))
    (apart : .keys ∉ fields ∧ .keychain ∉ fields) :
    Ends setup allowed task saved program fun _ next => Keeps saved next := by
  refine ends_mono (ends_frame within) ?_
  rintro _ next ⟨keys, -, keychain⟩
  have same : next.keys = saved.keys := keys apart.1
  exact ⟨by rw [same], congrFun (keychain apart.2) _, by rw [same], fun opened => by rw [same]; exact ⟨opened, rfl⟩⟩

theorem keeps_saveConfig (config : Config) :
    Ends setup allowed task saved (saveConfig setup config) fun _ next => Keeps saved next := by
  refine ends_bind (keeps_within (reseal_within _) (by simp)) ?_
  intro result middle keeps
  cases result with
  | error e => exact ends_done keeps
  | ok _ =>
      refine ends_bind (ends_writeKeys _) ?_
      rintro _ _ rfl
      apply ends_done
      refine ⟨keeps.flag, keeps.item, keeps.locked, fun opened => ?_⟩
      obtain ⟨opened', same⟩ := keeps.opened opened
      exact ⟨by simpa [KeySlots.setConfig] using opened', same⟩

theorem ends_savedConfig :
    Ends setup allowed task saved savedConfig fun result next =>
      next = saved ∧ (saved.keys.locked = true → ∃ e, result = .error e) := by
  refine ends_bind ends_readKeys ?_
  rintro _ saved ⟨rfl, rfl⟩
  split
  · exact ends_done ⟨rfl, fun _ => ⟨_, rfl⟩⟩
  next unlocked =>
  split
  · exact ends_done ⟨rfl, fun locked => absurd locked unlocked⟩
  · exact ends_done ⟨rfl, fun locked => absurd locked unlocked⟩

theorem honest_setting (change : Config → Config) :
    Ends setup allowed task saved
      (savedConfig >>= fun config => match config with
        | .error e => return .error e
        | .ok config => saveConfig setup (change config)) fun _ next => Honest setup saved next := by
  refine ends_bind ends_savedConfig ?_
  rintro result saved ⟨rfl, refused⟩
  cases result with
  | error e => exact ends_done (.refl _)
  | ok config =>
      refine ends_mono (keeps_saveConfig _) fun _ next keeps => keeps.honest ?_
      by_contra locked
      obtain ⟨e, same⟩ := refused (by simpa using locked)
      cases same

theorem honest_forgetPeer (fingerprint : Block fingerprintLen) :
    Ends setup allowed task saved (forgetPeer setup fingerprint) fun _ next => Honest setup saved next := by
  refine ends_bind ends_readKeys ?_
  rintro _ saved ⟨rfl, rfl⟩
  split
  · exact ends_done (.refl _)
  next unlocked =>
  refine ends_bind (ends_aside (by simp)) ?_
  rintro list saved rfl
  refine ends_bind (ends_aside (by simp)) ?_
  rintro removed saved rfl
  split
  · exact ends_done (.refl _)
  refine ends_bind ends_readKeys ?_
  rintro _ saved ⟨rfl, rfl⟩
  have resealed : Ends setup allowed task saved
      (if saved.keys.vault.isSome then reseal setup none else pure (.ok ())) fun _ next => Keeps saved next := by
    split
    · exact keeps_within (reseal_within _) (by simp)
    · exact ends_done (.refl _)
  refine ends_bind resealed fun result next keeps => ?_
  have honest : Honest setup saved next := keeps.honest (by simpa using unlocked)
  cases result with
  | error e =>
      refine ends_bind (ends_aside (by simp)) ?_
      rintro _ _ rfl
      exact ends_done honest
  | ok _ =>
      refine ends_bind (ends_within (removePeers_within removed) (by simp)) ?_
      rintro _ _ rfl
      exact ends_done honest

theorem keeps_createVault (identity : Option Identity) (config : Config) :
    Ends setup allowed task saved (createVault setup identity config) fun _ next => Keeps saved next := by
  unfold createVault
  split
  · exact ends_done (.refl _)
  refine ends_bind ends_readKeys ?_
  rintro _ saved ⟨rfl, rfl⟩
  split
  · refine ends_bind (ends_within encodedPeers_within (by simp)) ?_
    rintro encoded saved rfl
    cases encoded with
    | error e => exact ends_done (.refl _)
    | ok peers =>
        refine ends_bind (ends_within encodedAddresses_within (by simp)) ?_
        rintro addresses saved rfl
        refine ends_bind (ends_aside (by simp)) ?_
        rintro storageSalt saved rfl
        refine ends_bind (ends_aside (by simp)) ?_
        rintro dek saved rfl
        refine ends_bind (ends_aside (by simp)) ?_
        rintro wrapNonce saved rfl
        refine ends_bind (ends_aside (by simp)) ?_
        rintro seed saved rfl
        refine ends_bind (ends_aside (by simp)) ?_
        rintro nonce saved rfl
        split
        · exact ends_done (.refl _)
        refine ends_bind (ends_keychainSet _ _) ?_
        rintro reply _ (⟨rfl, rfl⟩ | ⟨failed, rfl⟩)
        · refine ends_bind (ends_writeFile _) ?_
          rintro reply _ (⟨rfl, rfl⟩ | ⟨failed, rfl⟩)
          · refine ends_mono (ends_writeKeys _) ?_
            rintro _ _ rfl
            exact ⟨rfl, rfl, rfl, fun _ => ⟨rfl, rfl⟩⟩
          · simp only [failed]
            exact ends_done ⟨rfl, rfl, rfl, fun opened => ⟨opened, rfl⟩⟩
        · simp only [failed]
          exact ends_done (.refl _)
  · exact ends_done (.refl _)

/-- A new data key takes the item with it, or the flag is cleared. -/
theorem honest_saveChangedKey (unlocked : saved.keys.locked = false) (opened : saved.keys.vault.isSome)
    (kind : KeyKind) (key : Block 32) :
    Ends setup allowed task saved (saveChangedKey setup kind key) fun result next =>
      next.keys.locked = false ∧ match result with
        | .error _ => Honest setup saved next
        | .ok () => Honest setup saved { next with keys := next.keys.setKey key kind } := by
  have refused : ∀ {e : DaemonError},
      Ends setup allowed task saved (pure (.error e) : Task (Except DaemonError Unit)) fun result next =>
        next.keys.locked = false ∧ match result with
          | .error _ => Honest setup saved next
          | .ok () => Honest setup saved { next with keys := next.keys.setKey key kind } :=
    ends_done ⟨unlocked, .refl _⟩
  unfold saveChangedKey
  split
  · next off =>
    refine ends_done ⟨unlocked, fun truthful set => ?_, fun removed => ?_⟩
    · have storage := (truthful (by simpa using set)).1
      simp [storage] at off
    · exact ⟨by simpa using removed.1, removed.2⟩
  next storage =>
  replace storage : setup.storage = true := by simpa using storage
  refine ends_bind (ends_within encodedPeers_within (by simp)) ?_
  rintro encoded saved rfl
  cases encoded with
  | error e => exact refused
  | ok peers =>
      refine ends_bind (ends_within encodedAddresses_within (by simp)) ?_
      rintro addresses saved rfl
      refine ends_bind (ends_aside (by simp)) ?_
      rintro wrapNonce saved rfl
      refine ends_bind (ends_aside (by simp)) ?_
      rintro nonce saved rfl
      refine ends_bind ends_readKeys ?_
      rintro _ saved ⟨rfl, rfl⟩
      split
      · split
        · exact refused
        next aKey wrapped changed =>
        split
        · exact refused
        next file made =>
        refine ends_bind (ends_writeFile file) ?_
        rintro reply _ (⟨rfl, rfl⟩ | ⟨failed, rfl⟩)
        · cases kind with
          | auth =>
              have keeps : Keeps saved ⟨saved.keys.setKey key .auth, some file, saved.keychain⟩ :=
                ⟨rfl, rfl, rfl, fun opened => ⟨opened, rfl⟩⟩
              exact ends_done ⟨unlocked, keeps.honest unlocked⟩
          | data =>
              refine ends_bind (ends_writeKeys _) ?_
              rintro _ _ rfl
              split
              · next set =>
                -- the flag is set: the item follows the key, or the flag goes
                have present : ¬ Removed saved := fun removed => by simp [removed.1] at set
                refine ends_bind (ends_keychainSet _ _) ?_
                rintro reply _ (⟨rfl, rfl⟩ | ⟨failed, rfl⟩)
                · refine ends_done ⟨unlocked, fun _ _ => ?_, fun removed => absurd removed present⟩
                  refine ⟨storage, .inr ⟨unlocked, ?_, key, rfl, by simp⟩⟩
                  simpa [KeySlots.setKey, KeySlots.setWrapped] using opened
                · simp only [failed]
                  refine ends_bind (ends_keychainDelete _) ?_
                  rintro reply deleted stored
                  have kept : deleted.keys = saved.keys.setWrapped wrapped := by
                    rcases stored with ⟨-, rfl⟩ | ⟨-, rfl⟩ <;> rfl
                  refine ends_bind (ends_writeKeys _) ?_
                  rintro _ _ rfl
                  refine ends_done ⟨?_, fun _ => truthful_of_clear rfl, fun removed => absurd removed present⟩
                  simpa [kept] using unlocked
              · next clear =>
                have off : saved.keys.autoLogin = false := by simpa using clear
                exact ends_done ⟨unlocked, fun _ => truthful_of_clear off, fun removed => ⟨off, removed.2⟩⟩
        · cases reply <;> simp [Call.isOk] at failed <;> exact refused
      · exact refused

theorem honest_changed (unlocked : saved.keys.locked = false) (kind : KeyKind) (key : Block 32) :
    Ends setup allowed task saved (if saved.keys.vault.isSome then saveChangedKey setup kind key else pure (.ok ()))
      fun result next => next.keys.locked = false ∧ match result with
        | .error _ => Honest setup saved next
        | .ok () => Honest setup saved { next with keys := next.keys.setKey key kind } := by
  split
  · next opened => exact honest_saveChangedKey unlocked opened kind key
  · next closed =>
    have keeps : Keeps saved { saved with keys := saved.keys.setKey key kind } :=
      ⟨by simp, rfl, by simp, fun opened => absurd opened closed⟩
    exact ends_done ⟨unlocked, keeps.honest unlocked⟩

theorem honest_setPassword (kind : KeyKind) (password : Bytes) :
    Ends setup allowed task saved (setPassword setup kind password) fun _ next => Honest setup saved next := by
  unfold setPassword
  split
  · exact ends_done (.refl _)
  refine ends_bind ends_readKeys ?_
  rintro _ saved ⟨rfl, rfl⟩
  split
  · exact ends_done (.refl _)
  next unlocked =>
  replace unlocked : saved.keys.locked = false := by simpa using unlocked
  refine ends_bind (ends_aside (by simp)) ?_
  rintro fresh saved rfl
  refine ends_bind (ends_saltFor kind fresh) ?_
  intro salt salted drawn
  have keeps : Keeps saved salted := by
    rcases drawn with rfl | ⟨salt, rfl⟩
    · exact .refl _
    · cases kind <;> exact ⟨rfl, rfl, rfl, fun opened => ⟨opened, rfl⟩⟩
  have unlocked' : salted.keys.locked = false := keeps.locked.trans unlocked
  have honest : Honest setup saved salted := keeps.honest unlocked
  cases salt with
  | none => exact ends_done honest
  | some salt =>
      refine ends_bind (ends_within (derive_within password salt) (by simp)) ?_
      rintro derived salted rfl
      cases derived with
      | error e => exact ends_done honest
      | ok key =>
          refine ends_bind ends_readKeys ?_
          rintro _ salted ⟨rfl, rfl⟩
          refine ends_bind (honest_changed unlocked' kind key) ?_
          rintro result next ⟨unlocked'', changed⟩
          cases result with
          | error e => exact ends_done (honest.trans changed)
          | ok _ =>
              refine ends_bind (ends_writeKeys _) ?_
              rintro _ _ rfl
              refine ends_bind (ends_within updateNetworkKeys_within (by simp)) ?_
              rintro _ next rfl
              refine ends_bind ends_readKeys ?_
              rintro _ next ⟨rfl, rfl⟩
              split
              · refine ends_bind (keeps_createVault none {}) fun _ last keeps => ?_
                exact ends_done ((honest.trans changed).trans (keeps.honest (by simpa using unlocked'')))
              · exact ends_done (honest.trans changed)

/-- The vault was opened with this key; the flag and what is stored are as they were. -/
structure Unlocked (setup : Setup) (saved : Saved) (dKey : DataKey) (next : Saved) : Prop where
  storage : setup.storage = true
  opens : Opens setup saved.file saved.keychain dKey
  stored : next.file = saved.file ∧ next.keychain = saved.keychain
  flag : next.keys.autoLogin = saved.keys.autoLogin
  unlocked : next.keys.locked = false
  opened : next.keys.vault.isSome
  key : next.keys.dKey = some dKey

theorem ends_unlocked (dKey : DataKey) :
    Ends setup allowed task saved (unlockWith setup dKey) fun result next =>
      (result ≠ .ok () ∧ next = saved) ∨ (result = .ok () ∧ Unlocked setup saved dKey next) := by
  have refused : ∀ {e : DaemonError},
      Ends setup allowed task saved (pure (.error e) : Task (Except DaemonError Unit)) fun result next =>
        (result ≠ .ok () ∧ next = saved) ∨ (result = .ok () ∧ Unlocked setup saved dKey next) :=
    ends_done (.inl ⟨(by simp), rfl⟩)
  unfold unlockWith
  split
  · exact refused
  next storage =>
  refine ends_bind (ends_keychainGet .salts) ?_
  rintro reply saved ⟨rfl, read⟩
  split
  · exact refused
  · next bytes =>
    have kept : some bytes = saved.keychain .salts := read _ rfl
    split
    · exact refused
    next salts parsed =>
    refine ends_bind ends_readFile ?_
    rintro reply saved ⟨rfl, answered⟩
    split
    · exact refused
    · exact refused
    next file found =>
    rw [found] at answered
    split
    · exact refused
    next kek derived =>
    split
    · exact refused
    next opened opens =>
    split
    · exact refused
    split
    · exact refused
    refine ends_bind (ends_aside (by simp)) ?_
    rintro list saved rfl
    refine ends_bind (ends_aside (by simp)) ?_
    rintro _ saved rfl
    refine ends_bind (ends_aside (by simp)) ?_
    rintro _ saved rfl
    refine ends_bind (ends_writeKeys _) ?_
    rintro _ _ rfl
    refine ends_done (.inr ⟨rfl, by simpa using storage, ?_, ⟨rfl, rfl⟩, rfl, rfl, rfl, rfl⟩)
    exact ⟨salts, file, kek, opened, by rw [← kept]; exact parsed, answered.symm, derived, opens⟩
  · exact refused

/-- A flag that was set for the vault's own key is true once the vault is open. -/
theorem Unlocked.honest {dKey : DataKey} (unlocked : Unlocked setup saved dKey next)
    (locked : saved.keys.locked = true) : Honest setup saved next := by
  obtain ⟨storage, opens, ⟨-, keychain⟩, flag, unlocked, opened, key⟩ := unlocked
  constructor
  · intro truthful set
    obtain ⟨-, ⟨-, -, present, genuine⟩ | ⟨other, -⟩⟩ := truthful (flag.symm.trans set)
    · obtain ⟨bytes, item⟩ := Option.isSome_iff_exists.mp present
      refine ⟨storage, .inr ⟨unlocked, opened, dKey, key, ?_⟩⟩
      rw [keychain, item, genuine bytes dKey item opens]
    · rw [locked] at other
      cases other
  · rintro ⟨clear, absent⟩
    exact ⟨flag.trans clear, by rw [keychain]; exact absent⟩

@[simp] theorem autoLogin_countUnlock (result : Except DaemonError Unit) (now : Instant) (keys : KeySlots) :
    (countUnlock result now keys).autoLogin = keys.autoLogin ∧ (countUnlock result now keys).locked = keys.locked ∧
      (countUnlock result now keys).vault = keys.vault ∧ (countUnlock result now keys).dKey = keys.dKey := by
  unfold countUnlock
  split <;> exact ⟨rfl, rfl, rfl, rfl⟩

theorem honest_countUnlock (result : Except DaemonError Unit) (now : Instant) :
    Honest setup saved { saved with keys := countUnlock result now saved.keys } := by
  obtain ⟨flag, locked, vault, key⟩ := autoLogin_countUnlock result now saved.keys
  constructor
  · intro truthful
    simpa only [Truthful, flag, locked, vault, key] using truthful
  · intro removed
    exact ⟨flag.trans removed.1, removed.2⟩

theorem honest_unlock (password : Bytes) :
    Ends setup allowed task saved (unlock setup password) fun _ next => Honest setup saved next := by
  unfold unlock
  split
  · exact ends_done (.refl _)
  refine ends_bind ends_readKeys ?_
  rintro _ saved ⟨rfl, rfl⟩
  refine ends_bind (ends_aside (by simp)) ?_
  rintro now saved rfl
  split
  · exact ends_done (.refl _)
  next locked =>
  split
  · exact ends_done (.refl _)
  refine ends_bind (ends_keychainGet .salts) ?_
  rintro reply saved ⟨rfl, -⟩
  split
  · exact ends_done (.refl _)
  · split
    · exact ends_done (.refl _)
    next salts _ =>
    refine ends_bind (ends_within (derive_within password salts.dSalt) (by simp)) ?_
    rintro derived saved rfl
    cases derived with
    | error e => exact ends_done (.refl _)
    | ok dKey =>
        refine ends_bind (ends_unlocked dKey) ?_
        intro result next opening
        have honest : Honest setup saved next := by
          rcases opening with ⟨-, rfl⟩ | ⟨-, unlocked⟩
          · exact .refl _
          · exact unlocked.honest (by simpa using locked)
        refine ends_bind (ends_aside (by simp)) ?_
        rintro now next rfl
        refine ends_bind (ends_writeKeys _) ?_
        rintro _ _ rfl
        exact ends_done (honest.trans (honest_countUnlock result now))
  · exact ends_done (.refl _)

/-- A reset clears the flag, and never puts an item back. -/
theorem honest_resetDevice :
    Ends setup allowed task saved (resetDevice setup) fun _ next => Honest setup saved next := by
  have deleted : Ends setup allowed task saved
      (if setup.storage then do return (← await .deleteFile).result storageError else pure (.ok ()))
      fun result next => next.keychain = saved.keychain ∧ ((∃ e, result = .error e) → next = saved) := by
    split
    · refine ends_bind ends_deleteFile ?_
      rintro reply _ (⟨rfl, rfl⟩ | ⟨-, rfl⟩)
      · exact ends_done ⟨rfl, fun failed => by obtain ⟨_, same⟩ := failed; cases same⟩
      · exact ends_done ⟨rfl, fun _ => rfl⟩
    · exact ends_done ⟨rfl, fun _ => rfl⟩
  have wiped : ∀ {file} {keychain : Item → Option Bytes}, (saved.keychain .dataKey = none → keychain .dataKey = none) →
      Honest setup saved ⟨{}, file, keychain⟩ :=
    fun absent => ⟨fun _ => truthful_of_clear rfl, fun removed => ⟨rfl, absent removed.2⟩⟩
  refine ends_bind (ends_aside (by simp)) ?_
  rintro _ saved rfl
  refine ends_bind (ends_within cancelJoin_within (by simp)) ?_
  rintro _ saved rfl
  refine ends_bind (ends_within stopNetwork_within (by simp)) ?_
  rintro _ saved rfl
  refine ends_bind deleted ?_
  rintro result next ⟨same, failed⟩
  cases result with
  | error e =>
      cases failed ⟨e, rfl⟩
      exact ends_done (.refl _)
  | ok _ =>
      refine ends_bind ends_wipeKeys ?_
      rintro _ _ rfl
      refine ends_bind (ends_aside (by simp)) ?_
      rintro _ _ rfl
      refine ends_bind (ends_aside (by simp)) ?_
      rintro _ _ rfl
      refine ends_bind (ends_aside (by simp)) ?_
      rintro _ _ rfl
      split
      · refine ends_bind (ends_keychainDelete .salts) ?_
        rintro reply _ (⟨rfl, rfl⟩ | ⟨failed, rfl⟩)
        · refine ends_bind (ends_keychainDelete .dataKey) ?_
          rintro reply _ (⟨rfl, rfl⟩ | ⟨failed, rfl⟩)
          · exact ends_done (wiped fun _ => by simp)
          · simp only [failed]
            exact ends_done (wiped fun absent => by simpa [same] using absent)
        · simp only [failed]
          exact ends_done (wiped fun absent => by simpa [same] using absent)
      · exact ends_done (wiped fun absent => by simpa [same] using absent)

theorem ends_setAutoLogin (on : Bool) :
    Ends setup allowed task saved (setAutoLogin setup on) fun result next =>
      (Truthful setup saved → Truthful setup next) ∧ (∀ e, result = .error e → Removed saved → Removed next) ∧
        (on = false → result = .ok () → Removed next) := by
  have refused : ∀ {e : DaemonError},
      Ends setup allowed task saved (pure (.error e) : Task (Except DaemonError Unit)) fun result next =>
        (Truthful setup saved → Truthful setup next) ∧ (∀ e, result = .error e → Removed saved → Removed next) ∧
          (on = false → result = .ok () → Removed next) :=
    ends_done ⟨id, fun _ _ => id, (by simp)⟩
  unfold setAutoLogin
  split
  · exact refused
  next storage =>
  refine ends_bind ends_readKeys ?_
  rintro _ saved ⟨rfl, rfl⟩
  split
  · exact refused
  next unlocked =>
  split
  · exact refused
  next closed =>
  split
  · exact refused
  next dKey key =>
  cases on with
  | true =>
      refine ends_bind (ends_keychainSet .dataKey dKey.toList) ?_
      rintro reply _ (⟨rfl, rfl⟩ | ⟨failed, rfl⟩)
      · refine ends_bind (ends_writeKeys _) ?_
        rintro _ _ rfl
        refine ends_done ⟨fun _ _ => ?_, by simp, by simp⟩
        refine ⟨by simpa using storage, .inr ⟨by simpa using unlocked, ?_, dKey, key, by simp⟩⟩
        simpa [Option.isSome_iff_ne_none] using closed
      · cases reply <;> simp [Call.isOk] at failed <;> exact refused
  | false =>
      refine ends_bind (ends_keychainDelete .dataKey) ?_
      rintro reply _ (⟨rfl, rfl⟩ | ⟨failed, rfl⟩)
      · refine ends_bind (ends_writeKeys _) ?_
        rintro _ _ rfl
        have removed : Removed ⟨{ saved.keys with autoLogin := false }, saved.file,
            Function.update saved.keychain .dataKey none⟩ := ⟨rfl, by simp⟩
        exact ends_done ⟨fun _ => truthful_of_clear rfl, fun _ _ _ => removed, fun _ _ => removed⟩
      · cases reply <;> simp [Call.isOk] at failed <;> exact refused

theorem honest_commitJoin (joined : Joined) (identity : Identity) (resets : Nat) :
    Ends setup allowed task saved (commitJoin setup joined identity resets) fun _ next => Honest setup saved next := by
  refine ends_bind (ends_aside (by simp)) ?_
  rintro _ saved rfl
  refine ends_bind (ends_aside (by simp)) ?_
  rintro current saved rfl
  split
  · refine ends_bind (ends_aside (by simp)) ?_
    rintro _ saved rfl
    exact ends_done (.refl _)
  refine ends_bind ends_readKeys ?_
  rintro _ saved ⟨rfl, rfl⟩
  split
  · refine ends_bind (ends_aside (by simp)) ?_
    rintro _ saved rfl
    exact ends_done (.refl _)
  next fresh =>
  obtain ⟨unlocked, closed, -⟩ := KeySlots.fresh_iff.mp (by simpa using fresh)
  refine ends_bind (ends_writeKeys _) ?_
  rintro _ _ rfl
  refine ends_bind (ends_aside (by simp)) ?_
  rintro _ _ rfl
  refine ends_bind (ends_aside (by simp)) ?_
  rintro list _ rfl
  refine ends_bind (ends_aside (by simp)) ?_
  rintro _ _ rfl
  refine ends_bind (keeps_createVault _ _) ?_
  intro _ next created
  have keeps : Keeps saved next := by
    refine Keeps.trans ?_ created
    exact ⟨rfl, rfl, rfl, fun opened => by simp [closed] at opened⟩
  refine ends_bind ends_readKeys ?_
  rintro _ next ⟨rfl, rfl⟩
  refine ends_bind (ends_aside (by simp)) ?_
  rintro _ next rfl
  refine ends_bind (ends_within applyNetwork_within (by simp)) ?_
  rintro _ next rfl
  exact ends_done (keeps.honest unlocked)

/-! ## The login at a start -/

def unfailing (_ : Op) (outcome : Outcome) (state : State) : Bool := !(state.keys.autoLogin && outcome.fails)

def keyless (op : Op) (outcome : Outcome) (_ : State) : Bool :=
  match op with
  | .keychainGet .dataKey => outcome.fails
  | _ => true

def Rejected (setup : Setup) (file : Option Bytes) (keychain : Item → Option Bytes) : Prop :=
  ∃ (dKey : DataKey) (salts : Salts) (bytes : Bytes) (kek : Kek), keychain .dataKey = some dKey.toList ∧
    (keychain .salts).bind Salts.fromBytes = some salts ∧ file = some bytes ∧
    deriveKek setup.crypto dKey salts.storageSalt = .ok kek ∧
    openVault setup.crypto.aead kek bytes = .error .wrongKey

/-- A start leaves the flag clear, or it has set it for the item it found: with the vault
opened by that item, or still locked. -/
theorem ends_start_flag (empty : saved.keys = {}) :
    Ends setup allowed task saved (start setup) fun _ next =>
      (next.keys.autoLogin = false ∧ (saved.keychain .dataKey = none → next.keychain .dataKey = none)) ∨
      (setup.storage = true ∧ (saved.keychain .dataKey).isSome ∧ next = ⟨{ locked := true, autoLogin := true },
        saved.file, saved.keychain⟩) ∨
      (setup.storage = true ∧ next.keys.locked = false ∧ next.keys.vault.isSome ∧
        ∃ dKey : DataKey, saved.keychain .dataKey = some dKey.toList ∧ next.keychain = saved.keychain ∧
          next.keys.dKey = some dKey) := by
  unfold start
  split
  · exact ends_done (.inl ⟨by rw [empty], id⟩)
  next storage =>
  replace storage : setup.storage = true := by simpa using storage
  refine ends_bind ends_readFile ?_
  rintro reply saved ⟨rfl, -⟩
  split
  · exact ends_done (.inl ⟨by rw [empty], id⟩)
  refine ends_bind (ends_writeKeys _) ?_
  rintro _ _ rfl
  refine ends_bind (ends_keychainGet .dataKey) ?_
  rintro reply _ ⟨rfl, read⟩
  split
  · next bytes =>
    have item : some bytes = saved.keychain .dataKey := read _ rfl
    refine ends_bind (ends_writeKeys _) ?_
    rintro _ _ rfl
    have flagged : ∀ {A : Type} {value : A}, Ends setup allowed task
        ⟨{ { saved.keys with locked := true } with autoLogin := true }, saved.file, saved.keychain⟩ (.done value)
        fun _ next => setup.storage = true ∧ (saved.keychain .dataKey).isSome ∧
          next = ⟨{ locked := true, autoLogin := true }, saved.file, saved.keychain⟩ :=
      ends_done ⟨storage, by simp [← item], by rw [empty]⟩
    split
    · exact ends_mono flagged fun _ _ set => .inr (.inl set)
    next dKey size =>
    refine ends_bind (ends_unlocked dKey) ?_
    rintro result next opening
    split
    · rcases opening with ⟨wrong, -⟩ | ⟨-, opened⟩
      · exact absurd rfl wrong
      refine ends_mono (ends_within applyNetwork_within (by simp)) ?_
      rintro _ _ rfl
      refine .inr (.inr ⟨storage, opened.unlocked, opened.opened, dKey, ?_, opened.stored.2, opened.key⟩)
      rw [← item, toBlock_eq_some.mp size]
    · rcases opening with ⟨-, rfl⟩ | ⟨wrong, -⟩
      · refine ends_bind (ends_keychainDelete .dataKey) ?_
        rintro reply _ (⟨rfl, rfl⟩ | ⟨failed, rfl⟩)
        · refine ends_mono (ends_writeKeys _) ?_
          rintro _ _ rfl
          exact .inl ⟨rfl, fun _ => by simp⟩
        · simp only [failed]
          exact ends_mono flagged fun _ _ set => .inr (.inl set)
      · cases wrong
    · next other =>
      rcases opening with ⟨-, rfl⟩ | ⟨right, -⟩
      · exact ends_mono flagged fun _ _ set => .inr (.inl set)
      · cases right
  · exact ends_done (.inl ⟨by rw [empty], id⟩)

def Sure (allowed : Op → Outcome → State → Bool) (saved : Saved) : Prop :=
  ∀ op outcome state, State.saved state = saved → allowed op outcome state = true → outcome.fails = false

theorem sure_unfailing (set : saved.keys.autoLogin = true) : Sure unfailing saved := by
  rintro op outcome state rfl possible
  have flag : state.keys.autoLogin = true := set
  simpa [unfailing, flag] using possible

theorem Outcome.call_sure {E A : Type} {outcome : Outcome} {error : VaultErrors → E} {value : A}
    (sure : outcome.fails = false) : outcome.call error value = .ok value := by
  cases outcome <;> first | rfl | cases sure

theorem sure_keychainGet (sure : Sure allowed saved) (item : Item) :
    Ends setup allowed task saved (await (.keychainGet item)) fun reply next =>
      next = saved ∧ reply = .ok (saved.keychain item) := by
  apply ends_call
  rintro before outcome reply after rfl possible executed
  cases executed
  exact ⟨rfl, Outcome.call_sure (sure _ _ _ rfl possible)⟩

theorem sure_readFile (sure : Sure allowed saved) :
    Ends setup allowed task saved (await .readFile) fun reply next => next = saved ∧ reply = .ok saved.file := by
  apply ends_call
  rintro before outcome reply after rfl possible executed
  cases executed
  exact ⟨rfl, Outcome.call_sure (sure _ _ _ rfl possible)⟩

theorem sure_keychainDelete (sure : Sure allowed saved) (item : Item) :
    Ends setup allowed task saved (await (.keychainDelete item)) fun reply _ => reply.isOk := by
  apply ends_call
  rintro before outcome reply after rfl possible executed
  obtain ⟨works, -⟩ := stored_sure executed (sure _ _ _ rfl possible)
  rw [works]
  rfl

theorem sure_keychainSet (sure : Sure allowed saved) (item : Item) (bytes : Bytes) :
    Ends setup allowed task saved (await (.keychainSet item bytes)) fun reply next =>
      reply = .ok () ∧ next = { saved with keychain := Function.update saved.keychain item (some bytes) } := by
  apply ends_call
  rintro before outcome reply after rfl possible executed
  exact stored_sure executed (sure _ _ _ rfl possible)

theorem sure_unlockWith (sure : Sure allowed saved) {dKey : DataKey} {salts : Salts} {bytes : Bytes} {kek : Kek}
    (storage : setup.storage = true) (known : (saved.keychain .salts).bind Salts.fromBytes = some salts)
    (stored : saved.file = some bytes) (derived : deriveKek setup.crypto dKey salts.storageSalt = .ok kek)
    (wrong : openVault setup.crypto.aead kek bytes = .error .wrongKey) :
    Ends setup allowed task saved (unlockWith setup dKey) fun result next =>
      result = .error .wrongPassword ∧ next = saved := by
  unfold unlockWith
  rw [if_neg (by simp [storage])]
  refine ends_bind (sure_keychainGet sure .salts) ?_
  rintro _ saved ⟨rfl, rfl⟩
  obtain ⟨content, item, parsed⟩ := Option.bind_eq_some_iff.mp known
  simp only [item, parsed]
  refine ends_bind (sure_readFile sure) ?_
  rintro _ saved ⟨rfl, rfl⟩
  simp only [Call.result, stored, derived, wrong, storageError]
  exact ends_done ⟨rfl, rfl⟩

theorem ends_start_rejected (empty : saved.keys = {}) (rejected : Rejected setup saved.file saved.keychain) :
    Ends setup unfailing task saved (start setup) fun _ next => next.keys.autoLogin = false := by
  obtain ⟨dKey, salts, bytes, kek, item, known, stored, derived, wrong⟩ := rejected
  unfold start
  split
  · exact ends_done (by rw [empty])
  next storage =>
  replace storage : setup.storage = true := by simpa using storage
  refine ends_bind ends_readFile ?_
  rintro reply saved ⟨rfl, -⟩
  split
  · exact ends_done (by rw [empty])
  refine ends_bind (ends_writeKeys _) ?_
  rintro _ _ rfl
  refine ends_bind (ends_keychainGet .dataKey) ?_
  rintro reply _ ⟨rfl, read⟩
  split
  · next bytes =>
    refine ends_bind (ends_writeKeys _) ?_
    rintro _ _ rfl
    cases (read _ rfl).trans item
    rw [toBlock_toList]
    refine ends_bind (sure_unlockWith (sure_unfailing rfl) storage ?_ ?_ derived wrong) ?_
    · exact known
    · exact stored
    rintro _ _ ⟨rfl, rfl⟩
    refine ends_bind (sure_keychainDelete (sure_unfailing rfl) .dataKey) ?_
    intro reply next works
    simp only [works]
    refine ends_mono (ends_writeKeys _) ?_
    rintro _ _ rfl
    rfl
  · exact ends_done (by rw [empty])

theorem ends_start_keyless (empty : saved.keys = {}) :
    Ends setup keyless task saved (start setup) fun _ next => next.keys.autoLogin = false := by
  have refused : ∀ {saved : Saved}, Ends setup keyless task saved (await (.keychainGet .dataKey)) fun reply next =>
      next = saved ∧ ∀ value, reply ≠ .ok value := by
    intro saved
    apply ends_call
    rintro before outcome reply after rfl possible executed
    cases executed
    refine ⟨rfl, fun value answered => ?_⟩
    cases outcome with
    | lost => cases answered
    | failed e => cases answered
    | done | drawn _ | «at» _ => cases possible
  unfold start
  split
  · exact ends_done (by rw [empty])
  refine ends_bind ends_readFile ?_
  rintro reply saved ⟨rfl, -⟩
  split
  · exact ends_done (by rw [empty])
  refine ends_bind (ends_writeKeys _) ?_
  rintro _ _ rfl
  refine ends_bind refused ?_
  rintro reply _ ⟨rfl, unread⟩
  split
  · exact absurd rfl (unread _)
  · exact ends_done (by rw [empty])

/-! ## Whole lives -/

inductive Operation where
  | start
  | request (request : Request)
  | commitJoin (joined : Joined) (identity : Identity) (resets : Nat)

/-- One operation from its beginning to its result. A start has a new daemon over what is stored. -/
inductive Operates (setup : Setup) : State → Operation → Except DaemonError Unit → State → Prop where
  | start {task : Nat} {before after : State} :
      Executes (machine setup) task Beside (start setup) (new before.file before.keychain) () after →
      Operates setup before .start (.ok ()) after
  | request {task : Nat} {request : Request} {before after : State} {result : Except DaemonError Unit} :
      Executes (machine setup) task Beside (performRequest setup request) before result after →
      Operates setup before (.request request) result after
  | commitJoin {task : Nat} {joined : Joined} {identity : Identity} {resets : Nat} {before after : State}
      {result : Except DaemonError Unit} :
      Executes (machine setup) task Beside (commitJoin setup joined identity resets) before result after →
      Operates setup before (.commitJoin joined identity resets) result after

/-- Automatic login was switched off, and not on again since. -/
def switchedOff (off : Bool) : Operation → Except DaemonError Unit → Bool
  | .request (.setAutoLogin on), .ok () => !on
  | _, _ => off

/-- The starts that do not leave a stale key behind a set flag. -/
inductive StartsClean (setup : Setup) (before after : State) : Prop where
  /-- A stored login key is the vault's. -/
  | genuine : Genuine setup before.file before.keychain → StartsClean setup before after
  /-- It is turned down, and no call fails from then on. -/
  | removed {task : Nat} : Rejected setup before.file before.keychain →
      Executes ((machine setup).restrict unfailing) task Beside (start setup) (new before.file before.keychain) ()
        after → StartsClean setup before after
  /-- It is not given away. -/
  | unread {task : Nat} :
      Executes ((machine setup).restrict keyless) task Beside (start setup) (new before.file before.keychain) ()
        after → StartsClean setup before after

/-- A device over any file and any keychain, its starts subject to `starts`. -/
inductive Lives (setup : Setup) (starts : State → State → Prop) : State → Bool → Prop where
  | found (file : Option Bytes) (keychain : Item → Option Bytes) : Lives setup starts (new file keychain) false
  | operates {before after : State} {off : Bool} {operation : Operation} {result : Except DaemonError Unit} :
      Lives setup starts before off → Operates setup before operation result after →
      (operation = .start → starts before after) → Lives setup starts after (switchedOff off operation result)

theorem ends_performRequest (request : Request) :
    Ends setup allowed task saved (performRequest setup request) fun result next =>
      (Truthful setup saved → Truthful setup next) ∧
      (∀ off, (off = true → Removed saved) →
        switchedOff off (.request request) result = true → Removed next) := by
  have honest : ∀ {result : Except DaemonError Unit} {next : Saved},
      (∀ off, switchedOff off (.request request) result = off) → Honest setup saved next →
      (Truthful setup saved → Truthful setup next) ∧
        (∀ off, (off = true → Removed saved) → switchedOff off (.request request) result = true → Removed next) :=
    fun same holds => ⟨holds.1, fun off removed set => holds.2 (removed (by rwa [same] at set))⟩
  cases request with
  | setAuthPassword password => exact ends_mono (honest_setPassword .auth password) fun _ _ => honest fun _ => rfl
  | setDataPassword password => exact ends_mono (honest_setPassword .data password) fun _ _ => honest fun _ => rfl
  | unlock password => exact ends_mono (honest_unlock password) fun _ _ => honest fun _ => rfl
  | setSync on =>
      exact ends_mono (honest_setting fun config => { config with sync := on }) fun _ _ => honest fun _ => rfl
  | setClipboard on =>
      have clipboard : Ends setup allowed task saved (setClipboard setup on) fun _ next => Honest setup saved next := by
        unfold setClipboard
        split
        · exact ends_done (.refl _)
        · exact honest_setting fun config => { config with clipboard := on }
      exact ends_mono clipboard fun _ _ => honest fun _ => rfl
  | forgetPeer fingerprint => exact ends_mono (honest_forgetPeer fingerprint) fun _ _ => honest fun _ => rfl
  | resetDevice => exact ends_mono honest_resetDevice fun _ _ => honest fun _ => rfl
  | setAutoLogin on =>
      refine ends_mono (ends_setAutoLogin on) ?_
      rintro result next ⟨truthful, kept, removed⟩
      refine ⟨truthful, fun off before set => ?_⟩
      cases result with
      | error e => exact kept e rfl (before set)
      | ok _ =>
          cases on with
          | true => cases set
          | false => exact removed rfl rfl

theorem Lives.truthful {state : State} {off : Bool} (life : Lives setup (StartsClean setup) state off) :
    Truthful setup state.saved := by
  induction life with
  | found file keychain => exact truthful_of_clear rfl
  | @operates before after off operation result _ operates clean truthful =>
      cases operates with
      | request execution => exact ((ends_performRequest _).executes execution).1 truthful
      | commitJoin execution => exact ((honest_commitJoin _ _ _).executes execution).1 truthful
      | start execution =>
          rcases clean rfl with genuine | ⟨rejected, removal⟩ | unread
          · rcases (ends_start_flag rfl).executes execution with ⟨clear, -⟩ | ⟨storage, present, same⟩ |
              ⟨storage, unlocked, opened, dKey, item, keychain, key⟩
            · exact truthful_of_clear clear
            · rw [same]
              exact fun _ => ⟨storage, .inl ⟨rfl, rfl, present, genuine⟩⟩
            · refine fun _ => ⟨storage, .inr ⟨unlocked, opened, dKey, key, ?_⟩⟩
              rw [keychain]
              exact item
          · exact truthful_of_clear (ends_start_rejected rfl rejected _ _ _ rfl removal)
          · exact truthful_of_clear (ends_start_keyless rfl _ _ _ rfl unread)

theorem Lives.removed {starts : State → State → Prop} {state : State} {off : Bool}
    (life : Lives setup starts state off) : off = true → Removed state.saved := by
  induction life with
  | found file keychain =>
      intro set
      cases set
  | @operates before after off operation result _ operates _ removed =>
      intro set
      cases operates with
      | request execution => exact ((ends_performRequest _).executes execution).2 off removed set
      | commitJoin execution => exact ((honest_commitJoin _ _ _).executes execution).2 (removed set)
      | start execution =>
          have absent := (removed set).2
          rcases (ends_start_flag rfl).executes execution with ⟨clear, none⟩ | ⟨-, present, -⟩ |
            ⟨-, -, -, dKey, item, -⟩
          · exact ⟨clear, none absent⟩
          · simp only [new, State.saved] at present absent
            rw [absent] at present
            cases present
          · simp only [new, State.saved] at item absent
            rw [absent] at item
            cases item

/-- Where every start is clean, the flag is true exactly of the key in the keychain; and a login
that was switched off leaves nothing there, whatever the starts do. -/
theorem auto_login_tells_the_truth :
    (∀ state off, Lives setup (StartsClean setup) state off → state.keys.vault.isSome →
      state.keys.autoLogin = true → ∃ dKey : DataKey, state.keys.dKey = some dKey ∧
        state.keychain .dataKey = some dKey.toList) ∧
    ∀ state, Lives setup (fun _ _ => True) state true → state.keys.vault.isSome → state.keys.autoLogin = false →
      state.keychain .dataKey = none := by
  constructor
  · intro state off life opened set
    obtain ⟨-, ⟨-, closed, -⟩ | ⟨-, -, key⟩⟩ := life.truthful set
    · have none : state.keys.vault = none := closed
      rw [none] at opened
      cases opened
    · exact key
  · intro state life _ _
    exact (life.removed rfl).2

/-! ## A device whose login key is stale -/

def reliable (_ : Op) (outcome : Outcome) (_ : State) : Bool := !outcome.fails

theorem sure_reliable (saved : Saved) : Sure reliable saved := by
  intro op outcome state _ possible
  simpa [reliable] using possible

theorem executes_reliable {A : Type} {program : Task A} (inner : program.All Op.Inner) {post : A → Saved → Prop}
    {before : State} (ends : Ends setup reliable 0 before.saved program post) : ∃ value after,
    Executes (machine setup) 0 Beside program before value after ∧ post value after.saved := by
  have total : ∀ op, Op.Inner op → ∀ state, ∃ outcome reply after,
      ((machine setup).restrict reliable).exec 0 op outcome state = some (reply, after) := by
    intro op inner state
    have free : op ≠ .acquire ∧ op ≠ .release := by
      constructor
      · rintro rfl
        exact inner
      · rintro rfl
        exact inner
    obtain ⟨⟨reply, after⟩, executed⟩ := Option.isSome_iff_exists.mp (exec_isSome setup 0 .done state free)
    exact ⟨.done, reply, after, (Machine.exec_restrict rfl).trans executed⟩
  obtain ⟨value, after, execution⟩ : ∃ value after,
      Executes ((machine setup).restrict reliable) 0 Beside program before value after :=
    Executes.exists inner total (fun _ => ⟨rfl, rfl⟩) before
  exact ⟨value, after, execution.of_restrict, ends before value after rfl execution⟩

def storedKeychain (login : Option Bytes) : Item → Option Bytes
  | .salts => some (Salts.toBytes ⟨.replicate 32 4, .replicate 32 7⟩)
  | .dataKey => login

structure StoredFile (file : Bytes) (opened : Opened) : Prop where
  opens : openVault .plain (.replicate 32 4) file = .ok opened
  peers : decodePeers opened.contents.peers = some []
  config : Config.decode opened.contents.config = some ({}, .empty)

theorem storedFile : ∃ file opened, StoredFile file opened := by
  obtain ⟨wrapped, wraps⟩ := wrapDek_ok Aead.plain_correct.expands Aead.plain_encrypts (.replicate 12 6) (.replicate 32 4)
    (.replicate 32 5)
  obtain ⟨_, file, -, seals, -⟩ := sealVault_ok Aead.plain_correct.expands Aead.plain_encrypts (.replicate 12 6) wrapped
    (.replicate 32 5) (show ({ smallContents with peers := [0, 0] } : VaultContents).config.length ≤ _ by decide)
    (by decide)
  refine ⟨file, _, openVault_sealVault Aead.plain_correct (unwraps_wrapDek Aead.plain_correct wraps) seals, ?_, rfl⟩
  show decodePeers [0, 0] = some []
  decide

theorem sure_opens {file : Bytes} {opened : Opened} {login : Option Bytes} (stored : StoredFile file opened)
    (onDisk : saved.file = some file) (keychain : saved.keychain = storedKeychain login) :
    Ends plainSetup reliable task saved (unlockWith plainSetup (.replicate 32 4)) fun result _ => result = .ok () := by
  have derived : deriveKek plainSetup.crypto (.replicate 32 4) (.replicate 32 7) = .ok (.replicate 32 4) := by decide
  have opens : openVault plainSetup.crypto.aead (.replicate 32 4) file = .ok opened := stored.opens
  unfold unlockWith
  rw [if_neg (by decide)]
  refine ends_bind (sure_keychainGet (sure_reliable _) .salts) ?_
  rintro _ saved ⟨rfl, rfl⟩
  simp only [keychain, storedKeychain, Salts.fromBytes_toBytes]
  refine ends_bind (sure_readFile (sure_reliable _)) ?_
  rintro _ saved ⟨rfl, rfl⟩
  simp only [Call.result, onDisk, derived, opens, stored.peers, stored.config]
  refine ends_bind (ends_aside (by simp)) ?_
  rintro list saved rfl
  refine ends_bind (ends_aside (by simp)) ?_
  rintro _ saved rfl
  refine ends_bind (ends_aside (by simp)) ?_
  rintro _ saved rfl
  refine ends_bind (ends_writeKeys _) ?_
  rintro _ _ rfl
  exact ends_done rfl

theorem sure_derive (sure : Sure allowed saved) {password : Bytes} {salt : Salt} {key : Block 32}
    (derived : setup.crypto.deriveKey password salt = some key) :
    Ends setup allowed task saved (derive password salt) fun reply next => next = saved ∧ reply = .ok key := by
  have called : Ends setup allowed task saved (await (.derive password salt)) fun reply next =>
      next = saved ∧ reply = .ok key := by
    apply ends_call
    rintro before outcome reply after rfl possible executed
    simp only [machine, exec, derived] at executed
    cases executed
    exact ⟨rfl, Outcome.call_sure (sure _ _ _ rfl possible)⟩
  refine ends_bind called ?_
  rintro _ saved ⟨rfl, rfl⟩
  exact ends_done ⟨rfl, rfl⟩

theorem sure_unlock {file : Bytes} {opened : Opened} {login : Option Bytes} (stored : StoredFile file opened)
    (onDisk : saved.file = some file) (keychain : saved.keychain = storedKeychain login)
    (locked : saved.keys.locked = true) (free : saved.keys.unlockNotBefore = none) :
    Ends plainSetup reliable task saved (unlock plainSetup []) fun _ next =>
      next.keys.vault.isSome ∧ next.keys.locked = false ∧ next.keys.autoLogin = saved.keys.autoLogin ∧
        next.keys.dKey = some (.replicate 32 4) ∧ next.keychain = storedKeychain login := by
  unfold unlock
  rw [if_neg (by decide)]
  refine ends_bind ends_readKeys ?_
  rintro _ saved ⟨rfl, rfl⟩
  refine ends_bind (ends_aside (by simp)) ?_
  rintro now saved rfl
  rw [if_neg (by simp [locked]), if_neg (by simp [free, waitSecs])]
  refine ends_bind (sure_keychainGet (sure_reliable _) .salts) ?_
  rintro _ saved ⟨rfl, rfl⟩
  simp only [keychain, storedKeychain, Salts.fromBytes_toBytes]
  refine ends_bind (sure_derive (sure_reliable _) rfl) ?_
  rintro _ saved ⟨rfl, rfl⟩
  have both : Ends plainSetup reliable task saved (unlockWith plainSetup (.replicate 32 4)) fun result next =>
      Unlocked plainSetup saved (.replicate 32 4) next := by
    intro state value last held execution
    rcases ends_unlocked _ state value last held execution with ⟨failed, -⟩ | ⟨-, unlocked⟩
    · exact absurd (sure_opens stored onDisk keychain state value last held execution) failed
    · exact unlocked
  refine ends_bind both fun result next unlocked => ?_
  refine ends_bind (ends_aside (by simp)) ?_
  rintro now next rfl
  refine ends_bind (ends_writeKeys _) ?_
  rintro _ _ rfl
  obtain ⟨flag, open_, vault, key⟩ := autoLogin_countUnlock result now next.keys
  refine ends_done ⟨?_, ?_, ?_, ?_, ?_⟩
  · rw [vault]
    exact unlocked.opened
  · exact open_.trans unlocked.unlocked
  · exact flag.trans unlocked.flag
  · exact key.trans unlocked.key
  · exact unlocked.stored.2.trans keychain

/-- A start that cannot use what is stored for the login leaves the device locked, the flag set
for whatever that is. -/
theorem sure_start {file : Bytes} {login : Option Bytes} (unusable : login.bind (toBlock 32) = none) :
    Ends plainSetup reliable task ⟨{}, some file, storedKeychain login⟩ (start plainSetup) fun _ next =>
      next = ⟨{ locked := true, autoLogin := login.isSome }, some file, storedKeychain login⟩ := by
  unfold start
  rw [if_neg (by decide)]
  refine ends_bind (sure_readFile (sure_reliable _)) ?_
  rintro _ _ ⟨rfl, rfl⟩
  refine ends_bind (ends_writeKeys _) ?_
  rintro _ _ rfl
  refine ends_bind (sure_keychainGet (sure_reliable _) .dataKey) ?_
  rintro _ _ ⟨rfl, rfl⟩
  cases login with
  | none => exact ends_done rfl
  | some bytes =>
      refine ends_bind (ends_writeKeys _) ?_
      rintro _ _ rfl
      have size : toBlock 32 bytes = none := unusable
      simp only [size]
      exact ends_done rfl

theorem lives_unlocked (starts : State → State → Prop) {login : Option Bytes}
    (unusable : login.bind (toBlock 32) = none)
    (clean : ∀ file keychain after, keychain = storedKeychain login → starts (new file keychain) after) :
    ∃ state, Lives plainSetup starts state false ∧ state.keys.vault.isSome ∧ state.keys.locked = false ∧
      state.keys.autoLogin = login.isSome ∧ state.keys.dKey = some (.replicate 32 4) ∧
      state.keychain = storedKeychain login := by
  obtain ⟨file, opened, stored⟩ := storedFile
  obtain ⟨_, started, starting, same⟩ := executes_reliable inner_start
    (show Ends plainSetup reliable 0 (new (some file) (storedKeychain login)).saved _ _ from sure_start unusable)
  have first : Lives plainSetup starts started false :=
    .operates (.found _ _) (.start starting) fun _ => clean _ _ _ rfl
  obtain ⟨result, unlocked, unlocking, opens, free, flag, key, keychain⟩ := executes_reliable (inner_unlock [])
    (show Ends plainSetup reliable 0 started.saved _ _ from
      sure_unlock stored (by rw [same]) (by rw [same]) (by rw [same]) (by rw [same]))
  have second : Operates plainSetup started (.request (.unlock [])) result unlocked := .request unlocking
  rw [same] at flag
  exact ⟨unlocked, .operates first second (by simp), opens, free, flag, key, keychain⟩

/-- Without a stored login key every start is clean; switching the login on then stores the right one. -/
theorem auto_login_switched_on : ∃ state, Lives plainSetup (StartsClean plainSetup) state false ∧
    state.keys.autoLogin = true ∧ ∃ dKey : DataKey, state.keys.dKey = some dKey ∧
      state.keychain .dataKey = some dKey.toList := by
  have clean : ∀ file keychain after, keychain = storedKeychain none →
      StartsClean plainSetup (new file keychain) after := by
    rintro file keychain after rfl
    exact .genuine fun bytes dKey item => by cases item
  obtain ⟨unlocked, life, opens, free, -, key, -⟩ := lives_unlocked _ rfl clean
  have switches : Ends plainSetup reliable 0 unlocked.saved (setAutoLogin plainSetup true) fun _ next =>
      next.keys.vault.isSome ∧ next.keys.autoLogin = true := by
    have vault : unlocked.saved.keys.vault.isSome := opens
    have unlocked' : unlocked.saved.keys.locked = false := free
    have dKey : unlocked.saved.keys.dKey = some (.replicate 32 4) := key
    unfold setAutoLogin
    rw [if_neg (by decide)]
    refine ends_bind ends_readKeys ?_
    rintro _ _ ⟨rfl, rfl⟩
    rw [if_neg (by simp [unlocked']), if_neg (by simpa [Option.isSome_iff_ne_none] using vault), dKey]
    refine ends_bind (sure_keychainSet (sure_reliable _) .dataKey _) ?_
    rintro _ _ ⟨rfl, rfl⟩
    refine ends_bind (ends_writeKeys _) ?_
    rintro _ _ rfl
    exact ends_done ⟨vault, rfl⟩
  obtain ⟨result, switched, execution, opens', set⟩ := executes_reliable (inner_setAutoLogin true) switches
  have switching : Operates plainSetup unlocked (.request (.setAutoLogin true)) result switched := .request execution
  have later : Lives plainSetup (StartsClean plainSetup) switched false := by
    have on : switchedOff false (.request (.setAutoLogin true)) result = false := by cases result <;> rfl
    rw [← on]
    exact .operates life switching (by simp)
  exact ⟨switched, later, set, auto_login_tells_the_truth.1 switched false later opens' set⟩

/-- A stored login key of the wrong size is not removed, and the flag that was set for it stays
once the password opened the vault. -/
theorem auto_login_stale : ∃ state off, Lives plainSetup (fun _ _ => True) state off ∧ state.keys.vault.isSome ∧
    state.keys.autoLogin = true ∧
    ¬ ∃ dKey : DataKey, state.keys.dKey = some dKey ∧ state.keychain .dataKey = some dKey.toList := by
  have unusable : (some [1, 2, 3]).bind (toBlock 32) = none := by decide
  obtain ⟨state, life, opens, -, flag, key, keychain⟩ :=
    lives_unlocked (fun _ _ => True) unusable fun _ _ _ _ => trivial
  refine ⟨state, false, life, opens, flag, ?_⟩
  rintro ⟨dKey, held, item⟩
  cases key.symm.trans held
  rw [keychain] at item
  cases item

end Daemon

end CesaConn
