import CesaConn.Daemon.Turn

/-! A restart finds what memory holds.

Between state changes a file exists exactly when the daemon has or may have an
open vault, and the file, opened with the data key and the salts of the
keychain, gives back the keys, the settings and the identity in memory. Every
operation may fail at every store call.
-/

set_option autoImplicit false

namespace CesaConn

open Format Program

namespace Daemon

open Vault

/-- The file on disk opens with the data key and the salts of the keychain, and
yields what memory holds. -/
def Reopens (setup : Setup) (saved : Saved) (vault : OpenVault) : Prop :=
  ∃ aKey aSalt dKey dSalt,
    (saved.keys.aKey = some aKey ∧ saved.keys.aSalt = some aSalt ∧ saved.keys.dKey = some dKey ∧
      saved.keys.dSalt = some dSalt) ∧
    (saved.keychain .salts).bind Salts.fromBytes = some ⟨dSalt, vault.storageSalt⟩ ∧
    ∃ file kek opened addresses,
      saved.file = some file ∧ deriveKek setup.crypto dKey vault.storageSalt = .ok kek ∧
      openVault setup.crypto.aead kek file = .ok opened ∧
      opened.wrapped = vault.wrapped ∧ opened.dek = vault.dek ∧ opened.contents.aKey = aKey ∧
      opened.contents.aSalt = aSalt ∧ opened.contents.identity = vault.identity ∧
      Config.decode opened.contents.config = some (vault.config, addresses)

structure Restartable (setup : Setup) (saved : Saved) : Prop where
  file : saved.file.isSome ↔ saved.keys.locked = true ∨ saved.keys.vault.isSome
  locked : saved.keys.locked = true →
    saved.keys.aKey = none ∧ saved.keys.dKey = none ∧ saved.keys.aSalt = none ∧ saved.keys.dSalt = none ∧
      saved.keys.vault = none
  opens : ∀ vault, saved.keys.vault = some vault → Reopens setup saved vault

/-- A daemon without storage has no file. -/
structure Settled (setup : Setup) (saved : Saved) : Prop extends Restartable setup saved where
  stored : setup.storage = false → saved.file = none

variable {setup : Setup} {R : Regime (machine setup)} {task : Nat} {saved : Saved}

/-! ## Settled states -/

theorem Settled.file_none (settled : Settled setup saved) (unlocked : saved.keys.locked = false)
    (closed : saved.keys.vault = none) : saved.file = none := by
  have iff := settled.file
  simp only [unlocked, closed] at iff
  simpa using iff

theorem settled_closed {next : Saved} (missing : next.file = none) (unlocked : next.keys.locked = false)
    (closed : next.keys.vault = none) : Settled setup next where
  file := by simp [missing, unlocked, closed]
  locked held := by simp [unlocked] at held
  opens vault found := by simp [closed] at found
  stored _ := missing

theorem settled_open {next : Saved} {vault : OpenVault} (storage : setup.storage = true)
    (unlocked : next.keys.locked = false) (found : next.keys.vault = some vault)
    (reopens : Reopens setup next vault) : Settled setup next where
  file := by
    obtain ⟨_, _, _, _, _, _, file, _, _, _, stored, _⟩ := reopens
    simp [stored, found]
  locked held := by simp [unlocked] at held
  opens other found' := by
    cases found.symm.trans found'
    exact reopens
  stored missing := by simp [storage] at missing

theorem Settled.unlocked (settled : Settled setup saved)
    (some : saved.keys.aKey ≠ none ∨ saved.keys.dKey ≠ none ∨ saved.keys.vault ≠ none) :
    saved.keys.locked = false := by
  by_contra locked
  obtain ⟨aKey, dKey, -, -, vault⟩ := settled.locked (by simpa using locked)
  simp [aKey, dKey, vault] at some

theorem Settled.storage (settled : Settled setup saved) {vault : OpenVault} (found : saved.keys.vault = some vault) :
    setup.storage = true := by
  by_contra off
  have missing := settled.stored (by simpa using off)
  have present := settled.file.mpr (.inr (by simp [found]))
  simp [missing] at present

theorem Settled.salts (settled : Settled setup saved) (opened : saved.keys.vault ≠ none) (kind : KeyKind) :
    saved.keys.salt kind ≠ none := by
  obtain ⟨vault, found⟩ := Option.ne_none_iff_exists'.mp opened
  obtain ⟨aKey, aSalt, dKey, dSalt, ⟨_, hasA, _, hasD⟩, _⟩ := settled.opens vault found
  cases kind <;> simp [KeySlots.salt, hasA, hasD]

/-- The guess counter and the automatic login are not in the vault. -/
theorem Settled.flags (settled : Settled setup saved) {keys : KeySlots}
    (same : keys.aKey = saved.keys.aKey ∧ keys.dKey = saved.keys.dKey ∧ keys.aSalt = saved.keys.aSalt ∧
      keys.dSalt = saved.keys.dSalt ∧ keys.vault = saved.keys.vault ∧ keys.locked = saved.keys.locked) :
    Settled setup { saved with keys } := by
  obtain ⟨aKey, dKey, aSalt, dSalt, vault, locked⟩ := same
  refine ⟨⟨?_, ?_, ?_⟩, settled.stored⟩
  · simpa only [vault, locked] using settled.file
  · simpa only [aKey, dKey, aSalt, dSalt, vault, locked] using settled.locked
  · intro other found
    have reopens := settled.opens other (vault ▸ found)
    simpa only [Reopens, aKey, dKey, aSalt, dSalt] using reopens

theorem Settled.dataKey (settled : Settled setup saved) (bytes : Option Bytes) :
    Settled setup { saved with keychain := Function.update saved.keychain .dataKey bytes } :=
  { settled with }

theorem opens_sealed (correct : setup.crypto.aead.Correct) {kek : Kek} {wrapped : WrappedDek} {dek : Dek}
    {nonce : Option (Block 12)} {aKey : AuthKey} {aSalt : Salt} {config : Config} {addresses peers : Bytes}
    {identity : Identity} {file : Bytes} (unwraps : Unwraps setup.crypto.aead kek wrapped dek)
    (readable : ∃ known, PeerBook.decode addresses = some known)
    (made : sealVault setup.crypto.aead nonce wrapped dek ⟨aKey, aSalt, config.encode addresses, identity, peers⟩ =
      .ok file) :
    ∃ opened known, openVault setup.crypto.aead kek file = .ok opened ∧
      opened.wrapped = wrapped ∧ opened.dek = dek ∧ opened.contents.aKey = aKey ∧ opened.contents.aSalt = aSalt ∧
      opened.contents.identity = identity ∧ Config.decode opened.contents.config = some (config, known) := by
  obtain ⟨known, read⟩ := readable
  exact ⟨_, known, openVault_sealVault correct unwraps made, rfl, rfl, rfl, rfl, rfl, Config.decode_encode config read⟩

theorem Reopens.unwraps {vault : OpenVault} {dKey : DataKey} (reopens : Reopens setup saved vault)
    (has : saved.keys.dKey = some dKey) :
    ∃ kek, deriveKek setup.crypto dKey vault.storageSalt = .ok kek ∧
      Unwraps setup.crypto.aead kek vault.wrapped vault.dek := by
  obtain ⟨_, _, other, _, ⟨_, _, has', _⟩, _, _, kek, opened, _, _, derived, found, wrapped, dek, _⟩ := reopens
  cases has.symm.trans has'
  exact ⟨kek, derived, wrapped ▸ dek ▸ unwraps_openVault found⟩

/-! ## The functions -/

abbrev Saves (setup : Setup) (R : Regime (machine setup)) (task : Nat) {A : Type} (saved : Saved) (program : Task A)
    (post : A → Saved → Prop) : Prop :=
  Does setup (Settled setup) R task saved program post

theorem saves_encodedPeers :
    Saves setup R task saved encodedPeers fun _ next => next = saved :=
  does_within encodedPeers_within (by simp)

theorem saves_encodedAddresses :
    Saves setup R task saved encodedAddresses fun addresses next =>
      next = saved ∧ ∃ known, PeerBook.decode addresses = some known := by
  refine does_bind (does_within trustedCopy_within (by simp)) ?_
  rintro peers saved rfl
  refine does_bind (does_aside (by simp)) ?_
  rintro book saved rfl
  exact does_done ⟨rfl, PeerBook.decode_encode book peers⟩

/-- The file is written with the settings it is asked for, or nothing is. -/
theorem saves_reseal (correct : setup.crypto.aead.Correct) (settled : Settled setup saved) (config : Option Config) :
    Saves setup R task saved (reseal setup config) fun result next =>
      match result with
      | .error _ => next = saved
      | .ok () => ∃ vault file, saved.keys.vault = some vault ∧ next = { saved with file := some file } ∧
          Settled setup { next with keys := saved.keys.setConfig (config.getD vault.config) } := by
  unfold reseal
  split
  · exact does_done rfl
  next storage =>
  refine does_bind saves_encodedPeers ?_
  rintro encoded saved rfl
  cases encoded with
  | error e => exact does_done rfl
  | ok peers =>
      refine does_bind saves_encodedAddresses ?_
      rintro addresses saved ⟨rfl, readable⟩
      refine does_bind (does_aside (by simp)) ?_
      rintro nonce saved rfl
      refine does_bind does_readKeys ?_
      rintro _ saved ⟨rfl, rfl⟩
      split
      · next vault aKey aSalt found hasA hasS =>
        split
        · exact does_done rfl
        · next file made =>
          refine does_bind (does_writeFile file) ?_
          rintro reply _ (⟨rfl, rfl⟩ | ⟨failed, rfl⟩)
          · obtain ⟨_, _, dKey, dSalt, ⟨_, _, hasD, hasT⟩, salts, _⟩ := settled.opens vault found
            obtain ⟨kek, derived, unwraps⟩ := (settled.opens vault found).unwraps hasD
            obtain ⟨opened, known, reads⟩ := opens_sealed correct unwraps readable made
            have unlocked := settled.unlocked (.inr (.inr (by simp [found])))
            have stored : (saved.keys.setConfig (config.getD vault.config)).vault =
                some { vault with config := config.getD vault.config } := by
              simp [KeySlots.setConfig, found]
            refine does_done ⟨vault, file, found, rfl, settled_open (settled.storage found) unlocked stored ?_⟩
            exact ⟨aKey, aSalt, dKey, dSalt, ⟨hasA, hasS, hasD, hasT⟩, salts, file, kek, opened, known, rfl, derived,
              reads⟩
          · cases reply <;> simp [Call.isOk] at failed <;> exact does_done rfl
      · exact does_done rfl

theorem KeySlots.setConfig_same {keys : KeySlots} {vault : OpenVault} (found : keys.vault = some vault) :
    keys.setConfig vault.config = keys := by
  obtain ⟨_, _, _, _, _, _, _, _, _⟩ := keys
  cases found
  rfl

theorem KeySlots.continues_setConfig (keys : KeySlots) (config : Config) : keys.Continues (keys.setConfig config) :=
  fun vault found => ⟨rfl, rfl, { vault with config }, by simp [KeySlots.setConfig, found], rfl, rfl⟩

theorem saves_resealed (correct : setup.crypto.aead.Correct) (settled : Settled setup saved) :
    Saves setup R task saved (reseal setup none) fun _ => Settled setup := by
  refine does_mono (saves_reseal correct settled none) ?_
  intro result next written
  cases result with
  | error e =>
      cases written
      exact settled
  | ok _ =>
      obtain ⟨vault, file, found, rfl, later⟩ := written
      rw [Option.getD_none, KeySlots.setConfig_same found] at later
      exact later

theorem saves_saveConfig (correct : setup.crypto.aead.Correct) (settled : Settled setup saved) (config : Config) :
    Saves setup R task saved (saveConfig setup config) fun _ => Settled setup := by
  refine does_bind (saves_reseal correct settled (some config)) ?_
  intro result next written
  cases result with
  | error e =>
      cases written
      exact does_done settled
  | ok _ =>
      obtain ⟨vault, file, found, rfl, later⟩ := written
      refine does_bind (does_writeKeys ?_) ?_
      · exact KeySlots.continues_setConfig saved.keys config
      · rintro _ _ rfl
        exact does_done later

theorem saves_savedConfig : Saves setup R task saved savedConfig fun _ next => next = saved := by
  refine does_bind does_readKeys ?_
  rintro _ saved ⟨rfl, rfl⟩
  split
  · exact does_done rfl
  · split <;> exact does_done rfl

theorem saves_setSync (correct : setup.crypto.aead.Correct) (settled : Settled setup saved) (on : Bool) :
    Saves setup R task saved (setSync setup on) fun _ => Settled setup := by
  refine does_bind saves_savedConfig ?_
  rintro config saved rfl
  cases config with
  | error e => exact does_done settled
  | ok config => exact saves_saveConfig correct settled _

theorem saves_setClipboard (correct : setup.crypto.aead.Correct) (settled : Settled setup saved) (on : Bool) :
    Saves setup R task saved (setClipboard setup on) fun _ => Settled setup := by
  unfold setClipboard
  split
  · exact does_done settled
  · refine does_bind saves_savedConfig ?_
    rintro config saved rfl
    cases config with
    | error e => exact does_done settled
    | ok config => exact saves_saveConfig correct settled _

theorem saves_setAutoLogin (settled : Settled setup saved) (on : Bool) :
    Saves setup R task saved (setAutoLogin setup on) fun _ => Settled setup := by
  unfold setAutoLogin
  split
  · exact does_done settled
  refine does_bind does_readKeys ?_
  rintro _ saved ⟨rfl, rfl⟩
  split
  · exact does_done settled
  split
  · exact does_done settled
  split
  · exact does_done settled
  next dKey _ =>
  have kept : Saves setup R task saved
      (if on then await (.keychainSet .dataKey dKey.toList) else await (.keychainDelete .dataKey))
      fun _ next => Settled setup next := by
    split
    · refine does_mono (does_keychainSet _ _) ?_
      rintro reply _ (⟨-, rfl⟩ | ⟨-, rfl⟩)
      · exact settled.dataKey _
      · exact settled
    · refine does_mono (does_keychainDelete _) ?_
      rintro reply _ (⟨-, rfl⟩ | ⟨-, rfl⟩)
      · exact settled.dataKey _
      · exact settled
  refine does_bind kept fun reply next later => ?_
  split
  · exact does_done later
  · refine does_bind (does_writeKeys ?_) ?_
    · exact fun vault found => ⟨rfl, rfl, vault, found, rfl, rfl⟩
    · rintro _ _ rfl
      exact does_done (later.flags ⟨rfl, rfl, rfl, rfl, rfl, rfl⟩)

theorem saves_forgetPeer (correct : setup.crypto.aead.Correct) (settled : Settled setup saved)
    (fingerprint : Block fingerprintLen) :
    Saves setup R task saved (forgetPeer setup fingerprint) fun _ => Settled setup := by
  refine does_bind does_readKeys ?_
  rintro _ saved ⟨rfl, rfl⟩
  split
  · exact does_done settled
  refine does_bind (does_aside (by simp)) ?_
  rintro list saved rfl
  refine does_bind (does_aside (by simp)) ?_
  rintro removed saved rfl
  split
  · exact does_done settled
  refine does_bind does_readKeys ?_
  rintro _ saved ⟨rfl, rfl⟩
  have resealed : Saves setup R task saved (if saved.keys.vault.isSome then reseal setup none else pure (.ok ()))
      fun _ => Settled setup := by
    split
    · exact saves_resealed correct settled
    · exact does_done settled
  refine does_bind resealed fun result next later => ?_
  cases result with
  | error e =>
      refine does_bind (does_aside (by simp)) ?_
      rintro _ _ rfl
      exact does_done later
  | ok _ =>
      refine does_bind (does_within (removePeers_within removed) (by simp)) ?_
      rintro _ _ rfl
      exact does_done later

theorem prepareVault_eq_ok {aKey : AuthKey} {aSalt : Salt} {dKey : DataKey} {dSalt : Salt} {config : Config}
    {addresses peers : Bytes} {storageSalt : Option Salt} {dek : Option Dek} {identity : Option Identity}
    {wrapNonce nonce : Option (Block 12)} {prepared : Prepared}
    (made : prepareVault setup aKey aSalt dKey dSalt config addresses peers storageSalt dek identity wrapNonce nonce =
      .ok prepared) :
    prepared.salts = ⟨dSalt, prepared.vault.storageSalt⟩ ∧ prepared.vault.config = config ∧
    ∃ kek, deriveKek setup.crypto dKey prepared.vault.storageSalt = .ok kek ∧
      wrapDek setup.crypto.aead wrapNonce kek prepared.vault.dek = .ok prepared.vault.wrapped ∧
      sealVault setup.crypto.aead nonce prepared.vault.wrapped prepared.vault.dek
        ⟨aKey, aSalt, config.encode addresses, prepared.vault.identity, peers⟩ = .ok prepared.file := by
  simp only [prepareVault, bind_eq_ok, okOr_eq_ok] at made
  obtain ⟨storageSalt, _, dek, _, kek, derived, wrapped, wraps, identity, _, file, sealed, same⟩ := made
  cases same
  exact ⟨rfl, rfl, kek, derived, wraps, sealed⟩

/-- A vault is made of the keychain's salts, the file and memory, or memory has none. -/
theorem saves_createVault (correct : setup.crypto.aead.Correct) (settled : Settled setup saved)
    (closed : saved.keys.vault = none) (identity : Option Identity) (config : Config) :
    Saves setup R task saved (createVault setup identity config) fun _ => Settled setup := by
  unfold createVault
  split
  · exact does_done settled
  next storage =>
  refine does_bind does_readKeys ?_
  rintro _ saved ⟨rfl, rfl⟩
  split
  · next aKey aSalt dKey dSalt hasA hasS hasD hasT =>
    have unlocked : saved.keys.locked = false := settled.unlocked (.inl (by simp [hasA]))
    have missing : saved.file = none := settled.file_none unlocked closed
    refine does_bind saves_encodedPeers ?_
    rintro encoded saved rfl
    cases encoded with
    | error e => exact does_done settled
    | ok peers =>
        refine does_bind saves_encodedAddresses ?_
        rintro addresses saved ⟨rfl, readable⟩
        refine does_bind (does_aside (by simp)) ?_
        rintro storageSalt saved rfl
        refine does_bind (does_aside (by simp)) ?_
        rintro dek saved rfl
        refine does_bind (does_aside (by simp)) ?_
        rintro wrapNonce saved rfl
        refine does_bind (does_aside (by simp)) ?_
        rintro seed saved rfl
        refine does_bind (does_aside (by simp)) ?_
        rintro nonce saved rfl
        split
        · exact does_done settled
        · next prepared made =>
          obtain ⟨salts, sameConfig, kek, derived, wraps, sealed⟩ := prepareVault_eq_ok made
          refine does_bind (does_keychainSet _ _) ?_
          rintro reply _ (⟨rfl, rfl⟩ | ⟨failed, rfl⟩)
          · refine does_bind (does_writeFile _) ?_
            rintro reply _ (⟨rfl, rfl⟩ | ⟨failed, rfl⟩)
            · refine does_mono (does_writeKeys (KeySlots.continues_of_none closed)) ?_
              rintro _ _ rfl
              obtain ⟨opened, known, reads⟩ := opens_sealed correct (unwraps_wrapDek correct wraps) readable sealed
              refine settled_open (by simpa using storage) unlocked rfl ?_
              refine ⟨aKey, aSalt, dKey, dSalt, ⟨hasA, hasS, hasD, hasT⟩, ?_, prepared.file, kek, opened, known, rfl,
                derived, sameConfig ▸ reads⟩
              simp [salts]
            · simp only [failed]
              exact does_done (settled_closed missing unlocked closed)
          · simp only [failed]
            exact does_done settled
  · exact does_done settled

theorem KeySlots.continues_setWrapped (keys : KeySlots) (wrapped : WrappedDek) :
    keys.Continues (keys.setWrapped wrapped) :=
  fun vault found => ⟨rfl, rfl, { vault with wrapped }, by simp [KeySlots.setWrapped, found], rfl, rfl⟩

theorem KeySlots.continues_setKey (keys : KeySlots) (key : Block 32) (kind : KeyKind) :
    keys.Continues (keys.setKey key kind) := by
  intro vault found
  cases kind <;> exact ⟨rfl, rfl, vault, found, rfl, rfl⟩

theorem saves_saveChangedKey (correct : setup.crypto.aead.Correct) (settled : Settled setup saved)
    (opened : saved.keys.vault ≠ none) (kind : KeyKind) (key : Block 32) :
    Saves setup R task saved (saveChangedKey setup kind key) fun result next =>
      match result with
      | .error _ => Settled setup next
      | .ok () => Settled setup { next with keys := next.keys.setKey key kind } := by
  obtain ⟨vault, found⟩ := Option.ne_none_iff_exists'.mp opened
  have storage := settled.storage found
  have unlocked := settled.unlocked (.inr (.inr opened))
  have reopens := settled.opens vault found
  obtain ⟨_, _, dKey, dSalt, ⟨_, _, hasD, hasT⟩, salts, _⟩ := settled.opens vault found
  obtain ⟨kek, derived, unwraps⟩ := reopens.unwraps hasD
  unfold saveChangedKey
  rw [if_neg (by simp [storage])]
  refine does_bind saves_encodedPeers ?_
  rintro encoded saved rfl
  cases encoded with
  | error e => exact does_done settled
  | ok peers =>
      refine does_bind saves_encodedAddresses ?_
      rintro addresses saved ⟨rfl, readable⟩
      refine does_bind (does_aside (by simp)) ?_
      rintro wrapNonce saved rfl
      refine does_bind (does_aside (by simp)) ?_
      rintro nonce saved rfl
      refine does_bind does_readKeys ?_
      rintro _ saved ⟨rfl, rfl⟩
      split
      · next other aKey aSalt found' hasA hasS =>
        cases found.symm.trans found'
        split
        · exact does_done settled
        next newKey wrapped changed =>
        split
        · exact does_done settled
        next file made =>
        refine does_bind (does_writeFile file) ?_
        rintro reply _ (⟨rfl, rfl⟩ | ⟨failed, rfl⟩)
        · cases kind with
          | auth =>
              cases changed
              obtain ⟨contents, known, reads⟩ := opens_sealed correct unwraps readable made
              refine does_done (settled_open storage unlocked found ?_)
              exact ⟨key, aSalt, dKey, dSalt, ⟨rfl, hasS, hasD, hasT⟩, salts, file, kek, contents, known, rfl,
                derived, reads⟩
          | data =>
              simp only [changedKey, bind_eq_ok] at changed
              obtain ⟨newKek, newDerived, _, wraps, same⟩ := changed
              cases same
              obtain ⟨contents, known, reads⟩ :=
                opens_sealed correct (unwraps_wrapDek correct wraps) readable made
              -- what memory comes to once the key is set
              have later : Settled setup
                  ⟨(saved.keys.setWrapped wrapped).setKey key .data, some file, saved.keychain⟩ := by
                refine settled_open storage unlocked
                  (show _ = some { vault with wrapped } by simp [KeySlots.setWrapped, KeySlots.setKey, found]) ?_
                exact ⟨_, aSalt, key, dSalt, ⟨hasA, hasS, rfl, hasT⟩, salts, file, newKek, contents, known, rfl,
                  newDerived, reads⟩
              refine does_bind (does_writeKeys (KeySlots.continues_setWrapped _ wrapped)) ?_
              rintro _ _ rfl
              split
              · refine does_bind (does_keychainSet _ _) ?_
                rintro reply _ (⟨rfl, rfl⟩ | ⟨failed, rfl⟩)
                · exact does_done (later.dataKey _)
                · simp only [failed]
                  refine does_bind (does_keychainDelete _) ?_
                  rintro reply _ (⟨-, rfl⟩ | ⟨-, rfl⟩)
                  · refine does_bind (does_writeKeys fun vault found => ⟨rfl, rfl, vault, found, rfl, rfl⟩) ?_
                    rintro _ _ rfl
                    exact does_done ((later.dataKey _).flags ⟨rfl, rfl, rfl, rfl, rfl, rfl⟩)
                  · refine does_bind (does_writeKeys fun vault found => ⟨rfl, rfl, vault, found, rfl, rfl⟩) ?_
                    rintro _ _ rfl
                    exact does_done (later.flags ⟨rfl, rfl, rfl, rfl, rfl, rfl⟩)
              · exact does_done later
        · cases reply <;> simp [Call.isOk] at failed <;> exact does_done settled
      · exact does_done settled

theorem Settled.setSalt (settled : Settled setup saved) (unlocked : saved.keys.locked = false)
    (closed : saved.keys.vault = none) (salt : Salt) (kind : KeyKind) :
    Settled setup { saved with keys := saved.keys.setSalt salt kind } := by
  have missing := settled.file_none unlocked closed
  cases kind <;> exact settled_closed missing unlocked closed

theorem Settled.setKey (settled : Settled setup saved) (unlocked : saved.keys.locked = false)
    (closed : saved.keys.vault = none) (key : Block 32) (kind : KeyKind) :
    Settled setup { saved with keys := saved.keys.setKey key kind } := by
  have missing := settled.file_none unlocked closed
  cases kind <;> exact settled_closed missing unlocked closed

/-- The rest of `set_password` once the key is derived. -/
theorem saves_keepKey (correct : setup.crypto.aead.Correct) (settled : Settled setup saved)
    (unlocked : saved.keys.locked = false) (kind : KeyKind) (key : Block 32) :
    Saves setup R task saved
      (do match ← (if saved.keys.vault.isSome then saveChangedKey setup kind key else pure (.ok ())) with
          | .error e => return .error e
          | .ok () =>
              await (.writeKeys fun keys => keys.setKey key kind)
              updateNetworkKeys
              let slots ← await .readKeys
              if slots.vault.isNone then
                createVault setup none {}
                return .ok ()
              else return .ok () : Task (Except DaemonError Unit))
      fun _ => Settled setup := by
  have changed : Saves setup R task saved
      (if saved.keys.vault.isSome then saveChangedKey setup kind key else pure (.ok ())) fun result next =>
        match result with
        | .error _ => Settled setup next
        | .ok () => Settled setup { next with keys := next.keys.setKey key kind } := by
    split
    · next opened => exact saves_saveChangedKey correct settled (Option.isSome_iff_ne_none.mp opened) kind key
    · next closed =>
      exact does_done (settled.setKey unlocked (by simpa using closed) key kind)
  refine does_bind changed fun result next later => ?_
  cases result with
  | error e => exact does_done later
  | ok _ =>
      refine does_bind (does_writeKeys (KeySlots.continues_setKey _ key kind)) ?_
      rintro _ _ rfl
      refine does_bind (does_within updateNetworkKeys_within (by simp)) ?_
      rintro _ next rfl
      refine does_bind does_readKeys ?_
      rintro _ next ⟨rfl, rfl⟩
      split
      · next closed =>
        refine does_bind (saves_createVault correct later (by simpa using closed) none {}) ?_
        exact fun _ _ settled => does_done settled
      · exact does_done later

theorem saves_setPassword (correct : setup.crypto.aead.Correct) (settled : Settled setup saved) (kind : KeyKind)
    (password : Bytes) : Saves setup R task saved (setPassword setup kind password) fun _ => Settled setup := by
  unfold setPassword
  split
  · exact does_done settled
  refine does_bind does_readKeys ?_
  rintro _ saved ⟨rfl, rfl⟩
  split
  · exact does_done settled
  next unlocked =>
  replace unlocked : saved.keys.locked = false := by simpa using unlocked
  refine does_bind (does_aside (by simp)) ?_
  rintro fresh saved rfl
  refine does_bind (does_saltFor fun opened => settled.salts opened kind) ?_
  intro salt next salted
  have salting : Settled setup next ∧ next.keys.locked = false := by
    rcases salted with rfl | ⟨closed, salt, rfl⟩
    · exact ⟨settled, unlocked⟩
    · refine ⟨settled.setSalt unlocked closed salt kind, ?_⟩
      cases kind <;> exact unlocked
  obtain ⟨settled, unlocked⟩ := salting
  cases salt with
  | none => exact does_done settled
  | some salt =>
      refine does_bind (does_within (derive_within password salt) (by simp)) ?_
      rintro derived next rfl
      cases derived with
      | error e => exact does_done settled
      | ok key =>
          refine does_bind does_readKeys ?_
          rintro _ next ⟨rfl, rfl⟩
          exact saves_keepKey correct settled unlocked kind key

/-- A locked daemon opens what the keychain and the file hold, or stays locked. -/
theorem saves_unlockWith (settled : Settled setup saved) (locked : saved.keys.locked = true) (dKey : DataKey) :
    Saves setup R task saved (unlockWith setup dKey) fun _ => Settled setup := by
  obtain ⟨-, -, -, -, closed⟩ := settled.locked locked
  unfold unlockWith
  split
  · exact does_done settled
  next storage =>
  refine does_bind does_keychainGet ?_
  rintro reply saved ⟨rfl, read⟩
  split
  · exact does_done settled
  · next bytes =>
    have kept : some bytes = saved.keychain .salts := read _ rfl
    split
    · exact does_done settled
    next salts parsed =>
    refine does_bind does_readFile ?_
    rintro reply saved ⟨rfl, read⟩
    split
    · exact does_done settled
    · exact does_done settled
    next file answered =>
    have onDisk : some file = saved.file := by
      cases reply <;> simp [Call.result] at answered
      exact read _ (congrArg Call.ok answered)
    split
    · exact does_done settled
    next kek derived =>
    split
    · exact does_done settled
    next opened found =>
    split
    · exact does_done settled
    split
    · exact does_done settled
    next config addresses decoded =>
    refine does_bind (does_aside (by simp)) ?_
    rintro list saved rfl
    refine does_bind (does_aside (by simp)) ?_
    rintro _ saved rfl
    refine does_bind (does_aside (by simp)) ?_
    rintro _ saved rfl
    refine does_bind (does_writeKeys (KeySlots.continues_of_none closed)) ?_
    rintro _ _ rfl
    refine does_done (settled_open (by simpa using storage) rfl rfl ?_)
    refine ⟨_, _, _, _, ⟨rfl, rfl, rfl, rfl⟩, ?_, file, kek, opened, addresses, onDisk.symm, derived, found, rfl, rfl,
      rfl, rfl, rfl, decoded⟩
    rw [← kept]
    simpa using parsed
  · exact does_done settled

theorem Settled.countUnlock (settled : Settled setup saved) (result : Except DaemonError Unit) (now : Instant) :
    Settled setup { saved with keys := countUnlock result now saved.keys } := by
  refine settled.flags ?_
  unfold Daemon.countUnlock
  split <;> exact ⟨rfl, rfl, rfl, rfl, rfl, rfl⟩

theorem continues_countUnlock (keys : KeySlots) (result : Except DaemonError Unit) (now : Instant) :
    keys.Continues (countUnlock result now keys) := by
  intro vault found
  unfold countUnlock
  split <;> exact ⟨rfl, rfl, vault, found, rfl, rfl⟩

theorem saves_unlock (settled : Settled setup saved) (password : Bytes) :
    Saves setup R task saved (unlock setup password) fun _ => Settled setup := by
  unfold unlock
  split
  · exact does_done settled
  refine does_bind does_readKeys ?_
  rintro _ saved ⟨rfl, rfl⟩
  refine does_bind (does_aside (by simp)) ?_
  rintro now saved rfl
  split
  · exact does_done settled
  next locked =>
  split
  · exact does_done settled
  refine does_bind does_keychainGet ?_
  rintro reply saved ⟨rfl, -⟩
  split
  · exact does_done settled
  · split
    · exact does_done settled
    next salts _ =>
    refine does_bind (does_within (derive_within password salts.dSalt) (by simp)) ?_
    rintro derived saved rfl
    cases derived with
    | error e => exact does_done settled
    | ok dKey =>
        refine does_bind (saves_unlockWith settled (by simpa using locked) dKey) ?_
        intro result next settled
        refine does_bind (does_aside (by simp)) ?_
        rintro now next rfl
        refine does_bind (does_writeKeys (continues_countUnlock _ result now)) ?_
        rintro _ _ rfl
        exact does_done (settled.countUnlock result now)
  · exact does_done settled

theorem saves_autoLogin (settled : Settled setup saved) (locked : saved.keys.locked = true) :
    Saves setup R task saved (autoLogin setup) fun _ => Settled setup := by
  have flag : ∀ (saved : Saved) on, saved.keys.Continues { saved.keys with autoLogin := on } :=
    fun _ _ vault found => ⟨rfl, rfl, vault, found, rfl, rfl⟩
  refine does_bind does_keychainGet ?_
  rintro reply saved ⟨rfl, -⟩
  split
  · refine does_bind (does_writeKeys (flag saved true)) ?_
    rintro _ _ rfl
    have settled : Settled setup { saved with keys := { saved.keys with autoLogin := true } } :=
      settled.flags ⟨rfl, rfl, rfl, rfl, rfl, rfl⟩
    split
    · exact does_done settled
    next dKey _ =>
    refine does_bind (saves_unlockWith settled locked dKey) ?_
    intro result next settled
    split
    · refine does_mono (does_within applyNetwork_within (by simp)) ?_
      rintro _ _ rfl
      exact settled
    · refine does_bind (does_keychainDelete _) ?_
      rintro reply _ (⟨rfl, rfl⟩ | ⟨failed, rfl⟩)
      · refine does_mono (does_writeKeys (flag _ false)) ?_
        rintro _ _ rfl
        exact (settled.dataKey _).flags ⟨rfl, rfl, rfl, rfl, rfl, rfl⟩
      · simp only [failed]
        exact does_done settled
    · exact does_done settled
  · exact does_done settled

theorem saves_resetDevice (settled : Settled setup saved) :
    Saves setup R task saved (resetDevice setup) fun _ => Settled setup := by
  -- the file goes first: what stays behind without it is an empty device
  have deleted : Saves setup R task saved
      (if setup.storage then do return (← await .deleteFile).result storageError else pure (.ok ()))
      fun result next => match result with
        | .error _ => Settled setup next
        | .ok () => next.file = none := by
    split
    · refine does_bind does_deleteFile ?_
      rintro reply _ (⟨rfl, rfl⟩ | ⟨failed, rfl⟩)
      · exact does_done rfl
      · cases reply <;> simp [Call.isOk] at failed <;> exact does_done settled
    · next off => exact does_done (settled.stored (by simpa using off))
  refine does_bind (does_aside (by simp)) ?_
  rintro _ saved rfl
  refine does_bind (does_within cancelJoin_within (by simp)) ?_
  rintro _ saved rfl
  refine does_bind (does_within stopNetwork_within (by simp)) ?_
  rintro _ saved rfl
  refine does_bind deleted fun result next gone => ?_
  cases result with
  | error e => exact does_done gone
  | ok _ =>
      refine does_bind does_wipeKeys ?_
      rintro _ _ rfl
      refine does_bind (does_aside (by simp)) ?_
      rintro _ _ rfl
      refine does_bind (does_aside (by simp)) ?_
      rintro _ _ rfl
      refine does_bind (does_aside (by simp)) ?_
      rintro _ _ rfl
      have empty : ∀ keychain, Settled setup ⟨{}, next.file, keychain⟩ := fun _ => settled_closed gone rfl rfl
      split
      · refine does_bind (does_keychainDelete _) ?_
        rintro reply _ (⟨rfl, rfl⟩ | ⟨failed, rfl⟩)
        · refine does_bind (does_keychainDelete _) ?_
          rintro reply _ (⟨rfl, rfl⟩ | ⟨failed, rfl⟩)
          · exact does_done (empty _)
          · simp only [failed]
            exact does_done (empty _)
        · simp only [failed]
          exact does_done (empty _)
      · exact does_done (empty _)

theorem saves_performRequest (correct : setup.crypto.aead.Correct) (settled : Settled setup saved)
    (request : Request) :
    Saves setup R task saved (performRequest setup request) fun _ => Settled setup := by
  cases request with
  | setAuthPassword password => exact saves_setPassword correct settled .auth password
  | setDataPassword password => exact saves_setPassword correct settled .data password
  | unlock password => exact saves_unlock settled password
  | setAutoLogin on => exact saves_setAutoLogin settled on
  | setSync on => exact saves_setSync correct settled on
  | setClipboard on => exact saves_setClipboard correct settled on
  | forgetPeer fingerprint => exact saves_forgetPeer correct settled fingerprint
  | resetDevice => exact saves_resetDevice settled

/-! ## Whole runs -/

variable (setup) in
/-- The end of `start`: it runs before a request is served, as if it had the slot. -/
def loginAtStart : Task Unit := do
  await .acquire
  let slots ← await .readKeys
  if slots.locked then
    autoLogin setup
    await .release
  else await .release

/-- Everything that saves, and what changes the saved peers meanwhile. -/
inductive SaveJob where
  | change (request : Request)
  | savePeers
  | commitJoin (joined : Joined) (identity : Identity) (resets : Nat)
  | loginAtStart
  | pairDevice (list : Nat) (key : StaticKey) (verificationKey : VerificationKey) (addr : SocketAddr)
  | connection (seen : PeerBook → PeerBook)

def SaveJob.program (setup : Setup) : SaveJob → Task Unit
  | .change request => Daemon.change setup request
  | .savePeers => Daemon.savePeers setup
  | .commitJoin joined identity resets => do let _ ← Daemon.commitJoin setup joined identity resets
  | .loginAtStart => Daemon.loginAtStart setup
  | .pairDevice list key verificationKey addr => do let _ ← Daemon.pairDevice list key verificationKey addr
  | .connection seen => await (.writeBook seen)

def saveWorkload (setup : Setup) : Workload (machine setup) where
  Job := SaveJob
  program := SaveJob.program setup
  ready _ _ := true
  allows _ _ _ := true

def Started (setup : Setup) (state : State) : Prop :=
  state.turn = none ∧
    (state.file = none ∧ state.keys = {} ∨
      setup.storage = true ∧ state.file.isSome ∧ state.keys = { locked := true })

theorem Started.settled {state : State} (started : Started setup state) : Settled setup state.saved := by
  rcases started.2 with ⟨missing, empty⟩ | ⟨storage, found, locked⟩
  · exact settled_closed missing (by simp [State.saved, empty]) (by simp [State.saved, empty])
  · refine ⟨⟨?_, ?_, ?_⟩, ?_⟩
    · simp [State.saved, found, locked]
    · simp [State.saved, locked]
    · simp [State.saved, locked]
    · simp [storage]

abbrev Outside (task : Nat) (state : State) (_ : Unit) : Prop := state.turn ≠ some task

theorem saves_release (settled : Settled setup saved) :
    (turns setup (Settled setup)).Triple R task (Holds task (· = saved)) (await .release) fun _ => Outside task := by
  refine turns_release.consequence ?_ fun _ _ _ held => held
  rintro state _ ⟨held, rfl⟩
  exact ⟨held, settled⟩

/-- The holder's work, then whatever follows it from where it ended. -/
theorem saves_then {A B : Type} {program : Task A} {k : A → Task B} {mid : A → Saved → Prop}
    {post : B → State → Unit → Prop} (first : Saves setup R task saved program mid)
    (rest : ∀ value next, mid value next →
      (turns setup (Settled setup)).Triple R task (Holds task (· = next)) (k value) post) :
    (turns setup (Settled setup)).Triple R task (Holds task (· = saved)) (program >>= k) post :=
  first.bind fun value state ghost held => rest value state.saved held.2 state ghost ⟨held.1, rfl⟩

theorem outside_within {A : Type} {fields : List Field} {program : Task A} (within : program.All (Op.Within fields))
    (apart : .keys ∉ fields ∧ .file ∉ fields ∧ .keychain ∉ fields ∧ .turn ∉ fields) :
    (turns setup (Settled setup)).Triple R task (Outside task) program fun _ => Outside task := by
  refine Discipline.Triple.all within stable_outside fun op footprint => ?_
  refine (turns_unsaved ⟨?_, ?_, ?_, ?_⟩).performs stable_outside
  · exact fun member => apart.1 (footprint member)
  · exact fun member => apart.2.1 (footprint member)
  · exact fun member => apart.2.2.1 (footprint member)
  · exact fun member => apart.2.2.2 (footprint member)

theorem outside_done {A : Type} {value : A} :
    (turns setup (Settled setup)).Triple R task (Outside task) (.done value) fun _ => Outside task :=
  Discipline.Triple.done fun _ _ outside => outside

theorem saves_change (correct : setup.crypto.aead.Correct) (request : Request) :
    (turns setup (Settled setup)).Triple R task (Outside task) (change setup request) fun _ => Outside task := by
  refine turns_section fun saved settled => ?_
  refine saves_then (saves_performRequest correct settled request) fun _ next settled => ?_
  refine saves_then (does_within applyNetwork_within (by simp)) ?_
  rintro _ next rfl
  exact saves_release settled

theorem saves_savePeers (correct : setup.crypto.aead.Correct) :
    (turns setup (Settled setup)).Triple R task (Outside task) (savePeers setup) fun _ => Outside task := by
  refine turns_section fun saved settled => ?_
  refine saves_then does_readKeys ?_
  rintro _ saved ⟨rfl, rfl⟩
  split
  · exact saves_release settled
  · exact saves_then (saves_resealed correct settled) fun _ next settled => saves_release settled

theorem saves_loginAtStart :
    (turns setup (Settled setup)).Triple R task (Outside task) (loginAtStart setup) fun _ => Outside task := by
  refine turns_section fun saved settled => ?_
  refine saves_then does_readKeys ?_
  rintro _ saved ⟨rfl, rfl⟩
  split
  · next locked => exact saves_then (saves_autoLogin settled locked) fun _ next settled => saves_release settled
  · exact saves_release settled

theorem saves_commitJoin (correct : setup.crypto.aead.Correct) (joined : Joined) (identity : Identity)
    (resets : Nat) :
    (turns setup (Settled setup)).Triple R task (Outside task) (commitJoin setup joined identity resets)
      fun _ => Outside task := by
  refine turns_section fun saved settled => ?_
  refine saves_then (does_aside (by simp)) ?_
  rintro current saved rfl
  split
  · exact (saves_release settled).bind fun _ => outside_done
  refine saves_then does_readKeys ?_
  rintro _ saved ⟨rfl, rfl⟩
  split
  · exact (saves_release settled).bind fun _ => outside_done
  next fresh =>
  obtain ⟨unlocked, closed, -⟩ := KeySlots.fresh_iff.mp (by simpa using fresh)
  have missing := settled.file_none unlocked closed
  refine saves_then (does_writeKeys (KeySlots.continues_of_none closed)) ?_
  rintro _ _ rfl
  refine saves_then (does_aside (by simp)) ?_
  rintro _ _ rfl
  refine saves_then (does_aside (by simp)) ?_
  rintro list _ rfl
  refine saves_then (does_aside (by simp)) ?_
  rintro _ _ rfl
  refine saves_then (saves_createVault correct ?_ ?_ _ _) ?_
  · exact settled_closed missing unlocked closed
  · exact closed
  intro _ next settled
  refine saves_then does_readKeys ?_
  rintro _ next ⟨rfl, rfl⟩
  exact (saves_release settled).bind fun _ => (outside_within applyNetwork_within (by simp)).bind fun _ => outside_done

theorem saves_covered (correct : setup.crypto.aead.Correct) :
    (turns setup (Settled setup)).Covers (saveWorkload setup).regime := by
  refine Discipline.covers_of_jobs fun task job state ghost start => ?_
  obtain ⟨outside, -⟩ := start
  cases job with
  | change request => exact saves_change correct request state ghost outside
  | savePeers => exact saves_savePeers correct state ghost outside
  | commitJoin joined identity resets =>
      exact ((saves_commitJoin correct joined identity resets).bind fun _ => outside_done) state ghost outside
  | loginAtStart => exact saves_loginAtStart state ghost outside
  | pairDevice list key verificationKey addr =>
      have within : (SaveJob.program setup (.pairDevice list key verificationKey addr)).All (Op.Within [.peers]) :=
        Proc.all_bind (Proc.all_bind (within_await (by simp)) fun _ => (within_await (by simp))) fun _ => trivial
      exact outside_within within (by simp) state ghost outside
  | connection seen =>
      have within : (await (.writeBook seen)).All (Op.Within [.book]) := within_await (by simp)
      exact outside_within within (by simp) state ghost outside

/-- Whatever fails: between operations a restart finds what memory holds, and from
the creation of a vault to a reset its salts, its identity and its DEK stay. -/
theorem restart_equivalence (correct : setup.crypto.aead.Correct) {pool : Pool (machine setup)}
    (reached : Reachable (saveWorkload setup).regime (Started setup) pool) :
    (pool.Quiet → Restartable setup pool.state.saved) ∧
    ∀ later, Run (saveWorkload setup).regime (· ≠ .wipeKeys) pool later →
      pool.state.keys.Continues later.state.keys := by
  obtain ⟨ghost, sound⟩ := Discipline.sound_reachable (saves_covered correct)
    (fun state started => ⟨(), fun _ => started.settled, fun _ => by simp [turns, started.1]⟩) reached
  refine ⟨fun quiet => ?_, fun later run => ?_⟩
  · obtain ⟨inv, outside⟩ := sound.quiet quiet
    have free : pool.state.turn = none := by
      by_contra held
      obtain ⟨task, held⟩ := Option.ne_none_iff_exists'.mp held
      exact outside task held
    exact (inv free).toRestartable
  · exact sound.observed (saves_covered correct)
      (fun before after => KeySlots.Continues (State.keys before) (State.keys after)) (fun _ => .refl _)
      (fun _ _ _ => .trans) (fun _ _ _ _ _ kept observed => observed kept) run

def goesOn (task : Nat) (outcomes : List Outcome) : List (saveWorkload plainSetup).Move :=
  outcomes.map (.resume task)

/-- Both passwords of a new device; the second one creates the vault. -/
def firstPasswords : List (saveWorkload plainSetup).Move :=
  let drawn (size : Nat) : Outcome := .drawn (List.replicate size 9)
  [.start (.change (.setAuthPassword (List.replicate 12 97))) .done] ++
  goesOn 0 ([.done, drawn 32] ++ List.replicate 10 .done) ++
  [.start (.change (.setDataPassword (List.replicate 12 98))) .done] ++
  goesOn 1 ([.done, drawn 32] ++ List.replicate 14 .done ++ [drawn 32, drawn 32, drawn 12, drawn 64, drawn 12] ++
    List.replicate 6 .done)

theorem restart_equivalence_created :
    ∃ pool, Reachable (saveWorkload plainSetup).regime (Started plainSetup) pool ∧ pool.Quiet ∧
      pool.state.keys.vault.isSome ∧ Restartable plainSetup pool.state.saved := by
  obtain ⟨pool, reached, quiet, created⟩ := Workload.reachable_of_play (new none fun _ => none) firstPasswords
    (fun pool => pool.Quiet ∧ pool.state.keys.vault.isSome)
    (show Started plainSetup (new none fun _ => none) from ⟨rfl, .inl ⟨rfl, rfl⟩⟩) (by decide +kernel)
  exact ⟨pool, reached, quiet, created, (restart_equivalence Aead.plain_correct reached).1 quiet⟩

end Daemon

end CesaConn
