import CesaConn.Daemon.Sequence
import CesaConn.Storage.Integrity

/-! What a damaged vault file does to an unlock and to the automatic login.

Only the DEK wrap tells a wrong key, so only damage to the wrap is taken for one.
-/

set_option autoImplicit false

namespace CesaConn

open Format Program

namespace Daemon

open Vault

/-- The file has not the outer form of a vault, or its wrap was made under this KEK. -/
def Spared (aead : Aead) (history : List VaultCall) (kek : Kek) (file : Bytes) : Prop :=
  ∀ wrap nonce ciphertext, Layout file wrap nonce ciphertext → ∃ dek, Wrapped aead history kek wrap dek

theorem spared_iff {aead : Aead} {history : List VaultCall} (ideal : Ideal aead history) (kek : Kek) (file : Bytes) :
    Spared aead history kek file ↔ openVault aead kek file ≠ .error .wrongKey := by
  rw [Ne, openVault_wrongKey ideal]
  constructor
  · rintro spared ⟨wrap, nonce, ciphertext, layout, unmade⟩
    obtain ⟨dek, made⟩ := spared wrap nonce ciphertext layout
    exact unmade dek made
  · intro none wrap nonce ciphertext layout
    by_contra unmade
    exact none ⟨wrap, nonce, ciphertext, layout, fun dek made => unmade ⟨dek, made⟩⟩

def Derives (setup : Setup) (keychain : Item → Option Bytes) (dKey : DataKey) (kek : Kek) : Prop :=
  ∃ salts, (keychain .salts).bind Salts.fromBytes = some salts ∧ deriveKek setup.crypto dKey salts.storageSalt = .ok kek

/-- The guess counter and the delay are as they were, or back at nothing. -/
def Uncounted (before after : KeySlots) : Prop :=
  (after.unlockFailures = before.unlockFailures ∧ after.unlockNotBefore = before.unlockNotBefore) ∨
    (after.unlockFailures = 0 ∧ after.unlockNotBefore = none)

theorem storageError_ne {e : VaultErrors} (other : e ≠ .wrongKey) : storageError e ≠ .wrongPassword := by
  cases e <;> first | exact absurd rfl other | exact fun same => by cases same

variable {setup : Setup} {allowed : Op → Outcome → State → Bool} {task : Nat} {saved : Saved}

theorem ends_unlockWith {dKey : DataKey} {kek : Kek} {file : Bytes} (stored : saved.file = some file)
    (derives : Derives setup saved.keychain dKey kek)
    (other : openVault setup.crypto.aead kek file ≠ .error .wrongKey) :
    Ends setup allowed task saved (unlockWith setup dKey) fun result next =>
      result ≠ .error .wrongPassword ∧ next.keychain = saved.keychain ∧
        next.keys.unlockFailures = saved.keys.unlockFailures ∧
        next.keys.unlockNotBefore = saved.keys.unlockNotBefore := by
  obtain ⟨salts, known, derived⟩ := derives
  have refused : ∀ {e : DaemonError}, e ≠ .wrongPassword →
      Ends setup allowed task saved (pure (.error e) : Task (Except DaemonError Unit)) fun result next =>
        result ≠ .error .wrongPassword ∧ next.keychain = saved.keychain ∧
          next.keys.unlockFailures = saved.keys.unlockFailures ∧
          next.keys.unlockNotBefore = saved.keys.unlockNotBefore := by
    intro e right
    exact ends_done ⟨fun same => right (Except.error.inj same), rfl, rfl, rfl⟩
  unfold unlockWith
  split
  · exact refused (by decide)
  apply ends_bind (ends_keychainGet .salts)
  rintro reply saved ⟨rfl, read⟩
  split
  · exact refused (by decide)
  · next bytes =>
    have found : Salts.fromBytes bytes = some salts := by
      rw [← read _ rfl] at known
      exact known
    rw [found]
    apply ends_bind ends_readFile
    rintro reply saved ⟨rfl, answered⟩
    split
    · next e failed =>
      rw [failed] at answered
      exact refused answered
    · exact refused (by decide)
    next content read =>
    rw [read] at answered
    cases answered.trans stored
    split
    · next e failed => cases derived.symm.trans failed
    next kek' same =>
    cases derived.symm.trans same
    split
    · next e failed => exact refused (storageError_ne fun same => other (same ▸ failed))
    split
    · exact refused (by decide)
    split
    · exact refused (by decide)
    apply ends_bind (ends_aside (by simp))
    rintro list saved rfl
    apply ends_bind (ends_aside (by simp))
    rintro _ saved rfl
    apply ends_bind (ends_aside (by simp))
    rintro _ saved rfl
    apply ends_bind (ends_writeKeys _)
    rintro _ _ rfl
    exact ends_done ⟨(by simp), rfl, rfl, rfl⟩
  · exact refused (by decide)

theorem uncounted_countUnlock {before keys : KeySlots} {result : Except DaemonError Unit}
    (right : result ≠ .error .wrongPassword) (failures : keys.unlockFailures = before.unlockFailures)
    (delay : keys.unlockNotBefore = before.unlockNotBefore) (now : Instant) :
    Uncounted before (countUnlock result now keys) := by
  unfold countUnlock
  split
  · exact .inr ⟨rfl, rfl⟩
  · exact absurd rfl right
  · exact .inl ⟨failures, delay⟩

/-- The right password is never counted as a guess. -/
theorem ends_unlock {password : Bytes} {kek : Kek} {file : Bytes} (stored : saved.file = some file)
    (right : ∀ salts dKey, (saved.keychain .salts).bind Salts.fromBytes = some salts →
      setup.crypto.deriveKey password salts.dSalt = some dKey → Derives setup saved.keychain dKey kek)
    (other : openVault setup.crypto.aead kek file ≠ .error .wrongKey) :
    Ends setup allowed task saved (unlock setup password) fun result next =>
      result ≠ .error .wrongPassword ∧ Uncounted saved.keys next.keys := by
  have refused : ∀ {e : DaemonError}, e ≠ .wrongPassword →
      Ends setup allowed task saved (pure (.error e) : Task (Except DaemonError Unit)) fun result next =>
        result ≠ .error .wrongPassword ∧ Uncounted saved.keys next.keys := by
    intro e wrong
    exact ends_done ⟨fun same => wrong (Except.error.inj same), .inl ⟨rfl, rfl⟩⟩
  unfold unlock
  split
  · exact refused (by decide)
  apply ends_bind ends_readKeys
  rintro _ saved ⟨rfl, rfl⟩
  apply ends_bind (ends_aside (by simp))
  rintro now saved rfl
  split
  · exact refused (by split <;> decide)
  split
  · exact refused (by decide)
  apply ends_bind (ends_keychainGet .salts)
  rintro reply saved ⟨rfl, read⟩
  split
  · exact refused (by decide)
  · next bytes =>
    have kept : some bytes = saved.keychain .salts := read _ rfl
    split
    · exact refused (by decide)
    next salts parsed =>
    apply ends_bind (ends_derive password salts.dSalt)
    rintro reply saved ⟨rfl, derived⟩
    cases reply with
    | error e => exact refused derived
    | ok dKey =>
        have derives := right salts dKey (by rw [← kept]; exact parsed) derived
        apply ends_bind (ends_unlockWith stored derives other)
        intro result next
        rintro ⟨wrong, -, failures, delay⟩
        apply ends_bind (ends_aside (by simp))
        rintro now next rfl
        apply ends_bind (ends_writeKeys _)
        rintro _ _ rfl
        exact ends_done ⟨wrong, uncounted_countUnlock wrong failures delay now⟩
  · exact refused (by decide)

theorem ends_start {dKey : DataKey} {kek : Kek} {file : Bytes} (stored : saved.file = some file)
    (item : saved.keychain .dataKey = some dKey.toList) (derives : Derives setup saved.keychain dKey kek)
    (other : openVault setup.crypto.aead kek file ≠ .error .wrongKey) :
    Ends setup allowed task saved (start setup) fun _ next => next.keychain = saved.keychain := by
  unfold start
  split
  · exact ends_done rfl
  apply ends_bind ends_readFile
  rintro reply saved ⟨rfl, -⟩
  split
  · exact ends_done rfl
  apply ends_bind (ends_writeKeys _)
  rintro _ _ rfl
  apply ends_bind (ends_keychainGet .dataKey)
  rintro reply _ ⟨rfl, read⟩
  split
  · next bytes =>
    apply ends_bind (ends_writeKeys _)
    rintro _ _ rfl
    cases (read _ rfl).trans item
    rw [toBlock_toList]
    refine ends_bind (ends_unlockWith ?_ ?_ other) ?_
    · exact stored
    · exact derives
    rintro result next ⟨wrong, keychain, -⟩
    split
    · refine ends_mono (ends_within applyNetwork_within (by simp)) ?_
      rintro _ _ rfl
      exact keychain
    · exact absurd rfl wrong
    · exact ends_done keychain
  · exact ends_done rfl

/-- Damage is reported as damage, is never counted as a guess and never costs the automatic login
its key, exactly where the wrap is spared. -/
theorem damage_is_no_wrong_password {history : List VaultCall} (ideal : Ideal setup.crypto.aead history) (kek : Kek)
    (file : Bytes) :
    (openVault setup.crypto.aead kek file ≠ .error .wrongKey ∧
      (∀ task password before result after, State.file before = some file →
        (∀ salts dKey, (before.keychain .salts).bind Salts.fromBytes = some salts →
          setup.crypto.deriveKey password salts.dSalt = some dKey → Derives setup before.keychain dKey kek) →
        Executes (machine setup) task Beside (unlock setup password) before result after →
        result ≠ .error .wrongPassword ∧ Uncounted before.keys (State.keys after)) ∧
      ∀ task (dKey : DataKey) before result after, State.file before = some file →
        before.keychain .dataKey = some dKey.toList → Derives setup before.keychain dKey kek →
        Executes (machine setup) task Beside (start setup) before result after →
        (State.keychain after) .dataKey = some dKey.toList) ↔
    Spared setup.crypto.aead history kek file := by
  rw [spared_iff ideal]
  constructor
  · exact fun reported => reported.1
  · intro other
    refine ⟨other, ?_, ?_⟩
    · intro task password before result after stored right execution
      exact (ends_unlock stored right other).executes execution
    · intro task dKey before result after stored item derives execution
      have kept := (ends_start stored item derives other).executes execution
      exact (congrFun kept .dataKey).trans item

def smallSetup : Setup := ⟨{ Crypto.plain with aead := smallAead }, true, true⟩

/-- Damage behind the wrap is told from a wrong password. -/
theorem damaged_contents_reported :
    openVault smallAead (.replicate 32 4) (header.toList ++ (smallWrap.toList ++ List.replicate 4124 0)) ≠
      .error .wrongKey := by
  apply ((damage_is_no_wrong_password (show Ideal smallSetup.crypto.aead smallHistory from smallAead_ideal)
    (.replicate 32 4) _).mpr ?_).1
  intro wrap nonce ciphertext layout
  obtain ⟨same, -⟩ := List.append_inj (List.append_cancel_left layout.parts) (by simp)
  cases List.Vector.toList_injective same
  exact ⟨.replicate 32 5, _, by simp [smallHistory], smallAead_wraps⟩

/-- Damage to the wrap is not: the file was sealed, the damaged one never was. -/
theorem damaged_wrap_is_wrong_key : ∃ file damaged,
    wrapDek smallAead (some (.replicate 12 6)) (.replicate 32 4) (.replicate 32 5) = .ok smallWrap ∧
    sealVault smallAead (some (.replicate 12 6)) smallWrap (.replicate 32 5) smallContents = .ok file ∧
    damaged ≠ file ∧
    (∀ drawn wrapped dek contents, .sealVault drawn wrapped dek contents ∈ smallHistory →
      sealVault smallAead drawn wrapped dek contents ≠ .ok damaged) ∧
    openVault smallAead (.replicate 32 4) damaged = .error .wrongKey := by
  obtain ⟨file, seals⟩ := smallAead_seals
  obtain ⟨nonce, ciphertext, layout⟩ := layout_of_sealVault smallAead_ideal.expands seals
  have other : smallWrap ≠ .replicate wrapLen 0 := by decide
  let damaged := header.toList ++ ((List.Vector.replicate wrapLen 0).toList ++ (nonce.toList ++ ciphertext))
  have same : damaged.length = file.length := by simp [damaged, layout.parts]
  have spoiled : Layout damaged (.replicate wrapLen 0) nonce ciphertext :=
    ⟨rfl, same ▸ layout.least, same ▸ layout.most, layout.whole⟩
  have different : damaged ≠ file := by
    intro equal
    exact other (layout.wrap_eq (equal ▸ spoiled))
  refine ⟨file, damaged, smallAead_wraps, seals, different, ?_, ?_⟩
  · intro drawn wrapped dek contents recorded made
    simp only [smallHistory, List.mem_cons, reduceCtorEq, List.not_mem_nil, or_false, false_or,
      VaultCall.sealVault.injEq] at recorded
    obtain ⟨rfl, rfl, rfl, rfl⟩ := recorded
    exact different (Except.ok.inj (made.symm.trans seals))
  · apply (openVault_wrongKey smallAead_ideal).mpr
    refine ⟨_, nonce, ciphertext, spoiled, ?_⟩
    rintro dek ⟨drawn, recorded, made⟩
    simp only [smallHistory, List.mem_cons, reduceCtorEq, List.not_mem_nil, or_false,
      VaultCall.wrapDek.injEq] at recorded
    obtain ⟨rfl, -, rfl⟩ := recorded
    exact other (Except.ok.inj (smallAead_wraps.symm.trans made))

end Daemon

end CesaConn
