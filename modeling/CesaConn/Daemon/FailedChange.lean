import CesaConn.Daemon.Forget

/-! What a state change that fails has changed.

A change saves first and keeps second, so all but one of the steps that can fail
come before anything is kept. The exception is a new salt: it is kept before the
key is derived from it, and stays when the derivation or the save fails.
-/

set_option autoImplicit false

namespace CesaConn

open Format Program

namespace Daemon

open Vault

abbrev Fails {A : Type} (result : Except DaemonError A) : Prop := result.isOk = false

variable {setup : Setup} {task : Nat} {drift : State → State → Prop} {alone : Prop} {A : Type}
  {seen : Holdings × (alone → PeerBook)}

abbrev UndoesSeen (setup : Setup) (task : Nat) (drift : State → State → Prop) {alone : Prop}
    (seen : Holdings × (alone → PeerBook)) (program : Task A) (bad : A → Prop) : Prop :=
  Undoes (machine setup) task drift (State.seen alone) seen program bad

theorem results_ok (value : A) :
    (Proc.done (Except.ok value) : Task (Except DaemonError A)).Results fun result => ¬ Fails result :=
  Bool.noConfusion

def salted (seen : Holdings × (alone → PeerBook)) (kind : KeyKind) (salt : Salt) : Holdings × (alone → PeerBook) :=
  ({ seen.1 with saved := { seen.1.saved with keys := seen.1.saved.keys.setSalt salt kind } }, seen.2)

section

variable (unseen : Unseen drift alone)
include unseen

theorem sees_within {fields : List Field} {program : Task A} (within : program.All (Op.Within fields))
    (apart : .keys ∉ fields ∧ .file ∉ fields ∧ .keychain ∉ fields ∧ .turn ∉ fields ∧ .peers ∉ fields ∧ .book ∉ fields) :
    ShowsSeen setup task drift seen program fun _ next => next = seen := by
  apply shows_all (M := machine setup) unseen within
  intro op footprint before outcome reply after executed
  obtain ⟨keys, file, keychain, turn, peers, book⟩ := apart
  apply seen_of_writes executed
  · exact ⟨fun member => keys (footprint member), fun member => file (footprint member),
      fun member => keychain (footprint member), fun member => turn (footprint member)⟩
  · exact ⟨fun member => peers (footprint member), fun member => book (footprint member)⟩

theorem sees_saltFor (kind : KeyKind) (fresh : Option Salt) :
    ShowsSeen setup task drift seen (await (.saltFor kind fresh)) fun _ next =>
      next = seen ∨ (seen.1.saved.keys.salt kind = none ∧ ∃ salt, next = salted seen kind salt) := by
  apply sees_await unseen
  rintro before outcome reply after rfl executed
  simp only [machine, exec] at executed
  split at executed
  · cases executed
    exact .inl rfl
  · next missing =>
    split at executed
    · next salt =>
      cases executed
      exact .inr ⟨missing, salt, rfl⟩
    · cases executed
      exact .inl rfl

theorem undoes_writeFile (file : Bytes) :
    UndoesSeen setup task drift seen (await (.writeFile file)) fun reply => reply.isOk = false := by
  apply sees_await unseen
  rintro before outcome reply after rfl executed failed
  rcases seen_writeFile executed with ⟨rfl, -⟩ | ⟨-, same⟩
  · cases failed
  · exact same

theorem undoes_keychainSet (item : Item) (bytes : Bytes) :
    UndoesSeen setup task drift seen (await (.keychainSet item bytes)) fun reply => reply.isOk = false := by
  apply sees_await unseen
  rintro before outcome reply after rfl executed failed
  cases outcome with
  | lost | failed e =>
      cases executed
      rfl
  | done | drawn bytes | «at» instant =>
      cases executed
      cases failed

theorem undoes_keychainDelete (item : Item) :
    UndoesSeen setup task drift seen (await (.keychainDelete item)) fun reply => reply.isOk = false := by
  apply sees_await unseen
  rintro before outcome reply after rfl executed failed
  cases outcome with
  | lost | failed e =>
      cases executed
      rfl
  | done | drawn bytes | «at» instant =>
      cases executed
      cases failed

/-! ## Saving -/

theorem undoes_saveChangedKey (kind : KeyKind) (key : Block 32) :
    UndoesSeen setup task drift seen (saveChangedKey setup kind key) Fails := by
  unfold saveChangedKey
  split
  · exact undoes_done _
  apply undoes_then (sees_within unseen encodedPeers_within (by simp))
  intro encoded
  cases encoded with
  | error e => exact undoes_done _
  | ok peers =>
      apply undoes_then (sees_within unseen encodedAddresses_within (by simp))
      intro addresses
      apply undoes_then (sees_aside unseen (by simp) (by simp))
      intro wrapNonce
      apply undoes_then (sees_aside unseen (by simp) (by simp))
      intro nonce
      apply undoes_then (sees_aside unseen (by simp) (by simp))
      intro slots
      split
      · split
        · exact undoes_done _
        split
        · exact undoes_done _
        apply undoes_bind (undoes_writeFile unseen _)
        · intro reply failed
          cases reply with
          | ok value => cases failed
          | lost | failed e => exact undoes_done _
        · -- the file is written: nothing fails from here on
          intro reply wrote
          cases reply with
          | lost | failed e => exact absurd rfl wrote
          | ok value =>
              cases kind with
              | auth => exact results_ok ()
              | data =>
                  refine Proc.results_bind fun _ => ?_
                  split
                  · refine Proc.results_bind fun stored => ?_
                    split
                    · exact results_ok ()
                    · exact Proc.results_bind fun _ => Proc.results_bind fun _ => results_ok ()
                  · exact results_ok ()
      · exact undoes_done _

theorem undoes_reseal (config : Option Config) : UndoesSeen setup task drift seen (reseal setup config) Fails := by
  apply shows_mono (sees_reseal unseen config)
  rintro (e | value) next held failed
  · exact held
  · cases failed

theorem undoes_saveConfig (config : Config) : UndoesSeen setup task drift seen (saveConfig setup config) Fails := by
  apply undoes_bind (undoes_reseal unseen (some config))
  · intro result failed
    cases result with
    | error e => exact undoes_done _
    | ok value => cases failed
  · intro result saved
    cases result with
    | error e => exact absurd rfl saved
    | ok value => exact Proc.results_bind fun _ => results_ok ()

theorem sees_savedConfig : ShowsSeen setup task drift seen savedConfig fun _ next => next = seen := by
  apply shows_bind (sees_readKeys unseen)
  rintro slots next ⟨-, rfl⟩
  split
  · exact shows_done rfl
  split
  · exact shows_done rfl
  · exact shows_done rfl

theorem undoes_changeConfig (f : Config → Config) :
    UndoesSeen setup task drift seen
      (savedConfig >>= fun config => match config with
        | .error e => pure (.error e)
        | .ok config => saveConfig setup (f config)) Fails := by
  apply undoes_then (sees_savedConfig unseen)
  intro config
  cases config with
  | error e => exact undoes_done _
  | ok config => exact undoes_saveConfig unseen (f config)

/-! ## The changes -/

theorem undoes_setSync (on : Bool) : UndoesSeen setup task drift seen (setSync setup on) Fails :=
  undoes_changeConfig unseen fun config => { config with sync := on }

theorem undoes_setClipboard (on : Bool) : UndoesSeen setup task drift seen (setClipboard setup on) Fails := by
  unfold setClipboard
  split
  · exact undoes_done _
  · exact undoes_changeConfig unseen fun config => { config with clipboard := on }

theorem undoes_setAutoLogin (on : Bool) : UndoesSeen setup task drift seen (setAutoLogin setup on) Fails := by
  unfold setAutoLogin
  split
  · exact undoes_done _
  apply undoes_then (sees_aside unseen (by simp) (by simp))
  intro slots
  split
  · exact undoes_done _
  split
  · exact undoes_done _
  split
  · exact undoes_done _
  next dKey _ =>
  have stores : UndoesSeen setup task drift seen
      (if on then await (.keychainSet .dataKey dKey.toList) else await (.keychainDelete .dataKey))
      fun reply => reply.isOk = false := by
    split
    · exact undoes_keychainSet unseen _ _
    · exact undoes_keychainDelete unseen _
  apply undoes_bind stores
  · intro reply failed
    cases reply with
    | ok value => cases failed
    | lost | failed e => exact undoes_done _
  · intro reply stored
    cases reply with
    | lost | failed e => exact absurd rfl stored
    | ok value => exact Proc.results_bind fun _ => results_ok ()

theorem undoes_withSalt (kind : KeyKind) (password : Bytes) (salt : Salt) :
    UndoesSeen setup task drift seen
      (derive password salt >>= fun derived => match derived with
        | .error e => pure (.error e)
        | .ok key => do
            let slots ← await .readKeys
            match ← (if slots.vault.isSome then saveChangedKey setup kind key else pure (.ok ())) with
            | .error e => return .error e
            | .ok () =>
                await (.writeKeys fun keys => keys.setKey key kind)
                updateNetworkKeys
                let slots ← await .readKeys
                if slots.vault.isNone then
                  createVault setup none {}
                  return .ok ()
                else return .ok ()) Fails := by
  apply undoes_then (sees_within unseen (derive_within password salt) (by simp))
  intro derived
  cases derived with
  | error e => exact undoes_done _
  | ok key =>
      apply undoes_then (sees_aside unseen (by simp) (by simp))
      intro slots
      have saves : UndoesSeen setup task drift seen
          (if slots.vault.isSome then saveChangedKey setup kind key else pure (.ok ())) Fails := by
        split
        · exact undoes_saveChangedKey unseen kind key
        · exact undoes_done _
      apply undoes_bind saves
      · intro result failed
        cases result with
        | error e => exact undoes_done _
        | ok value => cases failed
      · intro result saved
        cases result with
        | error e => exact absurd rfl saved
        | ok value =>
            refine Proc.results_bind fun _ => Proc.results_bind fun _ => Proc.results_bind fun slots => ?_
            split
            · exact Proc.results_bind fun _ => results_ok ()
            · exact results_ok ()

end

def startsSalt (kind : KeyKind) (password : Bytes) (keys : KeySlots) : Bool :=
  minNewPasswordLen ≤ passwordChars password && !keys.locked && (keys.salt kind).isNone

section

variable (unseen : Unseen drift alone)
include unseen

theorem sees_setPassword (kind : KeyKind) (password : Bytes) :
    ShowsSeen setup task drift seen (setPassword setup kind password) fun result next =>
      Fails result → next = seen ∨ (startsSalt kind password seen.1.saved.keys = true ∧ ∃ salt, next = salted seen kind salt) := by
  unfold setPassword
  split
  · exact shows_done fun _ => .inl rfl
  next long =>
  apply shows_bind (sees_readKeys unseen)
  rintro slots next ⟨rfl, rfl⟩
  split
  · exact shows_done fun _ => .inl rfl
  next unlocked =>
  apply shows_bind (sees_aside unseen (by simp) (by simp))
  rintro fresh next rfl
  apply shows_bind (sees_saltFor unseen kind fresh)
  rintro reply middle made
  -- whatever the salt is, the rest keeps what is there now
  have rest : ∀ last, last = middle →
      last = next ∨ (startsSalt kind password next.1.saved.keys = true ∧ ∃ salt, last = salted next kind salt) := by
    rintro last rfl
    rcases made with same | ⟨missing, salt, rfl⟩
    · exact .inl same
    · refine .inr ⟨?_, salt, rfl⟩
      simp only [startsSalt, missing, Option.isNone_none, Bool.and_true, Bool.and_eq_true, decide_eq_true_eq]
      exact ⟨Nat.not_lt.mp long, by simpa using unlocked⟩
  cases reply with
  | none => exact shows_done fun _ => rest middle rfl
  | some salt =>
      apply shows_mono (undoes_withSalt unseen kind password salt)
      exact fun result last keeps failed => rest last (keeps failed)

theorem undoes_unlockWith (dKey : DataKey) : UndoesSeen setup task drift seen (unlockWith setup dKey) Fails := by
  unfold unlockWith
  split
  · exact undoes_done _
  apply undoes_then (sees_aside unseen (by simp) (by simp))
  intro salts
  split
  · exact undoes_done _
  · split
    · exact undoes_done _
    apply undoes_then (sees_aside unseen (by simp) (by simp))
    intro file
    split
    · exact undoes_done _
    · exact undoes_done _
    split
    · exact undoes_done _
    split
    · exact undoes_done _
    split
    · exact undoes_done _
    split
    · exact undoes_done _
    -- everything has been read: the rest only keeps it
    apply undoes_results
    exact Proc.results_bind fun _ => Proc.results_bind fun _ => Proc.results_bind fun _ => Proc.results_bind fun _ => results_ok ()
  · exact undoes_done _

theorem sees_writeKeys (change : KeySlots → KeySlots) :
    ShowsSeen setup task drift seen (await (.writeKeys change)) fun _ next =>
      next = ({ seen.1 with saved := { seen.1.saved with keys := change seen.1.saved.keys } }, seen.2) := by
  apply sees_await unseen
  rintro before outcome reply after rfl executed
  cases executed
  rfl

end

def KeySlots.uncounted (keys : KeySlots) : KeySlots := { keys with unlockFailures := 0, unlockNotBefore := none }

def Holdings.uncounted (held : Holdings) : Holdings := { held with saved := { held.saved with keys := held.saved.keys.uncounted } }

theorem countUnlock_uncounted (result : Except DaemonError Unit) (now : Instant) (keys : KeySlots) :
    (countUnlock result now keys).uncounted = keys.uncounted := by
  unfold countUnlock
  split
  · rfl
  · rfl
  · rfl

section

variable (unseen : Unseen drift alone)
include unseen

theorem sees_unlock (password : Bytes) :
    ShowsSeen setup task drift seen (unlock setup password) fun result next =>
      Fails result → next.1.uncounted = seen.1.uncounted ∧ next.2 = seen.2 := by
  have same {result : Except DaemonError Unit} {seen : Holdings × (alone → PeerBook)} :
      ShowsSeen setup task drift seen (.done result) fun result next =>
        Fails result → next.1.uncounted = seen.1.uncounted ∧ next.2 = seen.2 :=
    shows_done fun _ => ⟨rfl, rfl⟩
  unfold unlock
  split
  · exact same
  apply shows_bind (sees_aside unseen (by simp) (by simp))
  rintro slots next rfl
  apply shows_bind (sees_aside unseen (by simp) (by simp))
  rintro now next rfl
  split
  · exact same
  split
  · exact same
  apply shows_bind (sees_aside unseen (by simp) (by simp))
  rintro salts next rfl
  split
  · exact same
  · split
    · exact same
    next salts _ =>
    apply shows_bind (sees_within unseen (derive_within password salts.dSalt) (by simp))
    rintro derived next rfl
    cases derived with
    | error e => exact same
    | ok dKey =>
        apply shows_bind (undoes_unlockWith unseen dKey)
        intro result middle keeps
        apply shows_bind (sees_aside unseen (by simp) (by simp))
        rintro now _ rfl
        apply shows_bind (sees_writeKeys unseen _)
        rintro _ last rfl
        apply shows_done
        intro failed
        rw [keeps failed]
        refine ⟨?_, rfl⟩
        show Holdings.mk _ _ _ = Holdings.mk _ _ _
        rw [countUnlock_uncounted]
  · exact same

end

/-! ## The promise -/

/-- What a failed request may not have touched. -/
def Request.Unchanged (request : Request) (before after : State) : Prop :=
  match request with
  | .unlock _ => after.held.uncounted = before.held.uncounted ∧ after.peerBook = before.peerBook
  | _ => after.held = before.held ∧ after.peerBook = before.peerBook

/-- The request sets a password for which a salt has to be made first. -/
def Request.startsSalt : Request → KeySlots → Bool
  | .setAuthPassword password, keys => Daemon.startsSalt .auth password keys
  | .setDataPassword password, keys => Daemon.startsSalt .data password keys
  | _, _ => false

/-- The other tasks change neither what is saved nor the trusted peers nor the book. -/
def Undisturbed (drift : State → State → Prop) : Prop :=
  ∀ before after, drift before after → after.held = before.held ∧ after.peerBook = before.peerBook

theorem Undisturbed.unseen (apart : Undisturbed drift) : Unseen drift True := fun before after drifted =>
  Prod.ext (apart before after drifted).1 (funext fun _ => (apart before after drifted).2)

/-- The requests this is about: a forgotten device is put back, and a reset is final. -/
def Request.Keeping : Request → Prop
  | .forgetPeer _ | .resetDevice => False
  | _ => True

/-- A request that fails has changed nothing, or it has made a salt and nothing else. -/
theorem failed_request {request : Request} (keeping : request.Keeping) (apart : Undisturbed drift) {before after : State}
    {error : DaemonError} (execution : Executes (machine setup) task drift (performRequest setup request) before (.error error) after) :
    request.Unchanged before after ∨ (request.startsSalt before.keys = true ∧ after.peerBook = before.peerBook ∧
      ∃ kind salt, after.held = { before.held with saved := { before.saved with keys := before.keys.setSalt salt kind } }) := by
  have keeps {program : Task (Except DaemonError Unit)}
      (keeps : UndoesSeen setup task drift (before.seen True) program Fails)
      (execution : Executes (machine setup) task drift program before (.error error) after) :
      after.held = before.held ∧ after.peerBook = before.peerBook :=
    have same := keeps before _ after rfl execution rfl
    ⟨congrArg Prod.fst same, congrFun (congrArg Prod.snd same) trivial⟩
  have salt {kind : KeyKind} {password : Bytes}
      (execution : Executes (machine setup) task drift (setPassword setup kind password) before (.error error) after) :
      (after.held = before.held ∧ after.peerBook = before.peerBook) ∨
        (Daemon.startsSalt kind password before.keys = true ∧ after.peerBook = before.peerBook ∧
          ∃ salt, after.held = { before.held with saved := { before.saved with keys := before.keys.setSalt salt kind } }) := by
    rcases sees_setPassword apart.unseen kind password before _ after rfl execution rfl with same | ⟨starts, salt, made⟩
    · exact .inl ⟨congrArg Prod.fst same, congrFun (congrArg Prod.snd same) trivial⟩
    · exact .inr ⟨starts, congrFun (congrArg Prod.snd made) trivial, salt, congrArg Prod.fst made⟩
  cases request with
  | setAuthPassword password => exact (salt execution).imp_right fun ⟨starts, book, made⟩ => ⟨starts, book, .auth, made⟩
  | setDataPassword password => exact (salt execution).imp_right fun ⟨starts, book, made⟩ => ⟨starts, book, .data, made⟩
  | unlock password =>
      have same := sees_unlock apart.unseen password before _ after rfl execution rfl
      exact .inl ⟨same.1, congrFun same.2 trivial⟩
  | setAutoLogin on => exact .inl (keeps (undoes_setAutoLogin apart.unseen on) execution)
  | setSync on => exact .inl (keeps (undoes_setSync apart.unseen on) execution)
  | setClipboard on => exact .inl (keeps (undoes_setClipboard apart.unseen on) execution)
  | forgetPeer fingerprint => exact keeping.elim
  | resetDevice => exact keeping.elim

theorem setPassword_leaves {kind : KeyKind} {password : Bytes} {before : State}
    (starts : startsSalt kind password before.keys = true) :
    ∃ error after, Executes (machine setup) task Eq (setPassword setup kind password) before (.error error) after ∧
      after.keys ≠ before.keys := by
  simp only [startsSalt, Bool.and_eq_true, decide_eq_true_eq, Bool.not_eq_true', Option.isNone_iff_eq_none] at starts
  obtain ⟨⟨long, unlocked⟩, missing⟩ := starts
  let salt : Salt := .replicate 32 0
  let after : State := { before with keys := before.keys.setSalt salt kind }
  have different : after.keys ≠ before.keys := by
    intro same
    have kept : (before.keys.setSalt salt kind).salt kind = before.keys.salt kind := congrArg (KeySlots.salt · kind) same
    rw [missing] at kept
    cases kind with
    | auth => cases kept
    | data => cases kept
  have made : (machine setup).exec task (.saltFor kind (some salt)) .done before = some (some salt, after) := by
    simp only [machine, exec, missing]
    rfl
  have drawn : (machine setup).exec task (.random 32) (.drawn (List.replicate 32 0)) before = some (some salt, before) := rfl
  have read : (machine setup).exec task .readKeys .done before = some (before.keys, before) := rfl
  have lost : ∃ reply, (machine setup).exec task (.derive password salt) .lost after = some (reply, after) ∧
      ∀ key, reply.result (fun _ => DaemonError.keyDerivationFailed) ≠ .ok key := by
    simp only [machine, exec]
    split
    · exact ⟨.lost, rfl, fun key same => by cases same⟩
    · exact ⟨.failed (), rfl, fun key same => by cases same⟩
  obtain ⟨reply, lost, failed⟩ := lost
  cases settled : reply.result (fun _ => DaemonError.keyDerivationFailed) with
  | ok key => exact absurd settled (failed key)
  | error error =>
      refine ⟨error, after, ?_, different⟩
      unfold setPassword
      rw [if_neg (Nat.not_lt.mpr long)]
      refine .call rfl read ?_
      show Executes (machine setup) task Eq (if before.keys.locked then _ else _) before _ after
      rw [if_neg (by simp [unlocked])]
      refine .call rfl drawn (.call rfl made (.call rfl lost ?_))
      show Executes (machine setup) task Eq (Proc.bind (.done (reply.result fun _ => DaemonError.keyDerivationFailed)) _) after _ after
      rw [settled]
      exact .done

/-- A request that fails changes nothing, exactly unless it sets a password whose
salt has to be made first. Then a failure can leave the new salt, and nothing else. -/
theorem failed_change_iff {request : Request} (keeping : request.Keeping) (before : State) :
    ((∀ (task : Nat) (drift : State → State → Prop), Undisturbed drift → ∀ error after,
        Executes (machine setup) task drift (performRequest setup request) before (.error error) after →
          request.Unchanged before after) ↔ request.startsSalt before.keys = false) ∧
    ∀ (task : Nat) (drift : State → State → Prop), Undisturbed drift → ∀ error after,
      Executes (machine setup) task drift (performRequest setup request) before (.error error) after →
        request.Unchanged before after ∨ (after.peerBook = before.peerBook ∧ ∃ kind salt,
          after.held = { before.held with saved := { before.saved with keys := before.keys.setSalt salt kind } }) := by
  have still : Undisturbed Eq := by
    rintro state _ rfl
    exact ⟨rfl, rfl⟩
  refine ⟨⟨fun always => ?_, fun never => ?_⟩, ?_⟩
  · rw [← Bool.not_eq_true]
    intro starts
    cases request with
    | setAuthPassword password =>
        obtain ⟨error, after, execution, different⟩ := @setPassword_leaves setup 0 _ _ _ starts
        exact different (congrArg (fun held => held.saved.keys) (always 0 Eq still error after execution).1)
    | setDataPassword password =>
        obtain ⟨error, after, execution, different⟩ := @setPassword_leaves setup 0 _ _ _ starts
        exact different (congrArg (fun held => held.saved.keys) (always 0 Eq still error after execution).1)
    | unlock | setAutoLogin | setSync | setClipboard | forgetPeer | resetDevice => cases starts
  · intro task drift apart error after execution
    refine (failed_request keeping apart execution).resolve_right ?_
    rw [never]
    exact fun impossible => Bool.noConfusion impossible.1
  · intro task drift apart error after execution
    exact (failed_request keeping apart execution).imp_right fun ⟨_, left⟩ => left

/-- Sync is turned off, and the vault cannot be written. -/
theorem failed_setSync_unchanged :
    ∃ after, Executes (machine plainSetup) 0 Eq (performRequest plainSetup (.setSync false)) unpaired (.error .storageFailed) after ∧
      after.held = unpaired.held ∧ after.peerBook = unpaired.peerBook := by
  have still : Undisturbed Eq := by
    rintro state _ rfl
    exact ⟨rfl, rfl⟩
  have runs : ∃ result after, Executes (machine plainSetup) 0 Eq (performRequest plainSetup (.setSync false))
      unpaired result after ∧ result = .error .storageFailed :=
    executes_of_plays (fun _ => rfl) (List.replicate 5 .done ++ [.drawn (List.replicate 12 6), .done, .failed .io])
      (by decide +kernel)
  obtain ⟨result, after, execution, rfl⟩ := runs
  have keeping : (Request.setSync false).Keeping := trivial
  exact ⟨after, execution, (failed_change_iff keeping unpaired).1.mpr rfl 0 Eq still _ after execution⟩

/-- The first password of a device whose key cannot be derived: no key is set,
and the device is no longer a fresh one, so it may not join a group any more. -/
theorem failed_password_keeps_salt :
    (new none fun _ => none).keys.fresh = true ∧
    ∃ error after, Executes (machine plainSetup) 0 Eq (performRequest plainSetup (.setAuthPassword (List.replicate 12 97)))
        (new none fun _ => none) (.error error) after ∧
      after.keys.fresh = false ∧ ¬ (Request.setAuthPassword (List.replicate 12 97)).Unchanged (new none fun _ => none) after := by
  refine ⟨rfl, ?_⟩
  have runs : ∃ result after, Executes (machine plainSetup) 0 Eq
      (performRequest plainSetup (.setAuthPassword (List.replicate 12 97))) (new none fun _ => none) result after ∧
      result.isOk = false ∧ after.keys.fresh = false :=
    executes_of_plays (fun _ => rfl) ([.done, .drawn (List.replicate 32 0), .done, .lost] : List Outcome)
      (by decide +kernel)
  obtain ⟨result, after, execution, failed, fresh⟩ := runs
  cases result with
  | ok value => cases failed
  | error error =>
      refine ⟨error, after, execution, fresh, fun unchanged => ?_⟩
      have same : after.keys = (new none fun _ => none).keys := congrArg (fun held => held.saved.keys) unchanged.1
      rw [same] at fresh
      cases fresh

end Daemon

end CesaConn
