import CesaConn.Daemon.Frame

/-! What a state change consists of.

Between taking the change slot and giving it back, a state change neither takes
nor gives back the slot, and no change but a reset wipes the keys, counts a reset
or takes an auth key away.
-/

set_option autoImplicit false

namespace CesaConn

open Format Program

namespace Daemon

open Vault

def Op.Inner : Op → Prop
  | .acquire | .release | .wipeKeys | .bumpResets => False
  | .writeKeys change => ∀ keys, keys.aKey.isSome → (change keys).aKey.isSome
  | _ => True

theorem inner_of_within {fields : List Field} {op : Op} (within : op.Within fields)
    (apart : .keys ∉ fields ∧ .turn ∉ fields ∧ .resets ∉ fields) : op.Inner := by
  cases op
  case acquire | release => exact absurd (within (by simp)) apart.2.1
  case wipeKeys | writeKeys => exact absurd (within (by simp)) apart.1
  case bumpResets => exact absurd (within (by simp)) apart.2.2
  all_goals trivial

variable {setup : Setup} {A : Type}

theorem all_imp {P Q : Op → Prop} {program : Task A} (all : program.All P) (weaker : ∀ op, P op → Q op) :
    program.All Q := by
  induction program with
  | done value => trivial
  | call op next ih => exact ⟨weaker op all.1, fun reply => ih reply (all.2 reply)⟩

theorem inner_within {fields : List Field} {program : Task A} (within : program.All (Op.Within fields))
    (apart : .keys ∉ fields ∧ .turn ∉ fields ∧ .resets ∉ fields) : program.All Op.Inner :=
  all_imp within fun _ footprint => inner_of_within footprint apart

theorem inner_await {op : Op} (inner : op.Inner) : (await op).All Op.Inner := ⟨inner, fun _ => trivial⟩

theorem inner_createVault (identity : Option Identity) (config : Config) :
    (createVault setup identity config).All Op.Inner := by
  refine all_ite trivial (Proc.all_bind (inner_await trivial) fun slots => ?_)
  split
  · refine Proc.all_bind (inner_within encodedPeers_within (by simp)) fun encoded => ?_
    cases encoded with
    | error e => trivial
    | ok peers =>
        refine Proc.all_bind (inner_within encodedAddresses_within (by simp)) fun addresses => ?_
        refine Proc.all_bind (inner_await trivial) fun storageSalt => ?_
        refine Proc.all_bind (inner_await trivial) fun dek => ?_
        refine Proc.all_bind (inner_await trivial) fun wrapNonce => ?_
        refine Proc.all_bind (inner_await trivial) fun seed => ?_
        refine Proc.all_bind (inner_await trivial) fun nonce => ?_
        split
        · trivial
        refine Proc.all_bind (inner_await trivial) fun salts => all_ite ?_ trivial
        refine Proc.all_bind (inner_await trivial) fun file => all_ite ?_ trivial
        exact inner_await fun keys has => has
  · trivial

theorem inner_saveChangedKey (kind : KeyKind) (key : Block 32) :
    (saveChangedKey setup kind key).All Op.Inner := by
  refine all_ite trivial (Proc.all_bind (inner_within encodedPeers_within (by simp)) fun encoded => ?_)
  cases encoded with
  | error e => trivial
  | ok peers =>
      refine Proc.all_bind (inner_within encodedAddresses_within (by simp)) fun addresses => ?_
      refine Proc.all_bind (inner_await trivial) fun wrapNonce => ?_
      refine Proc.all_bind (inner_await trivial) fun nonce => ?_
      refine Proc.all_bind (inner_await trivial) fun slots => ?_
      split
      · split
        · trivial
        split
        · trivial
        refine Proc.all_bind (inner_await trivial) fun written => ?_
        split
        · trivial
        cases kind with
        | auth => trivial
        | data =>
            refine Proc.all_bind (inner_await fun keys has => has) fun _ => all_ite ?_ trivial
            refine Proc.all_bind (inner_await trivial) fun stored => all_ite trivial ?_
            refine Proc.all_bind (inner_await trivial) fun _ => ?_
            exact Proc.all_bind (inner_await fun keys has => has) fun _ => trivial
      · trivial

theorem inner_setPassword (kind : KeyKind) (password : Bytes) : (setPassword setup kind password).All Op.Inner := by
  refine all_ite trivial (Proc.all_bind (inner_await trivial) fun slots => all_ite trivial ?_)
  refine Proc.all_bind (inner_await trivial) fun fresh => Proc.all_bind (inner_await trivial) fun salt => ?_
  cases salt with
  | none => trivial
  | some salt =>
      refine Proc.all_bind (inner_within (derive_within password salt) (by simp)) fun derived => ?_
      cases derived with
      | error e => trivial
      | ok key =>
          refine Proc.all_bind (inner_await trivial) fun slots => ?_
          refine Proc.all_bind (all_ite (inner_saveChangedKey kind key) trivial) fun saved => ?_
          cases saved with
          | error e => trivial
          | ok _ =>
              refine Proc.all_bind (inner_await fun keys has => ?_) fun _ => ?_
              · cases kind with
                | auth => rfl
                | data => exact has
              refine Proc.all_bind (inner_within updateNetworkKeys_within (by simp)) fun _ => ?_
              refine Proc.all_bind (inner_await trivial) fun slots => all_ite ?_ trivial
              exact Proc.all_bind (inner_createVault none {}) fun _ => trivial

theorem inner_unlockWith (dKey : DataKey) : (unlockWith setup dKey).All Op.Inner := by
  refine all_ite trivial (Proc.all_bind (inner_await trivial) fun reply => ?_)
  split
  · trivial
  · split
    · trivial
    refine Proc.all_bind (inner_await trivial) fun read => ?_
    split
    · trivial
    · trivial
    split
    · trivial
    split
    · trivial
    split
    · trivial
    split
    · trivial
    refine Proc.all_bind (inner_await trivial) fun list => Proc.all_bind (inner_await trivial) fun _ => ?_
    refine Proc.all_bind (inner_await trivial) fun _ => ?_
    exact Proc.all_bind (inner_await fun keys has => rfl) fun _ => trivial
  · trivial

theorem inner_unlock (password : Bytes) : (unlock setup password).All Op.Inner := by
  refine all_ite trivial (Proc.all_bind (inner_await trivial) fun slots => ?_)
  refine Proc.all_bind (inner_await trivial) fun now => all_ite trivial (all_ite trivial ?_)
  refine Proc.all_bind (inner_await trivial) fun reply => ?_
  split
  · trivial
  · split
    · trivial
    next salts _ =>
    refine Proc.all_bind (inner_within (derive_within password salts.dSalt) (by simp)) fun derived => ?_
    cases derived with
    | error e => trivial
    | ok dKey =>
        refine Proc.all_bind (inner_unlockWith dKey) fun result => Proc.all_bind (inner_await trivial) fun now => ?_
        refine Proc.all_bind (inner_await fun keys has => ?_) fun _ => trivial
        unfold countUnlock
        split <;> exact has
  · trivial

theorem inner_autoLogin : (autoLogin setup).All Op.Inner := by
  refine Proc.all_bind (inner_await trivial) fun reply => ?_
  split
  · refine Proc.all_bind (inner_await fun keys has => has) fun _ => ?_
    split
    · trivial
    next dKey _ =>
    refine Proc.all_bind (inner_unlockWith dKey) fun result => ?_
    split
    · exact inner_within applyNetwork_within (by simp)
    · refine Proc.all_bind (inner_await trivial) fun deleted => all_ite ?_ trivial
      exact inner_await fun keys has => has
    · trivial
  · trivial

theorem inner_start : (start setup).All Op.Inner := by
  refine all_ite trivial (Proc.all_bind (inner_await trivial) fun reply => ?_)
  split
  · trivial
  · exact Proc.all_bind (inner_await fun keys has => has) fun _ => inner_autoLogin

theorem inner_setAutoLogin (on : Bool) : (setAutoLogin setup on).All Op.Inner := by
  refine all_ite trivial (Proc.all_bind (inner_await trivial) fun slots => all_ite trivial (all_ite trivial ?_))
  split
  · trivial
  refine Proc.all_bind (all_ite (inner_await trivial) (inner_await trivial)) fun result => ?_
  split
  · trivial
  · exact Proc.all_bind (inner_await fun keys has => has) fun _ => trivial

theorem inner_saveConfig (config : Config) : (saveConfig setup config).All Op.Inner := by
  refine Proc.all_bind (inner_within (reseal_within _) (by simp)) fun result => ?_
  cases result with
  | error e => trivial
  | ok _ => exact Proc.all_bind (inner_await fun keys has => has) fun _ => trivial

theorem inner_savedConfig : savedConfig.All Op.Inner := by
  refine Proc.all_bind (inner_await trivial) fun slots => all_ite trivial ?_
  split <;> trivial

theorem inner_setSync (on : Bool) : (setSync setup on).All Op.Inner := by
  refine Proc.all_bind inner_savedConfig fun config => ?_
  cases config with
  | error e => trivial
  | ok config => exact inner_saveConfig _

theorem inner_setClipboard (on : Bool) : (setClipboard setup on).All Op.Inner := by
  refine all_ite trivial (Proc.all_bind inner_savedConfig fun config => ?_)
  cases config with
  | error e => trivial
  | ok config => exact inner_saveConfig _

theorem inner_forgetPeer (fingerprint : Block fingerprintLen) : (forgetPeer setup fingerprint).All Op.Inner := by
  refine Proc.all_bind (inner_await trivial) fun slots => all_ite trivial ?_
  refine Proc.all_bind (inner_await trivial) fun list => Proc.all_bind (inner_await trivial) fun removed => ?_
  refine all_ite trivial (Proc.all_bind (inner_await trivial) fun slots => ?_)
  refine Proc.all_bind (all_ite (inner_within (reseal_within _) (by simp)) trivial) fun result => ?_
  cases result with
  | error e => exact Proc.all_bind (inner_await trivial) fun _ => trivial
  | ok _ => exact Proc.all_bind (inner_within (removePeers_within removed) (by simp)) fun _ => trivial

theorem inner_performRequest {request : Request} (other : request ≠ .resetDevice) :
    (performRequest setup request).All Op.Inner := by
  cases request with
  | setAuthPassword password => exact inner_setPassword .auth password
  | setDataPassword password => exact inner_setPassword .data password
  | unlock password => exact inner_unlock password
  | setAutoLogin on => exact inner_setAutoLogin on
  | setSync on => exact inner_setSync on
  | setClipboard on => exact inner_setClipboard on
  | forgetPeer fingerprint => exact inner_forgetPeer fingerprint
  | resetDevice => exact absurd rfl other

end Daemon

end CesaConn
