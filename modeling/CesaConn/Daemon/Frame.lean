import CesaConn.Daemon.Tasks

/-! Which part of the state an operation can write, and which a function can.

Everything outside an operation's footprint is as it was. A function's footprint
is what its operations write, whatever the replies are.
-/

set_option autoImplicit false

namespace CesaConn

open Format Program

namespace Daemon

open Vault

inductive Field where
  | keys | file | keychain | clock | turn | resets | peers | book | network | contexts | offer | cancelled
  | pairings | closed | adding | otherGroup | invite | nextInvite | windows | join | nextJoin
  deriving DecidableEq

@[simp] def Op.writes : Op → List Field
  | .acquire | .release => [.turn]
  | .now => [.clock]
  | .keychainSet _ _ | .keychainDelete _ => [.keychain]
  | .writeFile _ | .deleteFile => [.file]
  | .writeKeys _ | .wipeKeys | .saltFor _ _ => [.keys]
  | .bumpResets => [.resets]
  | .takePeers _ _ | .putBack _ _ | .loadPeers _ _ | .pushPeer _ _ | .savePeer _ _ | .newPeers => [.peers]
  | .writeBook _ => [.book]
  | .newContext _ _ | .setContextKeys _ _ => [.contexts]
  | .publishNetwork _ => [.network, .cancelled, .adding]
  | .takeNetwork => [.network, .cancelled]
  | .listenerFails _ | .expireWindow _ => [.cancelled]
  | .claimWindow => [.adding, .otherGroup, .nextInvite]
  | .storeInvite _ => [.invite]
  | .offerSalt _ _ => [.offer, .windows]
  | .takeInvite _ => [.invite, .cancelled]
  | .stopInvite => [.invite, .cancelled, .adding]
  | .closeOffer _ _ => [.offer, .adding]
  | .beginJoin => [.nextJoin]
  | .claimJoin _ | .endJoin _ => [.join]
  | .takeJoin => [.join, .cancelled]
  | .pushPairing _ | .clearPairings => [.pairings]
  | .clearPrompts => [.pairings, .otherGroup]
  | .closeDecision _ => [.closed]
  | _ => []

def State.Same (before after : State) : Field → Prop
  | .keys => after.keys = before.keys
  | .file => after.file = before.file
  | .keychain => after.keychain = before.keychain
  | .clock => after.clock = before.clock
  | .turn => after.turn = before.turn
  | .resets => after.resets = before.resets
  | .peers => after.trustedPeers = before.trustedPeers ∧ after.lists = before.lists ∧
      after.nextList = before.nextList
  | .book => after.peerBook = before.peerBook
  | .network => after.network = before.network
  | .contexts => after.contextKeys = before.contextKeys ∧ after.nextNetwork = before.nextNetwork
  | .offer => after.saltOffer = before.saltOffer
  | .cancelled => after.cancelled = before.cancelled
  | .pairings => after.pairings = before.pairings
  | .closed => after.closed = before.closed
  | .adding => after.adding = before.adding
  | .otherGroup => after.otherGroup = before.otherGroup
  | .invite => after.invite = before.invite
  | .nextInvite => after.nextInvite = before.nextInvite
  | .windows => after.windows = before.windows
  | .join => after.join = before.join
  | .nextJoin => after.nextJoin = before.nextJoin

theorem State.same_refl (state : State) (field : Field) : state.Same state field := by
  cases field <;> simp [State.Same]

theorem Outcome.write_eq {E : Type} {outcome : Outcome} {error : VaultErrors → E} {state written : State}
    {result : Call E Unit × State} (executed : outcome.write error state written = result) :
    (result.1.isOk ∧ result.2 = written) ∨ (result.1.isOk = false ∧ result.2 = state) := by
  subst executed
  cases outcome <;> simp [Outcome.write, Call.isOk]

variable {setup : Setup} {task : Nat}

/-- An operation leaves alone what is not in its footprint. -/
theorem exec_same {op : Op} {outcome : Outcome} {before after : State} {reply : Reply op}
    (executed : (machine setup).exec task op outcome before = some (reply, after)) (field : Field)
    (untouched : field ∉ op.writes) : before.Same after field := by
  cases op
  all_goals simp only [machine, exec] at executed
  all_goals repeat' split at executed
  all_goals first
    | cases executed
    | (obtain ⟨_, same⟩ | ⟨_, same⟩ := Outcome.write_eq (Option.some.inj executed) <;> subst same)
  all_goals try exact before.same_refl field
  all_goals
    revert untouched
    cases field <;>
      first
      | exact fun _ => rfl
      | exact fun _ => ⟨rfl, rfl, rfl⟩
      | exact fun _ => ⟨rfl, rfl⟩
      | exact fun untouched => absurd (by simp) untouched

theorem exec_cancelled {op : Op} {outcome : Outcome} {before after : State} {reply : Reply op}
    (executed : (machine setup).exec task op outcome before = some (reply, after)) {token : Token}
    (cancelled : before.cancelled token = true) : after.cancelled token = true := by
  have cancel : ∀ other, (before.cancel other).cancelled token = true := by
    intro other
    by_cases same : token = other
    · simp [State.cancel, same]
    · simpa [State.cancel, same] using cancelled
  by_cases untouched : .cancelled ∉ op.writes
  · rw [exec_same executed .cancelled untouched]
    exact cancelled
  · cases op <;> simp [Op.writes] at untouched
    all_goals simp only [machine, exec] at executed
    all_goals repeat' split at executed
    all_goals cases executed
    all_goals first
      | exact cancelled
      | exact cancel _

/-! ## What one step does

One inversion lemma for each operation that branches on the state.
-/

section Steps

variable {outcome : Outcome} {before after : State}

theorem acquire_cases {reply : Unit} (executed : (machine setup).exec task .acquire outcome before = some (reply, after)) :
    before.turn = none ∧ after = { before with turn := some task } := by
  simp only [machine, exec] at executed
  split at executed
  · next free =>
    cases executed
    exact ⟨free, rfl⟩
  · cases executed

theorem release_cases {reply : Unit} (executed : (machine setup).exec task .release outcome before = some (reply, after)) :
    before.turn = some task ∧ after = { before with turn := none } := by
  simp only [machine, exec] at executed
  split at executed
  · next own =>
    cases executed
    exact ⟨own, rfl⟩
  · cases executed

theorem publishNetwork_cases {network : Network} {reply : Unit}
    (executed : (machine setup).exec task (.publishNetwork network) outcome before = some (reply, after)) :
    (before.runningNetwork.isSome ∧ after = before.cancel (.network network.number)) ∨
      (before.runningNetwork = none ∧ after = { before with network := some network, adding := false }) := by
  simp only [machine, exec] at executed
  split at executed
  · next running =>
    cases executed
    exact .inl ⟨by simp [running], rfl⟩
  · next stopped =>
    cases executed
    exact .inr ⟨stopped, rfl⟩

theorem takeNetwork_cases {reply : Bool}
    (executed : (machine setup).exec task .takeNetwork outcome before = some (reply, after)) :
    (before.network = none ∧ reply = false ∧ after = before) ∨
      ∃ network, before.network = some network ∧ reply = true ∧
        after = { before.cancel (.network network.number) with network := none } := by
  simp only [machine, exec] at executed
  split at executed
  · next missing =>
    cases executed
    exact .inl ⟨missing, rfl, rfl⟩
  · next network found =>
    cases executed
    exact .inr ⟨network, found, rfl, rfl⟩

theorem claimWindow_cases {reply : Except DaemonError (Option WindowClaim)}
    (executed : (machine setup).exec task .claimWindow outcome before = some (reply, after)) :
    (after = before ∧ ∀ claim, reply ≠ .ok (some claim)) ∨
      ∃ dSalt, before.adding = false ∧ reply = .ok (some ⟨before.nextInvite, dSalt⟩) ∧
        after = { before with adding := true, otherGroup := false, nextInvite := before.nextInvite + 1 } := by
  simp only [machine, exec] at executed
  split at executed
  · next dSalt _ _ =>
    split at executed
    · cases executed
      exact .inl ⟨rfl, by simp⟩
    · split at executed
      · cases executed
        exact .inl ⟨rfl, by simp⟩
      · next clear =>
        cases executed
        exact .inr ⟨dSalt, by simpa using clear, rfl, rfl⟩
  · cases executed
    exact .inl ⟨rfl, by simp⟩

theorem expireWindow_eq {generation : Nat} {reply : Unit}
    (executed : (machine setup).exec task (.expireWindow generation) outcome before = some (reply, after)) :
    after = before.cancel (.window generation) := by
  cases executed
  rfl

theorem takeInvite_cases {generation : Option Nat} {reply : Option InviteSlot}
    (executed : (machine setup).exec task (.takeInvite generation) outcome before = some (reply, after)) :
    (reply = none ∧ after = before ∧
      ∀ slot, before.invite = some slot → ∃ wanted, generation = some wanted ∧ wanted ≠ slot.generation) ∨
      ∃ slot, before.invite = some slot ∧ reply = some slot ∧
        (∀ wanted, generation = some wanted → wanted = slot.generation) ∧
        after = { before.cancel (.window slot.generation) with invite := none } := by
  simp only [machine, exec] at executed
  split at executed
  · next missing =>
    cases executed
    exact .inl ⟨rfl, rfl, by simp [missing]⟩
  · next slot found =>
    split at executed
    · next other =>
      cases executed
      refine .inl ⟨rfl, rfl, fun slot' found' => ?_⟩
      cases found.symm.trans found'
      simpa [Option.any_eq_true] using other
    · next current =>
      cases executed
      refine .inr ⟨slot, found, rfl, ?_, rfl⟩
      rintro wanted rfl
      simpa using current

theorem stopInvite_cases {reply : Option InviteSlot}
    (executed : (machine setup).exec task .stopInvite outcome before = some (reply, after)) :
    (before.invite = none ∧ reply = none ∧ after = { before with adding := false }) ∨
      ∃ slot, before.invite = some slot ∧ reply = some slot ∧
        after = { before.cancel (.window slot.generation) with invite := none } := by
  simp only [machine, exec] at executed
  split at executed
  · next missing =>
    cases executed
    exact .inl ⟨missing, rfl, rfl⟩
  · next slot found =>
    cases executed
    exact .inr ⟨slot, found, rfl, rfl⟩

theorem takeJoin_cases {reply : Option Bool}
    (executed : (machine setup).exec task .takeJoin outcome before = some (reply, after)) :
    (before.join = none ∧ reply = none ∧ after = before) ∨
      ∃ slot, before.join = some slot ∧ reply = some before.adding ∧
        after = { before.cancel (.join slot.generation) with join := none } := by
  simp only [machine, exec] at executed
  split at executed
  · next missing =>
    cases executed
    exact .inl ⟨missing, rfl, rfl⟩
  · next slot found =>
    cases executed
    exact .inr ⟨slot, found, rfl, rfl⟩

theorem endJoin_cases {generation : Nat} {reply : Option Bool}
    (executed : (machine setup).exec task (.endJoin generation) outcome before = some (reply, after)) :
    (reply = none ∧ after = before) ∨
      before.join = some ⟨generation⟩ ∧ reply = some before.adding ∧ after = { before with join := none } := by
  simp only [machine, exec] at executed
  split at executed
  · next current =>
    cases executed
    exact .inr ⟨current, rfl, rfl⟩
  · cases executed
    exact .inl ⟨rfl, rfl⟩

theorem claimJoin_cases {generation : Nat} {reply : Bool}
    (executed : (machine setup).exec task (.claimJoin generation) outcome before = some (reply, after)) :
    (before.joinRunning ∧ after = before) ∨
      before.joinRunning = false ∧ after = { before with join := some ⟨generation⟩ } := by
  simp only [machine, exec] at executed
  split at executed
  · next running =>
    cases executed
    exact .inl ⟨running, rfl⟩
  · next stopped =>
    cases executed
    exact .inr ⟨by simpa using stopped, rfl⟩

end Steps

/-! ## Footprints of the functions -/

def Op.Within (fields : List Field) (op : Op) : Prop := op.writes ⊆ fields

theorem within_await {fields : List Field} {op : Op} (within : op.writes ⊆ fields) :
    (await op).All (Op.Within fields) :=
  ⟨within, fun _ => trivial⟩

theorem all_grow {fields : List Field} (more : List Field) {A : Type} {program : Task A}
    (all : program.All (Op.Within fields)) (larger : fields ⊆ more) :
    program.All (Op.Within more) := by
  induction program with
  | done value => trivial
  | call op next ih => exact ⟨List.Subset.trans all.1 larger, fun reply => ih reply (all.2 reply)⟩

theorem all_ite {P : Op → Prop} {A : Type} {condition : Prop} [Decidable condition] {yes no : Task A}
    (left : yes.All P) (right : no.All P) : (if condition then yes else no).All P := by
  split
  · exact left
  · exact right

theorem stopNetwork_within :
    stopNetwork.All (Op.Within [.network, .cancelled, .invite, .adding, .offer, .pairings]) := by
  refine Proc.all_bind (within_await (by simp)) fun found => all_ite ?_ trivial
  refine Proc.all_bind (within_await (by simp)) fun taken => ?_
  cases taken with
  | none => exact (within_await (by simp))
  | some slot => exact Proc.all_bind (within_await (by simp)) fun _ => (within_await (by simp))

theorem startNetwork_within (identity : Identity) :
    (startNetwork identity).All (Op.Within [.contexts, .network, .cancelled, .adding]) := by
  refine Proc.all_bind (within_await (by simp)) fun slots => ?_
  cases slots.context with
  | none => trivial
  | some keys =>
      refine Proc.all_bind (within_await (by simp)) fun bound => all_ite ?_ trivial
      exact Proc.all_bind (within_await (by simp)) fun network => (within_await (by simp))

@[simp] def Field.networking : List Field :=
  [.contexts, .network, .cancelled, .adding, .invite, .offer, .pairings]

theorem applyNetwork_within : applyNetwork.All (Op.Within Field.networking) := by
  refine Proc.all_bind (within_await (by simp)) fun slots => Proc.all_bind (within_await (by simp)) fun running => ?_
  cases slots.wanted <;> cases running
  · trivial
  · exact all_grow _ stopNetwork_within (by simp)
  · exact all_grow _ (startNetwork_within _) (by simp)
  · trivial

theorem updateNetworkKeys_within : updateNetworkKeys.All (Op.Within [.book, .contexts]) := by
  refine Proc.all_bind (within_await (by simp)) fun slots => ?_
  cases slots.context with
  | none => trivial
  | some keys =>
      refine Proc.all_bind (within_await (by simp)) fun running => Proc.all_bind (within_await (by simp)) fun _ => ?_
      cases running with
      | none => trivial
      | some network => exact (within_await (by simp))

theorem finishJoin_within (adding : Bool) : (finishJoin adding).All (Op.Within [.pairings]) :=
  all_ite trivial (Proc.all_bind (within_await (by simp)) fun running => all_ite trivial (within_await (by simp)))

theorem cancelJoin_within : cancelJoin.All (Op.Within [.join, .cancelled, .pairings]) := by
  refine Proc.all_bind (within_await (by simp)) fun taken => ?_
  cases taken with
  | none => trivial
  | some adding => exact all_grow _ (finishJoin_within adding) (by simp)

theorem endJoin_within (generation : Nat) : (endJoin generation).All (Op.Within [.join, .pairings]) := by
  refine Proc.all_bind (within_await (by simp)) fun taken => ?_
  cases taken with
  | none => trivial
  | some adding => exact all_grow _ (finishJoin_within adding) (by simp)

theorem joinGroup_within : (joinGroup setup).All (Op.Within [.join, .nextJoin]) := by
  refine all_ite trivial (Proc.all_bind (within_await (by simp)) fun begun => ?_)
  cases begun with
  | error e => trivial
  | ok claim => exact Proc.all_bind (within_await (by simp)) fun claimed => all_ite trivial trivial

theorem trustedCopy_within : trustedCopy.All (Op.Within []) :=
  Proc.all_bind (within_await (by simp)) fun _ => (within_await (by simp))

theorem encodedPeers_within : encodedPeers.All (Op.Within []) := by
  refine Proc.all_bind trustedCopy_within fun peers => ?_
  cases encodePeers peers <;> trivial

theorem encodedAddresses_within : encodedAddresses.All (Op.Within []) :=
  Proc.all_bind trustedCopy_within fun _ => Proc.all_bind (within_await (by simp)) fun _ => trivial

theorem derive_within (password : Bytes) (salt : Salt) : (derive password salt).All (Op.Within []) :=
  Proc.all_bind (within_await (by simp)) fun _ => trivial

theorem reseal_within (config : Option Config) : (reseal setup config).All (Op.Within [.file]) := by
  refine all_ite trivial (Proc.all_bind (all_grow _ encodedPeers_within (by simp)) fun encoded => ?_)
  cases encoded with
  | error e => trivial
  | ok peers =>
      refine Proc.all_bind (all_grow _ encodedAddresses_within (by simp)) fun addresses =>
        Proc.all_bind (within_await (by simp)) fun nonce => Proc.all_bind (within_await (by simp)) fun slots => ?_
      split
      · split
        · trivial
        · exact Proc.all_bind (within_await (by simp)) fun _ => trivial
      · trivial

theorem createVault_within (identity : Option Identity) (config : Config) :
    (createVault setup identity config).All (Op.Within [.keychain, .file, .keys]) := by
  refine all_ite trivial (Proc.all_bind (within_await (by simp)) fun slots => ?_)
  split
  · refine Proc.all_bind (all_grow _ encodedPeers_within (by simp)) fun encoded => ?_
    cases encoded with
    | error e => trivial
    | ok peers =>
        refine Proc.all_bind (all_grow _ encodedAddresses_within (by simp)) fun addresses =>
          Proc.all_bind (within_await (by simp)) fun storageSalt => Proc.all_bind (within_await (by simp)) fun dek =>
          Proc.all_bind (within_await (by simp)) fun wrapNonce => Proc.all_bind (within_await (by simp)) fun seed =>
          Proc.all_bind (within_await (by simp)) fun nonce => ?_
        split
        · trivial
        · exact Proc.all_bind (within_await (by simp)) fun salts => all_ite
            (Proc.all_bind (within_await (by simp)) fun file => all_ite (within_await (by simp)) trivial) trivial
  · trivial

theorem removePeers_within (removed : List (Nat × TrustedPeer)) :
    (removePeers removed).All (Op.Within [.book]) := by
  induction removed with
  | nil => trivial
  | cons first rest ih => exact Proc.all_bind (within_await (by simp)) fun _ => ih

end Daemon

end CesaConn
