import CesaConn.Program.Sum
import CesaConn.Daemon.PeerList
import CesaConn.Storage.Integrity

/-! From a pairing to the vault file.

A handshake saves its peer and notifies the bridge of its network. The bridge
turns a notification into a save of its own task, and saves once more after its
loop has ended. A save writes the list it has read, so a pairing is lost only
where it comes after the last save has read.
-/

set_option autoImplicit false

namespace CesaConn

open Format Program

namespace Daemon

open Vault

/-! ## The bridges -/

inductive Phase where
  | looping
  /-- The loop has ended, and this task saves once more. -/
  | saving (task : Nat)
  /-- The last save has read the list. -/
  | saved
  deriving DecidableEq

structure Bridged where
  daemon : State
  /-- The networks whose `Notify` holds a permit. -/
  permits : List Nat
  phase : Nat → Phase

inductive BridgeOp where
  | finishAuth (network list : Nat) (peer : TrustedPeer)
  | notified (network : Nat)
  /-- The bridge finds its token cancelled. -/
  | leave (network : Nat)

abbrev bridging : Signature where
  Op := BridgeOp
  Reply _ := Unit

/-- `save_peer`, and `notify_one` if it went well. -/
def Bridged.savePeer (state : Bridged) (network list : Nat) (peer : TrustedPeer) : Bridged :=
  let (result, peers) := CesaConn.savePeer (state.daemon.lists list) peer
  { state with
    daemon := state.daemon.setList list peers
    permits := if result.isOk then state.permits.insert network else state.permits }

/-- The handshake's result is not used here. A handshake that is dropped with its network does nothing. -/
def execBridge (task : Nat) (state : Bridged) (outcome : Outcome) : BridgeOp → Option Bridged
  | .finishAuth network list peer =>
      match outcome with
      | .lost => some state
      | _ => some (state.savePeer network list peer)
  | .notified network =>
      if network ∈ state.permits ∧ state.phase network = .looping then
        some { state with permits := state.permits.filter (· ≠ network) }
      else none
  | .leave network =>
      if state.daemon.cancelled (.network network) ∧ state.phase network = .looping then
        some { state with phase := Function.update state.phase network (.saving task) }
      else none

def succeeds : Op → Outcome → Bool
  | .writeFile _, .lost | .writeFile _, .failed _ => false
  | .random size, outcome => (outcome.random size).isSome
  | _, _ => true

/-- A last save that reads the list is past its bridge. -/
def Bridged.phaseAfter (state : Bridged) (task : Nat) : Op → Nat → Phase
  | .readPeers _ => fun network => if state.phase network = .saving task then .saved else state.phase network
  | _ => state.phase

abbrev bridgeMachine (setup : Setup) : Machine (sections.sum bridging) where
  State := Bridged
  Outcome := Outcome
  exec task
    | .inl op => fun outcome state =>
        if succeeds op outcome then
          (exec setup task op outcome state.daemon).map fun (reply, daemon) =>
            (reply, { state with daemon, phase := state.phaseAfter task op })
        else none
    | .inr op => fun outcome state => (execBridge task state outcome op).map fun after => ((), after)

inductive BridgeJob where
  | setSync (on : Bool)
  | setClipboard (on : Bool)
  | forgetPeer (fingerprint : Block fingerprintLen)
  /-- `stop_network` at shutdown. -/
  | stop
  | listenerFails (network : Nat)
  | finishAuth (network list : Nat) (key : StaticKey) (verificationKey : VerificationKey) (addr : SocketAddr)
  /-- A paired device moved: the bridge saves its new address. -/
  | moved
  | notified (network : Nat)
  | leave (network : Nat)

def bridge (op : BridgeOp) : Proc (sections.sum bridging) Unit := .call (.inr op) .done

/-- As in `pairDevice`, with the notification. -/
def finishAuth (network list : Nat) (key : StaticKey) (verificationKey : VerificationKey) (addr : SocketAddr) :
    Proc (sections.sum bridging) Unit := do
  let peers ← (await (.readPeers list)).left
  let stored := peers.find? fun peer => peer.x25519PubKey = key
  bridge (.finishAuth network list ⟨key, verificationKey, stored.elim addr.toString TrustedPeer.name⟩)

def BridgeJob.program (setup : Setup) : BridgeJob → Proc (sections.sum bridging) Unit
  | .setSync on => (change setup (.setSync on)).left
  | .setClipboard on => (change setup (.setClipboard on)).left
  | .forgetPeer fingerprint => (change setup (.forgetPeer fingerprint)).left
  | .stop => stopNetwork.left
  | .listenerFails network => (await (.listenerFails network)).left
  | .finishAuth network list key verificationKey addr => Daemon.finishAuth network list key verificationKey addr
  | .moved => (savePeers setup).left
  | .notified network => do
      bridge (.notified network)
      (savePeers setup).left
  | .leave network => do
      bridge (.leave network)
      (savePeers setup).left

/-- A pairing comes before the last save of its bridge has read the list, or does not change the list. -/
def inTime (state : Bridged) : (sections.sum bridging).Op → Bool
  | .inr (.finishAuth network list peer) =>
      state.phase network ≠ .saved || list ≠ state.daemon.trustedPeers ||
        (CesaConn.savePeer (state.daemon.lists list) peer).2 = state.daemon.lists list
  | _ => true

def bridgeWorkload (setup : Setup) : Workload (bridgeMachine setup) where
  Job := BridgeJob
  program := BridgeJob.program setup
  ready job state := match job with
    | .finishAuth network _ _ _ _ => network < state.daemon.nextNetwork
    | _ => true
  allows _ op state := inTime state op

def filePeers (setup : Setup) (kek : Kek) (file : Option Bytes) : Option (List TrustedPeer) := do
  let opened ← (openVault setup.crypto.aead kek (← file)).toOption
  decodePeers opened.contents.peers

def HasVault (setup : Setup) (kek : Kek) (keys : KeySlots) : Prop :=
  ∃ vault aKey aSalt, keys.vault = some vault ∧ keys.aKey = some aKey ∧ keys.aSalt = some aSalt ∧
    Unwraps setup.crypto.aead kek vault.wrapped vault.dek

/-- Nothing is under way, and the file has the peers of memory. -/
structure Bridged.Settled (setup : Setup) (kek : Kek) (state : Bridged) : Prop where
  storage : setup.storage = true
  opened : HasVault setup kek state.daemon.keys
  free : state.daemon.turn = none
  tidy : state.daemon.Tidy
  ended : ∀ network task, state.phase network ≠ .saving task
  file : filePeers setup kek state.daemon.file = some (state.daemon.lists state.daemon.trustedPeers)

/-! ## Who still has to save -/

structure Ledger where
  promised : Nat → Prop
  pending : Option (List TrustedPeer)

def Bridged.current (state : Bridged) : List TrustedPeer := state.daemon.lists state.daemon.trustedPeers

/-- These peers are the list, or somebody will save the list. -/
def Covered (state : Bridged) (ledger : Ledger) (peers : List TrustedPeer) : Prop :=
  peers = state.current ∨ (∃ network ∈ state.permits, state.phase network ≠ .saved) ∨
    ∃ task, ledger.promised task

structure BridgeInv (setup : Setup) (kek : Kek) (list : Nat) (state : Bridged) (ledger : Ledger) : Prop where
  opened : HasVault setup kek state.daemon.keys
  tidy : state.daemon.Tidy
  own : state.daemon.trustedPeers = list
  saving : ∀ network task, state.phase network = .saving task → ledger.promised task
  free : state.daemon.turn = none → ledger.pending = none
  stored : ledger.pending = none → ∃ peers, filePeers setup kek state.daemon.file = some peers ∧ Covered state ledger peers
  read : ∀ peers, ledger.pending = some peers → Covered state ledger peers

def bridges (setup : Setup) (kek : Kek) (list : Nat) : Discipline (bridgeMachine setup) Ledger where
  inv := BridgeInv setup kek list
  keep task before ledger after ledger' :=
    (after.daemon.turn = some task ↔ before.daemon.turn = some task) ∧
    (ledger'.promised task ↔ ledger.promised task) ∧
    (before.daemon.turn = some task → ledger'.pending = ledger.pending)
  idle task state ledger := state.daemon.turn ≠ some task ∧ ¬ ledger.promised task
  observe _ _ _ _ _ := True
  keep_refl _ _ _ := ⟨Iff.rfl, Iff.rfl, fun _ => rfl⟩
  keep_trans _ _ _ _ _ _ _ first second :=
    ⟨second.1.trans first.1, second.2.1.trans first.2.1,
      fun held => (second.2.2 (first.1.mpr held)).trans (first.2.2 held)⟩
  idle_keep _ _ _ _ _ kept idle := ⟨fun held => idle.1 (kept.1.mp held), fun promised => idle.2 (kept.2.1.mp promised)⟩

section Rules

variable {setup : Setup} {kek : Kek} {list : Nat} {R : Regime (bridgeMachine setup)} {task : Nat} {A B : Type}
  {promised : Prop} {pending : Option (List TrustedPeer)}

def Aside (task : Nat) (promised : Prop) (state : Bridged) (ledger : Ledger) : Prop :=
  state.daemon.turn ≠ some task ∧ (ledger.promised task ↔ promised)

/-- The task has the slot, and has read `pending` for the file. -/
def Writes (task : Nat) (promised : Prop) (pending : Option (List TrustedPeer)) (state : Bridged) (ledger : Ledger) : Prop :=
  state.daemon.turn = some task ∧ (ledger.promised task ↔ promised) ∧ ledger.pending = pending

theorem writes_idle {state : Bridged} {ledger : Ledger} (writes : Writes task False pending state ledger) :
    ¬ ledger.promised task := fun made => writes.2.1.mp made

theorem stable_aside : (bridges setup kek list).Stable task (Aside task promised) := by
  intro before ledger after ledger' kept holds
  exact ⟨fun held => holds.1 (kept.1.mp held), kept.2.1.trans holds.2⟩

theorem stable_writes : (bridges setup kek list).Stable task (Writes task promised pending) := by
  intro before ledger after ledger' kept holds
  exact ⟨kept.1.mpr holds.1, kept.2.1.trans holds.2.1, (kept.2.2 holds.1).trans holds.2.2⟩

theorem keep_of_same {before after : Bridged} {ledger ledger' : Ledger} (turn : after.daemon.turn = before.daemon.turn)
    (own : ∀ other, other ≠ task → (ledger'.promised other ↔ ledger.promised other))
    (read : before.daemon.turn = some task ∨ ledger'.pending = ledger.pending) (other : Nat) (different : other ≠ task) :
    (bridges setup kek list).keep other before ledger after ledger' := by
  refine ⟨by rw [turn], own other different, fun held => ?_⟩
  rcases read with mine | same
  · exact absurd (Option.some.inj (held.symm.trans mine)) different
  · exact same

/-! ### Operations of the daemon -/

theorem exec_left {op : Op} {outcome : Outcome} {before after : Bridged} {reply : Reply op}
    (executed : (bridgeMachine setup).exec task (.inl op) outcome before = some (reply, after)) :
    succeeds op outcome = true ∧ ∃ daemon, (machine setup).exec task op outcome before.daemon = some (reply, daemon) ∧
      after = ⟨daemon, before.permits, before.phaseAfter task op⟩ := by
  simp only [Option.ite_none_right_eq_some, Option.map_eq_some_iff, Prod.exists, Prod.mk.injEq] at executed
  obtain ⟨possible, _, daemon, executed, rfl, rfl⟩ := executed
  exact ⟨possible, daemon, executed, rfl⟩

theorem phaseAfter_eq {state : Bridged} {op : Op}
    (calm : (∀ list, op ≠ .readPeers list) ∨ ∀ network, state.phase network ≠ .saving task) :
    state.phaseAfter task op = state.phase := by
  unfold Bridged.phaseAfter
  split
  · next list =>
    funext network
    exact if_neg (calm.resolve_left (fun other => other list rfl) network)
  · rfl

structure Agree (before after : Bridged) : Prop where
  keys : after.daemon.keys = before.daemon.keys
  file : after.daemon.file = before.daemon.file
  turn : after.daemon.turn = before.daemon.turn
  own : after.daemon.trustedPeers = before.daemon.trustedPeers
  lists : after.daemon.lists = before.daemon.lists
  permits : after.permits = before.permits
  phase : after.phase = before.phase

theorem Agree.inv {before after : Bridged} {ledger : Ledger} (agree : Agree before after)
    (inv : BridgeInv setup kek list before ledger) : BridgeInv setup kek list after ledger := by
  have covered : ∀ peers, Covered before ledger peers → Covered after ledger peers := by
    intro peers covered
    simpa only [Covered, Bridged.current, agree.own, agree.lists, agree.permits, agree.phase] using covered
  constructor
  · rw [agree.keys]
    exact inv.opened
  · intro other
    rw [agree.lists]
    exact inv.tidy other
  · rw [agree.own]
    exact inv.own
  · rw [agree.phase]
    exact inv.saving
  · rw [agree.turn]
    exact inv.free
  · intro none
    rw [agree.file]
    obtain ⟨peers, found, before⟩ := inv.stored none
    exact ⟨peers, found, covered peers before⟩
  · intro peers some
    exact covered peers (inv.read peers some)

@[simp] def Op.Apart (op : Op) : Prop := .keys ∉ op.writes ∧ .file ∉ op.writes ∧ .turn ∉ op.writes ∧ .peers ∉ op.writes

def daemonApart : (sections.sum bridging).Op → Prop
  | .inl op => op.Apart
  | .inr _ => False

theorem bridges_apart {op : Op} (apart : op.Apart) {holds : Bridged → Ledger → Prop}
    (stable : (bridges setup kek list).Stable task holds)
    (calm : (∀ list, op ≠ .readPeers list) ∨ ∀ state ledger, holds state ledger → ¬ ledger.promised task) :
    (bridges setup kek list).Performs R task holds (.inl op) fun _ => holds := by
  intro before ledger held inv _ outcome reply after executed
  obtain ⟨_, daemon, ran, rfl⟩ := exec_left executed
  have keys : daemon.keys = before.daemon.keys := exec_same ran .keys apart.1
  have file : daemon.file = before.daemon.file := exec_same ran .file apart.2.1
  have turn : daemon.turn = before.daemon.turn := exec_same ran .turn apart.2.2.1
  obtain ⟨own, lists, _⟩ := exec_same ran .peers apart.2.2.2
  have phase : before.phaseAfter task op = before.phase := by
    refine phaseAfter_eq (calm.imp_right fun free network saving => ?_)
    exact free before ledger held (inv.saving network task saving)
  have agree : Agree before ⟨daemon, before.permits, before.phaseAfter task op⟩ :=
    ⟨keys, file, turn, own, lists, rfl, phase⟩
  refine ⟨ledger, agree.inv inv, trivial, keep_of_same turn (fun _ _ => Iff.rfl) (.inr rfl), ?_⟩
  apply stable before ledger _ ledger _ held
  exact ⟨by rw [turn], Iff.rfl, fun _ => rfl⟩

abbrev Bridges (setup : Setup) (kek : Kek) (list : Nat) (R : Regime (bridgeMachine setup)) (task : Nat)
    (before : Bridged → Ledger → Prop) (program : Task A) (post : A → Bridged → Ledger → Prop) : Prop :=
  (bridges setup kek list).Triple R task before program.left post

theorem bridges_bind {before : Bridged → Ledger → Prop} {program : Task A} {k : A → Task B}
    {mid : A → Bridged → Ledger → Prop} {post : B → Bridged → Ledger → Prop}
    (first : Bridges setup kek list R task before program mid)
    (rest : ∀ value, Bridges setup kek list R task (mid value) (k value) post) :
    Bridges setup kek list R task before (program >>= k) post := by
  unfold Bridges
  rw [Proc.left_bind]
  exact first.bind rest

theorem bridges_within {fields : List Field} {program : Task A} (within : program.All (Op.Within fields))
    (apart : .keys ∉ fields ∧ .file ∉ fields ∧ .turn ∉ fields ∧ .peers ∉ fields) {holds : Bridged → Ledger → Prop}
    (stable : (bridges setup kek list).Stable task holds)
    (free : ∀ state ledger, holds state ledger → ¬ ledger.promised task) :
    Bridges setup kek list R task holds program fun _ => holds := by
  have all : program.All Op.Apart := by
    induction program with
    | done value => trivial
    | call op next ih =>
        refine ⟨⟨?_, ?_, ?_, ?_⟩, fun reply => ih reply (within.2 reply)⟩
        · exact fun member => apart.1 (within.1 member)
        · exact fun member => apart.2.1 (within.1 member)
        · exact fun member => apart.2.2.1 (within.1 member)
        · exact fun member => apart.2.2.2 (within.1 member)
  refine Discipline.Triple.all (Proc.all_left (P := daemonApart) all) stable ?_
  intro op apart
  cases op with
  | inl op => exact bridges_apart apart stable (.inr free)
  | inr op => exact apart.elim

theorem bridges_then {before : Bridged → Ledger → Prop} {program : Task A} {k : A → Task B} {tells : A → Prop}
    {mid : A → Bridged → Ledger → Prop} {post : B → Bridged → Ledger → Prop}
    (first : Bridges setup kek list R task before program fun value state ledger => tells value ∧ mid value state ledger)
    (rest : ∀ value, tells value → Bridges setup kek list R task (mid value) (k value) post) :
    Bridges setup kek list R task before (program >>= k) post :=
  bridges_bind first fun value state ledger holds => rest value holds.1 state ledger holds.2

theorem bridges_await {op : Op} (apart : op.Apart) (other : ∀ list, op ≠ .readPeers list)
    {holds : Bridged → Ledger → Prop} (stable : (bridges setup kek list).Stable task holds) :
    Bridges setup kek list R task holds (await op) fun _ => holds :=
  Discipline.Triple.call stable (bridges_apart apart stable (.inl other))

theorem bridges_tell {op : Op} (apart : op.Apart) (other : ∀ list, op ≠ .readPeers list)
    {holds : Bridged → Ledger → Prop} (stable : (bridges setup kek list).Stable task holds) {tells : Reply op → Prop}
    (answers : ∀ before ledger outcome reply after, BridgeInv setup kek list before ledger →
      succeeds op outcome = true → (machine setup).exec task op outcome before.daemon = some (reply, after) → tells reply) :
    Bridges setup kek list R task holds (await op) fun reply state ledger => tells reply ∧ holds state ledger := by
  refine Discipline.Triple.call stable ?_
  intro before ledger held inv allowed outcome reply after executed
  obtain ⟨ledger', inv', observed, keeps, held'⟩ :=
    bridges_apart apart stable (.inl other) before ledger held inv allowed outcome reply after executed
  obtain ⟨possible, _, executed, _⟩ := exec_left executed
  exact ⟨ledger', inv', observed, keeps, answers before ledger outcome reply _ inv possible executed, held'⟩

theorem bridges_readKeys {holds : Bridged → Ledger → Prop} (stable : (bridges setup kek list).Stable task holds) :
    Bridges setup kek list R task holds (await .readKeys) fun keys state ledger =>
      HasVault setup kek keys ∧ holds state ledger := by
  refine bridges_tell (by simp) (by simp) stable ?_
  intro before ledger outcome reply after inv _ executed
  cases executed
  exact inv.opened

theorem bridges_peerList {holds : Bridged → Ledger → Prop} (stable : (bridges setup kek list).Stable task holds) :
    Bridges setup kek list R task holds (await .peerList) fun own state ledger => own = list ∧ holds state ledger := by
  refine bridges_tell (by simp) (by simp) stable ?_
  intro before ledger outcome reply after inv _ executed
  cases executed
  exact inv.own

theorem bridges_random {holds : Bridged → Ledger → Prop} (stable : (bridges setup kek list).Stable task holds) (size : Nat) :
    Bridges setup kek list R task holds (await (.random size)) fun drawn state ledger =>
      drawn.isSome = true ∧ holds state ledger := by
  refine bridges_tell (by simp) (by simp) stable ?_
  intro before ledger outcome reply after inv possible executed
  cases executed
  exact possible

/-- The list is read for the file: nothing is owed any more by this task. -/
theorem bridges_readPeers : Bridges setup kek list R task (Writes task promised none) (await (.readPeers list))
    fun peers state ledger => Saveable peers ∧ Writes task False (some peers) state ledger := by
  refine Discipline.Triple.call stable_writes ?_
  intro before ledger held inv _ outcome reply after executed
  obtain ⟨_, daemon, ran, rfl⟩ := exec_left executed
  cases ran
  refine ⟨⟨fun other => other ≠ task ∧ ledger.promised other, some (before.daemon.lists list)⟩, ?_, trivial, ?_, ?_⟩
  · refine ⟨inv.opened, inv.tidy, inv.own, ?_, ?_, ?_, ?_⟩
    · intro network other saving
      simp only [Bridged.phaseAfter] at saving
      split at saving
      · cases saving
      -- only the bridge of this task is past its save
      · next mine => exact ⟨fun same => mine (same ▸ saving), inv.saving network other saving⟩
    · intro free
      cases held.1.symm.trans free
    · intro none
      cases none
    · intro peers read
      cases read
      exact .inl (by rw [Bridged.current, inv.own])
  · exact keep_of_same rfl (fun other different => ⟨And.right, fun made => ⟨different, made⟩⟩) (.inl held.1)
  · exact ⟨inv.tidy list, held.1, by simp, rfl⟩

theorem bridges_writeFile {peers : List TrustedPeer} {file : Bytes} (holdsPeers : filePeers setup kek (some file) = some peers) :
    Bridges setup kek list R task (Writes task False (some peers)) (await (.writeFile file))
      fun reply state ledger => reply = .ok () ∧ Writes task False none state ledger := by
  refine Discipline.Triple.call stable_writes ?_
  intro before ledger held inv _ outcome reply after executed
  obtain ⟨possible, daemon, ran, rfl⟩ := exec_left executed
  have written : reply = .ok () ∧ daemon = { before.daemon with file := some file } := by
    cases outcome <;> cases possible <;> cases ran <;> exact ⟨rfl, rfl⟩
  obtain ⟨rfl, rfl⟩ := written
  refine ⟨⟨ledger.promised, none⟩, ⟨inv.opened, inv.tidy, inv.own, inv.saving, fun _ => rfl, ?_, ?_⟩, trivial, ?_, rfl, ?_⟩
  · intro _
    exact ⟨peers, holdsPeers, inv.read peers held.2.2⟩
  · intro other read
    cases read
  · exact keep_of_same rfl (fun _ _ => Iff.rfl) (.inl held.1)
  · exact ⟨held.1, held.2.1, rfl⟩

theorem bridges_acquire : Bridges setup kek list R task (Aside task promised) (await .acquire)
    fun _ => Writes task promised none := by
  refine Discipline.Triple.call stable_aside ?_
  intro before ledger held inv _ outcome reply after executed
  obtain ⟨_, daemon, ran, rfl⟩ := exec_left executed
  obtain ⟨free, rfl⟩ := acquire_cases ran
  have none := inv.free free
  refine ⟨ledger, ⟨inv.opened, inv.tidy, inv.own, inv.saving, fun _ => none, inv.stored, inv.read⟩, trivial, ?_,
    rfl, held.2, none⟩
  intro other different
  refine ⟨?_, Iff.rfl, fun _ => rfl⟩
  simp [free, Ne.symm different]

theorem bridges_release : Bridges setup kek list R task (Writes task False none) (await .release)
    fun _ => Aside task False := by
  refine Discipline.Triple.call stable_writes ?_
  intro before ledger held inv _ outcome reply after executed
  obtain ⟨_, daemon, ran, rfl⟩ := exec_left executed
  obtain ⟨_, rfl⟩ := release_cases ran
  refine ⟨ledger, ⟨inv.opened, inv.tidy, inv.own, inv.saving, fun _ => held.2.2, inv.stored, inv.read⟩, trivial, ?_,
    by simp, held.2.1⟩
  intro other different
  refine ⟨?_, Iff.rfl, fun _ => rfl⟩
  simp [held.1, Ne.symm different]

theorem opened_setConfig {keys : KeySlots} (config : Config) (opened : HasVault setup kek keys) :
    HasVault setup kek (keys.setConfig config) := by
  obtain ⟨vault, aKey, aSalt, found, hasKey, hasSalt, unwraps⟩ := opened
  refine ⟨{ vault with config }, aKey, aSalt, ?_, hasKey, hasSalt, unwraps⟩
  rw [KeySlots.setConfig, found]
  rfl

theorem bridges_setConfig (config : Config) : Bridges setup kek list R task (Writes task False none)
    (await (.writeKeys (KeySlots.setConfig config))) fun _ => Writes task False none := by
  refine Discipline.Triple.call stable_writes ?_
  intro before ledger held inv _ outcome reply after executed
  obtain ⟨_, daemon, ran, rfl⟩ := exec_left executed
  cases ran
  exact ⟨ledger, ⟨opened_setConfig config inv.opened, inv.tidy, inv.own, inv.saving, inv.free, inv.stored, inv.read⟩, trivial,
    keep_of_same rfl (fun _ _ => Iff.rfl) (.inr rfl), held⟩

theorem takePeers_of_none {peers : List TrustedPeer} {fingerprint : Block fingerprintLen}
    (none : (takePeers peers fingerprint).1 = []) : (takePeers peers fingerprint).2 = peers := by
  have same := (perm_takePeers peers fingerprint).length_eq
  rw [none, List.map_nil, List.nil_append] at same
  exact List.filter_sublist.eq_of_length same.symm

/-- Who takes peers out of the list has to save it. -/
theorem bridges_takePeers (fingerprint : Block fingerprintLen) :
    Bridges setup kek list R task (Writes task False none) (await (.takePeers list fingerprint))
      fun removed => Writes task (removed ≠ []) none := by
  refine Discipline.Triple.call stable_writes ?_
  intro before ledger held inv _ outcome reply after executed
  obtain ⟨_, daemon, ran, rfl⟩ := exec_left executed
  cases ran
  have tidy : (before.daemon.setList list (CesaConn.takePeers (before.daemon.lists list) fingerprint).2).Tidy :=
    inv.tidy.setList ((inv.tidy list).taken fingerprint).2
  have busy : before.daemon.turn ≠ none := by simp [held.1]
  by_cases none : (CesaConn.takePeers (before.daemon.lists list) fingerprint).1 = []
  · have unchanged : before.daemon.setList list (CesaConn.takePeers (before.daemon.lists list) fingerprint).2 = before.daemon := by
      rw [takePeers_of_none none, State.setList, Function.update_eq_self]
    have agree : Agree before ⟨before.daemon.setList list (CesaConn.takePeers (before.daemon.lists list) fingerprint).2,
        before.permits, before.phase⟩ := by
      rw [unchanged]
      exact ⟨rfl, rfl, rfl, rfl, rfl, rfl, rfl⟩
    exact ⟨ledger, agree.inv inv, trivial, keep_of_same rfl (fun _ _ => Iff.rfl) (.inr rfl), held.1,
      held.2.1.trans ⟨False.elim, fun found => found none⟩, held.2.2⟩
  -- until the file is written, the holder owes the list without these peers
  · refine ⟨⟨fun other => other = task ∨ ledger.promised other, ledger.pending⟩, ⟨inv.opened, tidy, inv.own, ?_, ?_, ?_, ?_⟩,
      trivial, ?_, held.1, ⟨fun _ => none, fun _ => .inl rfl⟩, held.2.2⟩
    · intro network other saving
      exact .inr (inv.saving network other saving)
    · intro free
      exact absurd free busy
    · intro unread
      obtain ⟨peers, found, _⟩ := inv.stored unread
      exact ⟨peers, found, .inr (.inr ⟨task, .inl rfl⟩)⟩
    · intro peers read
      exact .inr (.inr ⟨task, .inl rfl⟩)
    · exact keep_of_same rfl (fun other different => ⟨fun made => made.resolve_left different, .inr⟩) (.inr rfl)

/-! ### Functions -/

theorem filePeers_sealed (correct : setup.crypto.aead.Correct) (encrypts : setup.crypto.aead.Encrypts) {vault : OpenVault}
    (unwraps : Unwraps setup.crypto.aead kek vault.wrapped vault.dek) (nonce : Block 12) (aKey : AuthKey) (aSalt : Salt)
    (config : Config) (book : PeerBook) (known : List TrustedPeer) {peers : List TrustedPeer} {bytes : Bytes}
    (written : encodePeers peers = some bytes) (read : decodePeers bytes = some peers) :
    ∃ file, sealVault setup.crypto.aead (some nonce) vault.wrapped vault.dek
        ⟨aKey, aSalt, config.encode (book.encode known), vault.identity, bytes⟩ = .ok file ∧
      filePeers setup kek (some file) = some peers := by
  have peersFit : bytes.length ≤ maxPeersLen := (length_encodePeers written).trans (by decide)
  have addresses := PeerBook.length_encode book known
  have configFits : (config.encode (book.encode known)).length ≤ maxConfigLen := by
    simp only [Config.encode, List.length_cons, maxConfigLen, maxTrustedPeers] at addresses ⊢
    omega
  let contents : VaultContents := ⟨aKey, aSalt, config.encode (book.encode known), vault.identity, bytes⟩
  obtain ⟨_, file, _, made, _⟩ := sealVault_ok correct.expands encrypts nonce vault.wrapped vault.dek
    (show contents.config.length ≤ maxConfigLen from configFits) peersFit
  refine ⟨file, made, ?_⟩
  simp only [filePeers, openVault_sealVault correct unwraps made, Except.toOption, Option.bind_eq_bind, Option.bind_some]
  exact read

theorem bridges_encodedPeers : Bridges setup kek list R task (Writes task promised none) encodedPeers
    fun result state ledger => ∃ peers bytes, result = .ok bytes ∧ encodePeers peers = some bytes ∧
      decodePeers bytes = some peers ∧ Writes task False (some peers) state ledger := by
  have copied : Bridges setup kek list R task (Writes task promised none) trustedCopy
      fun peers state ledger => Saveable peers ∧ Writes task False (some peers) state ledger := by
    refine bridges_then (bridges_peerList stable_writes) fun own same => ?_
    rw [same]
    exact bridges_readPeers
  refine bridges_then copied fun peers saveable => ?_
  obtain ⟨bytes, written, read⟩ := saveable_iff.mp saveable
  rw [written]
  exact Discipline.Triple.done fun state ledger writes => ⟨peers, bytes, rfl, written, read, writes⟩

theorem bridges_encodedAddresses {peers : List TrustedPeer} :
    Bridges setup kek list R task (Writes task False (some peers)) encodedAddresses fun addresses state ledger =>
      (∃ (book : PeerBook) (known : List TrustedPeer), addresses = book.encode known) ∧
        Writes task False (some peers) state ledger := by
  refine bridges_bind (bridges_within trustedCopy_within (by simp) stable_writes fun _ _ => writes_idle) fun known => ?_
  refine bridges_bind (bridges_await (by simp) (by simp) stable_writes) fun book => ?_
  exact Discipline.Triple.done fun state ledger writes => ⟨⟨book, known, rfl⟩, writes⟩

theorem bridges_reseal (correct : setup.crypto.aead.Correct) (encrypts : setup.crypto.aead.Encrypts)
    (storage : setup.storage = true) (config : Option Config) :
    Bridges setup kek list R task (Writes task promised none) (reseal setup config)
      fun result state ledger => result = .ok () ∧ Writes task False none state ledger := by
  unfold reseal
  rw [if_neg (by simp [storage])]
  refine bridges_bind bridges_encodedPeers ?_
  rintro _ state ledger ⟨peers, bytes, rfl, written, read, writes⟩
  revert state ledger
  show ∀ state ledger, Writes task False (some peers) state ledger → _
  refine bridges_then bridges_encodedAddresses ?_
  rintro _ ⟨book, known, rfl⟩
  refine bridges_then (bridges_random stable_writes 12) fun drawn some => ?_
  obtain ⟨nonce, rfl⟩ := Option.isSome_iff_exists.mp some
  refine bridges_then (bridges_readKeys stable_writes) fun keys opened => ?_
  obtain ⟨vault, aKey, aSalt, found, hasKey, hasSalt, unwraps⟩ := opened
  -- the peers are those that were read first, whatever the list is by now
  obtain ⟨file, made, holdsPeers⟩ := filePeers_sealed correct encrypts unwraps nonce aKey aSalt (config.getD vault.config)
    book known written read
  simp only [found, hasKey, hasSalt, made]
  refine bridges_then (bridges_writeFile holdsPeers) fun reply ok => ?_
  rw [ok]
  exact Discipline.Triple.done fun state ledger writes => ⟨rfl, writes⟩

theorem bridges_savePeers (correct : setup.crypto.aead.Correct) (encrypts : setup.crypto.aead.Encrypts)
    (storage : setup.storage = true) :
    Bridges setup kek list R task (Aside task promised) (savePeers setup) fun _ => Aside task False := by
  unfold savePeers
  refine bridges_bind bridges_acquire fun _ => ?_
  refine bridges_then (bridges_readKeys stable_writes) fun keys opened => ?_
  obtain ⟨vault, _, _, found, _⟩ := opened
  rw [if_neg (by simp [found])]
  exact bridges_then (bridges_reseal correct encrypts storage none) fun result _ => bridges_release

theorem bridges_saveConfig (correct : setup.crypto.aead.Correct) (encrypts : setup.crypto.aead.Encrypts)
    (storage : setup.storage = true) (config : Config) :
    Bridges setup kek list R task (Writes task False none) (saveConfig setup config) fun _ => Writes task False none := by
  unfold saveConfig
  refine bridges_then (bridges_reseal correct encrypts storage (some config)) ?_
  rintro _ rfl
  exact bridges_bind (bridges_setConfig config) fun _ => Discipline.Triple.done fun _ _ writes => writes

theorem bridges_savedConfig :
    Bridges setup kek list R task (Writes task False none) savedConfig fun _ => Writes task False none := by
  unfold savedConfig
  refine bridges_then (bridges_readKeys stable_writes) fun keys _ => ?_
  split
  · exact Discipline.Triple.done fun _ _ writes => writes
  · split <;> exact Discipline.Triple.done fun _ _ writes => writes

theorem bridges_forgetPeer (correct : setup.crypto.aead.Correct) (encrypts : setup.crypto.aead.Encrypts)
    (storage : setup.storage = true) (fingerprint : Block fingerprintLen) :
    Bridges setup kek list R task (Writes task False none) (forgetPeer setup fingerprint)
      fun _ => Writes task False none := by
  unfold forgetPeer
  refine bridges_then (bridges_readKeys stable_writes) fun keys _ => ?_
  split
  · exact Discipline.Triple.done fun _ _ writes => writes
  refine bridges_then (bridges_peerList stable_writes) ?_
  rintro _ rfl
  refine bridges_bind (bridges_takePeers fingerprint) fun removed => ?_
  split
  · next none =>
    refine Discipline.Triple.done fun _ _ writes => ⟨writes.1, writes.2.1.trans ?_, writes.2.2⟩
    simpa using none
  refine bridges_then (bridges_readKeys stable_writes) fun keys opened => ?_
  obtain ⟨vault, _, _, found, _⟩ := opened
  rw [if_pos (by simp [found])]
  refine bridges_then (bridges_reseal correct encrypts storage none) ?_
  rintro _ rfl
  refine bridges_bind (bridges_within (removePeers_within removed) (by simp) stable_writes fun _ _ => writes_idle) fun _ => ?_
  exact Discipline.Triple.done fun _ _ writes => writes

theorem bridges_change {request : Request} (performs : Bridges setup kek list R task (Writes task False none)
    (performRequest setup request) fun _ => Writes task False none) :
    Bridges setup kek list R task (Aside task False) (change setup request) fun _ => Aside task False := by
  unfold change
  refine bridges_bind bridges_acquire fun _ => bridges_bind performs fun _ => ?_
  refine bridges_bind (bridges_within applyNetwork_within (by simp) stable_writes fun _ _ => writes_idle) fun _ => ?_
  exact bridges_release

/-! ### Handshakes and bridges -/

theorem aside_idle {state : Bridged} {ledger : Ledger} (aside : Aside task False state ledger) : ¬ ledger.promised task :=
  fun made => aside.2.mp made

theorem savePeer_changes {peers : List TrustedPeer} {peer : TrustedPeer}
    (changed : (CesaConn.savePeer peers peer).2 ≠ peers) : (CesaConn.savePeer peers peer).1.isOk = true := by
  unfold CesaConn.savePeer at changed ⊢
  split at changed
  · exact absurd rfl changed
  · split at changed
    · exact absurd rfl changed
    · next unknown room => rw [if_neg unknown, if_neg room]; rfl

theorem bridges_promise {op : BridgeOp} (starts : ∀ before outcome after, execBridge task before outcome op = some after →
      after.daemon = before.daemon ∧ ∀ network saver, after.phase network = .saving saver →
        saver = task ∨ before.phase network = .saving saver) :
    (bridges setup kek list).Triple R task (Aside task False) (bridge op) fun _ => Aside task True := by
  refine Discipline.Triple.call stable_aside ?_
  intro before ledger held inv _ outcome reply after executed
  obtain ⟨later, started, same⟩ := Option.map_eq_some_iff.mp executed
  cases same
  obtain ⟨daemon, phases⟩ := starts before outcome after started
  have covered : ∀ peers, Covered after ⟨fun other => other = task ∨ ledger.promised other, ledger.pending⟩ peers :=
    fun _ => .inr (.inr ⟨task, .inl rfl⟩)
  refine ⟨⟨fun other => other = task ∨ ledger.promised other, ledger.pending⟩, ?_, trivial, ?_, ?_, by simp⟩
  · constructor
    · rw [daemon]
      exact inv.opened
    · rw [daemon]
      exact inv.tidy
    · rw [daemon]
      exact inv.own
    · intro network saver saving
      exact (phases network saver saving).imp_right (inv.saving network saver)
    · rw [daemon]
      exact inv.free
    · intro none
      rw [daemon]
      obtain ⟨peers, found, _⟩ := inv.stored none
      exact ⟨peers, found, covered peers⟩
    · intro peers _
      exact covered peers
  · exact keep_of_same (by rw [daemon]) (fun other different => ⟨fun made => made.resolve_left different, .inr⟩) (.inr rfl)
  · rw [daemon]
    exact held.1

theorem bridges_notified (network : Nat) : (bridges setup kek list).Triple R task (Aside task False)
    (bridge (.notified network)) fun _ => Aside task True := by
  refine bridges_promise fun before outcome after started => ?_
  obtain ⟨_, same⟩ := Option.ite_none_right_eq_some.mp started
  cases same
  exact ⟨rfl, fun _ _ saving => .inr saving⟩

theorem bridges_leave (network : Nat) : (bridges setup kek list).Triple R task (Aside task False)
    (bridge (.leave network)) fun _ => Aside task True := by
  refine bridges_promise fun before outcome after started => ?_
  obtain ⟨_, same⟩ := Option.ite_none_right_eq_some.mp started
  cases same
  refine ⟨rfl, fun other saver saving => ?_⟩
  have saving : Function.update before.phase network (.saving task) other = .saving saver := saving
  by_cases here : other = network
  · rw [here, Function.update_self] at saving
    cases saving
    exact .inl rfl
  · rw [Function.update_of_ne here] at saving
    exact .inr saving

/-- A pairing in time leaves its permit to a bridge that still reads the list. -/
theorem Covered.savePeer {state : Bridged} {ledger : Ledger} {peers : List TrustedPeer} {network own : Nat} {peer : TrustedPeer}
    (covered : Covered state ledger peers) (timely : inTime state (.inr (.finishAuth network own peer)) = true) :
    Covered (state.savePeer network own peer) ledger peers := by
  have permits : ∀ other ∈ state.permits, other ∈ (state.savePeer network own peer).permits := by
    intro other permit
    simp only [Bridged.savePeer]
    split
    · exact List.mem_insert_of_mem permit
    · exact permit
  rcases covered with same | ⟨other, permit, phase⟩ | made
  · by_cases changed : (CesaConn.savePeer (state.daemon.lists own) peer).2 ≠ state.daemon.lists own ∧
        own = state.daemon.trustedPeers
    · obtain ⟨changed, here⟩ := changed
      -- a new peer came in time, so its bridge still has a save to do
      have open_ : state.phase network ≠ .saved := by
        simp only [inTime, Bool.or_eq_true, decide_eq_true_eq, here] at timely
        rw [here] at changed
        exact (timely.resolve_right changed).resolve_right (· rfl)
      refine .inr (.inl ⟨network, ?_, open_⟩)
      simp only [Bridged.savePeer, savePeer_changes changed, if_true]
      exact List.mem_insert_self
    · refine .inl (same.trans ?_)
      show state.current = Function.update state.daemon.lists own (CesaConn.savePeer (state.daemon.lists own) peer).2
        state.daemon.trustedPeers
      by_cases here : own = state.daemon.trustedPeers
      -- a peer that is known, or refused, leaves the list as it is
      · have kept := not_not.mp fun other => changed ⟨other, here⟩
        rw [kept, Function.update_eq_self]
        rfl
      · rw [Function.update_of_ne (Ne.symm here)]
        rfl
  · exact .inr (.inl ⟨other, permits other permit, phase⟩)
  · exact .inr (.inr made)

theorem bridges_finishAuth (network own : Nat) {peer : TrustedPeer} (named : validPeerName peer.name)
    (timely : ∀ state, R.allows task (.inr (.finishAuth network own peer)) state →
      inTime state (.inr (.finishAuth network own peer)) = true) :
    (bridges setup kek list).Triple R task (Aside task False) (bridge (.finishAuth network own peer))
      fun _ => Aside task False := by
  refine Discipline.Triple.call stable_aside ?_
  intro before ledger held inv allowed outcome reply after executed
  obtain ⟨later, started, same⟩ := Option.map_eq_some_iff.mp executed
  cases same
  have paired : after = before ∨ after = before.savePeer network own peer := by
    cases outcome <;> cases started
    case lost => exact .inl rfl
    all_goals exact .inr rfl
  -- dropped with its network, or saved
  rcases paired with rfl | rfl
  · exact ⟨ledger, inv, trivial, keep_of_same rfl (fun _ _ => Iff.rfl) (.inr rfl), held⟩
  have covered : ∀ peers, Covered before ledger peers → Covered (before.savePeer network own peer) ledger peers :=
    fun peers covered => covered.savePeer (timely before allowed)
  refine ⟨ledger, ⟨inv.opened, inv.tidy.setList ((inv.tidy own).savePeer named), inv.own, inv.saving, inv.free, ?_, ?_⟩, trivial,
    keep_of_same rfl (fun _ _ => Iff.rfl) (.inr rfl), held⟩
  · intro none
    obtain ⟨peers, found, before⟩ := inv.stored none
    exact ⟨peers, found, covered peers before⟩
  · intro peers read
    exact covered peers (inv.read peers read)

/-! ## Every pairing in time is saved -/

theorem bridges_jobs (correct : setup.crypto.aead.Correct) (encrypts : setup.crypto.aead.Encrypts)
    (storage : setup.storage = true) (job : BridgeJob) :
    (bridges setup kek list).Triple (bridgeWorkload setup).regime task (Aside task False) (job.program setup)
      fun _ => Aside task False := by
  have saves (promised : Prop) : Bridges setup kek list (bridgeWorkload setup).regime task (Aside task promised)
      (savePeers setup) fun _ => Aside task False := bridges_savePeers correct encrypts storage
  have saved (config : Config) : Bridges setup kek list (bridgeWorkload setup).regime task (Writes task False none)
      (saveConfig setup config) fun _ => Writes task False none := bridges_saveConfig correct encrypts storage config
  cases job with
  | setSync on =>
      refine bridges_change (bridges_bind bridges_savedConfig fun config => ?_)
      cases config with
      | error e => exact Discipline.Triple.done fun _ _ writes => writes
      | ok config => exact saved _
  | setClipboard on =>
      refine bridges_change ?_
      simp only [performRequest, setClipboard]
      split
      · exact Discipline.Triple.done fun _ _ writes => writes
      refine bridges_bind bridges_savedConfig fun config => ?_
      cases config with
      | error e => exact Discipline.Triple.done fun _ _ writes => writes
      | ok config => exact saved _
  | forgetPeer fingerprint => exact bridges_change (bridges_forgetPeer correct encrypts storage fingerprint)
  | stop => exact bridges_within stopNetwork_within (by simp) stable_aside fun _ _ => aside_idle
  | listenerFails network => exact bridges_await (by simp) (by simp) stable_aside
  | finishAuth network own key verificationKey addr =>
      have read : Bridges setup kek list (bridgeWorkload setup).regime task (Aside task False) (await (.readPeers own))
          fun peers state ledger => Saveable peers ∧ Aside task False state ledger := by
        refine Discipline.Triple.call stable_aside ?_
        intro before ledger held inv allowed outcome reply after executed
        obtain ⟨ledger', inv', observed, keeps, held'⟩ := bridges_apart (by simp) stable_aside (.inr fun _ _ => aside_idle)
          before ledger held inv allowed outcome reply after executed
        obtain ⟨_, daemon, ran, rfl⟩ := exec_left executed
        cases ran
        exact ⟨ledger', inv', observed, keeps, inv.tidy own, held'⟩
      refine read.bind fun peers state ledger holds => ?_
      refine bridges_finishAuth network own ?_ (fun _ allowed => allowed) state ledger holds.2
      cases found : peers.find? fun peer => peer.x25519PubKey = key with
      | none => exact validPeerName_toString addr
      | some stored => exact holds.1.named stored (List.mem_of_find?_eq_some found)
  | moved => exact saves False
  | notified network => exact (bridges_notified network).bind fun _ => saves True
  | leave network => exact (bridges_leave network).bind fun _ => saves True

theorem bridges_covered (correct : setup.crypto.aead.Correct) (encrypts : setup.crypto.aead.Encrypts)
    (storage : setup.storage = true) : (bridges setup kek list).Covers (bridgeWorkload setup).regime := by
  refine Discipline.covers_of_jobs fun task job => ?_
  refine (bridges_jobs correct encrypts storage job).consequence ?_ ?_
  · intro state ledger holds
    exact ⟨holds.1.1, iff_false_intro holds.1.2⟩
  · intro _ state ledger aside
    exact ⟨aside.1, aside_idle aside⟩

/-- In every run in which each pairing comes before the last save of its bridge has read the list, the
file has the peers of memory whenever nobody has anything left to do. -/
theorem pairings_are_saved (correct : setup.crypto.aead.Correct) (encrypts : setup.crypto.aead.Encrypts)
    {pool : Pool (bridgeMachine setup)}
    (reached : Reachable (bridgeWorkload setup).regime (Bridged.Settled setup kek) pool) (quiet : pool.Quiet)
    (unnotified : ∀ network ∈ pool.state.permits, pool.state.phase network = .saved) :
    filePeers setup kek pool.state.daemon.file = some (pool.state.daemon.lists pool.state.daemon.trustedPeers) := by
  obtain ⟨start, settled, run⟩ := reached
  let clean : Ledger := ⟨fun _ => False, none⟩
  have begun : BridgeInv setup kek start.daemon.trustedPeers start clean := by
    refine ⟨settled.opened, settled.tidy, rfl, ?_, fun _ => rfl, ?_, ?_⟩
    · intro network task saving
      exact settled.ended network task saving
    · intro _
      exact ⟨_, settled.file, .inl rfl⟩
    · intro peers read
      cases read
  have covers : (bridges setup kek start.daemon.trustedPeers).Covers (bridgeWorkload setup).regime :=
    bridges_covered correct encrypts settled.storage
  have sound : (bridges setup kek start.daemon.trustedPeers).Sound (bridgeWorkload setup).regime ⟨start, []⟩ clean := by
    refine ⟨begun, fun task => ?_⟩
    show start.daemon.turn ≠ some task ∧ ¬ False
    simp [settled.free]
  obtain ⟨ledger, sound⟩ := sound.run covers run
  obtain ⟨inv, idle⟩ := sound.quiet quiet
  have free : pool.state.daemon.turn = none := by
    by_contra held
    obtain ⟨task, held⟩ := Option.ne_none_iff_exists'.mp held
    exact (idle task).1 held
  obtain ⟨peers, found, same | ⟨network, permit, open_⟩ | ⟨task, made⟩⟩ := inv.stored (inv.free free)
  · rw [found, same]
    rfl
  · exact absurd (unnotified network permit) open_
  · exact absurd made (idle task).2

end Rules

def syncingKeys : KeySlots := { openVaultKeys with
  vault := some ⟨.replicate 32 6, .replicate wrapLen 6, .replicate 32 7, ⟨true, false⟩, .replicate identitySeedLen 8⟩ }

def unpairedFile : Option Bytes := (sealVault .plain (some (.replicate 12 6)) (.replicate wrapLen 6) (.replicate 32 6)
  ⟨.replicate 32 1, .replicate 32 3, Config.encode ⟨true, false⟩ [0, 0], .replicate identitySeedLen 8, [0, 0]⟩).toOption

def syncing : Bridged where
  daemon := { new unpairedFile (fun _ => none) with
    keys := syncingKeys
    network := some ⟨0, .replicate identitySeedLen 8, 0⟩
    nextNetwork := 1 }
  permits := []
  phase _ := .looping

theorem settled_syncing : syncing.Settled plainSetup (.replicate 32 6) where
  storage := rfl
  opened := ⟨_, _, _, rfl, rfl, rfl, .replicate 12 6, List.replicate 48 6, rfl, rfl⟩
  free := rfl
  tidy _ := Saveable.nil
  ended _ _ saving := by cases saving
  file := by decide +kernel

def savesAll (W : Workload (bridgeMachine plainSetup)) (task : Nat) : List W.Move :=
  List.replicate 7 (.resume task .done) ++ [.resume task (.drawn (List.replicate 12 6))] ++
    List.replicate 3 (.resume task .done)

/-- The phone pairs and its bridge saves. -/
def phoneSaved : List (bridgeWorkload plainSetup).Move :=
  [.start (.finishAuth 0 0 phoneKey (.replicate mldsa87VkLen 0) phoneAddr) .done, .resume 0 .done,
    .start (.notified 0) .done] ++ savesAll (bridgeWorkload plainSetup) 1

theorem pairings_are_saved_phone : ∃ pool, Reachable (bridgeWorkload plainSetup).regime
      (Bridged.Settled plainSetup (.replicate 32 6)) pool ∧ pool.state.current.length = 1 ∧
    filePeers plainSetup (.replicate 32 6) pool.state.daemon.file = some pool.state.current := by
  obtain ⟨pool, reached, quiet, unnotified, paired⟩ := Workload.reachable_of_play syncing phoneSaved
    (fun pool => pool.Quiet ∧ (∀ network ∈ pool.state.permits, pool.state.phase network = .saved) ∧
      pool.state.current.length = 1) settled_syncing (by decide +kernel)
  exact ⟨pool, reached, paired, pairings_are_saved Aead.plain_correct Aead.plain_encrypts reached quiet unnotified⟩

/-- Sync is turned off while the phone pairs, and its handshake goes on once more after the last save. -/
def phoneTooLate : List (bridgeWorkload plainSetup).unrestricted.Move := List.flatten
  [[.start (.finishAuth 0 0 phoneKey (.replicate mldsa87VkLen 0) phoneAddr) .done, .start (.setSync false) .done],
    List.replicate 6 (.resume 1 .done), [.resume 1 (.drawn (List.replicate 12 6))],
    List.replicate 9 (.resume 1 .done), [.start (.leave 0) .done],
    savesAll (bridgeWorkload plainSetup).unrestricted 2, [.resume 0 .done]]

theorem pairing_is_lost :
    ¬ ∀ pool, Reachable (bridgeWorkload plainSetup).unrestricted.regime (Bridged.Settled plainSetup (.replicate 32 6)) pool →
      pool.Quiet → (∀ network ∈ pool.state.permits, pool.state.phase network = .saved) →
      filePeers plainSetup (.replicate 32 6) pool.state.daemon.file = some pool.state.current := by
  intro always
  obtain ⟨pool, reached, quiet, unnotified, empty, paired⟩ := Workload.reachable_of_play syncing phoneTooLate
    (fun pool => pool.Quiet ∧ (∀ network ∈ pool.state.permits, pool.state.phase network = .saved) ∧
      filePeers plainSetup (.replicate 32 6) pool.state.daemon.file = some [] ∧ pool.state.current.length = 1)
    settled_syncing (by decide +kernel)
  rw [always pool reached quiet unnotified] at empty
  rw [Option.some.inj empty] at paired
  cases paired

end Daemon

end CesaConn
