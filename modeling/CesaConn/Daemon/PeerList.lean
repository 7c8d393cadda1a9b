import CesaConn.Daemon.Frame
import CesaConn.Program.Triple

/-! The trusted-peer list can always be saved and loaded again.

Handshakes check a new peer under the list's lock. Two steps do not: a join
pushes its member, and a failed save puts forgotten peers back after other
tasks could change the list. `keepsRoom` is what these two steps need to find.
-/

set_option autoImplicit false

namespace CesaConn

open Format Program

namespace Daemon

variable {setup : Setup}

inductive PeerJob where
  | forgetPeer (fingerprint : Block fingerprintLen)
  | unlock (password : Bytes)
  | resetDevice
  | commitJoin (joined : Joined) (identity : Vault.Identity) (resets : Nat)
  | pairDevice (list : Nat) (key : StaticKey) (verificationKey : VerificationKey) (addr : SocketAddr)

def PeerJob.program (setup : Setup) : PeerJob → Task Unit
  | .forgetPeer fingerprint => change setup (.forgetPeer fingerprint)
  | .unlock password => change setup (.unlock password)
  | .resetDevice => change setup .resetDevice
  | .commitJoin joined identity resets => do let _ ← Daemon.commitJoin setup joined identity resets
  | .pairDevice list key verificationKey addr => do let _ ← Daemon.pairDevice list key verificationKey addr

/-- A join's member is new to the device, so its name is its address. -/
def PeerJob.ready : PeerJob → State → Bool
  | .commitJoin joined _ _, _ => joined.peer.name = joined.addr.toString
  | _, _ => true

/-- Peers go in unchecked only where their keys are not taken and there is room. -/
def keepsRoom : Op → State → Bool
  | .putBack list removed, state =>
      (state.lists list).length + removed.length ≤ maxTrustedPeers &&
        removed.all fun entry => !knows (state.lists list) entry.2.x25519PubKey
  | .pushPeer list peer, state =>
      (state.lists list).length < maxTrustedPeers && !knows (state.lists list) peer.x25519PubKey
  | _, _ => true

def peerWorkload (setup : Setup) : Workload (machine setup) where
  Job := PeerJob
  program := PeerJob.program setup
  ready := PeerJob.ready
  allows _ := keepsRoom

/-! ## Every list is saveable -/

def State.Tidy (state : State) : Prop := ∀ list, Saveable (state.lists list)

theorem State.Tidy.setList {state : State} (tidy : state.Tidy) {list : Nat} {peers : List TrustedPeer}
    (saveable : Saveable peers) : (state.setList list peers).Tidy := by
  intro other
  by_cases same : other = list
  · subst same
    simpa [State.setList] using saveable
  · simpa [State.setList, same] using tidy other

/-- Triples over the lists; assertions are about values only. -/
abbrev Lists (setup : Setup) (task : Nat) {A : Type} (program : Task A) (post : A → Prop) : Prop :=
  (Discipline.ofInvariant State.Tidy).Triple (peerWorkload setup).regime task (fun _ _ => True) program
    fun value _ _ => post value

variable {task : Nat}

theorem Lists.bind {A B : Type} {program : Task A} {k : A → Task B} {mid : A → Prop} {post : B → Prop}
    (first : Lists setup task program mid) (rest : ∀ value, mid value → Lists setup task (k value) post) :
    Lists setup task (program >>= k) post :=
  Discipline.Triple.bind first fun value state ghost holds => rest value holds state ghost trivial

theorem Lists.seq {A B : Type} {program : Task A} {k : A → Task B} {post : B → Prop}
    (first : Lists setup task program fun _ => True) (rest : ∀ value, Lists setup task (k value) post) :
    Lists setup task (program >>= k) post :=
  first.bind fun value _ => rest value

theorem Lists.ite {A : Type} {condition : Prop} [Decidable condition] {yes no : Task A} {post : A → Prop}
    (left : Lists setup task yes post) (right : Lists setup task no post) :
    Lists setup task (if condition then yes else no) post := by
  split
  · exact left
  · exact right

theorem Lists.done {A : Type} {value : A} {post : A → Prop} (holds : post value) :
    Lists setup task (.done value) post :=
  Discipline.Triple.done fun _ _ _ => holds

theorem lists_untouched {op : Op} (untouched : .peers ∉ op.writes) {outcome : Outcome} {before after : State}
    {reply : Reply op} (executed : (machine setup).exec task op outcome before = some (reply, after))
    (tidy : before.Tidy) : after.Tidy := by
  have same := (exec_same executed .peers untouched).2.1
  intro list
  rw [same]
  exact tidy list

theorem Lists.within {A : Type} {program : Task A} {fields : List Field} (all : program.All (Op.Within fields))
    (other : .peers ∉ fields) : Lists setup task program fun _ => True := by
  refine Discipline.Triple.all all (fun _ _ _ _ _ _ => trivial) ?_
  intro op within before ghost _ tidy _ outcome reply after executed
  exact ⟨(), lists_untouched (fun member => other (within member)) executed tidy, trivial,
    fun _ _ => trivial, trivial⟩

theorem Lists.await {op : Op} (untouched : .peers ∉ op.writes) :
    Lists setup task (await op) fun _ => True :=
  Discipline.Triple.preserves fun _ tidy _ _ _ _ executed => ⟨lists_untouched untouched executed tidy, trivial⟩

/-! ## The steps that write a list -/

theorem lists_readPeers (list : Nat) : Lists setup task (await (.readPeers list)) Saveable := by
  refine Discipline.Triple.preserves fun before tidy _ _ reply after executed => ?_
  cases executed
  exact ⟨tidy, tidy list⟩

theorem lists_takePeers (list : Nat) (fingerprint : Block fingerprintLen) :
    Lists setup task (await (.takePeers list fingerprint)) fun removed => Saveable (removed.map Prod.snd) := by
  refine Discipline.Triple.preserves fun before tidy _ _ reply after executed => ?_
  obtain ⟨taken, left⟩ := (tidy list).taken fingerprint
  cases executed
  exact ⟨tidy.setList left, taken⟩

theorem lists_putBack (list : Nat) {removed : List (Nat × TrustedPeer)} (taken : Saveable (removed.map Prod.snd)) :
    Lists setup task (await (.putBack list removed)) fun _ => True := by
  refine Discipline.Triple.preserves fun before tidy allowed _ reply after executed => ?_
  have room : keepsRoom (.putBack list removed) before := allowed
  simp only [keepsRoom, Bool.and_eq_true, decide_eq_true_eq, List.all_eq_true, Bool.not_eq_true'] at room
  cases executed
  exact ⟨tidy.setList ((saveable_putBack (tidy list) taken).mpr room), trivial⟩

theorem lists_loadPeers (list : Nat) {peers : List TrustedPeer} (saveable : Saveable peers) :
    Lists setup task (await (.loadPeers list peers)) fun _ => True := by
  refine Discipline.Triple.preserves fun before tidy _ _ reply after executed => ?_
  cases executed
  exact ⟨tidy.setList saveable, trivial⟩

theorem lists_pushPeer (list : Nat) {peer : TrustedPeer} (named : validPeerName peer.name) :
    Lists setup task (await (.pushPeer list peer)) fun _ => True := by
  refine Discipline.Triple.preserves fun before tidy allowed _ reply after executed => ?_
  have room : keepsRoom (.pushPeer list peer) before := allowed
  simp only [keepsRoom, Bool.and_eq_true, decide_eq_true_eq, Bool.not_eq_true'] at room
  cases executed
  exact ⟨tidy.setList ((tidy list).push named room.2 room.1), trivial⟩

theorem lists_savePeer (list : Nat) {peer : TrustedPeer} (named : validPeerName peer.name) :
    Lists setup task (await (.savePeer list peer)) fun _ => True := by
  refine Discipline.Triple.preserves fun before tidy _ _ reply after executed => ?_
  cases executed
  exact ⟨tidy.setList ((tidy list).savePeer named), trivial⟩

theorem lists_newPeers : Lists setup task (await .newPeers) fun _ => True := by
  refine Discipline.Triple.preserves fun before tidy _ _ reply after executed => ?_
  cases executed
  exact ⟨tidy.setList Saveable.nil, trivial⟩

/-! ## The functions -/

theorem lists_pairDevice (list : Nat) (key : StaticKey) (verificationKey : VerificationKey) (addr : SocketAddr) :
    Lists setup task (pairDevice list key verificationKey addr) fun _ => True := by
  refine Lists.bind (lists_readPeers list) fun peers saveable => lists_savePeer list ?_
  cases found : peers.find? fun peer => peer.x25519PubKey = key with
  | none => exact validPeerName_toString addr
  | some stored => exact saveable.named stored (List.mem_of_find?_eq_some found)

theorem lists_forgetPeer (fingerprint : Block fingerprintLen) :
    Lists setup task (forgetPeer setup fingerprint) fun _ => True := by
  refine Lists.seq (Lists.await (by simp)) fun slots => Lists.ite (Lists.done trivial) ?_
  refine Lists.seq (Lists.await (by simp)) fun list => Lists.bind (lists_takePeers list fingerprint) fun removed taken => ?_
  refine Lists.ite (Lists.done trivial) (Lists.seq (Lists.await (by simp)) fun slots => ?_)
  refine Lists.seq (Lists.ite (Lists.within (reseal_within none) (by simp)) (Lists.done trivial)) fun saved => ?_
  cases saved with
  | error e => exact Lists.seq (lists_putBack list taken) fun _ => Lists.done trivial
  | ok _ => exact Lists.seq (Lists.within (removePeers_within removed) (by simp)) fun _ => Lists.done trivial

theorem lists_unlockWith (dKey : Vault.DataKey) : Lists setup task (unlockWith setup dKey) fun _ => True := by
  refine Lists.ite (Lists.done trivial) (Lists.seq (Lists.await (by simp)) fun salts => ?_)
  split
  · exact Lists.done trivial
  · split
    · exact Lists.done trivial
    · refine Lists.seq (Lists.await (by simp)) fun file => ?_
      split
      · exact Lists.done trivial
      · exact Lists.done trivial
      · split
        · exact Lists.done trivial
        · split
          · exact Lists.done trivial
          · split
            · exact Lists.done trivial
            · next peers decoded =>
              split
              · exact Lists.done trivial
              · refine Lists.seq (Lists.await (by simp)) fun list => ?_
                refine Lists.seq (lists_loadPeers list (Saveable.decoded decoded)) fun _ => ?_
                exact Lists.seq (Lists.await (by simp)) fun _ => Lists.seq (Lists.await (by simp)) fun _ => Lists.done trivial
  · exact Lists.done trivial

theorem lists_unlock (password : Bytes) : Lists setup task (unlock setup password) fun _ => True := by
  refine Lists.ite (Lists.done trivial) (Lists.seq (Lists.await (by simp)) fun slots => Lists.seq (Lists.await (by simp)) fun now => ?_)
  refine Lists.ite (Lists.done trivial) (Lists.ite (Lists.done trivial) (Lists.seq (Lists.await (by simp)) fun salts => ?_))
  split
  · exact Lists.done trivial
  · split
    · exact Lists.done trivial
    · refine Lists.seq (Lists.within (derive_within _ _) (by simp)) fun derived => ?_
      split
      · exact Lists.done trivial
      · refine Lists.seq (lists_unlockWith _) fun result => Lists.seq (Lists.await (by simp)) fun now => ?_
        exact Lists.seq (Lists.await (by simp)) fun _ => Lists.done trivial
  · exact Lists.done trivial

theorem lists_resetDevice : Lists setup task (resetDevice setup) fun _ => True := by
  refine Lists.seq (Lists.await (by simp)) fun _ => Lists.seq (Lists.within cancelJoin_within (by simp)) fun _ => ?_
  refine Lists.seq (Lists.within stopNetwork_within (by simp)) fun _ => ?_
  refine Lists.seq (Lists.ite (Lists.seq (Lists.await (by simp)) fun _ => Lists.done trivial) (Lists.done trivial))
    fun deleted => ?_
  cases deleted with
  | error e => exact Lists.done trivial
  | ok _ =>
      refine Lists.seq (Lists.await (by simp)) fun _ => Lists.seq lists_newPeers fun _ => ?_
      refine Lists.seq (Lists.await (by simp)) fun _ => Lists.seq (Lists.await (by simp)) fun _ => ?_
      refine Lists.ite (Lists.seq (Lists.await (by simp)) fun _ => Lists.ite ?_ (Lists.done trivial)) (Lists.done trivial)
      exact Lists.seq (Lists.await (by simp)) fun _ => Lists.ite (Lists.done trivial) (Lists.done trivial)

theorem lists_change {request : Request}
    (performs : Lists setup task (performRequest setup request) fun _ => True) :
    Lists setup task (change setup request) fun _ => True := by
  refine Lists.seq (Lists.await (by simp)) fun _ => Lists.seq performs fun _ => ?_
  exact Lists.seq (Lists.within applyNetwork_within (by simp)) fun _ => Lists.await (by simp)

theorem lists_commitJoin {joined : Joined} (named : validPeerName joined.peer.name) (identity : Vault.Identity)
    (resets : Nat) : Lists setup task (commitJoin setup joined identity resets) fun _ => True := by
  refine Lists.seq (Lists.await (by simp)) fun _ => Lists.seq (Lists.await (by simp)) fun current => ?_
  refine Lists.ite (Lists.seq (Lists.await (by simp)) fun _ => Lists.done trivial) (Lists.seq (Lists.await (by simp)) fun slots => ?_)
  refine Lists.ite (Lists.seq (Lists.await (by simp)) fun _ => Lists.done trivial) ?_
  refine Lists.seq (Lists.await (by simp)) fun _ => Lists.seq (Lists.await (by simp)) fun _ => Lists.seq (Lists.await (by simp)) fun list => ?_
  refine Lists.seq (lists_pushPeer list named) fun _ => ?_
  refine Lists.seq (Lists.within (createVault_within _ _) (by simp)) fun _ => Lists.seq (Lists.await (by simp)) fun slots => ?_
  exact Lists.seq (Lists.await (by simp)) fun _ =>
    Lists.seq (Lists.within applyNetwork_within (by simp)) fun _ => Lists.done trivial

theorem lists_covered (setup : Setup) :
    (Discipline.ofInvariant State.Tidy).Covers (peerWorkload setup).regime := by
  refine Discipline.covers_of_jobs fun task job state ghost ready => ?_
  have start : ∀ {program : Task Unit}, Lists setup task program (fun _ => True) →
      (Discipline.ofInvariant State.Tidy).Safe (peerWorkload setup).regime task
        (fun _ => (Discipline.ofInvariant State.Tidy).idle task) program state ghost :=
    fun triple => triple state ghost trivial
  cases job with
  | forgetPeer fingerprint => exact start (lists_change (lists_forgetPeer fingerprint))
  | unlock password => exact start (lists_change (lists_unlock password))
  | resetDevice => exact start (lists_change lists_resetDevice)
  | commitJoin joined identity resets =>
      have same : joined.peer.name = joined.addr.toString := by
        simpa [peerWorkload, PeerJob.ready] using ready.2
      have named : validPeerName joined.peer.name := by
        rw [same]
        exact validPeerName_toString joined.addr
      exact start (Lists.seq (lists_commitJoin named identity resets) fun _ => Lists.done trivial)
  | pairDevice list key verificationKey addr =>
      exact start (Lists.seq (lists_pairDevice list key verificationKey addr) fun _ => Lists.done trivial)

def State.NoPeers (state : State) : Prop := ∀ list, state.lists list = []

/-- While the unchecked steps find their keys free and room for them, the list has
at most `maxTrustedPeers` entries with different keys and valid names in every
state of every run, so it is saved and loaded unchanged. -/
theorem peer_list_round_trips {pool : Pool (machine setup)}
    (reached : Reachable (peerWorkload setup).regime State.NoPeers pool) :
    Saveable (pool.state.lists pool.state.trustedPeers) ∧
      ∃ bytes, encodePeers (pool.state.lists pool.state.trustedPeers) = some bytes ∧
        decodePeers bytes = some (pool.state.lists pool.state.trustedPeers) := by
  have start : ∀ state : State, state.NoPeers → ∃ ghost : Unit,
      (Discipline.ofInvariant (M := machine setup) State.Tidy).inv state ghost ∧
        ∀ task, (Discipline.ofInvariant (M := machine setup) State.Tidy).idle task state ghost := by
    intro state none
    refine ⟨(), fun list => ?_, fun _ => trivial⟩
    rw [none list]
    exact Saveable.nil
  obtain ⟨ghost, tidy, -⟩ := Discipline.sound_reachable (lists_covered setup) start reached
  exact ⟨tidy _, saveable_iff.mp (tidy _)⟩

/-! ## A forgotten device that pairs again -/

def phonePairs : (peerWorkload plainSetup).Job := .pairDevice 0 phoneKey (.replicate mldsa87VkLen 0) phoneAddr

theorem peer_list_round_trips_paired :
    ∃ pool, Reachable (peerWorkload plainSetup).regime State.NoPeers pool ∧
      (pool.state.lists pool.state.trustedPeers).length = 1 ∧
      ∃ bytes, encodePeers (pool.state.lists pool.state.trustedPeers) = some bytes ∧
        decodePeers bytes = some (pool.state.lists pool.state.trustedPeers) := by
  obtain ⟨pool, reached, one⟩ := Workload.reachable_of_play (W := peerWorkload plainSetup) unpaired
    [.start phonePairs .done, .resume 0 .done]
    (fun pool => (pool.state.lists pool.state.trustedPeers).length = 1)
    (show State.NoPeers unpaired from fun _ => rfl) (by decide +kernel)
  exact ⟨pool, reached, one, (peer_list_round_trips reached).2⟩

def forgottenPhone : List (peerWorkload plainSetup).unrestricted.Move := List.flatten
  [[.start phonePairs .done, .resume 0 .done, .start (.forgetPeer (.replicate fingerprintLen 9)) .done],
    -- up to the nonce of the seal: the list is read while the phone is gone
    List.replicate 9 (.resume 1 .done), [.resume 1 (.drawn (List.replicate 12 0))],
    [.start phonePairs .done, .resume 2 .done, .resume 1 .done, .resume 1 (.failed .io)],
    -- put back, networking, release
    List.replicate 4 (.resume 1 .done)]

/-- Without that condition the put-back of a failed save leaves a device twice in
the list, and the next unlock refuses the whole vault. -/
theorem forgotten_peer_twice :
    ¬ ∀ pool, Reachable (peerWorkload plainSetup).unrestricted.regime State.NoPeers pool → pool.Quiet →
      Saveable (pool.state.lists pool.state.trustedPeers) := by
  intro always
  obtain ⟨pool, reached, quiet, twice⟩ := Workload.reachable_of_play unpaired forgottenPhone
    (fun pool => pool.Quiet ∧ (pool.state.lists pool.state.trustedPeers).map TrustedPeer.x25519PubKey =
      [phoneKey, phoneKey])
    (show State.NoPeers unpaired from fun _ => rfl) (by decide +kernel)
  have distinct := (always pool reached quiet).distinct
  rw [twice] at distinct
  simp at distinct

end Daemon

end CesaConn
