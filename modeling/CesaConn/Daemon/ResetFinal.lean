import CesaConn.Daemon.JoinCommit
import CesaConn.Daemon.Sequence

/-! A reset is final.

Work of before a reset can outlive it: handshakes with the old list, saves the
old bridge asked for, the commit of a join. Once the keys are wiped and the list
is a new one, none of it comes back. What the reset itself leaves, with every
call failing or not, is read off its executions.
-/

set_option autoImplicit false

namespace CesaConn

open Format Program

namespace Daemon

open Vault

/-! ## Earlier work -/

/-- Work of before a reset: its list is older than the new one, its counter is not past the reset's. -/
def JoinJob.Earlier (handle resets : Nat) : JoinJob → Prop
  | .save (.pairDevice list _ _ _) => list < handle
  | .save (.commitJoin _ _ counter) => counter ≤ resets
  | .save .savePeers | .save (.connection _) | .cancelJoin | .endJoin _ => True
  | .save (.change _) | .save .loginAtStart | .joinGroup => False

/-- A reset writes the keys to wipe them, the file to delete it and the peers to forget them. -/
def Op.Resets (op : Op) : Prop :=
  (.keys ∈ op.writes → op = .wipeKeys) ∧ (.file ∈ op.writes → op = .deleteFile) ∧ (.peers ∈ op.writes → op = .newPeers)

def JoinJob.Does : JoinJob → Op → Prop
  | .save (.pairDevice list _ _ _), op => op.writes = [] ∨ ∃ peer, op = .savePeer list peer
  | .save .savePeers, op => op.Within [.file, .turn]
  | .save (.connection _), op => op.Within [.book]
  | .cancelJoin, op | .endJoin _, op => op.Within [.join, .cancelled, .pairings]
  | .save (.change .resetDevice), op => op.Resets
  | _, _ => True

variable {setup : Setup} {task : Nat} {A : Type}

theorem resets_of_within {fields : List Field} {op : Op} (within : op.Within fields)
    (apart : .keys ∉ fields ∧ .file ∉ fields ∧ .peers ∉ fields) : op.Resets := by
  refine ⟨?_, ?_, ?_⟩
  · exact fun member => absurd (within member) apart.1
  · exact fun member => absurd (within member) apart.2.1
  · exact fun member => absurd (within member) apart.2.2

theorem resets_within {fields : List Field} {program : Task A} (within : program.All (Op.Within fields))
    (apart : .keys ∉ fields ∧ .file ∉ fields ∧ .peers ∉ fields) : program.All Op.Resets :=
  all_imp within fun _ footprint => resets_of_within footprint apart

theorem resets_await {op : Op} (resets : op.Resets) : (await op).All Op.Resets := ⟨resets, fun _ => trivial⟩

theorem resets_resetDevice : (resetDevice setup).All Op.Resets := by
  refine Proc.all_bind (resets_await (by simp [Op.Resets])) fun _ => ?_
  refine Proc.all_bind (resets_within cancelJoin_within (by simp)) fun _ => ?_
  refine Proc.all_bind (resets_within stopNetwork_within (by simp)) fun _ => ?_
  refine Proc.all_bind (all_ite (Proc.all_bind (resets_await (by simp [Op.Resets])) fun _ => trivial) trivial)
    fun result => ?_
  cases result with
  | error e => trivial
  | ok _ =>
      refine Proc.all_bind (resets_await (by simp [Op.Resets])) fun _ => ?_
      refine Proc.all_bind (resets_await (by simp [Op.Resets])) fun _ => ?_
      refine Proc.all_bind (resets_await (by simp [Op.Resets])) fun _ => ?_
      refine Proc.all_bind (resets_await (by simp [Op.Resets])) fun _ => all_ite ?_ trivial
      refine Proc.all_bind (resets_await (by simp [Op.Resets])) fun salts => all_ite ?_ trivial
      exact Proc.all_bind (resets_await (by simp [Op.Resets])) fun key => all_ite trivial trivial

theorem savePeers_within : (savePeers setup).All (Op.Within [.file, .turn]) := by
  refine Proc.all_bind (within_await (by simp)) fun _ => Proc.all_bind (within_await (by simp)) fun slots => ?_
  refine all_ite (within_await (by simp)) ?_
  exact Proc.all_bind (all_grow _ (reseal_within none) (by simp)) fun _ => within_await (by simp)

theorem all_any {P : Op → Prop} (any : ∀ op, P op) (program : Task A) : program.All P := by
  induction program with
  | done value => trivial
  | call op next ih => exact ⟨any op, ih⟩

theorem does_change (request : Request) : (change setup request).All (JoinJob.save (.change request)).Does := by
  cases request
  case resetDevice =>
    refine Proc.all_bind (resets_await (by simp [Op.Resets])) fun _ => ?_
    refine Proc.all_bind resets_resetDevice fun _ => ?_
    refine Proc.all_bind (resets_within applyNetwork_within (by simp)) fun _ => ?_
    exact resets_await (by simp [Op.Resets])
  all_goals exact all_any (fun _ => trivial) _

theorem does_program (job : JoinJob) : (job.program setup).All job.Does := by
  cases job with
  | save job =>
      cases job with
      | change request => exact does_change request
      | savePeers => exact savePeers_within
      | pairDevice list key verificationKey addr =>
          refine Proc.all_bind (Proc.all_bind ⟨.inl rfl, fun _ => trivial⟩ fun peers => ?_) fun _ => trivial
          exact ⟨.inr ⟨_, rfl⟩, fun _ => trivial⟩
      | connection seen => exact within_await (by simp)
      | commitJoin joined identity resets => exact all_any (fun _ => trivial) _
      | loginAtStart => exact all_any (fun _ => trivial) _
  | joinGroup => exact all_any (fun _ => trivial) _
  | cancelJoin => exact cancelJoin_within
  | endJoin generation => exact all_grow _ (endJoin_within generation) (by simp)

/-! ## List handles -/

def Grows (before after : State) : Prop :=
  before.trustedPeers < before.nextList →
    before.trustedPeers ≤ after.trustedPeers ∧ after.trustedPeers < after.nextList

theorem Grows.trans {first second third : State} (left : Grows first second) (right : Grows second third) :
    Grows first third := by
  intro made
  obtain ⟨le, made'⟩ := left made
  obtain ⟨le', made''⟩ := right made'
  exact ⟨Nat.le_trans le le', made''⟩

theorem exec_grows {op : Op} {outcome : Outcome} {reply : Reply op} {before after : State}
    (executed : (machine setup).exec task op outcome before = some (reply, after)) : Grows before after := by
  intro made
  by_cases untouched : .peers ∉ op.writes
  · obtain ⟨handle, -, next⟩ := exec_same executed .peers untouched
    omega
  · cases op <;> simp at untouched
    all_goals cases executed
    all_goals simp only [State.setList]
    all_goals omega

theorem exec_savePeer {list : Nat} {peer : TrustedPeer} {op : Op} (saves : op = .savePeer list peer) {outcome : Outcome}
    {reply : Reply op} {before after : State}
    (executed : (machine setup).exec task op outcome before = some (reply, after)) :
    after.trustedPeers = before.trustedPeers ∧ ∀ other, other ≠ list → after.lists other = before.lists other := by
  subst saves
  cases executed
  exact ⟨rfl, fun other different => by simp [State.setList, different]⟩

theorem exec_newPeers {op : Op} (renews : op = .newPeers) {outcome : Outcome} {reply : Reply op} {before after : State}
    (executed : (machine setup).exec task op outcome before = some (reply, after)) :
    after.trustedPeers < after.nextList ∧ after.lists after.trustedPeers = [] := by
  subst renews
  cases executed
  exact ⟨Nat.lt_succ_self _, by simp [State.setList]⟩

theorem exec_wipeKeys {op : Op} (wipes : op = .wipeKeys) {outcome : Outcome} {reply : Reply op} {before after : State}
    (executed : (machine setup).exec task op outcome before = some (reply, after)) : after.keys = {} := by
  subst wipes
  cases executed
  rfl

theorem exec_deleteFile {op : Op} (deletes : op = .deleteFile) {outcome : Outcome} {reply : Reply op}
    {before after : State} (executed : (machine setup).exec task op outcome before = some (reply, after))
    (gone : before.file = none) : after.file = none := by
  subst deletes
  rcases Outcome.write_eq (Option.some.inj executed) with ⟨-, same⟩ | ⟨-, same⟩
  · exact congrArg State.file same
  · exact (congrArg State.file same).trans gone

/-- What a reset does leaves empty what is empty. -/
theorem Op.Resets.emptied {op : Op} (resets : op.Resets) {outcome : Outcome} {reply : Reply op} {before after : State}
    (executed : (machine setup).exec task op outcome before = some (reply, after)) :
    (before.keys = {} → after.keys = {}) ∧ (before.file = none → after.file = none) ∧
      (before.lists before.trustedPeers = [] → after.lists after.trustedPeers = []) := by
  refine ⟨fun empty => ?_, fun empty => ?_, fun empty => ?_⟩
  · by_cases written : .keys ∈ op.writes
    · exact exec_wipeKeys (resets.1 written) executed
    · exact (exec_same executed .keys written).trans empty
  · by_cases written : .file ∈ op.writes
    · exact exec_deleteFile (resets.2.1 written) executed empty
    · exact (exec_same executed .file written).trans empty
  · by_cases written : .peers ∈ op.writes
    · exact (exec_newPeers (resets.2.2 written) executed).2
    · obtain ⟨handle, lists, -⟩ := exec_same executed .peers written
      rw [handle, lists]
      exact empty

/-! ## What earlier work leaves -/

/-- The moment leaves the keys and the lists from a handle on, and the file unless it saves for an open vault. -/
structure Leaves (handle : Nat) (moment : Moment (joinWorkload setup)) : Prop where
  keys : State.keys moment.after = State.keys moment.before
  file : State.file moment.after = State.file moment.before ∨
    (moment.job = JoinJob.save .savePeers ∧ (State.keys moment.before).vault.isSome)
  current : State.trustedPeers moment.after = State.trustedPeers moment.before
  lists : ∀ list, handle ≤ list → State.lists moment.after list = State.lists moment.before list

section Record

variable {jobs : List JoinJob} {moments earlier between later : List (Moment (joinWorkload setup))}
  {pool : Pool (machine setup)} {count wipe renew moment : Moment (joinWorkload setup)}

abbrev RecordedFree (setup : Setup) (jobs : List JoinJob) (moments : List (Moment (joinWorkload setup)))
    (pool : Pool (machine setup)) : Prop :=
  Recorded (joinWorkload setup) (fun state => State.turn state = none) jobs moments pool

theorem shown_moment (recorded : RecordedFree setup jobs moments pool) (member : moment ∈ moments) :
    ∃ writer writer', Shown setup moment writer writer' :=
  recorded.shown commits_accounts (fun state free => ⟨none, by simp [commits], by simp [commits, free]⟩) moment member

theorem does_moment (recorded : RecordedFree setup jobs moments pool) (member : moment ∈ moments) :
    JoinJob.Does moment.job moment.op :=
  recorded.within does_program moment member

/-- A commit that began before a reset stores nothing after it. -/
theorem commit_refused (recorded : RecordedFree setup jobs moments pool)
    (cut : moments = earlier ++ count :: (between ++ moment :: later)) (counts : count.op = Op.bumpResets)
    {joined : Joined} {identity : Identity} {counter : Nat}
    (job : moment.job = JoinJob.save (.commitJoin joined identity counter)) (old : counter ≤ State.resets count.before) :
    ¬ Op.Stores moment.op := by
  intro stores
  obtain ⟨writer, writer', shown⟩ := shown_moment recorded (show moment ∈ moments by simp [cut])
  have current := (shown.commits joined identity counter job stores).current
  have grown := resets_grow recorded cut counts (show count ∈ earlier ++ [count] by simp)
  omega

section Moment

variable {handle : Nat}

theorem leaves_untouched (recorded : RecordedFree setup jobs moments pool) (member : moment ∈ moments)
    (keys : .keys ∉ Op.writes moment.op) (peers : .peers ∉ Op.writes moment.op)
    (file : .file ∉ Op.writes moment.op ∨
      (moment.job = JoinJob.save .savePeers ∧ (State.keys moment.before).vault.isSome)) : Leaves handle moment := by
  obtain ⟨outcome, reply, executed⟩ := recorded.executed member
  obtain ⟨current, lists, -⟩ := exec_same executed .peers peers
  refine ⟨exec_same executed .keys keys, ?_, current, fun _ _ => by rw [lists]⟩
  rcases file with untouched | saves
  · exact .inl (exec_same executed .file untouched)
  · exact .inr saves

theorem leaves_within (recorded : RecordedFree setup jobs moments pool) (member : moment ∈ moments)
    {fields : List Field} (within : Op.Within fields moment.op)
    (apart : .keys ∉ fields ∧ .file ∉ fields ∧ .peers ∉ fields) : Leaves handle moment := by
  apply leaves_untouched recorded member
  · exact fun written => apart.1 (within written)
  · exact fun written => apart.2.2 (within written)
  · exact .inl fun written => apart.2.1 (within written)

theorem leaves_savePeers (recorded : RecordedFree setup jobs moments pool) (member : moment ∈ moments)
    (job : moment.job = JoinJob.save .savePeers) : Leaves handle moment := by
  have within := does_moment recorded member
  rw [job] at within
  obtain ⟨writer, writer', shown⟩ := shown_moment recorded member
  apply leaves_untouched recorded member
  · exact fun written => absurd (within written) (by simp)
  · exact fun written => absurd (within written) (by simp)
  · by_cases written : Field.file ∈ Op.writes moment.op
    · exact .inr ⟨job, shown.saves job written⟩
    · exact .inl written

theorem leaves_pairDevice (recorded : RecordedFree setup jobs moments pool) (member : moment ∈ moments) {list : Nat}
    (does : Op.writes moment.op = [] ∨ ∃ peer, moment.op = Op.savePeer list peer) (older : list < handle) :
    Leaves handle moment := by
  rcases does with reads | ⟨peer, saves⟩
  · have within : Op.Within [] moment.op := List.subset_nil.mpr reads
    exact leaves_within recorded member within (by simp)
  · obtain ⟨outcome, reply, executed⟩ := recorded.executed member
    obtain ⟨current, lists⟩ := exec_savePeer saves executed
    have keys : .keys ∉ Op.writes moment.op := by simp [saves]
    have file : .file ∉ Op.writes moment.op := by simp [saves]
    refine ⟨exec_same executed .keys keys, .inl (exec_same executed .file file), current, ?_⟩
    intro other newer
    exact lists other (by omega)

theorem leaves_commitJoin (recorded : RecordedFree setup jobs moments pool) (member : moment ∈ moments)
    (quiet : ¬ Op.Stores moment.op) : Leaves handle moment := by
  apply leaves_untouched recorded member
  · exact fun written => quiet (.inl written)
  · exact fun written => quiet (.inr (.inl written))
  · exact .inl fun written => quiet (.inr (.inr (.inl written)))

end Moment

/-- What earlier work leaves once a reset has counted itself. -/
theorem earlier_leaves (recorded : RecordedFree setup jobs moments pool)
    (cut : moments = earlier ++ count :: (between ++ moment :: later)) (counts : count.op = Op.bumpResets) {handle : Nat}
    (old : JoinJob.Earlier handle (State.resets count.before) moment.job) : Leaves handle moment := by
  have member : moment ∈ moments := by simp [cut]
  have does := does_moment recorded member
  obtain ⟨named, job⟩ : ∃ named : JoinJob, moment.job = named := ⟨_, rfl⟩
  rw [job] at old does
  cases named with
  | save saved =>
      cases saved with
      | pairDevice list key verificationKey addr => exact leaves_pairDevice recorded member does old
      | savePeers => exact leaves_savePeers recorded member job
      | connection seen => exact leaves_within recorded member does (by simp)
      | commitJoin joined identity counter =>
          exact leaves_commitJoin recorded member (commit_refused recorded cut counts job old)
      | change request => exact old.elim
      | loginAtStart => exact old.elim
  | joinGroup => exact old.elim
  | cancelJoin => exact leaves_within recorded member does (by simp)
  | endJoin generation => exact leaves_within recorded member does (by simp)

theorem Leaves.mono {handle higher : Nat} (leaves : Leaves handle moment) (le : handle ≤ higher) :
    Leaves higher moment :=
  { leaves with lists := fun list newer => leaves.lists list (Nat.le_trans le newer) }

/-- The list a reset makes, and every later one, are past the handles of before. -/
theorem renewed_handle (recorded : RecordedFree setup jobs moments pool)
    (cut : moments = earlier ++ renew :: later) (renews : renew.op = Op.newPeers) :
    State.trustedPeers renew.after < State.nextList renew.after ∧
      ∀ moment ∈ later, State.trustedPeers renew.after ≤ State.trustedPeers moment.before := by
  obtain ⟨outcome, reply, executed⟩ := recorded.executed (show renew ∈ moments by simp [cut])
  have made := exec_newPeers renews executed
  refine ⟨made.1, fun moment member => ?_⟩
  have grown := (recorded.follows Grows (fun _ made => ⟨Nat.le_refl _, made⟩) (fun _ _ _ => Grows.trans)
    (fun _ _ _ _ _ _ executed => exec_grows executed) cut).1 moment member
  exact (grown made.1).1

def State.Wiped (setup : Setup) (state : State) : Prop :=
  state.keys = {} ∧ (setup.storage = true → state.file = none)

theorem reset_of_task (recorded : RecordedFree setup jobs moments pool) (wiping : wipe ∈ moments)
    (wipes : wipe.op = Op.wipeKeys) (member : moment ∈ moments) (own : moment.task = wipe.task) :
    Op.Resets moment.op := by
  obtain ⟨writer, writer', shown⟩ := shown_moment recorded wiping
  have named := recorded.job_of_task moment member
  rw [own, recorded.job_of_task wipe wiping, (shown.wiped wipes).1] at named
  have does := does_moment recorded member
  rw [← Option.some.inj named] at does
  exact does

theorem wiped_stays (recorded : RecordedFree setup jobs moments pool)
    (cut : moments = earlier ++ count :: (between ++ wipe :: later)) (counts : count.op = Op.bumpResets)
    (wipes : wipe.op = Op.wipeKeys) {handle : Nat}
    (old : ∀ moment ∈ later, JoinJob.Earlier handle (State.resets count.before) moment.job ∨ moment.task = wipe.task) :
    State.Wiped setup pool.state := by
  have wiping : wipe ∈ moments := by simp [cut]
  have cut' : moments = (earlier ++ count :: between) ++ wipe :: later := by simp [cut]
  apply (recorded.carries (State.Wiped setup) cut' ?_ ?_).2
  · obtain ⟨outcome, reply, executed⟩ := recorded.executed wiping
    obtain ⟨writer, writer', shown⟩ := shown_moment recorded wiping
    refine ⟨exec_wipeKeys wipes executed, fun storage => ?_⟩
    rw [show State.file wipe.after = State.file wipe.before from exec_same executed .file (by simp [wipes])]
    exact (shown.wiped wipes).2.2 storage
  · intro moment member wiped
    have inside : moment ∈ moments := by simp [cut, member]
    rcases old moment member with work | own
    · obtain ⟨front, back, rfl⟩ := List.append_of_mem member
      have cut'' : moments = earlier ++ count :: ((between ++ wipe :: front) ++ moment :: back) := by simp [cut]
      have leaves := earlier_leaves recorded cut'' counts work
      refine ⟨leaves.keys.trans wiped.1, fun storage => ?_⟩
      rcases leaves.file with same | ⟨-, opened⟩
      · exact same.trans (wiped.2 storage)
      · rw [wiped.1] at opened
        cases opened
    · obtain ⟨outcome, reply, executed⟩ := recorded.executed inside
      have kept := (reset_of_task recorded wiping wipes inside own).emptied executed
      exact ⟨kept.1 wiped.1, fun storage => kept.2.1 (wiped.2 storage)⟩

theorem renewed_stays (recorded : RecordedFree setup jobs moments pool)
    (cut : moments = earlier ++ count :: (between ++ renew :: later)) (counts : count.op = Op.bumpResets)
    (wiping : wipe ∈ moments) (wipes : wipe.op = Op.wipeKeys) (renews : renew.op = Op.newPeers)
    (old : ∀ moment ∈ later, JoinJob.Earlier (State.trustedPeers renew.after) (State.resets count.before) moment.job ∨
      moment.task = wipe.task) : State.lists pool.state (State.trustedPeers pool.state) = [] := by
  have cut' : moments = (earlier ++ count :: between) ++ renew :: later := by simp [cut]
  obtain ⟨made, past⟩ := renewed_handle recorded cut' renews
  apply (recorded.carries (fun state => State.lists state (State.trustedPeers state) = []) cut' ?_ ?_).2
  · obtain ⟨outcome, reply, executed⟩ := recorded.executed (show renew ∈ moments by simp [cut])
    exact (exec_newPeers renews executed).2
  · intro moment member empty
    have inside : moment ∈ moments := by simp [cut, member]
    rcases old moment member with work | own
    · have newer := past moment member
      obtain ⟨front, back, rfl⟩ := List.append_of_mem member
      have cut'' : moments = earlier ++ count :: ((between ++ renew :: front) ++ moment :: back) := by simp [cut]
      have leaves := earlier_leaves recorded cut'' counts work
      rw [leaves.current, leaves.lists _ newer]
      exact empty
    · obtain ⟨outcome, reply, executed⟩ := recorded.executed inside
      exact ((reset_of_task recorded wiping wipes inside own).emptied executed).2.2 empty

end Record

/-! ## What a reset leaves -/

section Executions

variable {allowed : Op → Outcome → State → Bool} {saved : Saved}

def deletesVault (op : Op) (outcome : Outcome) (_ : State) : Bool :=
  match op with
  | .deleteFile => !outcome.fails
  | _ => true

def keepsVault (op : Op) (outcome : Outcome) (_ : State) : Bool :=
  match op with
  | .deleteFile => outcome.fails
  | _ => true

def deletesAll (op : Op) (outcome : Outcome) (_ : State) : Bool :=
  match op with
  | .deleteFile | .keychainDelete _ => !outcome.fails
  | _ => true

/-- The file can be read, or is seen to be missing. -/
def readsVault (op : Op) (outcome : Outcome) (_ : State) : Bool :=
  match op with
  | .readFile => !outcome.fails
  | _ => true

def May (allowed : Op → Outcome → State → Bool) (op : Op) (fails : Bool) : Prop :=
  ∃ outcome state, allowed op outcome state = true ∧ outcome.fails = fails

theorem ends_deleteVault :
    Ends setup allowed task saved
      (if setup.storage then do return (← await .deleteFile).result storageError else pure (.ok ()))
      fun result next =>
        (∃ e, result = .error e ∧ setup.storage = true ∧ May allowed .deleteFile true ∧ next = saved) ∨
        (result = .ok () ∧ (setup.storage = true → May allowed .deleteFile false ∧ next.file = none)) := by
  split
  · next storage =>
    have deleted : Ends setup allowed task saved (await .deleteFile) fun reply next =>
        (reply = .ok () ∧ May allowed .deleteFile false ∧ next.file = none) ∨
          (reply.isOk = false ∧ May allowed .deleteFile true ∧ next = saved) := by
      apply ends_call
      rintro before outcome reply after rfl possible executed
      have went := stored_fails executed
      rcases (stored_write executed).1 with ⟨rfl, next⟩ | ⟨failed, next⟩
      · exact .inl ⟨rfl, ⟨outcome, before, possible, by simpa [Call.isOk] using went⟩, by rw [next]; rfl⟩
      · exact .inr ⟨failed, ⟨outcome, before, possible, by simpa [failed] using went⟩, next⟩
    apply ends_bind deleted
    rintro reply next (⟨rfl, may, gone⟩ | ⟨failed, may, rfl⟩)
    · exact ends_done (.inr ⟨rfl, fun _ => ⟨may, gone⟩⟩)
    · cases reply with
      | lost => exact ends_done (.inl ⟨_, rfl, storage, may, rfl⟩)
      | failed e => exact ends_done (.inl ⟨_, rfl, storage, may, rfl⟩)
      | ok value => cases failed
  next off => exact ends_done (.inr ⟨rfl, fun storage => absurd storage off⟩)

theorem ends_deleteItem (item : Item) :
    Ends setup allowed task saved (await (.keychainDelete item)) fun reply next =>
      (reply.isOk = true ∧ next = { saved with keychain := Function.update saved.keychain item none }) ∨
        (reply.isOk = false ∧ May allowed (.keychainDelete item) true ∧ next = saved) := by
  apply ends_call
  rintro before outcome reply after rfl possible executed
  have went := stored_fails executed
  rcases (stored_write executed).1 with ⟨rfl, next⟩ | ⟨failed, next⟩
  · exact .inl ⟨rfl, next⟩
  · exact .inr ⟨failed, ⟨outcome, before, possible, by simpa [failed] using went⟩, next⟩

/-- A reset ends with its vault delete, or wipes the keys and says which keychain delete failed. -/
theorem ends_resetDevice :
    Ends setup allowed task saved (resetDevice setup) fun result next =>
      (∃ e, result = .error e ∧ setup.storage = true ∧ May allowed .deleteFile true ∧ next = saved) ∨
      (next.keys = {} ∧ (setup.storage = true → May allowed .deleteFile false ∧ next.file = none) ∧
        ((result = .ok () ∧ (setup.storage = true → ∀ item, next.keychain item = none)) ∨
          ∃ item, result = .error .storageFailed ∧ May allowed (.keychainDelete item) true)) := by
  apply ends_bind (ends_aside (by simp))
  rintro _ next rfl
  apply ends_bind (ends_within cancelJoin_within (by simp))
  rintro _ next rfl
  apply ends_bind (ends_within stopNetwork_within (by simp))
  rintro _ next rfl
  apply ends_bind ends_deleteVault
  rintro result next (⟨e, rfl, storage, may, rfl⟩ | ⟨rfl, gone⟩)
  · exact ends_done (.inl ⟨e, rfl, storage, may, rfl⟩)
  apply ends_bind ends_wipeKeys
  rintro _ next rfl
  apply ends_bind (ends_aside (by simp))
  rintro _ next rfl
  apply ends_bind (ends_aside (by simp))
  rintro _ next rfl
  apply ends_bind (ends_aside (by simp))
  rintro _ next rfl
  split
  · apply ends_bind (ends_deleteItem .salts)
    rintro reply next (⟨went, rfl⟩ | ⟨failed, may, rfl⟩)
    · simp only [went, ↓reduceIte]
      apply ends_bind (ends_deleteItem .dataKey)
      rintro reply next (⟨went, rfl⟩ | ⟨failed, may, rfl⟩)
      · simp only [went, ↓reduceIte]
        refine ends_done (.inr ⟨rfl, gone, .inl ⟨rfl, fun _ item => ?_⟩⟩)
        cases item <;> rfl
      · simp only [failed]
        exact ends_done (.inr ⟨rfl, gone, .inr ⟨.dataKey, rfl, may⟩⟩)
    · simp only [failed]
      exact ends_done (.inr ⟨rfl, gone, .inr ⟨.salts, rfl, may⟩⟩)
  next off => exact ends_done (.inr ⟨rfl, gone, .inl ⟨rfl, fun storage => absurd storage off⟩⟩)

/-- A start that finds no file leaves a fresh device, one that cannot tell a locked one without keys. -/
theorem ends_start_empty (empty : saved.keys = {}) (gone : setup.storage = true → saved.file = none)
    (items : setup.storage = true → saved.keychain .dataKey = none) :
    Ends setup allowed task saved (start setup) fun _ next =>
      next.keys = {} ∨ (next.keys = { locked := true } ∧ May allowed .readFile true) := by
  unfold start
  split
  · exact ends_done (.inl empty)
  next on =>
  have storage : setup.storage = true := by simpa using on
  have read : Ends setup allowed task saved (await .readFile) fun reply next =>
      next = saved ∧ (reply = .ok none ∨ May allowed .readFile true) := by
    apply ends_call
    rintro before outcome reply after rfl possible executed
    cases executed
    refine ⟨rfl, ?_⟩
    have none : before.file = none := gone storage
    cases outcome with
    | lost => exact .inr ⟨_, _, possible, rfl⟩
    | failed e => exact .inr ⟨_, _, possible, rfl⟩
    | done => exact .inl (by rw [none]; rfl)
    | drawn bytes => exact .inl (by rw [none]; rfl)
    | «at» instant => exact .inl (by rw [none]; rfl)
  apply ends_bind read
  rintro reply next ⟨rfl, answer⟩
  split
  · exact ends_done (.inl empty)
  next unread =>
  have may : May allowed .readFile true := by
    rcases answer with none | may
    · exact absurd none unread
    · exact may
  apply ends_bind (ends_writeKeys _)
  rintro _ next rfl
  apply ends_bind (ends_keychainGet .dataKey)
  rintro reply next ⟨rfl, answered⟩
  split
  · next bytes =>
    have found := answered _ rfl
    rw [show next.keychain .dataKey = none from items storage] at found
    cases found
  · exact ends_done (.inr ⟨by rw [empty], may⟩)

def Alone (before after : State) : Prop :=
  Beside before after ∧ after.trustedPeers = before.trustedPeers ∧ after.lists = before.lists

theorem ensures_lists (holds : Nat → (Nat → List TrustedPeer) → Prop) (fields : List Field) {program : Task A}
    (within : program.All (Op.Within fields)) (apart : .peers ∉ fields) :
    Ensures ((machine setup).restrict allowed) task Alone
      (fun state => holds (State.trustedPeers state) (State.lists state)) program
      fun _ state => holds (State.trustedPeers state) (State.lists state) := by
  apply ensures_all within
  · intro state before drifted held
    rw [drifted.2.1, drifted.2.2]
    exact held
  · intro op footprint before outcome reply after held executed
    obtain ⟨current, lists, -⟩ :=
      exec_same (Machine.exec_of_restrict executed).2 .peers fun member => apart (footprint member)
    rw [current, lists]
    exact held

theorem lists_deleteVault (holds : Nat → (Nat → List TrustedPeer) → Prop) :
    Ensures ((machine setup).restrict allowed) task Alone
      (fun state => holds (State.trustedPeers state) (State.lists state))
      (if setup.storage then do return (← await .deleteFile).result storageError else pure (.ok ()))
      fun result state => holds (State.trustedPeers state) (State.lists state) ∧
        (setup.storage = true → May allowed .deleteFile !result.isOk) ∧ (result.isOk = true ∨ setup.storage = true) := by
  split
  · next storage =>
    have deleted : Ensures ((machine setup).restrict allowed) task Alone
        (fun state => holds (State.trustedPeers state) (State.lists state)) (await .deleteFile)
        fun reply state => holds (State.trustedPeers state) (State.lists state) ∧ May allowed .deleteFile !reply.isOk := by
      apply ensures_call
      · intro state before drifted held
        rw [drifted.2.1, drifted.2.2]
        exact held
      · intro before outcome reply after held executed
        obtain ⟨possible, executed⟩ := Machine.exec_of_restrict executed
        obtain ⟨current, lists, -⟩ := exec_same executed .peers (by simp)
        rw [current, lists]
        exact ⟨held, outcome, before, possible, by rw [stored_fails executed, Bool.not_not]⟩
    refine ensures_bind deleted fun reply => ensures_done ?_
    intro state ⟨held, may⟩
    refine ⟨held, fun _ => ?_, .inr storage⟩
    cases reply <;> exact may
  next off => exact ensures_done fun state held => ⟨held, fun storage => absurd storage off, .inl rfl⟩

theorem lists_newPeers_empty (fact : Prop) :
    Ensures ((machine setup).restrict allowed) task Alone (fun _ => fact) (await .newPeers)
      fun _ state => fact ∧ State.lists state (State.trustedPeers state) = [] := by
  apply ensures_call
  · exact fun _ _ _ held => held
  · intro before outcome reply after held executed
    exact ⟨held, (exec_newPeers rfl (Machine.exec_of_restrict executed).2).2⟩

theorem lists_reset (handle : Nat) (lists : Nat → List TrustedPeer) :
    Ensures ((machine setup).restrict allowed) task Alone
      (fun state => State.trustedPeers state = handle ∧ State.lists state = lists) (resetDevice setup)
      fun _ state => (May allowed .deleteFile true ∧ State.trustedPeers state = handle ∧ State.lists state = lists) ∨
        ((setup.storage = true → May allowed .deleteFile false) ∧
          State.lists state (State.trustedPeers state) = []) := by
  let same (h : Nat) (l : Nat → List TrustedPeer) : Prop := h = handle ∧ l = lists
  let deleted : Prop := setup.storage = true → May allowed .deleteFile false
  let empty (h : Nat) (l : Nat → List TrustedPeer) : Prop := deleted ∧ l h = []
  refine ensures_bind (ensures_lists same _ (within_await (List.Subset.refl _)) (by simp)) fun _ => ?_
  refine ensures_bind (ensures_lists same _ cancelJoin_within (by simp)) fun _ => ?_
  refine ensures_bind (ensures_lists same _ stopNetwork_within (by simp)) fun _ => ?_
  refine ensures_bind (lists_deleteVault same) fun result => ?_
  cases result with
  | error e =>
      apply ensures_done
      intro state ⟨held, may, storage⟩
      exact .inl ⟨may (storage.resolve_left (by simp [Except.isOk, Except.toBool])), held⟩
  | ok _ =>
      refine ensures_bind (ensures_pre (ensures_lists (fun _ _ => deleted) _ (within_await (List.Subset.refl _))
        (by simp)) fun _ held => held.2.1) fun _ => ?_
      refine ensures_bind (lists_newPeers_empty deleted) fun _ => ?_
      refine ensures_bind (ensures_lists empty _ (within_await (List.Subset.refl _)) (by simp)) fun _ => ?_
      refine ensures_bind (ensures_lists empty _ (within_await (List.Subset.refl _)) (by simp)) fun _ => ?_
      refine ensures_mono (ensures_lists empty [.keychain] ?_ (by simp)) fun _ _ held => .inr held
      refine all_ite ?_ trivial
      refine Proc.all_bind (within_await (by simp)) fun salts => all_ite ?_ trivial
      exact Proc.all_bind (within_await (by simp)) fun key => all_ite trivial trivial

theorem reset_succeeds {before after : State}
    (execution : Executes (machine setup) task Beside (resetDevice setup) before (.ok ()) after) :
    State.Wiped setup after ∧ (setup.storage = true → ∀ item, after.keychain item = none) := by
  rcases ends_resetDevice.executes execution with ⟨e, failed, -⟩ | ⟨keys, gone, ⟨-, items⟩ | ⟨item, failed, -⟩⟩
  · cases failed
  · exact ⟨⟨keys, fun storage => (gone storage).2⟩, items⟩
  · cases failed

theorem start_after_reset {state last : State} (gone : setup.storage = true → state.file = none)
    (items : setup.storage = true → ∀ item, state.keychain item = none)
    (started : Executes ((machine setup).restrict allowed) task Beside (start setup) (new state.file state.keychain) ()
      last) : last.keys = {} ∨ (last.keys = { locked := true } ∧ May allowed .readFile true) := by
  apply ends_start_empty _ _ _ (new state.file state.keychain) () last rfl started
  · rfl
  · exact gone
  · exact fun storage => items storage .dataKey

theorem Alone.beside {before after : State} (alone : Alone before after) : Beside before after := alone.1

theorem reset_wipes {before after : State} {result : Except DaemonError Unit}
    (execution : Executes ((machine setup).restrict deletesVault) task Alone (resetDevice setup) before result after) :
    State.Wiped setup after ∧ after.lists after.trustedPeers = [] := by
  have goes : ¬ May deletesVault .deleteFile true := by
    intro ⟨outcome, state, possible, fails⟩
    simp [deletesVault, fails] at possible
  constructor
  · have ends := ends_resetDevice before result after rfl (execution.drifts fun _ _ => Alone.beside)
    rcases ends with ⟨e, -, -, may, -⟩ | ⟨keys, gone, -⟩
    · exact absurd may goes
    · exact ⟨keys, fun storage => (gone storage).2⟩
  · rcases lists_reset before.trustedPeers before.lists before result after ⟨rfl, rfl⟩ execution with
      ⟨may, -⟩ | ⟨-, empty⟩
    · exact absurd may goes
    · exact empty

theorem reset_removes {before after : State} {result : Except DaemonError Unit}
    (execution : Executes ((machine setup).restrict deletesAll) task Beside (resetDevice setup) before result after) :
    result = .ok () ∧ State.Wiped setup after ∧ (setup.storage = true → ∀ item, after.keychain item = none) := by
  have goes : ∀ op, op = .deleteFile ∨ (∃ item, op = .keychainDelete item) → ¬ May deletesAll op true := by
    rintro op (rfl | ⟨item, rfl⟩) ⟨outcome, state, possible, fails⟩
    · simp [deletesAll, fails] at possible
    · simp [deletesAll, fails] at possible
  rcases ends_resetDevice before result after rfl execution with
    ⟨e, -, -, may, -⟩ | ⟨keys, gone, ⟨ok, items⟩ | ⟨item, -, may⟩⟩
  · exact absurd may (goes _ (.inl rfl))
  · exact ⟨ok, ⟨keys, fun storage => (gone storage).2⟩, items⟩
  · exact absurd may (goes _ (.inr ⟨item, rfl⟩))

theorem reset_keeps (storage : setup.storage = true) {before after : State} {result : Except DaemonError Unit}
    (execution : Executes ((machine setup).restrict keepsVault) task Alone (resetDevice setup) before result after) :
    (∃ e, result = .error e) ∧ after.keys = before.keys ∧ after.keychain = before.keychain ∧
      after.trustedPeers = before.trustedPeers ∧ after.lists = before.lists := by
  have fails : ¬ May keepsVault .deleteFile false := by
    intro ⟨outcome, state, possible, goes⟩
    simp [keepsVault, goes] at possible
  have ends := ends_resetDevice before result after rfl (execution.drifts fun _ _ => Alone.beside)
  have lists := lists_reset before.trustedPeers before.lists before result after ⟨rfl, rfl⟩ execution
  rcases ends with ⟨e, failed, -, -, same⟩ | ⟨-, gone, -⟩
  · have keys : after.keys = before.keys := congrArg Saved.keys same
    have keychain : after.keychain = before.keychain := congrArg Saved.keychain same
    rcases lists with ⟨-, current, kept⟩ | ⟨goes, -⟩
    · exact ⟨⟨e, failed⟩, keys, keychain, current, kept⟩
    · exact absurd (goes storage) fails
  · exact absurd (gone storage).1 fails

end Executions

theorem reset_in_run {jobs : List JoinJob} {moments : List (Moment (joinWorkload setup))} {pool : Pool (machine setup)}
    (recorded : RecordedFree setup jobs moments pool)
    {first second third later : List (Moment (joinWorkload setup))} {count wipe renew : Moment (joinWorkload setup)}
    (cut : moments = first ++ count :: (second ++ wipe :: (third ++ renew :: later)))
    (counts : count.op = Op.bumpResets) (wipes : wipe.op = Op.wipeKeys) (renews : renew.op = Op.newPeers) :
    (∀ moment ∈ later, JoinJob.Earlier (State.trustedPeers renew.after) (State.resets count.before) moment.job →
      Leaves (State.trustedPeers moment.before) moment) ∧
    ((∀ moment ∈ third ++ renew :: later,
      JoinJob.Earlier (State.trustedPeers renew.after) (State.resets count.before) moment.job ∨
        moment.task = wipe.task) →
      State.Wiped setup pool.state ∧ State.lists pool.state (State.trustedPeers pool.state) = []) := by
  have cut' : moments = first ++ count :: ((second ++ wipe :: third) ++ renew :: later) := by simp [cut]
  have cut'' : moments = (first ++ count :: (second ++ wipe :: third)) ++ renew :: later := by simp [cut]
  have wiping : wipe ∈ moments := by simp [cut]
  obtain ⟨-, past⟩ := renewed_handle recorded cut'' renews
  refine ⟨fun moment member old => ?_, fun old => ⟨wiped_stays recorded cut counts wipes old, ?_⟩⟩
  · have newer := past moment member
    obtain ⟨front, back, rfl⟩ := List.append_of_mem member
    have here : moments = first ++ count :: ((second ++ wipe :: third ++ renew :: front) ++ moment :: back) := by
      simp [cut]
    exact (earlier_leaves recorded here counts old).mono newer
  · apply renewed_stays recorded cut' counts wiping wipes renews
    exact fun moment member => old moment (by simp [member])

def phone : TrustedPeer := ⟨phoneKey, .replicate mldsa87VkLen 0, phoneAddr.toString⟩

def phoneShakes : JoinJob := .save (.pairDevice 0 phoneKey (.replicate mldsa87VkLen 0) phoneAddr)

/-- After a reset has wiped memory nothing of before comes back, however it interleaves: neither
keys nor peers nor a file. A reset that succeeds leaves no file and no item, and the next start finds
a fresh device; a failed keychain delete leaves the rest fresh and another reset removes the items; a
failed vault delete leaves everything. -/
theorem reset_is_final (task : Nat) :
    (∀ jobs moments pool, RecordedFree setup jobs moments pool → ∀ first count second wipe third renew later,
      moments = first ++ count :: (second ++ wipe :: (third ++ renew :: later)) →
      count.op = Op.bumpResets → wipe.op = Op.wipeKeys → renew.op = Op.newPeers →
      (∀ moment ∈ later, JoinJob.Earlier (State.trustedPeers renew.after) (State.resets count.before) moment.job →
        Leaves (State.trustedPeers moment.before) moment) ∧
      ((∀ moment ∈ third ++ renew :: later,
        JoinJob.Earlier (State.trustedPeers renew.after) (State.resets count.before) moment.job ∨
          moment.task = wipe.task) →
        State.Wiped setup pool.state ∧ State.lists pool.state (State.trustedPeers pool.state) = [])) ∧
    (∀ before after : State, Executes (machine setup) task Beside (resetDevice setup) before (.ok ()) after →
      State.Wiped setup after ∧ (setup.storage = true → ∀ item, after.keychain item = none) ∧
      (∀ last : State, Executes ((machine setup).restrict readsVault) task Beside (start setup)
        (new after.file after.keychain) () last → last.keys = {}) ∧
      ∀ last : State, Executes (machine setup) task Beside (start setup) (new after.file after.keychain) () last →
        last.keys = {} ∨ last.keys = { locked := true }) ∧
    (∀ before after : State, ∀ result,
      Executes ((machine setup).restrict deletesVault) task Alone (resetDevice setup) before result after →
      State.Wiped setup after ∧ after.lists after.trustedPeers = [] ∧
      ∀ last : State, ∀ again, Executes ((machine setup).restrict deletesAll) task Beside (resetDevice setup) after again last →
        again = .ok () ∧ State.Wiped setup last ∧ (setup.storage = true → ∀ item, last.keychain item = none)) ∧
    (setup.storage = true → ∀ before after : State, ∀ result,
      Executes ((machine setup).restrict keepsVault) task Alone (resetDevice setup) before result after →
      (∃ e, result = .error e) ∧ after.keys = before.keys ∧ after.keychain = before.keychain ∧
        after.trustedPeers = before.trustedPeers ∧ after.lists = before.lists) := by
  refine ⟨?_, ?_, ?_, ?_⟩
  · intro jobs moments pool recorded first count second wipe third renew later cut counts wipes renews
    exact reset_in_run recorded cut counts wipes renews
  · intro before after execution
    obtain ⟨wiped, items⟩ := reset_succeeds execution
    refine ⟨wiped, items, fun last started => ?_, fun last started => ?_⟩
    · rcases start_after_reset wiped.2 items started with fresh | ⟨-, outcome, state, possible, fails⟩
      · exact fresh
      · simp [readsVault, fails] at possible
    · rcases start_after_reset wiped.2 items started.restrict with fresh | ⟨locked, -⟩
      · exact .inl fresh
      · exact .inr locked
  · intro before after result execution
    obtain ⟨wiped, empty⟩ := reset_wipes execution
    exact ⟨wiped, empty, fun last again more => reset_removes more⟩
  · intro storage before after result execution
    exact reset_keeps storage execution

/-- A handshake that reads the old list before a reset and saves its peer after it. -/
theorem reset_is_final_late :
    ∃ jobs moments pool, RecordedFree plainSetup jobs moments pool ∧
      (∃ early late, moments = early ++ [late] ∧ late.op = Op.savePeer 0 phone) ∧
      State.Wiped plainSetup pool.state ∧ State.lists pool.state (State.trustedPeers pool.state) = [] := by
  let W := joinWorkload plainSetup
  let M := machine plainSetup
  let held : State := { unpaired with turn := some 1 }
  let counted : State := { held with resets := 1 }
  let deleted : State := { counted with file := none }
  let wiped : State := { deleted with keys := {} }
  let renewed : State := { wiped.setList 1 [] with trustedPeers := 1, nextList := 2 }
  have begun : RecordedFree plainSetup [] [] ⟨unpaired, []⟩ := .init rfl
  have looked := Recorded.start begun (show W.ready phoneShakes unpaired from rfl) rfl rfl
    (show M.exec 0 (.readPeers 0) .done unpaired = some ([], unpaired) from rfl)
  have taken := Recorded.start looked (show W.ready (.save (.change .resetDevice)) unpaired from rfl) rfl rfl
    (show M.exec 1 .acquire .done unpaired = some ((), held) from rfl)
  have counts := Recorded.resume taken (show _[1]? = _ from rfl) rfl rfl
    (show M.exec 1 .bumpResets .done held = some ((), counted) from rfl)
  have noJoin := Recorded.resume counts (show _[1]? = _ from rfl) rfl rfl
    (show M.exec 1 .takeJoin .done counted = some (none, counted) from rfl)
  have noNetwork := Recorded.resume noJoin (show _[1]? = _ from rfl) rfl rfl
    (show M.exec 1 .takeNetwork .done counted = some (false, counted) from rfl)
  have deletes := Recorded.resume noNetwork (show _[1]? = _ from rfl) rfl rfl
    (show M.exec 1 .deleteFile .done counted = some (.ok (), deleted) from rfl)
  have wipes := Recorded.resume deletes (show _[1]? = _ from rfl) rfl rfl
    (show M.exec 1 .wipeKeys .done deleted = some ((), wiped) from rfl)
  have renews := Recorded.resume wipes (show _[1]? = _ from rfl) rfl rfl
    (show M.exec 1 .newPeers .done wiped = some ((), renewed) from rfl)
  have late := Recorded.resume renews (show _[0]? = _ from rfl) rfl rfl
    (show M.exec 0 (.savePeer 0 phone) .done renewed = some (.ok (), _) from rfl)
  refine ⟨_, _, _, late, ⟨_, _, rfl, rfl⟩, ?_⟩
  apply ((reset_is_final 0).1 _ _ _ late [_, _] _ [_, _, _] _ [] _ [_] rfl rfl rfl rfl).2
  intro moment member
  simp only [List.nil_append, List.mem_cons, List.not_mem_nil, or_false] at member
  rcases member with rfl | rfl
  · exact .inr rfl
  · exact .inl (show (0 : Nat) < 1 by decide)

end Daemon

end CesaConn
