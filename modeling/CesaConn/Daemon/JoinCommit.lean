import CesaConn.Daemon.Inner
import CesaConn.Daemon.Restart
import CesaConn.Program.Record

/-! When a join commits.

A join runs outside the change slot and its commit is a task of its own. The
commit takes the slot, finds out that no reset came since the join began and
that the device is still fresh, and writes before it gives the slot back. The
auxiliary state is the commit that wrote since the last wipe, with the keys it
found.
-/

set_option autoImplicit false

namespace CesaConn

open Format Program

namespace Daemon

open Vault

/-! ## The workload -/

/-- Everything that saves, and what starts and ends joins. -/
inductive JoinJob where
  | save (job : SaveJob)
  | joinGroup
  | cancelJoin
  /-- The end of a join's own task: it failed, timed out, or was cancelled. -/
  | endJoin (generation : Nat)

def JoinJob.program (setup : Setup) : JoinJob → Task Unit
  | .save job => job.program setup
  | .joinGroup => do let _ ← Daemon.joinGroup setup
  | .cancelJoin => Daemon.cancelJoin
  | .endJoin generation => Daemon.endJoin generation

/-- A handshake has a list that exists. -/
def JoinJob.ready : JoinJob → State → Bool
  | .save (.pairDevice list _ _ _), state => list < state.nextList
  | _, _ => true

def joinWorkload (setup : Setup) : Workload (machine setup) where
  Job := JoinJob
  program := JoinJob.program setup
  ready := JoinJob.ready
  allows _ _ _ := true

/-! ## What a moment shows -/

def Joined.slots (joined : Joined) (keys : KeySlots) : KeySlots :=
  { keys with aKey := some joined.aKey, aSalt := some joined.aSalt, dKey := some joined.dKey, dSalt := some joined.dSalt }

def Joined.Has (joined : Joined) (keys : KeySlots) : Prop :=
  keys.aKey = some joined.aKey ∧ keys.aSalt = some joined.aSalt ∧ keys.dKey = some joined.dKey ∧
    keys.dSalt = some joined.dSalt

/-- Writes the keys, a trusted list, the file or the keychain. -/
@[simp] def Op.Stores (op : Op) : Prop :=
  .keys ∈ op.writes ∨ .peers ∈ op.writes ∨ .file ∈ op.writes ∨ .keychain ∈ op.writes

variable {setup : Setup} {task : Nat} {A B : Type}

/-- The commit that wrote since the last wipe, and the keys it found. -/
abbrev Writer := Option (Nat × KeySlots)

/-- What a writing commit finds: the slot is its own, no reset came, and the keys are fresh or
what it made of fresh keys itself. -/
structure Commit (joined : Joined) (resets : Nat) (moment : Moment (joinWorkload setup)) (writer writer' : Writer) :
    Prop where
  turn : State.turn moment.before = some moment.task
  current : State.resets moment.before = resets
  unlocked : (State.keys moment.before).locked = false
  closed : (State.keys moment.before).vault = none
  found : ((State.keys moment.before).fresh = true ∧ writer = none ∧
      writer' = some (moment.task, State.keys moment.before)) ∨
    ∃ keys, keys.fresh = true ∧ writer = some (moment.task, keys) ∧ writer' = writer ∧
      State.keys moment.before = joined.slots keys
  slots : joined.Has (State.keys moment.after)

/-- What a moment shows of the commits and the saves. -/
structure Shown (setup : Setup) (moment : Moment (joinWorkload setup)) (writer writer' : Writer) : Prop where
  commits : ∀ joined identity resets, moment.job = JoinJob.save (.commitJoin joined identity resets) →
    Op.Stores moment.op → Commit joined resets moment writer writer'
  wiped : moment.op = Op.wipeKeys → moment.job = JoinJob.save (.change .resetDevice) ∧ writer' = none ∧
    (setup.storage = true → State.file moment.before = none)
  others : (∀ joined identity resets, moment.job = JoinJob.save (.commitJoin joined identity resets) →
    ¬ Op.Stores moment.op) → moment.op ≠ Op.wipeKeys → writer' = writer
  saves : moment.job = JoinJob.save .savePeers → Field.file ∈ Op.writes moment.op →
    (State.keys moment.before).vault.isSome

def JoinJob.Plain : JoinJob → Prop
  | .save (.commitJoin _ _ _) | .save .savePeers => False
  | _ => True

theorem JoinJob.Plain.ne {job : JoinJob} (plain : job.Plain) :
    (∀ joined identity resets, job ≠ .save (.commitJoin joined identity resets)) ∧ job ≠ .save .savePeers := by
  constructor
  · rintro joined identity resets rfl
    exact plain
  · rintro rfl
    exact plain

theorem shown_plain {job : JoinJob} (plain : job.Plain) {op : Op} {before after : State} {writer : Writer}
    (kept : op ≠ .wipeKeys) : Shown setup ⟨task, job, op, before, after⟩ writer writer where
  commits joined identity resets same := absurd same (plain.ne.1 joined identity resets)
  wiped same := absurd same kept
  others _ _ := rfl
  saves same := absurd same plain.ne.2

theorem shown_quiet {job : JoinJob} {op : Op} {before after : State} {writer : Writer} (kept : ¬ op.Stores) :
    Shown setup ⟨task, job, op, before, after⟩ writer writer where
  commits _ _ _ _ stores := absurd stores kept
  wiped same := absurd (by simp [show op = Op.wipeKeys from same]) kept
  others _ _ := rfl
  saves _ file := absurd (.inr (.inr (.inl file))) kept

/-! ## The discipline -/

/-- Only the holder of the slot writes the keys and the file and counts resets. -/
def commits (setup : Setup) : Discipline (machine setup) Writer where
  inv state writer := writer.isSome → (State.keys state).aKey.isSome
  keep task before writer after writer' :=
    (State.turn after = some task ↔ State.turn before = some task) ∧
      (State.turn before = some task →
        State.keys after = State.keys before ∧ State.resets after = State.resets before ∧
          State.file after = State.file before ∧ writer' = writer)
  idle task state _ := State.turn state ≠ some task
  observe _ _ _ _ _ := True
  keep_refl _ _ _ := ⟨Iff.rfl, fun _ => ⟨rfl, rfl, rfl, rfl⟩⟩
  keep_trans _ _ _ _ _ _ _ first second := by
    refine ⟨second.1.trans first.1, fun held => ?_⟩
    obtain ⟨keys, resets, file, same⟩ := first.2 held
    obtain ⟨keys', resets', file', same'⟩ := second.2 (first.1.mpr held)
    exact ⟨keys'.trans keys, resets'.trans resets, file'.trans file, same'.trans same⟩
  idle_keep _ _ _ _ _ kept idle held := idle (kept.1.mp held)

abbrev Commits (setup : Setup) (task : Nat) (job : JoinJob) (pre : State → Writer → Prop) (program : Task A)
    (post : A → State → Writer → Prop) : Prop :=
  ((commits setup).forJob (Shown setup) task job).Triple (joinWorkload setup).regime task pre program post

/-- The task has the slot, and this holds of what the slot protects. -/
def Held (task : Nat) (P : KeySlots → Nat → Option Bytes → Writer → Prop) (state : State) (writer : Writer) : Prop :=
  state.turn = some task ∧ P state.keys state.resets state.file writer

abbrev Elsewhere (task : Nat) (state : State) (_ : Writer) : Prop := state.turn ≠ some task

variable {job : JoinJob} {P : KeySlots → Nat → Option Bytes → Writer → Prop}

theorem stable_holding : ((commits setup).forJob (Shown setup) task job).Stable task (Held task P) := by
  rintro before writer after writer' ⟨same, protects⟩ ⟨held, holds⟩
  obtain ⟨keys, resets, file, kept⟩ := protects held
  exact ⟨same.mpr held, by rw [keys, resets, file, kept]; exact holds⟩

theorem stable_elsewhere : ((commits setup).forJob (Shown setup) task job).Stable task (Elsewhere task) :=
  fun _ _ _ _ kept idle held => idle (kept.1.mp held)

theorem held_performs {op : Op} {post : Reply op → KeySlots → Nat → Option Bytes → Writer → Prop} (inside : .turn ∉ op.writes)
    (effect : ∀ before writer outcome reply after,
      (machine setup).exec task op outcome before = some (reply, after) → State.turn before = some task →
      P before.keys before.resets before.file writer → (writer.isSome → before.keys.aKey.isSome) →
      ∃ writer', (writer'.isSome → after.keys.aKey.isSome) ∧
        Shown setup ⟨task, job, op, before, after⟩ writer writer' ∧
        post reply after.keys after.resets after.file writer') :
    ((commits setup).forJob (Shown setup) task job).Performs (joinWorkload setup).regime task (Held task P) op
      fun reply => Held task (post reply) := by
  intro before writer holder invariant _ outcome reply after executed
  obtain ⟨held, holds⟩ := holder
  have turn : after.turn = before.turn := exec_same executed .turn inside
  obtain ⟨writer', invariant', shown, later⟩ := effect before writer outcome reply after executed held holds invariant
  refine ⟨writer', invariant', shown, ?_, turn.trans held, later⟩
  intro other different
  have foreign : before.turn ≠ some other := by
    rw [held]
    exact fun own => different (Option.some.inj own).symm
  refine ⟨?_, fun own => absurd own foreign⟩
  show after.turn = some other ↔ before.turn = some other
  rw [turn]

theorem held_call {op : Op} {post : Reply op → KeySlots → Nat → Option Bytes → Writer → Prop} (inside : .turn ∉ op.writes)
    (effect : ∀ before writer outcome reply after,
      (machine setup).exec task op outcome before = some (reply, after) → State.turn before = some task →
      P before.keys before.resets before.file writer → (writer.isSome → before.keys.aKey.isSome) →
      ∃ writer', (writer'.isSome → after.keys.aKey.isSome) ∧
        Shown setup ⟨task, job, op, before, after⟩ writer writer' ∧
        post reply after.keys after.resets after.file writer') :
    Commits setup task job (Held task P) (await op) fun reply => Held task (post reply) :=
  Discipline.Triple.call stable_holding (held_performs inside effect)

@[simp] def Op.Outer (op : Op) : Prop := .keys ∉ op.writes ∧ .resets ∉ op.writes ∧ .turn ∉ op.writes

theorem held_outer {program : Task A} {Q : Op → Prop} (within : program.All Q) (outer : ∀ op, Q op → op.Outer)
    (any : ∀ keys resets file file' writer, P keys resets file writer → P keys resets file' writer)
    (shown : ∀ op before after writer, Q op → State.turn before = some task →
      P before.keys before.resets before.file writer → State.keys after = before.keys →
      Shown setup ⟨task, job, op, before, after⟩ writer writer) :
    Commits setup task job (Held task P) program fun _ => Held task P := by
  apply Discipline.Triple.all within stable_holding
  intro op member
  apply held_performs (outer op member).2.2
  intro before writer outcome reply after executed held holds invariant
  have keys : after.keys = before.keys := exec_same executed .keys (outer op member).1
  have resets : after.resets = before.resets := exec_same executed .resets (outer op member).2.1
  refine ⟨writer, by rwa [keys], shown op before after writer member held holds keys, ?_⟩
  rw [keys, resets]
  exact any _ _ _ _ _ holds

theorem outer_of_within {fields : List Field} {op : Op} (within : op.Within fields)
    (apart : .keys ∉ fields ∧ .turn ∉ fields ∧ .resets ∉ fields) : op.Outer := by
  refine ⟨?_, ?_, ?_⟩
  · exact fun member => apart.1 (within member)
  · exact fun member => apart.2.2 (within member)
  · exact fun member => apart.2.1 (within member)

theorem held_readKeys :
    Commits setup task job (Held task P) (await .readKeys) fun reply =>
      Held task fun keys resets file writer => reply = keys ∧ P keys resets file writer := by
  apply held_call (by simp)
  intro before writer outcome reply after executed held holds invariant
  cases executed
  exact ⟨writer, invariant, shown_quiet (by simp), rfl, holds⟩

theorem held_readResets :
    Commits setup task job (Held task P) (await .readResets) fun reply =>
      Held task fun keys resets file writer => reply = resets ∧ P keys resets file writer := by
  apply held_call (by simp)
  intro before writer outcome reply after executed held holds invariant
  cases executed
  exact ⟨writer, invariant, shown_quiet (by simp), rfl, holds⟩

theorem elsewhere_acquire :
    Commits setup task job (Elsewhere task) (await .acquire) fun _ => Held task fun _ _ _ _ => True := by
  apply Discipline.Triple.call stable_elsewhere
  rintro before writer - invariant _ outcome reply after executed
  obtain ⟨free, rfl⟩ := acquire_cases executed
  refine ⟨writer, invariant, shown_quiet (by simp), ?_, rfl, trivial⟩
  intro other different
  refine ⟨?_, fun own => ?_⟩
  · simp [show before.turn = none from free, Ne.symm different]
  · exact ⟨rfl, rfl, rfl, rfl⟩

theorem held_release : Commits setup task job (Held task P) (await .release) fun _ => Elsewhere task := by
  apply Discipline.Triple.call stable_holding
  rintro before writer ⟨held, -⟩ invariant _ outcome reply after executed
  obtain ⟨-, rfl⟩ := release_cases executed
  refine ⟨writer, invariant, shown_quiet (by simp), ?_, by simp [Elsewhere]⟩
  intro other different
  refine ⟨?_, fun own => ⟨rfl, rfl, rfl, rfl⟩⟩
  simp [show before.turn = some task from held, Ne.symm different]

/-! ## Every job -/

abbrev Slot (task : Nat) : State → Writer → Prop := Held task fun _ _ _ _ => True

theorem Op.Inner.turn {op : Op} (inner : op.Inner) : .turn ∉ op.writes := by
  cases op
  case acquire | release => exact inner.elim
  all_goals simp

theorem Op.Inner.kept {op : Op} (inner : op.Inner) : op ≠ .wipeKeys := by
  rintro rfl
  exact inner

theorem Op.Inner.aKey {op : Op} (inner : op.Inner) {outcome : Outcome} {reply : Reply op} {before after : State}
    (executed : (machine setup).exec task op outcome before = some (reply, after))
    (has : before.keys.aKey.isSome) : after.keys.aKey.isSome := by
  by_cases writes : .keys ∈ op.writes
  · cases op
    case writeKeys change =>
      cases executed
      exact inner before.keys has
    case saltFor kind fresh =>
      simp only [machine, exec] at executed
      repeat' split at executed
      all_goals cases executed
      all_goals cases kind
      all_goals exact has
    case wipeKeys => exact inner.elim
    all_goals simp at writes
  · rw [show after.keys = before.keys from exec_same executed .keys writes]
    exact has

theorem slot_inner (plain : job.Plain) {program : Task A} (inner : program.All Op.Inner) :
    Commits setup task job (Slot task) program fun _ => Slot task := by
  apply Discipline.Triple.all inner stable_holding
  intro op inside
  apply held_performs inside.turn
  intro before writer outcome reply after executed _ _ invariant
  exact ⟨writer, fun some => inside.aKey executed (invariant some), shown_plain plain inside.kept, trivial⟩

/-- The file is deleted first; a failure ends the reset. -/
theorem slot_deleteFile :
    Commits setup task (.save (.change .resetDevice)) (Slot task)
      (if setup.storage then do return (← await .deleteFile).result storageError else pure (.ok ()))
      fun result => Held task fun _ _ file _ => result = .ok () → setup.storage = true → file = none := by
  have plain : JoinJob.Plain (.save (.change .resetDevice)) := trivial
  split
  · have deleted : Commits setup task (.save (.change .resetDevice)) (Slot task) (await .deleteFile)
        fun reply => Held task fun _ _ file _ => reply.result storageError = .ok () → file = none := by
      apply held_call (by simp)
      intro before writer outcome reply after executed _ _ invariant
      have keys : after.keys = before.keys := exec_same executed .keys (by simp)
      refine ⟨writer, by rwa [keys], shown_plain plain (by simp), fun went => ?_⟩
      rcases Outcome.write_eq (Option.some.inj executed) with ⟨-, gone⟩ | ⟨failed, -⟩
      · exact congrArg State.file gone
      · cases reply
        · cases went
        · cases went
        · cases failed
    exact deleted.bind fun reply => Discipline.Triple.done fun _ _ held => ⟨held.1, fun went _ => held.2 went⟩
  next off => exact Discipline.Triple.done fun _ _ held => ⟨held.1, fun _ on => absurd on off⟩

/-- A reset wipes the keys once the file is gone. -/
theorem slot_wipeKeys :
    Commits setup task (.save (.change .resetDevice))
      (Held task fun _ _ file _ => setup.storage = true → file = none) (await .wipeKeys) fun _ => Slot task := by
  have plain : JoinJob.Plain (.save (.change .resetDevice)) := trivial
  apply held_call (by simp)
  intro before writer outcome reply after executed _ gone _
  cases executed
  refine ⟨none, by simp, ?_, trivial⟩
  exact {
    commits := fun joined identity resets same => absurd same (plain.ne.1 joined identity resets)
    wiped := fun _ => ⟨rfl, rfl, gone⟩
    others := fun _ kept => absurd rfl kept
    saves := fun same => absurd same plain.ne.2 }

theorem slot_bumpResets (plain : job.Plain) :
    Commits setup task job (Slot task) (await .bumpResets) fun _ => Slot task := by
  apply held_call (by simp)
  intro before writer outcome reply after executed _ _ invariant
  cases executed
  exact ⟨writer, invariant, shown_plain plain (by simp), trivial⟩

theorem commits_resetDevice :
    Commits setup task (.save (.change .resetDevice)) (Slot task) (resetDevice setup) fun _ => Slot task := by
  have plain : JoinJob.Plain (.save (.change .resetDevice)) := trivial
  apply (slot_bumpResets plain).bind fun _ => ?_
  apply (slot_inner plain (inner_within cancelJoin_within (by simp))).bind fun _ => ?_
  apply (slot_inner plain (inner_within stopNetwork_within (by simp))).bind fun _ => ?_
  apply slot_deleteFile.bind fun result => ?_
  cases result with
  | error e => exact Discipline.Triple.done fun _ _ held => ⟨held.1, trivial⟩
  | ok value =>
      refine Discipline.Triple.bind (slot_wipeKeys.consequence ?_ fun _ _ _ held => held) fun _ => ?_
      · exact fun _ _ held => ⟨held.1, held.2 rfl⟩
      apply slot_inner plain
      refine Proc.all_bind (inner_await trivial) fun _ => Proc.all_bind (inner_await trivial) fun _ => ?_
      refine Proc.all_bind (inner_await trivial) fun _ => all_ite ?_ trivial
      refine Proc.all_bind (inner_await trivial) fun salts => all_ite ?_ trivial
      exact Proc.all_bind (inner_await trivial) fun key => all_ite trivial trivial

theorem elsewhere_outer {program : Task A} {Q : Op → Prop} (within : program.All Q)
    (outer : ∀ op, Q op → op.Outer ∧ .file ∉ op.writes)
    (shown : ∀ op before after writer, Q op → Shown setup ⟨task, job, op, before, after⟩ writer writer) :
    Commits setup task job (Elsewhere task) program fun _ => Elsewhere task := by
  apply Discipline.Triple.all within stable_elsewhere
  intro op member
  apply Discipline.Neutral.performs ?_ stable_elsewhere
  intro before writer invariant _ outcome reply after executed
  obtain ⟨outer, apart⟩ := outer op member
  have keys : after.keys = before.keys := exec_same executed .keys outer.1
  have resets : after.resets = before.resets := exec_same executed .resets outer.2.1
  have turn : after.turn = before.turn := exec_same executed .turn outer.2.2
  have file : after.file = before.file := exec_same executed .file apart
  refine ⟨?_, shown op before after writer member, fun other => ⟨?_, fun _ => ⟨keys, resets, file, rfl⟩⟩⟩
  · show writer.isSome → after.keys.aKey.isSome
    rw [keys]
    exact invariant
  · show after.turn = some other ↔ before.turn = some other
    rw [turn]

theorem elsewhere_plain (plain : job.Plain) {fields : List Field} {program : Task A}
    (within : program.All (Op.Within fields))
    (apart : (.keys ∉ fields ∧ .turn ∉ fields ∧ .resets ∉ fields) ∧ .file ∉ fields) :
    Commits setup task job (Elsewhere task) program fun _ => Elsewhere task := by
  apply elsewhere_outer within
  · exact fun op footprint => ⟨outer_of_within footprint apart.1, fun member => apart.2 (footprint member)⟩
  intro op before after writer footprint
  apply shown_plain plain
  rintro rfl
  exact apart.1.1 (footprint (by simp))

theorem commits_change (request : Request) :
    Commits setup task (.save (.change request)) (Elsewhere task) (change setup request) fun _ => Elsewhere task := by
  have plain : JoinJob.Plain (.save (.change request)) := trivial
  have performed : Commits setup task (.save (.change request)) (Slot task) (performRequest setup request)
      fun _ => Slot task := by
    by_cases reset : request = .resetDevice
    · subst reset
      exact commits_resetDevice
    · exact slot_inner plain (inner_performRequest reset)
  apply elsewhere_acquire.bind fun _ => ?_
  apply performed.bind fun _ => ?_
  apply (slot_inner plain (inner_within applyNetwork_within (by simp))).bind fun _ => ?_
  exact held_release

theorem commits_loginAtStart :
    Commits setup task (.save .loginAtStart) (Elsewhere task) (loginAtStart setup) fun _ => Elsewhere task := by
  have plain : JoinJob.Plain (.save .loginAtStart) := trivial
  have reads : Op.Inner .readKeys := trivial
  apply elsewhere_acquire.bind fun _ => ?_
  apply (slot_inner plain (inner_await reads)).bind fun slots => ?_
  split
  · exact (slot_inner plain inner_autoLogin).bind fun _ => held_release
  · exact held_release

/-- A save writes the file only with a vault. -/
theorem commits_savePeers :
    Commits setup task (.save .savePeers) (Elsewhere task) (savePeers setup) fun _ => Elsewhere task := by
  apply elsewhere_acquire.bind fun _ => ?_
  apply held_readKeys.bind fun slots => ?_
  split
  · exact held_release
  next opened =>
  refine Discipline.Triple.bind (held_outer (reseal_within none) ?_ ?_ ?_) fun _ => held_release
  · exact fun op footprint => outer_of_within footprint (by simp)
  · exact fun _ _ _ _ _ known => known
  · intro op before after writer footprint _ known _
    refine ⟨(fun _ _ _ same => by cases same), ?_, fun _ _ => rfl, fun _ _ => ?_⟩
    · intro wipes
      cases show op = .wipeKeys from wipes
      simp [Op.Within] at footprint
    · show before.keys.vault.isSome
      rw [← known.1]
      exact Option.isSome_iff_ne_none.mpr (by simpa using opened)

/-! ## The commit -/

def Written (task : Nat) (joined : Joined) (resets : Nat) (keys : KeySlots) (current : KeySlots) (counter : Nat)
    (_ : Option Bytes) (writer : Writer) : Prop :=
  counter = resets ∧ keys.fresh = true ∧ current = joined.slots keys ∧ writer = some (task, keys)

theorem Joined.has_slots (joined : Joined) (keys : KeySlots) : joined.Has (joined.slots keys) := ⟨rfl, rfl, rfl, rfl⟩

/-- A commit goes on: it finds its own writes. -/
theorem shown_written {joined : Joined} {identity : Identity} {resets : Nat} {keys : KeySlots} {op : Op}
    {before after : State} {writer : Writer} (kept : op ≠ .wipeKeys) (held : before.turn = some task)
    (written : Written task joined resets keys before.keys before.resets before.file writer) (has : joined.Has after.keys) :
    Shown setup ⟨task, .save (.commitJoin joined identity resets), op, before, after⟩ writer writer := by
  obtain ⟨current, fresh, found, wrote⟩ := written
  obtain ⟨unlocked, closed, -⟩ := KeySlots.fresh_iff.mp fresh
  refine ⟨?_, fun wipes => absurd wipes kept, fun _ _ => rfl, (fun same => by cases same)⟩
  intro joined' identity' resets' same _
  cases same
  exact {
    turn := held
    current := current
    unlocked := by
      show before.keys.locked = false
      rw [found]
      exact unlocked
    closed := by
      show before.keys.vault = none
      rw [found]
      exact closed
    found := .inr ⟨keys, fresh, wrote, rfl, found⟩
    slots := has }

section Commit

variable {joined : Joined} {identity : Identity} {resets : Nat} {keys : KeySlots}

theorem written_within {fields : List Field} {program : Task A} (within : program.All (Op.Within fields))
    (apart : .keys ∉ fields ∧ .turn ∉ fields ∧ .resets ∉ fields) :
    Commits setup task (.save (.commitJoin joined identity resets)) (Held task (Written task joined resets keys)) program
      fun _ => Held task (Written task joined resets keys) := by
  apply held_outer within (fun op footprint => outer_of_within footprint apart) fun _ _ _ _ _ written => written
  intro op before after writer footprint held written same
  apply shown_written ?_ held written
  · rw [same, written.2.2.1]
    exact joined.has_slots keys
  · rintro rfl
    exact apart.1 (footprint (by simp))

theorem written_done {value : A} :
    Commits setup task (.save (.commitJoin joined identity resets)) (Held task (Written task joined resets keys))
      (.done value) fun _ => Slot task :=
  Discipline.Triple.done fun _ _ held => ⟨held.1, trivial⟩

/-- The vault goes into memory last. -/
theorem written_vault (vault : OpenVault) :
    Commits setup task (.save (.commitJoin joined identity resets)) (Held task (Written task joined resets keys))
      (await (.writeKeys fun keys => { keys with vault := some vault })) fun _ => Slot task := by
  apply held_call (by simp)
  intro before writer outcome reply after executed held written invariant
  cases executed
  have has : joined.Has { before.keys with vault := some vault } := by
    rw [written.2.2.1]
    exact ⟨rfl, rfl, rfl, rfl⟩
  refine ⟨writer, fun _ => ?_, shown_written (by simp) held written has, trivial⟩
  show before.keys.aKey.isSome
  rw [written.2.2.1]
  rfl

theorem written_createVault (identity' : Option Identity) (config : Config) :
    Commits setup task (.save (.commitJoin joined identity resets)) (Held task (Written task joined resets keys))
      (createVault setup identity' config) fun _ => Slot task := by
  have aside : ∀ {op : Op}, op.writes = [] →
      Commits setup task (.save (.commitJoin joined identity resets)) (Held task (Written task joined resets keys))
        (await op) fun _ => Held task (Written task joined resets keys) :=
    fun empty => written_within (within_await (List.subset_nil.mpr empty)) (by simp)
  unfold createVault
  split
  · exact written_done
  apply (aside rfl).bind fun slots => ?_
  split
  · apply (written_within encodedPeers_within (by simp)).bind fun encoded => ?_
    cases encoded with
    | error e => exact written_done
    | ok peers =>
        apply (written_within encodedAddresses_within (by simp)).bind fun addresses => ?_
        apply (aside rfl).bind fun storageSalt => ?_
        apply (aside rfl).bind fun dek => ?_
        apply (aside rfl).bind fun wrapNonce => ?_
        apply (aside rfl).bind fun seed => ?_
        apply (aside rfl).bind fun nonce => ?_
        split
        · exact written_done
        next prepared _ =>
        apply (written_within (within_await (List.Subset.refl [Field.keychain])) (by simp)).bind fun stored => ?_
        split
        · apply (written_within (within_await (List.Subset.refl [Field.file])) (by simp)).bind fun written => ?_
          split
          · exact written_vault prepared.vault
          · exact written_done
        · exact written_done
  · exact written_done

/-- The first write of a commit, under the slot, with the counter it began with and over fresh keys. -/
theorem commits_slots (keys : KeySlots) :
    Commits setup task (.save (.commitJoin joined identity resets))
      (Held task fun current counter _ _ => current = keys ∧ keys.fresh = true ∧ counter = resets)
      (await (.writeKeys fun keys => { keys with
        aKey := some joined.aKey, aSalt := some joined.aSalt, dKey := some joined.dKey, dSalt := some joined.dSalt }))
      fun _ => Held task (Written task joined resets keys) := by
  apply held_call (by simp)
  intro before writer outcome reply after executed held known invariant
  cases executed
  obtain ⟨rfl, fresh, current⟩ := known
  obtain ⟨unlocked, closed, unset, -⟩ := KeySlots.fresh_iff.mp fresh
  -- a commit that wrote before has left an auth key
  have first : writer = none := by
    cases writer with
    | none => rfl
    | some wrote =>
        have has := invariant rfl
        rw [unset] at has
        cases has
  subst first
  refine ⟨some (task, before.keys), fun _ => rfl, ?_, current, fresh, rfl, rfl⟩
  refine ⟨?_, (fun wipes => by cases wipes), fun quiet _ => ?_, (fun same => by cases same)⟩
  · intro joined' identity' resets' same _
    cases same
    exact ⟨held, current, unlocked, closed, .inl ⟨fresh, rfl, rfl⟩, rfl, rfl, rfl, rfl⟩
  · exact absurd (by simp) (quiet joined identity resets rfl)

end Commit

theorem commits_follow {joined : Joined} {identity : Identity} {resets : Nat} :
    Commits setup task (.save (.commitJoin joined identity resets)) (Elsewhere task) applyNetwork
      fun _ => Elsewhere task := by
  apply elsewhere_outer applyNetwork_within
  · exact fun op footprint => ⟨outer_of_within footprint (by simp), fun member => absurd (footprint member) (by simp)⟩
  intro op before after writer footprint
  apply shown_quiet
  rintro (keys | peers | file | keychain)
  · exact absurd (footprint keys) (by simp)
  · exact absurd (footprint peers) (by simp)
  · exact absurd (footprint file) (by simp)
  · exact absurd (footprint keychain) (by simp)

theorem elsewhere_done {value : A} :
    Commits setup task job (Elsewhere task) (.done value) fun _ => Elsewhere task :=
  Discipline.Triple.done fun _ _ idle => idle

theorem commits_commitJoin (joined : Joined) (identity : Identity) (resets : Nat) :
    Commits setup task (.save (.commitJoin joined identity resets)) (Elsewhere task)
      (commitJoin setup joined identity resets) fun _ => Elsewhere task := by
  apply elsewhere_acquire.bind fun _ => ?_
  apply held_readResets.bind fun counter => ?_
  split
  · exact held_release.bind fun _ => elsewhere_done
  next same =>
  apply held_readKeys.bind fun slots => ?_
  split
  · exact held_release.bind fun _ => elsewhere_done
  next fresh =>
  refine Discipline.Triple.bind ((commits_slots slots).consequence ?_ fun _ _ _ held => held) fun _ => ?_
  · rintro state writer ⟨held, rfl, rfl, -⟩
    exact ⟨held, rfl, by simpa using fresh, by simpa using same⟩
  apply (written_within (within_await (List.Subset.refl [Field.book])) (by simp)).bind fun _ => ?_
  apply (written_within (within_await (List.nil_subset [])) (by simp)).bind fun list => ?_
  apply (written_within (within_await (List.Subset.refl [Field.peers])) (by simp)).bind fun _ => ?_
  apply (written_createVault (some identity) _).bind fun _ => ?_
  apply held_readKeys.bind fun _ => ?_
  exact held_release.bind fun _ => commits_follow.bind fun _ => elsewhere_done

theorem commits_program (job : JoinJob) :
    Commits setup task job (Elsewhere task) (job.program setup) fun _ => Elsewhere task := by
  cases job with
  | save job =>
      cases job with
      | change request => exact commits_change request
      | savePeers => exact commits_savePeers
      | commitJoin joined identity resets =>
          exact (commits_commitJoin joined identity resets).bind fun _ => elsewhere_done
      | loginAtStart => exact commits_loginAtStart
      | pairDevice list key verificationKey addr =>
          have plain : JoinJob.Plain (.save (.pairDevice list key verificationKey addr)) := trivial
          have within : (pairDevice list key verificationKey addr).All (Op.Within [.peers]) :=
            Proc.all_bind (within_await (by simp)) fun _ => within_await (by simp)
          exact (elsewhere_plain plain within (by simp)).bind fun _ => elsewhere_done
      | connection seen =>
          have plain : JoinJob.Plain (.save (.connection seen)) := trivial
          exact elsewhere_plain plain (within_await (List.Subset.refl [Field.book])) (by simp)
  | joinGroup =>
      have plain : JoinJob.Plain .joinGroup := trivial
      exact (elsewhere_plain plain joinGroup_within (by simp)).bind fun _ => elsewhere_done
  | cancelJoin =>
      have plain : JoinJob.Plain .cancelJoin := trivial
      exact elsewhere_plain plain cancelJoin_within (by simp)
  | endJoin generation =>
      have plain : JoinJob.Plain (.endJoin generation) := trivial
      exact elsewhere_plain plain (endJoin_within generation) (by simp)

theorem commits_accounts : (commits setup).Accounts (joinWorkload setup) (Shown setup) := by
  intro task job
  exact (commits_program job).consequence (fun _ _ start => start.1) fun _ _ _ idle => idle

/-! ## Whole runs -/

def Storing (joined : Joined) (resets : Nat) (moment : Moment (joinWorkload setup)) : Prop :=
  (∃ identity, moment.job = JoinJob.save (.commitJoin joined identity resets)) ∧ Op.Stores moment.op

def Wipes (moment : Moment (joinWorkload setup)) : Prop :=
  moment.op = Op.wipeKeys ∧ moment.job = JoinJob.save (.change .resetDevice)

/-- A storing commit has the slot; the keys are fresh, or its four slots over fresh keys it found before. -/
structure Allowed (joined : Joined) (resets : Nat) (earlier : List (Moment (joinWorkload setup)))
    (moment : Moment (joinWorkload setup)) : Prop where
  turn : State.turn moment.before = some moment.task
  current : State.resets moment.before = resets
  unlocked : (State.keys moment.before).locked = false
  closed : (State.keys moment.before).vault = none
  fresh : (State.keys moment.before).fresh = true ∨
    ∃ first ∈ earlier, first.task = moment.task ∧ Op.Stores first.op ∧ (State.keys first.before).fresh = true ∧
      State.keys moment.before = joined.slots (State.keys first.before)
  slots : joined.Has (State.keys moment.after)

structure Account (moments : List (Moment (joinWorkload setup))) (writer : Writer) : Prop where
  wrote : ∀ task keys, writer = some (task, keys) →
    ∃ first ∈ moments, first.task = task ∧ Op.Stores first.op ∧ State.keys first.before = keys
  stored : ∀ earlier moment later, moments = earlier ++ moment :: later → ∀ joined resets,
    Storing joined resets moment → Allowed joined resets earlier moment ∧
      ((∃ wipe ∈ later, Wipes wipe) ∨ ∃ keys, writer = some (moment.task, keys)) ∧
      ∀ between other rest, later = between ++ other :: rest → ∀ joined' resets', Storing joined' resets' other →
        other.task ≠ moment.task → ∃ wipe ∈ between, Wipes wipe

/-- A commit finds nobody's writes but its own. -/
theorem Commit.writer {joined : Joined} {resets : Nat} {moment : Moment (joinWorkload setup)} {writer writer' : Writer}
    (commit : Commit joined resets moment writer writer') :
    (∀ task keys, writer = some (task, keys) → task = moment.task) ∧ ∃ keys, writer' = some (moment.task, keys) := by
  rcases commit.found with ⟨-, none, wrote⟩ | ⟨keys, -, some, same, -⟩
  · refine ⟨?_, _, wrote⟩
    intro task keys found
    rw [none] at found
    cases found
  · refine ⟨?_, keys, same.trans some⟩
    intro task keys' found
    cases some.symm.trans found
    rfl

theorem Account.allowed {moments : List (Moment (joinWorkload setup))} {writer writer' : Writer}
    (account : Account moments writer) {moment : Moment (joinWorkload setup)} {joined : Joined} {resets : Nat}
    (commit : Commit joined resets moment writer writer') : Allowed joined resets moments moment where
  turn := commit.turn
  current := commit.current
  unlocked := commit.unlocked
  closed := commit.closed
  fresh := by
    rcases commit.found with ⟨fresh, -⟩ | ⟨keys, fresh, wrote, -, found⟩
    · exact .inl fresh
    · obtain ⟨first, member, task, stores, rfl⟩ := account.wrote _ _ wrote
      exact .inr ⟨first, member, task, stores, fresh, found⟩
  slots := commit.slots

theorem Shown.storing {moment : Moment (joinWorkload setup)} {writer writer' : Writer}
    (shown : Shown setup moment writer writer') {joined : Joined} {resets : Nat}
    (stores : Storing joined resets moment) : Commit joined resets moment writer writer' := by
  obtain ⟨⟨identity, job⟩, stores⟩ := stores
  exact shown.commits joined identity resets job stores

/-- A moment stores for a commit, wipes, or leaves the last writer. -/
theorem Shown.cases {moment : Moment (joinWorkload setup)} {writer writer' : Writer}
    (shown : Shown setup moment writer writer') :
    (∃ joined resets, Storing joined resets moment) ∨ (Wipes moment ∧ writer' = none) ∨ writer' = writer := by
  by_cases wipes : moment.op = Op.wipeKeys
  · obtain ⟨job, none, -⟩ := shown.wiped wipes
    exact .inr (.inl ⟨⟨wipes, job⟩, none⟩)
  by_cases stores : ∃ joined resets, Storing joined resets moment
  · exact .inl stores
  · refine .inr (.inr (shown.others ?_ wipes))
    exact fun joined identity resets job stored => stores ⟨joined, resets, ⟨identity, job⟩, stored⟩

theorem Account.step {moments : List (Moment (joinWorkload setup))} {moment : Moment (joinWorkload setup)}
    {writer writer' : Writer} (account : Account moments writer) (shown : Shown setup moment writer writer') :
    Account (moments ++ [moment]) writer' where
  wrote := by
    intro task keys found
    have earlier : writer' = writer → ∃ first ∈ moments ++ [moment],
        first.task = task ∧ Op.Stores first.op ∧ State.keys first.before = keys := by
      rintro rfl
      obtain ⟨first, member, rest⟩ := account.wrote task keys found
      exact ⟨first, List.mem_append_left _ member, rest⟩
    rcases shown.cases with ⟨joined, resets, stores⟩ | ⟨-, none⟩ | same
    · rcases (shown.storing stores).found with ⟨-, -, wrote⟩ | ⟨_, -, -, same, -⟩
      · cases wrote.symm.trans found
        exact ⟨moment, by simp, rfl, stores.2, rfl⟩
      · exact earlier same
    · cases none.symm.trans found
    · exact earlier same
  stored := by
    intro earlier first later cut joined resets stores
    rcases cut_concat cut with ⟨rfl, rfl, rfl⟩ | ⟨rest, rfl, rfl⟩
    · have commit := shown.storing stores
      exact ⟨account.allowed commit, .inr commit.writer.2, by simp⟩
    obtain ⟨allowed, last, apart⟩ := account.stored earlier first rest rfl joined resets stores
    refine ⟨allowed, ?_, ?_⟩
    · rcases last with ⟨wipe, member, wipes⟩ | ⟨keys, wrote⟩
      · exact .inl ⟨wipe, List.mem_append_left _ member, wipes⟩
      rcases shown.cases with ⟨joined', resets', again⟩ | ⟨wipes, -⟩ | same
      · have commit := (shown.storing again).writer
        rw [commit.1 _ _ wrote]
        exact .inr commit.2
      · exact .inl ⟨moment, by simp, wipes⟩
      · exact .inr ⟨keys, same.trans wrote⟩
    · intro between other tail cut' joined' resets' again different
      rcases cut_concat cut' with ⟨rfl, rfl, rfl⟩ | ⟨middle, rfl, rfl⟩
      · -- another commit that stores now has not found the writer of the first
        rcases last with wiped | ⟨keys, wrote⟩
        · exact wiped
        · exact absurd ((shown.storing again).writer.1 _ _ wrote).symm different
      · exact apart between other middle rfl joined' resets' again different

theorem exec_resets {op : Op} {outcome : Outcome} {reply : Reply op} {before after : State}
    (executed : (machine setup).exec task op outcome before = some (reply, after)) : before.resets ≤ after.resets := by
  by_cases untouched : .resets ∉ op.writes
  · exact Nat.le_of_eq (exec_same executed .resets untouched).symm
  · cases op <;> simp at untouched
    cases executed
    exact Nat.le_succ _

theorem exec_bumpResets {op : Op} (counts : op = .bumpResets) {outcome : Outcome} {reply : Reply op}
    {before after : State} (executed : (machine setup).exec task op outcome before = some (reply, after)) :
    after.resets = before.resets + 1 := by
  subst counts
  cases executed
  rfl

section Record

variable {init : State → Prop} {jobs : List JoinJob} {moments : List (Moment (joinWorkload setup))}
  {pool : Pool (machine setup)}

/-- The counter read up to a reset is another one after it. -/
theorem resets_grow (recorded : Recorded (joinWorkload setup) init jobs moments pool)
    {earlier between later : List (Moment (joinWorkload setup))} {reset moment read : Moment (joinWorkload setup)}
    (cut : moments = earlier ++ reset :: (between ++ moment :: later)) (counts : reset.op = Op.bumpResets)
    (before : read ∈ earlier ++ [reset]) : State.resets read.before < State.resets moment.before := by
  have grows {earlier later : List (Moment (joinWorkload setup))} {first : Moment (joinWorkload setup)}
      (cut : moments = earlier ++ first :: later) :=
    (recorded.follows (fun before after => State.resets before ≤ State.resets after) (fun _ => Nat.le_refl _)
      (fun _ _ _ => Nat.le_trans) (fun _ _ _ _ _ _ executed => exec_resets executed) cut).1
  have counted : State.resets reset.after = State.resets reset.before + 1 := by
    obtain ⟨outcome, reply, executed⟩ := recorded.executed (show reset ∈ moments by simp [cut])
    exact exec_bumpResets counts executed
  have later := grows cut moment (by simp)
  rcases List.mem_append.mp before with inside | same
  · obtain ⟨front, back, rfl⟩ := List.append_of_mem inside
    obtain ⟨outcome, reply, executed⟩ := recorded.executed (show read ∈ moments by simp [cut])
    have here := exec_resets executed
    have reached := grows (cut.trans (List.append_assoc _ _ _)) reset (by simp)
    omega
  · cases List.mem_singleton.mp same
    omega

/-- Whatever runs beside it: a commit stores only under the slot, over keys that are fresh but for
its own four slots, and with the counter of resets it began with; two commits that store have a reset
between them; and the slots a commit leaves are all of its own join. -/
theorem join_commits_safely
    (recorded : Recorded (joinWorkload setup) (fun state => State.turn state = none) jobs moments pool)
    {earlier later : List (Moment (joinWorkload setup))} {moment : Moment (joinWorkload setup)}
    (cut : moments = earlier ++ moment :: later) {joined : Joined} {resets : Nat}
    (stores : Storing joined resets moment) :
    Allowed joined resets earlier moment ∧
    (∀ between other rest, later = between ++ other :: rest → ∀ joined' resets', Storing joined' resets' other →
      other.task ≠ moment.task → ∃ wipe ∈ between, Wipes wipe) ∧
    ∀ before reset after, earlier = before ++ reset :: after → reset.op = Op.bumpResets →
      ∀ read ∈ before ++ [reset], State.resets read.before ≠ resets := by
  obtain ⟨writer, -, -, account⟩ := recorded.account commits_accounts (fun moments _ writer => Account moments writer)
    (fun state free => ⟨none, by simp [commits], by simp [commits, free], by simp, by simp⟩)
    (fun _ _ _ _ account _ _ shown => account.step shown)
  obtain ⟨allowed, -, apart⟩ := account.stored earlier moment later cut joined resets stores
  refine ⟨allowed, apart, ?_⟩
  rintro before reset after rfl counts read early
  have grown := resets_grow recorded (cut.trans (List.append_assoc _ _ _)) counts early
  rw [allowed.current] at grown
  exact Nat.ne_of_lt grown

end Record

def phoneJoin : Joined :=
  ⟨.replicate 32 1, .replicate 32 2, .replicate 32 3, .replicate 32 4,
    ⟨phoneKey, .replicate mldsa87VkLen 0, phoneAddr.toString⟩, phoneAddr⟩

def phoneCommit : JoinJob := .save (.commitJoin phoneJoin (.replicate identitySeedLen 8) 0)

theorem join_commits_safely_new :
    ∃ jobs moments pool,
      Recorded (joinWorkload plainSetup) (fun state => State.turn state = none) jobs moments pool ∧
        ∃ earlier moment, moments = earlier ++ [moment] ∧ Storing phoneJoin 0 moment ∧
          Allowed phoneJoin 0 earlier moment := by
  let W := joinWorkload plainSetup
  let before := new none fun _ => none
  let held : State := { before with turn := some 0 }
  have begun : Recorded W (fun state => State.turn state = none) [] [] ⟨before, []⟩ := .init rfl
  have taken := Recorded.start begun (show W.ready phoneCommit before from rfl) rfl rfl
    (show (machine plainSetup).exec 0 .acquire .done before = some ((), held) from rfl)
  have counted := Recorded.resume taken rfl rfl rfl
    (show (machine plainSetup).exec 0 .readResets .done held = some (0, held) from rfl)
  have looked := Recorded.resume counted rfl rfl rfl
    (show (machine plainSetup).exec 0 .readKeys .done held = some ({}, held) from rfl)
  have wrote := Recorded.resume looked rfl rfl rfl
    (show (machine plainSetup).exec 0 (.writeKeys fun keys => { keys with
      aKey := some phoneJoin.aKey, aSalt := some phoneJoin.aSalt, dKey := some phoneJoin.dKey,
      dSalt := some phoneJoin.dSalt }) .done held = some ((), _) from rfl)
  exact ⟨_, _, _, wrote, _, _, rfl, ⟨⟨_, rfl⟩, by simp⟩, (join_commits_safely wrote rfl ⟨⟨_, rfl⟩, by simp⟩).1⟩

end Daemon

end CesaConn
