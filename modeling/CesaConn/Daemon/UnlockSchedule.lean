import CesaConn.Daemon.Frame
import CesaConn.Program.Log
import CesaConn.Program.View

/-! When wrong passwords make the next unlock wait.

The daemon keeps a count and one moment; the schedule is read off the attempts
themselves, newest first.
-/

set_option autoImplicit false

namespace CesaConn

open Format Program

namespace Daemon

open Vault

variable {setup : Setup} {task : Nat} {drift : State → State → Prop}

/-! ## Attempts -/

def readings (events : List (Event sections)) : List Instant :=
  events.filterMap fun event => match event with
    | ⟨.now, instant⟩ => some instant
    | _ => none

/-- A finished unlock request; a wrong password is counted at its last reading of the clock. -/
structure Unlocking where
  events : List (Event sections)
  result : Except DaemonError Unit

def Unlocking.stop (attempt : Unlocking) : Option Instant := (readings attempt.events).getLast?

/-- Wrong passwords since the last success. -/
def wrongs : List Unlocking → Nat
  | [] => 0
  | attempt :: earlier =>
      match attempt.result with
      | .ok () => 0
      | .error .wrongPassword => wrongs earlier + 1
      | .error _ => wrongs earlier

def lastWrong : List Unlocking → Option Instant
  | [] => none
  | attempt :: earlier =>
      match attempt.result with
      | .ok () => none
      | .error .wrongPassword => attempt.stop
      | .error _ => lastWrong earlier

/-- How long so many wrong passwords make the next request wait, in seconds. -/
def delay (count : Nat) : Nat := if count < 5 then 0 else min (2 ^ (count - 5)) 60

def waitsUntil (attempts : List Unlocking) : Option Instant :=
  (lastWrong attempts).map fun last => last + delay (wrongs attempts) * second

theorem unlockDelay_eq (count : Nat) : unlockDelay (min count (2 ^ 32 - 1)) = delay count := by
  have far (extra : Nat) (large : 64 ≤ extra) : 60 ≤ 2 ^ extra :=
    Nat.le_trans (by decide : 60 ≤ 2 ^ 64) (Nat.pow_le_pow_right (by decide) large)
  unfold unlockDelay delay freeUnlockAttempts maxUnlockDelay
  by_cases few : count < 5
  · rw [if_pos few, if_pos (by omega)]
  · rw [if_neg few, if_neg (by omega)]
    by_cases small : count - 5 < 64
    · rw [show min count (2 ^ 32 - 1) = count by omega, if_pos small]
    · rw [if_neg (by omega), Nat.min_eq_right (far _ (by omega))]
      rfl

theorem roundedUp_eq_zero (left : Nat) :
    min (left / second + if left % second = 0 then 0 else 1) (2 ^ 16 - 1) = 0 ↔ left = 0 := by
  unfold second
  split
  · omega
  · omega

/-- The wait is over exactly when no whole or broken second of it is left. -/
theorem waitSecs_eq_zero (notBefore : Option Instant) (now : Instant) :
    waitSecs notBefore now = 0 ↔ ∀ last, notBefore = some last → last ≤ now := by
  cases notBefore with
  | none => simp [waitSecs]
  | some last =>
      have ended : waitSecs (some last) now = 0 ↔ last - now = 0 := roundedUp_eq_zero (last - now)
      rw [ended, Nat.sub_eq_zero_iff_le]
      simp

/-! ## One request -/

def KeySlots.guesses (keys : KeySlots) : Nat × Option Instant := (keys.unlockFailures, keys.unlockNotBefore)

/-- The other tasks leave the count, the wait and the lock alone, and time does not go back. -/
def Quiet (drift : State → State → Prop) : Prop :=
  ∀ before after, drift before after →
    after.keys.locked = before.keys.locked ∧ after.keys.guesses = before.keys.guesses ∧ before.clock ≤ after.clock

def Op.Silent : Op → Prop
  | .now => False
  | .writeKeys change => ∀ keys, (change keys).guesses = keys.guesses
  | op => .keys ∉ op.writes

theorem exec_silent {op : Op} {outcome : Outcome} {before after : State} {reply : Reply op} (silent : op.Silent)
    (executed : (machine setup).exec task op outcome before = some (reply, after)) :
    after.keys.guesses = before.keys.guesses ∧ after.clock = before.clock := by
  by_cases untouched : .keys ∉ op.writes ∧ .clock ∉ op.writes
  · have keys : after.keys = before.keys := exec_same executed .keys untouched.1
    exact ⟨congrArg KeySlots.guesses keys, exec_same executed .clock untouched.2⟩
  · cases op with
    | now => exact silent.elim
    | writeKeys change =>
        cases executed
        exact ⟨silent _, rfl⟩
    | _ => exact absurd ⟨silent, by simp⟩ untouched

theorem silent_within {op : Op} (within : op.Within []) : op.Silent := by
  cases op with
  | now | writeKeys => simp [Op.Within] at within
  | _ => exact fun member => absurd (within member) (by simp)

theorem silent_derive (password : Bytes) (salt : Salt) : (derive password salt).All Op.Silent :=
  (derive_within password salt).mono fun _ => silent_within

theorem silent_await {op : Op} (silent : op.Silent) : (await op).All Op.Silent := ⟨silent, fun _ => trivial⟩

theorem silent_unlockWith (dKey : DataKey) : (unlockWith setup dKey).All Op.Silent := by
  unfold unlockWith
  apply all_ite
  · trivial
  apply Proc.all_bind (silent_await (by simp [Op.Silent]))
  intro reply
  split
  · trivial
  · split
    · trivial
    apply Proc.all_bind (silent_await (by simp [Op.Silent]))
    intro read
    split
    · trivial
    · trivial
    split
    · trivial
    split
    · trivial
    split
    · trivial
    split
    · trivial
    apply Proc.all_bind (silent_await (by simp [Op.Silent]))
    intro list
    apply Proc.all_bind (silent_await (by simp [Op.Silent]))
    intro _
    apply Proc.all_bind (silent_await (by simp [Op.Silent]))
    intro _
    apply Proc.all_bind
    · exact silent_await fun keys => rfl
    · exact fun _ => trivial
  · trivial

@[simp] theorem readings_append (first rest : List (Event sections)) : readings (first ++ rest) = readings first ++ readings rest :=
  List.filterMap_append

structure Silently (before : State) (events : List (Event sections)) (after : State) : Prop where
  readings : readings events = []
  guesses : after.keys.guesses = before.keys.guesses
  clock : before.clock ≤ after.clock

theorem Silently.trans {before middle after : State} {first rest : List (Event sections)} (early : Silently before first middle)
    (late : Silently middle rest after) : Silently before (first ++ rest) after where
  readings := by rw [readings_append, early.readings, late.readings, List.append_nil]
  guesses := late.guesses.trans early.guesses
  clock := Nat.le_trans early.clock late.clock

theorem logs_silent {A : Type} (quiet : Quiet drift) {program : Task A} (silent : program.All Op.Silent) {before after : State}
    {events : List (Event sections)} {value : A} (logs : Logs (machine setup) task drift program before events value after) :
    Silently before events after := by
  apply logs.relates silent
  · exact fun _ => ⟨rfl, rfl, Nat.le_refl _⟩
  · rintro op plain state before outcome reply after events last drifted executed ⟨unread, guesses, clock⟩
    obtain ⟨same, still⟩ := exec_silent plain executed
    obtain ⟨-, kept, later⟩ := quiet _ _ drifted
    refine ⟨?_, (guesses.trans same).trans kept, Nat.le_trans later (still ▸ clock)⟩
    cases op with
    | now => exact plain.elim
    | _ => exact unread

/-- What a request that was let through does to the count and the wait. -/
def Counted (before : Nat × Option Instant) (start : Instant) (rest : List (Event sections)) (after : State) :
    Except DaemonError Unit → Prop
  | .ok () => after.keys.guesses = (0, none)
  | .error .wrongPassword => ∃ stop, (readings rest).getLast? = some stop ∧ start ≤ stop ∧ stop ≤ after.clock ∧
      after.keys.guesses = (min (before.1 + 1) (2 ^ 32 - 1), some (stop + unlockDelay (min (before.1 + 1) (2 ^ 32 - 1)) * second))
  | .error _ => after.keys.guesses = before

inductive Unlocks (setup : Setup) (drift : State → State → Prop) (before after : State) :
    List (Event sections) → Except DaemonError Unit → Prop where
  | away {events : List (Event sections)} {result : Except DaemonError Unit} :
      ¬ (setup.storage = true ∧ before.keys.locked = true) → result = .error .notSaved ∨ result = .error .badRequest →
      after.keys.guesses = before.keys.guesses → before.clock ≤ after.clock → Unlocks setup drift before after events result
  | delayed {slots : KeySlots} {start : Instant} {seen read : State} :
      0 < waitSecs before.keys.unlockNotBefore start → drift before seen → drift seen read → read.clock ≤ start →
      after = { read with clock := start } →
      Unlocks setup drift before after [⟨.readKeys, slots⟩, ⟨.now, start⟩] (.error .unlockDelayed)
  | evaluated {slots : KeySlots} {start : Instant} {rest : List (Event sections)} {result : Except DaemonError Unit} :
      waitSecs before.keys.unlockNotBefore start = 0 → result ≠ .error .unlockDelayed → before.clock ≤ start →
      start ≤ after.clock → Counted before.keys.guesses start rest after result →
      Unlocks setup drift before after (⟨.readKeys, slots⟩ :: ⟨.now, start⟩ :: rest) result

theorem exec_now {outcome : Outcome} {before after : State} {start : Instant}
    (executed : (machine setup).exec task .now outcome before = some (start, after)) :
    before.clock ≤ start ∧ after = { before with clock := start } := by
  cases executed
  refine ⟨?_, rfl⟩
  split
  · exact Nat.le_max_left _ _
  · exact Nat.le_refl _

theorem guesses_countUnlock (result : Except DaemonError Unit) (now : Instant) (keys : KeySlots) :
    (countUnlock result now keys).guesses = match result with
      | .ok () => (0, none)
      | .error .wrongPassword => (min (keys.unlockFailures + 1) (2 ^ 32 - 1),
          some (now + unlockDelay (min (keys.unlockFailures + 1) (2 ^ 32 - 1)) * second))
      | .error _ => keys.guesses := by
  cases result with
  | ok _ => rfl
  | error e => cases e <;> rfl

theorem storageError_ne_delayed (e : VaultErrors) : storageError e ≠ .unlockDelayed := by
  cases e <;> decide

/-- Only the check at the start says that a request came too soon. -/
theorem results_unlockWith (dKey : DataKey) :
    (unlockWith setup dKey).Results fun result => result ≠ .error .unlockDelayed := by
  have failed {e : DaemonError} (other : e ≠ .unlockDelayed) :
      (Proc.done (.error e) : Task (Except DaemonError Unit)).Results fun result => result ≠ .error .unlockDelayed :=
    fun same => other (Except.error.inj same)
  unfold unlockWith
  split
  · exact failed (by decide)
  apply Proc.results_bind
  intro reply
  split
  · exact failed (by decide)
  · split
    · exact failed (by decide)
    apply Proc.results_bind
    intro read
    cases read with
    | lost => exact failed (by decide)
    | failed e => exact failed (storageError_ne_delayed e)
    | ok file =>
        cases file with
        | none => exact failed (by decide)
        | some file =>
            simp only [Call.result]
            split
            · exact failed (storageError_ne_delayed _)
            split
            · exact failed (storageError_ne_delayed _)
            split
            · exact failed (by decide)
            split
            · exact failed (by decide)
            repeat' (apply Proc.results_bind; intro)
            exact fun same => by cases same
  · exact failed (by decide)

variable {before after : State} {events : List (Event sections)} {result : Except DaemonError Unit} {password : Bytes}

theorem waitSecs_congr {keys keys' : KeySlots} (same : keys'.guesses = keys.guesses) (now : Instant) :
    waitSecs keys'.unlockNotBefore now = waitSecs keys.unlockNotBefore now := by
  rw [show keys'.unlockNotBefore = keys.unlockNotBefore from congrArg Prod.snd same]

/-- An error that is no wrong password changes neither the count nor the wait. -/
theorem counted_error {e : DaemonError} {guesses : Nat × Option Instant} {start : Instant} {rest : List (Event sections)}
    (other : e ≠ .wrongPassword) (same : after.keys.guesses = guesses) : Counted guesses start rest after (.error e) := by
  cases e with
  | wrongPassword => exact absurd rfl other
  | _ => exact same

theorem Counted.after_silent {guesses : Nat × Option Instant} {start : Instant} {first rest : List (Event sections)}
    (silent : readings first = []) (counted : Counted guesses start rest after result) :
    Counted guesses start (first ++ rest) after result := by
  unfold Counted at counted ⊢
  rw [readings_append, silent, List.nil_append]
  exact counted

theorem logs_countUnlock (quiet : Quiet drift) {start : Instant} {value : Except DaemonError Unit} (later : start ≤ before.clock)
    (logs : Logs (machine setup) task drift (do
      let now ← await .now
      await (.writeKeys (countUnlock result now))
      return result) before events value after) :
    value = result ∧ start ≤ after.clock ∧ Counted before.keys.guesses start events after result := by
  obtain ⟨_, stop, seen, read, _, rfl, drifted, executed, logs⟩ := logs.of_call
  obtain ⟨clock, rfl⟩ := exec_now executed
  obtain ⟨_, _, written, _, _, rfl, drifted', executed, logs⟩ := logs.of_call
  cases executed
  obtain ⟨rfl, rfl, rfl⟩ := logs.of_done
  obtain ⟨-, kept, passed⟩ := quiet _ _ drifted
  obtain ⟨-, kept', passed'⟩ := quiet _ _ drifted'
  have same : written.keys.guesses = before.keys.guesses := kept'.trans kept
  have begins : start ≤ stop := Nat.le_trans later (Nat.le_trans passed clock)
  refine ⟨rfl, Nat.le_trans begins passed', ?_⟩
  have counts := guesses_countUnlock value stop written.keys
  have failures : written.keys.unlockFailures = before.keys.guesses.1 := congrArg Prod.fst same
  rw [failures, same] at counts
  cases value with
  | ok _ => exact counts
  | error e =>
      cases e with
      | wrongPassword => exact ⟨stop, rfl, begins, passed', counts⟩
      | _ => exact counts

theorem results_derive (password : Bytes) (salt : Salt) :
    (derive password salt).Results fun result => ∀ e, result = .error e → e ≠ .wrongPassword ∧ e ≠ .unlockDelayed := by
  rintro (_ | _ | key) e failed
  · cases failed
    simp
  · cases failed
    simp
  · cases failed

theorem logs_unlock (quiet : Quiet drift)
    (logs : Logs (machine setup) task drift (unlock setup password) before events result after) :
    Unlocks setup drift before after events result := by
  unfold unlock at logs
  cases stored : setup.storage with
  | false =>
      simp only [stored, Bool.not_false, if_true] at logs
      obtain ⟨rfl, rfl, rfl⟩ := logs.of_done
      exact .away (by simp [stored]) (.inl rfl) rfl (Nat.le_refl _)
  | true =>
      simp only [stored, Bool.not_true, Bool.false_eq_true, if_false] at logs
      obtain ⟨_, slots, seen, _, _, rfl, drifted, executed, logs⟩ := logs.of_call
      cases executed
      obtain ⟨_, start, read, checked, rest, rfl, drifted', executed, logs⟩ := logs.of_call
      obtain ⟨clock, rfl⟩ := exec_now executed
      obtain ⟨locked, kept, passed⟩ := quiet _ _ drifted
      obtain ⟨-, kept', passed'⟩ := quiet _ _ drifted'
      have same : read.keys.guesses = before.keys.guesses := kept'.trans kept
      have begins : before.clock ≤ start := Nat.le_trans passed (Nat.le_trans passed' clock)
      simp only [Proc.bind] at logs
      split at logs
      · next unlocked =>
        have away : ¬ (setup.storage = true ∧ before.keys.locked = true) := by
          rintro ⟨-, was⟩
          simp [locked, was] at unlocked
        obtain ⟨rfl, rfl, rfl⟩ := logs.of_done
        refine .away away ?_ same begins
        split
        · exact .inr rfl
        · exact .inl rfl
      split at logs
      · next early =>
        rw [waitSecs_congr kept] at early
        obtain ⟨rfl, rfl, rfl⟩ := logs.of_done
        exact .delayed early drifted drifted' clock rfl
      next due =>
      rw [waitSecs_congr kept, Nat.not_lt, Nat.le_zero] at due
      -- the request is let through
      have through {e : DaemonError} {rest : List (Event sections)} {after : State} (wrong : e ≠ .wrongPassword)
          (other : e ≠ .unlockDelayed) (silent : Silently { read with clock := start } rest after) :
          Unlocks setup drift before after (⟨.readKeys, seen.keys⟩ :: ⟨.now, start⟩ :: rest) (.error e) :=
        .evaluated due (fun same => other (Except.error.inj same)) begins silent.clock
          (counted_error wrong (silent.guesses.trans same))
      obtain ⟨first, rest, reply, middle, rfl, salts, logs⟩ := logs.of_bind
      have asked := logs_silent quiet (silent_await (by simp [Op.Silent])) salts
      split at logs
      · obtain ⟨rfl, rfl, rfl⟩ := logs.of_done
        exact through (by decide) (by decide) (asked.trans ⟨rfl, rfl, Nat.le_refl _⟩)
      · split at logs
        · obtain ⟨rfl, rfl, rfl⟩ := logs.of_done
          exact through (by decide) (by decide) (asked.trans ⟨rfl, rfl, Nat.le_refl _⟩)
        obtain ⟨second, rest, derived, middle, rfl, derives, logs⟩ := logs.of_bind
        have silent := asked.trans (logs_silent quiet (silent_derive _ _) derives)
        cases derived with
        | error e =>
            obtain ⟨wrong, other⟩ := derives.executes.results (results_derive _ _) e rfl
            obtain ⟨rfl, rfl, rfl⟩ := logs.of_done
            rw [List.append_nil]
            exact through wrong other silent
        | ok dKey =>
            obtain ⟨third, rest, tried, middle, rfl, tries, logs⟩ := logs.of_bind
            have silent := silent.trans (logs_silent quiet (silent_unlockWith dKey) tries)
            have other := tries.executes.results (results_unlockWith dKey)
            obtain ⟨rfl, later, counted⟩ := logs_countUnlock quiet silent.clock logs
            refine .evaluated due other begins later ?_
            rw [← List.append_assoc, ← List.append_assoc, ← silent.guesses.trans same]
            exact counted.after_silent silent.readings
      · obtain ⟨rfl, rfl, rfl⟩ := logs.of_done
        exact through (by decide) (by decide) (asked.trans ⟨rfl, rfl, Nat.le_refl _⟩)

/-! ## Runs -/

/-- Unlock requests one after the other, newest first. -/
inductive UnlockRun (setup : Setup) (drift : State → State → Prop) (first : State) : List Unlocking → State → Prop where
  | nil : UnlockRun setup drift first [] first
  | cons {task : Nat} {password : Bytes} {attempt : Unlocking} {earlier : List Unlocking} {before after : State} :
      UnlockRun setup drift first earlier before →
      Logs (machine setup) task drift (unlock setup password) before attempt.events attempt.result after →
      UnlockRun setup drift first (attempt :: earlier) after

structure Scheduled (attempts : List Unlocking) (state : State) : Prop where
  guesses : state.keys.guesses = (min (wrongs attempts) (2 ^ 32 - 1), waitsUntil attempts)
  past : ∀ last, lastWrong attempts = some last → last ≤ state.clock
  ended : 0 < wrongs attempts → (lastWrong attempts).isSome

theorem Scheduled.idle {attempts : List Unlocking} {attempt : Unlocking} {e : DaemonError} (scheduled : Scheduled attempts before)
    (failed : attempt.result = .error e) (other : e ≠ .wrongPassword) (same : after.keys.guesses = before.keys.guesses)
    (later : before.clock ≤ after.clock) : Scheduled (attempt :: attempts) after := by
  have count : wrongs (attempt :: attempts) = wrongs attempts := by
    rw [wrongs, failed]
    cases e with
    | wrongPassword => exact absurd rfl other
    | _ => rfl
  have last : lastWrong (attempt :: attempts) = lastWrong attempts := by
    rw [lastWrong, failed]
    cases e with
    | wrongPassword => exact absurd rfl other
    | _ => rfl
  constructor
  · rw [same, waitsUntil, count, last]
    exact scheduled.guesses
  · intro stop found
    exact Nat.le_trans (scheduled.past stop (last ▸ found)) later
  · rw [count, last]
    exact scheduled.ended

theorem Scheduled.step (quiet : Quiet drift) {attempts : List Unlocking} {attempt : Unlocking} (scheduled : Scheduled attempts before)
    (logs : Logs (machine setup) task drift (unlock setup password) before attempt.events attempt.result after) :
    Scheduled (attempt :: attempts) after := by
  obtain ⟨events, result⟩ := attempt
  cases logs_unlock quiet logs with
  | away _ refused same later =>
      obtain rfl | rfl := refused
      · exact scheduled.idle rfl (by decide) same later
      · exact scheduled.idle rfl (by decide) same later
  | delayed _ drifted drifted' clock ends =>
      subst ends
      obtain ⟨-, kept, passed⟩ := quiet _ _ drifted
      obtain ⟨-, kept', passed'⟩ := quiet _ _ drifted'
      exact scheduled.idle rfl (by decide) (kept'.trans kept) (Nat.le_trans passed (Nat.le_trans passed' clock))
  | @evaluated slots start rest _ _ _ begins later counted =>
      cases result with
      | ok _ => exact ⟨counted, fun _ found => (nomatch found), fun never => absurd never (Nat.lt_irrefl 0)⟩
      | error e =>
          by_cases wrong : e = .wrongPassword
          · subst wrong
            obtain ⟨stop, last, ends, past, guesses⟩ := counted
            have stopped : lastWrong (⟨⟨.readKeys, slots⟩ :: ⟨.now, start⟩ :: rest, .error .wrongPassword⟩ :: attempts) = some stop := by
              show (start :: readings rest).getLast? = some stop
              rw [List.getLast?_cons, last]
              rfl
            constructor
            · have next : min (min (wrongs attempts) (2 ^ 32 - 1) + 1) (2 ^ 32 - 1) = min (wrongs attempts + 1) (2 ^ 32 - 1) := by
                omega
              rw [scheduled.guesses, next, unlockDelay_eq] at guesses
              rw [guesses, waitsUntil, stopped]
              rfl
            · intro last' found
              rw [stopped] at found
              cases found
              exact past
            · rw [stopped]
              exact fun _ => rfl
          · have same : after.keys.guesses = before.keys.guesses := by
              cases e with
              | wrongPassword => exact absurd rfl wrong
              | _ => exact counted
            exact scheduled.idle rfl wrong same (Nat.le_trans begins later)

theorem UnlockRun.scheduled (quiet : Quiet drift) {first state : State} {attempts : List Unlocking}
    (fresh : first.keys.guesses = (0, none)) (run : UnlockRun setup drift first attempts state) : Scheduled attempts state := by
  induction run with
  | nil => exact ⟨fresh, fun _ found => (nomatch found), fun never => absurd never (Nat.lt_irrefl 0)⟩
  | cons _ logs ih => exact ih.step quiet logs

/-- The wait that a status tells. -/
def unlockWaitSecs : Task Nat := do
  let slots ← await .readKeys
  let now ← await .now
  return waitSecs slots.unlockNotBefore now

def KeySlots.Early (keys : KeySlots) (now : Instant) : Prop := ∃ last, keys.unlockNotBefore = some last ∧ now < last

theorem waitSecs_eq_zero_iff (keys : KeySlots) (now : Instant) : waitSecs keys.unlockNotBefore now = 0 ↔ ¬ keys.Early now := by
  rw [waitSecs_eq_zero]
  constructor
  · rintro past ⟨last, found, early⟩
    exact absurd (past last found) (Nat.not_le.mpr early)
  · intro due last found
    exact Nat.not_lt.mp fun early => due ⟨last, found, early⟩

theorem logs_unlockWaitSecs (quiet : Quiet drift) {seconds : Nat}
    (logs : Logs (machine setup) task drift unlockWaitSecs before events seconds after) :
    ∃ now, (readings events).head? = some now ∧ (seconds = 0 ↔ ¬ before.keys.Early now) := by
  obtain ⟨_, slots, seen, _, _, rfl, drifted, executed, logs⟩ := logs.of_call
  cases executed
  obtain ⟨_, now, _, _, rest, rfl, -, executed, logs⟩ := logs.of_call
  obtain ⟨rfl, rfl, rfl⟩ := logs.of_done
  refine ⟨now, rfl, ?_⟩
  rw [← waitSecs_eq_zero_iff]
  show waitSecs seen.keys.unlockNotBefore now = 0 ↔ _
  rw [waitSecs_congr (quiet _ _ drifted).2.1]

theorem checks_unlock (quiet : Quiet drift) (storage : setup.storage = true) (locked : before.keys.locked = true)
    (logs : Logs (machine setup) task drift (unlock setup password) before events result after) :
    ∃ start, (readings events).head? = some start ∧ (result = .error .unlockDelayed ↔ before.keys.Early start) ∧
      before.clock ≤ start := by
  cases logs_unlock quiet logs with
  | away elsewhere => exact absurd ⟨storage, locked⟩ elsewhere
  | @delayed _ start _ _ early drifted drifted' clock _ =>
      have passed := Nat.le_trans (quiet _ _ drifted).2.2 (Nat.le_trans (quiet _ _ drifted').2.2 clock)
      refine ⟨start, rfl, iff_of_true rfl ?_, passed⟩
      by_contra due
      exact absurd ((waitSecs_eq_zero_iff _ _).mpr due) (Nat.pos_iff_ne_zero.mp early)
  | @evaluated _ start _ _ due other begins _ _ =>
      exact ⟨start, rfl, iff_of_false other ((waitSecs_eq_zero_iff _ _).mp due), begins⟩

/-- After every run of unlock requests the daemon's count and wait are those of
the attempts. On a locked daemon the next request is refused exactly when it
starts before the end of the wait, does nothing then, and otherwise starts as
long after the last wrong password as the number of them demands. -/
theorem unlock_schedule (quiet : Quiet drift) {first state : State} {attempts : List Unlocking}
    (fresh : first.keys.guesses = (0, none)) (run : UnlockRun setup drift first attempts state)
    (next : Logs (machine setup) task drift (unlock setup password) state events result after) :
    state.keys.guesses = (min (wrongs attempts) (2 ^ 32 - 1), waitsUntil attempts) ∧
    (setup.storage = true → state.keys.locked = true →
      ∃ start, (readings events).head? = some start ∧
        (result = .error .unlockDelayed ↔ state.keys.Early start) ∧
        (wrongs attempts < 5 → result ≠ .error .unlockDelayed) ∧
        (5 ≤ wrongs attempts → result ≠ .error .unlockDelayed →
          ∃ stop, lastWrong attempts = some stop ∧ stop + min (2 ^ (wrongs attempts - 5)) 60 * second ≤ start)) ∧
    (result = .error .unlockDelayed → events.map Event.op = [.readKeys, .now] ∧
      ∃ seen read, drift state seen ∧ drift seen read ∧ after = { read with clock := after.clock }) ∧
    ∀ (other : Nat) (reads : List (Event sections)) (seconds : Nat) (last : State),
      Logs (machine setup) other drift unlockWaitSecs state reads seconds last →
        ∃ now, (readings reads).head? = some now ∧ (seconds = 0 ↔ ¬ state.keys.Early now) := by
  have scheduled := run.scheduled quiet fresh
  refine ⟨scheduled.guesses, fun storage locked => ?_, fun refused => ?_, fun _ _ _ _ reads => logs_unlockWaitSecs quiet reads⟩
  · obtain ⟨start, reads, refused, begins⟩ := checks_unlock quiet storage locked next
    have wait : state.keys.unlockNotBefore = waitsUntil attempts := congrArg Prod.snd scheduled.guesses
    refine ⟨start, reads, refused, fun few => ?_, fun many evaluated => ?_⟩
    · rw [ne_eq, refused]
      rintro ⟨last, found, early⟩
      rw [wait, waitsUntil, delay, if_pos few, Nat.zero_mul] at found
      obtain ⟨stop, stopped, rfl⟩ := Option.map_eq_some_iff.mp found
      exact absurd (Nat.le_trans (scheduled.past stop stopped) begins) (Nat.not_le.mpr early)
    · obtain ⟨stop, stopped⟩ := Option.isSome_iff_exists.mp (scheduled.ended (by omega))
      refine ⟨stop, stopped, ?_⟩
      by_contra early
      refine evaluated (refused.mpr ⟨stop + delay (wrongs attempts) * second, ?_, ?_⟩)
      · rw [wait, waitsUntil, stopped]
        rfl
      · rw [delay, if_neg (by omega)]
        exact Nat.not_le.mp early
  · subst refused
    cases logs_unlock quiet next with
    | away _ elsewhere => exact elsewhere.elim (fun same => nomatch same) fun same => nomatch same
    | delayed _ drifted drifted' _ ends =>
        subst ends
        exact ⟨rfl, _, _, drifted, drifted', rfl⟩
    | evaluated _ other => exact absurd rfl other

/-! ## Five wrong passwords -/

def unlockPlays (setup : Setup) (password : Bytes) : List (List Outcome) → State → Option (List (Except DaemonError Unit) × State)
  | [], state => some ([], state)
  | outcomes :: earlier, state => do
      let (results, before) ← unlockPlays setup password earlier state
      let (result, after) ← (machine setup).plays 0 outcomes (unlock setup password) before
      return (result :: results, after)

theorem unlockRun_of_plays {plays : List (List Outcome)} {first state : State} {results : List (Except DaemonError Unit)}
    (played : unlockPlays setup password plays first = some (results, state)) :
    ∃ attempts, UnlockRun setup Eq first attempts state ∧ attempts.map Unlocking.result = results := by
  induction plays generalizing results state with
  | nil =>
      cases played
      exact ⟨[], .nil, rfl⟩
  | cons outcomes earlier ih =>
      obtain ⟨⟨results', before⟩, begins, played⟩ := Option.bind_eq_some_iff.mp played
      obtain ⟨⟨result, after⟩, ends, played⟩ := Option.bind_eq_some_iff.mp played
      cases played
      obtain ⟨attempts, run, same⟩ := ih begins
      obtain ⟨events, logs⟩ := (executes_of_played (fun _ => rfl) ends).logs
      exact ⟨⟨events, result⟩ :: attempts, .cons run logs, congrArg (result :: ·) same⟩

def sealedSetup : Setup := ⟨{ Crypto.plain with aead := { Aead.plain with decrypt := fun _ _ _ _ => none } }, true, true⟩

def lockedDevice : State := { new (some (header.toList ++ List.replicate 4184 0)) (fun _ => some (List.replicate 64 1)) with
  keys := { locked := true } }

/-- A wrong password that is tried at this moment and counted a second later. -/
def wrongAt (now : Instant) : List Outcome :=
  [.done, .at (now * second), .done, .done, .done, .done, .at ((now + 1) * second), .done]

theorem unlock_schedule_fifth : ∃ attempts state events after,
    UnlockRun sealedSetup Eq lockedDevice attempts state ∧ wrongs attempts = 5 ∧
    Logs (machine sealedSetup) 0 Eq (unlock sealedSetup [120]) state events (.error .unlockDelayed) after ∧
    events.map Event.op = [.readKeys, .now] := by
  have played : (unlockPlays sealedSetup [120] ([8, 6, 4, 2, 0].map wrongAt) lockedDevice).any fun (_, state) =>
      state.keys.unlockFailures = 5 ∧ (((machine sealedSetup).plays 0 [.done, .at (9 * second + 1)] (unlock sealedSetup [120]) state).any
        fun (result, _) => result = .error .unlockDelayed) := by decide +kernel
  obtain ⟨⟨results, state⟩, played, holds⟩ := (Option.any_eq_true _ _).mp played
  obtain ⟨failures, refused⟩ := of_decide_eq_true holds
  obtain ⟨attempts, run, -⟩ := unlockRun_of_plays played
  obtain ⟨⟨_, after⟩, plays, holds⟩ := (Option.any_eq_true _ _).mp refused
  obtain rfl := of_decide_eq_true holds
  have execution := executes_of_played (M := machine sealedSetup) (fun _ => Eq.refl _) plays
  obtain ⟨events, next⟩ := execution.logs
  have quiet : Quiet Eq := by
    rintro before _ rfl
    exact ⟨rfl, rfl, Nat.le_refl _⟩
  have schedule := unlock_schedule quiet (show lockedDevice.keys.guesses = (0, none) from rfl) run next
  refine ⟨attempts, state, events, after, run, ?_, next, (schedule.2.2.1 rfl).1⟩
  have count : state.keys.unlockFailures = min (wrongs attempts) (2 ^ 32 - 1) := congrArg Prod.fst schedule.1
  omega

end Daemon

end CesaConn
