import Mathlib.Logic.Basic

/-! The clipboard task's view of the change counter, and the echo loop.

The task takes one event at a time: a poll, or an update from a paired device.
Both wait for the operating system in the middle, and the user may copy at any
moment, so the counter a poll decides on and the counter of an own write can
both be old by the time they are used.
-/

set_option autoImplicit false

namespace CesaConn

namespace Clipboard

inductive ClipTick where
  | wait
  | send
  deriving DecidableEq, Repr

structure ClipWatch where
  lastCount : Int
  pending : Bool
  deriving DecidableEq, Repr

namespace ClipWatch

def new (count : Int) : ClipWatch := ⟨count, false⟩

def tick (watch : ClipWatch) (on : Bool) (count : Int) (busy : Bool) : ClipTick × ClipWatch :=
  if count ≠ watch.lastCount then (.wait, ⟨count, on⟩)
  else if !on then (.wait, { watch with pending := false })
  else if !watch.pending || busy then (.wait, watch)
  else (.send, { watch with pending := false })

def written (watch : ClipWatch) (count : Int) : ClipWatch := { watch with lastCount := count }

theorem tick_known {watch : ClipWatch} (quiet : watch.pending = false) (on busy : Bool) :
    watch.tick on watch.lastCount busy = (.wait, watch) := by
  obtain ⟨lastCount, pending⟩ := watch
  cases quiet
  cases on <;> simp [tick]

end ClipWatch

inductive Owner where
  | localCopy
  | remoteUpdate
  deriving DecidableEq, Repr

/-- Where the task stands: between events, after reading the counter of a poll,
or after the write of an update. -/
inductive Phase where
  | idle
  | polled (count : Int)
  | wrote (count : Int)
  deriving DecidableEq, Repr

structure Desk where
  owner : Owner
  count : Int
  watch : ClipWatch
  phase : Phase
  deriving DecidableEq, Repr

def Desk.start (owner : Owner) (count : Int) : Desk := ⟨owner, count, .new count, .idle⟩

/-- What happens; a copy and a write carry the counter they move to. The switch
and a running send round are arguments of the poll. -/
inductive Event where
  | copy (count : Int)
  | poll
  | tick (on busy : Bool)
  | write (count : Int)
  | written
  deriving DecidableEq, Repr

def Desk.step (desk : Desk) : Event → Option (ClipTick × Desk)
  | .copy count => some (.wait, { desk with owner := .localCopy, count })
  | .poll =>
      match desk.phase with
      | .idle => some (.wait, { desk with phase := .polled desk.count })
      | _ => none
  | .tick on busy =>
      match desk.phase with
      | .polled count =>
          let (decision, watch) := desk.watch.tick on count busy
          some (decision, { desk with watch, phase := .idle })
      | _ => none
  | .write count =>
      match desk.phase with
      | .idle => some (.wait, { desk with owner := .remoteUpdate, count, phase := .wrote count })
      | _ => none
  | .written =>
      match desk.phase with
      | .wrote count => some (.wait, { desk with watch := desk.watch.written count, phase := .idle })
      | _ => none

/-- Reached from the start by events that all satisfy `meets` where they happen. -/
inductive Reaches (meets : Desk → Event → Prop) : Desk → Prop where
  | start (owner : Owner) (count : Int) : Reaches meets (.start owner count)
  | step {desk next : Desk} {decision : ClipTick} (event : Event) :
      Reaches meets desk → meets desk event → desk.step event = some (decision, next) → Reaches meets next

/-- An update is taken as seen only while no copy waits to be sent. -/
def nothingPending (desk : Desk) : Event → Prop
  | .written => desk.watch.pending = false
  | _ => True

/-- Content of a paired device stands on the clipboard only under a counter that
was taken as seen, and never while a copy waits to be sent. -/
def Desk.Settled (desk : Desk) : Prop :=
  match desk.phase with
  | .wrote count => desk.owner = .remoteUpdate → desk.count = count
  | .idle => desk.owner = .remoteUpdate → desk.count = desk.watch.lastCount ∧ desk.watch.pending = false
  | .polled count => desk.owner = .remoteUpdate →
      desk.count = desk.watch.lastCount ∧ desk.watch.pending = false ∧ count = desk.count

theorem settled_start (owner : Owner) (count : Int) : (Desk.start owner count).Settled :=
  fun _ => ⟨rfl, rfl⟩

theorem settled_step {desk next : Desk} {event : Event} {decision : ClipTick} (settled : desk.Settled)
    (meets : nothingPending desk event) (step : desk.step event = some (decision, next)) : next.Settled := by
  obtain ⟨owner, count, watch, phase⟩ := desk
  cases event with
  | copy moved =>
      cases step
      cases phase <;> exact fun remote => by cases remote
  | poll =>
      cases phase with
      | idle =>
          cases step
          intro remote
          obtain ⟨seen, quiet⟩ := settled remote
          exact ⟨seen, quiet, rfl⟩
      | polled | wrote => cases step
  | tick on busy =>
      cases phase with
      | polled sampled =>
          simp only [Desk.step, Option.some.injEq, Prod.mk.injEq] at step
          obtain ⟨-, rfl⟩ := step
          intro remote
          obtain ⟨seen, quiet, same⟩ := settled remote
          have known : sampled = watch.lastCount := same.trans seen
          subst known
          rw [ClipWatch.tick_known quiet]
          exact ⟨seen, quiet⟩
      | idle | wrote => cases step
  | write moved =>
      cases phase with
      | idle =>
          cases step
          exact fun _ => rfl
      | polled | wrote => cases step
  | written =>
      cases phase with
      | wrote own =>
          cases step
          exact fun remote => ⟨settled remote, meets⟩
      | idle | polled => cases step

theorem settled_reaches {desk : Desk} (reached : Reaches nothingPending desk) : desk.Settled := by
  induction reached with
  | start owner count => exact settled_start owner count
  | step _ _ meets step ih => exact settled_step ih meets step

/-- While every update is taken as seen with nothing pending, a poll only ever
sends what a local copy put on the clipboard. -/
theorem sends_local_copies {desk next : Desk} {on busy : Bool} (reached : Reaches nothingPending desk)
    (sent : desk.step (.tick on busy) = some (.send, next)) : desk.owner = .localCopy := by
  have settled := settled_reaches reached
  obtain ⟨owner, count, watch, phase⟩ := desk
  cases phase with
  | polled sampled =>
      cases owner with
      | localCopy => rfl
      | remoteUpdate =>
          obtain ⟨seen, quiet, same⟩ := settled rfl
          have known : sampled = watch.lastCount := same.trans seen
          subst known
          simp only [Desk.step, ClipWatch.tick_known quiet] at sent
          cases sent
  | idle | wrote => cases sent

/-- An update is applied; a copy after it is noticed, held still for a poll and then sent. -/
theorem sends_local_copies_updated :
    ∃ applied desk next, Reaches nothingPending applied ∧ applied.owner = .remoteUpdate ∧ applied.phase = .idle ∧
      Reaches nothingPending desk ∧ desk.step (.tick true false) = some (.send, next) ∧ desk.owner = .localCopy := by
  have applied : Reaches nothingPending ⟨.remoteUpdate, 1, ⟨1, false⟩, .idle⟩ :=
    .step .written (.step (.write 1) (.start .localCopy 0) trivial rfl) rfl rfl
  have reached : Reaches nothingPending ⟨.localCopy, 2, ⟨2, true⟩, .polled 2⟩ :=
    .step .poll (.step (.tick true false) (.step .poll (.step (.copy 2) applied trivial rfl) trivial rfl) trivial rfl)
      trivial rfl
  have sent : Desk.step ⟨.localCopy, 2, ⟨2, true⟩, .polled 2⟩ (.tick true false) =
      some (.send, ⟨.localCopy, 2, ⟨2, false⟩, .idle⟩) := rfl
  exact ⟨_, _, _, applied, rfl, rfl, reached, sent, sends_local_copies reached sent⟩

/-- The condition is needed: an update applied while a copy waits is sent back by
the next poll that finds the switch on and no round running. -/
theorem reaches_echo {meets : Desk → Event → Prop} {desk : Desk} (reached : Reaches meets desk)
    (idle : desk.phase = .idle) (pending : desk.watch.pending = true) (free : ∀ desk event, meets desk event)
    (count : Int) :
    ∃ echo next, Reaches meets echo ∧ echo.owner = .remoteUpdate ∧
      echo.step (.tick true false) = some (.send, next) := by
  obtain ⟨owner, before, ⟨lastCount, _⟩, _⟩ := desk
  cases idle
  cases pending
  refine ⟨⟨.remoteUpdate, count, ⟨count, true⟩, .polled count⟩, ⟨.remoteUpdate, count, ⟨count, false⟩, .idle⟩,
    ?_, rfl, ?_⟩
  · exact .step .poll (.step .written (.step (.write count) reached (free _ _) rfl) (free _ _) rfl) (free _ _) rfl
  · simp [Desk.step, ClipWatch.tick]

/-- An update that arrives between noticing a copy and sending it goes back out. -/
theorem sends_remote_update :
    ¬ ∀ desk next on busy, Reaches (fun _ _ => True) desk →
      desk.step (.tick on busy) = some (.send, next) → desk.owner = .localCopy := by
  intro always
  have noticed : Reaches (fun _ _ => True) ⟨.localCopy, 1, ⟨1, true⟩, .idle⟩ :=
    .step (.tick true false) (.step .poll (.step (.copy 1) (.start .localCopy 0) trivial rfl) trivial rfl)
      trivial rfl
  obtain ⟨echo, next, reached, remote, sent⟩ := reaches_echo noticed rfl rfl (fun _ _ => trivial) 2
  have copied := always echo next true false reached sent
  rw [remote] at copied
  cases copied

end Clipboard

end CesaConn
