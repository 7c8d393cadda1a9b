import CesaConn.Tui.Link

/-! One refresh at a time.

The UI asks for a refresh again and again, but never for a second one before the answer
to the first. The flag for that is down again once the answer has come.
-/

set_option autoImplicit false

namespace CesaConn

open Program

namespace Tui

open Format Ipc

def Work.refreshing : Work → Nat
  | .running begun _ => if begun.command = .refresh then 1 else 0
  | _ => 0

namespace Link

/-- The refreshes under way: asked for, being run, or answered and not yet received. -/
def refreshes (link : Link) : Nat :=
  (link.phase.unsent ++ link.commands ++ link.app.outbox).count .refresh + link.worker.refreshing +
    link.events.countP LinkEvent.isRefreshed

def tally (unsent commands outbox : List Command) (worker : Work) (events : List LinkEvent) : Nat :=
  unsent.count .refresh + commands.count .refresh + outbox.count .refresh + worker.refreshing +
    events.countP LinkEvent.isRefreshed

/-- What the flag counts is under way, or was lost with the worker. -/
def Counted (link : Link) : Prop :=
  ∃ lost, link.refreshes + lost = link.app.refreshInFlight.toNat ∧ (link.worker.alive = true → lost = 0)

variable {link next : Link}

theorem refreshes_eq (link : Link) :
    link.refreshes = tally link.phase.unsent link.commands link.app.outbox link.worker link.events := by
  rw [refreshes, List.count_append, List.count_append]
  rfl

/-- Something is lost only where nobody is left to run it. -/
theorem Counted.less (counted : link.Counted) (same : next.app.refreshInFlight = link.app.refreshInFlight)
    (fewer : next.refreshes ≤ link.refreshes) (keeps : next.worker.alive = true →
      link.worker.alive = true ∧ next.refreshes = link.refreshes) : next.Counted := by
  obtain ⟨lost, sum, none⟩ := counted
  refine ⟨lost + (link.refreshes - next.refreshes), ?_, fun alive => ?_⟩
  · rw [same]
    omega
  · obtain ⟨before, all⟩ := keeps alive
    rw [none before, all]
    omega

theorem Counted.same (counted : link.Counted) (flag : next.app.refreshInFlight = link.app.refreshInFlight)
    (refreshes : next.refreshes = link.refreshes) (worker : next.worker.alive = true → link.worker.alive = true) :
    next.Counted :=
  counted.less flag (Nat.le_of_eq refreshes) fun alive => ⟨worker alive, refreshes⟩

end Link

namespace App

variable {app after : App}

theorem switchCommand_ne_refresh {label : String} {on : Bool} {command : Command}
    (pressed : switchCommand label on = some command) : command ≠ .refresh := by
  unfold switchCommand at pressed
  split at pressed
  · cases pressed
    simp
  · split at pressed
    · cases pressed
      simp
    · split at pressed
      · cases pressed
        simp
      · cases pressed

theorem Sends.ne_refresh {code : KeyCode} {command : Command} (sends : app.Sends code command) : command ≠ .refresh := by
  cases sends with
  | switch setting on command none enter shown kind unwarned pressed => exact switchCommand_ne_refresh pressed
  | _ => simp

/-- The flag goes up with each refresh that is asked for. -/
def Balanced (app after : App) : Prop :=
  after.outbox.count .refresh + app.refreshInFlight.toNat = app.outbox.count .refresh + after.refreshInFlight.toNat

theorem Presses.balanced {code : KeyCode} (presses : Presses app after code) : Balanced app after := by
  rw [Balanced, presses.refresh]
  obtain same | ⟨command, outbox, sends⟩ := presses.sent
  · rw [same]
  · rw [outbox, List.count_append, List.count_singleton, if_neg (by simpa using sends.ne_refresh)]
    omega

theorem Asks.balanced (asks : Asks app after) : Balanced app after := by
  cases asks with
  | nothing outbox flight => rw [Balanced, outbox, flight]
  | refresh idle outbox flight =>
      rw [Balanced, outbox, flight, idle, List.count_append, List.count_singleton_self]
      exact (Nat.add_zero _)

end App

/-! ## Every run -/

namespace Link

variable {link next : Link}

theorem Counted.input (counted : link.Counted) {event : Event} (balanced : App.Balanced link.app (link.app.step event)) :
    (link.input event).Counted := by
  obtain ⟨lost, sum, none⟩ := counted
  refine ⟨lost, ?_, none⟩
  rw [refreshes_eq] at sum ⊢
  show tally link.phase.unsent link.commands (link.app.step event).outbox link.worker link.events + lost =
    (link.app.step event).refreshInFlight.toNat
  unfold App.Balanced at balanced
  unfold tally at sum ⊢
  omega

/-- What is not the answer to a refresh leaves the count, or asks for a new one. -/
theorem Counted.told (counted : link.Counted) {event : LinkEvent} (other : event.isRefreshed = false) :
    (link.input (.link event)).Counted := by
  have asks : App.Asks link.app (link.app.step (.link event)) := App.told_handleLinkEvent event |>.asks fun result same => by
    rw [same] at other
    cases other
  exact counted.input asks.balanced

theorem Counted.refreshed (counted : link.Counted) {result : Except LinkErrors Worker.Refresh} {rest : List LinkEvent}
    (events : link.events = .refreshed result :: rest) : Counted { link.input (.link (.refreshed result)) with events := rest } := by
  obtain ⟨outbox, lowered⟩ := (@App.told_handleLinkEvent link.app (.refreshed result)).refreshed result rfl
  obtain ⟨lost, sum, none⟩ := counted
  refine ⟨0, ?_, fun _ => rfl⟩
  have bound : link.app.refreshInFlight.toNat ≤ 1 := Bool.toNat_le _
  rw [refreshes_eq, events, tally, List.countP_cons_of_pos rfl] at sum
  rw [refreshes_eq]
  show tally link.phase.unsent link.commands (link.app.handleLinkEvent (.refreshed result)).outbox link.worker rest + 0 =
    (link.app.handleLinkEvent (.refreshed result)).refreshInFlight.toNat
  rw [outbox, lowered, tally]
  show _ = 0
  omega

theorem counted_start : start.Counted := ⟨0, rfl, fun _ => rfl⟩

theorem Counted.pump {due : Bool} (counted : link.Counted) (step : link.step (.pump due) = some next) : next.Counted := by
  simp only [Link.step] at step
  split at step
  · next idle =>
    split at step
    · cases step
      exact counted
    · cases step
      have asked : (if due then link.input .refreshDue else link).Counted ∧
          (if due then link.input .refreshDue else link).phase = .idle := by
        cases due with
        | true => exact ⟨counted.input App.asks_requestRefresh.balanced, idle.1⟩
        | false => exact ⟨counted, idle.1⟩
      obtain ⟨counted, phase⟩ := asked
      generalize (if due then link.input .refreshDue else link) = link at counted phase
      refine counted.same rfl ?_ id
      -- what was in the outbox is now to be sent
      rw [refreshes_eq, refreshes_eq, phase]
      show tally link.app.outbox link.commands [] link.worker link.events =
        tally [] link.commands link.app.outbox link.worker link.events
      simp only [tally, List.count_nil]
      omega
  · cases step

theorem Counted.send (counted : link.Counted) (sound : link.Sound) (step : link.step .send = some next) : next.Counted := by
  simp only [Link.step] at step
  split at step
  · next phase =>
    cases step
    refine counted.same rfl ?_ id
    rw [refreshes_eq, refreshes_eq, phase]
    rfl
  · next command rest phase =>
    split at step
    · cases step
      refine counted.same rfl ?_ id
      rw [refreshes_eq, refreshes_eq, phase]
      show tally rest (link.commands ++ [command]) link.app.outbox link.worker link.events =
        tally (command :: rest) link.commands link.app.outbox link.worker link.events
      simp only [tally, List.count_append, List.count_cons, List.count_nil]
      omega
    · next closed =>
      cases step
      have dead : link.worker.alive ≠ true := fun alive => closed (sound.gone alive).1
      refine (@Counted.told _ counted .workerStopped rfl).less rfl ?_ fun alive => absurd alive dead
      rw [refreshes_eq, refreshes_eq]
      show tally [] link.commands (link.app.step (.link .workerStopped)).outbox link.worker link.events ≤
        tally link.phase.unsent link.commands (link.app.step (.link .workerStopped)).outbox link.worker link.events
      simp only [tally, List.count_nil]
      omega
  · cases step

theorem Counted.receive (counted : link.Counted) (step : link.step .receive = some next) : next.Counted := by
  have phases {link : Link} {phase : Phase} (counted : link.Counted) (before : link.phase.unsent = [])
      (after : phase.unsent = []) : Counted { link with phase } := by
    refine counted.same rfl ?_ id
    rw [refreshes_eq, refreshes_eq, before, after]
  simp only [Link.step] at step
  split at step
  · next event rest phase events =>
    have unsent : link.phase.unsent = [] := by
      rw [phase]
      rfl
    have heard {heard : List LinkEvent} (counted : link.Counted) : Counted { link with heard } := counted
    by_cases refreshed : event.isRefreshed = true
    · cases event with
      | refreshed result =>
          cases step
          exact phases (@Counted.refreshed { link with heard := link.heard ++ [.refreshed result] } counted result rest events)
            unsent rfl
      | _ => cases refreshed
    · have other : event.isRefreshed = false := Bool.not_eq_true _ ▸ refreshed
      have popped : Counted { link with events := rest, heard := link.heard ++ [event] } := by
        refine counted.same rfl ?_ id
        rw [refreshes_eq, refreshes_eq, events, tally, tally, List.countP_cons_of_neg refreshed]
      cases step
      refine phases (popped.told other) unsent ?_
      cases event <;> rfl
  · next phase events =>
    have unsent : link.phase.unsent = [] := by
      rw [phase]
      rfl
    split at step
    · cases step
      exact phases counted unsent rfl
    · cases step
      exact phases (@Counted.told _ counted .workerStopped rfl) unsent rfl
  · cases step

theorem Counted.stopped {left : Option Begun} (counted : link.Counted) : Counted { link with worker := .stopped left } := by
  refine counted.less rfl ?_ fun never => (by cases never)
  rw [refreshes_eq, refreshes_eq]
  show tally link.phase.unsent link.commands link.app.outbox (.stopped left) link.events ≤
    tally link.phase.unsent link.commands link.app.outbox link.worker link.events
  simp only [tally, Work.refreshing]
  omega

theorem Counted.begin {ok : Bool} (counted : link.Counted) (step : link.step (.begin ok) = some next) : next.Counted := by
  simp only [Link.step] at step
  split at step
  · next starting =>
    split at step
    · cases step
      refine counted.same rfl ?_ fun _ => by rw [starting]; rfl
      rw [refreshes_eq, refreshes_eq, starting]
      rfl
    · cases step
      refine counted.less rfl (Nat.le_of_eq ?_) fun never => by cases never
      rw [refreshes_eq, refreshes_eq, starting]
      show tally _ _ _ _ (link.events ++ [.workerStopped]) = _
      simp only [tally, List.countP_append]
      rfl
  · cases step

theorem Counted.take (counted : link.Counted) (step : link.step .take = some next) : next.Counted := by
  simp only [Link.step] at step
  split at step
  · next command rest waiting commands =>
    cases step
    refine counted.same rfl ?_ fun _ => by rw [waiting]; rfl
    rw [refreshes_eq, refreshes_eq, waiting, commands]
    show tally link.phase.unsent rest link.app.outbox (.running ⟨command, []⟩ _) link.events =
      tally link.phase.unsent (command :: rest) link.app.outbox .waiting link.events
    simp only [tally, List.count_cons, Work.refreshing, beq_iff_eq]
    omega
  · split at step
    · cases step
      exact counted.stopped
    · cases step
  · cases step

theorem Counted.ask {reply : Except LinkErrors Bytes} (counted : link.Counted) (step : link.step (.ask reply) = some next) :
    next.Counted := by
  simp only [Link.step] at step
  split at step
  · next begun request rest running =>
    cases step
    refine counted.same rfl ?_ fun _ => by rw [running]; rfl
    rw [refreshes_eq, refreshes_eq, running]
    rfl
  · cases step

theorem Counted.report (counted : link.Counted) (sound : link.Sound) (step : link.step .report = some next) : next.Counted := by
  simp only [Link.step] at step
  split at step
  · next begun event running =>
    split at step
    · cases step
      exact counted.stopped
    · cases step
      have leads := sound.worker
      rw [running] at leads
      have answers := Worker.isRefreshed_of_finishes ((Worker.always_runCommand begun.command).leads leads).2
      refine counted.same rfl ?_ fun _ => by rw [running]; rfl
      rw [refreshes_eq, refreshes_eq, running]
      show tally link.phase.unsent link.commands link.app.outbox .waiting (link.events ++ [event]) =
        tally link.phase.unsent link.commands link.app.outbox (.running begun _) link.events
      simp only [tally, List.countP_append, List.countP_singleton, Work.refreshing, answers]
      omega
  · cases step

theorem counted_step {act : Act} (counted : link.Counted) (sound : link.Sound) (step : link.step act = some next) :
    next.Counted := by
  cases act with
  | key press =>
      simp only [Link.step] at step
      split at step
      · cases step
        exact counted.input (App.presses_handleInput press).balanced
      · cases step
  | pump due => exact counted.pump step
  | send => exact counted.send sound step
  | receive => exact counted.receive step
  | leave =>
      simp only [Link.step] at step
      split at step
      · next idle =>
        cases step
        refine counted.same rfl ?_ id
        rw [refreshes_eq, refreshes_eq, idle.1]
        rfl
      · cases step
  | begin ok => exact counted.begin step
  | take => exact counted.take step
  | ask reply => exact counted.ask step
  | report => exact counted.report sound step
  | panic =>
      simp only [Link.step] at step
      split at step
      · cases step
        exact counted.stopped
      · cases step
  | release commands =>
      simp only [Link.step] at step
      split at step
      · cases step
      · split at step
        · cases step
          exact counted
        · cases step
          exact counted

theorem Reachable.counted (reachable : Reachable link) : link.Counted := by
  induction reachable with
  | start => exact counted_start
  | step act before step ih => exact counted_step ih before.sound step

/-- There is never a second refresh under way; and while there is a worker the flag is up
exactly as long as there is one. -/
theorem one_refresh (reachable : Reachable link) : link.refreshes ≤ 1 ∧
    (link.worker.alive = true → (link.app.refreshInFlight = true ↔ link.refreshes = 1)) := by
  obtain ⟨lost, sum, none⟩ := reachable.counted
  cases flag : link.app.refreshInFlight with
  | true =>
      rw [flag] at sum
      have one : link.refreshes + lost = 1 := sum
      refine ⟨by omega, fun alive => ?_⟩
      have all := none alive
      exact ⟨fun _ => by omega, fun _ => rfl⟩
  | false =>
      rw [flag] at sum
      have empty : link.refreshes + lost = 0 := sum
      refine ⟨by omega, fun _ => iff_of_false Bool.false_ne_true ?_⟩
      omega

theorem one_refresh_unanswered : ∃ link, start.run (unanswered.take 5) = some link ∧ link.refreshes ≤ 1 ∧
    (link.worker.alive = true → (link.app.refreshInFlight = true ↔ link.refreshes = 1)) :=
  ⟨_, rfl, one_refresh (@Reachable.run start _ (unanswered.take 5) .start rfl)⟩

end Link

end Tui

end CesaConn
