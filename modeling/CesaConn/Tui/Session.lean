import CesaConn.Tui.Moves

/-! Runs of the UI, with what has been typed and asked.

A session adds to the state what the user did: the keys since the popup last changed,
whether a question was answered to get to it, and what was known of the daemon then.
Every command that was queued is kept, with what had happened when it was.
-/

set_option autoImplicit false

namespace CesaConn

namespace Tui

open Format Ipc
open Daemon (KeyKind)

structure Ghost where
  /-- Typed since the popup last changed. -/
  keys : List KeyCode := []
  /-- Typed into the first step of a join, in its second. -/
  authKeys : List KeyCode := []
  /-- The key whose question was answered with y to get to this popup. -/
  asked : Option KeyKind := none
  /-- What the UI knew of the daemon when a popup was last opened from none. -/
  opened : DaemonState := .unknown
  /-- The last status received. -/
  last : Option Status := none

def Ghost.next (ghost : Ghost) (before after : App) (event : Event) : Ghost where
  keys := if after.activePopup = before.activePopup then ghost.keys ++ event.typed else []
  authKeys :=
    if after.activePopup = before.activePopup then ghost.authKeys
    else if before.activePopup = .joinGroup .auth ∧ after.activePopup = .joinGroup .data then ghost.keys
    else []
  asked :=
    if after.activePopup = before.activePopup then ghost.asked
    else match before.activePopup, event with
      | .confirmPasswordChange kind, .key press => if App.isYes press.code then some kind else none
      | _, _ => none
  opened := if before.activePopup = .none ∧ after.activePopup ≠ .none then before.daemon else ghost.opened
  last := match event with
    | .link (.refreshed (.ok (status, _, _))) => some status
    | _ => ghost.last

structure Session where
  app : App
  ghost : Ghost
  queued : List (Command × Ghost)

def Session.start : Session := ⟨.new, {}, []⟩

def Session.step (session : Session) (event : Event) : Session :=
  let after := session.app.step event
  { app := after
    ghost := session.ghost.next session.app after event
    queued := session.queued ++ (after.outbox.drop session.app.outbox.length).map fun command => (command, session.ghost) }

def Session.run (session : Session) (events : List Event) : Session := events.foldl Session.step session

theorem Session.run_append (session : Session) (first rest : List Event) :
    session.run (first ++ rest) = (session.run first).run rest := List.foldl_append

/-- What holds at the start and survives every event holds after every run. -/
theorem Session.run_induction {P : Session → Prop} {session : Session} (start : P session)
    (step : ∀ session event, P session → P (session.step event)) (events : List Event) : P (session.run events) := by
  induction events generalizing session with
  | nil => exact start
  | cons event rest ih => exact ih (step session event start)

/-! ## What a run queues -/

namespace Session

theorem mem_queued_step {session : Session} {event : Event} {entry : Command × Ghost}
    (member : entry ∈ (session.step event).queued) :
    entry ∈ session.queued ∨ session.app.Says entry.1 ∧ entry.2 = session.ghost := by
  simp only [step, List.mem_append, List.mem_map] at member
  obtain old | ⟨command, new, rfl⟩ := member
  · exact .inl old
  · right
    obtain ⟨commands, added, holds⟩ | empty := session.app.queues_step event
    · rw [added, List.drop_left] at new
      exact ⟨holds command new, rfl⟩
    · rw [empty, List.drop_nil] at new
      cases new

/-- What holds of every command in the state in which it is queued holds of every
command that was queued. -/
theorem queued_induction {P : Session → Prop} {R : Command → Ghost → Prop} (start : P .start)
    (step : ∀ session event, P session → P (session.step event))
    (holds : ∀ session command, P session → session.app.Says command → R command session.ghost) (events : List Event) :
    ∀ entry ∈ (Session.start.run events).queued, R entry.1 entry.2 := by
  have both : P (Session.start.run events) ∧ ∀ entry ∈ (Session.start.run events).queued, R entry.1 entry.2 := by
    refine run_induction (P := fun session => P session ∧ ∀ entry ∈ session.queued, R entry.1 entry.2)
      ⟨start, fun _ member => by cases member⟩ ?_ events
    rintro session event ⟨before, queued⟩
    refine ⟨step session event before, fun entry member => ?_⟩
    obtain old | ⟨said, same⟩ := mem_queued_step member
    · exact queued entry old
    · rw [same]
      exact holds session entry.1 before said
  exact both.2

theorem queued_of_outbox (events : List Event) :
    ∀ command ∈ (start.run events).app.outbox, ∃ ghost, (command, ghost) ∈ (start.run events).queued := by
  apply run_induction (P := fun session => ∀ command ∈ session.app.outbox, ∃ ghost, (command, ghost) ∈ session.queued)
  · exact fun _ member => by cases member
  · intro session event before command member
    obtain ⟨commands, added, -⟩ | empty := session.app.queues_step event
    · have after : (session.step event).queued = session.queued ++ commands.map fun command => (command, session.ghost) := by
        rw [step, added, List.drop_left]
      rw [after]
      have outbox : (session.step event).app.outbox = session.app.outbox ++ commands := added
      rw [outbox, List.mem_append] at member
      obtain old | new := member
      · obtain ⟨ghost, queued⟩ := before command old
        exact ⟨ghost, List.mem_append_left _ queued⟩
      · exact ⟨session.ghost, List.mem_append_right _ (List.mem_map_of_mem new)⟩
    · have outbox : (session.step event).app.outbox = [] := empty
      rw [outbox] at member
      cases member

end Session

end Tui

end CesaConn
