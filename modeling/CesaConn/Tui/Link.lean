import CesaConn.Tui.Presses
import CesaConn.Tui.Session
import CesaConn.Tui.Worker

/-! The UI and its worker, each in its own thread, with a channel either way.

The UI hands over what was queued, and takes what has been finished, without waiting.
The worker runs one command at a time; it may fail to start, and it may panic at any
moment. What is sent after that is dropped, and the UI is told that there is no link.
-/

set_option autoImplicit false

namespace CesaConn

open Program

namespace Tui

open Format Ipc

inductive Phase where
  | idle
  /-- The commands that were taken out are handed to the worker. -/
  | sending (rest : List Command)
  | receiving
  /-- The loop has returned, and dropped its ends of the channels. -/
  | over
  deriving DecidableEq

def Phase.unsent : Phase → List Command
  | .sending rest => rest
  | _ => []

structure Begun where
  command : Command
  past : List (Program.Event uplink)

structure Finished extends Begun where
  event : LinkEvent

inductive Work where
  | starting
  | waiting
  | running (begun : Begun) (rest : Proc uplink LinkEvent)
  /-- There was no runtime for it. -/
  | failed
  /-- It has returned, or panicked, maybe with a command that is not finished. -/
  | stopped (left : Option Begun)

namespace Work

def begun : Work → Option Begun
  | .running begun _ => some begun
  | .stopped left => left
  | _ => none

def alive : Work → Bool
  | .failed | .stopped _ => false
  | _ => true

/-- What a worker says that could not start. -/
def failure : Work → List LinkEvent
  | .failed => [.workerStopped]
  | _ => []

end Work

structure Link where
  app : App := .new
  /-- All that happened to the UI. -/
  inputs : List Event := []
  phase : Phase := .idle
  commands : List Command := []
  events : List LinkEvent := []
  worker : Work := .starting
  /-- The worker's ends of the channels. -/
  commandsOpen : Bool := true
  eventsOpen : Bool := true
  /-- The commands that were handed over. -/
  handed : List Command := []
  /-- Those that were not, for want of a worker. -/
  dropped : List Command := []
  finished : List Finished := []
  /-- The events that were received. -/
  heard : List LinkEvent := []

namespace Link

inductive Act where
  | key (press : KeyEvent)
  | pump (due : Bool)
  | send
  | receive
  | leave
  | begin (ok : Bool)
  | take
  | ask (reply : Except LinkErrors Bytes)
  | report
  | panic
  | release (commands : Bool)

def start : Link := {}

def input (link : Link) (event : Event) : Link :=
  { link with app := link.app.step event, inputs := link.inputs ++ [event] }

/-- The UI thread, and then the worker's. -/
def step (link : Link) : Act → Option Link
  | .key press => if link.phase = .idle ∧ link.app.shouldQuit = false then some (link.input (.key press)) else none
  | .pump due =>
      if link.phase = .idle ∧ link.app.shouldQuit = false then
        if link.app.daemon = .noLink then some link
        else
          let asked := if due then link.input .refreshDue else link
          some { asked.input .takeOutbox with phase := .sending asked.app.outbox }
      else none
  | .send =>
      match link.phase with
      | .sending [] => some { link with phase := .receiving }
      | .sending (command :: rest) =>
          if link.commandsOpen then
            some { link with
              commands := link.commands ++ [command]
              handed := link.handed ++ [command]
              phase := .sending rest }
          else
            -- the other commands are dropped with it
            some { link.input (.link .workerStopped) with
              dropped := link.dropped ++ command :: rest
              phase := .idle }
      | _ => none
  | .receive =>
      match link.phase, link.events with
      | .receiving, event :: rest =>
          let phase := match event with
            | .workerStopped => Phase.idle
            | _ => .receiving
          some { link.input (.link event) with events := rest, heard := link.heard ++ [event], phase }
      | .receiving, [] =>
          if link.eventsOpen then some { link with phase := .idle }
          else some { link.input (.link .workerStopped) with phase := .idle }
      | _, _ => none
  | .leave => if link.phase = .idle ∧ link.app.shouldQuit then some { link with phase := .over } else none
  | .begin ok =>
      match link.worker with
      | .starting =>
          if ok then some { link with worker := .waiting }
          else some { link with worker := .failed, events := link.events ++ [.workerStopped] }
      | _ => none
  | .take =>
      match link.worker, link.commands with
      | .waiting, command :: rest =>
          some { link with commands := rest, worker := .running ⟨command, []⟩ (Worker.runCommand command) }
      | .waiting, [] => if link.phase = .over then some { link with worker := .stopped none } else none
      | _, _ => none
  | .ask reply =>
      match link.worker with
      | .running begun (.call request next) =>
          some { link with worker := .running ⟨begun.command, begun.past ++ [⟨request, reply⟩]⟩ (next reply) }
      | _ => none
  | .report =>
      match link.worker with
      | .running begun (.done event) =>
          if link.phase = .over then some { link with worker := .stopped (some begun) }
          else some { link with
            worker := .waiting
            events := link.events ++ [event]
            finished := link.finished ++ [{ begun with event }] }
      | _ => none
  | .panic => if link.worker.alive then some { link with worker := .stopped link.worker.begun } else none
  | .release commands =>
      if link.worker.alive then none
      else if commands then some { link with commandsOpen := false }
      else some { link with eventsOpen := false }

def run (link : Link) : List Act → Option Link
  | [] => some link
  | act :: rest => (link.step act).bind fun next => next.run rest

inductive Reachable : Link → Prop where
  | start : Reachable .start
  | step {link next : Link} (act : Act) : Reachable link → link.step act = some next → Reachable next

end Link

/-! ## What is queued -/

/-- The app after these inputs, with the commands that were taken out of it. -/
structure Fed (inputs : List Event) (app : App) (taken : List Command) : Prop where
  now : app = (Session.start.run inputs).app
  queued : (Session.start.run inputs).queued.map Prod.fst = taken ++ app.outbox

namespace Fed

variable {inputs : List Event} {app : App} {taken : List Command}

theorem run_input (fed : Fed inputs app taken) (event : Event) :
    app.step event = (Session.start.run (inputs ++ [event])).app ∧
      (Session.start.run (inputs ++ [event])).queued.map Prod.fst =
        taken ++ app.outbox ++ (app.step event).outbox.drop app.outbox.length := by
  have next : Session.start.run (inputs ++ [event]) = (Session.start.run inputs).step event := Session.run_append _ _ _
  constructor
  · rw [next, fed.now]
    rfl
  · have added : ((Session.start.run inputs).step event).queued.map Prod.fst =
        (Session.start.run inputs).queued.map Prod.fst ++ (app.step event).outbox.drop app.outbox.length := by
      rw [fed.now, Session.step, List.map_append, List.map_map]
      exact congrArg _ (List.map_id _)
    rw [next, added, fed.queued]

theorem input (fed : Fed inputs app taken) {event : Event} (keeps : event ≠ .takeOutbox) :
    Fed (inputs ++ [event]) (app.step event) taken := by
  obtain ⟨same, queued⟩ := fed.run_input event
  have appends : app.Queues (app.step event) := by
    cases event with
    | key press => exact (App.pressed_handleInput press).queues
    | link event => exact (App.heard_handleLinkEvent event).queues
    | refreshDue => exact (App.heard_requestRefresh rfl rfl rfl rfl rfl).queues
    | takeOutbox => exact absurd rfl keeps
  obtain ⟨new, outbox, -⟩ := appends
  rw [outbox, List.drop_left] at queued
  refine ⟨same, ?_⟩
  rw [queued, outbox, List.append_assoc]

theorem take (fed : Fed inputs app taken) :
    Fed (inputs ++ [.takeOutbox]) (app.step .takeOutbox) (taken ++ app.outbox) := by
  obtain ⟨same, queued⟩ := fed.run_input .takeOutbox
  refine ⟨same, ?_⟩
  rw [queued]
  exact congrArg _ List.drop_nil

end Fed

/-! ## Every run -/

def Work.Sound : Work → Prop
  | .running begun rest => (Worker.runCommand begun.command).Leads begun.past rest
  | .stopped (some begun) => ∃ rest, (Worker.runCommand begun.command).Leads begun.past rest
  | _ => True

namespace Link

structure Sound (link : Link) : Prop where
  fed : Fed link.inputs link.app (link.handed ++ link.dropped ++ link.phase.unsent)
  dropped : link.commandsOpen = true → link.dropped = []
  handed : link.handed =
    link.finished.map (fun entry => entry.command) ++ link.worker.begun.toList.map Begun.command ++ link.commands
  heard : link.heard ++ link.events = link.finished.map Finished.event ++ link.worker.failure
  finished : ∀ entry ∈ link.finished, (Worker.runCommand entry.command).Leads entry.past (.done entry.event)
  worker : link.worker.Sound
  gone : link.worker.alive = true → link.commandsOpen = true ∧ link.eventsOpen = true
  inputs : ∀ event, .link event ∈ link.inputs → event ∈ link.heard ∨ event = .workerStopped

variable {link next : Link}

theorem sound_start : start.Sound where
  fed := ⟨rfl, rfl⟩
  dropped _ := rfl
  handed := rfl
  heard := rfl
  finished _ member := by cases member
  worker := trivial
  gone _ := ⟨rfl, rfl⟩
  inputs _ member := by cases member

namespace Sound

theorem input (sound : link.Sound) {event : Event} (keeps : event ≠ .takeOutbox)
    (heard : ∀ other, event = .link other → other ∈ link.heard ∨ other = .workerStopped) : (link.input event).Sound := by
  refine ⟨sound.fed.input keeps, sound.dropped, sound.handed, sound.heard, sound.finished, sound.worker, sound.gone, ?_⟩
  intro other member
  obtain old | new := List.mem_append.mp member
  · exact sound.inputs other old
  · exact heard other (List.mem_singleton.mp new).symm

theorem phase (sound : link.Sound) {phase : Phase} (before : link.phase.unsent = []) (after : phase.unsent = []) :
    Sound { link with phase } := by
  refine ⟨?_, sound.dropped, sound.handed, sound.heard, sound.finished, sound.worker, sound.gone, sound.inputs⟩
  have fed := sound.fed
  rw [before] at fed
  show Fed link.inputs link.app (link.handed ++ link.dropped ++ phase.unsent)
  rw [after]
  exact fed

theorem stopped (sound : link.Sound) (alive : link.worker.alive = true) :
    Sound { link with worker := .stopped link.worker.begun } := by
  refine ⟨sound.fed, sound.dropped, sound.handed, ?_, sound.finished, ?_, fun never => (by cases never), sound.inputs⟩
  · have heard := sound.heard
    cases worker : link.worker with
    | failed =>
        rw [worker] at alive
        cases alive
    | _ =>
        rw [worker] at heard
        exact heard
  · have holds := sound.worker
    cases worker : link.worker with
    | running begun rest =>
        rw [worker] at holds
        exact ⟨rest, holds⟩
    | stopped left =>
        rw [worker] at alive
        cases alive
    | _ => trivial

theorem send (sound : link.Sound) (step : link.step .send = some next) : next.Sound := by
  have fed := sound.fed
  simp only [Link.step] at step
  split at step
  · next phase =>
    cases step
    exact sound.phase (by rw [phase]; rfl) rfl
  · next command rest phase =>
    rw [phase] at fed
    split at step
    · next opened =>
      cases step
      have none := sound.dropped opened
      refine ⟨?_, sound.dropped, ?_, sound.heard, sound.finished, sound.worker, sound.gone, sound.inputs⟩
      · rw [none, List.append_nil] at fed
        show Fed link.inputs link.app (link.handed ++ [command] ++ link.dropped ++ rest)
        rw [none, List.append_nil, List.append_assoc]
        exact fed
      · show link.handed ++ [command] = _
        rw [sound.handed, List.append_assoc]
    · next closed =>
      cases step
      have told : (link.input (.link .workerStopped)).Sound := sound.input (by simp) fun other same => by
        cases same
        exact .inr rfl
      refine ⟨?_, fun opened => absurd opened closed, told.handed, told.heard, told.finished, told.worker, told.gone, told.inputs⟩
      have fed := told.fed
      have unsent : (link.input (.link .workerStopped)).phase = .sending (command :: rest) := phase
      rw [unsent, List.append_assoc] at fed
      show Fed _ _ (link.handed ++ (link.dropped ++ command :: rest) ++ [])
      rw [List.append_nil]
      exact fed
  · cases step

theorem receive (sound : link.Sound) (step : link.step .receive = some next) : next.Sound := by
  simp only [Link.step] at step
  split at step
  · next event rest phase events =>
    cases step
    have heard := sound.heard
    rw [events] at heard
    have before : Sound { link with events := rest, heard := link.heard ++ [event] } := by
      refine ⟨sound.fed, sound.dropped, sound.handed, ?_, sound.finished, sound.worker, sound.gone, ?_⟩
      · rw [← heard]
        exact List.append_assoc _ _ _
      · intro other member
        obtain old | new := sound.inputs other member
        · exact .inl (List.mem_append_left _ old)
        · exact .inr new
    have told := before.input (show Event.link event ≠ .takeOutbox by simp) fun other same => by
      cases same
      exact .inl (List.mem_append_right _ (List.mem_singleton_self _))
    refine told.phase ?_ ?_
    · show link.phase.unsent = []
      rw [phase]
      rfl
    · cases event <;> rfl
  · next phase events =>
    split at step
    · cases step
      exact sound.phase (by rw [phase]; rfl) rfl
    · cases step
      have told : (link.input (.link .workerStopped)).Sound := sound.input (by simp) fun other same => by
        cases same
        exact .inr rfl
      refine told.phase ?_ rfl
      show link.phase.unsent = []
      rw [phase]
      rfl
  · cases step

theorem pump {due : Bool} (sound : link.Sound) (step : link.step (.pump due) = some next) : next.Sound := by
  simp only [Link.step] at step
  split at step
  · next idle =>
    split at step
    · cases step
      exact sound
    · cases step
      have refreshed : (if due then link.input .refreshDue else link).Sound ∧
          (if due then link.input .refreshDue else link).phase = .idle := by
        cases due with
        | true => exact ⟨sound.input (by simp) fun _ same => (by cases same), idle.1⟩
        | false => exact ⟨sound, idle.1⟩
      obtain ⟨sound, phase⟩ := refreshed
      generalize (if due then link.input .refreshDue else link) = link at sound phase
      have fed := sound.fed
      rw [phase] at fed
      refine ⟨?_, sound.dropped, sound.handed, sound.heard, sound.finished, sound.worker, sound.gone, ?_⟩
      · have taken := fed.take
        rw [show Phase.idle.unsent = [] from rfl, List.append_nil] at taken
        exact taken
      · intro other member
        obtain old | new := List.mem_append.mp member
        · exact sound.inputs other old
        · cases List.mem_singleton.mp new
  · cases step

theorem begin {ok : Bool} (sound : link.Sound) (step : link.step (.begin ok) = some next) : next.Sound := by
  simp only [Link.step] at step
  split at step
  · next starting =>
    have handed := sound.handed
    have heard := sound.heard
    rw [starting] at handed heard
    have opened := sound.gone (by rw [starting]; rfl)
    split at step
    · cases step
      exact ⟨sound.fed, sound.dropped, handed, heard, sound.finished, trivial, fun _ => opened, sound.inputs⟩
    · cases step
      refine ⟨sound.fed, sound.dropped, handed, ?_, sound.finished, trivial, fun never => (by cases never), sound.inputs⟩
      show link.heard ++ (link.events ++ [.workerStopped]) = _
      rw [← List.append_assoc, heard]
      exact congrArg (· ++ [LinkEvent.workerStopped]) (List.append_nil _)
  · cases step

theorem take (sound : link.Sound) (step : link.step .take = some next) : next.Sound := by
  simp only [Link.step] at step
  split at step
  · next command rest waiting commands =>
    cases step
    have handed := sound.handed
    have heard := sound.heard
    rw [waiting] at handed heard
    rw [commands] at handed
    refine ⟨sound.fed, sound.dropped, ?_, heard, sound.finished, .here _, fun _ => sound.gone (by rw [waiting]; rfl), sound.inputs⟩
    show link.handed = _ ++ [command] ++ rest
    rw [handed, List.append_assoc, List.append_assoc]
    rfl
  · next waiting commands =>
    split at step
    · cases step
      have stopped := sound.stopped (by rw [waiting]; rfl)
      rw [waiting] at stopped
      exact stopped
    · cases step
  · cases step

theorem ask {reply : Except LinkErrors Bytes} (sound : link.Sound) (step : link.step (.ask reply) = some next) : next.Sound := by
  simp only [Link.step] at step
  split at step
  · next begun request rest running =>
    cases step
    have handed := sound.handed
    have heard := sound.heard
    have leads := sound.worker
    rw [running] at handed heard leads
    exact ⟨sound.fed, sound.dropped, handed, heard, sound.finished, Proc.Leads.append leads (.step (.here _)),
      fun _ => sound.gone (by rw [running]; rfl), sound.inputs⟩
  · cases step

theorem report (sound : link.Sound) (step : link.step .report = some next) : next.Sound := by
  simp only [Link.step] at step
  split at step
  · next begun event running =>
    split at step
    · cases step
      have stopped := sound.stopped (by rw [running]; rfl)
      rw [running] at stopped
      exact stopped
    · cases step
      have handed := sound.handed
      have heard := sound.heard
      have leads := sound.worker
      rw [running] at handed heard leads
      refine ⟨sound.fed, sound.dropped, ?_, ?_, ?_, trivial, fun _ => sound.gone (by rw [running]; rfl), sound.inputs⟩
      · show link.handed = (link.finished ++ [({ begun with event } : Finished)]).map (fun entry => entry.command) ++ [] ++ link.commands
        rw [handed, List.map_append, List.append_nil]
        rfl
      · show link.heard ++ (link.events ++ [event]) = (link.finished ++ [({ begun with event } : Finished)]).map Finished.event ++ []
        rw [← List.append_assoc, heard, List.map_append, List.append_nil]
        exact congrArg (· ++ [event]) (List.append_nil _)
      · intro entry member
        obtain old | new := List.mem_append.mp member
        · exact sound.finished entry old
        · rw [List.mem_singleton.mp new]
          exact leads
  · cases step

end Sound

theorem sound_step {act : Act} (sound : link.Sound) (step : link.step act = some next) : next.Sound := by
  cases act with
  | key press =>
      simp only [Link.step] at step
      split at step
      · cases step
        exact sound.input (by simp) fun _ same => by cases same
      · cases step
  | pump due => exact sound.pump step
  | send => exact sound.send step
  | receive => exact sound.receive step
  | leave =>
      simp only [Link.step] at step
      split at step
      · next idle =>
        cases step
        exact sound.phase (by rw [idle.1]; rfl) rfl
      · cases step
  | begin ok => exact sound.begin step
  | take => exact sound.take step
  | ask reply => exact sound.ask step
  | report => exact sound.report step
  | panic =>
      simp only [Link.step] at step
      split at step
      · next alive =>
        cases step
        exact sound.stopped alive
      · cases step
  | release commands =>
      simp only [Link.step] at step
      split at step
      · cases step
      · next dead =>
        split at step
        · cases step
          exact ⟨sound.fed, fun never => (by cases never), sound.handed, sound.heard, sound.finished, sound.worker,
            fun alive => absurd alive dead, sound.inputs⟩
        · cases step
          exact ⟨sound.fed, sound.dropped, sound.handed, sound.heard, sound.finished, sound.worker,
            fun alive => absurd alive dead, sound.inputs⟩

theorem Reachable.sound (reachable : Reachable link) : link.Sound := by
  induction reachable with
  | start => exact sound_start
  | step act _ step ih => exact sound_step ih step

theorem Reachable.run {acts : List Act} (reachable : Reachable link) (ran : link.run acts = some next) : Reachable next := by
  induction acts generalizing link with
  | nil =>
      cases ran
      exact reachable
  | cons act rest ih =>
      obtain ⟨middle, stepped, later⟩ := Option.bind_eq_some_iff.mp ran
      exact ih (.step act reachable stepped) later

theorem Sound.begins (sound : link.Sound) : ∀ begun ∈ link.worker.begun, Worker.Begins begun.command begun.past := by
  intro begun member
  have leads := sound.worker
  cases worker : link.worker with
  | running begun' rest =>
      rw [worker] at member leads
      cases member
      exact (Worker.always_runCommand _).begins leads
  | stopped left =>
      rw [worker] at member leads
      obtain rfl : left = some begun := member
      obtain ⟨rest, leads⟩ := leads
      exact (Worker.always_runCommand _).begins leads
  | _ =>
      rw [worker] at member
      cases member

/-- Every command is in one place, in the order in which they were queued, and so is
every event. -/
structure InOrder (link : Link) : Prop where
  queued : (Session.start.run link.inputs).queued.map Prod.fst =
    link.finished.map (fun entry => entry.command) ++ link.worker.begun.toList.map Begun.command ++ link.commands ++
      link.dropped ++ link.phase.unsent ++ link.app.outbox
  /-- The UI drops nothing while there is a worker. -/
  dropped : link.worker.alive = true → link.dropped = []
  heard : link.heard ++ link.events = link.finished.map Finished.event ++ link.worker.failure
  begun : ∀ begun ∈ link.worker.begun, Worker.Begins begun.command begun.past
  finished : ∀ entry ∈ link.finished,
    Worker.Begins entry.command entry.past ∧ Worker.Finishes entry.command entry.past entry.event

/-- No command is lost, run twice or overtaken, and each one that is run gets one answer. -/
theorem commands_in_order (reachable : Reachable link) : link.InOrder := by
  have sound := reachable.sound
  constructor
  · rw [sound.fed.queued, sound.handed]
  · exact fun alive => sound.dropped (sound.gone alive).1
  · exact sound.heard
  · exact sound.begins
  · exact fun entry member => (Worker.always_runCommand entry.command).leads (sound.finished entry member)

def unanswered : List Act :=
  [.pump true, .send, .begin true, .take, .ask (.error .failedToConnect), .report, .send, .receive, .receive]

theorem commands_in_order_unanswered :
    ∃ link, start.run unanswered = some link ∧ link.heard = [.refreshed (.error .failedToConnect)] ∧ link.InOrder :=
  ⟨_, rfl, rfl, commands_in_order (@Reachable.run start _ unanswered .start rfl)⟩

end Link

end Tui

end CesaConn
