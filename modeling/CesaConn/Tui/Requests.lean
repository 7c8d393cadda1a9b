import CesaConn.Tui.Consent
import CesaConn.Tui.Link

/-! What reaches the daemon was meant by the user, and the daemon can read it.

A password fits because the buffers do; a code because the UI shows no prompt with one
that it cannot show.
-/

set_option autoImplicit false

namespace CesaConn

open Program

namespace Tui

open Format Ipc

def Told (events : List Event) (prompt : PairingPrompt) : Prop :=
  ∃ status peers, .link (.refreshed (.ok (status, peers, some prompt))) ∈ events

theorem allowed_of_typed {update : PasswordUpdate} (some : update.password ≠ []) (fits : update.password.length ≤ inputCapacity) :
    update.Allowed :=
  ⟨List.length_pos_iff.mpr some, fits.trans (by decide)⟩

/-- The daemon takes the requests of a command that was meant. -/
theorem allowed_of_meant {before : List Event} {event : Event} {command : Command} (meant : Meant before event command)
    (shows : ∀ prompt, Told before prompt → prompt.Shown) : ∀ request ∈ Worker.makes command, request.Allowed := by
  have typed := Session.typed_run before
  have one {request : Request} (allowed : request.Allowed) : ∀ other ∈ [request], other.Allowed := by
    intro other member
    rw [List.mem_singleton.mp member]
    exact allowed
  cases command with
  | setPassword kind update =>
      obtain ⟨some, fits, -⟩ := passwords_typed typed meant.2 (update.password, _) (List.mem_singleton_self _)
      cases kind with
      | auth => exact one (allowed_of_typed some fits)
      | data => exact one (allowed_of_typed some fits)
  | unlock update =>
      obtain ⟨some, fits, -⟩ := passwords_typed typed meant.2 (update.password, _) (List.mem_singleton_self _)
      exact one (allowed_of_typed some fits)
  | joinGroup both =>
      obtain ⟨some, fits, -⟩ := passwords_typed typed meant.2 (both.auth.password, _) List.mem_cons_self
      obtain ⟨some', fits', -⟩ := passwords_typed typed meant.2 (both.data.password, _)
        (List.mem_cons_of_mem _ (List.mem_singleton_self _))
      exact one ⟨allowed_of_typed some fits, allowed_of_typed some' fits'⟩
  | answerPairing id code accept =>
      obtain ⟨prompt, earlier, status, peers, since, rfl, -, -, rfl, rfl⟩ := meant
      exact one (shows prompt ⟨status, peers, List.mem_append_right _ List.mem_cons_self⟩).1
  | refresh =>
      intro request member
      cases member with
      | head => trivial
      | tail _ member =>
          cases member with
          | head => trivial
          | tail _ member =>
              rw [List.mem_singleton.mp member]
              trivial
  | _ => exact one trivial

theorem Work.eq_of_failure {worker : Work} {event : LinkEvent} (member : event ∈ worker.failure) : event = .workerStopped := by
  cases worker with
  | failed => exact List.mem_singleton.mp member
  | _ => cases member

namespace Link

variable {link : Link}

/-- A prompt comes from an answer of the daemon that was decoded. -/
theorem Sound.prompts (sound : link.Sound) : ∀ prompt, Told link.inputs prompt → prompt.Shown := by
  intro prompt seen
  obtain ⟨status, peers, told⟩ := seen
  obtain heard | never := sound.inputs _ told
  · have member : LinkEvent.refreshed (.ok (status, peers, some prompt)) ∈
        link.finished.map Finished.event ++ link.worker.failure := by
      rw [← sound.heard]
      exact List.mem_append_left _ heard
    obtain finished | failed := List.mem_append.mp member
    · obtain ⟨entry, among, same⟩ := List.mem_map.mp finished
      have finishes := ((Worker.always_runCommand entry.command).leads (sound.finished entry among)).2
      exact Worker.shown_of_finishes (same ▸ finishes)
    · cases Work.eq_of_failure failed
  · cases never

/-- What was queued was meant by the event that queued it and can be read, and nothing else is sent. -/
structure Intended (link : Link) : Prop where
  meant : ∀ place command, (queued link.inputs)[place]? = some command →
    ∃ before event after, link.inputs = before ++ event :: after ∧ (queued before).length ≤ place ∧
      place < (queued (before ++ [event])).length ∧ Meant before event command
  read : ∀ command ∈ queued link.inputs, ∀ request ∈ Worker.makes command, Request.decode request.encode = some request
  sent : ∀ begun ∈ link.finished.map Finished.toBegun ++ link.worker.begun.toList,
    begun.command ∈ queued link.inputs ∧ ∀ sent ∈ begun.past, sent.op ∈ Worker.makes begun.command

end Link

end Tui

end CesaConn
