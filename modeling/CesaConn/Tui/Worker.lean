import CesaConn.Ipc.Socket

/-! One command of the UI, run by the worker against the daemon.

Sending a request is one operation here: what comes back is the body of an answer, or
the error that there is none.
-/

set_option autoImplicit false

namespace CesaConn

open Program

namespace Tui

open Format Ipc

abbrev uplink : Signature where
  Op := Request
  Reply _ := Except LinkErrors Bytes

def LinkEvent.isRefreshed : LinkEvent → Bool
  | .refreshed _ => true
  | _ => false

namespace Worker

open Attempt

def responseOf (request : Request) (reply : Except LinkErrors Bytes) : Except LinkErrors Response :=
  reply.bind fun body => (Response.decode request body).mapError Socket.ofIpc

def send (request : Request) : Attempt uplink LinkErrors Response := do
  let reply ← perform (I := uplink) request
  ExceptT.mk (.done (responseOf request reply))

def onlyDone : Response → Attempt uplink LinkErrors Unit
  | .done => pure ()
  | _ => throw .malformed

def sendDone (request : Request) : Attempt uplink LinkErrors Unit := do
  onlyDone (← send request)

def onlyStatus : Response → Attempt uplink LinkErrors Status
  | .status status => pure status
  | _ => throw .malformed

def onlyPeers : Response → Attempt uplink LinkErrors (List PeerInfo)
  | .peers peers => pure peers
  | _ => throw .malformed

def onlyPairing : Response → Attempt uplink LinkErrors (Option PairingPrompt)
  | .pairing pairing => pure pairing
  | _ => throw .malformed

abbrev Refresh := Status × List PeerInfo × Option PairingPrompt

/-- The waiting pairing is asked for only if the status says that there is one. -/
def refresh : Attempt uplink LinkErrors Refresh := do
  let status ← onlyStatus (← send .status)
  let peers ← onlyPeers (← send .listPeers)
  if 0 < status.pendingPairings then
    let pairing ← onlyPairing (← send .pendingPairing)
    return (status, peers, pairing)
  else return (status, peers, none)

/-- What a command sends, and how its outcome is reported; a refresh is none of these. -/
def requestOf : Command → Option (Request × (Except LinkErrors Unit → LinkEvent))
  | .refresh => none
  | .setPassword .auth update => some (.setAuthPassword update, .passwordSet .auth)
  | .setPassword .data update => some (.setDataPassword update, .passwordSet .data)
  | .unlock update => some (.unlock update, .unlocked)
  | .setAutoLogin on => some (.setAutoLogin on, .autoLoginSet on)
  | .setSync on => some (.setSync on, .syncSet on)
  | .setClipboard on => some (.setClipboard on, .clipboardSet on)
  | .addDevice => some (.addDevice, .addDeviceStarted)
  | .answerPairing id code accept => some (.answerPairing id code accept, .pairingAnswered accept)
  | .joinGroup passwords => some (.joinGroup passwords, .joinStarted)
  | .cancelJoin => some (.cancelJoin, .joinCancelled)
  | .stopAddDevice => some (.stopAddDevice, .addDeviceStopped)
  | .forgetPeer fingerprint => some (.forgetPeer fingerprint, .peerForgotten)
  | .resetDevice => some (.resetDevice, .deviceReset)

def runCommand (command : Command) : Proc uplink LinkEvent :=
  match requestOf command with
  | none => refresh.run >>= fun result => .done (.refreshed result)
  | some (request, report) => (sendDone request).run >>= fun result => .done (report result)

/-! ## What a command comes to -/

/-- The requests of a command, in order; one that fails is the last. -/
def makes (command : Command) : List Request :=
  (requestOf command).elim [.status, .listPeers, .pendingPairing] fun entry => [entry.1]

def asDone : Response → Option Unit
  | .done => some ()
  | _ => none

def asStatus : Response → Option Status
  | .status status => some status
  | _ => none

def asPeers : Response → Option (List PeerInfo)
  | .peers peers => some peers
  | _ => none

def asPairing : Response → Option (Option PairingPrompt)
  | .pairing pairing => some pairing
  | _ => none

/-- What came back for a request, where one kind of response is expected. -/
def readAs {A : Type} (kind : Response → Option A) (request : Request) (reply : Except LinkErrors Bytes) : Except LinkErrors A :=
  (responseOf request reply).bind fun response => (kind response).elim (.error .malformed) .ok

/-- What a refresh comes to that has asked this: the first failure, or all that was read. -/
inductive Refreshed : List (Program.Event uplink) → Except LinkErrors Refresh → Prop where
  | noStatus {first : Except LinkErrors Bytes} {error : LinkErrors} (failed : readAs asStatus .status first = .error error) :
      Refreshed [⟨.status, first⟩] (.error error)
  | noPeers {first second : Except LinkErrors Bytes} {status : Status} {error : LinkErrors}
      (said : readAs asStatus .status first = .ok status) (failed : readAs asPeers .listPeers second = .error error) :
      Refreshed [⟨.status, first⟩, ⟨.listPeers, second⟩] (.error error)
  | idle {first second : Except LinkErrors Bytes} {status : Status} {peers : List PeerInfo}
      (said : readAs asStatus .status first = .ok status) (listed : readAs asPeers .listPeers second = .ok peers)
      (none : ¬ 0 < status.pendingPairings) :
      Refreshed [⟨.status, first⟩, ⟨.listPeers, second⟩] (.ok (status, peers, .none))
  | noPairing {first second third : Except LinkErrors Bytes} {status : Status} {peers : List PeerInfo} {error : LinkErrors}
      (said : readAs asStatus .status first = .ok status) (listed : readAs asPeers .listPeers second = .ok peers)
      (waits : 0 < status.pendingPairings) (failed : readAs asPairing .pendingPairing third = .error error) :
      Refreshed [⟨.status, first⟩, ⟨.listPeers, second⟩, ⟨.pendingPairing, third⟩] (.error error)
  | waiting {first second third : Except LinkErrors Bytes} {status : Status} {peers : List PeerInfo}
      {pairing : Option PairingPrompt} (said : readAs asStatus .status first = .ok status)
      (listed : readAs asPeers .listPeers second = .ok peers) (waits : 0 < status.pendingPairings)
      (shown : readAs asPairing .pendingPairing third = .ok pairing) :
      Refreshed [⟨.status, first⟩, ⟨.listPeers, second⟩, ⟨.pendingPairing, third⟩] (.ok (status, peers, pairing))

/-- What is reported of a command that has sent this. -/
inductive Finishes (command : Command) (past : List (Program.Event uplink)) : LinkEvent → Prop where
  | refreshed (refreshes : requestOf command = none) (result : Except LinkErrors Refresh) (read : Refreshed past result) :
      Finishes command past (.refreshed result)
  | done (request : Request) (report : Except LinkErrors Unit → LinkEvent) (reply : Except LinkErrors Bytes)
      (one : requestOf command = some (request, report)) (sent : past = [⟨request, reply⟩]) :
      Finishes command past (report (readAs asDone request reply))

def asked (past : List (Program.Event uplink)) : List Request := past.map Program.Event.op

def Begins (command : Command) (past : List (Program.Event uplink)) : Prop := asked past <+: makes command

section

variable {A B : Type} {holds : List (Program.Event uplink) → Prop} {post : List (Program.Event uplink) → A → Prop}
  {failed : List (Program.Event uplink) → LinkErrors → Prop} {past : List (Program.Event uplink)}

theorem always_ask {request : Request} {only : Response → Attempt uplink LinkErrors B} {kind : Response → Option B}
    {f : B → Attempt uplink LinkErrors A} (takes : ∀ response, only response = (kind response).elim (throw .malformed) pure)
    (now : holds past) (after : ∀ reply : Except LinkErrors Bytes, holds (past ++ [⟨request, reply⟩]))
    (fails : ∀ (reply : Except LinkErrors Bytes) error, readAs kind request reply = .error error →
      failed (past ++ [⟨request, reply⟩]) error)
    (rest : ∀ (reply : Except LinkErrors Bytes) value, readAs kind request reply = .ok value →
      (f value).Always holds post failed (past ++ [⟨request, reply⟩])) :
    (send request >>= fun response => only response >>= f).Always holds post failed past := by
  rw [send, bind_assoc]
  refine always_perform_bind now fun reply => ?_
  have fails := fails reply
  have rest := rest reply
  unfold readAs at fails rest
  cases answered : responseOf request reply with
  | error error => exact ⟨after reply, fails error (by rw [answered]; rfl)⟩
  | ok response =>
      show Attempt.Always holds post failed (only response >>= f) _
      rw [takes]
      rw [answered] at fails rest
      cases given : kind response with
      | none =>
          refine ⟨after reply, fails .malformed ?_⟩
          show (kind response).elim _ _ = _
          rw [given]
          rfl
      | some value =>
          refine rest value ?_
          show (kind response).elim _ _ = _
          rw [given]
          rfl

end

theorem onlyStatus_eq (response : Response) : onlyStatus response = (asStatus response).elim (throw .malformed) pure := by
  cases response <;> rfl

theorem onlyPeers_eq (response : Response) : onlyPeers response = (asPeers response).elim (throw .malformed) pure := by
  cases response <;> rfl

theorem onlyPairing_eq (response : Response) : onlyPairing response = (asPairing response).elim (throw .malformed) pure := by
  cases response <;> rfl

theorem always_refresh : refresh.Always (Begins .refresh) (fun past value => Refreshed past (.ok value))
    (fun past error => Refreshed past (.error error)) [] := by
  have begins (count : Nat) : [Request.status, .listPeers, .pendingPairing].take count <+: makes .refresh := List.take_prefix _ _
  refine always_ask onlyStatus_eq (begins 0) (fun _ => begins 1) (fun _ _ => .noStatus) fun first status said => ?_
  refine always_ask onlyPeers_eq (begins 1) (fun _ => begins 2) (fun _ _ => .noPeers said) fun second peers listed => ?_
  split
  · next waits =>
    refine always_ask onlyPairing_eq (begins 2) (fun _ => begins 3) (fun _ _ => .noPairing said listed waits) ?_
    exact fun third pairing shown => always_pure (begins 3) (.waiting said listed waits shown)
  · next none => exact always_pure (begins 2) (.idle said listed none)

theorem always_sendDone {command : Command} {request : Request} {report : Except LinkErrors Unit → LinkEvent}
    (one : requestOf command = some (request, report)) :
    (sendDone request).run.Always (Begins command) (fun past result => Finishes command past (report result)) [] := by
  have whole : makes command = [request] := by rw [makes, one]; rfl
  have now : Begins command [] := List.nil_prefix
  refine ⟨now, fun reply => ?_⟩
  have after : Begins command [⟨request, reply⟩] := by
    rw [Begins, whole]
    exact List.prefix_refl _
  have finishes : Finishes command [⟨request, reply⟩] (report (readAs asDone request reply)) :=
    .done request report reply one rfl
  show Proc.Always _ _ ((ExceptT.mk (.done (responseOf request reply)) >>= onlyDone : Attempt uplink LinkErrors Unit).run) _
  unfold readAs at finishes
  generalize responseOf request reply = response at finishes
  cases response with
  | error error => exact ⟨after, finishes⟩
  | ok response => cases response <;> exact ⟨after, finishes⟩

/-- Whatever the daemon answers, a command sends its own requests and is reported. -/
theorem always_runCommand (command : Command) : (runCommand command).Always (Begins command) (Finishes command) [] := by
  unfold runCommand
  split
  · next refreshes =>
    have begins : Begins command = Begins .refresh := by
      unfold Begins makes
      rw [refreshes]
      rfl
    rw [begins]
    refine Proc.Always.bind (Proc.Always.strengthen always_refresh) fun result later outcome => ?_
    refine ⟨outcome.1, .refreshed refreshes result ?_⟩
    cases result with
    | ok value => exact outcome.2
    | error error => exact outcome.2
  · next request report one =>
    exact Proc.Always.bind (Proc.Always.strengthen (always_sendDone one)) fun _ _ outcome => outcome

/-! ## A prompt that is shown -/

theorem shown_of_decode {body : Bytes} {prompt : PairingPrompt}
    (decoded : Response.decode .pendingPairing body = .ok (.pairing (some prompt))) : prompt.Shown := by
  cases body with
  | nil => cases decoded
  | cons code payload =>
      obtain rfl := code_of_decode decoded
      rw [decode_ok] at decoded
      obtain ⟨never, -⟩ | ⟨other, same, shown, -⟩ := decodePairing_eq_some.mp (orMalformed_eq_ok.mp decoded)
      · cases never
      · cases same
        exact shown

theorem shown_of_readAs {reply : Except LinkErrors Bytes} {prompt : PairingPrompt}
    (read : readAs asPairing .pendingPairing reply = .ok (some prompt)) : prompt.Shown := by
  cases reply with
  | error error => cases read
  | ok body =>
      unfold readAs responseOf at read
      cases decoded : Response.decode .pendingPairing body with
      | ok response =>
          have read : (asPairing response).elim (.error .malformed) .ok = (.ok (some prompt) : Except LinkErrors _) := by
            simpa [Except.bind, decoded, Except.mapError] using read
          cases response with
          | pairing pairing =>
              cases read
              exact shown_of_decode decoded
          | _ => cases read
      | error error => simp [Except.bind, decoded, Except.mapError] at read

theorem requestOf_eq_none {command : Command} (refreshes : requestOf command = none) : command = .refresh := by
  cases command with
  | refresh => rfl
  | setPassword kind update => cases kind <;> cases refreshes
  | _ => cases refreshes

theorem isRefreshed_of_requestOf {command : Command} {request : Request} {report : Except LinkErrors Unit → LinkEvent}
    (one : requestOf command = some (request, report)) (result : Except LinkErrors Unit) :
    (report result).isRefreshed = false := by
  cases command with
  | refresh => cases one
  | setPassword kind update =>
      cases kind <;>
      · cases one
        rfl
  | _ =>
      cases one
      rfl

theorem isRefreshed_of_finishes {command : Command} {past : List (Program.Event uplink)} {event : LinkEvent}
    (finishes : Finishes command past event) : event.isRefreshed = true ↔ command = .refresh := by
  cases finishes with
  | refreshed refreshes result read => exact iff_of_true rfl (requestOf_eq_none refreshes)
  | done request report reply one sent =>
      apply iff_of_false
      · rw [isRefreshed_of_requestOf one]
        exact Bool.false_ne_true
      · intro same
        rw [same] at one
        cases one

theorem shown_of_finishes {command : Command} {past : List (Program.Event uplink)} {status : Status} {peers : List PeerInfo}
    {prompt : PairingPrompt} (finishes : Finishes command past (.refreshed (.ok (status, peers, some prompt)))) : prompt.Shown := by
  generalize same : LinkEvent.refreshed (.ok (status, peers, some prompt)) = event at finishes
  cases finishes with
  | refreshed refreshes result read =>
      cases same
      cases read with
      | waiting said listed waits shown => exact shown_of_readAs shown
  | done request report reply one sent =>
      have other := isRefreshed_of_requestOf one (readAs asDone request reply)
      rw [← same] at other
      cases other

end Worker

end Tui

end CesaConn
