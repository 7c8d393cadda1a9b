import CesaConn.Program.Since
import CesaConn.Tui.Passwords
import CesaConn.Tui.Presses
import CesaConn.Tui.Questions

/-! What the user saw and did before a command went out.

A command that cannot be taken back goes out from its popup. The popup tells what it is
about from the moment it opens, whatever the daemon reports meanwhile.
-/

set_option autoImplicit false

namespace CesaConn

namespace Tui

open Format Ipc
open Program (Since exists_since)

def Event.code : Event → Option KeyCode
  | .key press => some press.code
  | _ => none

def Event.answers (event : Event) (accept : Bool) : Prop :=
  ∃ code, event.code = some code ∧ (if accept then App.isYes code else App.isNo code) = true

/-- The popup came up with `opening`, after `before`, and has not changed since. -/
def Shown (popup : ActivePopup) (before : List Event) (opening : Event) (since : List Event) : Prop :=
  Since Session.step .start (fun session => session.app.activePopup) popup before opening since

def Listed (peer : PeerInfo) (events : List Event) : Prop :=
  ∃ status peers pairing, .link (.refreshed (.ok (status, peers, pairing))) ∈ events ∧ peer ∈ peers

/-- The selected setting has this label, and Enter is pressed on it with no popup open. -/
def Entered (label : String) (events : List Event) (event : Event) : Prop :=
  (Session.start.run events).app.activePopup = .none ∧ event.code = some .enter ∧
    (Session.start.run events).app.labelAt (Session.start.run events).app.settingsSelected = some label

/-- A key of the device list, with no popup open and the daemon in a state for it. -/
def Keyed (c : Char) (can : Status → Bool) (events : List Event) (event : Event) : Prop :=
  (Session.start.run events).app.activePopup = .none ∧ event.code = some (.char c) ∧
    (Session.start.run events).app.daemon.status.any can = true

/-- What the last status said, false before the first. -/
def lastSaid (say : Status → Bool) (events : List Event) : Bool := (Session.start.run events).ghost.last.any say

/-- What makes an event after these events send the command. -/
def Meant (events : List Event) (event : Event) : Command → Prop
  | .refresh => (Session.start.run events).app.refreshInFlight = false ∧
      (event = .refreshDue ∨ ∃ told, event = .link told ∧ ∀ result, told ≠ .refreshed result)
  | .resetDevice => ∃ before opening since, events = before ++ opening :: since ∧
      Shown .confirmReset before opening since ∧ Entered resetLabel before opening ∧
      event.code = some .enter ∧ entered (since.flatMap Event.typed) = resetWord.toList
  | .forgetPeer fingerprint => ∃ peer before opening since, events = before ++ opening :: since ∧
      Shown (.confirmForget peer) before opening since ∧ opening.code = some (.char 'd') ∧
      (Session.start.run before).app.selectedPeer = some peer ∧ Listed peer before ∧
      event.answers true ∧ fingerprint = peer.fingerprint
  | .answerPairing id code accept => ∃ prompt before status peers since,
      events = before ++ .link (.refreshed (.ok (status, peers, some prompt))) :: since ∧
      Shown (.pairing prompt) before (.link (.refreshed (.ok (status, peers, some prompt)))) since ∧
      event.answers accept ∧ id = prompt.id ∧ code = prompt.code
  | .setAutoLogin true => ∃ idx before opening since, events = before ++ opening :: since ∧
      Shown (.securityWarning idx) before opening since ∧ Entered autoLoginLabel before opening ∧
      lastSaid Status.autoLogin before = false ∧ event.answers true
  | .setAutoLogin false => Entered autoLoginLabel events event ∧ lastSaid Status.autoLogin events = true
  | .setSync on => Entered syncLabel events event ∧ lastSaid Status.syncEnabled events = !on
  | .setClipboard on => Entered clipboardLabel events event ∧ lastSaid Status.clipboardEnabled events = (!on) ∧
      lastSaid Status.clipboardUnavailable events = false
  | .addDevice => Keyed 'n' Status.networkRunning events event
  | .cancelJoin => Keyed 'x' Status.joining events event
  | .stopAddDevice => Keyed 'x' Status.networkRunning events event
  | command => event.code = some .enter ∧ (Session.start.run events).app.Says command

/-! ## What a popup is about -/

variable {before since : List Event} {opening event : Event} {popup : ActivePopup}

theorem Session.run_concat (events : List Event) (event : Event) :
    Session.start.run (events ++ [event]) = (Session.start.run events).step event := by
  rw [Session.run_append]
  rfl

namespace Shown

theorem opened (shown : Shown popup before opening since) :
    (Session.start.run before).app.activePopup ≠ popup ∧
      ((Session.start.run before).app.step opening).activePopup = popup := by
  induction shown with
  | opens other now =>
      refine ⟨other, ?_⟩
      have after := congrArg (fun session => session.app.activePopup) (Session.run_concat before opening)
      exact after.symm.trans now
  | stays _ _ _ ih => exact ih

/-- Only a key opens a popup that is not the daemon's. -/
theorem by_key (shown : Shown popup before opening since) (some : popup ≠ .unlock) (closes : popup ≠ .none)
    (mine : ∀ prompt, popup ≠ .pairing prompt) :
    ∃ press, opening = .key press ∧ App.Opens (Session.start.run before).app press.code popup := by
  obtain ⟨other, now⟩ := shown.opened
  have quiet {after : App} (same : after.activePopup = (Session.start.run before).app.activePopup)
      (now : after.activePopup = popup) : False := other (same.symm.trans now)
  cases opening with
  | key press =>
      obtain same | opens := (@App.presses_handleInput (Session.start.run before).app press).popup
      · exact (quiet same now).elim
      · have now : ((Session.start.run before).app.handleInput press).activePopup = popup := now
        rw [now] at opens
        exact ⟨press, rfl, opens⟩
  | link event =>
      have hears := (@App.told_handleLinkEvent (Session.start.run before).app event).popup
      have now : ((Session.start.run before).app.handleLinkEvent event).activePopup = popup := now
      rw [now] at hears
      cases hears with
      | same => exact absurd rfl other
      | closed => exact absurd rfl closes
      | pairing status peers prompt => exact absurd rfl (mine prompt)
      | unlock => exact absurd rfl some
  | refreshDue => exact (quiet App.requestRefresh_popup now).elim
  | takeOutbox => exact (quiet rfl now).elim

/-- A pairing is shown because the daemon reported it. -/
theorem by_refresh {prompt : PairingPrompt} (shown : Shown (.pairing prompt) before opening since) :
    ∃ status peers, opening = .link (.refreshed (.ok (status, peers, some prompt))) := by
  obtain ⟨other, now⟩ := shown.opened
  have quiet {after : App} (same : after.activePopup = (Session.start.run before).app.activePopup)
      (now : after.activePopup = .pairing prompt) : False := other (same.symm.trans now)
  cases opening with
  | key press =>
      obtain same | opens := (@App.presses_handleInput (Session.start.run before).app press).popup
      · exact (quiet same now).elim
      · have now : ((Session.start.run before).app.handleInput press).activePopup = .pairing prompt := now
        rw [now] at opens
        cases opens
  | link event =>
      have hears := (@App.told_handleLinkEvent (Session.start.run before).app event).popup
      have now : ((Session.start.run before).app.handleLinkEvent event).activePopup = .pairing prompt := now
      generalize popup : ActivePopup.pairing prompt = shown at now
      rw [now] at hears
      cases hears with
      | same => exact absurd popup.symm other
      | closed => cases popup
      | pairing status peers reported =>
          cases popup
          exact ⟨status, peers, rfl⟩
      | unlock => cases popup
  | refreshDue => exact (quiet App.requestRefresh_popup now).elim
  | takeOutbox => exact (quiet rfl now).elim

theorem keys (shown : Shown popup before opening since) :
    (Session.start.run (before ++ opening :: since)).ghost.keys = since.flatMap Event.typed := by
  induction shown with
  | opens other now =>
      have changes : ((Session.start.run before).step opening).app.activePopup ≠ (Session.start.run before).app.activePopup := by
        rw [← Session.run_concat]
        exact fun same => other (same.symm.trans now)
      rw [Session.run_concat]
      exact if_neg changes
  | @stays since earlier event still ih =>
      have whole : before ++ opening :: (since ++ [event]) = (before ++ opening :: since) ++ [event] := by simp
      have same : ((Session.start.run (before ++ opening :: since)).step event).app.activePopup =
          (Session.start.run (before ++ opening :: since)).app.activePopup := by
        rw [← Session.run_concat, ← whole]
        exact Eq.trans still earlier.now.symm
      rw [whole, Session.run_concat, List.flatMap_append, List.flatMap_singleton, ← ih]
      exact if_pos same

end Shown

theorem exists_shown {events : List Event} (some : popup ≠ .none)
    (now : (Session.start.run events).app.activePopup = popup) :
    ∃ before opening since, events = before ++ opening :: since ∧ Shown popup before opening since :=
  exists_since some.symm now

/-! ## What is listed -/

theorem listed_peers (events : List Event) : ∀ peer ∈ (Session.start.run events).app.peers, Listed peer events := by
  induction events using List.reverseRecOn with
  | nil => exact fun _ member => by cases member
  | append_singleton events event ih =>
      intro peer member
      have earlier (same : ((Session.start.run events).app.step event).peers = (Session.start.run events).app.peers)
          (member : peer ∈ ((Session.start.run events).app.step event).peers) : Listed peer (events ++ [event]) := by
        rw [same] at member
        obtain ⟨status, peers, pairing, reported, listed⟩ := ih peer member
        exact ⟨status, peers, pairing, List.mem_append_left _ reported, listed⟩
      rw [Session.run_concat] at member
      cases event with
      | key press => exact earlier (App.presses_handleInput press).peers member
      | link event =>
          obtain old | ⟨status, peers, pairing, rfl, listed⟩ := (App.told_handleLinkEvent event).peers peer member
          · obtain ⟨status, peers, pairing, reported, listed⟩ := ih peer old
            exact ⟨status, peers, pairing, List.mem_append_left _ reported, listed⟩
          · exact ⟨status, peers, pairing, List.mem_append_right _ (List.mem_singleton_self _), listed⟩
      | refreshDue => exact earlier App.requestRefresh_peers member
      | takeOutbox => exact earlier rfl member

/-! ## What the switches show -/

def switchKind (unavailable on : Bool) : SettingKind := if unavailable then .unavailable else .bool on

def Switched (session : Session) : Prop :=
  ∃ auth data, session.app.settings = layout auth data
    (.bool (session.ghost.last.any Status.autoLogin)) (.bool (session.ghost.last.any Status.syncEnabled))
    (switchKind (session.ghost.last.any Status.clipboardUnavailable) (session.ghost.last.any Status.clipboardEnabled))

namespace App

variable {app : App}

theorem layout_showStatus {auth data autoLogin sync clipboard : SettingKind}
    (same : app.settings = layout auth data autoLogin sync clipboard) (status : Status) :
    ∃ auth data, (app.showStatus status).settings = layout auth data (.bool status.autoLogin) (.bool status.syncEnabled)
      (switchKind status.clipboardUnavailable status.clipboardEnabled) := by
  by_cases locked : status.locked = true
  · exact ⟨.locked, .locked, by simp [showStatus, setKeyFlags, setKind, same, locked, switchKind]⟩
  · exact ⟨.secret status.authKeySet, .secret status.dataKeySet, by
      simp [showStatus, setKeyFlags, setKind, same, locked, switchKind]⟩

theorem layout_forgetStatus {auth data autoLogin sync clipboard : SettingKind}
    (same : app.settings = layout auth data autoLogin sync clipboard) :
    app.forgetStatus.settings = layout (.secret false) (.secret false) autoLogin sync clipboard := by
  simp [forgetStatus, clampPeerSelection, setKeyFlags, setKind, same]

theorem requestRefresh_settings : app.requestRefresh.settings = app.settings := by
  unfold requestRefresh
  split <;> rfl

end App

theorem switched_start : Switched .start := ⟨.secret false, .secret false, rfl⟩

theorem Switched.step {session : Session} (switched : Switched session) (event : Event) : Switched (session.step event) := by
  have kept (last : (session.step event).ghost.last = session.ghost.last)
      (settings : (session.step event).app.settings = session.app.settings) : Switched (session.step event) := by
    rw [Switched, last, settings]
    exact switched
  obtain ⟨auth, data, same⟩ := switched
  have gone (forgotten : App) (from_session : forgotten.settings = session.app.settings) (daemon : DaemonState)
      (last : (session.step event).ghost.last = session.ghost.last)
      (app : (session.step event).app = App.showPairing { forgotten.forgetStatus with daemon } none) :
      Switched (session.step event) := by
    refine ⟨.secret false, .secret false, ?_⟩
    rw [last, app, App.showPairing_settings]
    exact App.layout_forgetStatus (from_session.trans same)
  cases event with
  | key press => exact kept rfl (@App.pressed_handleInput session.app press).kept.1
  | link event =>
      cases event with
      | refreshed result =>
          cases result with
          | ok refresh =>
              obtain ⟨status, peers, pairing⟩ := refresh
              obtain ⟨auth', data', shows⟩ := App.layout_showStatus same status
              refine ⟨auth', data', Eq.trans ?_ shows⟩
              show (session.app.handleRefreshed status peers pairing).settings = _
              obtain ⟨selected, refreshed⟩ := session.app.handleRefreshed_eq status peers pairing
              rw [refreshed]
              show (App.askUnlock _ status).settings = _
              rw [App.askUnlock_settings, App.showPairing_settings]
          | error e => exact gone { session.app with refreshInFlight := false, unlockAsked := false } rfl (.down e) rfl rfl
      | workerStopped => exact gone session.app rfl .noLink rfl rfl
      | unlocked result =>
          refine kept rfl ?_
          show (session.app.handleLinkEvent (.unlocked result)).settings = _
          unfold App.handleLinkEvent
          split
          · next never => cases never
          · next never => cases never
          · exact App.requestRefresh_settings
          · next never => cases never
          · exact App.requestRefresh_settings
      | _ => exact kept rfl App.requestRefresh_settings
  | refreshDue => exact kept rfl App.requestRefresh_settings
  | takeOutbox => exact kept rfl rfl

theorem switched_run (events : List Event) : Switched (Session.start.run events) :=
  Session.run_induction switched_start (fun _ event switched => switched.step event) events

/-! ## What a press means -/

theorem switchCommand_authKey : ∀ on, App.switchCommand authKeyLabel on = none := by decide

theorem switchCommand_dataKey : ∀ on, App.switchCommand dataKeyLabel on = none := by decide

section

variable {session : Session} {setting : Setting} (switched : Switched session) (shown : session.app.settingAt = some setting)
include switched shown

/-- What is pressed is one of the three switches, or does nothing. -/
theorem switch_of_settingAt {on : Bool} (kind : setting.kind = .bool on) :
    setting = ⟨autoLoginLabel, .bool on, some autoLoginWarning⟩ ∧ session.ghost.last.any Status.autoLogin = on ∨
    setting = ⟨syncLabel, .bool on, none⟩ ∧ session.ghost.last.any Status.syncEnabled = on ∨
    setting = ⟨clipboardLabel, .bool on, none⟩ ∧ session.ghost.last.any Status.clipboardEnabled = on ∧
      session.ghost.last.any Status.clipboardUnavailable = false ∨
    setting.warnMessage = none ∧ App.switchCommand setting.label on = none := by
  obtain ⟨auth, data, same⟩ := switched
  rw [App.settingAt, same] at shown
  generalize session.app.settingsSelected = idx at shown
  rcases idx with _ | _ | _ | _ | _ | _ | _
  · cases shown
    exact .inr (.inr (.inr ⟨rfl, switchCommand_authKey on⟩))
  · cases shown
    exact .inr (.inr (.inr ⟨rfl, switchCommand_dataKey on⟩))
  · cases shown
    cases kind
    exact .inl ⟨rfl, rfl⟩
  · cases shown
    cases kind
    exact .inr (.inl ⟨rfl, rfl⟩)
  · cases shown
    cases unavailable : session.ghost.last.any Status.clipboardUnavailable with
    | true =>
        rw [unavailable] at kind
        cases kind
    | false =>
        rw [unavailable] at kind
        cases kind
        exact .inr (.inr (.inl ⟨rfl, rfl, rfl⟩))
  · cases shown
    cases kind
  · cases shown

end

theorem entered_of_settingAt {events : List Event} {setting : Setting} {code : KeyCode} (press : event.code = some code)
    (none : (Session.start.run events).app.activePopup = .none) (enter : code = .enter)
    (shown : (Session.start.run events).app.settingAt = some setting) : Entered setting.label events event := by
  refine ⟨none, by rw [press, enter], ?_⟩
  rw [App.labelAt]
  exact congrArg (Option.map Setting.label) shown

theorem warned {prompt : Nat} (shown : Shown (.securityWarning prompt) before opening since) :
    Entered autoLoginLabel before opening ∧ lastSaid Status.autoLogin before = false := by
  obtain ⟨press, rfl, opens⟩ := shown.by_key (by simp) (by simp) (by simp)
  cases opens with
  | securityWarning setting none enter selected off warns =>
      have is : Entered setting.label before (.key press) := entered_of_settingAt rfl none enter selected
      obtain ⟨same, last⟩ | ⟨same, -⟩ | ⟨same, -⟩ | ⟨same, -⟩ := switch_of_settingAt (switched_run before) selected off
      · rw [same] at is
        exact ⟨is, last⟩
      · rw [same] at warns
        cases warns
      · rw [same] at warns
        cases warns
      · rw [same] at warns
        cases warns

theorem keyed {c : Char} {can : Status → Bool} {events : List Event} {code : KeyCode} {status : Status}
    (press : event.code = some code) (none : (Session.start.run events).app.activePopup = .none) (key : code = .char c)
    (up : (Session.start.run events).app.daemon = .up status) (allowed : can status = true) : Keyed c can events event := by
  refine ⟨none, by rw [press, key], ?_⟩
  rw [up]
  exact allowed

theorem meant_of_sends {events : List Event} {press : KeyEvent} {command : Command}
    (sends : App.Sends (Session.start.run events).app press.code command) : Meant events (.key press) command := by
  cases sends with
  | setPassword kind popup enter selected unlocked some long =>
      exact ⟨congrArg Option.some enter, popup, selected, unlocked, some, rfl⟩
  | unlock popup enter some => exact ⟨congrArg Option.some enter, popup, some, rfl⟩
  | joinGroup popup enter some => exact ⟨congrArg Option.some enter, popup, some, rfl⟩
  | resetDevice popup enter word =>
      obtain ⟨before, opening, since, rfl, shown⟩ := exists_shown (by simp) popup
      obtain ⟨opener, rfl, opens⟩ := shown.by_key (by simp) (by simp) (by simp)
      cases opens with
      | confirmReset none entering selected =>
          have typed : entered (since.flatMap Event.typed) = resetWord.toList := by
            have text := (Session.typed_run (before ++ .key opener :: since)).text
            rw [popup, shown.keys, word] at text
            exact text.symm
          exact ⟨before, .key opener, since, rfl, shown, ⟨none, congrArg Option.some entering, selected⟩,
            congrArg Option.some enter, typed⟩
  | answerPairing prompt accept popup said =>
      obtain ⟨before, opening, since, rfl, shown⟩ := exists_shown (by simp) popup
      obtain ⟨status, peers, rfl⟩ := shown.by_refresh
      exact ⟨prompt, before, status, peers, since, rfl, shown, ⟨press.code, rfl, said⟩, rfl, rfl⟩
  | autoLogin idx popup said label =>
      obtain ⟨before, opening, since, rfl, shown⟩ := exists_shown (by simp) popup
      obtain ⟨pressed, off⟩ := warned shown
      exact ⟨idx, before, opening, since, rfl, shown, pressed, off, press.code, rfl, said⟩
  | forgetPeer peer popup said =>
      obtain ⟨before, opening, since, rfl, shown⟩ := exists_shown (by simp) popup
      obtain ⟨opener, rfl, opens⟩ := shown.by_key (by simp) (by simp) (by simp)
      cases opens with
      | confirmForget _ none key selected =>
          obtain ⟨idx, -, at_idx⟩ := Option.bind_eq_some_iff.mp selected
          have listed := listed_peers before peer (List.mem_of_getElem? at_idx)
          exact ⟨peer, before, .key opener, since, rfl, shown, congrArg Option.some key, selected, listed,
            ⟨press.code, rfl, said⟩, rfl⟩
  | switch setting on command none enter shown kind unwarned pressed =>
      have is : Entered setting.label events (.key press) := entered_of_settingAt rfl none enter shown
      obtain ⟨same, last⟩ | ⟨same, last⟩ | ⟨same, last, available⟩ | ⟨-, nothing⟩ :=
        switch_of_settingAt (switched_run events) shown kind
      · rw [same] at is pressed unwarned
        have sent : command = .setAutoLogin false := (Option.some.inj pressed).symm
        obtain rfl : on = true := unwarned.resolve_right (by simp)
        rw [sent]
        exact ⟨is, last⟩
      · rw [same] at is pressed
        have sent : command = .setSync !on := (Option.some.inj pressed).symm
        rw [sent]
        refine ⟨is, ?_⟩
        rw [Bool.not_not]
        exact last
      · rw [same] at is pressed
        have sent : command = .setClipboard !on := (Option.some.inj pressed).symm
        rw [sent]
        refine ⟨is, ?_, available⟩
        rw [Bool.not_not]
        exact last
      · rw [nothing] at pressed
        cases pressed
  | addDevice status none key up running => exact keyed rfl none key up running
  | cancelJoin status none key up joining => exact keyed rfl none key up joining
  | stopAddDevice status none key up running => exact keyed rfl none key up running

/-- Whatever happened before, every command that an event sends is meant. -/
theorem meant_of_step (events : List Event) (event : Event) :
    ∀ command ∈ ((Session.start.run events).app.step event).outbox.drop (Session.start.run events).app.outbox.length,
      Meant events event command := by
  intro command member
  have asked {after : App} (asks : App.Asks (Session.start.run events).app after)
      (by_daemon : event = .refreshDue ∨ ∃ told, event = .link told ∧ ∀ result, told ≠ .refreshed result)
      (member : command ∈ after.outbox.drop (Session.start.run events).app.outbox.length) : Meant events event command := by
    cases asks with
    | nothing outbox _ =>
        rw [outbox, List.drop_length] at member
        cases member
    | refresh idle outbox _ =>
        rw [outbox, List.drop_left, List.mem_singleton] at member
        rw [member]
        exact ⟨idle, by_daemon⟩
  cases event with
  | key press =>
      have sent := (@App.presses_handleInput (Session.start.run events).app press).sent
      have member : command ∈ ((Session.start.run events).app.handleInput press).outbox.drop
        (Session.start.run events).app.outbox.length := member
      obtain same | ⟨new, outbox, sends⟩ := sent
      · rw [same, List.drop_length] at member
        cases member
      · rw [outbox, List.drop_left, List.mem_singleton] at member
        rw [member]
        exact meant_of_sends sends
  | link event =>
      have told := @App.told_handleLinkEvent (Session.start.run events).app event
      by_cases refreshed : ∃ result, event = .refreshed result
      · obtain ⟨result, same⟩ := refreshed
        have member : command ∈ ((Session.start.run events).app.handleLinkEvent event).outbox.drop
          (Session.start.run events).app.outbox.length := member
        rw [(told.refreshed result same).1, List.drop_length] at member
        cases member
      · have other : ∀ result, event ≠ .refreshed result := fun result same => refreshed ⟨result, same⟩
        exact asked (told.asks other) (.inr ⟨event, rfl, other⟩) member
  | refreshDue => exact asked App.asks_requestRefresh (.inl rfl) member
  | takeOutbox =>
      have member : command ∈ ([] : List Command).drop (Session.start.run events).app.outbox.length := member
      rw [List.drop_nil] at member
      cases member

def queued (events : List Event) : List Command := (Session.start.run events).queued.map Prod.fst

theorem queued_concat (events : List Event) (event : Event) : queued (events ++ [event]) = queued events ++
    ((Session.start.run events).app.step event).outbox.drop (Session.start.run events).app.outbox.length := by
  rw [queued, Session.run_concat, Session.step, List.map_append, List.map_map]
  exact congrArg _ (List.map_id _)

/-- Every command of a run was meant by the event that queued it. -/
theorem meant_of_queued (events : List Event) {place : Nat} {command : Command} (here : (queued events)[place]? = some command) :
    ∃ before event after, events = before ++ event :: after ∧ (queued before).length ≤ place ∧
      place < (queued (before ++ [event])).length ∧ Meant before event command := by
  induction events using List.reverseRecOn with
  | nil => cases here
  | append_singleton events event ih =>
      by_cases old : place < (queued events).length
      · rw [queued_concat, List.getElem?_append_left old] at here
        obtain ⟨before, earlier, after, rfl, places⟩ := ih here
        exact ⟨before, earlier, after ++ [event], by simp, places⟩
      · have bound := (List.getElem?_eq_some_iff.mp here).1
        rw [queued_concat, List.getElem?_append_right (Nat.le_of_not_lt old)] at here
        exact ⟨events, event, [], rfl, Nat.le_of_not_lt old, bound, meant_of_step events event command (List.mem_of_getElem? here)⟩

end Tui

end CesaConn
