import CesaConn.Tui.Moves

/-! What a key sends to the daemon, and from where.

Each handler is looked through once more, now for its commands and for the popups it
opens. A key sends one command at most, and never a refresh.
-/

set_option autoImplicit false

namespace CesaConn

namespace Tui

open Format Ipc
open Daemon (KeyKind minNewPasswordLen)

namespace App

def switchCommand (label : String) (on : Bool) : Option Command :=
  if label = autoLoginLabel then some (.setAutoLogin false)
  else if label = syncLabel then some (.setSync !on)
  else if label = clipboardLabel then some (.setClipboard !on)
  else none

/-- The state in which a key sends a command. -/
inductive Sends (app : App) (code : KeyCode) : Command → Prop where
  | setPassword (kind : KeyKind) (popup : app.activePopup = .editSetting) (enter : code = .enter)
      (selected : app.selectedKeyKind = some kind) (unlocked : app.isLocked = false) (some : app.inputBuf ≠ [])
      (long : minNewPasswordLen ≤ app.inputBuf.length) : Sends app code (.setPassword kind app.typed)
  | unlock (popup : app.activePopup.takesText = true) (enter : code = .enter) (some : app.inputBuf ≠ []) :
      Sends app code (.unlock app.typed)
  | joinGroup (popup : app.activePopup = .joinGroup .data) (enter : code = .enter) (some : app.inputBuf ≠ []) :
      Sends app code (.joinGroup ⟨⟨app.joinAuth⟩, app.typed⟩)
  | resetDevice (popup : app.activePopup = .confirmReset) (enter : code = .enter)
      (word : app.inputBuf = resetWord.toList) : Sends app code .resetDevice
  | answerPairing (prompt : PairingPrompt) (accept : Bool) (popup : app.activePopup = .pairing prompt)
      (said : (if accept then isYes code else isNo code) = true) :
      Sends app code (.answerPairing prompt.id prompt.code accept)
  | autoLogin (idx : Nat) (popup : app.activePopup = .securityWarning idx) (said : isYes code = true)
      (label : app.labelAt idx = some autoLoginLabel) : Sends app code (.setAutoLogin true)
  | forgetPeer (peer : PeerInfo) (popup : app.activePopup = .confirmForget peer) (said : isYes code = true) :
      Sends app code (.forgetPeer peer.fingerprint)
  | switch (setting : Setting) (on : Bool) (command : Command) (none : app.activePopup = .none) (enter : code = .enter)
      (shown : app.settingAt = some setting) (kind : setting.kind = .bool on)
      (unwarned : on = true ∨ setting.warnMessage = Option.none)
      (pressed : switchCommand setting.label on = some command) : Sends app code command
  | addDevice (status : Status) (none : app.activePopup = .none) (key : code = .char 'n') (up : app.daemon = .up status)
      (running : status.networkRunning = true) : Sends app code .addDevice
  | cancelJoin (status : Status) (none : app.activePopup = .none) (key : code = .char 'x') (up : app.daemon = .up status)
      (joining : status.joining = true) : Sends app code .cancelJoin
  | stopAddDevice (status : Status) (none : app.activePopup = .none) (key : code = .char 'x')
      (up : app.daemon = .up status) (running : status.networkRunning = true) : Sends app code .stopAddDevice

inductive Opens (app : App) (code : KeyCode) : ActivePopup → Prop where
  | closed : Opens app code .none
  | editSetting : Opens app code .editSetting
  | confirmPasswordChange (kind : KeyKind) : Opens app code (.confirmPasswordChange kind)
  | joinGroup (step : JoinStep) : Opens app code (.joinGroup step)
  | confirmReset (none : app.activePopup = .none) (enter : code = .enter)
      (selected : app.labelAt app.settingsSelected = some resetLabel) : Opens app code .confirmReset
  | securityWarning (setting : Setting) (none : app.activePopup = .none) (enter : code = .enter)
      (shown : app.settingAt = some setting) (off : setting.kind = .bool false)
      (warns : setting.warnMessage.isSome = true) : Opens app code (.securityWarning app.settingsSelected)
  | confirmForget (peer : PeerInfo) (none : app.activePopup = .none) (key : code = .char 'd')
      (selected : app.selectedPeer = some peer) : Opens app code (.confirmForget peer)

/-- All that a key does to what waits to be sent and to the popup. -/
structure Presses (app after : App) (code : KeyCode) : Prop where
  sent : after.outbox = app.outbox ∨ ∃ command, after.outbox = app.outbox ++ [command] ∧ Sends app code command
  popup : after.activePopup = app.activePopup ∨ Opens app code after.activePopup
  refresh : after.refreshInFlight = app.refreshInFlight
  peers : after.peers = app.peers

variable {app after : App} {code : KeyCode}

theorem presses_quiet (outbox : after.outbox = app.outbox) (popup : after.activePopup = app.activePopup)
    (refresh : after.refreshInFlight = app.refreshInFlight) (peers : after.peers = app.peers) : Presses app after code :=
  ⟨.inl outbox, .inl popup, refresh, peers⟩

theorem presses_opens (popup : ActivePopup) (opens : Opens app code popup) (shown : after.activePopup = popup)
    (outbox : after.outbox = app.outbox) (refresh : after.refreshInFlight = app.refreshInFlight)
    (peers : after.peers = app.peers) : Presses app after code :=
  ⟨.inl outbox, .inr (shown ▸ opens), refresh, peers⟩

theorem presses_sends {command : Command} (sends : Sends app code command) (outbox : after.outbox = app.outbox ++ [command])
    (popup : after.activePopup = app.activePopup ∨ after.activePopup = .none)
    (refresh : after.refreshInFlight = app.refreshInFlight) (peers : after.peers = app.peers) : Presses app after code := by
  refine ⟨.inr ⟨command, outbox, sends⟩, ?_, refresh, peers⟩
  obtain same | none := popup
  · exact .inl same
  · rw [none]
    exact .inr .closed

theorem presses_edit : Presses app (app.edit code) code := by
  rw [edit_eq]
  exact presses_quiet rfl rfl rfl rfl

theorem presses_handleEditSettingInput (popup : app.activePopup = .editSetting) :
    Presses app (app.handleEditSettingInput code) code := by
  unfold handleEditSettingInput
  split
  · exact presses_opens .none .closed rfl rfl rfl rfl
  · unfold sendPasswordFromInput
    split
    · exact presses_opens .none .closed rfl rfl rfl rfl
    · next kind selected =>
      by_cases empty : app.inputBuf = []
      · rw [if_pos empty]
        exact presses_opens .none .closed rfl rfl rfl rfl
      rw [if_neg empty]
      by_cases locked : app.isLocked = true
      · rw [if_pos locked]
        split
        · exact presses_opens .none .closed rfl rfl rfl rfl
        · split
          · exact presses_sends (.unlock (by rw [popup]; rfl) rfl empty) rfl (.inr rfl) rfl rfl
          · exact presses_opens .none .closed rfl rfl rfl rfl
      · rw [if_neg locked]
        split
        · exact presses_opens .none .closed rfl rfl rfl rfl
        · next long =>
          have unlocked : app.isLocked = false := Bool.not_eq_true _ ▸ locked
          exact presses_sends (.setPassword kind popup rfl selected unlocked empty (Nat.le_of_not_lt long)) rfl (.inr rfl) rfl rfl
  · exact presses_edit

theorem presses_handleUnlockInput (popup : app.activePopup = .unlock) : Presses app (app.handleUnlockInput code) code := by
  unfold handleUnlockInput
  split
  · exact presses_opens .none .closed rfl rfl rfl rfl
  · split
    · exact presses_quiet rfl rfl rfl rfl
    · next some => exact presses_sends (.unlock (by rw [popup]; rfl) rfl some) rfl (.inr rfl) rfl rfl
  · exact presses_edit

theorem presses_handleConfirmResetInput (popup : app.activePopup = .confirmReset) :
    Presses app (app.handleConfirmResetInput code) code := by
  unfold handleConfirmResetInput
  split
  · exact presses_opens .none .closed rfl rfl rfl rfl
  · split
    · next word => exact presses_sends (.resetDevice popup rfl word) rfl (.inr rfl) rfl rfl
    · exact presses_quiet rfl rfl rfl rfl
  · exact presses_edit

theorem presses_handleJoinInput {step : JoinStep} (popup : app.activePopup = .joinGroup step) :
    Presses app (app.handleJoinInput code step) code := by
  unfold handleJoinInput
  split
  · exact presses_opens .none .closed rfl rfl rfl rfl
  · by_cases empty : app.inputBuf = []
    · rw [if_pos empty]
      exact presses_quiet rfl rfl rfl rfl
    · rw [if_neg empty]
      cases step with
      | auth => exact presses_opens (.joinGroup .data) (.joinGroup .data) rfl rfl rfl rfl
      | data => exact presses_sends (.joinGroup popup rfl empty) rfl (.inr rfl) rfl rfl
  · exact presses_edit

theorem presses_handlePairingInput {prompt : PairingPrompt} (popup : app.activePopup = .pairing prompt) :
    Presses app (app.handlePairingInput code prompt) code := by
  unfold handlePairingInput
  split
  · next yes => exact presses_sends (.answerPairing prompt true popup yes) rfl (.inr rfl) rfl rfl
  · split
    · next no => exact presses_sends (.answerPairing prompt false popup no) rfl (.inr rfl) rfl rfl
    · exact presses_quiet rfl rfl rfl rfl

theorem presses_handleSecurityWarningInput {idx : Nat} (popup : app.activePopup = .securityWarning idx) :
    Presses app (app.handleSecurityWarningInput code idx) code := by
  unfold handleSecurityWarningInput
  split
  · next yes =>
    split
    · next label => exact presses_sends (.autoLogin idx popup yes label) rfl (.inr rfl) rfl rfl
    · exact presses_opens .none .closed rfl rfl rfl rfl
  · split
    · exact presses_opens .none .closed rfl rfl rfl rfl
    · exact presses_quiet rfl rfl rfl rfl

theorem presses_handleConfirmChangeInput : Presses app (app.handleConfirmChangeInput code) code := by
  unfold handleConfirmChangeInput
  split
  · exact presses_opens .editSetting .editSetting rfl rfl rfl rfl
  · split
    · exact presses_opens .none .closed rfl rfl rfl rfl
    · exact presses_quiet rfl rfl rfl rfl

theorem presses_handleConfirmForgetInput {peer : PeerInfo} (popup : app.activePopup = .confirmForget peer) :
    Presses app (app.handleConfirmForgetInput code peer) code := by
  unfold handleConfirmForgetInput
  split
  · next yes => exact presses_sends (.forgetPeer peer popup yes) rfl (.inr rfl) rfl rfl
  · split
    · exact presses_opens .none .closed rfl rfl rfl rfl
    · exact presses_quiet rfl rfl rfl rfl

/-! ## No popup -/

section

variable (none : app.activePopup = .none)
include none

theorem presses_startAddDevice : Presses app app.startAddDevice (.char 'n') := by
  unfold startAddDevice
  split
  · next status up =>
    split
    · next running => exact presses_sends (.addDevice status none rfl up running) rfl (.inl rfl) rfl rfl
    · split
      · exact presses_quiet rfl rfl rfl rfl
      · split
        · exact presses_opens (.joinGroup .auth) (.joinGroup .auth) rfl rfl rfl rfl
        · exact presses_quiet rfl rfl rfl rfl
  · exact presses_quiet rfl rfl rfl rfl

theorem presses_stopOrCancel : Presses app app.stopOrCancel (.char 'x') := by
  unfold stopOrCancel
  split
  · next status up =>
    split
    · next joining => exact presses_sends (.cancelJoin status none rfl up joining) rfl (.inl rfl) rfl rfl
    · split
      · next running => exact presses_sends (.stopAddDevice status none rfl up running) rfl (.inl rfl) rfl rfl
      · exact presses_quiet rfl rfl rfl rfl
  · exact presses_quiet rfl rfl rfl rfl

theorem presses_handleDevices : Presses app (app.handleDevices code) code := by
  have selects {selected : Option Nat} : Presses app { app with peerSelected := selected } code :=
    presses_quiet rfl rfl rfl rfl
  unfold handleDevices
  split
  · unfold prevPeer
    split
    · exact presses_quiet rfl rfl rfl rfl
    · exact selects
  · unfold prevPeer
    split
    · exact presses_quiet rfl rfl rfl rfl
    · exact selects
  · unfold nextPeer
    split
    · exact presses_quiet rfl rfl rfl rfl
    · exact selects
  · unfold nextPeer
    split
    · exact presses_quiet rfl rfl rfl rfl
    · exact selects
  · exact presses_startAddDevice none
  · exact presses_stopOrCancel none
  · unfold askForgetSelected
    split
    · next peer selected => exact presses_opens _ (.confirmForget peer none rfl selected) rfl rfl rfl rfl
    · exact presses_quiet rfl rfl rfl rfl
  · exact presses_quiet rfl rfl rfl rfl

theorem presses_handleSwitch {setting : Setting} {on : Bool} (shown : app.settingAt = some setting)
    (kind : setting.kind = .bool on) : Presses app (app.handleSwitch on setting.warnMessage.isSome) .enter := by
  have label : app.labelAt app.settingsSelected = some setting.label := by
    rw [labelAt]
    exact congrArg (Option.map Setting.label) shown
  simp only [handleSwitch, label, Option.some.injEq]
  split
  · next warned =>
    obtain ⟨off, warns⟩ := Bool.and_eq_true_iff.mp warned
    have off : setting.kind = .bool false := by
      rw [kind]
      cases on with
      | true => cases off
      | false => rfl
    exact presses_opens _ (.securityWarning setting none rfl shown off warns) rfl rfl rfl rfl
  · next unwarned =>
    have unwarned : on = true ∨ setting.warnMessage = Option.none := by
      cases on with
      | true => exact .inl rfl
      | false =>
          cases message : setting.warnMessage with
          | none => exact .inr rfl
          | some text =>
              rw [message] at unwarned
              exact absurd rfl unwarned
    have sends {command : Command} (pressed : switchCommand setting.label on = some command) :
        Presses app (app.queue command) .enter :=
      presses_sends (.switch setting on command none rfl shown kind unwarned pressed) rfl (.inl rfl) rfl rfl
    split
    · next auto => exact sends (if_pos auto)
    · next auto =>
      split
      · next sync => exact sends ((if_neg auto).trans (if_pos sync))
      · next sync =>
        split
        · next clipboard => exact sends ((if_neg auto).trans ((if_neg sync).trans (if_pos clipboard)))
        · exact presses_quiet rfl rfl rfl rfl

theorem presses_handleSettingsEnter : Presses app app.handleSettingsEnter .enter := by
  unfold handleSettingsEnter
  split
  · next selected => exact presses_opens _ (.confirmReset none rfl selected) rfl rfl rfl rfl
  · split
    · next on kind =>
      obtain ⟨setting, shown, kind⟩ := Option.map_eq_some_iff.mp kind
      rw [shown]
      exact presses_handleSwitch none shown kind
    · exact presses_quiet rfl rfl rfl rfl
    · split
      · exact presses_quiet rfl rfl rfl rfl
      · split
        · next key selected =>
          split
          · exact presses_opens _ (.confirmPasswordChange key) rfl rfl rfl rfl
          · exact presses_opens .editSetting .editSetting rfl rfl rfl rfl
        · exact presses_opens .editSetting .editSetting rfl rfl rfl rfl

theorem presses_handleTab : Presses app (app.handleTab code) code := by
  unfold handleTab
  split
  · exact presses_handleDevices none
  · unfold handleSettings
    split
    · exact presses_quiet rfl rfl rfl rfl
    · exact presses_quiet rfl rfl rfl rfl
    · exact presses_quiet rfl rfl rfl rfl
    · exact presses_quiet rfl rfl rfl rfl
    · exact presses_handleSettingsEnter none
    · exact presses_quiet rfl rfl rfl rfl
  · unfold handleLogs
    split <;> exact presses_quiet rfl rfl rfl rfl

end

/-- The tab does not decide what a key sends. -/
theorem Sends.of_tab {tab : Tab} {quit : Bool} {command : Command}
    (sends : Sends { app with activeTab := tab, shouldQuit := quit } code command) : Sends app code command := by
  cases sends with
  | setPassword kind popup enter selected unlocked some long => exact .setPassword kind popup enter selected unlocked some long
  | unlock popup enter some => exact .unlock popup enter some
  | joinGroup popup enter some => exact .joinGroup popup enter some
  | resetDevice popup enter word => exact .resetDevice popup enter word
  | answerPairing prompt accept popup said => exact .answerPairing prompt accept popup said
  | autoLogin idx popup said label => exact .autoLogin idx popup said label
  | forgetPeer peer popup said => exact .forgetPeer peer popup said
  | switch setting on command none enter shown kind unwarned pressed =>
      exact .switch setting on command none enter shown kind unwarned pressed
  | addDevice status none key up running => exact .addDevice status none key up running
  | cancelJoin status none key up joining => exact .cancelJoin status none key up joining
  | stopAddDevice status none key up running => exact .stopAddDevice status none key up running

theorem Opens.of_tab {tab : Tab} {quit : Bool} {popup : ActivePopup}
    (opens : Opens { app with activeTab := tab, shouldQuit := quit } code popup) : Opens app code popup := by
  cases opens with
  | closed => exact .closed
  | editSetting => exact .editSetting
  | confirmPasswordChange kind => exact .confirmPasswordChange kind
  | joinGroup step => exact .joinGroup step
  | confirmReset none enter selected => exact .confirmReset none enter selected
  | securityWarning setting none enter shown off warns => exact .securityWarning setting none enter shown off warns
  | confirmForget peer none key selected => exact .confirmForget peer none key selected

theorem Presses.of_tab {tab : Tab} {quit : Bool} (presses : Presses { app with activeTab := tab, shouldQuit := quit } after code) :
    Presses app after code where
  sent := presses.sent.imp_right fun ⟨command, outbox, sends⟩ => ⟨command, outbox, sends.of_tab⟩
  popup := presses.popup.imp_right Opens.of_tab
  refresh := presses.refresh
  peers := presses.peers

theorem presses_handleInput (press : KeyEvent) : Presses app (app.handleInput press) press.code := by
  unfold handleInput
  split
  · exact presses_quiet rfl rfl rfl rfl
  · split
    · next popup => exact presses_handlePairingInput popup
    · next popup => exact presses_handleEditSettingInput popup
    · next popup => exact presses_handleSecurityWarningInput popup
    · exact presses_handleConfirmChangeInput
    · next popup => exact presses_handleJoinInput popup
    · next popup => exact presses_handleConfirmForgetInput popup
    · next popup => exact presses_handleConfirmResetInput popup
    · next popup => exact presses_handleUnlockInput popup
    · next none =>
      obtain ⟨tab, quit, tabs⟩ := app.handleTabs_eq press.code
      rw [tabs]
      have handled : Presses { app with activeTab := tab, shouldQuit := quit } _ press.code := presses_handleTab none
      exact handled.of_tab

/-! ## Link events -/

/-- A refresh is asked for where none is under way, and nothing else ever is. -/
inductive Asks (app after : App) : Prop where
  | nothing (outbox : after.outbox = app.outbox) (flight : after.refreshInFlight = app.refreshInFlight)
  | refresh (idle : app.refreshInFlight = false) (outbox : after.outbox = app.outbox ++ [.refresh])
      (flight : after.refreshInFlight = true)

theorem asks_requestRefresh : Asks app app.requestRefresh := by
  unfold requestRefresh
  split
  · exact .nothing rfl rfl
  · next idle => exact .refresh (Bool.not_eq_true _ ▸ idle) rfl rfl

inductive Hears (app : App) : LinkEvent → ActivePopup → Prop where
  | same (event : LinkEvent) : Hears app event app.activePopup
  | closed (event : LinkEvent) : Hears app event .none
  | pairing (status : Status) (peers : List PeerInfo) (prompt : PairingPrompt) :
      Hears app (.refreshed (.ok (status, peers, some prompt))) (.pairing prompt)
  | unlock (event : LinkEvent) : Hears app event .unlock

theorem requestRefresh_popup : app.requestRefresh.activePopup = app.activePopup := by
  unfold requestRefresh
  split <;> rfl

theorem requestRefresh_peers : app.requestRefresh.peers = app.peers := by
  unfold requestRefresh
  split <;> rfl

theorem askUnlock_popup (status : Status) : (app.askUnlock status).activePopup = app.activePopup ∨
    (app.askUnlock status).activePopup = .none ∨ (app.askUnlock status).activePopup = .unlock := by
  unfold askUnlock
  split
  · dsimp only
    split
    · exact .inr (.inl rfl)
    · exact .inl rfl
  · split
    · exact .inr (.inr rfl)
    · exact .inl rfl

theorem showPairing_none : (app.showPairing none).activePopup = app.activePopup ∨
    (app.showPairing none).activePopup = .none := by
  unfold showPairing
  split
  · next never => cases never
  · next never => cases never
  · exact .inr rfl
  · exact .inl rfl

theorem showPairing_some (prompt : PairingPrompt) : (app.showPairing (some prompt)).activePopup = app.activePopup ∨
    (app.showPairing (some prompt)).activePopup = .pairing prompt := by
  unfold showPairing
  split
  · next same =>
    cases same
    split
    · exact .inl rfl
    · exact .inr rfl
  · next same =>
    cases same
    exact .inr rfl
  · next never => cases never
  · exact .inl rfl

/-- All that an event from the daemon does to what a key acts on. -/
structure Told (app after : App) (event : LinkEvent) : Prop where
  refreshed : ∀ result, event = .refreshed result → after.outbox = app.outbox ∧ after.refreshInFlight = false
  asks : (∀ result, event ≠ .refreshed result) → Asks app after
  popup : Hears app event after.activePopup
  peers : ∀ peer ∈ after.peers, peer ∈ app.peers ∨
    ∃ status peers pairing, event = .refreshed (.ok (status, peers, pairing)) ∧ peer ∈ peers

theorem told_requestRefresh {event : LinkEvent} (other : ∀ result, event ≠ .refreshed result)
    (outbox : after.outbox = app.outbox) (flight : after.refreshInFlight = app.refreshInFlight)
    (popup : after.activePopup = app.activePopup) (peers : after.peers = app.peers) :
    Told app after.requestRefresh event := by
  constructor
  · exact fun result same => absurd same (other result)
  · intro _
    cases @asks_requestRefresh after with
    | nothing sent flying => exact .nothing (sent.trans outbox) (flying.trans flight)
    | refresh idle sent flying =>
        rw [flight] at idle
        rw [outbox] at sent
        exact .refresh idle sent flying
  · rw [requestRefresh_popup, popup]
    exact .same event
  · intro peer member
    rw [requestRefresh_peers, peers] at member
    exact .inl member

theorem showPairing_kept (pairing : Option PairingPrompt) : (app.showPairing pairing).outbox = app.outbox ∧
    (app.showPairing pairing).refreshInFlight = app.refreshInFlight ∧ (app.showPairing pairing).peers = app.peers := by
  obtain ⟨popup, shown, -⟩ := app.showPairing_eq pairing
  rw [shown]
  exact ⟨rfl, rfl, rfl⟩

theorem askUnlock_kept (status : Status) : (app.askUnlock status).outbox = app.outbox ∧
    (app.askUnlock status).refreshInFlight = app.refreshInFlight ∧ (app.askUnlock status).peers = app.peers := by
  unfold askUnlock
  split
  · dsimp only
    split <;> exact ⟨rfl, rfl, rfl⟩
  · split <;> exact ⟨rfl, rfl, rfl⟩

/-- Without the daemon nothing is listed, and its prompt is closed. -/
theorem told_gone {event : LinkEvent} {flight : Bool} {forgotten : App} (outbox : forgotten.outbox = app.outbox)
    (popup : forgotten.activePopup = app.activePopup) (peers : forgotten.peers = []) (same : forgotten.refreshInFlight = flight)
    (refreshed : ∀ result, event = .refreshed result → flight = false)
    (other : (∀ result, event ≠ .refreshed result) → flight = app.refreshInFlight) :
    Told app (forgotten.showPairing none) event := by
  obtain ⟨sent, flying, listed⟩ := @showPairing_kept forgotten none
  constructor
  · exact fun result is => ⟨sent.trans outbox, flying.trans (same.trans (refreshed result is))⟩
  · exact fun is => .nothing (sent.trans outbox) (flying.trans (same.trans (other is)))
  · obtain stays | closes := @showPairing_none forgotten
    · rw [stays, popup]
      exact .same event
    · rw [closes]
      exact .closed event
  · intro peer member
    rw [listed, peers] at member
    cases member

theorem told_refreshed (status : Status) (peers : List PeerInfo) (pairing : Option PairingPrompt) :
    Told app (app.handleRefreshed status peers pairing) (.refreshed (.ok (status, peers, pairing))) := by
  obtain ⟨selected, refreshed⟩ := app.handleRefreshed_eq status peers pairing
  rw [refreshed]
  generalize shown : ({ app with
    refreshInFlight := false
    settings := (app.showStatus status).settings
    peers
    peerSelected := selected } : App) = before
  have outbox : before.outbox = app.outbox := by rw [← shown]
  have popup : before.activePopup = app.activePopup := by rw [← shown]
  have flight : before.refreshInFlight = false := by rw [← shown]
  have list : before.peers = peers := by rw [← shown]
  obtain ⟨sent, flying, listed⟩ := @showPairing_kept before pairing
  obtain ⟨sent', flying', listed'⟩ := @askUnlock_kept (before.showPairing pairing) status
  constructor
  · exact fun _ _ => ⟨sent'.trans (sent.trans outbox), flying'.trans (flying.trans flight)⟩
  · exact fun never => absurd rfl (never _)
  · show Hears app _ ((before.showPairing pairing).askUnlock status).activePopup
    obtain stays | closes | opens := @askUnlock_popup (before.showPairing pairing) status
    · rw [stays]
      cases pairing with
      | none =>
          obtain stays | closes := @showPairing_none before
          · rw [stays, popup]
            exact .same _
          · rw [closes]
            exact .closed _
      | some prompt =>
          obtain stays | opens := @showPairing_some before prompt
          · rw [stays, popup]
            exact .same _
          · rw [opens]
            exact .pairing status peers prompt
    · rw [closes]
      exact .closed _
    · rw [opens]
      exact .unlock _
  · intro peer member
    have same : ((before.showPairing pairing).askUnlock status).peers = peers := listed'.trans (listed.trans list)
    exact .inr ⟨status, peers, pairing, rfl, same ▸ member⟩

theorem told_handleLinkEvent (event : LinkEvent) : Told app (app.handleLinkEvent event) event := by
  unfold handleLinkEvent
  split
  · exact told_refreshed _ _ _
  · exact told_gone rfl rfl rfl rfl (fun _ _ => rfl) fun never => absurd rfl (never _)
  · exact told_requestRefresh (fun _ same => by cases same) rfl rfl rfl rfl
  · exact told_gone rfl rfl rfl rfl (fun _ same => by cases same) fun _ => rfl
  · next ok error _ _ =>
    have other (result : Except LinkErrors (Status × List PeerInfo × Option PairingPrompt)) : event ≠ .refreshed result := by
      intro same
      rw [same] at ok error
      cases result with
      | error e => exact error e rfl
      | ok refresh => exact ok refresh.1 refresh.2.1 refresh.2.2 rfl
    exact told_requestRefresh other rfl rfl rfl rfl

end App

end Tui

end CesaConn
