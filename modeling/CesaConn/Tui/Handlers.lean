import CesaConn.Tui.App

/-! What a key press and a link event do. -/

set_option autoImplicit false

namespace CesaConn

namespace Tui

open Format Ipc
open Daemon (minNewPasswordLen)

namespace App

variable (app : App)

/-! ## Keys -/

/-- The password that the edit popup was opened for goes to the daemon: to unlock it
while it is locked, as a new one otherwise. -/
def sendPasswordFromInput : App :=
  match app.selectedKeyKind with
  | none => app
  | some kind =>
      if app.inputBuf = [] then app
      else if app.isLocked then
        -- the daemon would refuse it without looking at the password
        if kind = .data && 0 < app.unlockWait then app
        else if kind = .data then app.queue (.unlock app.typed)
        else app
      else if app.inputBuf.length < minNewPasswordLen then app
      else app.queue (.setPassword kind app.typed)

def edit (code : KeyCode) : App :=
  match code with
  | .backspace => app.popInput
  | .char c => app.pushInput c
  | _ => app

def handleEditSettingInput (code : KeyCode) : App :=
  match code with
  | .esc => app.close.clearInput
  | .enter => app.sendPasswordFromInput.close.clearInput
  | code => app.edit code

def handleUnlockInput (code : KeyCode) : App :=
  match code with
  | .esc => app.clearInput.close
  | .enter =>
      if app.inputBuf = [] then app
      else (app.queue (.unlock app.typed)).clearInput.close
  | code => app.edit code

def handleConfirmResetInput (code : KeyCode) : App :=
  match code with
  | .esc => app.clearInput.close
  | .enter => if app.inputBuf = resetWord.toList then app.clearInput.close.queue .resetDevice else app
  | code => app.edit code

def handleJoinInput (code : KeyCode) (step : JoinStep) : App :=
  match code with
  | .esc => app.clearInput.wipeJoin.close
  | .enter =>
      if app.inputBuf = [] then app
      else
        match step with
        | .auth =>
            { app.wipeJoin with joinAuth := encodeChars app.inputBuf }.clearInput.openPopup (.joinGroup .data)
        | .data => (app.queue (.joinGroup ⟨⟨app.joinAuth⟩, app.typed⟩)).wipeJoin.clearInput.close
  | code => app.edit code

/-- y or Y. -/
def isYes (code : KeyCode) : Bool := code = .char 'y' || code = .char 'Y'

/-- Esc, n or N. -/
def isNo (code : KeyCode) : Bool := code = .esc || code = .char 'n' || code = .char 'N'

def handlePairingInput (code : KeyCode) (prompt : PairingPrompt) : App :=
  if isYes code then (app.queue (.answerPairing prompt.id prompt.code true)).close
  else if isNo code then (app.queue (.answerPairing prompt.id prompt.code false)).close
  else app

def handleSecurityWarningInput (code : KeyCode) (idx : Nat) : App :=
  if isYes code then
    (if app.labelAt idx = some autoLoginLabel then app.queue (.setAutoLogin true) else app).close
  else if isNo code then app.close
  else app

/-- y goes on to typing the new password. -/
def handleConfirmChangeInput (code : KeyCode) : App :=
  if isYes code then app.clearInput.openPopup .editSetting
  else if isNo code then app.close
  else app

def handleConfirmForgetInput (code : KeyCode) (peer : PeerInfo) : App :=
  if isYes code then (app.queue (.forgetPeer peer.fingerprint)).close
  else if isNo code then app.close
  else app

def handleSwitch (on warns : Bool) : App :=
  let label := app.labelAt app.settingsSelected
  if !on && warns then app.openPopup (.securityWarning app.settingsSelected)
  else if label = some autoLoginLabel then app.queue (.setAutoLogin false)
  else if label = some syncLabel then app.queue (.setSync !on)
  else if label = some clipboardLabel then app.queue (.setClipboard !on)
  else app

def handleSettingsEnter : App :=
  if app.labelAt app.settingsSelected = some resetLabel then app.clearInput.openPopup .confirmReset
  else
    match app.settingAt.map Setting.kind with
    | some (.bool on) => app.handleSwitch on (app.settingAt.any fun setting => setting.warnMessage.isSome)
    | some .unavailable => app
    | kind =>
        if kind = some .locked ∧ 0 < app.unlockWait then app
        else
          match app.selectedKeyKind with
          | some key =>
              -- changing a password that is already set: ask first
              if kind = some (.secret true) then app.openPopup (.confirmPasswordChange key)
              else app.clearInput.openPopup .editSetting
          | none => app.clearInput.openPopup .editSetting

/-- No keys and nothing saved: this device can join a group. -/
def isFresh (status : Status) : Bool :=
  !status.authKeySet && !status.dataKeySet && !status.locked && !status.saved

def startAddDevice : App :=
  match app.daemon with
  | .up status =>
      if status.networkRunning then app.queue .addDevice
      else if status.joining then app
      else if isFresh status then app.clearInput.wipeJoin.openPopup (.joinGroup .auth)
      else app
  | _ => app

def stopOrCancel : App :=
  match app.daemon with
  | .up status =>
      if status.joining then app.queue .cancelJoin
      else if status.networkRunning then app.queue .stopAddDevice
      else app
  | _ => app

def askForgetSelected : App :=
  match app.selectedPeer with
  | some peer => app.openPopup (.confirmForget peer)
  | none => app

def handleDevices (code : KeyCode) : App :=
  match code with
  | .up | .char 'k' => app.prevPeer
  | .down | .char 'j' => app.nextPeer
  | .char 'n' => app.startAddDevice
  | .char 'x' => app.stopOrCancel
  | .char 'd' => app.askForgetSelected
  | _ => app

def handleSettings (code : KeyCode) : App :=
  match code with
  | .up | .char 'k' => app.prevSetting
  | .down | .char 'j' => app.nextSetting
  | .enter => app.handleSettingsEnter
  | _ => app

def handleLogs (code : KeyCode) : App :=
  match code with
  | .up | .char 'k' => { app with logFollow := false, logScroll := app.logScroll - 1 }
  | .down | .char 'j' => { app with logScroll := min (app.logScroll + 1) (2 ^ 16 - 1) }
  | .char 'f' => { app with logFollow := !app.logFollow }
  | _ => app

/-- The keys that work on every tab, before those of the tab they lead to. -/
def handleTabs (code : KeyCode) : App :=
  match code with
  | .char 'q' => { app with shouldQuit := true }
  | .tab => app.nextTab
  | .backTab => app.prevTab
  | _ => app

def handleTab (code : KeyCode) : App :=
  match app.activeTab with
  | .devices => app.handleDevices code
  | .settings => app.handleSettings code
  | .logs => app.handleLogs code

def handleInput (key : KeyEvent) : App :=
  if key.code = .char 'c' ∧ key.control then { app with shouldQuit := true }
  else
    match app.activePopup with
    | .pairing prompt => app.handlePairingInput key.code prompt
    | .editSetting => app.handleEditSettingInput key.code
    | .securityWarning idx => app.handleSecurityWarningInput key.code idx
    | .confirmPasswordChange _ => app.handleConfirmChangeInput key.code
    | .joinGroup step => app.handleJoinInput key.code step
    | .confirmForget peer => app.handleConfirmForgetInput key.code peer
    | .confirmReset => app.handleConfirmResetInput key.code
    | .unlock => app.handleUnlockInput key.code
    | .none => (app.handleTabs key.code).handleTab key.code

/-! ## Link events -/

def setKeyFlags (auth data : Bool) : App :=
  (app.setKind authKeyLabel (.secret auth)).setKind dataKeyLabel (.secret data)

/-- Never over another popup; a shown prompt that the daemon no longer has is closed. -/
def showPairing (pairing : Option PairingPrompt) : App :=
  match app.activePopup, pairing with
  | .pairing shown, some prompt => if shown = prompt then app else app.openPopup (.pairing prompt)
  | .none, some prompt => app.openPopup (.pairing prompt)
  | .pairing _, none => app.close
  | _, _ => app

/-- Once per locked spell, while the daemon takes a password, and never over another popup. -/
def askUnlock (status : Status) : App :=
  if !status.locked then
    let app := { app with unlockAsked := false }
    if app.activePopup = .unlock then app.clearInput.close else app
  else if status.unlockWaitSecs = 0 ∧ !app.unlockAsked ∧ app.activePopup = .none then
    { app.clearInput.openPopup .unlock with unlockAsked := true }
  else app

def showStatus (status : Status) : App :=
  let app := app.setKeyFlags status.authKeySet status.dataKeySet
  let app := if status.locked then (app.setKind authKeyLabel .locked).setKind dataKeyLabel .locked else app
  let app := (app.setKind autoLoginLabel (.bool status.autoLogin)).setKind syncLabel (.bool status.syncEnabled)
  app.setKind clipboardLabel (if status.clipboardUnavailable then .unavailable else .bool status.clipboardEnabled)

def forgetStatus : App := { app.setKeyFlags false false with peers := [] }.clampPeerSelection

def handleRefreshed (status : Status) (peers : List PeerInfo) (pairing : Option PairingPrompt) : App :=
  let app := { app with refreshInFlight := false }.showStatus status
  let app := { app with peers }.clampPeerSelection
  { (app.showPairing pairing).askUnlock status with daemon := .up status }

def handleLinkEvent (event : LinkEvent) : App :=
  match event with
  | .refreshed (.ok (status, peers, pairing)) => app.handleRefreshed status peers pairing
  | .refreshed (.error e) =>
      { { app with refreshInFlight := false, unlockAsked := false }.forgetStatus with daemon := .down e }.showPairing none
  | .unlocked (.error (.daemon .wrongPassword)) => { app with unlockAsked := false }.requestRefresh
  | .workerStopped => { app.forgetStatus with daemon := .noLink }.showPairing none
  | _ => app.requestRefresh

def takeOutbox : App := { app with outbox := [] }

end App

inductive Event where
  | key (key : KeyEvent)
  | link (event : LinkEvent)
  /-- A refresh is due. -/
  | refreshDue
  | takeOutbox

def App.step (app : App) : Event → App
  | .key key => app.handleInput key
  | .link event => app.handleLinkEvent event
  | .refreshDue => app.requestRefresh
  | .takeOutbox => app.takeOutbox

end Tui

end CesaConn
