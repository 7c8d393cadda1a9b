import CesaConn.Daemon.Tasks
import CesaConn.Ipc.Response

/-! The state of the terminal UI, what keys do to it, and what the daemon link reports.

One popup at a time takes all keys. A link event may come at any moment; it opens a
popup only where there is none, and closes a pairing or an unlock prompt that is over.
A text is typed into `inputBuf`, passwords included. What is drawn and logged is left
out.
-/

set_option autoImplicit false

namespace CesaConn

namespace Tui

open Format Ipc
open Auth (PairingCode)
open Daemon (KeyKind DaemonError)

/-! ## State -/

inductive LinkErrors where
  | unsupported
  | noRuntimeDir
  | insecureDirectory
  | failedToPrepareSocket
  | failedToConnect
  | untrustedDaemon
  | failedToRead
  | failedToWrite
  | timeout
  | frameTooLarge
  | malformed
  | daemon (error : DaemonError)
  deriving DecidableEq

inductive Command where
  | refresh
  | setPassword (kind : KeyKind) (update : PasswordUpdate)
  | unlock (update : PasswordUpdate)
  | setAutoLogin (on : Bool)
  | setSync (on : Bool)
  | setClipboard (on : Bool)
  | addDevice
  | answerPairing (id : UInt32) (code : PairingCode) (accept : Bool)
  | joinGroup (passwords : JoinPasswords)
  | cancelJoin
  | stopAddDevice
  | forgetPeer (fingerprint : Block fingerprintLen)
  | resetDevice
  deriving DecidableEq

inductive LinkEvent where
  | refreshed (result : Except LinkErrors (Status × List PeerInfo × Option PairingPrompt))
  | passwordSet (kind : KeyKind) (result : Except LinkErrors Unit)
  | unlocked (result : Except LinkErrors Unit)
  | autoLoginSet (on : Bool) (result : Except LinkErrors Unit)
  | syncSet (on : Bool) (result : Except LinkErrors Unit)
  | clipboardSet (on : Bool) (result : Except LinkErrors Unit)
  | addDeviceStarted (result : Except LinkErrors Unit)
  | pairingAnswered (accept : Bool) (result : Except LinkErrors Unit)
  | joinStarted (result : Except LinkErrors Unit)
  | joinCancelled (result : Except LinkErrors Unit)
  | addDeviceStopped (result : Except LinkErrors Unit)
  | peerForgotten (result : Except LinkErrors Unit)
  | deviceReset (result : Except LinkErrors Unit)
  | workerStopped

inductive SettingKind where
  | secret (configured : Bool)
  /-- A secret in the locked vault: editing it unlocks instead. -/
  | locked
  | bool (on : Bool)
  | unavailable
  | action
  deriving DecidableEq

structure Setting where
  label : String
  kind : SettingKind
  warnMessage : Option String := none

def authKeyLabel : String := "Auth key"
def dataKeyLabel : String := "Data key"
def autoLoginLabel : String := "Automatic login"
def syncLabel : String := "Sync"
def clipboardLabel : String := "Clipboard sync"
def resetLabel : String := "Reset this device"

def resetWord : String := "RESET"

def inputCapacity : Nat := 512

inductive DaemonState where
  | unknown
  | up (status : Status)
  | down (error : LinkErrors)
  | noLink
  deriving DecidableEq

def DaemonState.status : DaemonState → Option Status
  | .up status => some status
  | _ => none

inductive Tab where
  | devices
  | settings
  | logs
  deriving DecidableEq

inductive JoinStep where
  | auth
  | data
  deriving DecidableEq

inductive ActivePopup where
  | none
  | pairing (prompt : PairingPrompt)
  | editSetting
  | securityWarning (idx : Nat)
  | confirmPasswordChange (kind : KeyKind)
  | joinGroup (step : JoinStep)
  | confirmForget (peer : PeerInfo)
  | confirmReset
  | unlock
  deriving DecidableEq

structure App where
  activeTab : Tab := .devices
  peerSelected : Option Nat := none
  settings : List Setting
  settingsSelected : Nat := 0
  logScroll : Nat := 0
  logFollow : Bool := true
  activePopup : ActivePopup := .none
  inputBuf : List Char := []
  /-- The join's first password while the second is typed. -/
  joinAuth : Bytes := []
  shouldQuit : Bool := false
  daemon : DaemonState := .unknown
  peers : List PeerInfo := []
  outbox : List Command := []
  refreshInFlight : Bool := false
  /-- The unlock prompt was shown for this locked spell. -/
  unlockAsked : Bool := false

def autoLoginWarning : String :=
  "Your data key will be stored in the OS keychain.\nIts security then depends on your OS and account:\nanyone who can unlock your session can use it.\nWe can't vouch for that."

def App.new : App where
  settings := [
    ⟨authKeyLabel, .secret false, none⟩,
    ⟨dataKeyLabel, .secret false, none⟩,
    ⟨autoLoginLabel, .bool false, some autoLoginWarning⟩,
    ⟨syncLabel, .bool false, none⟩,
    ⟨clipboardLabel, .bool false, none⟩,
    ⟨resetLabel, .action, none⟩]

inductive KeyCode where
  | char (c : Char)
  | enter
  | esc
  | backspace
  | tab
  | backTab
  | up
  | down
  | other
  deriving DecidableEq

structure KeyEvent where
  code : KeyCode
  control : Bool := false
  deriving DecidableEq

/-! ## Small changes -/

def wrapNext (i len : Nat) : Nat := if len = 0 then 0 else (i + 1) % len

def wrapPrev (i len : Nat) : Nat := if i = 0 then len - 1 else i - 1

/-- The first setting with this label gets a new kind. -/
def withKind (label : String) (kind : SettingKind) : List Setting → List Setting
  | [] => []
  | setting :: rest =>
      if setting.label = label then { setting with kind } :: rest else setting :: withKind label kind rest

namespace App

variable (app : App)

def queue (command : Command) : App := { app with outbox := app.outbox ++ [command] }

def requestRefresh : App :=
  if app.refreshInFlight then app else { app with refreshInFlight := true }.queue .refresh

def openPopup (popup : ActivePopup) : App := { app with activePopup := popup }

def close : App := { app with activePopup := .none }

def clearInput : App := { app with inputBuf := [] }

def wipeJoin : App := { app with joinAuth := [] }

/-- A character that would outgrow the buffer is not taken. -/
def pushInput (c : Char) : App :=
  if (encodeChars app.inputBuf).length + (String.utf8EncodeChar c).length ≤ inputCapacity then
    { app with inputBuf := app.inputBuf ++ [c] }
  else app

def popInput : App := { app with inputBuf := app.inputBuf.dropLast }

def typed : PasswordUpdate := ⟨encodeChars app.inputBuf⟩

def setKind (label : String) (kind : SettingKind) : App := { app with settings := withKind label kind app.settings }

def nextTab : App := { app with
  activeTab := match app.activeTab with
    | .devices => .settings
    | .settings => .logs
    | .logs => .devices }

def prevTab : App := { app with
  activeTab := match app.activeTab with
    | .devices => .logs
    | .settings => .devices
    | .logs => .settings }

def nextPeer : App :=
  if app.peers = [] then app
  else { app with peerSelected := some (app.peerSelected.elim 0 fun i => wrapNext i app.peers.length) }

def prevPeer : App :=
  if app.peers = [] then app
  else { app with peerSelected := some (app.peerSelected.elim 0 fun i => wrapPrev i app.peers.length) }

def selectedPeer : Option PeerInfo := app.peerSelected.bind fun i => app.peers[i]?

def clampPeerSelection : App := { app with
  peerSelected := match app.peerSelected, app.peers.length with
    | _, 0 => none
    | some i, len => some (min i (len - 1))
    | none, _ => some 0 }

def nextSetting : App := { app with settingsSelected := wrapNext app.settingsSelected app.settings.length }

def prevSetting : App := { app with settingsSelected := wrapPrev app.settingsSelected app.settings.length }

def settingAt : Option Setting := app.settings[app.settingsSelected]?

def labelAt (idx : Nat) : Option String := app.settings[idx]?.map Setting.label

def selectedKeyKind : Option KeyKind :=
  if app.labelAt app.settingsSelected = some authKeyLabel then some .auth
  else if app.labelAt app.settingsSelected = some dataKeyLabel then some .data
  else none

/-- Seconds the daemon still refuses to unlock. -/
def unlockWait : Nat :=
  match app.daemon with
  | .up status => if status.locked then status.unlockWaitSecs.toNat else 0
  | _ => 0

def isLocked : Bool := app.daemon.status.any Status.locked

end App

end Tui

end CesaConn
