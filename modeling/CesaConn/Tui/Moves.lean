import CesaConn.Tui.Handlers

/-! What one event does to the popup, the texts and the outbox.

Each handler is looked through once. What a run keeps is told from the outcome only.
-/

set_option autoImplicit false

namespace CesaConn

namespace Tui

open Format Ipc
open Daemon (KeyKind)

/-! ## Typing -/

def KeyCode.edits : KeyCode → Bool
  | .char _ | .backspace => true
  | _ => false

def Event.typed : Event → List KeyCode
  | .key press => if press.code = .char 'c' ∧ press.control then [] else [press.code].filter KeyCode.edits
  | _ => []

def Event.yes : Event → Bool
  | .key press => App.isYes press.code
  | _ => false

def ActivePopup.takesText : ActivePopup → Bool
  | .editSetting | .joinGroup _ | .confirmReset | .unlock => true
  | _ => false

def takeKey (text : List Char) : KeyCode → List Char
  | .char c =>
      if (encodeChars text).length + (String.utf8EncodeChar c).length ≤ inputCapacity then text ++ [c] else text
  | .backspace => text.dropLast
  | _ => text

theorem takeKey_of_fits {text : List Char} {c : Char}
    (room : (encodeChars text).length + (String.utf8EncodeChar c).length ≤ inputCapacity) :
    takeKey text (.char c) = text ++ [c] := if_pos room

theorem takeKey_of_full {text : List Char} {c : Char}
    (full : ¬(encodeChars text).length + (String.utf8EncodeChar c).length ≤ inputCapacity) :
    takeKey text (.char c) = text := if_neg full

theorem App.edit_eq (app : App) (code : KeyCode) :
    app.edit code = { app with inputBuf := takeKey app.inputBuf code } := by
  cases code with
  | char c =>
      by_cases room : (encodeChars app.inputBuf).length + (String.utf8EncodeChar c).length ≤ inputCapacity
      · rw [takeKey_of_fits room]
        exact if_pos room
      · rw [takeKey_of_full room]
        exact if_neg room
  | _ => rfl

/-! ## Outcomes -/

def App.Says (app : App) : Command → Prop
  | .setPassword kind update =>
      app.activePopup = .editSetting ∧ app.selectedKeyKind = some kind ∧ app.isLocked = false ∧
        app.inputBuf ≠ [] ∧ update = app.typed
  | .unlock update => app.activePopup.takesText = true ∧ app.inputBuf ≠ [] ∧ update = app.typed
  | .joinGroup passwords =>
      app.activePopup = .joinGroup .data ∧ app.inputBuf ≠ [] ∧ passwords = ⟨⟨app.joinAuth⟩, app.typed⟩
  | _ => True

def App.Queues (before after : App) : Prop :=
  ∃ new, after.outbox = before.outbox ++ new ∧ ∀ command ∈ new, before.Says command

def ActivePopup.besides : ActivePopup → Prop
  | .editSetting | .confirmPasswordChange _ => False
  | _ => True

inductive Turn (before after : App) (yes : Bool) : Prop where
  | other (popup : after.activePopup.besides)
  /-- A password is typed at once, for a key that is not set. -/
  | opens (none : before.activePopup = .none) (popup : after.activePopup = .editSetting)
      (selected : after.settingsSelected = before.settingsSelected)
      (unset : ∀ kind, before.selectedKeyKind = some kind → before.settingAt.map Setting.kind ≠ some (.secret true))
  | asks (kind : KeyKind) (none : before.activePopup = .none) (popup : after.activePopup = .confirmPasswordChange kind)
      (selected : after.settingsSelected = before.settingsSelected) (key : before.selectedKeyKind = some kind)
      (set : before.settingAt.map Setting.kind = some (.secret true))
  | answers (kind : KeyKind) (asked : before.activePopup = .confirmPasswordChange kind)
      (popup : after.activePopup = .editSetting) (selected : after.settingsSelected = before.settingsSelected)
      (said : yes = true)

/-- What a step does to the popup and the texts, if these keys were typed. The selection
is the one a popup was opened for. -/
inductive Change (before after : App) (keys : List KeyCode) (yes : Bool) : Prop where
  | stays (popup : after.activePopup = before.activePopup) (auth : after.joinAuth = before.joinAuth)
      (text : after.inputBuf = if before.activePopup.takesText then keys.foldl takeKey before.inputBuf else before.inputBuf)
      (selected : before.activePopup = .none ∨ after.settingsSelected = before.settingsSelected)
  /-- The popup closes, or another one opens; what it held is wiped. -/
  | moves (popup : after.activePopup ≠ before.activePopup) (data : after.activePopup ≠ .joinGroup .data)
      (text : after.inputBuf = [] ∨ after.inputBuf = before.inputBuf ∧ before.activePopup.takesText = false)
      (auth : after.joinAuth = [] ∨ after.joinAuth = before.joinAuth ∧ before.activePopup ≠ .joinGroup .data)
      (turn : Turn before after yes)
  /-- The first password of a join is kept while the second is typed. -/
  | goesOn (first : before.activePopup = .joinGroup .auth) (second : after.activePopup = .joinGroup .data)
      (typed : before.inputBuf ≠ []) (text : after.inputBuf = []) (auth : after.joinAuth = encodeChars before.inputBuf)

def Kept (before after : App) : Prop := after.settings = before.settings ∧ after.daemon = before.daemon

structure Pressed (before after : App) (keys : List KeyCode) (yes : Bool) : Prop where
  kept : Kept before after
  queues : before.Queues after
  change : Change before after keys yes

structure Heard (before after : App) : Prop where
  queues : before.Queues after
  change : Change before after [] false

namespace App

variable {app after : App} {keys : List KeyCode} {yes : Bool}

theorem queues_nothing (same : after.outbox = app.outbox) : app.Queues after :=
  ⟨[], by rw [same, List.append_nil], fun _ member => by cases member⟩

theorem queues_one (command : Command) (one : after.outbox = app.outbox ++ [command]) (holds : app.Says command) :
    app.Queues after := by
  refine ⟨[command], one, ?_⟩
  intro other member
  rw [List.mem_singleton.mp member]
  exact holds

/-! ## Popups with a text -/

theorem pressed_edit (popup : app.activePopup.takesText = true) (code : KeyCode) :
    Pressed app (app.edit code) ([code].filter KeyCode.edits) yes := by
  rw [edit_eq]
  refine ⟨⟨rfl, rfl⟩, queues_nothing rfl, .stays rfl rfl ?_ (.inr rfl)⟩
  rw [if_pos popup]
  cases code <;> rfl

theorem change_nothing (inert : keys = [] ∨ app.activePopup.takesText = false) : Change app app keys yes := by
  refine .stays rfl rfl ?_ (.inr rfl)
  obtain rfl | closed := inert
  · exact (ite_self _).symm
  · rw [closed]
    rfl

theorem pressed_nothing (inert : keys = [] ∨ app.activePopup.takesText = false) : Pressed app app keys yes :=
  ⟨⟨rfl, rfl⟩, queues_nothing rfl, change_nothing inert⟩

theorem pressed_closes {shown : ActivePopup} (popup : app.activePopup = shown) (some : shown ≠ .none)
    (kept : Kept app after) (queues : app.Queues after) (none : after.activePopup = .none) (text : after.inputBuf = [])
    (auth : after.joinAuth = [] ∨ after.joinAuth = app.joinAuth ∧ shown ≠ .joinGroup .data) :
    Pressed app after keys yes := by
  refine ⟨kept, queues, .moves ?_ ?_ (.inl text) ?_ (.other ?_)⟩
  · rw [none, popup]
    exact some.symm
  · rw [none]
    decide
  · rw [popup]
    exact auth
  · rw [none]
    trivial

theorem pressed_handleEditSettingInput (popup : app.activePopup = .editSetting) (code : KeyCode) :
    Pressed app (app.handleEditSettingInput code) ([code].filter KeyCode.edits) yes := by
  unfold handleEditSettingInput
  split
  · exact pressed_closes popup (by decide) ⟨rfl, rfl⟩ (queues_nothing rfl) rfl rfl (.inr ⟨rfl, by decide⟩)
  · have closes {after : App} (kept : Kept app after) (auth : after.joinAuth = app.joinAuth) (queues : app.Queues after) :
        Pressed app after.close.clearInput [] yes :=
      pressed_closes popup (by decide) kept queues rfl rfl (.inr ⟨auth, by decide⟩)
    unfold sendPasswordFromInput
    split
    · exact closes ⟨rfl, rfl⟩ rfl (queues_nothing rfl)
    · next kind selected =>
      by_cases empty : app.inputBuf = []
      · rw [if_pos empty]
        exact closes ⟨rfl, rfl⟩ rfl (queues_nothing rfl)
      rw [if_neg empty]
      by_cases locked : app.isLocked = true
      · rw [if_pos locked]
        split
        · exact closes ⟨rfl, rfl⟩ rfl (queues_nothing rfl)
        · split
          · exact closes ⟨rfl, rfl⟩ rfl (queues_one (.unlock app.typed) rfl ⟨by rw [popup]; rfl, empty, rfl⟩)
          · exact closes ⟨rfl, rfl⟩ rfl (queues_nothing rfl)
      · rw [if_neg locked]
        split
        · exact closes ⟨rfl, rfl⟩ rfl (queues_nothing rfl)
        · exact closes ⟨rfl, rfl⟩ rfl (queues_one (.setPassword kind app.typed) rfl
            ⟨popup, selected, Bool.not_eq_true _ ▸ locked, empty, rfl⟩)
  · apply pressed_edit
    rw [popup]
    rfl

theorem pressed_handleUnlockInput (popup : app.activePopup = .unlock) (code : KeyCode) :
    Pressed app (app.handleUnlockInput code) ([code].filter KeyCode.edits) yes := by
  unfold handleUnlockInput
  split
  · exact pressed_closes popup (by decide) ⟨rfl, rfl⟩ (queues_nothing rfl) rfl rfl (.inr ⟨rfl, by decide⟩)
  · split
    · exact pressed_nothing (.inl rfl)
    · next some =>
      exact pressed_closes popup (by decide) ⟨rfl, rfl⟩
        (queues_one (.unlock app.typed) rfl ⟨by rw [popup]; rfl, some, rfl⟩) rfl rfl (.inr ⟨rfl, by decide⟩)
  · apply pressed_edit
    rw [popup]
    rfl

theorem pressed_handleConfirmResetInput (popup : app.activePopup = .confirmReset) (code : KeyCode) :
    Pressed app (app.handleConfirmResetInput code) ([code].filter KeyCode.edits) yes := by
  unfold handleConfirmResetInput
  split
  · exact pressed_closes popup (by decide) ⟨rfl, rfl⟩ (queues_nothing rfl) rfl rfl (.inr ⟨rfl, by decide⟩)
  · split
    · exact pressed_closes popup (by decide) ⟨rfl, rfl⟩ (queues_one .resetDevice rfl trivial) rfl rfl
        (.inr ⟨rfl, by decide⟩)
    · exact pressed_nothing (.inl rfl)
  · apply pressed_edit
    rw [popup]
    rfl

theorem pressed_handleJoinInput {step : JoinStep} (popup : app.activePopup = .joinGroup step) (code : KeyCode) :
    Pressed app (app.handleJoinInput code step) ([code].filter KeyCode.edits) yes := by
  unfold handleJoinInput
  split
  · exact pressed_closes popup (by simp) ⟨rfl, rfl⟩ (queues_nothing rfl) rfl rfl (.inl rfl)
  · by_cases empty : app.inputBuf = []
    · rw [if_pos empty]
      exact pressed_nothing (.inl rfl)
    · rw [if_neg empty]
      cases step with
      | auth => exact ⟨⟨rfl, rfl⟩, queues_nothing rfl, .goesOn popup rfl empty rfl rfl⟩
      | data =>
          exact pressed_closes popup (by decide) ⟨rfl, rfl⟩
            (queues_one (.joinGroup ⟨⟨app.joinAuth⟩, app.typed⟩) rfl ⟨popup, empty, rfl⟩) rfl rfl (.inl rfl)
  · apply pressed_edit
    rw [popup]
    rfl

/-! ## Popups without one -/

/-- A popup without a text gives way to one that is not the second step of a join. -/
theorem change_popup (closed : app.activePopup.takesText = false) (popup : after.activePopup ≠ app.activePopup)
    (data : after.activePopup ≠ .joinGroup .data) (text : after.inputBuf = [] ∨ after.inputBuf = app.inputBuf)
    (auth : after.joinAuth = [] ∨ after.joinAuth = app.joinAuth) (turn : Turn app after yes) :
    Change app after keys yes := by
  refine .moves popup data (text.imp_right fun same => ⟨same, closed⟩) (auth.imp_right fun same => ⟨same, ?_⟩) turn
  intro second
  rw [second] at closed
  cases closed

theorem pressed_dismisses {shown : ActivePopup} (popup : app.activePopup = shown) (closed : shown.takesText = false)
    (some : shown ≠ .none) (kept : Kept app after) (queues : app.Queues after) (none : after.activePopup = .none)
    (text : after.inputBuf = app.inputBuf) (auth : after.joinAuth = app.joinAuth) : Pressed app after keys yes := by
  refine ⟨kept, queues, change_popup ?_ ?_ ?_ (.inr text) (.inr auth) (.other ?_)⟩
  · rw [popup]
    exact closed
  · rw [none, popup]
    exact some.symm
  · rw [none]
    decide
  · rw [none]
    trivial

theorem pressed_handlePairingInput {prompt : PairingPrompt} (popup : app.activePopup = .pairing prompt) (code : KeyCode) :
    Pressed app (app.handlePairingInput code prompt) keys yes := by
  unfold handlePairingInput
  split
  · exact pressed_dismisses popup rfl (by simp) ⟨rfl, rfl⟩ (queues_one (.answerPairing _ _ true) rfl trivial) rfl rfl rfl
  · split
    · exact pressed_dismisses popup rfl (by simp) ⟨rfl, rfl⟩ (queues_one (.answerPairing _ _ false) rfl trivial) rfl rfl rfl
    · exact pressed_nothing (.inr (by rw [popup]; rfl))

theorem pressed_handleSecurityWarningInput {idx : Nat} (popup : app.activePopup = .securityWarning idx) (code : KeyCode) :
    Pressed app (app.handleSecurityWarningInput code idx) keys yes := by
  unfold handleSecurityWarningInput
  split
  · split
    · exact pressed_dismisses popup rfl (by simp) ⟨rfl, rfl⟩ (queues_one (.setAutoLogin true) rfl trivial) rfl rfl rfl
    · exact pressed_dismisses popup rfl (by simp) ⟨rfl, rfl⟩ (queues_nothing rfl) rfl rfl rfl
  · split
    · exact pressed_dismisses popup rfl (by simp) ⟨rfl, rfl⟩ (queues_nothing rfl) rfl rfl rfl
    · exact pressed_nothing (.inr (by rw [popup]; rfl))

theorem pressed_handleConfirmForgetInput {peer : PeerInfo} (popup : app.activePopup = .confirmForget peer) (code : KeyCode) :
    Pressed app (app.handleConfirmForgetInput code peer) keys yes := by
  unfold handleConfirmForgetInput
  split
  · exact pressed_dismisses popup rfl (by simp) ⟨rfl, rfl⟩ (queues_one (.forgetPeer _) rfl trivial) rfl rfl rfl
  · split
    · exact pressed_dismisses popup rfl (by simp) ⟨rfl, rfl⟩ (queues_nothing rfl) rfl rfl rfl
    · exact pressed_nothing (.inr (by rw [popup]; rfl))

theorem pressed_handleConfirmChangeInput {kind : KeyKind} (popup : app.activePopup = .confirmPasswordChange kind)
    (code : KeyCode) : Pressed app (app.handleConfirmChangeInput code) keys (isYes code) := by
  have closed : app.activePopup.takesText = false := by rw [popup]; rfl
  unfold handleConfirmChangeInput
  split
  · next said =>
    refine ⟨⟨rfl, rfl⟩, queues_nothing rfl, change_popup closed ?_ ?_ (.inl rfl) (.inr rfl) (.answers kind popup rfl rfl said)⟩
    · rw [popup]
      simp [openPopup]
    · simp [openPopup]
  · split
    · exact pressed_dismisses popup rfl (by simp) ⟨rfl, rfl⟩ (queues_nothing rfl) rfl rfl rfl
    · exact pressed_nothing (.inr closed)

/-! ## No popup -/

section

variable (none : app.activePopup = .none)
include none

/-- Where there is no popup a key mostly changes what is selected, or queues a command. -/
theorem pressed_quiet (kept : Kept app after) (queues : app.Queues after) (popup : after.activePopup = app.activePopup)
    (text : after.inputBuf = app.inputBuf) (auth : after.joinAuth = app.joinAuth) : Pressed app after keys yes := by
  refine ⟨kept, queues, .stays popup auth ?_ (.inl none)⟩
  rw [none]
  exact text

theorem pressed_opens (popup : ActivePopup) (shown : after.activePopup = popup) (some : popup ≠ .none)
    (data : popup ≠ .joinGroup .data) (kept : Kept app after) (queues : app.Queues after)
    (text : after.inputBuf = [] ∨ after.inputBuf = app.inputBuf) (auth : after.joinAuth = [] ∨ after.joinAuth = app.joinAuth)
    (turn : Turn app after yes) : Pressed app after keys yes := by
  refine ⟨kept, queues, change_popup ?_ ?_ ?_ text auth turn⟩
  · rw [none]
    rfl
  · rw [shown, none]
    exact some
  · rw [shown]
    exact data

theorem pressed_handleDevices (code : KeyCode) : Pressed app (app.handleDevices code) keys yes := by
  have quiet {after : App} (kept : Kept app after) (popup : after.activePopup = app.activePopup)
      (text : after.inputBuf = app.inputBuf) (auth : after.joinAuth = app.joinAuth) (queues : app.Queues after) :
      Pressed app after keys yes := pressed_quiet none kept queues popup text auth
  unfold handleDevices
  split
  all_goals try exact quiet ⟨rfl, rfl⟩ rfl rfl rfl (queues_nothing rfl)
  · unfold prevPeer
    split <;> exact quiet ⟨rfl, rfl⟩ rfl rfl rfl (queues_nothing rfl)
  · unfold prevPeer
    split <;> exact quiet ⟨rfl, rfl⟩ rfl rfl rfl (queues_nothing rfl)
  · unfold nextPeer
    split <;> exact quiet ⟨rfl, rfl⟩ rfl rfl rfl (queues_nothing rfl)
  · unfold nextPeer
    split <;> exact quiet ⟨rfl, rfl⟩ rfl rfl rfl (queues_nothing rfl)
  · unfold startAddDevice
    split
    · split
      · exact quiet ⟨rfl, rfl⟩ rfl rfl rfl (queues_one .addDevice rfl trivial)
      · split
        · exact quiet ⟨rfl, rfl⟩ rfl rfl rfl (queues_nothing rfl)
        · split
          · exact pressed_opens none (.joinGroup .auth) rfl (by decide) (by decide) ⟨rfl, rfl⟩ (queues_nothing rfl) (.inl rfl) (.inl rfl)
              (.other trivial)
          · exact quiet ⟨rfl, rfl⟩ rfl rfl rfl (queues_nothing rfl)
    · exact quiet ⟨rfl, rfl⟩ rfl rfl rfl (queues_nothing rfl)
  · unfold stopOrCancel
    split
    · split
      · exact quiet ⟨rfl, rfl⟩ rfl rfl rfl (queues_one .cancelJoin rfl trivial)
      · split
        · exact quiet ⟨rfl, rfl⟩ rfl rfl rfl (queues_one .stopAddDevice rfl trivial)
        · exact quiet ⟨rfl, rfl⟩ rfl rfl rfl (queues_nothing rfl)
    · exact quiet ⟨rfl, rfl⟩ rfl rfl rfl (queues_nothing rfl)
  · unfold askForgetSelected
    split
    · exact pressed_opens none (.confirmForget _) rfl (by simp) (by simp) ⟨rfl, rfl⟩ (queues_nothing rfl) (.inr rfl) (.inr rfl) (.other trivial)
    · exact quiet ⟨rfl, rfl⟩ rfl rfl rfl (queues_nothing rfl)

theorem pressed_handleSwitch (on warns : Bool) : Pressed app (app.handleSwitch on warns) keys yes := by
  simp only [handleSwitch]
  split
  · exact pressed_opens none (.securityWarning _) rfl (by simp) (by simp) ⟨rfl, rfl⟩ (queues_nothing rfl) (.inr rfl) (.inr rfl) (.other trivial)
  · split
    · exact pressed_quiet none ⟨rfl, rfl⟩ (queues_one (.setAutoLogin false) rfl trivial) rfl rfl rfl
    · split
      · exact pressed_quiet none ⟨rfl, rfl⟩ (queues_one (.setSync !on) rfl trivial) rfl rfl rfl
      · split
        · exact pressed_quiet none ⟨rfl, rfl⟩ (queues_one (.setClipboard !on) rfl trivial) rfl rfl rfl
        · exact pressed_quiet none ⟨rfl, rfl⟩ (queues_nothing rfl) rfl rfl rfl

theorem pressed_handleSettingsEnter : Pressed app app.handleSettingsEnter keys yes := by
  unfold handleSettingsEnter
  split
  · exact pressed_opens none .confirmReset rfl (by decide) (by decide) ⟨rfl, rfl⟩ (queues_nothing rfl) (.inl rfl) (.inr rfl)
      (.other trivial)
  · split
    · exact pressed_handleSwitch none _ _
    · exact pressed_quiet none ⟨rfl, rfl⟩ (queues_nothing rfl) rfl rfl rfl
    · split
      · exact pressed_quiet none ⟨rfl, rfl⟩ (queues_nothing rfl) rfl rfl rfl
      · split
        · next key selected =>
          split
          · next set =>
            exact pressed_opens none (.confirmPasswordChange key) rfl (by simp) (by simp) ⟨rfl, rfl⟩ (queues_nothing rfl) (.inr rfl) (.inr rfl)
              (.asks key none rfl rfl selected set)
          · next unset =>
            exact pressed_opens none .editSetting rfl (by decide) (by decide) ⟨rfl, rfl⟩ (queues_nothing rfl) (.inl rfl) (.inr rfl)
              (.opens none rfl rfl fun _ _ => unset)
        · next selected =>
          refine pressed_opens none .editSetting rfl (by decide) (by decide) ⟨rfl, rfl⟩ (queues_nothing rfl) (.inl rfl) (.inr rfl)
            (.opens none rfl rfl fun kind key => ?_)
          rw [selected] at key
          cases key

theorem pressed_handleTab (code : KeyCode) : Pressed app (app.handleTab code) keys yes := by
  unfold handleTab
  split
  · exact pressed_handleDevices none code
  · unfold handleSettings
    split
    all_goals try exact pressed_quiet none ⟨rfl, rfl⟩ (queues_nothing rfl) rfl rfl rfl
    exact pressed_handleSettingsEnter none
  · unfold handleLogs
    split <;> exact pressed_quiet none ⟨rfl, rfl⟩ (queues_nothing rfl) rfl rfl rfl

end

theorem handleTabs_eq (code : KeyCode) :
    ∃ tab quit, app.handleTabs code = { app with activeTab := tab, shouldQuit := quit } := by
  unfold handleTabs
  split
  · exact ⟨_, _, rfl⟩
  · exact ⟨_, _, rfl⟩
  · exact ⟨_, _, rfl⟩
  · exact ⟨_, _, rfl⟩

theorem pressed_handleInput (press : KeyEvent) :
    Pressed app (app.handleInput press) (Event.key press).typed (isYes press.code) := by
  by_cases quits : press.code = .char 'c' ∧ press.control = true
  · have typed : (Event.key press).typed = [] := if_pos quits
    rw [handleInput, if_pos quits, typed]
    exact ⟨⟨rfl, rfl⟩, queues_nothing rfl, .stays rfl rfl (ite_self _).symm (.inr rfl)⟩
  · have typed : (Event.key press).typed = [press.code].filter KeyCode.edits := if_neg quits
    rw [handleInput, if_neg quits, typed]
    split
    · next popup => exact pressed_handlePairingInput popup _
    · next popup => exact pressed_handleEditSettingInput popup _
    · next popup => exact pressed_handleSecurityWarningInput popup _
    · next popup => exact pressed_handleConfirmChangeInput popup _
    · next popup => exact pressed_handleJoinInput popup _
    · next popup => exact pressed_handleConfirmForgetInput popup _
    · next popup => exact pressed_handleConfirmResetInput popup _
    · next popup => exact pressed_handleUnlockInput popup _
    · next popup =>
      obtain ⟨tab, quit, tabs⟩ := app.handleTabs_eq press.code
      rw [tabs]
      obtain ⟨kept, queues, change⟩ :=
        @pressed_handleTab { app with activeTab := tab, shouldQuit := quit } ([press.code].filter KeyCode.edits)
          (isYes press.code) popup press.code
      -- what the tab is does not count
      refine ⟨kept, queues, ?_⟩
      cases change with
      | stays same auth text selected => exact .stays same auth text selected
      | goesOn first second some text auth => exact .goesOn first second some text auth
      | moves different data text auth turn =>
          refine .moves different data text auth ?_
          cases turn with
          | other besides => exact .other besides
          | opens none shown selected unset => exact .opens none shown selected unset
          | asks kind none shown selected key set => exact .asks kind none shown selected key set
          | answers kind asked shown selected said => exact .answers kind asked shown selected said

/-! ## Link events -/

/-- Only a refresh may be asked for. -/
theorem heard_requestRefresh (popup : after.activePopup = app.activePopup) (text : after.inputBuf = app.inputBuf)
    (auth : after.joinAuth = app.joinAuth) (selected : after.settingsSelected = app.settingsSelected)
    (outbox : after.outbox = app.outbox) : Heard app after.requestRefresh := by
  unfold requestRefresh
  split
  · exact ⟨queues_nothing outbox, .stays popup auth (text.trans (ite_self _).symm) (.inr selected)⟩
  · refine ⟨queues_one .refresh ?_ trivial, .stays popup auth (text.trans (ite_self _).symm) (.inr selected)⟩
    show after.outbox ++ [.refresh] = app.outbox ++ [.refresh]
    rw [outbox]

/-- A pairing comes where there is no popup, changes, or goes. -/
theorem showPairing_eq (pairing : Option PairingPrompt) :
    ∃ popup, app.showPairing pairing = { app with activePopup := popup } ∧
      (popup = app.activePopup ∨
        popup ≠ app.activePopup ∧ app.activePopup.takesText = false ∧ popup.takesText = false ∧ popup.besides) := by
  unfold showPairing
  split
  · next shown prompt popup =>
    split
    · exact ⟨app.activePopup, rfl, .inl rfl⟩
    · next different =>
      refine ⟨.pairing prompt, rfl, .inr ⟨?_, by rw [popup]; rfl, rfl, trivial⟩⟩
      rw [popup]
      intro same
      cases same
      exact different rfl
  · next prompt popup => exact ⟨.pairing prompt, rfl, .inr ⟨by simp [popup], by rw [popup]; rfl, rfl, trivial⟩⟩
  · next popup => exact ⟨.none, rfl, .inr ⟨by simp [popup], by rw [popup]; rfl, rfl, trivial⟩⟩
  · exact ⟨app.activePopup, rfl, .inl rfl⟩

theorem change_shown {popup : ActivePopup}
    (shown : popup = app.activePopup ∨
      popup ≠ app.activePopup ∧ app.activePopup.takesText = false ∧ popup.takesText = false ∧ popup.besides)
    (now : after.activePopup = popup) (text : after.inputBuf = app.inputBuf) (auth : after.joinAuth = app.joinAuth)
    (selected : after.settingsSelected = app.settingsSelected) : Change app after [] false := by
  obtain own | ⟨different, closed, none, besides⟩ := shown
  · exact .stays (now.trans own) auth (text.trans (ite_self _).symm) (.inr selected)
  · refine change_popup closed (by rwa [now]) ?_ (.inr text) (.inr auth) (.other (by rwa [now]))
    intro second
    rw [← now, second] at none
    cases none

theorem heard_showPairing (text : after.inputBuf = app.inputBuf) (auth : after.joinAuth = app.joinAuth)
    (popup : after.activePopup = app.activePopup) (selected : after.settingsSelected = app.settingsSelected)
    (outbox : after.outbox = app.outbox) (pairing : Option PairingPrompt) : Heard app (after.showPairing pairing) := by
  obtain ⟨shown, shows, changes⟩ := after.showPairing_eq pairing
  rw [shows]
  rw [popup] at changes
  exact ⟨queues_nothing outbox, change_shown changes rfl text auth selected⟩

theorem heard_askUnlock
    (shown : after.activePopup = app.activePopup ∨ after.activePopup ≠ app.activePopup ∧
      app.activePopup.takesText = false ∧ after.activePopup.takesText = false ∧ after.activePopup.besides)
    (text : after.inputBuf = app.inputBuf) (auth : after.joinAuth = app.joinAuth)
    (selected : after.settingsSelected = app.settingsSelected) (outbox : after.outbox = app.outbox)
    (status : Status) (daemon : DaemonState) : Heard app { after.askUnlock status with daemon } := by
  simp only [askUnlock]
  split
  · split
    · next unlock =>
      obtain own | ⟨-, -, none, -⟩ := shown
      · have unlock : app.activePopup = .unlock := own.symm.trans unlock
        refine ⟨queues_nothing outbox, .moves ?_ ?_ (.inl rfl) (.inr ⟨auth, ?_⟩) (.other trivial)⟩
        · simp [unlock, clearInput, close]
        · simp [clearInput, close]
        · rw [unlock]
          decide
      · have unlock : after.activePopup = .unlock := unlock
        rw [unlock] at none
        cases none
    · exact ⟨queues_nothing outbox, change_shown shown rfl text auth selected⟩
  · split
    · next opens =>
      have closed : app.activePopup.takesText = false := by
        obtain own | ⟨-, closed, -⟩ := shown
        · rw [← own, opens.2.2]
          rfl
        · exact closed
      refine ⟨queues_nothing outbox, change_popup closed ?_ ?_ (.inl rfl) (.inr auth) (.other trivial)⟩
      · intro same
        rw [← same] at closed
        cases closed
      · simp [openPopup]
    · exact ⟨queues_nothing outbox, change_shown shown rfl text auth selected⟩

theorem handleRefreshed_eq (status : Status) (peers : List PeerInfo) (pairing : Option PairingPrompt) :
    ∃ selected, app.handleRefreshed status peers pairing =
      { (App.showPairing { app with
            refreshInFlight := false
            settings := (app.showStatus status).settings
            peers
            peerSelected := selected } pairing).askUnlock status with daemon := .up status } := by
  have shows : App.showStatus { app with refreshInFlight := false } status =
      { app with refreshInFlight := false, settings := (app.showStatus status).settings } := by
    simp only [showStatus, setKeyFlags, setKind]
    split <;> rfl
  rw [handleRefreshed, shows]
  exact ⟨_, rfl⟩

theorem heard_handleLinkEvent (event : LinkEvent) : Heard app (app.handleLinkEvent event) := by
  unfold handleLinkEvent
  split
  · next status peers pairing =>
    obtain ⟨selected, refreshed⟩ := app.handleRefreshed_eq status peers pairing
    obtain ⟨popup, shown, changes⟩ := @showPairing_eq { app with
      refreshInFlight := false
      settings := (app.showStatus status).settings
      peers
      peerSelected := selected } pairing
    rw [refreshed, shown]
    apply heard_askUnlock
    · exact changes
    all_goals rfl
  · apply heard_showPairing <;> rfl
  · exact heard_requestRefresh rfl rfl rfl rfl rfl
  · apply heard_showPairing <;> rfl
  · exact heard_requestRefresh rfl rfl rfl rfl rfl

/-! ## Every event -/

theorem change_step (event : Event) : Change app (app.step event) event.typed event.yes := by
  cases event with
  | key press => exact (pressed_handleInput press).change
  | link event => exact (heard_handleLinkEvent event).change
  | refreshDue => exact (heard_requestRefresh rfl rfl rfl rfl rfl).change
  | takeOutbox => exact .stays rfl rfl (ite_self _).symm (.inr rfl)

/-- Every event adds to the outbox, or takes it out. -/
theorem queues_step (event : Event) : app.Queues (app.step event) ∨ (app.step event).outbox = [] := by
  cases event with
  | key press => exact .inl (pressed_handleInput press).queues
  | link event => exact .inl (heard_handleLinkEvent event).queues
  | refreshDue => exact .inl (heard_requestRefresh rfl rfl rfl rfl rfl).queues
  | takeOutbox => exact .inr rfl

end App

end Tui

end CesaConn
