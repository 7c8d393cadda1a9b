import CesaConn.Tui.Session

/-! The question before a set password is changed.

It is asked when the popup for the new password is opened, from the status of that
moment. A status that comes while the password is typed does not change the popup.
-/

set_option autoImplicit false

namespace CesaConn

namespace Tui

open Format Ipc
open Daemon (KeyKind)

def keySet (status : Status) : KeyKind → Bool
  | .auth => status.authKeySet
  | .data => status.dataKeySet

/-- Whether this status has the key set, in an open vault. -/
def saysSet (status : Option Status) (kind : KeyKind) : Bool := status.any fun status => keySet status kind && !status.locked

/-! ## The settings follow the daemon -/

def shownKind (daemon : DaemonState) (kind : KeyKind) : SettingKind :=
  match daemon with
  | .up status => if status.locked then .locked else .secret (keySet status kind)
  | _ => .secret false

theorem shownKind_eq_secret {daemon : DaemonState} {kind : KeyKind} :
    shownKind daemon kind = .secret true ↔ saysSet daemon.status kind = true := by
  cases daemon with
  | up status =>
      by_cases locked : status.locked = true
      · simp [shownKind, saysSet, DaemonState.status, locked]
      · simp [shownKind, saysSet, DaemonState.status, locked]
  | _ => simp [shownKind, saysSet, DaemonState.status]

def layout (auth data autoLogin sync clipboard : SettingKind) : List Setting := [
  ⟨authKeyLabel, auth, none⟩,
  ⟨dataKeyLabel, data, none⟩,
  ⟨autoLoginLabel, autoLogin, some autoLoginWarning⟩,
  ⟨syncLabel, sync, none⟩,
  ⟨clipboardLabel, clipboard, none⟩,
  ⟨resetLabel, .action, none⟩]

def Shows (settings : List Setting) (daemon : DaemonState) : Prop :=
  ∃ autoLogin sync clipboard,
    settings = layout (shownKind daemon .auth) (shownKind daemon .data) autoLogin sync clipboard

section

variable (auth data autoLogin sync clipboard kind : SettingKind)

@[simp] theorem withKind_auth : withKind authKeyLabel kind (layout auth data autoLogin sync clipboard) =
    layout kind data autoLogin sync clipboard := rfl

@[simp] theorem withKind_data : withKind dataKeyLabel kind (layout auth data autoLogin sync clipboard) =
    layout auth kind autoLogin sync clipboard := by
  simp [withKind, layout, authKeyLabel, dataKeyLabel]

@[simp] theorem withKind_autoLogin : withKind autoLoginLabel kind (layout auth data autoLogin sync clipboard) =
    layout auth data kind sync clipboard := by
  simp [withKind, layout, authKeyLabel, dataKeyLabel, autoLoginLabel]

@[simp] theorem withKind_sync : withKind syncLabel kind (layout auth data autoLogin sync clipboard) =
    layout auth data autoLogin kind clipboard := by
  simp [withKind, layout, authKeyLabel, dataKeyLabel, autoLoginLabel, syncLabel]

@[simp] theorem withKind_clipboard : withKind clipboardLabel kind (layout auth data autoLogin sync clipboard) =
    layout auth data autoLogin sync kind := by
  simp [withKind, layout, authKeyLabel, dataKeyLabel, autoLoginLabel, syncLabel, clipboardLabel]

end

namespace App

variable {app : App}

theorem shows_new : Shows App.new.settings App.new.daemon := ⟨.bool false, .bool false, .bool false, rfl⟩

theorem shows_showStatus {daemon : DaemonState} (shows : Shows app.settings daemon) (status : Status) :
    Shows (app.showStatus status).settings (.up status) := by
  obtain ⟨autoLogin, sync, clipboard, same⟩ := shows
  refine ⟨.bool status.autoLogin, .bool status.syncEnabled,
    if status.clipboardUnavailable then .unavailable else .bool status.clipboardEnabled, ?_⟩
  by_cases locked : status.locked = true
  · simp [showStatus, setKeyFlags, setKind, same, shownKind, locked]
  · simp [showStatus, setKeyFlags, setKind, same, shownKind, locked, keySet]

theorem shows_forgetStatus {daemon after : DaemonState} (shows : Shows app.settings daemon) (down : after.status = none) :
    Shows app.forgetStatus.settings after := by
  obtain ⟨autoLogin, sync, clipboard, same⟩ := shows
  refine ⟨autoLogin, sync, clipboard, ?_⟩
  have unset (kind : KeyKind) : shownKind after kind = .secret false := by
    cases after with
    | up status => cases down
    | _ => rfl
  simp [forgetStatus, clampPeerSelection, setKeyFlags, setKind, same, unset]

theorem settingAt_of_selected (shows : Shows app.settings app.daemon) {kind : KeyKind}
    (selected : app.selectedKeyKind = some kind) : app.settingAt.map Setting.kind = some (shownKind app.daemon kind) := by
  obtain ⟨autoLogin, sync, clipboard, same⟩ := shows
  simp only [selectedKeyKind, labelAt, settingAt, same] at selected ⊢
  generalize app.settingsSelected = idx at selected ⊢
  match idx with
  | 0 =>
      simp [layout] at selected
      simp [layout, ← selected]
  | 1 =>
      simp [layout, authKeyLabel, dataKeyLabel] at selected
      simp [layout, ← selected]
  | 2 => simp [layout, authKeyLabel, dataKeyLabel, autoLoginLabel] at selected
  | 3 => simp [layout, authKeyLabel, dataKeyLabel, syncLabel] at selected
  | 4 => simp [layout, authKeyLabel, dataKeyLabel, clipboardLabel] at selected
  | 5 => simp [layout, authKeyLabel, dataKeyLabel, resetLabel] at selected
  | _ + 6 => simp [layout] at selected

theorem selectedKeyKind_congr {other : App} {daemon after : DaemonState} (shows : Shows app.settings daemon)
    (later : Shows other.settings after) (same : other.settingsSelected = app.settingsSelected) :
    other.selectedKeyKind = app.selectedKeyKind := by
  obtain ⟨autoLogin, sync, clipboard, layout'⟩ := shows
  obtain ⟨autoLogin', sync', clipboard', layout''⟩ := later
  have labels : other.settings.map Setting.label = app.settings.map Setting.label := by
    rw [layout', layout'']
    rfl
  have labelled (idx : Nat) : other.labelAt idx = app.labelAt idx := by
    rw [labelAt, labelAt, ← List.getElem?_map, ← List.getElem?_map, labels]
  rw [selectedKeyKind, selectedKeyKind, same, labelled]

@[simp] theorem askUnlock_settings (status : Status) : (app.askUnlock status).settings = app.settings := by
  simp only [askUnlock]
  split
  · split <;> rfl
  · split <;> rfl

@[simp] theorem showPairing_settings (pairing : Option PairingPrompt) :
    (app.showPairing pairing).settings = app.settings := by
  obtain ⟨popup, shown, -⟩ := app.showPairing_eq pairing
  rw [shown]

theorem showPairing_daemon (pairing : Option PairingPrompt) : (app.showPairing pairing).daemon = app.daemon := by
  obtain ⟨popup, shown, -⟩ := app.showPairing_eq pairing
  rw [shown]

theorem shows_requestRefresh (shows : Shows app.settings app.daemon) :
    Shows app.requestRefresh.settings app.requestRefresh.daemon := by
  unfold requestRefresh
  split
  · exact shows
  · exact shows

theorem shows_handleLinkEvent (shows : Shows app.settings app.daemon) (event : LinkEvent) :
    Shows (app.handleLinkEvent event).settings (app.handleLinkEvent event).daemon := by
  have gone {forgotten : App} (same : forgotten.settings = app.settings) {daemon : DaemonState}
      (down : daemon.status = none) : Shows (showPairing { forgotten.forgetStatus with daemon } none).settings
        (showPairing { forgotten.forgetStatus with daemon } none).daemon := by
    rw [showPairing_settings, showPairing_daemon]
    rw [← same] at shows
    exact shows_forgetStatus shows down
  unfold handleLinkEvent
  split
  · next status peers pairing =>
    obtain ⟨selected, refreshed⟩ := app.handleRefreshed_eq status peers pairing
    rw [refreshed]
    show Shows (App.askUnlock _ status).settings (.up status)
    rw [askUnlock_settings, showPairing_settings]
    exact shows_showStatus shows status
  · apply gone <;> rfl
  · exact shows_requestRefresh shows
  · apply gone <;> rfl
  · exact shows_requestRefresh shows

theorem shows_step (shows : Shows app.settings app.daemon) (event : Event) :
    Shows (app.step event).settings (app.step event).daemon := by
  cases event with
  | key press =>
      obtain ⟨settings, daemon⟩ := (@pressed_handleInput app press).kept
      show Shows (app.handleInput press).settings (app.handleInput press).daemon
      rw [settings, daemon]
      exact shows
  | link event => exact shows_handleLinkEvent shows event
  | refreshDue => exact shows_requestRefresh shows
  | takeOutbox => exact shows

end App

/-! ## Every run -/

/-- The popup for the password of a key was opened with the question exactly if its
status at that time said that the key is set. -/
structure Session.Asking (session : Session) : Prop where
  settings : Shows session.app.settings session.app.daemon
  question : ∀ kind, session.app.activePopup = .confirmPasswordChange kind →
    session.app.selectedKeyKind = some kind ∧ saysSet session.ghost.opened.status kind = true
  answer : session.app.activePopup = .editSetting → ∀ kind, session.app.selectedKeyKind = some kind →
    (session.ghost.asked = some kind ↔ saysSet session.ghost.opened.status kind = true)

namespace Session

variable {session : Session} {event : Event}

/-- A popup that stays keeps what is known of it. -/
theorem ghost_stays (popup : (session.step event).app.activePopup = session.app.activePopup) :
    (session.step event).ghost.asked = session.ghost.asked ∧ (session.step event).ghost.opened = session.ghost.opened := by
  constructor
  · exact if_pos popup
  · refine if_neg fun opens => opens.2 ?_
    exact popup.trans opens.1

/-- One that is opened does not change what was known when another one was. -/
theorem ghost_follows (some : session.app.activePopup ≠ .none) :
    (session.step event).ghost.opened = session.ghost.opened := if_neg fun opens => some opens.1

theorem ghost_opens (none : session.app.activePopup = .none) (some : (session.step event).app.activePopup ≠ .none) :
    (session.step event).ghost.asked = Option.none ∧ (session.step event).ghost.opened = session.app.daemon := by
  constructor
  · have changes : (session.step event).app.activePopup ≠ session.app.activePopup := by rwa [none]
    refine (if_neg changes).trans ?_
    rw [none]
  · exact if_pos ⟨none, some⟩

/-- An answered question is kept with the popup that follows. -/
theorem ghost_answers {kind : KeyKind} (asked : session.app.activePopup = .confirmPasswordChange kind)
    (changes : (session.step event).app.activePopup ≠ .confirmPasswordChange kind) (yes : event.yes = true) :
    (session.step event).ghost.asked = some kind := by
  have moves : (session.step event).app.activePopup ≠ session.app.activePopup := by rwa [asked]
  refine (if_neg moves).trans ?_
  rw [asked]
  cases event with
  | key press => exact if_pos yes
  | _ => cases yes

namespace Asking

theorem waits (asking : session.Asking) (settings : Shows (session.step event).app.settings (session.step event).app.daemon)
    (popup : (session.step event).app.activePopup = session.app.activePopup)
    (selected : session.app.activePopup = .none ∨ (session.step event).app.settingsSelected = session.app.settingsSelected) :
    (session.step event).Asking := by
  obtain ⟨asked, opened⟩ := ghost_stays popup
  obtain none | position := selected
  · constructor
    · exact settings
    · intro kind question
      rw [popup, none] at question
      cases question
    · intro edit
      rw [popup, none] at edit
      cases edit
  · have key := App.selectedKeyKind_congr asking.settings settings position
    constructor
    · exact settings
    · rw [popup, key, opened]
      exact asking.question
    · rw [popup, key, opened, asked]
      exact asking.answer

theorem besides (settings : Shows (session.step event).app.settings (session.step event).app.daemon)
    (popup : (session.step event).app.activePopup.besides) : (session.step event).Asking := by
  constructor
  · exact settings
  · intro kind question
    rw [question] at popup
    exact popup.elim
  · intro edit
    rw [edit] at popup
    exact popup.elim

theorem turns (asking : session.Asking) (settings : Shows (session.step event).app.settings (session.step event).app.daemon)
    (turn : Turn session.app (session.step event).app event.yes) : (session.step event).Asking := by
  cases turn with
  | other popup => exact besides settings popup
  | opens none popup selected unset =>
      have key := App.selectedKeyKind_congr asking.settings settings selected
      obtain ⟨asked, opened⟩ := ghost_opens none (by rw [popup]; decide)
      constructor
      · exact settings
      · intro kind question
        rw [popup] at question
        cases question
      · intro _ kind chosen
        rw [key] at chosen
        have silent : saysSet session.app.daemon.status kind ≠ true := by
          intro said
          apply unset kind chosen
          rw [App.settingAt_of_selected asking.settings chosen, shownKind_eq_secret.mpr said]
        rw [asked, opened]
        constructor
        · intro never
          cases never
        · exact fun said => absurd said silent
  | asks kind none popup selected chosen set =>
      have key := App.selectedKeyKind_congr asking.settings settings selected
      obtain ⟨-, opened⟩ := ghost_opens none (by rw [popup]; simp)
      have said : saysSet session.app.daemon.status kind = true := by
        rw [App.settingAt_of_selected asking.settings chosen] at set
        exact shownKind_eq_secret.mp (Option.some.inj set)
      constructor
      · exact settings
      · intro other question
        rw [popup] at question
        cases question
        rw [key, opened]
        exact ⟨chosen, said⟩
      · intro edit
        rw [popup] at edit
        cases edit
  | answers kind question popup selected yes =>
      have key := App.selectedKeyKind_congr asking.settings settings selected
      have asked := ghost_answers question (by rw [popup]; simp) yes
      have opened : (session.step event).ghost.opened = session.ghost.opened := ghost_follows (by rw [question]; simp)
      obtain ⟨chosen, said⟩ := asking.question kind question
      constructor
      · exact settings
      · intro other question
        rw [popup] at question
        cases question
      · intro _ other selected
        rw [key, chosen] at selected
        cases selected
        rw [asked, opened]
        exact ⟨fun _ => said, fun _ => rfl⟩

theorem step (asking : session.Asking) (event : Event) : (session.step event).Asking := by
  have change : Change session.app (session.step event).app event.typed event.yes := App.change_step event
  have settings : Shows (session.step event).app.settings (session.step event).app.daemon :=
    App.shows_step asking.settings event
  cases change with
  | stays popup _ _ selected => exact asking.waits settings popup selected
  | moves _ _ _ _ turn => exact asking.turns settings turn
  | goesOn _ second _ _ _ =>
      apply besides settings
      rw [second]
      trivial

theorem start : Session.start.Asking := by
  constructor
  · exact App.shows_new
  · intro kind question
    cases question
  · intro edit
    cases edit

end Asking

/-- The question was answered for every key that the last status said is set. -/
def Questioned (session : Session) : Prop :=
  ∀ queued ∈ session.queued, ∀ kind update, queued.1 = .setPassword kind update →
    saysSet queued.2.last kind = true → queued.2.asked = some kind

/-- And the status at the time the popup was opened said so, too. -/
def Foreseen (session : Session) : Prop :=
  ∀ queued ∈ session.queued, ∀ kind update, queued.1 = .setPassword kind update →
    saysSet queued.2.last kind = true → saysSet queued.2.opened.status kind = true

/-- A new password was asked about exactly if its key was known to be set when its popup
was opened. -/
theorem queued_asked (events : List Event) :
    ∀ queued ∈ (start.run events).queued, ∀ kind update, queued.1 = .setPassword kind update →
      (queued.2.asked = some kind ↔ saysSet queued.2.opened.status kind = true) := by
  apply queued_induction (R := fun command ghost => ∀ kind update, command = .setPassword kind update →
    (ghost.asked = some kind ↔ saysSet ghost.opened.status kind = true)) Asking.start
  · exact fun _ event asking => asking.step event
  · intro session command asking said kind update same
    rw [same] at said
    obtain ⟨popup, selected, -⟩ := said
    exact asking.answer popup kind selected

/-- A set password is changed without the question only where its key was set, or
unlocked, after the popup was opened. -/
theorem questioned_iff (events : List Event) :
    (start.run events).Questioned ↔ (start.run events).Foreseen := by
  constructor
  · intro questioned queued member kind update same said
    exact (queued_asked events queued member kind update same).mp (questioned queued member kind update same said)
  · intro foreseen queued member kind update same said
    exact (queued_asked events queued member kind update same).mpr (foreseen queued member kind update same said)

end Session

/-! The data password, typed to unlock, becomes a new one: another UI has unlocked. -/

def vaultStatus (locked : Bool) : Status where
  authKeySet := !locked
  dataKeySet := !locked
  networkRunning := false
  trustedPeers := 0
  locked
  saved := true
  autoLogin := false
  unlockWaitSecs := 0
  syncEnabled := false
  addingDevice := false
  pendingPairings := 0
  joining := false
  otherGroupNearby := false
  clipboardEnabled := false
  clipboardUnavailable := false

/-- Unlocking is left for later, then done under Settings while another UI is faster. -/
def overtaken : List Event :=
  [.link (.refreshed (.ok (vaultStatus true, [], none))),
   .key { code := .esc }, .key { code := .tab }, .key { code := .down }, .key { code := .enter },
   .link (.refreshed (.ok (vaultStatus false, [], none)))] ++
  List.replicate 12 (.key { code := .char 'a' }) ++ [.key { code := .enter }]

theorem questioned_overtaken : ¬(Session.start.run overtaken).Questioned := by
  intro questioned
  have sent : (Session.start.run overtaken).queued.map (fun queued => (queued.1, queued.2.asked, queued.2.last)) =
      [(.setPassword .data ⟨List.replicate 12 97⟩, none, some (vaultStatus false))] := by
    decide
  obtain ⟨queued, all, same⟩ := List.map_eq_singleton_iff.mp sent
  have member : queued ∈ (Session.start.run overtaken).queued := by
    rw [all]
    exact List.mem_singleton_self queued
  simp only [Prod.mk.injEq] at same
  obtain ⟨command, unasked, last⟩ := same
  have asked := questioned queued member .data _ command (by rw [last]; rfl)
  rw [unasked] at asked
  cases asked

end Tui

end CesaConn
