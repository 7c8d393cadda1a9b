import CesaConn.Tui.Session
import Mathlib.Data.List.Induction

/-! Typed passwords live only inside their popup.

The buffers of a state are told from its popup and the keys typed since it was
opened: they hold what those keys entered, and nothing where the popup takes no
text. A password is sent from the buffers only.
-/

set_option autoImplicit false

namespace CesaConn

namespace Tui

open Format Ipc

/-- What the keys enter into an empty text. -/
def entered (keys : List KeyCode) : List Char := keys.foldl takeKey []

def typeKey (text : List Char) : KeyCode → List Char
  | .char c => text ++ [c]
  | .backspace => text.dropLast
  | _ => text

def unlimited (keys : List KeyCode) : List Char := keys.foldl typeKey []

theorem length_encodeChars_dropLast (text : List Char) : (encodeChars text.dropLast).length ≤ (encodeChars text).length := by
  have split : encodeChars text = encodeChars text.dropLast ++ encodeChars (text.drop text.dropLast.length) := by
    rw [← encodeChars_append, List.length_dropLast, List.dropLast_eq_take, List.take_append_drop]
  rw [split, List.length_append]
  exact Nat.le_add_right _ _

theorem length_encodeChars_push (text : List Char) (c : Char) :
    (encodeChars (text ++ [c])).length = (encodeChars text).length + (String.utf8EncodeChar c).length := by
  rw [encodeChars_append, List.length_append, encodeChars_cons, encodeChars_nil, List.append_nil]

theorem length_takeKey {text : List Char} (fits : (encodeChars text).length ≤ inputCapacity) (key : KeyCode) :
    (encodeChars (takeKey text key)).length ≤ inputCapacity := by
  cases key with
  | char c =>
      by_cases room : (encodeChars text).length + (String.utf8EncodeChar c).length ≤ inputCapacity
      · rw [takeKey_of_fits room, length_encodeChars_push]
        exact room
      · rw [takeKey_of_full room]
        exact fits
  | backspace => exact (length_encodeChars_dropLast text).trans fits
  | _ => exact fits

theorem length_entered (keys : List KeyCode) : (encodeChars (entered keys)).length ≤ inputCapacity := by
  induction keys using List.reverseRecOn with
  | nil => exact Nat.zero_le _
  | append_singleton keys key ih =>
      rw [entered, List.foldl_append]
      exact length_takeKey ih key

theorem entered_append (first rest : List KeyCode) : entered (first ++ rest) = rest.foldl takeKey (entered first) := by
  rw [entered, List.foldl_append]
  rfl

theorem unlimited_append (first rest : List KeyCode) :
    unlimited (first ++ rest) = rest.foldl typeKey (unlimited first) := by
  rw [unlimited, List.foldl_append]
  rfl

/-! ## Every run -/

/-- The texts hold what was typed. -/
structure Session.Typed (session : Session) : Prop where
  text : session.app.inputBuf = if session.app.activePopup.takesText then entered session.ghost.keys else []
  auth : session.app.joinAuth =
    if session.app.activePopup = .joinGroup .data then encodeChars (entered session.ghost.authKeys) else []
  first : session.app.activePopup = .joinGroup .data → entered session.ghost.authKeys ≠ []

theorem Session.Typed.step {session : Session} (typed : session.Typed) (event : Event) : (session.step event).Typed := by
  obtain ⟨text, auth, first⟩ := typed
  have change : Change session.app (session.step event).app event.typed event.yes := App.change_step event
  have next : (session.step event).ghost = session.ghost.next session.app (session.step event).app event := rfl
  cases change with
  | stays popup kept taken _ =>
      have keys : (session.step event).ghost.keys = session.ghost.keys ++ event.typed := by
        rw [next]
        exact if_pos popup
      have authKeys : (session.step event).ghost.authKeys = session.ghost.authKeys := by
        rw [next]
        exact if_pos popup
      constructor
      · rw [taken, text, popup, keys, entered_append]
        split <;> rfl
      · rw [kept, auth, popup, authKeys]
      · rw [popup, authKeys]
        exact first
  | moves popup data empty wiped _ =>
      have keys : (session.step event).ghost.keys = [] := by
        rw [next]
        exact if_neg popup
      constructor
      · have wiped : (session.step event).app.inputBuf = [] := by
          obtain now | ⟨same, closed⟩ := empty
          · exact now
          · rw [same, text, closed]
            rfl
        rw [wiped, keys]
        exact (ite_self _).symm
      · rw [if_neg data]
        obtain now | ⟨same, other⟩ := wiped
        · exact now
        · rw [same, auth, if_neg other]
      · exact fun second => absurd second data
  | goesOn join second some empty kept =>
      have different : (session.step event).app.activePopup ≠ session.app.activePopup := by
        rw [join, second]
        decide
      have keys : (session.step event).ghost.keys = [] := by
        rw [next]
        exact if_neg different
      have authKeys : (session.step event).ghost.authKeys = session.ghost.keys := by
        rw [next]
        exact (if_neg different).trans (if_pos ⟨join, second⟩)
      have taken : session.app.inputBuf = entered session.ghost.keys := by
        rw [text, join]
        rfl
      constructor
      · rw [empty, keys]
        exact (ite_self _).symm
      · rw [if_pos second, kept, authKeys, taken]
      · intro _
        rw [authKeys, ← taken]
        exact some

theorem Session.typed_run (events : List Event) : (Session.start.run events).Typed := by
  refine run_induction ⟨rfl, rfl, fun never => ?_⟩ (fun _ event typed => typed.step event) events
  cases never

def passwords : Command → Ghost → List (Bytes × List KeyCode)
  | .setPassword _ update, ghost => [(update.password, ghost.keys)]
  | .unlock update, ghost => [(update.password, ghost.keys)]
  | .joinGroup both, ghost => [(both.auth.password, ghost.authKeys), (both.data.password, ghost.keys)]
  | _, _ => []

theorem encodeChars_ne_nil {text : List Char} (some : text ≠ []) : encodeChars text ≠ [] := by
  cases text with
  | nil => exact absurd rfl some
  | cons c rest =>
      obtain ⟨lead, more, shape, -⟩ := utf8EncodeChar_shape c
      rw [encodeChars_cons, shape]
      exact List.cons_ne_nil _ _

/-- Until the buffer is full every character is taken. -/
theorem entered_of_fits {keys : List KeyCode}
    (fits : ∀ first, first <+: keys → (encodeChars (unlimited first)).length ≤ inputCapacity) :
    entered keys = unlimited keys := by
  induction keys using List.reverseRecOn with
  | nil => rfl
  | append_singleton keys key ih =>
      have before := ih fun first begins => fits first (begins.trans (List.prefix_append keys [key]))
      have whole := fits (keys ++ [key]) (List.prefix_refl _)
      rw [entered_append, before, unlimited_append]
      rw [unlimited_append] at whole
      cases key with
      | char c =>
          have room : (encodeChars (unlimited keys)).length + (String.utf8EncodeChar c).length ≤ inputCapacity := by
            rw [← length_encodeChars_push]
            exact whole
          exact if_pos room
      | _ => rfl

/-- A queued password was typed since its popup step opened, and is neither empty nor
longer than the buffer. -/
theorem passwords_typed {session : Session} (typed : session.Typed) {command : Command} (queued : session.app.Says command) :
    ∀ entry ∈ passwords command session.ghost,
      entry.1 ≠ [] ∧ entry.1.length ≤ inputCapacity ∧ entry.1 = encodeChars (entered entry.2) := by
  have honest {keys : List KeyCode} (some : entered keys ≠ []) : encodeChars (entered keys) ≠ [] ∧
      (encodeChars (entered keys)).length ≤ inputCapacity ∧ encodeChars (entered keys) = encodeChars (entered keys) :=
    ⟨encodeChars_ne_nil some, length_entered keys, rfl⟩
  have here (popup : session.app.activePopup.takesText = true) : session.app.inputBuf = entered session.ghost.keys := by
    rw [typed.text, if_pos popup]
  cases command with
  | setPassword kind update =>
      obtain ⟨popup, -, -, some, rfl⟩ := queued
      have text := here (by rw [popup]; rfl)
      rw [text] at some
      rw [passwords, List.forall_mem_singleton, App.typed, text]
      exact honest some
  | unlock update =>
      obtain ⟨popup, some, rfl⟩ := queued
      have text := here popup
      rw [text] at some
      rw [passwords, List.forall_mem_singleton, App.typed, text]
      exact honest some
  | joinGroup both =>
      obtain ⟨popup, some, rfl⟩ := queued
      have text := here (by rw [popup]; rfl)
      have auth := typed.auth
      rw [if_pos popup] at auth
      rw [text] at some
      rw [passwords, List.forall_mem_cons, List.forall_mem_singleton, App.typed, text, auth]
      exact ⟨honest (typed.first popup), honest some⟩
  | _ => exact fun _ member => by cases member

/-- A text is there only while its popup is, and never outgrows its buffer. A queued
password is what was typed since its popup step opened, as far as it had room. -/
theorem passwords_in_popups (events : List Event) :
    ((Session.start.run events).app.activePopup.takesText = false → (Session.start.run events).app.inputBuf = []) ∧
    ((Session.start.run events).app.activePopup ≠ .joinGroup .data → (Session.start.run events).app.joinAuth = []) ∧
    (encodeChars (Session.start.run events).app.inputBuf).length ≤ inputCapacity ∧
    (Session.start.run events).app.joinAuth.length ≤ inputCapacity ∧
    (∀ command ∈ (Session.start.run events).app.outbox, ∃ ghost, (command, ghost) ∈ (Session.start.run events).queued) ∧
    ∀ queued ∈ (Session.start.run events).queued, ∀ entry ∈ passwords queued.1 queued.2,
      entry.1 ≠ [] ∧ entry.1.length ≤ inputCapacity ∧ entry.1 = encodeChars (entered entry.2) ∧
        ((∀ first, first <+: entry.2 → (encodeChars (unlimited first)).length ≤ inputCapacity) →
          entry.1 = encodeChars (unlimited entry.2)) := by
  obtain ⟨text, auth, -⟩ := Session.typed_run events
  refine ⟨fun closed => ?_, fun other => ?_, ?_, ?_, Session.queued_of_outbox events, fun queued member entry sent => ?_⟩
  · rw [text, closed]
    rfl
  · rw [auth, if_neg other]
  · rw [text]
    split
    · exact length_entered _
    · exact Nat.zero_le _
  · rw [auth]
    split
    · exact length_entered _
    · exact Nat.zero_le _
  · have start : Session.start.Typed := Session.typed_run []
    obtain ⟨some, fits, typed⟩ := Session.queued_induction start (fun _ event typed => typed.step event)
      (R := fun command ghost => ∀ entry ∈ passwords command ghost,
        entry.1 ≠ [] ∧ entry.1.length ≤ inputCapacity ∧ entry.1 = encodeChars (entered entry.2))
      (fun _ _ typed said => passwords_typed typed said) events queued member entry sent
    refine ⟨some, fits, typed, fun room => ?_⟩
    rw [typed, entered_of_fits room]

/-! Where a character is not taken the text differs from what was typed. -/

def lockedStatus : Status where
  authKeySet := false
  dataKeySet := false
  networkRunning := false
  trustedPeers := 0
  locked := true
  saved := true
  autoLogin := false
  unlockWaitSecs := 0
  syncEnabled := false
  addingDevice := false
  pendingPairings := 0
  joining := false
  otherGroupNearby := false
  clipboardEnabled := false
  clipboardUnavailable := false

def pressed (count : Nat) : List Event :=
  .link (.refreshed (.ok (lockedStatus, [], none))) :: List.replicate count (.key { code := .char 'a' })

theorem Session.step_edits {session : Session} (popup : session.app.activePopup = .unlock) (c : Char) :
    (session.step (.key { code := .char c })).app.activePopup = .unlock ∧
      (session.step (.key { code := .char c })).ghost.keys = session.ghost.keys ++ [.char c] := by
  have plain : ¬(KeyCode.char c = .char 'c' ∧ false = true) := fun quits => by cases quits.2
  have app : (session.step (.key { code := .char c })).app = session.app.edit (.char c) := by
    simp only [step, App.step, App.handleInput, if_neg plain, popup]
    rfl
  have stays : (session.step (.key { code := .char c })).app.activePopup = session.app.activePopup := by
    rw [app, App.edit_eq]
  have typed : (Event.key { code := .char c }).typed = [.char c] := if_neg plain
  refine ⟨stays.trans popup, ?_⟩
  rw [← typed]
  exact if_pos stays

theorem run_pressed (count : Nat) :
    (Session.start.run (pressed count)).app.activePopup = .unlock ∧
      (Session.start.run (pressed count)).ghost.keys = List.replicate count (.char 'a') := by
  induction count with
  | zero => exact ⟨rfl, rfl⟩
  | succ count ih =>
      have last : pressed (count + 1) = pressed count ++ [.key { code := .char 'a' }] := by
        rw [pressed, List.replicate_succ', ← List.cons_append]
        rfl
      obtain ⟨popup, keys⟩ := ih
      obtain ⟨stays, typed⟩ := Session.step_edits popup 'a'
      rw [last, Session.run_append, List.replicate_succ', ← keys]
      exact ⟨stays, typed⟩

theorem Session.queued_enter {session : Session} (popup : session.app.activePopup = .unlock)
    (some : session.app.inputBuf ≠ []) : (session.step (.key { code := .enter })).queued =
      session.queued ++ [(.unlock session.app.typed, session.ghost)] := by
  have plain : ¬(KeyCode.enter = .char 'c' ∧ false = true) := fun quits => by cases quits.2
  have outbox : (session.app.step (.key { code := .enter })).outbox = session.app.outbox ++ [.unlock session.app.typed] := by
    simp only [App.step, App.handleInput, if_neg plain, popup, App.handleUnlockInput, if_neg some]
    rfl
  rw [step, outbox, List.drop_left]
  rfl

theorem unlimited_replicate (count : Nat) (c : Char) :
    unlimited (List.replicate count (.char c)) = List.replicate count c := by
  induction count with
  | zero => rfl
  | succ count ih =>
      rw [List.replicate_succ', unlimited_append, ih, List.replicate_succ']
      rfl

theorem length_encodeChars_replicate (count : Nat) :
    (encodeChars (List.replicate count 'a')).length = count := by
  induction count with
  | zero => rfl
  | succ count ih =>
      have one : (String.utf8EncodeChar 'a').length = 1 := by decide
      rw [List.replicate_succ, encodeChars_cons, List.length_append, ih, one]
      omega

theorem entered_replicate_ne_nil (count : Nat) (c : Char) (small : (String.utf8EncodeChar c).length ≤ inputCapacity) :
    entered (List.replicate (count + 1) (.char c)) ≠ [] := by
  induction count with
  | zero =>
      intro empty
      have room : (encodeChars []).length + (String.utf8EncodeChar c).length ≤ inputCapacity := by
        rw [encodeChars_nil, List.length_nil, Nat.zero_add]
        exact small
      have taken : entered [.char c] = [c] := if_pos room
      rw [List.replicate_one, taken] at empty
      cases empty
  | succ count ih =>
      rw [List.replicate_succ', entered_append, List.foldl_cons, List.foldl_nil]
      generalize entered (List.replicate (count + 1) (.char c)) = text at ih ⊢
      by_cases room : (encodeChars text).length + (String.utf8EncodeChar c).length ≤ inputCapacity
      · rw [takeKey_of_fits room]
        exact List.append_ne_nil_of_right_ne_nil text (List.cons_ne_nil c [])
      · rw [takeKey_of_full room]
        exact ih

/-- Of 513 characters typed at the unlock prompt, the last one is not in the password. -/
theorem passwords_outgrow :
    ∃ queued ∈ (Session.start.run (pressed 513 ++ [.key { code := .enter }])).queued,
      ∃ entry ∈ passwords queued.1 queued.2, entry.1 ≠ encodeChars (unlimited entry.2) := by
  obtain ⟨popup, keys⟩ := run_pressed 513
  obtain ⟨text, -, -⟩ := Session.typed_run (pressed 513)
  rw [Session.run_append]
  generalize Session.start.run (pressed 513) = session at popup keys text
  rw [popup] at text
  have held : session.app.inputBuf = entered session.ghost.keys := text
  have some : session.app.inputBuf ≠ [] := by
    rw [held, keys]
    exact entered_replicate_ne_nil 512 'a' (by decide)
  refine ⟨(.unlock session.app.typed, session.ghost), ?_, (session.app.typed.password, session.ghost.keys), ?_, ?_⟩
  · have sent := Session.queued_enter popup some
    rw [Session.run, List.foldl_cons, List.foldl_nil, sent]
    exact List.mem_append_right _ (List.mem_singleton_self _)
  · exact List.mem_singleton_self _
  · intro same
    have sent : encodeChars session.app.inputBuf = encodeChars (unlimited session.ghost.keys) := same
    have fits := length_entered session.ghost.keys
    rw [← held, sent, keys, unlimited_replicate, length_encodeChars_replicate] at fits
    exact absurd fits (by decide)

end Tui

end CesaConn
