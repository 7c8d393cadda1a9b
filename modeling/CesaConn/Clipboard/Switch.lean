import CesaConn.Clipboard.ClipWatch
import Mathlib.Data.List.Induction

/-! The sync switch, local copies and the polls of the clipboard task, in any order.

A poll sees the switch and the counter only at two moments of its own and reads the
content at a third, so what happens between these moments stays unseen.
-/

set_option autoImplicit false

namespace CesaConn

namespace Clipboard

inductive Poll where
  | idle
  | switched (on : Bool)
  | counted (on : Bool) (count : Int)
  | sending
  deriving DecidableEq, Repr

structure Scene where
  switch : Bool
  count : Int
  watch : ClipWatch
  poll : Poll
  deriving DecidableEq, Repr

def Scene.start (switch : Bool) (count : Int) : Scene := ⟨switch, count, .new count, .idle⟩

/-- A local copy moves the counter on, the switch is set, or a poll goes one step further.
`failCount` is a counter that can't be read, `skip` a clipboard with nothing to send. -/
inductive Act where
  | copy (count : Int)
  | switch (on : Bool)
  | readSwitch
  | readCount
  | failCount
  | tick (busy : Bool)
  | read
  | skip
  deriving DecidableEq, Repr

def Scene.step (scene : Scene) : Act → Option Scene
  | .copy count => if scene.count < count then some { scene with count } else none
  | .switch on => some { scene with switch := on }
  | .readSwitch =>
      match scene.poll with
      | .idle => some { scene with poll := .switched scene.switch }
      | _ => none
  | .readCount =>
      match scene.poll with
      | .switched on => some { scene with poll := .counted on scene.count }
      | _ => none
  | .failCount =>
      match scene.poll with
      | .switched _ => some { scene with poll := .idle }
      | _ => none
  | .tick busy =>
      match scene.poll with
      | .counted on count =>
          let (decision, watch) := scene.watch.tick on count busy
          some { scene with watch, poll := if decision = .wait then .idle else .sending }
      | _ => none
  -- the content is read after the decision, and sent as it is then
  | .read | .skip =>
      match scene.poll with
      | .sending => some { scene with poll := .idle }
      | _ => none

inductive Runs (meets : Scene → Act → Prop) (start : Scene) : List Act → Scene → Prop where
  | start : Runs meets start [] start
  | step {acts : List Act} {scene next : Scene} (act : Act) :
      Runs meets start acts scene → meets scene act → scene.step act = some next →
      Runs meets start (acts ++ [act]) next

def Act.flip (on : Bool) : Act → Bool
  | .switch now => now
  | _ => on

def switchAfter (switch : Bool) (acts : List Act) : Bool := acts.foldl Act.flip switch

/-- The last copy was made with the switch on, and the switch was not off since. -/
def Kept (switch : Bool) (acts : List Act) : Prop :=
  ∃ before count since, acts = before ++ .copy count :: since ∧ (∀ other, .copy other ∉ since) ∧
    switchAfter switch before = true ∧ .switch false ∉ since

/-- The watch knows the content and does not wait to send it, and the poll under way finds nothing else. -/
def Scene.Known (scene : Scene) : Prop :=
  match scene.poll with
  | .idle | .switched _ => scene.watch.pending = false ∧ scene.watch.lastCount = scene.count
  | .counted false count => count = scene.count
  | .counted true count => scene.watch.pending = false ∧ scene.watch.lastCount = scene.count ∧ count = scene.count
  | .sending => False

/-- The switch is turned on only while the content is known, and a clipboard is read only
while the switch is on. -/
def careful (scene : Scene) : Act → Prop
  | .switch true => scene.switch = false → scene.Known
  | .read => scene.switch = true
  | _ => True

/-! ## What the history says -/

def Act.stays : Act → Bool
  | .copy _ | .switch false => false
  | _ => true

theorem switchAfter_concat (switch : Bool) (acts : List Act) (act : Act) :
    switchAfter switch (acts ++ [act]) = act.flip (switchAfter switch acts) := by
  rw [switchAfter, List.foldl_append]
  rfl

theorem kept_copy {switch : Bool} {acts : List Act} {count : Int} (on : switchAfter switch acts = true) :
    Kept switch (acts ++ [.copy count]) :=
  ⟨acts, count, [], rfl, fun _ => List.not_mem_nil, on, List.not_mem_nil⟩

theorem kept_concat {switch : Bool} {acts : List Act} {act : Act} (stays : act.stays = true) :
    Kept switch (acts ++ [act]) ↔ Kept switch acts := by
  have copies (count : Int) : act ≠ .copy count := by
    intro same
    rw [same] at stays
    cases stays
  have off : act ≠ .switch false := by
    intro same
    rw [same] at stays
    cases stays
  constructor
  · intro ⟨before, count, since, shape, last, on, stayed⟩
    induction since using List.reverseRecOn with
    | nil =>
        have same := (List.append_inj' shape rfl).2
        exact absurd (List.head_eq_of_cons_eq same) (copies count)
    | append_singleton since final _ =>
        rw [← List.cons_append, ← List.append_assoc] at shape
        obtain ⟨earlier, -⟩ := List.append_inj' shape rfl
        refine ⟨before, count, since, earlier, ?_, on, ?_⟩
        · exact fun other member => last other (List.mem_append_left _ member)
        · exact fun member => stayed (List.mem_append_left _ member)
  · intro ⟨before, count, since, shape, last, on, stayed⟩
    refine ⟨before, count, since ++ [act], by rw [shape, List.append_assoc]; rfl, ?_, on, ?_⟩
    · intro other member
      rcases List.mem_append.mp member with member | member
      · exact last other member
      · exact copies other (List.mem_singleton.mp member).symm
    · intro member
      rcases List.mem_append.mp member with member | member
      · exact stayed member
      · exact off (List.mem_singleton.mp member).symm

theorem switchAfter_kept {switch : Bool} {acts : List Act} (kept : Kept switch acts) :
    switchAfter switch acts = true := by
  obtain ⟨before, count, since, rfl, -, on, stayed⟩ := kept
  have copied : switchAfter switch (before ++ [.copy count]) = true := by
    rw [switchAfter_concat, on]
    rfl
  -- from the copy on nothing turns it off
  rw [List.append_cons]
  generalize before ++ [.copy count] = past at copied
  induction since using List.reverseRecOn with
  | nil => rwa [List.append_nil]
  | append_singleton since final ih =>
      have rest := ih fun member => stayed (List.mem_append_left _ member)
      have last : final ≠ .switch false := fun same => stayed (List.mem_append_right _ (List.mem_singleton.mpr same.symm))
      rw [← List.append_assoc, switchAfter_concat, rest]
      cases final with
      | switch on =>
          cases on with
          | true => rfl
          | false => exact absurd rfl last
      | _ => rfl

/-! ## The condition is enough -/

theorem ClipWatch.tick_off (watch : ClipWatch) (count : Int) (busy : Bool) :
    watch.tick false count busy = (.wait, ⟨count, false⟩) := by
  by_cases same : count = watch.lastCount
  · simp [tick, same]
  · simp [tick, same]

theorem switch_step {scene next : Scene} {act : Act} (step : scene.step act = some next) :
    next.switch = act.flip scene.switch := by
  obtain ⟨switch, count, watch, poll⟩ := scene
  cases act with
  | copy moved =>
      obtain ⟨-, same⟩ := Option.ite_none_right_eq_some.mp step
      cases same
      rfl
  | switch now =>
      cases step
      rfl
  | readSwitch | readCount | failCount | tick | read | skip =>
      cases poll <;> cases step
      all_goals rfl

theorem switch_runs {meets : Scene → Act → Prop} {switch : Bool} {count : Int} {acts : List Act} {scene : Scene}
    (run : Runs meets (.start switch count) acts scene) : scene.switch = switchAfter switch acts := by
  induction run with
  | start => rfl
  | step act _ _ step ih => rw [switchAfter_concat, switch_step step, ih]

theorem known_step {scene next : Scene} {act : Act} (known : scene.Known) (stays : act.stays = true)
    (step : scene.step act = some next) : next.Known := by
  obtain ⟨switch, count, ⟨lastCount, pending⟩, poll⟩ := scene
  cases act with
  | copy moved => cases stays
  | switch now =>
      cases step
      exact known
  | readSwitch =>
      cases poll <;> cases step
      exact known
  | readCount =>
      cases poll with
      | switched on =>
          cases step
          cases on with
          | false => rfl
          | true => exact ⟨known.1, known.2, rfl⟩
      | _ => cases step
  | failCount =>
      cases poll <;> cases step
      exact known
  | tick busy =>
      cases poll with
      | counted on seen =>
          cases on with
          | false =>
              -- read as off: whatever was found is taken as seen
              dsimp only [Scene.Known] at known
              subst known
              simp only [Scene.step, ClipWatch.tick_off] at step
              cases step
              exact ⟨rfl, rfl⟩
          | true =>
              -- read as on: the counter has not moved and nothing waits, so the poll waits
              obtain ⟨quiet, last, same⟩ := known
              dsimp only at quiet last same
              subst quiet last same
              have waits : ClipWatch.tick ⟨seen, false⟩ true seen busy = (.wait, ⟨seen, false⟩) :=
                ClipWatch.tick_known rfl true busy
              simp only [Scene.step, waits] at step
              cases step
              exact ⟨rfl, rfl⟩
      | _ => cases step
  | read | skip =>
      cases poll <;> cases step
      cases known

/-- While every step is careful, a content that is not kept is known when the switch is on. -/
theorem known_runs {switch : Bool} {count : Int} {acts : List Act} {scene : Scene}
    (run : Runs careful (.start switch count) acts scene) (on : scene.switch = true) (lost : ¬ Kept switch acts) :
    scene.Known := by
  induction run with
  | start => exact ⟨rfl, rfl⟩
  | @step acts scene next act run meets step ih =>
      have before := switch_step step
      cases act with
      | copy moved =>
          -- this copy is the one that is kept
          have copied : scene.switch = true := before.symm.trans on
          exact absurd (kept_copy ((switch_runs run).symm.trans copied)) lost
      | switch now =>
          -- on already, or a careful step turns it on over a known content
          have turned : now = true := before.symm.trans on
          cases turned
          have known : scene.Known := by
            by_cases already : scene.switch = true
            · exact ih already fun kept => lost ((kept_concat rfl).mpr kept)
            · exact meets (Bool.eq_false_iff.mpr already)
          exact known_step known rfl step
      | readSwitch | readCount | failCount | tick | read | skip =>
          have known := ih (before.symm.trans on) fun kept => lost ((kept_concat rfl).mpr kept)
          exact known_step known rfl step

theorem kept_of_careful {switch : Bool} {count : Int} {acts : List Act} {scene : Scene}
    (run : Runs careful (.start switch count) (acts ++ [.read]) scene) : Kept switch acts := by
  generalize whole : acts ++ [Act.read] = all at run
  cases run with
  | start => exact absurd whole (List.concat_ne_nil _ _)
  | @step _ before _ act run meets step =>
      obtain ⟨rfl, same⟩ := List.append_inj' whole rfl
      cases same
      by_contra lost
      -- a poll about to read knows of nothing it may send
      have known := known_runs run meets lost
      obtain ⟨_, _, _, poll⟩ := before
      cases poll <;> cases step
      exact known

/-! ## The condition is needed -/

theorem Runs.append {meets : Scene → Act → Prop} {start middle last : Scene} {acts later : List Act}
    (run : Runs meets start acts middle) (rest : Runs meets middle later last) :
    Runs meets start (acts ++ later) last := by
  induction rest with
  | start =>
      rw [List.append_nil]
      exact run
  | step act _ meets step ih =>
      rw [← List.append_assoc]
      exact .step act ih meets step

theorem kept_append {switch : Bool} {acts later : List Act} (stay : ∀ act ∈ later, act.stays = true) :
    Kept switch (acts ++ later) ↔ Kept switch acts := by
  induction later using List.reverseRecOn with
  | nil => rw [List.append_nil]
  | append_singleton later act ih =>
      rw [← List.append_assoc, kept_concat (stay act (List.mem_append_right _ (List.mem_singleton_self act)))]
      exact ih fun other member => stay other (List.mem_append_left _ member)

/-- From here polls alone come to send. -/
def Scene.Sends (scene : Scene) : Prop :=
  ∃ later last, Runs (fun _ _ => True) scene later last ∧ last.poll = .sending ∧ ∀ act ∈ later, act.stays = true

theorem sends_sending {scene : Scene} (sending : scene.poll = .sending) : scene.Sends :=
  ⟨[], scene, .start, sending, nofun⟩

theorem Scene.Sends.before {scene next : Scene} (sends : next.Sends) (act : Act) (stays : act.stays = true)
    (step : scene.step act = some next) : scene.Sends := by
  obtain ⟨later, last, run, sending, stay⟩ := sends
  have first : Runs (fun _ _ => True) scene [act] next := .step act .start trivial step
  refine ⟨[act] ++ later, last, first.append run, sending, ?_⟩
  intro other member
  cases List.mem_append.mp member with
  | inl here => rwa [List.mem_singleton.mp here]
  | inr rest => exact stay other rest

theorem sends_counted {on : Bool} {count seen : Int} {watch : ClipWatch}
    (sends : Scene.Sends ⟨true, count, (watch.tick on seen false).2,
      if (watch.tick on seen false).1 = .wait then .idle else .sending⟩) :
    Scene.Sends ⟨true, count, watch, .counted on seen⟩ :=
  sends.before (.tick false) rfl rfl

theorem sends_pending (count : Int) : Scene.Sends ⟨true, count, ⟨count, true⟩, .counted true count⟩ := by
  apply sends_counted
  apply sends_sending
  simp [ClipWatch.tick]

theorem sends_idle {count : Int} {watch : ClipWatch} (unknown : ¬ (watch.pending = false ∧ watch.lastCount = count)) :
    Scene.Sends ⟨true, count, watch, .idle⟩ := by
  have polled {watch : ClipWatch} (sends : Scene.Sends ⟨true, count, watch, .counted true count⟩) :
      Scene.Sends ⟨true, count, watch, .idle⟩ :=
    (sends.before .readCount rfl rfl).before .readSwitch rfl rfl
  obtain ⟨lastCount, pending⟩ := watch
  apply polled
  by_cases same : lastCount = count
  · have waits : pending = true := by
      by_contra quiet
      exact unknown ⟨Bool.eq_false_iff.mpr quiet, same⟩
    rw [same, waits]
    exact sends_pending count
  · -- noticed by this poll, sent by the next one
    have noticed : ClipWatch.tick ⟨lastCount, pending⟩ true count false = (.wait, ⟨count, true⟩) :=
      if_pos fun equal => same equal.symm
    apply sends_counted
    rw [noticed]
    exact polled (sends_pending count)

theorem sends_unknown {scene : Scene} (on : scene.switch = true) (unknown : ¬ scene.Known) : scene.Sends := by
  obtain ⟨switch, count, ⟨lastCount, pending⟩, poll⟩ := scene
  cases on
  cases poll with
  | idle => exact sends_idle unknown
  -- this poll may fail to count, and the next ones see the switch on
  | switched read => exact (sends_idle unknown).before .failCount rfl rfl
  -- it decides with no round running: either it sends or the next polls do
  | counted read seen =>
      cases read with
      | false =>
          apply sends_counted
          rw [ClipWatch.tick_off]
          exact sends_idle fun known => unknown known.2
      | true =>
          apply sends_counted
          by_cases same : seen = lastCount
          · cases pending with
            | false =>
                rw [same, ClipWatch.tick_known rfl]
                apply sends_idle
                intro known
                exact unknown ⟨rfl, known.2, same.trans known.2⟩
            | true =>
                apply sends_sending
                simp [ClipWatch.tick, same]
          · have noticed : ClipWatch.tick ⟨lastCount, pending⟩ true seen false = (.wait, ⟨seen, true⟩) := if_pos same
            rw [noticed]
            exact sends_idle fun known => by cases known.1
  | sending => exact sends_sending rfl

/-- Every step that is not careful is followed, by itself or by polls alone, by a send of what is not kept. -/
theorem lost_of_careless {switch : Bool} {count : Int} {acts : List Act} {scene next : Scene} {act : Act}
    (run : Runs (fun _ _ => True) (.start switch count) acts scene) (step : scene.step act = some next)
    (careless : ¬ careful scene act) :
    ∃ later last, Runs (fun _ _ => True) (.start switch count) (acts ++ later ++ [.read]) last ∧
      ¬ Kept switch (acts ++ later) := by
  have off_lost (off : scene.switch = false) : ¬ Kept switch acts := by
    intro kept
    rw [switch_runs run, switchAfter_kept kept] at off
    cases off
  cases act with
  | switch now =>
      cases now with
      | false => exact absurd trivial careless
      | true =>
          obtain ⟨off, unknown⟩ := Classical.not_imp.mp careless
          cases step
          have sends : Scene.Sends { scene with switch := true } := sends_unknown rfl unknown
          obtain ⟨later, last, rest, sending, stay⟩ := sends
          refine ⟨.switch true :: later, { last with poll := .idle }, ?_, ?_⟩
          · have whole := (run.step (.switch true) trivial rfl).append rest
            rw [List.append_assoc] at whole
            apply Runs.step .read whole trivial
            rw [Scene.step, sending]
          · rw [List.append_cons, kept_append stay, kept_concat rfl]
            exact off_lost off
  | read =>
      refine ⟨[], next, ?_, ?_⟩
      · rw [List.append_nil]
        exact run.step .read trivial step
      · rw [List.append_nil]
        exact off_lost (Bool.eq_false_iff.mpr careless)
  | copy | readSwitch | readCount | failCount | tick | skip => exact absurd trivial careless

/-- In every run whose steps are careful, what a poll sends was copied with the switch on and
the switch was not off since; and every other step makes a run that breaks this. -/
theorem sends_kept (switch : Bool) (count : Int) :
    (∀ acts scene, Runs careful (.start switch count) (acts ++ [.read]) scene → Kept switch acts) ∧
    ∀ acts scene act next, Runs (fun _ _ => True) (.start switch count) acts scene →
      scene.step act = some next → ¬ careful scene act →
      ∃ later last, Runs (fun _ _ => True) (.start switch count) (acts ++ later ++ [.read]) last ∧
        ¬ Kept switch (acts ++ later) :=
  ⟨fun _ _ run => kept_of_careful run, fun _ _ _ _ run step careless => lost_of_careless run step careless⟩

/-- A copy is seen with the switch off; the switch is turned on, and the next copy is noticed. -/
def switchedOn : List Act :=
  [.copy 1, .readSwitch, .readCount, .tick false, .switch true, .copy 2, .readSwitch, .readCount, .tick false]

/-- The next poll sends that copy, and not the first. -/
theorem sends_kept_switched :
    ∃ scene, Runs careful (.start false 0) (switchedOn ++ [.readSwitch, .readCount, .tick false] ++ [.read]) scene ∧
      Kept false (switchedOn ++ [.readSwitch, .readCount, .tick false]) := by
  have seen : Runs careful (.start false 0) [.copy 1, .readSwitch, .readCount, .tick false] ⟨false, 1, ⟨1, false⟩, .idle⟩ :=
    .step (.tick false) (.step .readCount (.step .readSwitch (.step (.copy 1) .start trivial rfl) trivial rfl)
      trivial rfl) trivial rfl
  have known : careful ⟨false, 1, ⟨1, false⟩, .idle⟩ (.switch true) := fun _ => ⟨rfl, rfl⟩
  have noticed : Runs careful (.start false 0) switchedOn ⟨true, 2, ⟨2, true⟩, .idle⟩ :=
    .step (.tick false) (.step .readCount (.step .readSwitch (.step (.copy 2) (.step (.switch true) seen known rfl)
      trivial rfl) trivial rfl) trivial rfl) trivial rfl
  have sent : Runs careful (.start false 0) (switchedOn ++ [.readSwitch, .readCount, .tick false] ++ [.read])
      ⟨true, 2, ⟨2, false⟩, .idle⟩ :=
    .step .read (.step (.tick false) (.step .readCount (.step .readSwitch noticed trivial rfl) trivial rfl)
      trivial rfl) rfl rfl
  exact ⟨_, sent, (sends_kept false 0).1 _ _ sent⟩

/-- Copied with the switch off, and the switch turned on before the next poll. -/
theorem sends_while_off :
    ¬ ∀ switch count acts scene, Runs (fun _ _ => True) (.start switch count) (acts ++ [.read]) scene →
      Kept switch acts := by
  intro always
  have noticed : Runs (fun _ _ => True) (.start false 0)
      [.copy 1, .switch true, .readSwitch, .readCount, .tick false] ⟨true, 1, ⟨1, true⟩, .idle⟩ :=
    .step (.tick false) (.step .readCount (.step .readSwitch (.step (.switch true)
      (.step (.copy 1) .start trivial rfl) trivial rfl) trivial rfl) trivial rfl) trivial rfl
  have sent : Runs (fun _ _ => True) (.start false 0)
      ([.copy 1] ++ [.switch true, .readSwitch, .readCount, .tick false, .readSwitch, .readCount, .tick false] ++ [.read])
      ⟨true, 1, ⟨1, false⟩, .idle⟩ :=
    .step .read (.step (.tick false) (.step .readCount (.step .readSwitch noticed trivial rfl) trivial rfl)
      trivial rfl) trivial rfl
  have kept := always false 0 _ _ sent
  rw [kept_append (by decide)] at kept
  have on := switchAfter_kept kept
  cases on

end Clipboard

end CesaConn
