import CesaConn.Network.Discovery

/-! Two members that look for each other.

While its invite window is open a member announces the window's id and searches
in rounds. What a round has found is visited once an address, and whoever has the
lower id connects. A window that has ended is kept, to say what it decided.
The salt check of a found device takes its time, but only its answer counts.
-/

set_option autoImplicit false

namespace CesaConn

open Format Program

namespace Discovery

def maxTriedPerWindow : Nat := 16

inductive GroupCheck where
  | same
  | different
  /-- No answer. -/
  | unknown
  deriving DecidableEq

inductive Found where
  | connect
  | theyConnect
  | otherGroup
  deriving DecidableEq

def onFound (check : GroupCheck) (id theirId : InstanceId) : Found :=
  if check = .different then .otherGroup
  else if id < theirId then .connect else .theyConnect

/-- `search_and_connect` of one window, with what its rounds reported. -/
structure Window where
  id : InstanceId
  /-- What the running round has found. -/
  found : List Hint := []
  tried : List IpAddr := []
  reports : List Hint := []
  decided : List (Hint × Found) := []
  deriving DecidableEq

namespace Window

variable (window : Window)

def hears (addr : SocketAddr) (packet : Bytes) : Window :=
  { window with found := hear window.id window.found addr packet }

/-- The search fails, and what it has found is lost. -/
def fails : Window := { window with found := [] }

def visit (checks : SocketAddr → GroupCheck) (hint : Hint) : Window :=
  if hint.ip ∈ window.tried ∨ maxTriedPerWindow ≤ window.tried.length then window
  else { window with
    tried := window.tried ++ [hint.ip]
    decided := window.decided ++ [(hint, onFound (checks hint.1) window.id hint.2)] }

def searched (checks : SocketAddr → GroupCheck) : Window :=
  let reported := { window with found := [], reports := window.reports ++ window.found }
  window.found.foldl (fun window hint => window.visit checks hint) reported

end Window

structure Device where
  window : Option Window := none
  ended : List Window := []
  otherGroup : Bool := false

def Device.windows (device : Device) : List Window := device.ended ++ device.window.toList

inductive Member where
  | ours
  | theirs
  deriving DecidableEq

def Member.other : Member → Member
  | .ours => .theirs
  | .theirs => .ours

structure Lan where
  addr : Member → SocketAddr
  apart : (addr .ours).ip ≠ (addr .theirs).ip

inductive Act where
  /-- `add_device`, with the id it generates. -/
  | addDevice (member : Member) (id : InstanceId)
  /-- The window ends: by its user, by time, with networking. -/
  | stop (member : Member)
  /-- The other member hears the announcement of this one's window. -/
  | announce (member : Member)
  /-- Anything else arrives at the member's search. -/
  | packet (member : Member) (addr : SocketAddr) (bytes : Bytes)
  | fails (member : Member)
  | searched (member : Member) (checks : SocketAddr → GroupCheck)

abbrev State := Member → Device

def ids (state : State) : List InstanceId :=
  ((state .ours).windows ++ (state .theirs).windows).map Window.id

def inWindow (state : State) (member : Member) (change : Window → Window) : Option State :=
  (state member).window.map fun window =>
    Function.update state member { state member with window := some (change window) }

variable (lan : Lan)

def step (state : State) : Act → Option State
  | .addDevice member id =>
      match (state member).window with
      -- one window at a time
      | some _ => some state
      | none =>
          if id ∈ ids state then none
          else some (Function.update state member { state member with window := some { id }, otherGroup := false })
  | .stop member =>
      some (Function.update state member { state member with window := none, ended := (state member).windows })
  | .announce member => do
      let window ← (state member).window
      inWindow state member.other fun other => other.hears (lan.addr member) (announcement window.id)
  | .packet member addr bytes => inWindow state member fun window => window.hears addr bytes
  | .fails member => inWindow state member Window.fails
  | .searched member checks => do
      let state ← inWindow state member fun window => window.searched checks
      let device := state member
      return Function.update state member { device with
        otherGroup := device.otherGroup || device.window.any fun window =>
          window.decided.any fun (_, decision) => decision = .otherGroup }

def run (state : State) : List Act → Option State
  | [] => some state
  | act :: rest => (step lan state act).bind fun next => run next rest

/-! ## What a window has decided -/

/-- Every salt check so far found the same group or nothing. -/
def Act.Same : Act → Prop
  | .searched _ checks => ∀ addr, checks addr ≠ .different
  | _ => True

def Window.Reports (window : Window) (ip : IpAddr) (id : InstanceId) : Prop :=
  ∃ hint ∈ window.reports, hint.ip = ip ∧ hint.2 = id

def Window.Connects (window : Window) (ip : IpAddr) (id : InstanceId) : Prop :=
  ∃ hint, (hint, Found.connect) ∈ window.decided ∧ hint.ip = ip ∧ hint.2 = id

/-- The first report that names the address names this id with it, and fewer than
`MAX_TRIED_PER_WINDOW` addresses were reported before. -/
def Window.NamesFirst (window : Window) (ip : IpAddr) (id : InstanceId) : Prop :=
  ∃ before hint after, window.reports = before ++ hint :: after ∧ hint.ip = ip ∧ hint.2 = id ∧
    (∀ earlier ∈ before, earlier.ip ≠ ip) ∧ (before.map Hint.ip).toFinset.card < maxTriedPerWindow

/-- The window has visited exactly these, and decided by the ids. -/
structure Window.Visited (window : Window) (visited : List Hint) : Prop where
  tried : window.tried = visited.map Hint.ip
  visited : window.decided.map Prod.fst = visited
  decided : ∀ decision ∈ window.decided, decision.2 = if window.id < decision.1.2 then .connect else .theyConnect

namespace Window

variable {window : Window} {checks : SocketAddr → GroupCheck}

theorem visit_fixed (window : Window) (checks : SocketAddr → GroupCheck) (hint : Hint) :
    (window.visit checks hint).id = window.id ∧ (window.visit checks hint).found = window.found ∧
      (window.visit checks hint).reports = window.reports := by
  unfold visit
  split <;> exact ⟨rfl, rfl, rfl⟩

theorem visits_fixed (hints : List Hint) (window : Window) (checks : SocketAddr → GroupCheck) :
    (hints.foldl (fun window hint => window.visit checks hint) window).id = window.id ∧
      (hints.foldl (fun window hint => window.visit checks hint) window).found = window.found ∧
      (hints.foldl (fun window hint => window.visit checks hint) window).reports = window.reports := by
  induction hints generalizing window with
  | nil => exact ⟨rfl, rfl, rfl⟩
  | cons hint rest ih =>
      obtain ⟨id, found, reports⟩ := ih (window.visit checks hint)
      obtain ⟨id', found', reports'⟩ := visit_fixed window checks hint
      exact ⟨id.trans id', found.trans found', reports.trans reports'⟩

variable {visited : List Hint}

theorem Visited.visit (holds : window.Visited visited) (same : ∀ addr, checks addr ≠ .different) (hint : Hint) :
    (window.visit checks hint).Visited (collect Hint.ip maxTriedPerWindow visited hint) := by
  have length : window.tried.length = visited.length := by rw [holds.tried, List.length_map]
  unfold Window.visit collect
  rw [length, holds.tried]
  split
  · exact holds
  · refine ⟨?_, ?_, ?_⟩
    · rw [List.map_append, List.map_singleton]
    · rw [List.map_append, holds.visited, List.map_singleton]
    · intro decision member
      rw [List.mem_append, List.mem_singleton] at member
      obtain old | rfl := member
      · exact holds.decided decision old
      · exact if_neg (same hint.1)

theorem Visited.visits (holds : window.Visited visited) (same : ∀ addr, checks addr ≠ .different) (hints : List Hint) :
    (hints.foldl (fun window hint => window.visit checks hint) window).Visited
      (hints.foldl (collect Hint.ip maxTriedPerWindow) visited) := by
  induction hints generalizing window visited with
  | nil => exact holds
  | cons hint rest ih => exact ih (holds.visit same hint)

end Window

/-- A window has visited what leads its reports, none of which is its own announcement. -/
structure Window.Sound (window : Window) : Prop where
  visited : window.Visited (collected Hint.ip maxTriedPerWindow window.reports)
  foreign : ∀ hint ∈ window.reports ++ window.found, hint.2 ≠ window.id

namespace Window.Sound

variable {window : Window}

theorem connects_iff (sound : window.Sound) (ip : IpAddr) (id : InstanceId) :
    window.Connects ip id ↔ window.id < id ∧ window.NamesFirst ip id := by
  have leads (hint : Hint) : (∃ decision, (hint, decision) ∈ window.decided) ↔
      ∃ before after, window.reports = before ++ hint :: after ∧ Leads Hint.ip maxTriedPerWindow before hint := by
    rw [← mem_collected_iff, ← sound.visited.visited, List.mem_map]
    constructor
    · rintro ⟨decision, member⟩
      exact ⟨_, member, rfl⟩
    · rintro ⟨⟨_, decision⟩, member, rfl⟩
      exact ⟨decision, member⟩
  constructor
  · rintro ⟨hint, member, rfl, rfl⟩
    have lower : window.id < hint.2 := by
      by_contra higher
      have decided := sound.visited.decided _ member
      rw [if_neg higher] at decided
      cases decided
    obtain ⟨before, after, split, first, few⟩ := (leads hint).mp ⟨_, member⟩
    exact ⟨lower, before, hint, after, split, rfl, rfl, first, few⟩
  · rintro ⟨lower, before, hint, after, split, rfl, rfl, first, few⟩
    obtain ⟨decision, member⟩ := (leads hint).mpr ⟨before, after, split, first, few⟩
    have decided := sound.visited.decided _ member
    rw [if_pos lower] at decided
    exact ⟨hint, decided ▸ member, rfl, rfl⟩

theorem opened (id : InstanceId) : Window.Sound { id } where
  visited := ⟨rfl, rfl, fun _ member => by cases member⟩
  foreign _ member := by cases member

theorem hears (sound : window.Sound) (addr : SocketAddr) (packet : Bytes) : (window.hears addr packet).Sound := by
  refine ⟨⟨sound.visited.tried, sound.visited.visited, sound.visited.decided⟩, ?_⟩
  intro hint member
  rw [List.mem_append] at member
  obtain reported | found := member
  · exact sound.foreign hint (List.mem_append_left _ reported)
  · have old : hint ∈ window.found → hint.2 ≠ window.id := fun earlier =>
      sound.foreign hint (List.mem_append_right _ earlier)
    simp only [Window.hears, hear] at found
    split at found
    · exact old found
    · next id _ =>
      split at found
      · exact old found
      · next different =>
        rw [collect] at found
        split at found
        · exact old found
        · rw [List.mem_append, List.mem_singleton] at found
          obtain earlier | rfl := found
          · exact old earlier
          · exact different

theorem fails (sound : window.Sound) : window.fails.Sound := by
  refine ⟨⟨sound.visited.tried, sound.visited.visited, sound.visited.decided⟩, ?_⟩
  intro hint member
  rw [Window.fails, List.append_nil] at member
  exact sound.foreign hint (List.mem_append_left _ member)

theorem searched (sound : window.Sound) {checks : SocketAddr → GroupCheck} (same : ∀ addr, checks addr ≠ .different) :
    (window.searched checks).Sound := by
  let reported : Window := { window with found := [], reports := window.reports ++ window.found }
  have visiting : reported.Visited (collected Hint.ip maxTriedPerWindow window.reports) :=
    ⟨sound.visited.tried, sound.visited.visited, sound.visited.decided⟩
  have visited := visiting.visits same window.found
  obtain ⟨id, found, reports⟩ := visits_fixed window.found reported checks
  constructor
  · rw [collected, ← List.foldl_append] at visited
    rw [Window.searched, reports, collected]
    exact visited
  · intro hint member
    rw [Window.searched, reports, found, List.append_nil] at member
    rw [Window.searched, id]
    exact sound.foreign hint member

end Window.Sound

/-! ## Every run -/

def Sound (state : State) : Prop := ∀ member, ∀ window ∈ (state member).windows, window.Sound

theorem Sound.update {state : State} (sound : Sound state) {member : Member} {device : Device}
    (holds : ∀ window ∈ device.windows, window.Sound) : Sound (Function.update state member device) :=
  (Function.forall_update_iff state fun _ device => ∀ window ∈ device.windows, window.Sound).mpr
    ⟨holds, fun other _ => sound other⟩

theorem Sound.inWindow {state next : State} (sound : Sound state) {member : Member} {change : Window → Window}
    (changes : ∀ window, window.Sound → (change window).Sound) (changed : inWindow state member change = some next) :
    Sound next := by
  simp only [Discovery.inWindow, Option.map_eq_some_iff] at changed
  obtain ⟨window, opened, rfl⟩ := changed
  apply sound.update
  intro other found
  simp only [Device.windows, Option.toList_some, List.mem_append, List.mem_singleton] at found
  obtain ended | rfl := found
  · exact sound member other (List.mem_append_left _ ended)
  · apply changes
    apply sound member window
    simp [Device.windows, opened]

variable {lan : Lan}

theorem Sound.step {state next : State} {act : Act} (sound : Sound state) (same : act.Same)
    (stepped : step lan state act = some next) : Sound next := by
  cases act with
  | addDevice member id =>
      simp only [Discovery.step] at stepped
      split at stepped
      · cases stepped
        exact sound
      · next closed =>
        simp only [Option.ite_none_left_eq_some, Option.some.injEq] at stepped
        obtain ⟨-, rfl⟩ := stepped
        apply sound.update
        intro window found
        simp only [Device.windows, Option.toList_some, List.mem_append, List.mem_singleton] at found
        obtain ended | rfl := found
        · exact sound member window (List.mem_append_left _ ended)
        · exact .opened id
  | stop member =>
      cases stepped
      apply sound.update
      intro window found
      rw [Device.windows, Option.toList_none, List.append_nil] at found
      exact sound member window found
  | announce member =>
      simp only [Discovery.step, Option.bind_eq_bind, Option.bind_eq_some_iff] at stepped
      obtain ⟨window, -, heard⟩ := stepped
      exact sound.inWindow (fun _ holds => holds.hears _ _) heard
  | packet member addr bytes => exact sound.inWindow (fun _ holds => holds.hears _ _) stepped
  | fails member => exact sound.inWindow (fun _ holds => holds.fails) stepped
  | searched member checks =>
      simp only [Discovery.step, Option.bind_eq_bind, Option.bind_eq_some_iff, Option.pure_def, Option.some.injEq] at stepped
      obtain ⟨middle, searched, rfl⟩ := stepped
      have found : Sound middle := sound.inWindow (fun _ holds => holds.searched same) searched
      exact found.update (found member)

theorem Sound.run {first last : State} {acts : List Act} (sound : Sound first) (same : ∀ act ∈ acts, act.Same)
    (goes : run lan first acts = some last) : Sound last := by
  induction acts generalizing first with
  | nil =>
      cases goes
      exact sound
  | cons act rest ih =>
      rw [Discovery.run, Option.bind_eq_some_iff] at goes
      obtain ⟨middle, stepped, goes⟩ := goes
      obtain ⟨first, rest⟩ := List.forall_mem_cons.mp same
      exact ih (sound.step first stepped) rest goes

def unopened : State := fun _ => {}

/-- Two windows that have found each other never both connect. One connects exactly if
the first report that the window with the lower id has of the other's address names
the other window, and comes before too many other addresses. -/
theorem lower_connects_iff {last : State} {acts : List Act} (same : ∀ act ∈ acts, act.Same)
    (goes : run lan unopened acts = some last) {ours theirs : Window} (opened : ours ∈ (last .ours).windows)
    (opened' : theirs ∈ (last .theirs).windows) (reports : ours.Reports (lan.addr .theirs).ip theirs.id) :
    ¬ (ours.Connects (lan.addr .theirs).ip theirs.id ∧ theirs.Connects (lan.addr .ours).ip ours.id) ∧
    (ours.Connects (lan.addr .theirs).ip theirs.id ∨ theirs.Connects (lan.addr .ours).ip ours.id ↔
      if ours.id < theirs.id then ours.NamesFirst (lan.addr .theirs).ip theirs.id
      else theirs.NamesFirst (lan.addr .ours).ip ours.id) := by
  have start : Sound unopened := fun _ _ member => by cases member
  have sound := start.run same goes
  have mine := (sound .ours ours opened).connects_iff (lan.addr .theirs).ip theirs.id
  have others := (sound .theirs theirs opened').connects_iff (lan.addr .ours).ip ours.id
  have different : ours.id ≠ theirs.id := by
    obtain ⟨hint, reported, -, named⟩ := reports
    have foreign := (sound .ours ours opened).foreign hint (List.mem_append_left _ reported)
    rw [named] at foreign
    exact foreign.symm
  rw [mine, others]
  by_cases lower : ours.id < theirs.id
  · have higher := InstanceId.lt_asymm lower
    simp only [lower, higher, true_and, false_and, and_false, not_false_eq_true, or_false, if_true]
  · have higher := (InstanceId.lt_or_lt different).resolve_left lower
    simp only [lower, higher, true_and, false_and, not_false_eq_true, false_or, if_false]

/-! ## Two members at home -/

def instanceOf (byte : UInt8) : InstanceId := ⟨.replicate 16 byte⟩

def home : Lan where
  addr
    | .ours => .v4 (.replicate 4 10) 3636
    | .theirs => .v4 (.replicate 4 11) 3636
  apart := by decide

def meet : List Act := [.announce .theirs, .announce .ours]

def ends (member : Member) : Act := .searched member fun _ => .same

/-- A window of ours that has decided so about windows of theirs, the last of which it has reported last. -/
def after (own : UInt8) (of : Member) (heard : List UInt8) (decided : Found) : Window where
  id := instanceOf own
  tried := [(home.addr of).ip]
  reports := heard.map fun byte => (home.addr of, instanceOf byte)
  decided := (heard.head?.map fun byte => ((home.addr of, instanceOf byte), decided)).toList

theorem same_ends (member : Member) : (ends member).Same := fun _ never => by cases never

theorem reports_after {own byte : UInt8} {of : Member} {heard : List UInt8} {decided : Found} (member : byte ∈ heard) :
    (after own of heard decided).Reports (home.addr of).ip (instanceOf byte) :=
  ⟨(home.addr of, instanceOf byte), List.mem_map_of_mem member, rfl, rfl⟩

theorem not_connects_after {own : UInt8} {of : Member} {heard : List UInt8} (ip : IpAddr) (id : InstanceId) :
    ¬ (after own of heard .theyConnect).Connects ip id := by
  rintro ⟨hint, member, -⟩
  rw [after, Option.mem_toList, Option.map_eq_some_iff] at member
  obtain ⟨byte, -, never⟩ := member
  cases never

theorem lower_connects_home : ∃ last ours theirs,
    run home unopened ([.addDevice .ours (instanceOf 3), .addDevice .theirs (instanceOf 5)] ++ meet ++ [ends .ours, ends .theirs]) =
      some last ∧
    (last .ours).window = some ours ∧ (last .theirs).window = some theirs ∧
    ours.Connects (home.addr .theirs).ip theirs.id ∧ ¬ theirs.Connects (home.addr .ours).ip ours.id := by
  have played : (run home unopened
      ([.addDevice .ours (instanceOf 3), .addDevice .theirs (instanceOf 5)] ++ meet ++ [ends .ours, ends .theirs])).any
      fun last => (last .ours).window = some (after 3 .theirs [5] .connect) ∧
        (last .theirs).window = some (after 5 .ours [3] .theyConnect) := by decide
  simp only [Option.any_eq_true, decide_eq_true_eq] at played
  obtain ⟨last, goes, ours, theirs⟩ := played
  have same : ∀ act ∈ [.addDevice .ours (instanceOf 3), .addDevice .theirs (instanceOf 5)] ++ meet ++ [ends .ours, ends .theirs],
      Act.Same act := by
    simp only [meet, List.cons_append, List.nil_append, List.forall_mem_cons]
    exact ⟨trivial, trivial, trivial, trivial, same_ends _, same_ends _, fun _ never => by cases never⟩
  have opened : after 3 .theirs [5] .connect ∈ (last .ours).windows := by simp [Device.windows, ours]
  have opened' : after 5 .ours [3] .theyConnect ∈ (last .theirs).windows := by simp [Device.windows, theirs]
  obtain ⟨never, connects⟩ := lower_connects_iff same goes opened opened' (reports_after (List.mem_singleton_self 5))
  have leads : (after 3 .theirs [5] .connect).NamesFirst (home.addr .theirs).ip (instanceOf 5) :=
    ⟨[], (home.addr .theirs, instanceOf 5), [], rfl, rfl, rfl, List.forall_mem_nil _, by decide⟩
  have lower : instanceOf 3 < instanceOf 5 := by decide
  have one := connects.mpr ((if_pos lower).mpr leads)
  exact ⟨last, _, _, goes, ours, theirs, one.resolve_right (not_connects_after _ _), not_connects_after _ _⟩

/-- Theirs is reopened before its search is over: we have seen its address with a
lower id and leave the connection to it, and its new id leaves it to us. -/
theorem lower_connects_reopened : ∃ acts last ours theirs,
    run home unopened acts = some last ∧ (∀ act ∈ acts, act.Same) ∧
    (last .ours).window = some ours ∧ (last .theirs).window = some theirs ∧
    ours.Reports (home.addr .theirs).ip theirs.id ∧ theirs.Reports (home.addr .ours).ip ours.id ∧
    ¬ ours.Connects (home.addr .theirs).ip theirs.id ∧ ¬ theirs.Connects (home.addr .ours).ip ours.id := by
  let acts : List Act := [.addDevice .ours (instanceOf 5), .addDevice .theirs (instanceOf 3)] ++ meet ++ [ends .ours] ++
    [.stop .theirs, .addDevice .theirs (instanceOf 7)] ++ meet ++ [ends .ours, ends .theirs]
  have played : (run home unopened acts).any fun last =>
      (last .ours).window = some (after 5 .theirs [3, 7] .theyConnect) ∧
        (last .theirs).window = some (after 7 .ours [5] .theyConnect) := by decide
  simp only [Option.any_eq_true, decide_eq_true_eq] at played
  obtain ⟨last, goes, ours, theirs⟩ := played
  have same : ∀ act ∈ acts, act.Same := by
    simp only [acts, meet, List.cons_append, List.nil_append, List.forall_mem_cons]
    exact ⟨trivial, trivial, trivial, trivial, same_ends _, trivial, trivial, trivial, trivial, same_ends _, same_ends _,
      fun _ never => by cases never⟩
  have reports : (after 5 .theirs [3, 7] .theyConnect).Reports (home.addr .theirs).ip (instanceOf 7) :=
    reports_after (by decide)
  exact ⟨acts, last, _, _, goes, same, ours, theirs, reports, reports_after (List.mem_singleton_self 5),
    not_connects_after _ _, not_connects_after _ _⟩

end Discovery

end CesaConn
