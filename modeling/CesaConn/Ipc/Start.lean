import CesaConn.Ipc.Socket

/-! Daemons that start and end on one machine, side by side.

A start looks at the path of the socket, makes room there if only a stale socket is in the
way, and listens. A daemon that is stopped closes its socket first and removes the file some
time later. Between any two operations other daemons may start, go on or end, and any operation
may fail. A connection that fails for whatever reason is taken for a stale socket.
-/

set_option autoImplicit false

namespace CesaConn

namespace Ipc

open Format Program
open Auth (Io)

namespace Socket

open Attempt

/-- What is at the path of the socket, and which daemon listens there. -/
structure File where
  metadata : Metadata
  listener : Option Nat
  deriving DecidableEq

/-- The mode of a new socket, before it is restricted. -/
def socketMode : Nat := 0o755

inductive Stage where
  /-- The rest of `bind`; once that has returned, the daemon listens or is about to exit. -/
  | starting (rest : Proc socket (Except IpcServerErrors Unit))
  /-- The end of `run`: the socket is closed, its file is still to be removed. -/
  | leaving

structure Host where
  file : Option File
  daemons : Nat → Option Stage

inductive Act where
  | start (daemon : Nat)
  | perform (daemon : Nat) (fails : Bool)
  /-- Ctrl-C. -/
  | stop (daemon : Nat)
  /-- Without removing anything. -/
  | exit (daemon : Nat)
  deriving DecidableEq

def File.closed (file : File) (daemon : Nat) : File :=
  if file.listener = some daemon then { file with listener := none } else file

def exec (euid daemon : Nat) (path : String) (fails : Bool) (file : Option File) :
    (op : Op) → Option (socket.Reply op × Option File)
  | .symlinkMetadata target => if target = path then some (if fails then none else file.map File.metadata, file) else none
  | .connect target =>
      if target = path then some (if !fails && (file.bind File.listener).isSome then .done () else .failed, file) else none
  | .removeFile target =>
      if target = path then if fails || file.isNone then some (false, file) else some (true, none) else none
  | .bind target =>
      if target = path then
        if fails || file.isSome then some (false, file)
        else some (true, some ⟨⟨false, true, euid, socketMode⟩, some daemon⟩)
      else none
  | .setPermissions target mode =>
      if target = path then
        if fails then some (false, file)
        else some (file.isSome, file.map fun file => { file with metadata := { file.metadata with mode } })
      else none
  | _ => none

section

variable (euid : Nat) (path : String)

def Host.step (host : Host) : Act → Option Host
  | .start daemon =>
      if (host.daemons daemon).isSome then none
      else some { host with daemons := Function.update host.daemons daemon (some (.starting (bind euid path).run)) }
  | .perform daemon fails =>
      match host.daemons daemon with
      | some (.starting (.call op next)) => (exec euid daemon path fails host.file op).map fun (reply, file) =>
          ⟨file, Function.update host.daemons daemon (some (.starting (next reply)))⟩
      | some .leaving => (exec euid daemon path fails host.file (.removeFile path)).map fun (_, file) =>
          ⟨file, Function.update host.daemons daemon none⟩
      | _ => none
  | .stop daemon =>
      match host.daemons daemon with
      | some (.starting (.done (.ok ()))) => some
          ⟨host.file.map fun file => file.closed daemon, Function.update host.daemons daemon (some .leaving)⟩
      | _ => none
  | .exit daemon => some ⟨host.file.map fun file => file.closed daemon, Function.update host.daemons daemon none⟩

def Host.run (host : Host) : List Act → Option Host
  | [] => some host
  | act :: rest => (host.step euid path act).bind fun next => next.run rest

end

/-- A connection to a daemon that listens fails in this act, for want of descriptors or of room in
the backlog. -/
def Host.misses (host : Host) : Act → Prop
  | .perform daemon fails => fails = true ∧ (host.file.bind File.listener).isSome ∧
      ∃ target next, host.daemons daemon = some (.starting (.call (.connect target) next))
  | _ => False

def Host.Reaches (euid : Nat) (path : String) (host : Host) : List Act → Prop
  | [] => True
  | act :: rest => ¬ host.misses act ∧ ∀ next, host.step euid path act = some next → next.Reaches euid path rest

def File.refusal (euid : Nat) (file : File) : Option IpcServerErrors :=
  if !(file.metadata.isSocket && file.metadata.uid == euid) then some .socketPathTaken
  else if file.listener.isSome then some .alreadyRunning
  else none

/-- The program leaves this file as it is, and ends with the error or without having listened. -/
def Spares (euid daemon : Nat) (path : String) (file : File) (error : IpcServerErrors) :
    Proc socket (Except IpcServerErrors Unit) → Prop
  | .done result => result = .error error ∨ result = .error .failedToBind
  | .call op next => ∀ fails reply after, (file.listener.isSome → (∃ target, op = .connect target) → fails = false) →
      exec euid daemon path fails (some file) op = some (reply, after) →
      after = some file ∧ Spares euid daemon path file error (next reply)

variable {euid daemon : Nat} {path : String} {file : File} {error : IpcServerErrors}

/-- `bind`, once the path is free of a stale socket. -/
def listen (path : String) : Attempt socket IpcServerErrors Unit := do
  let bound ← perform (I := socket) (.bind path)
  ensure bound .failedToBind
  let restricted ← perform (I := socket) (.setPermissions path 0o600)
  ensure restricted .failedToBind

theorem spares_listen : Spares euid daemon path file error (listen path).run := by
  intro fails bound after _ listened
  have refused : some (false, some file) = some (bound, after) := by
    rw [← listened]
    simp [exec]
  cases refused
  exact ⟨rfl, .inr rfl⟩

theorem spares_bind (refused : file.refusal euid = some error) : Spares euid daemon path file error (bind euid path).run := by
  intro fails found after _ looked
  have seen : some (if fails then none else some file.metadata, some file) = some (found, after) := by
    rw [← looked]
    simp [exec]
  cases seen
  refine ⟨rfl, ?_⟩
  cases fails with
  | true => exact spares_listen
  | false =>
      show Spares euid daemon path file error
        ((ensure (file.metadata.isSocket && file.metadata.uid == euid) .socketPathTaken >>= fun _ =>
          perform (I := socket) (.connect path) >>= fun connected => ensure (connected ≠ .done ()) .alreadyRunning >>= fun _ =>
          perform (I := socket) (.removeFile path) >>= fun removed => ensure removed .failedToBind) >>= fun _ => listen path).run
      unfold File.refusal at refused
      cases own : file.metadata.isSocket && file.metadata.uid == euid with
      | false =>
          rw [own] at refused
          cases refused
          exact .inl rfl
      | true =>
          simp only [own, Bool.not_true, Bool.false_eq_true, if_false] at refused
          split at refused
          · next listens =>
            cases refused
            intro fails connected after answers reached
            have done : some (Io.done (), some file) = some (connected, after) := by
              rw [← reached, answers listens ⟨path, rfl⟩]
              simp [exec, listens]
            cases done
            exact ⟨rfl, .inl rfl⟩
          · cases refused

/-! ## A path that is taken -/

/-- The file is at the path, with its listener, and whoever else goes on will leave it there. -/
structure Refusing (euid : Nat) (path : String) (file : File) (error : IpcServerErrors) (host : Host) : Prop where
  here : host.file = some file
  listens : ∀ daemon, file.listener = some daemon → ∃ result, host.daemons daemon = some (.starting (.done result))
  spares : ∀ daemon stage, host.daemons daemon = some stage → file.listener = some daemon ∨
    ∃ rest, stage = .starting rest ∧ Spares euid daemon path file error rest

variable {host next : Host}

theorem Refusing.update (refusing : Refusing euid path file error host) (other : file.listener ≠ some daemon) {stage : Option Stage}
    (spares : ∀ found, stage = some found → ∃ rest, found = .starting rest ∧ Spares euid daemon path file error rest) :
    Refusing euid path file error ⟨some file, Function.update host.daemons daemon stage⟩ := by
  constructor
  · rfl
  · intro listener same
    obtain ⟨result, ended⟩ := refusing.listens listener same
    have apart : listener ≠ daemon := fun one => other (one ▸ same)
    exact ⟨result, (Function.update_of_ne apart stage host.daemons).trans ended⟩
  · intro another found here
    by_cases one : another = daemon
    · subst one
      have here : Function.update host.daemons another stage another = some found := here
      rw [Function.update_self] at here
      exact .inr (spares found here)
    · have here : Function.update host.daemons daemon stage another = some found := here
      rw [Function.update_of_ne one] at here
      exact refusing.spares another found here

theorem File.closed_of_ne (other : file.listener ≠ some daemon) : (some file).map (fun file => file.closed daemon) = some file := by
  rw [Option.map_some, File.closed, if_neg other]

def Act.ends (daemon : Nat) : Act → Prop
  | .stop other | .exit other => other = daemon
  | .start _ | .perform _ _ => False

theorem Refusing.step (refusing : Refusing euid path file error host) (refused : file.refusal euid = some error) {act : Act}
    (stays : ∀ daemon, file.listener = some daemon → ¬ act.ends daemon) (reaches : ¬ host.misses act)
    (stepped : host.step euid path act = some next) : Refusing euid path file error next := by
  obtain ⟨found, daemons⟩ := host
  obtain rfl : found = some file := refusing.here
  cases act with
  | start daemon =>
      simp only [Host.step] at stepped
      split at stepped
      · cases stepped
      · next free =>
        cases stepped
        refine refusing.update (fun listens => ?_) fun stage same => ?_
        · obtain ⟨result, ended⟩ := refusing.listens daemon listens
          exact free (Option.isSome_iff_exists.mpr ⟨_, ended⟩)
        · cases same
          exact ⟨_, rfl, spares_bind refused⟩
  | perform daemon fails =>
      simp only [Host.step] at stepped
      split at stepped
      · next op goes running =>
        simp only [Option.map_eq_some_iff, Prod.exists] at stepped
        obtain ⟨reply, after, executed, rfl⟩ := stepped
        have other : file.listener ≠ some daemon := by
          intro listens
          obtain ⟨result, ended⟩ := refusing.listens daemon listens
          cases running.symm.trans ended
        obtain ⟨rest, same, spares⟩ := (refusing.spares daemon _ running).resolve_left other
        cases same
        have answers : file.listener.isSome → (∃ target, op = .connect target) → fails = false := by
          rintro listens ⟨target, rfl⟩
          rw [← Bool.not_eq_true]
          exact fun failing => reaches ⟨failing, listens, target, goes, running⟩
        obtain ⟨rfl, spares⟩ := spares fails reply after answers executed
        refine refusing.update other fun stage same => ?_
        cases same
        exact ⟨_, rfl, spares⟩
      · next leaves =>
        -- neither the listener nor a start is leaving
        obtain listens | ⟨rest, same, -⟩ := refusing.spares daemon _ leaves
        · obtain ⟨result, ended⟩ := refusing.listens daemon listens
          cases leaves.symm.trans ended
        · cases same
      · cases stepped
  | stop daemon =>
      have other : file.listener ≠ some daemon := fun listens => stays daemon listens rfl
      simp only [Host.step] at stepped
      split at stepped
      · next listening =>
        -- only a daemon that listens is stopped so
        obtain ⟨rest, same, spares⟩ := (refusing.spares daemon _ listening).resolve_left other
        cases same
        obtain never | never := spares
        · cases never
        · cases never
      · cases stepped
  | exit daemon =>
      cases stepped
      have other : file.listener ≠ some daemon := fun listens => stays daemon listens rfl
      rw [File.closed_of_ne other]
      exact refusing.update other fun stage never => by cases never

theorem Refusing.run {acts : List Act} (refusing : Refusing euid path file error host) (refused : file.refusal euid = some error)
    (stays : ∀ daemon, file.listener = some daemon → ∀ act ∈ acts, ¬ act.ends daemon)
    (reaches : host.Reaches euid path acts) (run : host.run euid path acts = some next) :
    Refusing euid path file error next := by
  induction acts generalizing host with
  | nil =>
      cases run
      exact refusing
  | cons act rest ih =>
      obtain ⟨middle, stepped, later⟩ := Option.bind_eq_some_iff.mp run
      have after := refusing.step refused (fun daemon listens => stays daemon listens act List.mem_cons_self) reaches.1 stepped
      exact ih after (fun daemon listens act member => stays daemon listens act (List.mem_cons_of_mem _ member))
        (reaches.2 middle stepped) later

/-- Where a daemon listens, or something is that is not ours, starts change nothing: however many there
are, in whatever order they go on and whatever fails but a connection to the daemon, the file stays as
it is, the daemon keeps listening, and every start ends with an error. Starts that were under way
before are left out, as they may have seen a stale socket here, and so are daemons that were leaving. -/
theorem taken_path_stays {acts : List Act} (refused : file.refusal euid = some error) (here : host.file = some file)
    (listens : ∀ daemon, file.listener = some daemon → ∃ result, host.daemons daemon = some (.starting (.done result)))
    (others : ∀ daemon stage, host.daemons daemon = some stage →
      file.listener = some daemon ∨ stage = .starting (bind euid path).run)
    (run : host.run euid path acts = some next) (stays : ∀ daemon, file.listener = some daemon → ∀ act ∈ acts, ¬ act.ends daemon)
    (reaches : host.Reaches euid path acts) :
    next.file = some file ∧
    (∀ daemon, file.listener = some daemon → ∃ result, next.daemons daemon = some (.starting (.done result))) ∧
    ∀ daemon stage, file.listener ≠ some daemon → next.daemons daemon = some stage → ∃ rest, stage = .starting rest ∧
      ∀ result, rest = .done result → result = .error error ∨ result = .error .failedToBind := by
  have refusing : Refusing euid path file error host := by
    refine ⟨here, listens, fun daemon stage found => ?_⟩
    obtain listener | fresh := others daemon stage found
    · exact .inl listener
    · exact .inr ⟨_, fresh, spares_bind refused⟩
  have after := refusing.run refused stays reaches run
  refine ⟨after.here, after.listens, fun daemon stage other found => ?_⟩
  obtain ⟨rest, same, spares⟩ := (after.spares daemon stage found).resolve_left other
  refine ⟨rest, same, fun result ended => ?_⟩
  subst ended
  exact spares

/-- Two starts that overlap: the second removes the socket on which the first listens already. -/
example : ((⟨some ⟨⟨false, true, 501, 0o600⟩, none⟩, fun _ => none⟩ : Host).run 501 "daemon.sock" [.start 0, .start 1,
    .perform 1 false, .perform 1 false, .perform 0 false, .perform 0 false, .perform 0 false, .perform 0 false,
    .perform 1 false, .perform 1 false]).map (fun host => host.file.bind File.listener) = some (some 1) := rfl

/-- A daemon that is leaving removes the socket of one that has started meanwhile. -/
example : ((⟨none, fun _ => none⟩ : Host).run 501 "daemon.sock" [.start 0, .perform 0 false, .perform 0 false, .perform 0 false,
    .stop 0, .start 1, .perform 1 false, .perform 1 false, .perform 1 false, .perform 1 false, .perform 1 false,
    .perform 0 false]).map Host.file = some none := rfl

def listening : File := ⟨⟨false, true, 501, 0o600⟩, some 0⟩

def occupied : Host := ⟨some listening, fun daemon => if daemon = 0 then some (.starting (.done (.ok ()))) else none⟩

/-- A connection that fails, and the socket of the daemon that listens is removed. -/
example : (occupied.run 501 "daemon.sock" [.start 1, .perform 1 false, .perform 1 true, .perform 1 false, .perform 1 false,
    .perform 1 false]).map (fun host => host.file.bind File.listener) = some (some 1) := rfl

theorem Host.reaches_cons {euid : Nat} {path : String} {host next : Host} {act : Act} {rest : List Act}
    (stepped : host.step euid path act = some next) (reaches : ¬ host.misses act) (later : next.Reaches euid path rest) :
    host.Reaches euid path (act :: rest) := by
  refine ⟨reaches, fun other same => ?_⟩
  cases stepped.symm.trans same
  exact later

/-- Two starts; the second cannot even look at the path. -/
def tried : List Act := [.start 1, .perform 1 false, .start 2, .perform 2 true, .perform 1 false, .perform 2 false]

theorem taken_path_stays_listening : ∃ next, occupied.run 501 "daemon.sock" tried = some next ∧
    next.file = some listening ∧ ∀ daemon result, daemon ≠ 0 → next.daemons daemon = some (.starting (.done result)) →
      result = .error .alreadyRunning ∨ result = .error .failedToBind := by
  obtain ⟨next, run⟩ : ∃ next, occupied.run 501 "daemon.sock" tried = some next := ⟨_, rfl⟩
  have listens : ∀ daemon, listening.listener = some daemon → ∃ result, occupied.daemons daemon = some (.starting (.done result)) := by
    intro daemon same
    cases same
    exact ⟨_, rfl⟩
  have others : ∀ daemon stage, occupied.daemons daemon = some stage →
      listening.listener = some daemon ∨ stage = .starting (bind 501 "daemon.sock").run := by
    intro daemon stage found
    by_cases first : daemon = 0
    · exact .inl (congrArg some first.symm)
    · have none : occupied.daemons daemon = none := if_neg first
      rw [none] at found
      cases found
  have stays : ∀ daemon, listening.listener = some daemon → ∀ act ∈ tried, ¬ act.ends daemon := by
    intro daemon _
    simp [tried, Act.ends]
  have succeeds {host : Host} {daemon : Nat} : ¬ host.misses (.perform daemon false) := fun miss => by cases miss.1
  have reaches : occupied.Reaches 501 "daemon.sock" tried := by
    refine Host.reaches_cons rfl id (Host.reaches_cons rfl succeeds (Host.reaches_cons rfl id ?_))
    refine Host.reaches_cons rfl ?_ (Host.reaches_cons rfl succeeds (Host.reaches_cons rfl succeeds trivial))
    -- what fails is not a connection
    rintro ⟨-, -, target, goes, looks⟩
    cases looks
  obtain ⟨here, -, ended⟩ := taken_path_stays rfl rfl listens others run stays reaches
  refine ⟨next, run, here, fun daemon result other done => ?_⟩
  obtain ⟨rest, same, result_of⟩ := ended daemon _ (fun listener => other (Option.some.inj listener).symm) done
  cases same
  exact result_of result rfl

end Socket

end Ipc

end CesaConn
