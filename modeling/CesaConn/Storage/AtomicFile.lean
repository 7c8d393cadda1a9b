import CesaConn.Program.Stateful
import CesaConn.Storage.Vault

/-! Writing and deleting the vault file, system call by system call.

Every call either has its effect or fails without one; a write of many bytes
may also fail after some of them. Which calls fail is the operating system's
choice, and each call is made at most once.
-/

set_option autoImplicit false

namespace CesaConn

open Format Program

namespace Vault

abbrev Path := List String

def Path.parent (path : Path) : Option Path := if path = [] then none else some path.dropLast

def Path.join (dir : Path) (name : String) : Path := dir ++ [name]

inductive Entry where
  | file (bytes : Bytes)
  /-- Secured: it is ours and nobody else may open it. -/
  | directory (secured : Bool)
  | symlink
  deriving DecidableEq

abbrev Files := Path → Option Entry

inductive SysCall where
  | stat | getrandom | create | write | fsync | rename | openDir | fsyncDir | remove
  deriving DecidableEq

/-- What the operating system does this time: the calls it fails, how much a
failing write has written, and its random bytes. -/
structure Os where
  fails : SysCall → Bool
  torn : Nat
  suffix : Block 8

inductive IoError where
  | notFound
  | other
  deriving DecidableEq

/-! ## System calls -/

variable (os : Os)

def sysCall (sys : SysCall) (effect : Files → Except IoError Files) : Stateful Files IoError Unit := do
  let files ← get
  if os.fails sys then throw .other
  else
    match effect files with
    | .ok after => set after
    | .error e => throw e

def checkPrivateDir (dir : Path) : Stateful Files IoError Unit :=
  sysCall os .stat fun files => if files dir = some (.directory true) then .ok files else .error .other

def createNew (path : Path) : Stateful Files IoError Unit :=
  sysCall os .create fun files =>
    if files path = none then .ok (Function.update files path (some (.file []))) else .error .other

def writeAll (path : Path) (bytes : Bytes) : Stateful Files IoError Unit := do
  let files ← get
  if os.fails .write then
    set (Function.update files path (some (.file (bytes.take os.torn))))
    throw .other
  else set (Function.update files path (some (.file bytes)))

/-- Takes the place of a file or a symbolic link, but not of a directory. -/
def renameFile (source target : Path) : Stateful Files IoError Unit :=
  sysCall os .rename fun files =>
    match files target with
    | some (.directory _) => .error .other
    | _ => .ok (Function.update (Function.update files target (files source)) source none)

def removeFile (path : Path) : Stateful Files IoError Unit :=
  sysCall os .remove fun files =>
    match files path with
    | none => .error .notFound
    | some (.directory _) => .error .other
    | some _ => .ok (Function.update files path none)

/-- A call that only makes sure of something. -/
def syncCall (sys : SysCall) : Stateful Files IoError Unit := sysCall os sys .ok

/-! ## The vault file -/

def fileName : String := "vault.bin"

def vaultPath (dir : Path) : Path := dir.join fileName

def hexDigit (n : Nat) : Char := if n < 10 then Char.ofNat (48 + n) else Char.ofNat (87 + n)

def tmpName (suffix : Block 8) : String :=
  String.ofList (suffix.toList.flatMap fun byte => [hexDigit (byte.toNat / 16), hexDigit (byte.toNat % 16)])

def tmpPath (dir : Path) (suffix : Block 8) : Path := dir.join ("." ++ fileName ++ "." ++ tmpName suffix ++ ".tmp")

def io {A : Type} (program : Stateful Files IoError A) : Stateful Files VaultErrors A := program.mapError fun _ => .io

def replaceFile (tmp path : Path) (bytes : Bytes) : Stateful Files VaultErrors Unit := do
  io (createNew os tmp)
  io (writeAll os tmp bytes)
  io (syncCall os .fsync)
  io (renameFile os tmp path)
  io (do syncCall os .openDir; syncCall os .fsyncDir)

def writeFileAtomic (path : Path) (bytes : Bytes) : Stateful Files VaultErrors Unit := do
  match path.parent with
  | none => throw .io
  | some dir =>
      (checkPrivateDir os dir).mapError fun _ => .insecureDirectory
      (syncCall os .getrandom).mapError fun _ => .crypto
      let tmp := tmpPath dir os.suffix
      match ← (replaceFile os tmp path bytes).attempt with
      | .ok () => return ()
      | .error (e : VaultErrors) =>
          let (_ : Except IoError Unit) ← (removeFile os tmp).attempt
          throw e

def deleteFile (path : Path) : Stateful Files VaultErrors Unit := do
  match path.parent with
  | none => throw .io
  | some dir =>
      (checkPrivateDir os dir).mapError fun _ => .insecureDirectory
      match ← (removeFile os path).attempt with
      | .error IoError.notFound => return ()
      | .error _ => throw .io
      | .ok () => io (do syncCall os .openDir; syncCall os .fsyncDir)

/-! ## What the calls do -/

variable {os : Os} {files : Files}

theorem ends_sysCall {sys : SysCall} {effect : Files → Except IoError Files} {post : Except IoError Unit → Files → Prop}
    (failed : os.fails sys = true → post (.error .other) files)
    (made : os.fails sys = false → match effect files with
      | .ok after => post (.ok ()) after
      | .error e => post (.error e) files) :
    (sysCall os sys effect).Ends files post := by
  unfold sysCall
  apply Stateful.ends_bind
  apply Stateful.ends_get
  cases fails : os.fails sys with
  | true => exact failed fails
  | false =>
      have made := made fails
      simp only [Bool.false_eq_true, if_false]
      split
      · next effected =>
        rw [effected] at made
        exact made
      · next effected =>
        rw [effected] at made
        exact made

theorem ends_syncCall {sys : SysCall} {post : Except IoError Unit → Files → Prop}
    (failed : os.fails sys = true → post (.error .other) files) (made : os.fails sys = false → post (.ok ()) files) :
    (syncCall os sys).Ends files post :=
  ends_sysCall failed made

theorem ends_checkPrivateDir {dir : Path} {post : Except IoError Unit → Files → Prop}
    (failed : os.fails .stat = true ∨ files dir ≠ some (.directory true) → post (.error .other) files)
    (made : os.fails .stat = false → files dir = some (.directory true) → post (.ok ()) files) :
    (checkPrivateDir os dir).Ends files post := by
  apply ends_sysCall
  · exact fun fails => failed (.inl fails)
  · intro works
    by_cases found : files dir = some (.directory true)
    · rw [if_pos found]
      exact made works found
    · rw [if_neg found]
      exact failed (.inr found)

theorem ends_createNew {path : Path} {post : Except IoError Unit → Files → Prop}
    (failed : os.fails .create = true ∨ files path ≠ none → post (.error .other) files)
    (made : os.fails .create = false → files path = none → post (.ok ()) (Function.update files path (some (.file [])))) :
    (createNew os path).Ends files post := by
  apply ends_sysCall
  · exact fun fails => failed (.inl fails)
  · intro works
    by_cases new : files path = none
    · rw [if_pos new]
      exact made works new
    · rw [if_neg new]
      exact failed (.inr new)

theorem ends_writeAll {path : Path} {bytes : Bytes} {post : Except IoError Unit → Files → Prop}
    (failed : os.fails .write = true → ∀ torn, post (.error .other) (Function.update files path (some (.file torn))))
    (made : os.fails .write = false → post (.ok ()) (Function.update files path (some (.file bytes)))) :
    (writeAll os path bytes).Ends files post := by
  unfold writeAll
  apply Stateful.ends_bind
  apply Stateful.ends_get
  cases fails : os.fails .write with
  | true => exact failed fails _
  | false => exact made fails

theorem ends_renameFile {source target : Path} {post : Except IoError Unit → Files → Prop}
    (failed : (os.fails .rename = true ∨ ∃ own, files target = some (.directory own)) → post (.error .other) files)
    (made : os.fails .rename = false → (∀ own, files target ≠ some (.directory own)) →
      post (.ok ()) (Function.update (Function.update files target (files source)) source none)) :
    (renameFile os source target).Ends files post := by
  apply ends_sysCall
  · exact fun fails => failed (.inl fails)
  · intro works
    match found : files target with
    | some (.directory own) => exact failed (.inr ⟨own, found⟩)
    | none => exact made works (by simp [found])
    | some (.file _) => exact made works (by simp [found])
    | some .symlink => exact made works (by simp [found])

theorem ends_removeFile {path : Path} {post : Except IoError Unit → Files → Prop}
    (failed : (os.fails .remove = true ∨ ∃ own, files path = some (.directory own)) → post (.error .other) files)
    (missing : files path = none → post (.error .notFound) files)
    (made : os.fails .remove = false → files path ≠ none → (∀ own, files path ≠ some (.directory own)) →
      post (.ok ()) (Function.update files path none)) :
    (removeFile os path).Ends files post := by
  apply ends_sysCall
  · exact fun fails => failed (.inl fails)
  · intro works
    match found : files path with
    | none => exact missing found
    | some (.directory own) => exact failed (.inr ⟨own, found⟩)
    | some (.file _) => exact made works (by simp [found]) (by simp [found])
    | some .symlink => exact made works (by simp [found]) (by simp [found])

def Os.Syncs (os : Os) : Prop := os.fails .openDir = false ∧ os.fails .fsyncDir = false

theorem ends_syncDir : (io (do syncCall os .openDir; syncCall os .fsyncDir)).Ends files fun result after =>
    after = files ∧ ((result = .ok () ∧ os.Syncs) ∨ (result = .error VaultErrors.io ∧ ¬ os.Syncs)) := by
  apply Stateful.ends_mapError
  apply Stateful.ends_bind
  apply ends_syncCall
  · intro failed
    exact ⟨rfl, .inr ⟨rfl, fun syncs => by simp [syncs.1] at failed⟩⟩
  · intro opened
    apply ends_syncCall
    · intro failed
      exact ⟨rfl, .inr ⟨rfl, fun syncs => by simp [syncs.2] at failed⟩⟩
    · intro synced
      exact ⟨rfl, .inl ⟨rfl, opened, synced⟩⟩

/-! ## Writing -/

structure Os.Moves (os : Os) (tmp path : Path) (files : Files) : Prop where
  new : files tmp = none
  replaces : ∀ own, files path ≠ some (.directory own)
  calls : ∀ sys ∈ [SysCall.create, .write, .fsync, .rename], os.fails sys = false

theorem Os.not_moves {tmp path : Path} {sys : SysCall} (failed : os.fails sys = true)
    (step : sys ∈ [SysCall.create, .write, .fsync, .rename]) : ¬ os.Moves tmp path files := by
  intro moves
  rw [moves.calls sys step] at failed
  cases failed

/-- At most the temporary path has changed, and a file is there then. -/
def Leftover (tmp : Path) (files after : Files) : Prop :=
  (∀ other, other ≠ tmp → after other = files other) ∧ (after tmp = files tmp ∨ ∃ bytes, after tmp = some (.file bytes))

theorem leftover_file (tmp : Path) (bytes : Bytes) : Leftover tmp files (Function.update files tmp (some (.file bytes))) :=
  ⟨fun _ other => Function.update_of_ne other _ _, .inr ⟨bytes, Function.update_self _ _ _⟩⟩

theorem ends_replaceFile {tmp path : Path} {bytes : Bytes} (apart : path ≠ tmp) :
    (replaceFile os tmp path bytes).Ends files fun result after =>
      (os.Moves tmp path files ∧ after = Function.update files path (some (.file bytes)) ∧
        ((result = .ok () ∧ os.Syncs) ∨ (result = .error .io ∧ ¬ os.Syncs))) ∨
      (¬ os.Moves tmp path files ∧ result = .error .io ∧ Leftover tmp files after) := by
  unfold replaceFile
  apply Stateful.ends_bind
  apply Stateful.ends_mapError
  apply ends_createNew
  · rintro (failed | taken)
    · exact .inr ⟨Os.not_moves failed (by simp), rfl, fun _ _ => rfl, .inl rfl⟩
    · exact .inr ⟨fun moves => taken moves.new, rfl, fun _ _ => rfl, .inl rfl⟩
  intro created new
  apply Stateful.ends_bind
  apply Stateful.ends_mapError
  apply ends_writeAll
  · intro failed torn
    rw [Function.update_idem]
    exact .inr ⟨Os.not_moves failed (by simp), rfl, leftover_file tmp torn⟩
  intro written
  rw [Function.update_idem]
  apply Stateful.ends_bind
  apply Stateful.ends_mapError
  apply ends_syncCall
  · exact fun failed => .inr ⟨Os.not_moves failed (by simp), rfl, leftover_file tmp bytes⟩
  intro synced
  apply Stateful.ends_bind
  apply Stateful.ends_mapError
  apply ends_renameFile
  · rintro (failed | ⟨own, taken⟩)
    · exact .inr ⟨Os.not_moves failed (by simp), rfl, leftover_file tmp bytes⟩
    · rw [Function.update_of_ne apart] at taken
      exact .inr ⟨fun moves => moves.replaces own taken, rfl, leftover_file tmp bytes⟩
  intro renamed replaces
  rw [Function.update_of_ne apart] at replaces
  -- the temporary name is free again, as it was
  have moved : Function.update (Function.update (Function.update files tmp (some (.file bytes))) path
      (Function.update files tmp (some (.file bytes)) tmp)) tmp none = Function.update files path (some (.file bytes)) := by
    rw [Function.update_self, Function.update_comm apart, Function.update_idem, ← new, Function.update_eq_self]
  rw [moved]
  apply ends_syncDir.mono
  rintro result after ⟨rfl, ends⟩
  refine .inl ⟨⟨new, replaces, ?_⟩, rfl, ends⟩
  simp [created, written, synced, renamed]

/-- The write gets as far as the new file taking the place of the old one. -/
structure Os.Replaces (os : Os) (dir : Path) (files : Files) : Prop where
  secured : files dir = some (.directory true)
  calls : os.fails .stat = false ∧ os.fails .getrandom = false
  moves : os.Moves (tmpPath dir os.suffix) (vaultPath dir) files

theorem vaultPath_ne_tmpPath (dir : Path) (suffix : Block 8) : vaultPath dir ≠ tmpPath dir suffix := by
  intro same
  have names := (List.append_inj same rfl).2
  have first := congrArg (fun name : String => name.toList.head?) (List.singleton_inj.mp names)
  simp [fileName] at first

@[simp] theorem parent_vaultPath (dir : Path) : (vaultPath dir).parent = some dir := by
  simp [vaultPath, Path.join, Path.parent]

theorem ends_cleanup {tmp : Path} {before : Files} (leftover : Leftover tmp before files) :
    (removeFile os tmp).Ends files fun _ after => (∀ other, other ≠ tmp → after other = before other) ∧
      (os.fails .remove = false → after tmp = before tmp ∨ after tmp = none) := by
  obtain ⟨others, own⟩ := leftover
  apply ends_removeFile
  · rintro (failed | ⟨own', found⟩)
    · exact ⟨others, fun works => absurd (failed.symm.trans works) Bool.noConfusion⟩
    · refine ⟨others, fun _ => own.imp_right fun ⟨bytes, file⟩ => ?_⟩
      rw [file] at found
      cases found
  · exact fun missing => ⟨others, fun _ => .inr missing⟩
  · intro works found replaces
    exact ⟨fun other apart => (Function.update_of_ne apart _ _).trans (others other apart), fun _ => .inr (Function.update_self _ _ _)⟩

theorem ends_writeFileAtomic (os : Os) (dir : Path) (bytes : Bytes) (files : Files) :
    (writeFileAtomic os (vaultPath dir) bytes).Ends files fun result after =>
      (os.Replaces dir files ∧ after = Function.update files (vaultPath dir) (some (.file bytes)) ∧ (result.isOk ↔ os.Syncs)) ∨
      (¬ os.Replaces dir files ∧ result.isOk = false ∧ after (vaultPath dir) = files (vaultPath dir) ∧
        (os.fails .remove = false → ∀ path, after path = files path ∨ after path = none)) := by
  have apart := vaultPath_ne_tmpPath dir os.suffix
  unfold writeFileAtomic
  rw [parent_vaultPath]
  apply Stateful.ends_bind
  apply Stateful.ends_mapError
  apply ends_checkPrivateDir
  · rintro (failed | open')
    · exact .inr ⟨fun replaces => by simp [replaces.calls] at failed, rfl, rfl, fun _ _ => .inl rfl⟩
    · exact .inr ⟨fun replaces => open' replaces.secured, rfl, rfl, fun _ _ => .inl rfl⟩
  intro checked isPrivate
  apply Stateful.ends_bind
  apply Stateful.ends_mapError
  apply ends_syncCall
  · exact fun failed => .inr ⟨fun replaces => by simp [replaces.calls] at failed, rfl, rfl, fun _ _ => .inl rfl⟩
  intro drawn
  apply Stateful.ends_bind
  apply Stateful.ends_attempt
  apply (ends_replaceFile apart).mono
  rintro result middle (⟨moves, rfl, ⟨rfl, syncs⟩ | ⟨rfl, fails⟩⟩ | ⟨stuck, rfl, leftover⟩)
  · exact .inl ⟨⟨isPrivate, ⟨checked, drawn⟩, moves⟩, rfl, iff_of_true rfl syncs⟩
  · -- the temporary name is free: removing it changes nothing
    apply Stateful.ends_bind
    apply Stateful.ends_attempt
    have free : Function.update files (vaultPath dir) (some (.file bytes)) (tmpPath dir os.suffix) = none :=
      (Function.update_of_ne apart.symm _ _).trans moves.new
    apply ends_removeFile
    · exact fun _ => .inl ⟨⟨isPrivate, ⟨checked, drawn⟩, moves⟩, rfl, iff_of_false Bool.noConfusion fails⟩
    · exact fun _ => .inl ⟨⟨isPrivate, ⟨checked, drawn⟩, moves⟩, rfl, iff_of_false Bool.noConfusion fails⟩
    · exact fun _ taken => absurd free taken
  · apply Stateful.ends_bind
    apply Stateful.ends_attempt
    apply (ends_cleanup leftover).mono
    rintro removed after ⟨others, own⟩
    refine .inr ⟨fun replaces => stuck replaces.moves, rfl, others _ apart, fun works path => ?_⟩
    by_cases temporary : path = tmpPath dir os.suffix
    · rw [temporary]
      exact own works
    · exact .inl (others path temporary)

/-! ## Deleting -/

structure Os.Deletes (os : Os) (dir : Path) (files : Files) : Prop where
  secured : files dir = some (.directory true)
  calls : os.fails .stat = false ∧ os.fails .remove = false
  found : files (vaultPath dir) ≠ none
  file : ∀ own, files (vaultPath dir) ≠ some (.directory own)

theorem ends_deleteFile (os : Os) (dir : Path) (files : Files) :
    (deleteFile os (vaultPath dir)).Ends files fun result after =>
      (os.Deletes dir files ∧ after = Function.update files (vaultPath dir) none ∧ (result.isOk ↔ os.Syncs)) ∨
      (¬ os.Deletes dir files ∧ after = files ∧ (result.isOk → files (vaultPath dir) = none)) := by
  unfold deleteFile
  rw [parent_vaultPath]
  apply Stateful.ends_bind
  apply Stateful.ends_mapError
  apply ends_checkPrivateDir
  · rintro (failed | open')
    · exact .inr ⟨fun deletes => by simp [deletes.calls] at failed, rfl, Bool.noConfusion⟩
    · exact .inr ⟨fun deletes => open' deletes.secured, rfl, Bool.noConfusion⟩
  intro checked isPrivate
  apply Stateful.ends_bind
  apply Stateful.ends_attempt
  apply ends_removeFile
  · rintro (failed | ⟨own, taken⟩)
    · exact .inr ⟨fun deletes => by simp [deletes.calls] at failed, rfl, Bool.noConfusion⟩
    · exact .inr ⟨fun deletes => deletes.file own taken, rfl, Bool.noConfusion⟩
  · exact fun missing => .inr ⟨fun deletes => deletes.found missing, rfl, fun _ => missing⟩
  · intro removed found file
    apply ends_syncDir.mono
    rintro result after ⟨rfl, ⟨rfl, syncs⟩ | ⟨rfl, fails⟩⟩
    · exact .inl ⟨⟨isPrivate, ⟨checked, removed⟩, found, file⟩, rfl, iff_of_true rfl syncs⟩
    · exact .inl ⟨⟨isPrivate, ⟨checked, removed⟩, found, file⟩, rfl, iff_of_false Bool.noConfusion fails⟩

/-! ## All or nothing -/

/-- After an error the path holds what it held, and no file is left behind; with
no error it holds what it was to hold. -/
def AllOrNothing (os : Os) (path : Path) (wanted : Option Entry) (files : Files) (result : Except VaultErrors Unit)
    (after : Files) : Prop :=
  match result with
  | .error _ => after path = files path ∧ (os.fails .remove = false → ∀ other, after other = files other ∨ after other = none)
  | .ok () => after path = wanted

/-- Writing and deleting the vault file are all or nothing, exactly unless the
directory cannot be made to last once the file is in its place, or is gone. -/
theorem vault_file_all_or_nothing_iff (os : Os) (dir : Path) (bytes : Bytes) (files : Files) :
    ((writeFileAtomic os (vaultPath dir) bytes).Ends files (AllOrNothing os (vaultPath dir) (some (.file bytes)) files) ↔
      ¬ (os.Replaces dir files ∧ files (vaultPath dir) ≠ some (.file bytes) ∧ ¬ os.Syncs)) ∧
    ((deleteFile os (vaultPath dir)).Ends files (AllOrNothing os (vaultPath dir) none files) ↔
      ¬ (os.Deletes dir files ∧ ¬ os.Syncs)) := by
  constructor
  · show (writeFileAtomic os (vaultPath dir) bytes).Ends files fun result after =>
      AllOrNothing os (vaultPath dir) (some (.file bytes)) files result after ↔
        ¬ (os.Replaces dir files ∧ files (vaultPath dir) ≠ some (.file bytes) ∧ ¬ os.Syncs)
    apply (ends_writeFileAtomic os dir bytes files).mono
    rintro (error | value) after (⟨replaces, rfl, syncs⟩ | ⟨stuck, failed, kept⟩)
    · have fails : ¬ os.Syncs := fun works => Bool.noConfusion (syncs.mpr works)
      by_cases same : files (vaultPath dir) = some (.file bytes)
      · refine iff_of_true ?_ fun late => late.2.1 same
        rw [← same, Function.update_eq_self]
        exact ⟨rfl, fun _ _ => .inl rfl⟩
      · refine iff_of_false (fun kept => same ?_) (not_not_intro ⟨replaces, same, fails⟩)
        rw [← kept.1, Function.update_self]
    · exact iff_of_true kept fun late => stuck late.1
    · exact iff_of_true (Function.update_self _ _ _) fun late => late.2.2 (syncs.mp rfl)
    · cases failed
  · show (deleteFile os (vaultPath dir)).Ends files fun result after =>
      AllOrNothing os (vaultPath dir) none files result after ↔ ¬ (os.Deletes dir files ∧ ¬ os.Syncs)
    apply (ends_deleteFile os dir files).mono
    rintro (error | value) after (⟨deletes, rfl, syncs⟩ | ⟨stuck, rfl, missing⟩)
    · have fails : ¬ os.Syncs := fun works => Bool.noConfusion (syncs.mpr works)
      refine iff_of_false (fun kept => deletes.found ?_) (not_not_intro ⟨deletes, fails⟩)
      rw [← kept.1, Function.update_self]
    · exact iff_of_true ⟨rfl, fun _ _ => .inl rfl⟩ fun late => stuck late.1
    · exact iff_of_true (Function.update_self _ _ _) fun late => late.2 (syncs.mp rfl)
    · exact iff_of_true (missing rfl) fun late => stuck late.1

/-- A new vault is in its place when the sync of the directory fails. -/
theorem failed_sync_replaces :
    ∃ (os : Os) (dir : Path) (bytes : Bytes) (files : Files),
      os.fails = (· == .fsyncDir) ∧ files (vaultPath dir) = some (.file [1]) ∧ bytes = [2] ∧
      (writeFileAtomic os (vaultPath dir) bytes).Ends files (fun result after =>
        result = .error .io ∧ after (vaultPath dir) = some (.file bytes)) ∧
      ¬ (writeFileAtomic os (vaultPath dir) bytes).Ends files (AllOrNothing os (vaultPath dir) (some (.file bytes)) files) := by
  let files : Files := fun path =>
    if path = ["data"] then some (.directory true) else if path = ["data", "vault.bin"] then some (.file [1]) else none
  refine ⟨⟨(· == .fsyncDir), 0, .replicate 8 0⟩, ["data"], [2], files, rfl, by decide, rfl, ?_, ?_⟩
  · exact ⟨rfl, by decide⟩
  · rintro ⟨kept, -⟩
    exact absurd kept (by decide)

end Vault

end CesaConn
