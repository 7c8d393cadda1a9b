import CesaConn.Program.History
import CesaConn.Tui.App

/-! The socket between the UI and the daemon, and what either end does with it.

A read, a write and a connection are bounded by `IO_TIMEOUT`. A signature is checked by
the operating system, and a request is answered by the daemon: here each is an operation.
-/

set_option autoImplicit false

namespace CesaConn

namespace Ipc

open Format Program
open Auth (Io)
open Tui (LinkErrors)

namespace Socket

/-- What the file system says of a path itself, not of what a link points to. -/
structure Metadata where
  isDir : Bool
  isSocket : Bool
  uid : Nat
  mode : Nat
  deriving DecidableEq

inductive Created where
  | created
  | exists
  | failed
  deriving DecidableEq

inductive Op where
  | baseDir
  | createDir (dir : String) (mode : Nat)
  | symlinkMetadata (path : String)
  | removeFile (path : String)
  | bind (path : String)
  | setPermissions (path : String) (mode : Nat)
  /-- `UnixStream::connect`. -/
  | connect (path : String)
  | peerCred
  | verifyPeer (requirement : String)
  | write (bytes : Bytes)
  | flush
  | read (size : Nat)
  /-- The daemon answers a decoded request. -/
  | handle (request : Request)
  deriving DecidableEq

end Socket

abbrev socket : Signature where
  Op := Socket.Op
  Reply
    | .baseDir => Option String
    | .createDir _ _ => Socket.Created
    | .symlinkMetadata _ => Option Socket.Metadata
    | .removeFile _ => Bool
    | .bind _ => Bool
    | .setPermissions _ _ => Bool
    | .connect _ => Io Unit
    | .peerCred => Option Nat
    | .verifyPeer _ => Bool
    | .write _ => Io Unit
    | .flush => Io Unit
    | .read size => Io (Block size)
    | .handle _ => Bytes

def frame (body : Bytes) : Bytes := little 4 body.length ++ body

namespace Socket

open Attempt

/-- Replies of a world in which nothing fails: who the other process is, and what it sends to
a read of a size. -/
def replies (uid : Nat) (base : String) (incoming : Nat → Bytes) (answer : Bytes) : (op : Op) → socket.Reply op
  | .baseDir => some base
  | .createDir _ _ => .created
  | .symlinkMetadata _ => some ⟨true, false, uid, 0o40700⟩
  | .removeFile _ | .bind _ | .setPermissions _ _ | .verifyPeer _ => true
  | .connect _ | .write _ | .flush => Io.done ()
  | .peerCred => some uid
  | .read size => (toBlock size (incoming size)).elim .failed .done
  | .handle _ => answer

/-! ## Frames -/

def settle {A : Type} (io : Io A) (failed : LinkErrors) : Attempt socket LinkErrors A :=
  match io with
  | .done value => pure value
  | .failed => throw failed
  | .elapsed => throw .timeout

def writeAll (bytes : Bytes) : Attempt socket LinkErrors Unit := do
  let io ← perform (I := socket) (.write bytes)
  settle io .failedToWrite

def flush : Attempt socket LinkErrors Unit := do
  let io ← perform (I := socket) .flush
  settle io .failedToWrite

def readExact (size : Nat) : Attempt socket LinkErrors (Block size) := do
  let io ← perform (I := socket) (.read size)
  settle io .failedToRead

def allowedLength (length : Nat) : Bool := length ≠ 0 && length ≤ maxFrameLen

def writeFrame (body : Bytes) : Attempt socket LinkErrors Unit := do
  ensure (allowedLength body.length) .frameTooLarge
  writeAll (little 4 body.length)
  writeAll body
  flush

def readFrame : Attempt socket LinkErrors Bytes := do
  let len ← readExact 4
  -- checked before there is room for the body
  ensure (allowedLength (valueLE len.toList)) .frameTooLarge
  let body ← readExact (valueLE len.toList)
  return body.toList

/-! ## What was done on a connection -/

def handled (events : List (Event socket)) : List (Request × Bytes) := events.filterMap fun
  | ⟨.handle request, answer⟩ => some (request, answer)
  | _ => none

def received (events : List (Event socket)) : Bytes := events.flatMap fun
  | ⟨.read _, .done block⟩ => block.toList
  | _ => []

/-- What was given to the socket to be written; a write that fails may have sent less. -/
def sent (events : List (Event socket)) : Bytes := events.flatMap fun
  | ⟨.write bytes, _⟩ => bytes
  | _ => []

/-- The operations for which the other process has to be trusted. -/
def Op.trusting : Op → Bool
  | .write _ | .flush | .read _ | .handle _ => true
  | _ => false

/-- After these checks, what was handled, received and sent so far. -/
structure Stands (checks : List (Event socket)) (requests : List (Request × Bytes)) (input output : Bytes)
    (past : List (Event socket)) : Prop where
  checked : checks <+: past
  handled : handled past = requests
  received : received past = input
  sent : sent past = output

section

variable {checks past : List (Event socket)} {requests : List (Request × Bytes)} {input output : Bytes}

theorem Stands.snoc (stands : Stands checks requests input output past) (event : Event socket) :
    Stands checks (requests ++ Socket.handled [event]) (input ++ Socket.received [event]) (output ++ Socket.sent [event])
      (past ++ [event]) := by
  constructor
  · exact stands.checked.trans (List.prefix_append past [event])
  · rw [← stands.handled]
    exact List.filterMap_append
  · rw [← stands.received]
    exact List.flatMap_append
  · rw [← stands.sent]
    exact List.flatMap_append

def ofTransfer : LinkErrors → Bool
  | .failedToRead | .failedToWrite | .timeout | .frameTooLarge => true
  | _ => false

variable {P : List (Event socket) → Prop}

theorem always_settle_bind {A B : Type} {post : List (Event socket) → B → Prop}
    {failed : List (Event socket) → LinkErrors → Prop} {io : Io A} {error : LinkErrors} {f : A → Attempt socket LinkErrors B}
    (now : P past) (fails : failed past error) (late : failed past .timeout)
    (done : ∀ value, io = .done value → (f value).Always P post failed past) :
    (settle io error >>= f).Always P post failed past := by
  cases io with
  | done value => exact done value rfl
  | failed => exact ⟨now, fails⟩
  | elapsed => exact ⟨now, late⟩

theorem always_settle {A : Type} {post : List (Event socket) → A → Prop} {failed : List (Event socket) → LinkErrors → Prop}
    {io : Io A} {error : LinkErrors} (now : P past) (fails : failed past error) (late : failed past .timeout)
    (done : ∀ value, io = .done value → post past value) : (settle io error).Always P post failed past := by
  cases io with
  | done value => exact ⟨now, done value rfl⟩
  | failed => exact ⟨now, fails⟩
  | elapsed => exact ⟨now, late⟩

theorem always_readExact (size : Nat) (stands : Stands checks requests input output past)
    (keeps : ∀ more past, Stands checks requests (input ++ more) output past → P past) :
    (readExact size).Always P (fun later block => Stands checks requests (input ++ block.toList) output later)
      (fun later error => P later ∧ ofTransfer error) past := by
  have after (io : Io (Block size)) : Stands checks requests (input ++ Socket.received [⟨.read size, io⟩]) output
      (past ++ [⟨.read size, io⟩]) := by
    have next := stands.snoc ⟨.read size, io⟩
    simpa [Socket.handled, Socket.sent] using next
  have now : P past := keeps [] past (by rwa [List.append_nil])
  refine always_perform_bind now fun io => ?_
  have holding := keeps _ _ (after io)
  refine always_settle holding ⟨holding, rfl⟩ ⟨holding, rfl⟩ fun block same => ?_
  have next := after io
  subst same
  simpa [Socket.received] using next

/-- What is received is a whole frame, if a body is returned. -/
theorem always_readFrame (stands : Stands checks requests input output past)
    (keeps : ∀ more past, Stands checks requests (input ++ more) output past → P past) :
    readFrame.Always P
      (fun later body => allowedLength body.length ∧ Stands checks requests (input ++ frame body) output later)
      (fun later error => P later ∧ ofTransfer error) past := by
  refine Always.bind (always_readExact 4 stands keeps) fun len later first => ?_
  refine always_ensure_bind (keeps _ _ first) (fun _ => ⟨keeps _ _ first, rfl⟩) fun allowed => ?_
  have further : ∀ more past, Stands checks requests (input ++ len.toList ++ more) output past → P past := by
    intro more past stands
    rw [List.append_assoc] at stands
    exact keeps _ _ stands
  refine Always.bind (always_readExact (valueLE len.toList) first further) fun body later second => ?_
  have written := little_valueLE len.toList
  rw [List.Vector.toList_length] at written
  have whole : input ++ len.toList ++ body.toList = input ++ frame body.toList := by
    rw [frame, List.Vector.toList_length, written, List.append_assoc]
  refine always_pure (further _ _ second) ⟨?_, whole ▸ second⟩
  rwa [List.Vector.toList_length]

theorem always_writeAll {body bytes : Bytes} (more : Bytes) (stands : Stands checks requests input (output ++ bytes) past)
    (begins : bytes ++ more <+: body)
    (keeps : ∀ some past, some <+: body → Stands checks requests input (output ++ some) past → P past) :
    (writeAll more).Always P (fun later _ => Stands checks requests input (output ++ (bytes ++ more)) later)
      (fun later error => P later ∧ ofTransfer error) past := by
  have after (io : Io Unit) : Stands checks requests input (output ++ (bytes ++ more)) (past ++ [⟨.write more, io⟩]) := by
    have next := stands.snoc ⟨.write more, io⟩
    simpa [Socket.handled, Socket.received, Socket.sent] using next
  have now := keeps _ _ ((List.prefix_append bytes more).trans begins) stands
  refine always_perform_bind now fun io => ?_
  have holding := keeps _ _ begins (after io)
  exact always_settle holding ⟨holding, rfl⟩ ⟨holding, rfl⟩ fun _ _ => after io

theorem always_flush {bytes : Bytes} (stands : Stands checks requests input bytes past)
    (keeps : ∀ past, Stands checks requests input bytes past → P past) :
    flush.Always P (fun later _ => Stands checks requests input bytes later)
      (fun later error => P later ∧ ofTransfer error) past := by
  have after (io : Io Unit) : Stands checks requests input bytes (past ++ [⟨.flush, io⟩]) := by
    have next := stands.snoc ⟨.flush, io⟩
    simpa [Socket.handled, Socket.received, Socket.sent] using next
  refine always_perform_bind (keeps _ stands) fun io => ?_
  have holding := keeps _ (after io)
  exact always_settle holding ⟨holding, rfl⟩ ⟨holding, rfl⟩ fun _ _ => after io

/-- What is sent is the beginning of the frame, and all of it if nothing fails. -/
theorem always_writeFrame (body : Bytes) (stands : Stands checks requests input output past)
    (keeps : ∀ some past, some <+: frame body → Stands checks requests input (output ++ some) past → P past) :
    (writeFrame body).Always P
      (fun later _ => allowedLength body.length ∧ Stands checks requests input (output ++ frame body) later)
      (fun later error => P later ∧ ofTransfer error) past := by
  have start : Stands checks requests input (output ++ []) past := by rwa [List.append_nil]
  have now := keeps [] past List.nil_prefix start
  refine always_ensure_bind now (fun _ => ⟨now, rfl⟩) fun allowed => ?_
  refine Always.bind (always_writeAll (little 4 body.length) start (List.prefix_append _ _) keeps) fun _ later second => ?_
  refine Always.bind (always_writeAll body second (List.prefix_refl _) keeps) fun _ later third => ?_
  have last : ∀ past, Stands checks requests input (output ++ frame body) past → P past :=
    fun past => keeps _ past (List.prefix_refl _)
  exact Always.mono (always_flush third last) (fun _ _ after => ⟨allowed, after⟩) fun _ _ after => after

end

/-! ## The private directory -/

def socketName : String := "daemon.sock"
def dirName : String := "cesaconn"

def join (dir name : String) : String := dir ++ "/" ++ name

def isPrivate (euid : Nat) (metadata : Metadata) : Bool :=
  metadata.isDir && metadata.uid == euid && metadata.mode &&& 0o077 == 0

def checkPrivateDir (euid : Nat) (dir : String) : Attempt socket LinkErrors Unit := do
  let found ← perform (I := socket) (.symlinkMetadata dir)
  let metadata ← require found .failedToPrepareSocket
  ensure (isPrivate euid metadata) .insecureDirectory

/-- The private directory under `base`, created if it is missing. -/
def prepareSocketDir (euid : Nat) (base : String) : Attempt socket LinkErrors String := do
  let dir := join base dirName
  let made ← perform (I := socket) (.createDir dir 0o700)
  ensure (made ≠ .failed) .failedToPrepareSocket
  checkPrivateDir euid dir
  return dir

def socketDir (euid : Nat) : Attempt socket LinkErrors String := do
  let base ← perform (I := socket) .baseDir
  prepareSocketDir euid (← require base .noRuntimeDir)

/-! ## The UI's end -/

/-- The two kinds of errors of a decoded answer among those of a request. -/
def ofIpc : IpcErrors → LinkErrors
  | .failedToRead => .failedToRead
  | .frameTooLarge => .frameTooLarge
  | .malformed => .malformed
  | .daemon error => .daemon error

def checkDaemon (euid : Nat) (requirement : Option String) : Attempt socket LinkErrors Unit := do
  let daemon ← perform (I := socket) .peerCred
  let uid ← require daemon .untrustedDaemon
  ensure (uid == euid) .untrustedDaemon
  match requirement with
  | some requirement =>
      let trusted ← perform (I := socket) (.verifyPeer requirement)
      ensure trusted .untrustedDaemon
  | none => pure ()

def exchange (request : Request) : Attempt socket LinkErrors Response := do
  writeFrame request.encode
  let body ← readFrame
  ExceptT.mk (.done ((Response.decode request body).mapError ofIpc))

/-- `request_at_checked` at the socket in this directory. -/
def requestAtChecked (euid : Nat) (requirement : Option String) (dir : String) (request : Request) :
    Attempt socket LinkErrors Response := do
  -- the directory must still be private, or the socket could be someone else's
  checkPrivateDir euid dir
  let io ← perform (I := socket) (.connect (join dir socketName))
  settle io .failedToConnect
  checkDaemon euid requirement
  exchange request

def request (euid : Nat) (requirement : Option String) (request : Request) : Attempt socket LinkErrors Response := do
  let dir ← socketDir euid
  requestAtChecked euid requirement dir request

/-! ## The daemon's end -/

inductive IpcServerErrors where
  | socketPathTaken
  | alreadyRunning
  | failedToBind
  | failedToGetPeerCred
  | wrongUser
  | untrustedCode
  deriving DecidableEq

/-- Who may talk to the daemon: `none` checks the user only. -/
structure ClientPolicy where
  requirement : Option String

def ClientPolicy.verify (policy : ClientPolicy) (euid : Nat) : Attempt socket IpcServerErrors Unit := do
  let cred ← perform (I := socket) .peerCred
  let uid ← require cred .failedToGetPeerCred
  ensure (uid == euid) .wrongUser
  match policy.requirement with
  | some requirement =>
      let trusted ← perform (I := socket) (.verifyPeer requirement)
      ensure trusted .untrustedCode
  | none => pure ()

def answer (body : Bytes) : Attempt socket IpcServerErrors Bytes :=
  match Request.decode body with
  | some request => perform (I := socket) (.handle request)
  | none => pure (Response.encodeError .badRequest)

def serveClient (policy : ClientPolicy) (euid : Nat) : Attempt socket IpcServerErrors Unit := do
  policy.verify euid
  match ← outcome readFrame with
  | .error _ => pure ()
  | .ok body =>
      let response ← answer body
      -- a client that has gone away is no error
      let _ ← outcome (writeFrame response)

/-- An old socket is removed only if it is ours and nobody listens on it. -/
def removeStale (euid : Nat) (path : String) : Attempt socket IpcServerErrors Unit := do
  match ← perform (I := socket) (.symlinkMetadata path) with
  | none => pure ()
  | some metadata =>
      ensure (metadata.isSocket && metadata.uid == euid) .socketPathTaken
      let connected ← perform (I := socket) (.connect path)
      ensure (connected ≠ .done ()) .alreadyRunning
      let removed ← perform (I := socket) (.removeFile path)
      ensure removed .failedToBind

def bind (euid : Nat) (path : String) : Attempt socket IpcServerErrors Unit := do
  removeStale euid path
  let bound ← perform (I := socket) (.bind path)
  ensure bound .failedToBind
  let restricted ← perform (I := socket) (.setPermissions path 0o600)
  ensure restricted .failedToBind

end Socket

end Ipc

end CesaConn
