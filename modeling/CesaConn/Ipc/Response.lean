import CesaConn.Ipc.Request
import CesaConn.Format.Text
import CesaConn.Daemon.State

/-! Answers of the daemon, the bytes of their bodies, and frames.

A list is cut at 256 devices and a name at 255 bytes, so every body fits into a
frame. Except for what is cut, the UI reads what the daemon wrote.
-/

set_option autoImplicit false

namespace CesaConn

namespace Ipc

open Format Auth
open Daemon (DaemonError)

def maxFrameLen : Nat := 72 * 1024

def maxListedPeers : Nat := 256

inductive IpcErrors where
  | failedToRead
  | frameTooLarge
  | malformed
  | daemon (error : DaemonError)
  deriving DecidableEq

structure Status where
  authKeySet : Bool
  dataKeySet : Bool
  networkRunning : Bool
  trustedPeers : UInt32
  locked : Bool
  saved : Bool
  autoLogin : Bool
  unlockWaitSecs : UInt16
  syncEnabled : Bool
  addingDevice : Bool
  pendingPairings : UInt8
  joining : Bool
  otherGroupNearby : Bool
  clipboardEnabled : Bool
  clipboardUnavailable : Bool
  deriving DecidableEq

structure PairingPrompt where
  id : UInt32
  name : String
  code : PairingCode
  deriving DecidableEq

structure PeerInfo where
  fingerprint : Block fingerprintLen
  name : String
  state : PeerState
  deriving DecidableEq

inductive Response where
  | status (status : Status)
  | done
  | peers (peers : List PeerInfo)
  | pairing (prompt : Option PairingPrompt)
  deriving DecidableEq

def respOk : UInt8 := 0x00

def respErr : UInt8 := 0x01

def errorByte : DaemonError → UInt8
  | .badRequest => 0x01
  | .keyDerivationFailed => 0x02
  | .internal => 0x03
  | .wrongPassword => 0x04
  | .locked => 0x05
  | .storageFailed => 0x06
  | .notSaved => 0x07
  | .weakPassword => 0x08
  | .unlockDelayed => 0x09
  | .networkOff => 0x0A
  | .pairingExpired => 0x0B
  | .alreadyInGroup => 0x0C
  | .joinRunning => 0x0D
  | .unknownPeer => 0x0E
  | .clipboardUnavailable => 0x0F

/-- `DaemonError::from_u8`. -/
def errorOfByte (byte : UInt8) : Option DaemonError :=
  match byte with
  | 0x01 => some .badRequest
  | 0x02 => some .keyDerivationFailed
  | 0x03 => some .internal
  | 0x04 => some .wrongPassword
  | 0x05 => some .locked
  | 0x06 => some .storageFailed
  | 0x07 => some .notSaved
  | 0x08 => some .weakPassword
  | 0x09 => some .unlockDelayed
  | 0x0A => some .networkOff
  | 0x0B => some .pairingExpired
  | 0x0C => some .alreadyInGroup
  | 0x0D => some .joinRunning
  | 0x0E => some .unknownPeer
  | 0x0F => some .clipboardUnavailable
  | _ => none

def stateByte : PeerState → UInt8
  | .unknown => 0x00
  | .ok => 0x01
  | .authPasswordDiffers => 0x02
  | .dataPasswordDiffers => 0x03
  | .unreachable => 0x04

/-- `PeerState::from_u8`. -/
def stateOfByte (byte : UInt8) : Option PeerState :=
  match byte with
  | 0x00 => some .unknown
  | 0x01 => some .ok
  | 0x02 => some .authPasswordDiffers
  | 0x03 => some .dataPasswordDiffers
  | 0x04 => some .unreachable
  | _ => none

/-- The bytes of a name, at most 255, cut on a character boundary. -/
def shortName (name : String) : Bytes :=
  let bytes := asBytes name
  bytes.take (floorCharBoundary bytes (min bytes.length 255))

def lengthU8 (length : Nat) : UInt8 := if length < 2 ^ 8 then UInt8.ofNat length else 0

/-! ## Status flags -/

def status2Joining : UInt8 := 0b01

def status2OtherGroup : UInt8 := 0b10

def status2Clipboard : UInt8 := 0b100

def status2NoClipboard : UInt8 := 0b1000

def status2Known : UInt8 := status2Joining ||| status2OtherGroup ||| status2Clipboard ||| status2NoClipboard

def Status.flags (status : Status) : UInt8 :=
  flag status.authKeySet ||| flag status.dataKeySet <<< 1 ||| flag status.networkRunning <<< 2 |||
    flag status.locked <<< 3 ||| flag status.saved <<< 4 ||| flag status.autoLogin <<< 5 |||
    flag status.syncEnabled <<< 6 ||| flag status.addingDevice <<< 7

def Status.flags2 (status : Status) : UInt8 :=
  ([(status.joining, status2Joining), (status.otherGroupNearby, status2OtherGroup),
    (status.clipboardEnabled, status2Clipboard), (status.clipboardUnavailable, status2NoClipboard)].filter
      Prod.fst).foldl (fun flags2 entry => flags2 ||| entry.2) 0

/-! ## Bodies -/

def encodeInfo (peer : PeerInfo) : Bytes :=
  let name := shortName peer.name
  peer.fingerprint.toList ++ (stateByte peer.state :: lengthU8 name.length :: name)

def encodePayload : Response → Bytes
  | .status status =>
      status.flags :: status.flags2 :: (little 4 status.trustedPeers.toNat ++
        (little 2 status.unlockWaitSecs.toNat ++ [status.pendingPairings]))
  | .done => []
  | .pairing none => [0x00]
  | .pairing (some prompt) =>
      let name := shortName prompt.name
      0x01 :: (little 4 prompt.id.toNat ++ (prompt.code.toList ++ (lengthU8 name.length :: name)))
  | .peers peers =>
      let peers := peers.take maxListedPeers
      let count := if peers.length < 2 ^ 16 then peers.length else 2 ^ 16 - 1
      little 2 count ++ (peers.take count).flatMap encodeInfo

def Response.encode (response : Response) : Bytes := respOk :: encodePayload response

def Response.encodeError (error : DaemonError) : Bytes := [respErr, errorByte error]

def decodeStatus : Bytes → Except IpcErrors Response
  | [flags, flags2, a, b, c, d, w0, w1, pending] =>
      if flags2 &&& ~~~status2Known = 0 then
        .ok (.status {
          authKeySet := flags &&& 0b001 ≠ 0
          dataKeySet := flags &&& 0b010 ≠ 0
          networkRunning := flags &&& 0b100 ≠ 0
          locked := flags &&& 0b1000 ≠ 0
          saved := flags &&& 0b10000 ≠ 0
          autoLogin := flags &&& 0b100000 ≠ 0
          syncEnabled := flags &&& 0b1000000 ≠ 0
          addingDevice := flags &&& 0b10000000 ≠ 0
          trustedPeers := UInt32.ofNat (valueLE [a, b, c, d])
          unlockWaitSecs := UInt16.ofNat (valueLE [w0, w1])
          pendingPairings := pending
          joining := flags2 &&& status2Joining ≠ 0
          otherGroupNearby := flags2 &&& status2OtherGroup ≠ 0
          clipboardEnabled := flags2 &&& status2Clipboard ≠ 0
          clipboardUnavailable := flags2 &&& status2NoClipboard ≠ 0 })
      else .error .malformed
  | _ => .error .malformed

def readInfo (bytes : Bytes) : Option (PeerInfo × Bytes) := do
  let (fingerprint, after) ← splitFirstChunk fingerprintLen bytes
  match after with
  | state :: nameLen :: after =>
      let (name, rest) ← splitAtChecked nameLen.toNat after
      let name ← fromUtf8 name
      let state ← stateOfByte state
      return (⟨fingerprint, name, state⟩, rest)
  | _ => none

def decodePeerInfos (payload : Bytes) : Option Response := do
  let (count, rest) ← readLE 2 payload
  if maxListedPeers < count then none
  else
    let (peers, rest) ← readCount readInfo count [] rest
    if rest = [] then return .peers peers else none

def decodePrompt (bytes : Bytes) : Option PairingPrompt := do
  let (id, rest) ← readLE 4 bytes
  let (code, rest) ← splitFirstChunk 8 rest
  match rest with
  | [] => none
  | nameLen :: name =>
      if name.length ≠ nameLen.toNat ∨ !isValid code then none
      else
        let name ← fromUtf8 name
        if name.toList.any isControl then none else return ⟨UInt32.ofNat id, name, code⟩

def decodePairing : Bytes → Option Response
  | [] => none
  | present :: rest =>
      if present = 0x00 then if rest = [] then some (.pairing none) else none
      else if present = 0x01 then (decodePrompt rest).map fun prompt => .pairing (some prompt)
      else none

def decodeDone (payload : Bytes) : Except IpcErrors Response :=
  if payload = [] then .ok .done else .error .malformed

def orMalformed (found : Option Response) : Except IpcErrors Response := found.elim (.error .malformed) .ok

def Response.decode (request : Request) : Bytes → Except IpcErrors Response
  | [] => .error .malformed
  | code :: payload =>
      if code = respErr then
        match payload with
        | [error] => (errorOfByte error).elim (.error .malformed) fun error => .error (.daemon error)
        | _ => .error .malformed
      else if code ≠ respOk then .error .malformed
      else match request with
        | Request.status => decodeStatus payload
        | .setAuthPassword _ | .setDataPassword _ | .unlock _ | .setAutoLogin _ | .setSync _ | .addDevice
        | .answerPairing _ _ _ | .joinGroup _ | .cancelJoin | .stopAddDevice | .forgetPeer _ | .resetDevice
        | .setClipboard _ => decodeDone payload
        | .listPeers => orMalformed (decodePeerInfos payload)
        | .pendingPairing => orMalformed (decodePairing payload)

/-! ## Frames -/

def writeFrame (body : Bytes) : Except IpcErrors Bytes :=
  if body.length = 0 ∨ maxFrameLen < body.length then .error .frameTooLarge
  else .ok (little 4 body.length ++ body)

/-- A frame from the front of what arrives before the stream ends. -/
def readFrame (stream : Bytes) : Except IpcErrors (Bytes × Bytes) :=
  match readLE 4 stream with
  | none => .error .failedToRead
  | some (length, rest) =>
      if length = 0 ∨ maxFrameLen < length then .error .frameTooLarge
      else (splitAtChecked length rest).elim (.error .failedToRead) .ok

/-! ## Names that are cut -/

/-- The name without the characters that do not fit into 255 bytes. -/
def cutName (name : String) : String := String.ofList (fitChars 255 name.toList)

theorem encodeChars_eq_utf8Encode (chars : List Char) : encodeChars chars = chars.utf8Encode.data.toList := by
  simp [encodeChars, List.utf8Encode]

theorem asBytes_eq_encodeChars (name : String) : asBytes name = encodeChars name.toList := by
  rw [asBytes, encodeChars_eq_utf8Encode, String.utf8Encode_toList]

theorem asBytes_cutName (name : String) : asBytes (cutName name) = encodeChars (fitChars 255 name.toList) := by
  rw [asBytes_eq_encodeChars, cutName, String.toList_ofList]

theorem length_cutName (name : String) : (asBytes (cutName name)).length ≤ 255 := by
  rw [asBytes_cutName]
  obtain ⟨_, _, fits, _⟩ := fitChars_split 255 name.toList
  exact fits

theorem cutName_of_le {name : String} (fits : (asBytes name).length ≤ 255) : cutName name = name := by
  rw [asBytes_eq_encodeChars] at fits
  rw [cutName, fitChars_of_le fits, String.ofList_toList]

theorem shortName_eq (name : String) : shortName name = asBytes (cutName name) := by
  obtain ⟨rest, shape, _, _⟩ := fitChars_split 255 name.toList
  have whole : encodeChars name.toList = encodeChars (fitChars 255 name.toList) ++ encodeChars rest := by
    rw [← encodeChars_append, ← shape]
  have cut : floorCharBoundary (asBytes name) (min (asBytes name).length 255) =
      (encodeChars (fitChars 255 name.toList)).length := by
    rw [asBytes_eq_encodeChars]
    rcases Nat.le_total 255 (encodeChars name.toList).length with long | short
    · rw [Nat.min_eq_right long]
      exact floorCharBoundary_encodeChars long
    · rw [Nat.min_eq_left short, floorCharBoundary_encodeChars (Nat.le_refl _), fitChars_of_le (Nat.le_refl _),
        fitChars_of_le short]
  rw [shortName, cut, asBytes_cutName, asBytes_eq_encodeChars, whole, List.take_left]

theorem lengthU8_of_le {length : Nat} (fits : length ≤ 255) : lengthU8 length = UInt8.ofNat length := by
  rw [lengthU8, if_pos (by omega)]

/-! ## The bytes of the parts -/

def PeerInfo.cut (peer : PeerInfo) : PeerInfo := { peer with name := cutName peer.name }

def PairingPrompt.cut (prompt : PairingPrompt) : PairingPrompt := { prompt with name := cutName prompt.name }

def nameBytes (name : String) : Bytes := UInt8.ofNat (asBytes name).length :: asBytes name

def infoBytes (peer : PeerInfo) : Bytes := peer.fingerprint.toList ++ (stateByte peer.state :: nameBytes peer.name)

def promptBytes (prompt : PairingPrompt) : Bytes :=
  little 4 prompt.id.toNat ++ (prompt.code.toList ++ nameBytes prompt.name)

theorem encodeInfo_eq (peer : PeerInfo) : encodeInfo peer = infoBytes peer.cut := by
  simp only [encodeInfo, shortName_eq, lengthU8_of_le (length_cutName peer.name)]
  rfl

theorem encodePayload_prompt (prompt : PairingPrompt) :
    encodePayload (.pairing (some prompt)) = 0x01 :: promptBytes prompt.cut := by
  simp only [encodePayload, shortName_eq, lengthU8_of_le (length_cutName prompt.name)]
  rfl

theorem encodePayload_peers (peers : List PeerInfo) :
    encodePayload (.peers peers) = little 2 (peers.take maxListedPeers).length ++
      ((peers.take maxListedPeers).map PeerInfo.cut).flatMap infoBytes := by
  have count : (peers.take maxListedPeers).length ≤ maxListedPeers := List.length_take_le _ _
  have fits : (peers.take maxListedPeers).length < 2 ^ 16 := count.trans_lt (by decide)
  simp only [encodePayload, if_pos fits, List.take_length, List.flatMap_map]
  congr 2
  funext peer
  exact encodeInfo_eq peer

@[simp] theorem stateOfByte_stateByte (state : PeerState) : stateOfByte (stateByte state) = some state := by
  cases state <;> rfl

theorem stateOfByte_eq_some {byte : UInt8} {state : PeerState} : stateOfByte byte = some state ↔ byte = stateByte state := by
  constructor
  · intro found
    unfold stateOfByte at found
    split at found <;> first | (cases found; rfl) | cases found
  · intro same
    rw [same, stateOfByte_stateByte]

@[simp] theorem errorOfByte_errorByte (error : DaemonError) : errorOfByte (errorByte error) = some error := by
  cases error <;> rfl

theorem readInfo_eq_some {bytes rest : Bytes} {peer : PeerInfo} :
    readInfo bytes = some (peer, rest) ↔ (asBytes peer.name).length ≤ 255 ∧ bytes = infoBytes peer ++ rest := by
  constructor
  · intro found
    simp only [readInfo, Option.bind_eq_bind, Option.bind_eq_some_iff, Prod.exists, splitFirstChunk_eq_some] at found
    obtain ⟨fingerprint, after, rfl, found⟩ := found
    split at found
    · next state nameLen after =>
      simp only [Option.bind_eq_some_iff, Prod.exists, splitAtChecked_eq_some, fromUtf8_eq_some,
        stateOfByte_eq_some] at found
      obtain ⟨_, left, ⟨rfl, size⟩, name, rfl, state, rfl, same⟩ := found
      cases same
      have short := nameLen.toNat_lt
      refine ⟨by dsimp only; omega, ?_⟩
      simp only [infoBytes, nameBytes, size, UInt8.ofNat_toNat, List.append_assoc, List.cons_append]
    · cases found
  · intro ⟨fits, shape⟩
    subst shape
    have size : (asBytes peer.name).length % 256 = (asBytes peer.name).length := Nat.mod_eq_of_lt (by omega)
    have taken : splitAtChecked (asBytes peer.name).length (asBytes peer.name ++ rest) = some (asBytes peer.name, rest) :=
      splitAtChecked_eq_some.mpr ⟨rfl, rfl⟩
    have named : fromUtf8 (asBytes peer.name) = some peer.name := fromUtf8_eq_some.mpr rfl
    simp [readInfo, infoBytes, nameBytes, size, taken, named]

theorem decodePeerInfos_eq_some {payload : Bytes} {response : Response} :
    decodePeerInfos payload = some response ↔ ∃ peers, response = .peers peers ∧ peers.length ≤ maxListedPeers ∧
      (∀ peer ∈ peers, (asBytes peer.name).length ≤ 255) ∧
      payload = little 2 peers.length ++ peers.flatMap infoBytes := by
  simp only [decodePeerInfos, Option.bind_eq_bind, Option.bind_eq_some_iff, Prod.exists, readLE_eq_some,
    Option.ite_none_left_eq_some, readCount_eq_some readInfo_eq_some, Option.ite_none_right_eq_some]
  constructor
  · intro found
    obtain ⟨count, _, ⟨rfl, _⟩, few, _, _, ⟨peers, rfl, rfl, short, rfl⟩, rfl, same⟩ := found
    cases same
    exact ⟨_, rfl, Nat.le_of_not_lt few, short, by simp⟩
  · intro ⟨peers, same, few, short, shape⟩
    subst same
    have fits : peers.length < 256 ^ 2 := few.trans_lt (by decide)
    exact ⟨_, _, ⟨shape, fits⟩, Nat.not_lt.mpr few, peers, [], ⟨peers, rfl, rfl, short, by simp⟩, rfl, rfl⟩

def PairingPrompt.Shown (prompt : PairingPrompt) : Prop :=
  isValid prompt.code = true ∧ ∀ c ∈ prompt.name.toList, ¬ isControl c

theorem decodePrompt_eq_some {bytes : Bytes} {prompt : PairingPrompt} :
    decodePrompt bytes = some prompt ↔
      prompt.Shown ∧ (asBytes prompt.name).length ≤ 255 ∧ bytes = promptBytes prompt := by
  constructor
  · intro found
    simp only [decodePrompt, Option.bind_eq_bind, Option.bind_eq_some_iff, Prod.exists, readLE_eq_some,
      splitFirstChunk_eq_some] at found
    obtain ⟨number, _, ⟨rfl, fits⟩, code, rest, rfl, found⟩ := found
    cases rest with
    | nil => cases found
    | cons nameLen text =>
        simp only [Option.ite_none_left_eq_some, Option.bind_eq_some_iff, fromUtf8_eq_some, not_or,
          Decidable.not_not, Bool.not_eq_true', Bool.not_eq_false, List.any_eq_true, not_exists, not_and] at found
        obtain ⟨⟨size, valid⟩, name, rfl, printable, same⟩ := found
        cases same
        have short := nameLen.toNat_lt
        have number : (UInt32.ofNat number).toNat = number := by
          rw [UInt32.toNat_ofNat', Nat.mod_eq_of_lt (by simpa using fits)]
        refine ⟨⟨valid, printable⟩, by dsimp only; omega, ?_⟩
        simp only [promptBytes, nameBytes, size, UInt8.ofNat_toNat, number]
  · intro ⟨⟨valid, printable⟩, size, shape⟩
    subst shape
    have fits : prompt.id.toNat < 256 ^ 4 := by
      have bound := prompt.id.toNat_lt
      omega
    -- a length of at most 255 goes through its byte
    have length : (asBytes prompt.name).length = (UInt8.ofNat (asBytes prompt.name).length).toNat := by
      rw [UInt8.toNat_ofNat', Nat.mod_eq_of_lt (by omega)]
    have named : fromUtf8 (asBytes prompt.name) = some prompt.name := fromUtf8_eq_some.mpr rfl
    have hidden : prompt.name.toList.any isControl = false := by simpa using printable
    rw [decodePrompt, promptBytes, readLE_append 4 _ fits]
    simp only [Option.bind_eq_bind, Option.bind_some, splitFirstChunk_append, nameBytes, ← length, valid, named, hidden,
      ne_eq, not_true_eq_false, Bool.not_true, Bool.false_eq_true, or_self, if_false, UInt32.ofNat_toNat]
    rfl

/-! ## Status -/

theorem flags_read (a b c d e f g h : Bool) :
    let flags := flag a ||| flag b <<< 1 ||| flag c <<< 2 ||| flag d <<< 3 ||| flag e <<< 4 ||| flag f <<< 5 |||
      flag g <<< 6 ||| flag h <<< 7
    decide (flags &&& 0b001 ≠ 0) = a ∧ decide (flags &&& 0b010 ≠ 0) = b ∧ decide (flags &&& 0b100 ≠ 0) = c ∧
      decide (flags &&& 0b1000 ≠ 0) = d ∧ decide (flags &&& 0b10000 ≠ 0) = e ∧
      decide (flags &&& 0b100000 ≠ 0) = f ∧ decide (flags &&& 0b1000000 ≠ 0) = g ∧
      decide (flags &&& 0b10000000 ≠ 0) = h := by
  revert a b c d e f g h
  decide +kernel

theorem flags2_read (a b c d : Bool) :
    let flags2 := ([(a, status2Joining), (b, status2OtherGroup), (c, status2Clipboard), (d, status2NoClipboard)].filter
      Prod.fst).foldl (fun flags2 entry => flags2 ||| entry.2) 0
    flags2 &&& ~~~status2Known = 0 ∧ decide (flags2 &&& status2Joining ≠ 0) = a ∧
      decide (flags2 &&& status2OtherGroup ≠ 0) = b ∧ decide (flags2 &&& status2Clipboard ≠ 0) = c ∧
      decide (flags2 &&& status2NoClipboard ≠ 0) = d := by
  revert a b c d
  decide +kernel

theorem decodeStatus_encode (status : Status) : decodeStatus (encodePayload (.status status)) = .ok (.status status) := by
  obtain ⟨auth, data, running, peers, locked, saved, auto, wait, sync, adding, pending, joining, other, clip, noClip⟩ :=
    status
  have flags := flags_read auth data running locked saved auto sync adding
  have flags2 := flags2_read joining other clip noClip
  have count : UInt32.ofNat (valueLE (little 4 peers.toNat)) = peers := by
    rw [valueLE_little peers.toNat_lt, UInt32.ofNat_toNat]
  have secs : UInt16.ofNat (valueLE (little 2 wait.toNat)) = wait := by
    rw [valueLE_little wait.toNat_lt, UInt16.ofNat_toNat]
  obtain ⟨a, b, c, d, e, f, g, h⟩ := flags
  obtain ⟨known, i, j, k, l⟩ := flags2
  simp only [little] at count secs
  simp only [encodePayload, little, List.cons_append, List.nil_append, decodeStatus, Status.flags, Status.flags2]
  rw [if_pos known]
  congr 2
  rw [Status.mk.injEq]
  exact ⟨a, b, c, count, d, e, f, secs, g, h, rfl, i, j, k, l⟩


/-! ## What is read is what was written, except for what is cut -/

def Response.Answers (request : Request) : Response → Prop
  | .status _ => request = .status
  | .peers _ => request = .listPeers
  | .pairing _ => request = .pendingPairing
  | .done => request ≠ .status ∧ request ≠ .listPeers ∧ request ≠ .pendingPairing

def Response.cut : Response → Response
  | .peers infos => .peers ((infos.take maxListedPeers).map PeerInfo.cut)
  | .pairing prompt => .pairing (prompt.map PairingPrompt.cut)
  | response => response

/-- The UI reads the answer: a prompt in it can be shown. -/
def Response.Readable : Response → Prop
  | .pairing (some prompt) => prompt.cut.Shown
  | _ => True

theorem decode_ok (request : Request) (payload : Bytes) :
    Response.decode request (respOk :: payload) = match request with
      | .status => decodeStatus payload
      | .listPeers => orMalformed (decodePeerInfos payload)
      | .pendingPairing => orMalformed (decodePairing payload)
      | _ => decodeDone payload := by
  cases request <;> rfl

theorem orMalformed_eq_ok {found : Option Response} {response : Response} :
    orMalformed found = .ok response ↔ found = some response := by
  cases found <;> simp [orMalformed]

theorem decodePairing_eq_some {payload : Bytes} {response : Response} :
    decodePairing payload = some response ↔ (response = .pairing none ∧ payload = [0x00]) ∨
      ∃ prompt : PairingPrompt, response = .pairing (some prompt) ∧ prompt.Shown ∧
        (asBytes prompt.name).length ≤ 255 ∧ payload = 0x01 :: promptBytes prompt := by
  constructor
  · intro found
    cases payload with
    | nil => cases found
    | cons present rest =>
        unfold decodePairing at found
        dsimp only at found
        split at found
        · next absent =>
          obtain ⟨empty, same⟩ := Option.ite_none_right_eq_some.mp found
          cases same
          exact .inl ⟨rfl, by rw [absent, empty]⟩
        · obtain ⟨given, same⟩ := Option.ite_none_right_eq_some.mp found
          obtain ⟨prompt, read, same⟩ := Option.map_eq_some_iff.mp same
          obtain ⟨shown, size, shape⟩ := decodePrompt_eq_some.mp read
          exact .inr ⟨prompt, same.symm, shown, size, by rw [given, shape]⟩
  · intro written
    rcases written with ⟨rfl, rfl⟩ | ⟨prompt, rfl, shown, size, rfl⟩
    · rfl
    · have read := decodePrompt_eq_some.mpr ⟨shown, size, rfl⟩
      simp [decodePairing, read]

/-- The bytes of a prompt tell whether it is shown. -/
theorem shown_of_promptBytes_eq {first second : PairingPrompt} (same : promptBytes first = promptBytes second)
    (shown : second.Shown) : first.Shown := by
  have rest := (List.append_inj same (by simp)).2
  obtain ⟨codes, names⟩ := List.append_inj rest (by simp)
  have code : first.code = second.code := List.Vector.toList_injective codes
  have named : fromUtf8 (asBytes first.name) = some second.name := fromUtf8_eq_some.mpr (List.cons.inj names).2
  rw [fromUtf8_eq_some.mpr rfl, Option.some.injEq] at named
  unfold PairingPrompt.Shown
  rw [code, named]
  exact shown

theorem decode_encode {request : Request} {response : Response} (answers : response.Answers request)
    (readable : response.Readable) : Response.decode request response.encode = .ok response.cut := by
  rw [Response.encode, decode_ok]
  cases response with
  | status status =>
      cases answers
      exact decodeStatus_encode status
  | peers peers =>
      cases answers
      rw [orMalformed_eq_ok, decodePeerInfos_eq_some, encodePayload_peers]
      refine ⟨_, rfl, ?_, ?_, by rw [List.length_map]⟩
      · rw [List.length_map]
        exact List.length_take_le _ _
      · intro peer member
        obtain ⟨whole, _, rfl⟩ := List.mem_map.mp member
        exact length_cutName whole.name
  | pairing prompt =>
      cases answers
      rw [orMalformed_eq_ok, decodePairing_eq_some]
      cases prompt with
      | none => exact .inl ⟨rfl, rfl⟩
      | some prompt =>
          exact .inr ⟨prompt.cut, rfl, readable, length_cutName prompt.name, encodePayload_prompt prompt⟩
  | done =>
      obtain ⟨status, peers, pairing⟩ := answers
      cases request <;> first | rfl | contradiction

theorem decode_encode_of_not_readable {request : Request} {response : Response}
    (answers : response.Answers request) (hidden : ¬ response.Readable) :
    Response.decode request response.encode = .error .malformed := by
  cases response with
  | pairing prompt =>
      cases answers
      cases prompt with
      | none => exact absurd trivial hidden
      | some prompt =>
          -- these bytes are of no prompt that is shown
          have refused : decodePrompt (promptBytes prompt.cut) = none := by
            rw [Option.eq_none_iff_forall_ne_some]
            intro other found
            obtain ⟨shown, _, shape⟩ := decodePrompt_eq_some.mp found
            exact hidden (shown_of_promptBytes_eq shape shown)
          rw [Response.encode, decode_ok, encodePayload_prompt]
          simp [decodePairing, refused, orMalformed]
  | _ => exact absurd trivial hidden


theorem code_of_decode {request : Request} {code : UInt8} {payload : Bytes} {response : Response}
    (found : Response.decode request (code :: payload) = .ok response) : code = respOk := by
  unfold Response.decode at found
  dsimp only at found
  split at found
  · split at found
    · next error => cases known : errorOfByte error <;> simp [known] at found
    · cases found
  · split at found
    · cases found
    · next fine => exact Decidable.not_not.mp fine

theorem encode_of_decode {request : Request} {body : Bytes} {response : Response}
    (asked : request = .listPeers ∨ request = .pendingPairing) (found : Response.decode request body = .ok response) :
    response.encode = body := by
  cases body with
  | nil => cases found
  | cons code payload =>
      have fine : code = respOk := code_of_decode found
      subst fine
      rw [decode_ok] at found
      rcases asked with rfl | rfl
      · obtain ⟨peers, rfl, few, short, rfl⟩ := decodePeerInfos_eq_some.mp (orMalformed_eq_ok.mp found)
        have whole : peers.map PeerInfo.cut = peers.map id := by
          apply List.map_congr_left
          intro peer member
          unfold PeerInfo.cut
          rw [cutName_of_le (short peer member)]
          rfl
        rw [Response.encode, encodePayload_peers, List.take_of_length_le few, whole, List.map_id]
      · rcases decodePairing_eq_some.mp (orMalformed_eq_ok.mp found) with ⟨rfl, rfl⟩ | ⟨prompt, rfl, _, short, rfl⟩
        · rfl
        · rw [Response.encode, encodePayload_prompt]
          unfold PairingPrompt.cut
          rw [cutName_of_le short]

/-! ## Every answer fits into a frame -/

theorem length_infoBytes (peer : PeerInfo) : (infoBytes peer.cut).length ≤ 265 := by
  have name := length_cutName peer.name
  have fingerprint : peer.fingerprint.toList.length = 8 := peer.fingerprint.toList_length
  simp only [infoBytes, nameBytes, PeerInfo.cut, List.length_append, List.length_cons, fingerprint]
  omega

theorem length_encodePayload (response : Response) : (encodePayload response).length ≤ 2 + 256 * 265 := by
  cases response with
  | status status => simp [encodePayload]
  | done => simp [encodePayload]
  | peers peers =>
      have few : (peers.take maxListedPeers).length ≤ 256 := List.length_take_le _ _
      have short : ∀ info ∈ (peers.take maxListedPeers).map PeerInfo.cut, (infoBytes info).length ≤ 265 := by
        intro info member
        obtain ⟨peer, _, rfl⟩ := List.mem_map.mp member
        exact length_infoBytes peer
      have size := length_flatMap_le short
      rw [List.length_map] at size
      rw [encodePayload_peers, List.length_append, length_little]
      omega
  | pairing prompt =>
      cases prompt with
      | none => simp [encodePayload]
      | some prompt =>
          have name := length_cutName prompt.name
          rw [encodePayload_prompt]
          simp only [promptBytes, nameBytes, PairingPrompt.cut, List.length_append, List.length_cons,
            List.Vector.toList_length, length_little]
          omega

/-- The body is neither empty nor too long, and is read back whole from the bytes
that are sent. -/
def Framed (body : Bytes) : Prop :=
  1 ≤ body.length ∧ body.length ≤ maxFrameLen ∧
    ∃ sent, writeFrame body = .ok sent ∧ readFrame sent = .ok (body, [])

theorem framed_of_length {body : Bytes} (some : 1 ≤ body.length) (fits : body.length ≤ maxFrameLen) : Framed body := by
  have allowed : ¬ (body.length = 0 ∨ maxFrameLen < body.length) := by omega
  have small : body.length < 256 ^ 4 := fits.trans_lt (by decide)
  refine ⟨some, fits, little 4 body.length ++ body, if_neg allowed, ?_⟩
  have taken : splitAtChecked body.length body = .some (body, []) := splitAtChecked_eq_some.mpr ⟨by simp, rfl⟩
  simp only [readFrame, readLE_append 4 _ small, if_neg allowed, taken, Option.elim_some]

theorem framed_encode (response : Response) : Framed response.encode := by
  have size := length_encodePayload response
  apply framed_of_length
  · simp [Response.encode]
  · simp only [Response.encode, List.length_cons, maxFrameLen]
    omega


/-- Every answer is between one byte and the limit of a frame long and arrives
whole. The UI reads it as it was, with at most 256 devices and of each name the
longest beginning of at most 255 bytes; a prompt only if it can be shown. What is
read as a list of devices or as a prompt is nothing but what was written of it. -/
theorem response_codec :
    (∀ name : String, (cutName name).toList <+: name.toList ∧ (asBytes (cutName name)).length ≤ 255 ∧
      ∀ other : String, other.toList <+: name.toList → (asBytes other).length ≤ 255 →
        other.toList <+: (cutName name).toList) ∧
    (∀ response : Response, Framed response.encode) ∧
    (∀ error : DaemonError, Framed (Response.encodeError error)) ∧
    (∀ (request : Request) (response : Response), response.Answers request →
      (response.Readable → Response.decode request response.encode = .ok response.cut) ∧
      (¬ response.Readable → Response.decode request response.encode = .error .malformed)) ∧
    (∀ (request : Request) (error : DaemonError),
      Response.decode request (Response.encodeError error) = .error (.daemon error)) ∧
    ∀ (request : Request) (body : Bytes) (response : Response),
      request = .listPeers ∨ request = .pendingPairing → Response.decode request body = .ok response →
        response.encode = body := by
  refine ⟨?_, framed_encode, ?_, ?_, ?_, ?_⟩
  · intro name
    have list : (cutName name).toList = fitChars 255 name.toList := String.toList_ofList
    refine ⟨?_, length_cutName name, ?_⟩
    · rw [list]
      exact fitChars_begins 255 name.toList
    · intro other begins fits
      rw [asBytes_eq_encodeChars] at fits
      rw [list]
      exact fitChars_longest begins fits
  · intro error
    apply framed_of_length
    · simp [Response.encodeError]
    · simp [Response.encodeError, maxFrameLen]
  · intro request response answers
    exact ⟨decode_encode answers, decode_encode_of_not_readable answers⟩
  · intro request error
    simp [Response.encodeError, Response.decode]
  · intro request body response asked found
    exact encode_of_decode asked found

def hiddenPrompt : Response := .pairing (some ⟨7, "a\n", List.Vector.replicate 8 1⟩)

def shownPrompt : Response := .pairing (some ⟨7, "ä", List.Vector.replicate 8 1⟩)

theorem response_codec_prompts :
    Response.decode .pendingPairing shownPrompt.encode = .ok shownPrompt.cut ∧
    Response.decode .pendingPairing hiddenPrompt.encode = .error .malformed ∧
    Response.decode .pendingPairing [0x00, 0x00] = .ok (.pairing none) ∧
    (Response.pairing none).encode = [0x00, 0x00] ∧
    "ä".toList <+: (cutName "äb").toList := by
  have shown : (cutName "ä").toList = ['ä'] := by
    rw [cutName, String.toList_ofList]
    rfl
  have unprinted : (cutName "a\n").toList = ['a', '\n'] := by
    rw [cutName, String.toList_ofList]
    rfl
  have readable : shownPrompt.Readable := by
    refine ⟨rfl, fun c (among : c ∈ (cutName "ä").toList) => ?_⟩
    rw [shown, List.mem_singleton] at among
    rw [among]
    decide
  have hidden : ¬ hiddenPrompt.Readable := by
    intro readable
    have among : '\n' ∈ (cutName "a\n").toList := by simp [unprinted]
    exact readable.2 '\n' among rfl
  have read : Response.decode .pendingPairing [0x00, 0x00] = .ok (.pairing none) := rfl
  exact ⟨(response_codec.2.2.2.1 _ shownPrompt rfl).1 readable, (response_codec.2.2.2.1 _ hiddenPrompt rfl).2 hidden,
    read, response_codec.2.2.2.2.2 _ _ _ (.inr rfl) read,
    (response_codec.1 "äb").2.2 "ä" ⟨['b'], by decide⟩ (by decide)⟩

end Ipc

end CesaConn
