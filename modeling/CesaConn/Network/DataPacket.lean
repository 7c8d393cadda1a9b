import CesaConn.Clipboard.ClipSync

/-! Data packets: the header, the payload through the data layer, the answer.

Four lengths have to agree: that of the payload, of what the data layer makes of
it, the one in the header with its bound, and the bound of the action. What a
connection tells the peer book is modelled with the receiver; here it is what
arrives.
-/

set_option autoImplicit false

namespace CesaConn

open Format Program

namespace DataPacket

open Auth Stateful

inductive ActionType where
  | default
  | debug
  | connectNewDevice
  | clipboardSync
  | groupSalt
  | hello
  deriving DecidableEq

def ActionType.byte : ActionType → UInt8
  | .default => 0x00
  | .debug => 0x01
  | .connectNewDevice => 0x02
  | .clipboardSync => 0x03
  | .groupSalt => 0x04
  | .hello => 0x05

def ActionType.ofByte (byte : UInt8) : Option ActionType :=
  match byte with
  | 0x00 => some .default
  | 0x01 => some .debug
  | 0x02 => some .connectNewDevice
  | 0x03 => some .clipboardSync
  | 0x04 => some .groupSalt
  | 0x05 => some .hello
  | _ => none

inductive DataAck where
  | applied
  | ignored
  | dataKeyDiffers
  deriving DecidableEq

def DataAck.byte : DataAck → UInt8
  | .applied => 0x00
  | .ignored => 0x01
  | .dataKeyDiffers => 0x02

def DataAck.ofByte (byte : UInt8) : Option DataAck :=
  match byte with
  | 0x00 => some .applied
  | 0x01 => some .ignored
  | 0x02 => some .dataKeyDiffers
  | _ => none

/-- The errors after authentication. -/
inductive TcpNetworkerErrors where
  | failedToReadFromStream
  | failedToAuthenticate
  | failedToWriteToStream
  | dataTooLarge
  | failedToDecryptData
  | notInvited
  deriving DecidableEq

/-- `CESAHELO`. -/
def helloPayload : Bytes := [0x43, 0x45, 0x53, 0x41, 0x48, 0x45, 0x4C, 0x4F]

def initHeaderLen : Nat := 9

def maxDataPacketLen : Nat := 16 * 1024 * 1024

/-- The length on the wire that an answered action must have. -/
def answeredLenOk (action : ActionType) (size : Nat) : Bool :=
  match action with
  | .hello => size = saturatingAdd helloPayload.length dataLayerOverhead
  | .clipboardSync => Clipboard.clipMinWireLen ≤ size ∧ size ≤ Clipboard.clipMaxWireLen
  | .default | .debug | .connectNewDevice | .groupSalt => false

def initHeader (action : ActionType) (size : Nat) : Bytes := action.byte :: little 8 size

structure ReceivedPacket where
  peer : TrustedPeer
  actionType : ActionType
  data : Bytes

/-- What `recv_handler` returns, and the clipboard update it handed to the daemon. -/
structure Received where
  packet : ReceivedPacket
  clip : Option Bytes

abbrev Handling (transport : Transport) (A : Type) := Stateful (SecureConnection transport) TcpNetworkerErrors A

section Handlers

variable {transport : Transport} (crypto : Crypto)

/-! ## The sender -/

def sendSecure (src : Bytes) : Handling transport Unit :=
  mapError (fun _ => .failedToWriteToStream) (writeTimeout src .regular)

def sendData (nonce : Option (Block 12)) (data : Bytes) (dKey : DataKey) : Handling transport Unit :=
  mapError (fun _ => .failedToWriteToStream) (writeEncrypted crypto nonce data dKey .regular)

def readSecure (len : Nat) : Handling transport (Block len) :=
  mapError (fun _ => .failedToReadFromStream) (readTimeout len .regular)

/-- `connect_handler`; its connection is the one that authentication gives. -/
def connectHandler (nonce : Option (Block 12)) (dKey : DataKey) (action : ActionType) (data : Bytes) :
    Handling transport Unit := do
  if maxDataPacketLen < data.length then throw .dataTooLarge
  let size := if action = .connectNewDevice ∨ data.length = 0 then 0 else saturatingAdd data.length dataLayerOverhead
  sendSecure (initHeader action size)
  if 0 < size then sendData crypto nonce data dKey

/-- `send_answered` up to the answer. -/
def sendAnswered (nonce : Option (Block 12)) (dKey : DataKey) (newlyPaired : Bool) (action : ActionType) (payload : Bytes) :
    Handling transport Unit := do
  let size := saturatingAdd payload.length dataLayerOverhead
  if answeredLenOk action size = false then throw .dataTooLarge
  -- every pairing request is refused, so this is never a new device
  if newlyPaired then throw .failedToAuthenticate
  sendSecure (initHeader action size)
  sendData crypto nonce payload dKey

def readAnswer : Handling transport DataAck := do
  let answer ← readSecure 1
  match DataAck.ofByte answer.head with
  | some ack => pure ack
  | none => throw .failedToReadFromStream

/-! ## The receiver -/

def sendAck (ack : DataAck) : Handling transport Unit := sendSecure [ack.byte]

/-- `deliver` is what the daemon answers to a clipboard update. -/
def receiveAnswered (deliver : Bytes → DataAck) (peer : TrustedPeer) (action : ActionType) (size : Nat) (dKey : DataKey) :
    Handling transport Received := do
  if answeredLenOk action size = false then throw .dataTooLarge
  match ← attempt (readEncrypted crypto size dKey .regular) with
  | .error .failedToDecryptData =>
      sendAck .dataKeyDiffers
      throw .failedToDecryptData
  | .error _ => throw .failedToReadFromStream
  | .ok data =>
      if action = .clipboardSync then
        -- the update moves to the daemon, nothing is kept here
        sendAck (deliver data)
        return ⟨⟨peer, action, []⟩, some data⟩
      else if data = helloPayload then
        sendAck .applied
        return ⟨⟨peer, action, data⟩, none⟩
      else
        sendAck .ignored
        return ⟨⟨peer, action, data⟩, none⟩

def sendGroupSalt (newlyPaired : Bool) (offer : Option (Block 32)) : Handling transport Unit :=
  match offer.filter fun _ => newlyPaired with
  | none => throw .notInvited
  | some dSalt => mapError (fun _ => .failedToWriteToStream) (writeChunked dSalt.toList .regular)

def readHeader : Handling transport (ActionType × Nat) := do
  let init ← readSecure initHeaderLen
  match init.toList with
  | [] => throw .failedToReadFromStream
  | actionByte :: sizeBytes =>
      let size := valueLE sizeBytes
      if saturatingAdd maxDataPacketLen dataLayerOverhead < size then throw .dataTooLarge
      -- an unknown action is the default one
      return ((ActionType.ofByte actionByte).getD .default, size)

def receivePlain (size : Nat) (dKey : DataKey) : Handling transport Bytes :=
  if size = 0 then pure []
  else mapError (fun error => if error = .failedToDecryptData then .failedToDecryptData else .failedToReadFromStream)
    (readEncrypted crypto size dKey .regular)

def recvHandler (deliver : Bytes → DataAck) (peer : TrustedPeer) (newlyPaired : Bool) (offer : Option (Block 32))
    (dKey : DataKey) : Handling transport Received := do
  let (action, size) ← readHeader
  if action = .hello ∨ action = .clipboardSync then receiveAnswered crypto deliver peer action size dKey
  else if action = .groupSalt then
    if size ≠ 0 then throw .dataTooLarge
    sendGroupSalt newlyPaired offer
    return ⟨⟨peer, action, []⟩, none⟩
  else
    let data ← receivePlain crypto size dKey
    return ⟨⟨peer, action, data⟩, none⟩

end Handlers

/-! ## Lengths -/

@[simp] theorem ActionType.ofByte_byte (action : ActionType) : ActionType.ofByte action.byte = some action := by
  cases action <;> rfl

@[simp] theorem DataAck.ofByte_byte (ack : DataAck) : DataAck.ofByte ack.byte = some ack := by
  cases ack <;> rfl

theorem saturatingAdd_overhead {length : Nat} (small : length < 2 ^ 36) :
    saturatingAdd length dataLayerOverhead = length + dataLayerOverhead := by
  simp only [saturatingAdd, usizeMax, dataLayerOverhead]
  omega

theorem answeredLenOk_encode {epoch : Clipboard.Epoch} {seq : UInt64} {text : String} {payload : Bytes}
    (written : Clipboard.encode epoch seq text = some payload) :
    answeredLenOk .clipboardSync (payload.length + dataLayerOverhead) = true := by
  obtain ⟨long, short⟩ := Clipboard.length_encode written
  have fits : Clipboard.clipMinWireLen ≤ payload.length + dataLayerOverhead ∧
      payload.length + dataLayerOverhead ≤ Clipboard.clipMaxWireLen := by
    simp only [Clipboard.clipMinWireLen, Clipboard.clipMaxWireLen]
    omega
  exact decide_eq_true fits

theorem short_of_encode {epoch : Clipboard.Epoch} {seq : UInt64} {text : String} {payload : Bytes}
    (written : Clipboard.encode epoch seq text = some payload) : payload.length ≤ maxDataPacketLen := by
  obtain ⟨_, short⟩ := Clipboard.length_encode written
  simp only [Clipboard.clipHeaderLen, Clipboard.clipMaxLen] at short
  simp only [maxDataPacketLen]
  omega

/-! ## Transfers -/

section Transfers

variable {transport : Transport} {inStep : transport.State → transport.State → Prop} {hash : HandshakeHash}
  {initiator : Bool}

theorem returns_readHeader {before after : SecureConnection transport} {action : ActionType} {size : Nat}
    {init : Block initHeaderLen} (shape : init.toList = initHeader action size)
    (bounded : size ≤ maxDataPacketLen + dataLayerOverhead) (read : Returns (readSecure initHeaderLen) before init after) :
    Returns readHeader before (action, size) after := by
  have value : valueLE (little 8 size) = size := by
    apply valueLE_little
    simp only [maxDataPacketLen, dataLayerOverhead] at bounded
    omega
  have allowed : ¬ saturatingAdd maxDataPacketLen dataLayerOverhead < size := by
    simp only [saturatingAdd, usizeMax, maxDataPacketLen, dataLayerOverhead] at bounded ⊢
    omega
  unfold readHeader
  apply read.bind
  rw [shape]
  simp only [initHeader, value, if_neg allowed, ActionType.ofByte_byte, Option.getD_some]
  exact returns_pure _ _

theorem carries_header (delivers : transport.Delivers inStep) (action : ActionType) {size : Nat}
    (bounded : size ≤ maxDataPacketLen + dataLayerOverhead) :
    Carries inStep hash initiator (sendSecure (initHeader action size)) readHeader (action, size) := by
  obtain ⟨header, shape⟩ : ∃ header : Block initHeaderLen, header.toList = initHeader action size :=
    ⟨⟨initHeader action size, by simp [initHeader, initHeaderLen]⟩, rfl⟩
  have sent : Carries inStep hash initiator (writeTimeout header.toList .regular) (readTimeout initHeaderLen .regular) header :=
    carries_writeTimeout delivers header .regular (by decide)
  rw [shape] at sent
  apply (sent.writing Returns.mapError).reading
  intro before after read
  exact returns_readHeader shape bounded read.mapError

variable {crypto : Crypto} (delivers : transport.Delivers inStep) (correct : crypto.aead.Correct)
  (encrypts : crypto.aead.Encrypts) (derives : Derives crypto)

include delivers correct encrypts derives in
theorem carries_data (nonce : Block 12) (dKey : DataKey) {data : Bytes} (short : data.length ≤ maxDataPacketLen) :
    Carries inStep hash initiator (sendData crypto (some nonce) data dKey)
      (readEncrypted crypto (data.length + dataLayerOverhead) dKey .regular) data := by
  have small : data.length < 2 ^ 36 := short.trans_lt (by decide)
  exact (carries_encrypted delivers correct encrypts derives nonce dKey .regular small).writing Returns.mapError

include delivers correct encrypts derives in
theorem carries_packet (nonce : Block 12) (dKey : DataKey) {action : ActionType} {data : Bytes}
    (plain : action = .default ∨ action = .debug) (some : 1 ≤ data.length) (short : data.length ≤ maxDataPacketLen)
    (deliver : Bytes → DataAck) (peer : TrustedPeer) (newlyPaired : Bool) (offer : Option (Block 32)) :
    Carries inStep hash initiator (connectHandler crypto (.some nonce) dKey action data)
      (recvHandler crypto deliver peer newlyPaired offer dKey) ⟨⟨peer, action, data⟩, none⟩ := by
  have size : saturatingAdd data.length dataLayerOverhead = data.length + dataLayerOverhead :=
    saturatingAdd_overhead (short.trans_lt (by decide))
  apply ((carries_header delivers action (Nat.add_le_add_right short _)).bind
    (carries_data delivers correct encrypts derives nonce dKey short |>.reading ?_)).writing
  · intro before after sent
    obtain ⟨_, middle, header, payload⟩ := sent.of_bind
    -- neither a bare pairing nor an empty packet: the payload follows its header
    have full : ¬ (action = .connectNewDevice ∨ data.length = 0) := by
      rcases plain with rfl | rfl <;> simp only [reduceCtorEq, false_or] <;> omega
    have positive : 0 < data.length + dataLayerOverhead := by omega
    unfold connectHandler
    rw [if_neg (Nat.not_lt.mpr short)]
    simp only [if_neg full, size, if_pos positive]
    apply Returns.bind header
    exact payload
  · intro before after read
    have other : ¬ (action = .hello ∨ action = .clipboardSync) ∧ ¬ action = .groupSalt := by
      rcases plain with rfl | rfl <;> decide
    dsimp only
    rw [if_neg other.1, if_neg other.2, receivePlain, if_neg (by omega)]
    exact (read.mapError).bind (returns_pure _ _)

def readBoth (crypto : Crypto) (dKey : DataKey) :
    Handling transport ((ActionType × Nat) × Except AuthSnowErrors Bytes) := do
  let header ← readHeader
  let data ← attempt (readEncrypted crypto header.2 dKey .regular)
  return (header, data)

include delivers correct encrypts derives in
theorem carries_answered (nonce : Block 12) (dKey : DataKey) {action : ActionType} {payload : Bytes}
    (allowed : answeredLenOk action (payload.length + dataLayerOverhead) = true) (short : payload.length ≤ maxDataPacketLen) :
    Carries inStep hash initiator (sendAnswered crypto (some nonce) dKey false action payload) (readBoth crypto dKey)
      ((action, payload.length + dataLayerOverhead), .ok payload) := by
  have size : saturatingAdd payload.length dataLayerOverhead = payload.length + dataLayerOverhead :=
    saturatingAdd_overhead (short.trans_lt (by decide))
  apply ((carries_header delivers action (Nat.add_le_add_right short _)).bind
    ((carries_data delivers correct encrypts derives nonce dKey short).reading ?_)).writing
  · intro before after sent
    obtain ⟨_, middle, header, data⟩ := sent.of_bind
    unfold sendAnswered
    simp only [size, allowed, Bool.true_eq_false, Bool.false_eq_true, if_false]
    apply Returns.bind header
    exact data
  · intro before after read
    exact read.attempt.bind (returns_pure _ _)

/-- After the payload of a clipboard update the receiver hands it to the daemon and answers. -/
theorem returns_clip {deliver : Bytes → DataAck} {peer : TrustedPeer} {newlyPaired : Bool} {offer : Option (Block 32)}
    {dKey : DataKey} {before middle after : SecureConnection transport} {size : Nat} {payload : Bytes}
    (allowed : answeredLenOk .clipboardSync size = true)
    (read : Returns (readBoth crypto dKey) before ((.clipboardSync, size), .ok payload) middle)
    (answered : Returns (sendAck (deliver payload)) middle () after) :
    Returns (recvHandler crypto deliver peer newlyPaired offer dKey) before ⟨⟨peer, .clipboardSync, []⟩, some payload⟩ after := by
  obtain ⟨header, first, gotHeader, later⟩ := read.of_bind
  obtain ⟨data, second, gotData, ended⟩ := later.of_bind
  obtain ⟨same, rfl⟩ := Prod.mk.inj ended
  obtain ⟨rfl, rfl⟩ := Prod.mk.inj (Except.ok.inj same)
  unfold recvHandler
  apply gotHeader.bind
  dsimp only
  rw [if_pos (.inr rfl)]
  unfold receiveAnswered
  simp only [allowed, Bool.true_eq_false, if_false]
  apply Returns.bind gotData
  dsimp only
  rw [if_pos trivial]
  exact answered.bind (returns_pure _ _)

include delivers in
theorem carries_ack (ack : DataAck) : Carries inStep hash initiator (sendAck ack) readAnswer ack := by
  have sent : Carries inStep hash initiator (writeTimeout [ack.byte] .regular) (readTimeout 1 .regular) ⟨[ack.byte], rfl⟩ :=
    carries_writeTimeout delivers (⟨[ack.byte], rfl⟩ : Block 1) .regular (by decide)
  apply (sent.writing Returns.mapError).reading
  intro before after read
  unfold readAnswer
  apply Returns.bind read.mapError
  show Returns (match DataAck.ofByte ack.byte with | some ack => _ | none => _) after ack after
  rw [DataAck.ofByte_byte]
  exact returns_pure _ _

/-- A clipboard update reaches the daemon of the other device, and the daemon's answer comes back. -/
def ClipArrives (inStep : transport.State → transport.State → Prop) (hash : HandshakeHash) (initiator : Bool)
    (crypto : Crypto) (nonce : Block 12) (dKey : DataKey) (payload : Bytes) : Prop :=
  ∀ (deliver : Bytes → DataAck) (peer : TrustedPeer) (newlyPaired : Bool) (offer : Option (Block 32))
    (sender receiver : SecureConnection transport), Linked inStep hash initiator sender receiver →
    ∃ messages sender', Returns (sendAnswered crypto (some nonce) dKey false .clipboardSync payload) sender () sender' ∧
      sender'.written = sender.written ++ messages ∧
      ∀ rest, ∃ answers receiver',
        Returns (recvHandler crypto deliver peer newlyPaired offer dKey) { receiver with incoming := messages.flatten ++ rest }
          ⟨⟨peer, .clipboardSync, []⟩, some payload⟩ receiver' ∧
        receiver'.incoming = rest ∧ receiver'.taken = receiver.taken ++ messages ∧
        receiver'.written = receiver.written ++ answers ∧
        ∀ rest, ∃ sender'', Returns readAnswer { sender' with incoming := answers.flatten ++ rest } (deliver payload) sender'' ∧
          sender''.incoming = rest

include delivers correct encrypts derives in
theorem clip_arrives (nonce : Block 12) (dKey : DataKey) {payload : Bytes}
    (allowed : answeredLenOk .clipboardSync (payload.length + dataLayerOverhead) = true)
    (short : payload.length ≤ maxDataPacketLen) : ClipArrives inStep hash initiator crypto nonce dKey payload := by
  intro deliver peer newlyPaired offer sender receiver linked
  obtain ⟨messages, sender', sent, wrote, _, _, arrives⟩ :=
    carries_answered delivers correct encrypts derives nonce dKey allowed short sender receiver linked
  refine ⟨messages, sender', sent, wrote, ?_⟩
  intro rest
  -- the answer goes the other way, from the ends the payload leaves
  obtain ⟨middle, read, left, took, kept, linked'⟩ := arrives rest
  obtain ⟨answers, receiver', answered, wroteBack, still, tookStill, comesBack⟩ :=
    carries_ack delivers (deliver payload) middle sender' (linked'.symm inStep delivers)
  refine ⟨answers, receiver', returns_clip allowed read answered, still.trans left, tookStill.trans took, ?_, ?_⟩
  · rw [wroteBack, kept]
  · intro rest
    obtain ⟨sender'', got, after, _⟩ := comesBack rest
    exact ⟨sender'', got, after⟩

end Transfers

def opened (isInitiator : Bool) : SecureConnection .plain := ⟨(0, 0), .replicate 32 0, isInitiator, [], [], []⟩

theorem opened_linked : Linked Transport.Plain.inStep (.replicate 32 0) true (opened true) (opened false) :=
  ⟨⟨rfl, rfl⟩, rfl, rfl, rfl, rfl⟩

end DataPacket

end CesaConn
