import CesaConn.Auth.Wire
import CesaConn.Program.Stateful
import CesaConn.Storage.Integrity

/-! The channel after the handshake, byte by byte.

The length of a chunked transfer is not sent. The receiver computes the size of
every message from the length it knows, so both loops have to cut at the same
places. A connection lists the messages it wrote and took, to state that. Time
limits are left out: what is asked for arrives, or the stream ends before.
-/

set_option autoImplicit false

namespace CesaConn

open Format Program

namespace Auth

open Stateful
open Vault (ascii)

/-- `snow::TransportState`: a message is 16 bytes longer than its plaintext. -/
structure Transport where
  State : Type
  writeMessage : State → {size : Nat} → Block size → Option (Block (size + snowTagLen) × State)
  readMessage : State → {size : Nat} → Block (size + snowTagLen) → Option (Block size × State)

/-- Noise delivers what was sent: two ends in step stay so when one of them writes
a message and the other reads it. -/
structure Transport.Delivers (transport : Transport) (inStep : transport.State → transport.State → Prop) : Prop where
  symm : ∀ {first second}, inStep first second → inStep second first
  delivers : ∀ {first second}, inStep first second → ∀ {size : Nat} (plaintext : Block size),
    size + snowTagLen ≤ snowMsgMaxLen → ∃ message first' second',
      transport.writeMessage first plaintext = some (message, first') ∧
      transport.readMessage second message = some (plaintext, second') ∧ inStep first' second'

/-- A transport that hides nothing: its tags count the messages of a direction. -/
def Transport.plain : Transport where
  State := Nat × Nat
  writeMessage state size plaintext :=
    some (⟨plaintext.toList ++ List.replicate snowTagLen (UInt8.ofNat state.1), by simp⟩, (state.1 + 1, state.2))
  readMessage state size message :=
    if message.toList.drop size = List.replicate snowTagLen (UInt8.ofNat state.2) then
      some (⟨message.toList.take size, by simp⟩, (state.1, state.2 + 1))
    else none

def Transport.Plain.inStep (first second : Transport.plain.State) : Prop := first.1 = second.2 ∧ second.1 = first.2

theorem Transport.plain_delivers : Transport.plain.Delivers Transport.Plain.inStep where
  symm := fun ⟨sent, received⟩ => ⟨received, sent⟩
  delivers := by
    intro first second inStep size plaintext _
    obtain ⟨sent, received⟩ := inStep
    refine ⟨_, (first.1 + 1, first.2), (second.1, second.2 + 1), rfl, ?_, ⟨by rw [sent], received⟩⟩
    have tag : List.drop size (plaintext.toList ++ List.replicate snowTagLen (UInt8.ofNat first.1)) =
        List.replicate snowTagLen (UInt8.ofNat second.2) := by
      rw [List.drop_left' plaintext.toList_length, sent]
    have text : List.take size (plaintext.toList ++ List.replicate snowTagLen (UInt8.ofNat first.1)) = plaintext.toList :=
      List.take_left' plaintext.toList_length
    exact (if_pos tag).trans (congrArg some (Prod.ext (List.Vector.toList_injective text) rfl))

structure SecureConnection (transport : Transport) where
  ts : transport.State
  handshakeHash : HandshakeHash
  /-- We opened the connection. -/
  isInitiator : Bool
  /-- What arrives on the stream and is not read yet. -/
  incoming : Bytes
  /-- The messages written to the stream. -/
  written : List Bytes
  /-- The messages taken from it. -/
  taken : List Bytes

abbrev DataKey := Block 32

def dataLayerOverhead : Nat := 12 + 16

abbrev OnConnection (transport : Transport) (A : Type) := Stateful (SecureConnection transport) AuthSnowErrors A

/-! ## Keys -/

def dataKeyLabel (isInitiator sending : Bool) : Bytes :=
  if sending = isInitiator then ascii "CPQHA-data-client-to-server" else ascii "CPQHA-data-server-to-client"

section Operations

variable {transport : Transport}

def dataKey (crypto : Crypto) (dKey : DataKey) (sending : Bool) : OnConnection transport (Block 32) := do
  let connection ← get
  match crypto.hkdf dKey.toList connection.handshakeHash.toList (dataKeyLabel connection.isInitiator sending) with
  | some key => pure key
  | none => throw .failedToExpandHkdf

/-! ## One message -/

def write (src : Bytes) (tag : Tags) : OnConnection transport Unit := do
  if secureMsgMaxPayload < src.length then throw .messageTooLarge
  let connection ← get
  match transport.writeMessage connection.ts (tagged ⟨src, rfl⟩ tag.byte) with
  | some (message, ts) => set { connection with ts, written := connection.written ++ [message.toList] }
  | none => throw .failedToWriteSnowMessage

/-- A message with a payload of `size` bytes: the buffer has one more, for the tag. -/
def read (size : Nat) (tag : Tags) : OnConnection transport (Block size) := do
  if secureMsgMaxPayload + 1 < size + 1 then throw .messageTooLarge
  let connection ← get
  match splitFirstChunk (size + 1 + snowTagLen) connection.incoming with
  | none => throw .failedToReadFromStream
  | some (message, incoming) =>
      match transport.readMessage connection.ts message with
      | none => throw .failedToReadSnowMessage
      | some (packet, ts) =>
          set { connection with ts, incoming, taken := connection.taken ++ [message.toList] }
          match untag packet tag.byte with
          | some payload => pure payload
          | none => throw .wrongTag

def writeTimeout (src : Bytes) (tag : Tags) : OnConnection transport Unit :=
  mapError (fun _ => .failedToWriteToSecureConnection) (write src tag)

def readTimeout (size : Nat) (tag : Tags) : OnConnection transport (Block size) :=
  mapError (fun _ => .failedToReadFromSecureConnection) (read size tag)

/-! ## A series of messages -/

/-- `slice::chunks`. -/
def chunks (size : Nat) (data : Bytes) : List Bytes :=
  if data = [] ∨ size = 0 then [] else data.take size :: chunks size (data.drop size)
  termination_by data.length
  decreasing_by
    rename_i more
    obtain ⟨some, positive⟩ := not_or.mp more
    have long := List.length_pos_iff.mpr some
    rw [List.length_drop]
    omega

def writeChunked (data : Bytes) (tag : Tags) : OnConnection transport Unit :=
  (chunks secureMsgMaxPayload data).forM fun chunk => writeTimeout chunk tag

def readMore (len : Nat) (tag : Tags) (data : Bytes) : OnConnection transport Bytes :=
  if data.length < len then do
    let chunk ← readTimeout (min (len - data.length) secureMsgMaxPayload) tag
    readMore len tag (data ++ chunk.toList)
  else pure data
  termination_by len - data.length
  decreasing_by
    rw [List.length_append, chunk.toList_length]
    simp only [secureMsgMaxPayload, snowMsgMaxLen, snowTagLen]
    omega

def readChunked (len : Nat) (tag : Tags) : OnConnection transport Bytes := readMore len tag []

/-! ## The data layer -/

/-- `aes::encrypt`: no associated data. -/
def encrypt (aead : Aead) (nonce : Option (Block 12)) (key : Block 32) (data : Bytes) : Option (Bytes × Block 12) :=
  Vault.encryptWithAad aead nonce key data []

def decrypt (aead : Aead) (key : Block 32) (ciphertext : Bytes) (nonce : Block 12) : Option Bytes :=
  aead.decrypt key nonce ciphertext []

def writeEncrypted (crypto : Crypto) (nonce : Option (Block 12)) (data : Bytes) (dKey : DataKey) (tag : Tags) :
    OnConnection transport Unit := do
  let key ← dataKey crypto dKey true
  match encrypt crypto.aead nonce key data with
  | none => throw .failedToEncryptData
  | some (ciphertext, nonce) => writeChunked (nonce.toList ++ ciphertext) tag

def readEncrypted (crypto : Crypto) (len : Nat) (dKey : DataKey) (tag : Tags) : OnConnection transport Bytes := do
  if len < dataLayerOverhead then throw .failedToDecryptData
  let packet ← readChunked len tag
  let key ← dataKey crypto dKey false
  match splitFirstChunk 12 packet with
  | none => throw .failedToConvertToArray
  | some (nonce, ciphertext) =>
      match decrypt crypto.aead key ciphertext nonce with
      | some data => pure data
      | none => throw .failedToDecryptData

end Operations

/-! ## The two directions have different keys -/

theorem dataKeyLabel_not (isInitiator sending : Bool) :
    dataKeyLabel (!isInitiator) (!sending) = dataKeyLabel isInitiator sending := by
  cases isInitiator <;> cases sending <;> rfl

theorem dataKeyLabel_ne (isInitiator sending : Bool) :
    dataKeyLabel isInitiator sending ≠ dataKeyLabel isInitiator (!sending) := by
  cases isInitiator <;> cases sending <;> decide

def Derives (crypto : Crypto) : Prop := ∀ (key : Block 32) (salt label : Bytes), ∃ derived, crypto.hkdf key.toList salt label = some derived

theorem derives_plain : Derives Crypto.plain :=
  fun key _ _ => ⟨key, toBlock_toList key⟩

/-! ## What one end writes and the other reads -/

section Transfer

variable {transport : Transport} (inStep : transport.State → transport.State → Prop)

structure Linked (hash : HandshakeHash) (initiator : Bool) (first second : SecureConnection transport) : Prop where
  inStep : inStep first.ts second.ts
  firstHash : first.handshakeHash = hash
  secondHash : second.handshakeHash = hash
  firstRole : first.isInitiator = initiator
  secondRole : second.isInitiator = !initiator

theorem Linked.symm (delivers : transport.Delivers inStep) {hash : HandshakeHash} {initiator : Bool}
    {first second : SecureConnection transport} (linked : Linked inStep hash initiator first second) :
    Linked inStep hash (!initiator) second first :=
  ⟨delivers.symm linked.inStep, linked.secondHash, linked.firstHash, linked.secondRole, by simp [linked.firstRole]⟩

/-- At two ends that are in step the first program writes messages from which the
second reads the value; it takes exactly these messages, whatever comes after. -/
def Carries {E F A : Type} (hash : HandshakeHash) (initiator : Bool) (writes : Stateful (SecureConnection transport) E Unit)
    (reads : Stateful (SecureConnection transport) F A) (value : A) : Prop :=
  ∀ sender receiver, Linked inStep hash initiator sender receiver → ∃ messages sender',
    Returns writes sender () sender' ∧ sender'.written = sender.written ++ messages ∧
    sender'.incoming = sender.incoming ∧ sender'.taken = sender.taken ∧
    ∀ rest, ∃ receiver', Returns reads { receiver with incoming := messages.flatten ++ rest } value receiver' ∧
      receiver'.incoming = rest ∧ receiver'.taken = receiver.taken ++ messages ∧
      receiver'.written = receiver.written ∧ Linked inStep hash initiator sender' receiver'

variable {inStep} {E F A B : Type} {hash : HandshakeHash} {initiator : Bool}
  {writes : Stateful (SecureConnection transport) E Unit} {reads : Stateful (SecureConnection transport) F A} {value : A}

theorem Carries.writing {E' : Type} {other : Stateful (SecureConnection transport) E' Unit}
    (carries : Carries inStep hash initiator writes reads value)
    (made : ∀ {before after}, Returns writes before () after → Returns other before () after) :
    Carries inStep hash initiator other reads value := by
  intro sender receiver linked
  obtain ⟨messages, sender', wrote, after⟩ := carries sender receiver linked
  exact ⟨messages, sender', made wrote, after⟩

theorem Carries.reading {G : Type} {result : B} {next : Stateful (SecureConnection transport) G B}
    (carries : Carries inStep hash initiator writes reads value)
    (made : ∀ {before after}, Returns reads before value after → Returns next before result after) :
    Carries inStep hash initiator writes next result := by
  intro sender receiver linked
  obtain ⟨messages, sender', wrote, sent, incoming, taken, arrives⟩ := carries sender receiver linked
  refine ⟨messages, sender', wrote, sent, incoming, taken, ?_⟩
  intro rest
  obtain ⟨receiver', read, after⟩ := arrives rest
  exact ⟨receiver', made read, after⟩

theorem carries_pure (value : A) :
    Carries inStep hash initiator (pure () : Stateful (SecureConnection transport) E Unit)
      (pure value : Stateful (SecureConnection transport) F A) value := by
  intro sender receiver linked
  refine ⟨[], sender, returns_pure _ _, (List.append_nil _).symm, rfl, rfl, ?_⟩
  intro rest
  refine ⟨{ receiver with incoming := rest }, returns_pure _ _, rfl, (List.append_nil _).symm, rfl, ?_⟩
  exact ⟨linked.inStep, linked.firstHash, linked.secondHash, linked.firstRole, linked.secondRole⟩

theorem Carries.bind {more : Stateful (SecureConnection transport) E Unit}
    {next : A → Stateful (SecureConnection transport) F B} {result : B}
    (carries : Carries inStep hash initiator writes reads value)
    (later : Carries inStep hash initiator more (next value) result) :
    Carries inStep hash initiator (writes >>= fun _ => more) (reads >>= next) result := by
  intro sender receiver linked
  obtain ⟨messages, sender', wrote, sent, incoming, taken, arrives⟩ := carries sender receiver linked
  -- the ends are in step again, whatever the receiver still has to read
  obtain ⟨middle, _, _, _, _, middleLinked⟩ := arrives []
  obtain ⟨others, sender'', wroteMore, sentMore, incomingMore, takenMore, _⟩ := later sender' middle middleLinked
  refine ⟨messages ++ others, sender'', wrote.bind wroteMore, ?_, incomingMore.trans incoming, takenMore.trans taken, ?_⟩
  · rw [sentMore, sent, List.append_assoc]
  · intro rest
    obtain ⟨receiver', read, left, took, kept, linked'⟩ := arrives (others.flatten ++ rest)
    obtain ⟨others', other, wroteAgain, sentAgain, _, _, arrivesMore⟩ := later sender' receiver' linked'
    -- the writer does the same whatever the receiver read before
    have same : other = sender'' := by
      have both := wroteMore.symm.trans wroteAgain
      exact (congrArg Prod.snd both).symm
    subst same
    have equal : others' = others := List.append_cancel_left (sentAgain.symm.trans sentMore)
    subst equal
    obtain ⟨receiver'', readMore, leftMore, tookMore, keptMore, linked''⟩ := arrivesMore rest
    refine ⟨receiver'', ?_, leftMore, ?_, keptMore.trans kept, linked''⟩
    · rw [List.flatten_append, List.append_assoc]
      have eta : { receiver' with incoming := others'.flatten ++ rest } = receiver' := by
        rw [← left]
      rw [eta] at readMore
      exact read.bind readMore
    · rw [tookMore, took, List.append_assoc]

theorem returns_write {sender : SecureConnection transport} {src : Bytes} {tag : Tags} {ts : transport.State}
    {message : Block (src.length + 1 + snowTagLen)} (fits : src.length ≤ secureMsgMaxPayload)
    (wrote : transport.writeMessage sender.ts (tagged ⟨src, rfl⟩ tag.byte) = some (message, ts)) :
    Returns (write src tag) sender () { sender with ts, written := sender.written ++ [message.toList] } := by
  unfold write
  rw [if_neg (Nat.not_lt.mpr fits)]
  apply Returns.bind (returns_get _)
  rw [wrote]
  exact returns_set _ _

theorem returns_read {receiver : SecureConnection transport} {size : Nat} {tag : Tags} {ts : transport.State}
    {message : Block (size + 1 + snowTagLen)} {payload : Block size} {rest : Bytes} (fits : size ≤ secureMsgMaxPayload)
    (arrived : receiver.incoming = message.toList ++ rest)
    (decrypted : transport.readMessage receiver.ts message = some (tagged payload tag.byte, ts)) :
    Returns (read size tag) receiver payload
      { receiver with ts, incoming := rest, taken := receiver.taken ++ [message.toList] } := by
  unfold read
  rw [if_neg (by omega)]
  apply Returns.bind (returns_get _)
  rw [arrived, splitFirstChunk_append]
  dsimp only
  rw [decrypted]
  apply Returns.bind (returns_set _ _)
  rw [untag_tagged]
  exact returns_pure _ _


theorem carries_write (delivers : transport.Delivers inStep) {size : Nat} (payload : Block size) (tag : Tags)
    (fits : size ≤ secureMsgMaxPayload) :
    Carries inStep hash initiator (write payload.toList tag) (read size tag) payload := by
  obtain ⟨src, rfl⟩ := payload
  intro sender receiver linked
  have small : src.length + 1 + snowTagLen ≤ snowMsgMaxLen := by
    simp only [secureMsgMaxPayload, snowMsgMaxLen, snowTagLen] at fits ⊢
    omega
  obtain ⟨message, first, second, wrote, decrypted, inStep'⟩ :=
    delivers.delivers linked.inStep (tagged ⟨src, rfl⟩ tag.byte) small
  refine ⟨[message.toList], _, returns_write fits wrote, rfl, rfl, rfl, ?_⟩
  intro rest
  have arrived : [message.toList].flatten ++ rest = message.toList ++ rest := by simp
  refine ⟨_, returns_read fits arrived decrypted, rfl, rfl, rfl, ?_⟩
  exact ⟨inStep', linked.firstHash, linked.secondHash, linked.firstRole, linked.secondRole⟩

theorem carries_writeTimeout (delivers : transport.Delivers inStep) {size : Nat} (payload : Block size) (tag : Tags)
    (fits : size ≤ secureMsgMaxPayload) :
    Carries inStep hash initiator (writeTimeout payload.toList tag) (readTimeout size tag) payload :=
  ((carries_write delivers payload tag fits).writing Returns.mapError).reading Returns.mapError

theorem carries_chunks (delivers : transport.Delivers inStep) (tag : Tags) (left : Bytes) : ∀ front : Bytes,
    Carries inStep hash initiator ((chunks secureMsgMaxPayload left).forM fun chunk => writeTimeout chunk tag)
      (readMore (front.length + left.length) tag front) (front ++ left) := by
  have positive : secureMsgMaxPayload ≠ 0 := by decide
  -- over the chunks, as the writer cuts them
  induction left using chunks.induct secureMsgMaxPayload with
  | case1 left ended =>
      intro front
      have empty : left = [] := ended.resolve_right positive
      subst empty
      rw [chunks, if_pos (.inl rfl), readMore, if_neg (by simp), List.append_nil]
      exact carries_pure front
  | case2 left more ih =>
      intro front
      have long : left ≠ [] := (not_or.mp more).1
      have room : front.length < front.length + left.length := by
        have := List.length_pos_iff.mpr long
        omega
      -- the reader asks for a whole chunk, or for what is left
      have size : (left.take secureMsgMaxPayload).length =
          min (front.length + left.length - front.length) secureMsgMaxPayload := by
        rw [List.length_take]
        omega
      have later := ih (front ++ left.take secureMsgMaxPayload)
      have total : (front ++ left.take secureMsgMaxPayload).length + (left.drop secureMsgMaxPayload).length =
          front.length + left.length := by
        rw [List.length_append, Nat.add_assoc, ← List.length_append, List.take_append_drop]
      rw [total, List.append_assoc, List.take_append_drop] at later
      rw [chunks, if_neg more, readMore, if_pos room]
      exact (carries_writeTimeout delivers ⟨left.take secureMsgMaxPayload, size⟩ tag (Nat.min_le_right _ _)).bind later

theorem carries_chunked (delivers : transport.Delivers inStep) (data : Bytes) (tag : Tags) :
    Carries inStep hash initiator (writeChunked data tag) (readChunked data.length tag) data := by
  have whole := fun hash initiator => @carries_chunks transport inStep hash initiator delivers tag data []
  simp only [List.length_nil, Nat.zero_add, List.nil_append] at whole
  exact whole hash initiator


/-! ## The data layer -/

theorem returns_dataKey {crypto : Crypto} {connection : SecureConnection transport} {dKey : DataKey} {sending : Bool}
    {key : Block 32} (derived : crypto.hkdf dKey.toList connection.handshakeHash.toList
      (dataKeyLabel connection.isInitiator sending) = some key) :
    Returns (dataKey crypto dKey sending) connection key connection := by
  unfold dataKey
  apply Returns.bind (returns_get _)
  rw [derived]
  exact returns_pure _ _

theorem dataKey_agrees {crypto : Crypto} (derives : Derives crypto) (dKey : DataKey)
    {sender receiver : SecureConnection transport} (linked : Linked inStep hash initiator sender receiver) (sending : Bool) :
    ∃ key, Returns (dataKey crypto dKey sending) sender key sender ∧
      Returns (dataKey crypto dKey !sending) receiver key receiver := by
  obtain ⟨key, derived⟩ := derives dKey hash.toList (dataKeyLabel initiator sending)
  refine ⟨key, returns_dataKey ?_, returns_dataKey ?_⟩
  · rw [linked.firstHash, linked.firstRole]
    exact derived
  · rw [linked.secondHash, linked.secondRole, dataKeyLabel_not]
    exact derived

theorem carries_encrypted (delivers : transport.Delivers inStep) {crypto : Crypto} (correct : crypto.aead.Correct)
    (encrypts : crypto.aead.Encrypts) (derives : Derives crypto) (nonce : Block 12) (dKey : DataKey) (tag : Tags)
    {data : Bytes} (short : data.length < 2 ^ 36) :
    Carries inStep hash initiator (writeEncrypted crypto (some nonce) data dKey tag)
      (readEncrypted crypto (data.length + dataLayerOverhead) dKey tag) data := by
  intro sender receiver linked
  obtain ⟨key, derived⟩ := derives dKey hash.toList (dataKeyLabel initiator true)
  obtain ⟨ciphertext, encrypted⟩ := encrypts key nonce data [] short (by decide)
  have size : (nonce.toList ++ ciphertext).length = data.length + dataLayerOverhead := by
    rw [List.length_append, nonce.toList_length, correct.expands encrypted, dataLayerOverhead]
    omega
  obtain ⟨messages, sender', wrote, sent, incoming, taken, arrives⟩ :=
    carries_chunked delivers (nonce.toList ++ ciphertext) tag sender receiver linked
  refine ⟨messages, sender', ?_, sent, incoming, taken, ?_⟩
  · unfold writeEncrypted
    apply Returns.bind (returns_dataKey (by rw [linked.firstHash, linked.firstRole]; exact derived))
    simp only [encrypt, Vault.encryptWithAad, Option.bind_eq_bind, Option.bind_some, encrypted, Option.pure_def]
    exact wrote
  · intro rest
    obtain ⟨receiver', read, left, took, kept, linked'⟩ := arrives rest
    refine ⟨receiver', ?_, left, took, kept, linked'⟩
    -- what one end sends with is what the other end receives with
    have same : dataKeyLabel (!initiator) false = dataKeyLabel initiator true := dataKeyLabel_not initiator true
    unfold readEncrypted
    rw [if_neg (by omega)]
    rw [size] at read
    apply Returns.bind read
    apply Returns.bind (returns_dataKey (by rw [linked'.secondHash, linked'.secondRole, same]; exact derived))
    rw [splitFirstChunk_append]
    dsimp only
    rw [decrypt, correct.opens encrypted]
    exact returns_pure _ _


end Transfer


end Auth

end CesaConn
