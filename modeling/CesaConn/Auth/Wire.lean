import CesaConn.Peers.TrustedPeers
import CesaConn.Program.Attempt
import CesaConn.Storage.Vault

/-! What authentication does to the world, and what it takes from outside.

A network operation answers, fails, or runs into its time limit. The Noise
handshake is one operation, since all of its decisions are made by its crate;
after it a message is sent and received as a whole. Random bytes are arguments, `none`
when the operating system gave none. The length of a message is part of its
type, so conversions of a buffer to an array of its own length are left out.
-/

set_option autoImplicit false

namespace CesaConn

open Format Program

namespace Auth

open Vault

def mldsa87SigLen : Nat := 4627
def mlkem1024CiphertextLen : Nat := 1568
def mlkem1024PublicKeyLen : Nat := 1568
def snowMsgMaxLen : Nat := 65535
def snowTagLen : Nat := 16
def secureMsgMaxPayload : Nat := snowMsgMaxLen - snowTagLen - 1

/-- Seconds for one read or write. -/
def timeout : Nat := 5
/-- Seconds for the user's decision. -/
def pairingTimeout : Nat := 60

abbrev Signature := Block mldsa87SigLen
abbrev HandshakeHash := Block 32
abbrev PairingCode := Block 8
abbrev SsKey := Block 32

inductive Role where
  | client
  | server
  deriving DecidableEq, Repr

namespace Role

def other : Role → Role
  | .client => .server
  | .server => .client

def clientContext : Bytes := ascii "CesaConn Client Handshake"
def serverContext : Bytes := ascii "CesaConn Server Handshake"

def ownContext : Role → Bytes
  | .client => clientContext
  | .server => serverContext

def peerContext : Role → Bytes
  | .client => serverContext
  | .server => clientContext

end Role

/-! ## Tags -/

/-- The kind of a message, its last byte, before Noise. -/
inductive KexTags where
  | outboundMsg
  | x25519Pub
  | confirmByte
  | mlKeyPub
  deriving DecidableEq, Repr

/-- `spake2::Tags` and `hybrid_kex::Tags`; each of the two counts from one. -/
def KexTags.byte : KexTags → UInt8
  | .outboundMsg => 0x01
  | .x25519Pub => 0x01
  | .confirmByte => 0x02
  | .mlKeyPub => 0x03

inductive Tags where
  | regular
  | mldsa87VerificationKeyTag
  | mldsa87SignatureTag
  | clientAcceptTag
  | isSavedTag
  | serverAcceptTag
  deriving DecidableEq, Repr

def Tags.byte : Tags → UInt8
  | .regular => 0x01
  | .mldsa87VerificationKeyTag => 0x02
  | .mldsa87SignatureTag => 0x03
  | .clientAcceptTag => 0x04
  | .isSavedTag => 0x05
  | .serverAcceptTag => 0x06

theorem Tags.byte_injective : Function.Injective Tags.byte := by
  intro first second same
  cases first <;> cases second <;> first | rfl | cases same

def tagged {size : Nat} (packet : Block size) (tag : UInt8) : Block (size + 1) :=
  ⟨packet.toList ++ [tag], by simp⟩

def untag {size : Nat} (packet : Block (size + 1)) (tag : UInt8) : Option (Block size) :=
  if packet.toList.getLast? = some tag then some ⟨packet.toList.dropLast, by simp⟩ else none

@[simp] theorem toList_tagged {size : Nat} (packet : Block size) (tag : UInt8) :
    (tagged packet tag).toList = packet.toList ++ [tag] := rfl

theorem untag_eq_some {size : Nat} {packet : Block (size + 1)} {tag : UInt8} {payload : Block size} :
    untag packet tag = some payload ↔ packet = tagged payload tag := by
  constructor
  · intro found
    unfold untag at found
    split at found
    · next last =>
      cases found
      refine List.Vector.toList_injective ?_
      show packet.toList = packet.toList.dropLast ++ [tag]
      exact (List.dropLast_append_getLast? tag last).symm
    · cases found
  · rintro rfl
    simp [untag]

@[simp] theorem untag_tagged {size : Nat} (payload : Block size) (tag : UInt8) :
    untag (tagged payload tag) tag = some payload :=
  untag_eq_some.mpr rfl

def flag (value : Bool) : Block 1 := ⟨[if value then 0x01 else 0x00], rfl⟩

/-- Anything other than an explicit `0x01` counts as a no. -/
def isOne (byte : Block 1) : Bool := byte.head = 0x01

@[simp] theorem isOne_flag (value : Bool) : isOne (flag value) = value := by
  cases value <;> rfl

theorem toList_of_isOne {byte : Block 1} (one : isOne byte) : byte.toList = [0x01] := by
  obtain ⟨bytes, size⟩ := byte
  obtain ⟨first, rfl⟩ := List.length_eq_one_iff.mp size
  exact congrArg (fun byte => [byte]) (of_decide_eq_true one)

/-! ## Primitives -/

/-- SPAKE2 over Ed25519. The first identity is the client's, the second the server's;
messages of both roles have one length. -/
structure Spake2 where
  Pending : Type
  messageLen : Nat
  startA : (seed password first second : Bytes) → Pending × Block messageLen
  startB : (seed password first second : Bytes) → Pending × Block messageLen
  finish : Pending → Block messageLen → Option Bytes

structure MlKemKeyPair where
  privateKey : Block 3168
  publicKey : Block mlkem1024PublicKeyLen

structure Primitives where
  spake2 : Spake2
  /-- `HKDF-BLAKE2s` without a salt: the size, input key material, label. -/
  hkdf : (size : Nat) → Bytes → Bytes → Option (Block size)
  calculatePublicKey : Block 32 → Block 32
  calculateSharedKey : Block 32 → Block 32 → Option SsKey
  generateKeyPair : Block 64 → MlKemKeyPair
  validatePublicKey : Block mlkem1024PublicKeyLen → Bool
  encapsulate : Block mlkem1024PublicKeyLen → Block 32 → Block mlkem1024CiphertextLen × SsKey
  decapsulate : Block 3168 → Block mlkem1024CiphertextLen → SsKey
  SigningKey : Type
  /-- Key, message, context and randomness. -/
  sign : SigningKey → Bytes → Bytes → Block 32 → Option Signature
  /-- Key, message, context and signature. -/
  verify : VerificationKey → Bytes → Bytes → Signature → Bool

def checksum (size : Nat) (bytes : Bytes) : Block size := .replicate size (bytes.foldl (· + ·) 0)

/-- Primitives that hide nothing: what a handshake relies on says nothing about secrecy. -/
def Primitives.plain : Primitives where
  spake2 := {
    Pending := Unit
    messageLen := 33
    startA := fun _ password _ _ => ((), checksum 33 password)
    startB := fun _ password _ _ => ((), checksum 33 password)
    finish := fun _ message => some message.toList }
  hkdf size key label := some (checksum size (key ++ label))
  calculatePublicKey privateKey := privateKey
  calculateSharedKey privateKey publicKey := some (.replicate 32 (privateKey.head + publicKey.head))
  generateKeyPair random := ⟨checksum _ random.toList, checksum _ random.toList⟩
  validatePublicKey _ := true
  encapsulate _ random := (checksum _ random.toList, checksum _ random.toList)
  decapsulate _ ciphertext := .replicate 32 ciphertext.head
  SigningKey := Unit
  sign _ message context _ := some (checksum _ (message ++ context))
  verify _ message context signature := signature = checksum _ (message ++ context)

theorem Primitives.plain_verify (key : VerificationKey) (message context : Bytes) :
    Primitives.plain.verify key message context (checksum mldsa87SigLen (message ++ context)) :=
  decide_eq_true rfl

/-! ## Operations -/

structure Pairing where
  /-- Whether anyone still holds the receiving end. -/
  inbox : Bool
  deriving DecidableEq, Repr

namespace Pairing

def channel : Pairing := ⟨true⟩

/-- No receiver: every request fails to queue, which is a rejection. -/
def refuseAll : Pairing := { channel with inbox := false }

end Pairing

inductive Io (A : Type) where
  | done (value : A)
  | failed
  | elapsed
  deriving DecidableEq, Repr

inductive Answer where
  | decided (accept : Bool)
  | dropped
  | elapsed
  deriving DecidableEq, Repr

inductive Op where
  | readKeys
  /-- `stream.write_all` and `stream.read_exact` under `TIMEOUT`. -/
  | write (bytes : Bytes)
  | read (size : Nat)
  | noise (role : Role) (psk : Block 32)
  /-- One message through the Noise transport, under a limit of seconds. -/
  | send (plaintext : Bytes) (secs : Nat)
  | receive (size : Nat) (secs : Nat)
  /-- Whether `HANDSHAKE_DEADLINE` has passed. -/
  | deadline
  | readPeers
  | savePeer (peer : TrustedPeer)
  | trySend (pairing : Pairing) (name : String) (code : PairingCode)
  | answer (secs : Nat)
  | notifySaved
  /-- Does nothing: the place where the other device has been identified. -/
  | identified (bothSaved : Bool)

abbrev wire : Program.Signature where
  Op := Op
  Reply
    | .readKeys => AuthKey × Salt
    | .write _ => Io Unit
    | .read size => Io (Block size)
    | .noise _ _ => Except AuthSnowErrors (StaticKey × HandshakeHash)
    | .send _ _ => Io Unit
    | .receive size _ => Io (Block size)
    | .deadline => Bool
    | .readPeers => List TrustedPeer
    | .savePeer _ => Except AuthSnowErrors Unit
    | .trySend _ _ _ => Bool
    | .answer _ => Answer
    | .notifySaved => Unit
    | .identified _ => Unit

/-- A part of authentication: it stops at its first error. -/
abbrev Exchange (A : Type) := Attempt wire AuthSnowErrors A

open Attempt

/-- The two ways a network operation fails, as errors. -/
def settle {A : Type} (io : Io A) (failed elapsed : AuthSnowErrors) : Exchange A :=
  match io with
  | .done value => pure value
  | .failed => throw failed
  | .elapsed => throw elapsed

def writeAll (bytes : Bytes) : Exchange Unit := do
  let io ← perform (I := wire) (.write bytes)
  settle io .failedToWriteToStream .writeTimeout

def readExact (size : Nat) : Exchange (Block size) := do
  let io ← perform (I := wire) (.read size)
  settle io .failedToReadFromStream .readTimeout

@[simp] theorem run_settle_done {A : Type} (value : A) (failed elapsed : AuthSnowErrors) :
    (settle (.done value) failed elapsed).run = .done (.ok value) := rfl

@[simp] theorem yields_settle {A : Type} (io : Io A) (failed elapsed : AuthSnowErrors) (events : List (Event wire))
    (value : A) : Yields (settle io failed elapsed) events value ↔ events = [] ∧ io = .done value := by
  cases io <;> simp [settle]

theorem traces_writeAll {bytes : Bytes} {events : List (Event wire)} {result : Except AuthSnowErrors Unit}
    (traced : (writeAll bytes).run.Traces events result) : ∃ io : Io Unit, events = [⟨.write bytes, io⟩] := by
  obtain ⟨io, rest, rfl, traced⟩ := traced
  cases io <;> exact ⟨_, by rw [traced.1]⟩

theorem traces_readExact {size : Nat} {events : List (Event wire)} {result : Except AuthSnowErrors (Block size)}
    (traced : (readExact size).run.Traces events result) : ∃ io : Io (Block size), events = [⟨.read size, io⟩] := by
  obtain ⟨io, rest, rfl, traced⟩ := traced
  cases io <;> exact ⟨_, by rw [traced.1]⟩

theorem yields_writeAll (bytes : Bytes) (events : List (Event wire)) (value : Unit) :
    Yields (writeAll bytes) events value ↔ events = [⟨.write bytes, Io.done ()⟩] := by
  refine (yields_perform_bind (I := wire) (.write bytes) _ _ _).trans ⟨?_, ?_⟩
  · rintro ⟨io, rest, rfl, settled⟩
    obtain ⟨rfl, rfl⟩ := (yields_settle io _ _ _ _).mp settled
    rfl
  · rintro rfl
    exact ⟨.done (), [], rfl, (yields_settle _ _ _ _ _).mpr ⟨rfl, rfl⟩⟩

theorem yields_readExact (size : Nat) (events : List (Event wire)) (block : Block size) :
    Yields (readExact size) events block ↔ events = [⟨.read size, Io.done block⟩] := by
  refine (yields_perform_bind (I := wire) (.read size) _ _ _).trans ⟨?_, ?_⟩
  · rintro ⟨io, rest, rfl, settled⟩
    obtain ⟨rfl, rfl⟩ := (yields_settle io _ _ _ _).mp settled
    rfl
  · rintro rfl
    exact ⟨.done block, [], rfl, (yields_settle _ _ _ _ _).mpr ⟨rfl, rfl⟩⟩

end Auth

end CesaConn
