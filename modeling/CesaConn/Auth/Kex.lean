import CesaConn.Auth.Wire

/-! The conversation before Noise: SPAKE2, its confirmation, X25519 and ML-KEM.

Every function takes the transcript so far and returns it with its own messages,
in the order in which the source appends them. What a failed exchange wrote to
its transcript is dropped with it.
-/

set_option autoImplicit false

namespace CesaConn

open Format Program

namespace Auth

open Vault Attempt

variable (crypto : Primitives)

/-! ## SPAKE2 -/

def clientIdentity : Bytes := ascii "CesaConn-client"
def serverIdentity : Bytes := ascii "CesaConn-server"

def identity (label : Bytes) (aSalt : Salt) : Bytes := label ++ aSalt.toList

def confirmClientToServer : Bytes := ascii "CPQHA-confirm-client-to-server"
def confirmServerToClient : Bytes := ascii "CPQHA-confirm-server-to-client"

def startClient (seed : Bytes) (aKey : AuthKey) (aSalt : Salt) :
    crypto.spake2.Pending × Block crypto.spake2.messageLen :=
  crypto.spake2.startA seed aKey.toList (identity clientIdentity aSalt) (identity serverIdentity aSalt)

def startServer (seed : Bytes) (aKey : AuthKey) (aSalt : Salt) :
    crypto.spake2.Pending × Block crypto.spake2.messageLen :=
  crypto.spake2.startB seed aKey.toList (identity clientIdentity aSalt) (identity serverIdentity aSalt)

def spake2ExchangeServer (seed : Bytes) (aKey : AuthKey) (aSalt : Salt) (transcript : Bytes) :
    Exchange (Bytes × Bytes) := do
  let pending := (startServer crypto seed aKey aSalt).1
  let outbound := tagged (startServer crypto seed aKey aSalt).2 KexTags.outboundMsg.byte
  writeAll outbound.toList
  let inbound ← readExact (crypto.spake2.messageLen + 1)
  let message ← require (untag inbound KexTags.outboundMsg.byte) .wrongTag
  let key1 ← require (crypto.spake2.finish pending message) .failedToFinishSpake2Exchange
  return (key1, transcript ++ (inbound.toList ++ outbound.toList))

def spake2ExchangeClient (seed : Bytes) (aKey : AuthKey) (aSalt : Salt) (transcript : Bytes) :
    Exchange (Bytes × Bytes) := do
  let pending := (startClient crypto seed aKey aSalt).1
  let outbound := tagged (startClient crypto seed aKey aSalt).2 KexTags.outboundMsg.byte
  writeAll outbound.toList
  let inbound ← readExact (crypto.spake2.messageLen + 1)
  let message ← require (untag inbound KexTags.outboundMsg.byte) .wrongTag
  let key1 ← require (crypto.spake2.finish pending message) .failedToFinishSpake2Exchange
  return (key1, transcript ++ (outbound.toList ++ inbound.toList))

/-- The client proves first; a wrong value ends the exchange without an answer. -/
def spake2ConfirmMutualAuthServer (key1 : Bytes) (transcript : Bytes) : Exchange (Bool × Bytes) := do
  let confirmExpect ← require (crypto.hkdf 32 key1 confirmClientToServer) .failedToExpandHkdf
  let confirmReceived ← readExact 32
  if confirmExpect ≠ confirmReceived then return (false, transcript)
  else
    let confirmSend ← require (crypto.hkdf 32 key1 confirmServerToClient) .failedToExpandHkdf
    writeAll confirmSend.toList
    return (true, transcript ++ (confirmReceived.toList ++ confirmSend.toList))

def spake2ConfirmMutualAuthClient (key1 : Bytes) (transcript : Bytes) : Exchange (Bool × Bytes) := do
  let confirmSend ← require (crypto.hkdf 32 key1 confirmClientToServer) .failedToExpandHkdf
  let confirmExpect ← require (crypto.hkdf 32 key1 confirmServerToClient) .failedToExpandHkdf
  writeAll confirmSend.toList
  let confirmReceived ← readExact 32
  if confirmExpect ≠ confirmReceived then return (false, transcript)
  else return (true, transcript ++ (confirmSend.toList ++ confirmReceived.toList))

/-! ## Hybrid key exchange -/

structure HybridKep where
  x25519Ss : SsKey
  mlkemSs : SsKey
  deriving DecidableEq

def recvConfirm (transcript : Bytes) : Exchange Bytes := do
  let confirm ← readExact 2
  let accepted ← require (untag confirm KexTags.confirmByte.byte) .wrongTag
  ensure (isOne accepted) .failedToConfirmKex
  return transcript ++ confirm.toList

def sendConfirm (accepted : Bool) (transcript : Bytes) : Exchange Bytes := do
  let confirm := tagged (flag accepted) KexTags.confirmByte.byte
  writeAll confirm.toList
  return transcript ++ confirm.toList

def x25519KexServer (random : Option (Block 32)) (transcript : Bytes) : Exchange (SsKey × Bytes) := do
  let privateKey ← require random .failedToGenerateRandomData
  let x25519Pub := tagged (crypto.calculatePublicKey privateKey) KexTags.x25519Pub.byte
  let x25519Recv ← readExact (32 + 1)
  let theirs ← require (untag x25519Recv KexTags.x25519Pub.byte) .wrongTag
  let x25519Ss ← require (crypto.calculateSharedKey privateKey theirs) .failedToCalculateSharedSecret
  writeAll x25519Pub.toList
  let transcript ← recvConfirm (transcript ++ (x25519Recv.toList ++ x25519Pub.toList))
  return (x25519Ss, transcript)

/-- A low-order point is refused with an explicit no before the exchange fails. -/
def x25519KexClient (random : Option (Block 32)) (transcript : Bytes) : Exchange (SsKey × Bytes) := do
  let privateKey ← require random .failedToGenerateRandomData
  let x25519Pub := tagged (crypto.calculatePublicKey privateKey) KexTags.x25519Pub.byte
  writeAll x25519Pub.toList
  let x25519Recv ← readExact (32 + 1)
  let theirs ← require (untag x25519Recv KexTags.x25519Pub.byte) .wrongTag
  let shared := crypto.calculateSharedKey privateKey theirs
  let transcript ← sendConfirm shared.isSome (transcript ++ (x25519Pub.toList ++ x25519Recv.toList))
  let x25519Ss ← require shared .failedToCalculateSharedSecret
  return (x25519Ss, transcript)

def mlkemKexServer (random : Option (Block 32)) (transcript : Bytes) : Exchange (SsKey × Bytes) := do
  let mlKeyRecv ← readExact (mlkem1024PublicKeyLen + 1)
  let publicKey ← require (untag mlKeyRecv KexTags.mlKeyPub.byte) .wrongTag
  ensure (crypto.validatePublicKey publicKey) .mlKemInvalidPublicKey
  let random ← require random .failedToGenerateRandomData
  let ciphertext := tagged (crypto.encapsulate publicKey random).1 KexTags.mlKeyPub.byte
  writeAll ciphertext.toList
  let transcript ← recvConfirm (transcript ++ (mlKeyRecv.toList ++ ciphertext.toList))
  return ((crypto.encapsulate publicKey random).2, transcript)

def mlkemKexClient (random : Option (Block 64)) (transcript : Bytes) : Exchange (SsKey × Bytes) := do
  let random ← require random .failedToGenerateRandomData
  let keyPair := crypto.generateKeyPair random
  let mlKeyPub := tagged keyPair.publicKey KexTags.mlKeyPub.byte
  writeAll mlKeyPub.toList
  let ciphertextRecv ← readExact (mlkem1024CiphertextLen + 1)
  let ciphertext ← require (untag ciphertextRecv KexTags.mlKeyPub.byte) .wrongTag
  let transcript ← sendConfirm true (transcript ++ (mlKeyPub.toList ++ ciphertextRecv.toList))
  return (crypto.decapsulate keyPair.privateKey ciphertext, transcript)

structure Coins where
  spake2 : Bytes
  x25519 : Option (Block 32)
  /-- Of the client's ML-KEM key pair, and of the server's encapsulation. -/
  keyPair : Option (Block 64)
  encapsulation : Option (Block 32)
  signature : Option (Block 32)

variable (coins : Coins)

def hybridKexServer (transcript : Bytes) : Exchange (HybridKep × Bytes) := do
  let (x25519Ss, transcript) ← mapError (fun _ => .kexFailed) (x25519KexServer crypto coins.x25519 transcript)
  let (mlkemSs, transcript) ← mapError (fun _ => .kexFailed) (mlkemKexServer crypto coins.encapsulation transcript)
  return (⟨x25519Ss, mlkemSs⟩, transcript)

def hybridKexClient (transcript : Bytes) : Exchange (HybridKep × Bytes) := do
  let (x25519Ss, transcript) ← mapError (fun _ => .kexFailed) (x25519KexClient crypto coins.x25519 transcript)
  let (mlkemSs, transcript) ← mapError (fun _ => .kexFailed) (mlkemKexClient crypto coins.keyPair transcript)
  return (⟨x25519Ss, mlkemSs⟩, transcript)

/-! ## The key Noise starts from -/

structure PskInput where
  key1 : Bytes
  hybridKep : HybridKep
  transcript : Bytes
  deriving DecidableEq

def pskLabel : Bytes := ascii "CPQHA-psk"

/-- The bytes fed to the derivation: both key exchanges, SPAKE2 and the transcript's hash. -/
def PskInput.material (input : PskInput) (transcriptHash : Block 32) : Bytes :=
  input.key1 ++ (input.hybridKep.x25519Ss.toList ++ (input.hybridKep.mlkemSs.toList ++ transcriptHash.toList))

def deriveSecurePsk (input : PskInput) : Exchange (Block 32) := do
  let transcriptHash ← require (crypto.hkdf 32 input.transcript []) .failedToExpandHkdf
  require (crypto.hkdf 32 (input.material transcriptHash) pskLabel) .failedToExpandHkdf

/-- Everything up to `derive_secure_psk`; `none` if the peer failed SPAKE2 confirmation. -/
def keyExchangeServer (aKey : AuthKey) (aSalt : Salt) : Exchange (Option PskInput) := do
  let (key1, transcript) ← mapError (fun _ => .failedToExchangeSpake2)
    (spake2ExchangeServer crypto coins.spake2 aKey aSalt [])
  let (confirmed, transcript) ← mapError (fun _ => .failedToConfirmMutualAuthSpake2)
    (spake2ConfirmMutualAuthServer crypto key1 transcript)
  if !confirmed then return none
  else
    let (hybridKep, transcript) ← mapError (fun _ => .kexFailed) (hybridKexServer crypto coins transcript)
    return some ⟨key1, hybridKep, transcript⟩

def keyExchangeClient (aKey : AuthKey) (aSalt : Salt) : Exchange (Option PskInput) := do
  let (key1, transcript) ← mapError (fun _ => .failedToExchangeSpake2)
    (spake2ExchangeClient crypto coins.spake2 aKey aSalt [])
  let (confirmed, transcript) ← mapError (fun _ => .failedToConfirmMutualAuthSpake2)
    (spake2ConfirmMutualAuthClient crypto key1 transcript)
  if !confirmed then return none
  else
    let (hybridKep, transcript) ← mapError (fun _ => .kexFailed) (hybridKexClient crypto coins transcript)
    return some ⟨key1, hybridKep, transcript⟩

end Auth

end CesaConn
