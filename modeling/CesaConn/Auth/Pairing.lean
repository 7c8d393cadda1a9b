import CesaConn.Auth.Kex

/-! After Noise: who is on the other end, and whether to trust it.

The two devices tell each other whether they know the other and prove who they
are. If they do not both know each other, both users decide.
-/

set_option autoImplicit false

namespace CesaConn

open Format Program

namespace Auth

open Vault Attempt

variable (crypto : Primitives)

/-! ## The secure connection -/

/-- One tagged message, under a limit of seconds. A message too large for one is refused. -/
def sendSecure {size : Nat} (data : Block size) (tag : Tags) (secs : Nat) : Exchange Unit := do
  ensure (size ≤ secureMsgMaxPayload) .failedToWriteToSecureConnection
  let io ← perform (I := wire) (.send (tagged data tag.byte).toList secs)
  settle io .failedToWriteToSecureConnection .writeTimeout

def recvSecure (size : Nat) (tag : Tags) (secs : Nat) : Exchange (Block size) := do
  ensure (size + 1 ≤ secureMsgMaxPayload + 1) .failedToReadFromSecureConnection
  let io ← perform (I := wire) (.receive (size + 1) secs)
  let buffer ← settle io .failedToReadFromSecureConnection .readTimeout
  require (untag buffer tag.byte) .failedToReadFromSecureConnection

def readPeers : Exchange (List TrustedPeer) := perform (I := wire) .readPeers

def savePeer (peer : TrustedPeer) : Exchange Unit := do
  let result ← perform (I := wire) (.savePeer peer)
  ExceptT.mk (.done result)

/-! ## Identification -/

/-- Whether both devices know each other. The client sends first. -/
def exchangeIsSaved (role : Role) (weHavePeer : Bool) : Exchange Bool :=
  match role with
  | .client => do
      sendSecure (flag weHavePeer) .isSavedTag timeout
      let theirs ← recvSecure 1 .isSavedTag timeout
      return weHavePeer && isOne theirs
  | .server => do
      let theirs ← recvSecure 1 .isSavedTag timeout
      sendSecure (flag weHavePeer) .isSavedTag timeout
      return weHavePeer && isOne theirs

/-- A known device has to show the key it is known by; the signature is always
checked with the key that was received. -/
def verifyPeerSignature (receivedKey : VerificationKey) (signature : Signature) (storedKey : Option VerificationKey)
    (handshakeHash : HandshakeHash) (context : Bytes) : Exchange Unit := do
  ensure (storedKey.all fun stored => stored = receivedKey) .peerKeyMismatch
  ensure (crypto.verify receivedKey handshakeHash.toList context signature) .failedToVerifySignature

structure DeviceKeypairs where
  signingKey : crypto.SigningKey
  verificationKey : VerificationKey

variable {crypto} in
def sendIdentity (deviceKeypairs : DeviceKeypairs crypto) (signature : Signature) : Exchange Unit := do
  sendSecure deviceKeypairs.verificationKey .mldsa87VerificationKeyTag timeout
  sendSecure signature .mldsa87SignatureTag timeout

def recvIdentity : Exchange (VerificationKey × Signature) := do
  let peerKey ← recvSecure mldsa87VkLen .mldsa87VerificationKeyTag timeout
  let peerSignature ← recvSecure mldsa87SigLen .mldsa87SignatureTag timeout
  return (peerKey, peerSignature)

/-- The server proves itself only after the client has. -/
def exchangeSignatures (role : Role) (handshakeHash : HandshakeHash) (storedKey : Option VerificationKey)
    (deviceKeypairs : DeviceKeypairs crypto) (random : Option (Block 32)) : Exchange VerificationKey := do
  let random ← require random .failedToSignData
  let ourSignature ← require (crypto.sign deviceKeypairs.signingKey handshakeHash.toList role.ownContext random)
    .failedToSignData
  match role with
  | .client =>
      sendIdentity deviceKeypairs ourSignature
      let (peerKey, peerSignature) ← recvIdentity
      verifyPeerSignature crypto peerKey peerSignature storedKey handshakeHash role.peerContext
      return peerKey
  | .server =>
      let (peerKey, peerSignature) ← recvIdentity
      verifyPeerSignature crypto peerKey peerSignature storedKey handshakeHash role.peerContext
      sendIdentity deviceKeypairs ourSignature
      return peerKey

def lookup (peers : List TrustedPeer) (key : StaticKey) : Option TrustedPeer :=
  peers.find? fun device => device.x25519PubKey = key

/-- The peer, and whether both devices know each other. A stored device keeps its name. -/
def identifyPeer (role : Role) (name : String) (peerStatic : StaticKey) (handshakeHash : HandshakeHash)
    (deviceKeypairs : DeviceKeypairs crypto) (random : Option (Block 32)) : Exchange (TrustedPeer × Bool) := do
  let peers ← readPeers
  let storedPeer := lookup peers peerStatic
  let bothSaved ← exchangeIsSaved role storedPeer.isSome
  let peerKey ← exchangeSignatures crypto role handshakeHash (storedPeer.map TrustedPeer.mldsaVerificationKey)
    deviceKeypairs random
  return (⟨peerStatic, peerKey, storedPeer.elim name TrustedPeer.name⟩, bothSaved)

/-! ## Pairing -/

def pairingCodeLabel : Bytes := ascii "CesaConn-pairing-code"

/-- Six expanded bytes as a number, cut into eight symbols of six bits. -/
def pairingCode (handshakeHash : HandshakeHash) : Except AuthSnowErrors PairingCode :=
  match crypto.hkdf 6 handshakeHash.toList pairingCodeLabel with
  | none => .error .failedToExpandHkdf
  | some okm =>
      let bits := okm.toList.foldl (fun bits byte => bits * 256 + byte.toNat) 0
      .ok ⟨[42, 36, 30, 24, 18, 12, 6, 0].map fun shift => UInt8.ofNat ((bits >>> shift) &&& 0x3F), rfl⟩

/-- A full queue or a dropped request is a rejection, no answer in time an error. -/
def askUser (pairing : Pairing) (name : String) (handshakeHash : HandshakeHash) : Exchange Bool := do
  let code ← ExceptT.mk (.done (pairingCode crypto handshakeHash))
  let queued ← (perform (I := wire) (.trySend pairing name code) : Exchange Bool)
  if !queued then return false
  else
    let answer ← (perform (I := wire) (.answer pairingTimeout) : Exchange Answer)
    match answer with
    | .decided accept => return accept
    | .dropped => return false
    | .elapsed => throw .pairingTimeout

namespace Role

def acceptTag : Role → Tags
  | .client => .clientAcceptTag
  | .server => .serverAcceptTag

def peerRejected : Role → AuthSnowErrors
  | .client => .noServerConfirmation
  | .server => .noClientConfirmation

end Role

def accepts (asked : Except AuthSnowErrors Bool) : Bool := asked.toOption.getD false

/-- Our decision always goes out, also a rejection; the peer's user may still be deciding. -/
def confirmPairing (role : Role) (name : String) (handshakeHash : HandshakeHash) (pairing : Pairing) :
    Exchange Unit := do
  let asked ← outcome (askUser crypto pairing name handshakeHash)
  sendSecure (flag (accepts asked)) role.acceptTag timeout
  if !accepts asked then
    match asked with
    | .error error => throw error
    | .ok _ => throw .failedToPairNewDevice
  else
    let peerDecision ← recvSecure 1 role.other.acceptTag (pairingTimeout + timeout)
    ensure (isOne peerDecision) role.peerRejected

/-! ## Authentication -/

structure Identified where
  peer : TrustedPeer
  handshakeHash : HandshakeHash
  bothSaved : Bool
  deriving DecidableEq

structure Authenticated where
  peer : TrustedPeer
  newlyPaired : Bool
  deriving DecidableEq

def keyExchange (role : Role) (coins : Coins) (aKey : AuthKey) (aSalt : Salt) : Exchange (Option PskInput) :=
  match role with
  | .client => keyExchangeClient crypto coins aKey aSalt
  | .server => keyExchangeServer crypto coins aKey aSalt

/-- `handshake_server` and `handshake_client`: everything up to the verified signatures. -/
def handshake (role : Role) (name : String) (coins : Coins) (aKey : AuthKey) (aSalt : Salt)
    (deviceKeypairs : DeviceKeypairs crypto) : Exchange (Option Identified) := do
  match ← keyExchange crypto role coins aKey aSalt with
  | none => return none
  | some input =>
      let securePsk ← deriveSecurePsk crypto input
      let noise ← (perform (I := wire) (.noise role securePsk) :
        Exchange (Except AuthSnowErrors (StaticKey × HandshakeHash)))
      let (peerStatic, handshakeHash) ← ExceptT.mk (.done noise)
      let (peer, bothSaved) ← identifyPeer crypto role name peerStatic handshakeHash deviceKeypairs coins.signature
      return some ⟨peer, handshakeHash, bothSaved⟩

/-- `identified` is what the deadline left of the automatic part: nothing, or its result. -/
def finishAuth (identified : Option (Except AuthSnowErrors (Option Identified))) (role : Role) (name : String)
    (pairing : Pairing) : Exchange (Option Authenticated) :=
  match identified with
  | none => throw .handshakeTimeout
  | some (.error error) => throw error
  | some (.ok none) => return none
  | some (.ok (some ⟨peer, handshakeHash, bothSaved⟩)) =>
      if bothSaved then return some ⟨peer, false⟩
      else do
        -- full: refuse before asking the user, not after they said yes
        let peers ← readPeers
        ensure (peers.length < maxTrustedPeers) .failedToPairNewDevice
        confirmPairing crypto role name handshakeHash pairing
        savePeer peer
        let _ ← perform (I := wire) .notifySaved
        return some ⟨peer, true⟩

/-- `auth_incoming` and `auth_outgoing`: the automatic part under one deadline, then
pairing if it is needed. -/
def authenticate (role : Role) (name : String) (coins : Coins) (deviceKeypairs : DeviceKeypairs crypto)
    (pairing : Pairing) : Exchange (Option Authenticated) := do
  let keys ← (perform (I := wire) .readKeys : Exchange (AuthKey × Salt))
  let identified ← ExceptT.lift
    ((handshake crypto role name coins keys.1 keys.2 deviceKeypairs).run.limited (I := wire) .deadline id)
  finishAuth crypto identified role name pairing

def authIncoming (name : String) (coins : Coins) (deviceKeypairs : DeviceKeypairs crypto) (pairing : Pairing) :
    Exchange (Option Authenticated) :=
  authenticate crypto .server name coins deviceKeypairs pairing

def authOutgoing (name : String) (coins : Coins) (deviceKeypairs : DeviceKeypairs crypto) (pairing : Pairing) :
    Exchange (Option Authenticated) :=
  authenticate crypto .client name coins deviceKeypairs pairing

end Auth

end CesaConn
