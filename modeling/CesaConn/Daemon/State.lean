import CesaConn.Peers.PeerBook
import CesaConn.Program.Pool
import CesaConn.Storage.Vault

/-! What the daemon owns, and its atomic sections.

One operation is everything the daemon does between two awaits: what a lock is
taken for, the blocking call that is waited on, the atomic flags touched before
the next await. Two sections of the source that nothing separates are one
operation here.

A shared cell is named by a number: a trusted-peer list by its handle, a
network (its token, its keys and its salt offer) by its number, an invite
window and a join by their generations. Counters of such events are unbounded.
-/

set_option autoImplicit false

namespace CesaConn

open Format Program

namespace Daemon

open Vault

/-! ## Settings -/

def configVersion1 : UInt8 := 0x01
def configVersion : UInt8 := 0x02
def configSync : UInt8 := 0b1
def configClipboard : UInt8 := 0b10

structure Config where
  sync : Bool := false
  clipboard : Bool := false
  deriving DecidableEq, Repr

def Config.flags (config : Config) : UInt8 :=
  (if config.sync then configSync else 0) ||| (if config.clipboard then configClipboard else 0)

def Config.encode (config : Config) (addresses : Bytes) : Bytes :=
  configVersion :: config.flags :: addresses

def Config.decode (bytes : Bytes) : Option (Config × PeerBook.SavedAddrs) :=
  match bytes with
  | [] => some ({}, .empty)
  | version :: flags :: addresses =>
      if version = configVersion1 ∧ addresses = [] ∧ flags &&& ~~~configSync = 0 then
        some ({ sync := flags &&& configSync ≠ 0 }, .empty)
      else if version = configVersion ∧ flags &&& ~~~(configSync ||| configClipboard) = 0 then
        (PeerBook.decode addresses).map fun saved =>
          ({ sync := flags &&& configSync ≠ 0, clipboard := flags &&& configClipboard ≠ 0 }, saved)
      else none
  | _ => none

theorem Config.decode_encode (config : Config) {addresses : Bytes} {saved : PeerBook.SavedAddrs}
    (read : PeerBook.decode addresses = some saved) :
    decode (config.encode addresses) = some (config, saved) := by
  obtain ⟨sync, clipboard⟩ := config
  have known : ∀ sync clipboard : Bool,
      (Config.mk sync clipboard).flags &&& ~~~(configSync ||| configClipboard) = 0 := by decide
  have syncFlag : ∀ sync clipboard : Bool,
      decide ((Config.mk sync clipboard).flags &&& configSync ≠ 0) = sync := by decide
  have clipboardFlag : ∀ sync clipboard : Bool,
      decide ((Config.mk sync clipboard).flags &&& configClipboard ≠ 0) = clipboard := by decide
  have other : configVersion ≠ configVersion1 := by decide
  simp only [encode, decode, other, false_and, ↓reduceIte, known, and_self, read, Option.map_some,
    syncFlag, clipboardFlag]

/-! ## Keys and the open vault -/

structure OpenVault where
  dek : Dek
  wrapped : WrappedDek
  storageSalt : Salt
  config : Config
  identity : Identity
  deriving DecidableEq

structure KeySlots where
  aKey : Option AuthKey := none
  dKey : Option DataKey := none
  aSalt : Option Salt := none
  dSalt : Option Salt := none
  vault : Option OpenVault := none
  locked : Bool := false
  autoLogin : Bool := false
  unlockFailures : Nat := 0
  unlockNotBefore : Option Instant := none
  deriving DecidableEq

inductive KeyKind where
  | auth
  | data
  deriving DecidableEq, Repr

/-- What a network shares with its connections. -/
structure Keys where
  aKey : AuthKey
  aSalt : Salt
  dKey : DataKey
  deriving DecidableEq

inductive DaemonError where
  | badRequest
  | keyDerivationFailed
  | internal
  | wrongPassword
  | locked
  | storageFailed
  | notSaved
  | weakPassword
  | unlockDelayed
  | networkOff
  | pairingExpired
  | alreadyInGroup
  | joinRunning
  | unknownPeer
  | clipboardUnavailable
  deriving DecidableEq, Repr

/-! ## Networking, windows, joins and prompts -/

inductive Token where
  | network (number : Nat)
  | window (generation : Nat)
  | join (generation : Nat)
  deriving DecidableEq, Repr

structure Network where
  number : Nat
  identity : Identity
  trustedPeers : Nat
  deriving DecidableEq

/-- An open invite window; `offer` is the network whose offer it set. -/
structure InviteSlot where
  generation : Nat
  offer : Nat
  deriving DecidableEq, Repr

structure JoinSlot where
  generation : Nat
  deriving DecidableEq, Repr

abbrev PairingCode := Block 8

/-- `decision` is the handshake's end of the answer. -/
structure PairingRequest where
  name : String
  code : PairingCode
  decision : Nat
  deriving DecidableEq

def maxPendingPairings : Nat := 4

structure PendingPairings where
  nextId : UInt32 := 0
  waiting : List (UInt32 × PairingRequest) := []
  deriving DecidableEq

inductive Item where
  | salts
  | dataKey
  deriving DecidableEq, Repr

/-- The daemon's shared state, with the file and the keychain it saves to. -/
structure State where
  keys : KeySlots
  file : Option Bytes
  keychain : Item → Option Bytes
  clock : Instant
  /-- The task that holds the change slot. -/
  turn : Option Nat
  resets : Nat
  trustedPeers : Nat
  lists : Nat → List TrustedPeer
  nextList : Nat
  peerBook : PeerBook
  network : Option Network
  nextNetwork : Nat
  contextKeys : Nat → Option Keys
  saltOffer : Nat → Option Salt
  cancelled : Token → Bool
  pairings : PendingPairings
  /-- Handshakes that stopped waiting for their answer. -/
  closed : Nat → Bool
  adding : Bool
  otherGroup : Bool
  invite : Option InviteSlot
  nextInvite : Nat
  /-- Windows whose own task was spawned. -/
  windows : List Nat
  join : Option JoinSlot
  nextJoin : Nat

structure Setup where
  crypto : Crypto
  /-- Whether the daemon saves anything. -/
  storage : Bool
  /-- Whether there is an OS clipboard. -/
  clipboard : Bool

def new (file : Option Bytes) (keychain : Item → Option Bytes) : State where
  keys := {}
  file := file
  keychain := keychain
  clock := 0
  turn := none
  resets := 0
  trustedPeers := 0
  lists _ := []
  nextList := 1
  peerBook := .empty
  network := none
  nextNetwork := 0
  contextKeys _ := none
  saltOffer _ := none
  cancelled _ := false
  pairings := {}
  closed _ := false
  adding := false
  otherGroup := false
  invite := none
  nextInvite := 0
  windows := []
  join := none
  nextJoin := 0

/-! ## A concrete device -/

def plainSetup : Setup := ⟨.plain, true, true⟩

def openVaultKeys : KeySlots where
  aKey := some (.replicate 32 1)
  dKey := some (.replicate 32 2)
  aSalt := some (.replicate 32 3)
  dSalt := some (.replicate 32 4)
  vault := some ⟨.replicate 32 5, .replicate wrapLen 6, .replicate 32 7, {}, .replicate identitySeedLen 8⟩

def unpaired : State := { new (some []) (fun _ => none) with keys := openVaultKeys }

def phoneKey : StaticKey := .replicate 32 9

def phoneAddr : SocketAddr := .v4 (.replicate 4 10) 3232

/-! ## What is read off the state -/

def Network.running (network : Network) (cancelled : Token → Bool) : Bool :=
  !cancelled (.network network.number)

def JoinSlot.running (slot : JoinSlot) (cancelled : Token → Bool) : Bool :=
  !cancelled (.join slot.generation)

def State.runningNetwork (state : State) : Option Network :=
  state.network.filter fun network => network.running state.cancelled

def State.joinRunning (state : State) : Bool :=
  state.join.any fun slot => slot.running state.cancelled

def State.cancel (state : State) (token : Token) : State :=
  { state with cancelled := Function.update state.cancelled token true }

def State.alive (state : State) (request : PairingRequest) : Bool := !state.closed request.decision

end Daemon

end CesaConn
