import CesaConn.Daemon.Operation

/-! The daemon's asynchronous functions, as programs over its atomic sections.

A result of the source is an `Except`; every early return is a branch that ends.

A handler that is dropped in the middle, when its request has taken too long, is a
task that takes no more steps. Its pool is never quiet, so what is proved of quiet
pools does not cover it.
-/

set_option autoImplicit false

namespace CesaConn

open Format Program

namespace Daemon

open Vault

variable (setup : Setup)

/-! ## Helpers of the source -/

def minNewPasswordLen : Nat := 12
def freeUnlockAttempts : Nat := 5
def maxUnlockDelay : Nat := 60

def second : Instant := 10 ^ 9

/-- Seconds an unlock is refused after so many wrong passwords. -/
def unlockDelay (failures : Nat) : Nat :=
  let extra := failures - freeUnlockAttempts
  if failures < freeUnlockAttempts then 0
  else min (if extra < 64 then 2 ^ extra else 2 ^ 64 - 1) maxUnlockDelay

/-- Whole seconds left, rounded up, as a `u16`. -/
def waitSecs (notBefore : Option Instant) (now : Instant) : Nat :=
  let left := notBefore.elim 0 (· - now)
  min (left / second + if left % second = 0 then 0 else 1) (2 ^ 16 - 1)

/-- Characters of a password, bytes if it is not UTF-8. -/
def passwordChars (password : Bytes) : Nat := (fromUtf8 password).elim password.length String.length

def storageError : VaultErrors → DaemonError
  | .wrongKey => .wrongPassword
  | _ => .storageFailed

/-- `blocking(..).await?` with the call's own error mapped. -/
def Call.result {E A : Type} (error : E → DaemonError) : Call E A → Except DaemonError A
  | .lost => .error .internal
  | .failed e => .error (error e)
  | .ok value => .ok value

def Call.isOk {E A : Type} : Call E A → Bool
  | .ok _ => true
  | _ => false

def KeySlots.context (keys : KeySlots) : Option Keys := do
  let aKey ← keys.aKey
  let aSalt ← keys.aSalt
  let dKey ← keys.dKey
  return ⟨aKey, aSalt, dKey⟩

def KeySlots.wanted (keys : KeySlots) : Option Identity :=
  match keys.vault with
  | some vault =>
      if vault.config.sync ∧ !keys.locked ∧ keys.aKey.isSome ∧ keys.dKey.isSome then some vault.identity
      else none
  | none => none

def KeySlots.setKey (keys : KeySlots) (key : Block 32) : KeyKind → KeySlots
  | .auth => { keys with aKey := some key }
  | .data => { keys with dKey := some key }

def KeySlots.setConfig (config : Config) (keys : KeySlots) : KeySlots :=
  { keys with vault := keys.vault.map fun vault => { vault with config } }

def KeySlots.setWrapped (wrapped : WrappedDek) (keys : KeySlots) : KeySlots :=
  { keys with vault := keys.vault.map fun vault => { vault with wrapped } }

/-! ## Networking and windows -/

def endInvite (generation : Option Nat) : Task Bool := do
  match ← await (.takeInvite generation) with
  | none => return false
  | some slot =>
      await (.closeOffer slot generation)
      return true

def stopNetwork : Task Unit := do
  if ← await .takeNetwork then
    match ← await .stopInvite with
    | some slot => await (.closeOffer slot none)
    | none => pure ()
    await .clearPairings
  else return ()

def startNetwork (identity : Identity) : Task Unit := do
  let slots ← await .readKeys
  match slots.context with
  | none => return ()
  | some keys =>
      if ← await .bind then
        let network ← await (.newContext keys identity)
        await (.publishNetwork network)
      else return ()

def applyNetwork : Task Unit := do
  let slots ← await .readKeys
  let running ← await .runningNetwork
  match slots.wanted, running with
  | some identity, none => startNetwork identity
  | none, some _ => stopNetwork
  | _, _ => return ()

def updateNetworkKeys : Task Unit := do
  let slots ← await .readKeys
  match slots.context with
  | none => return ()
  | some keys =>
      let running ← await .runningNetwork
      await (.writeBook PeerBook.keysChanged)
      match running with
      | some network => await (.setContextKeys network.number keys)
      | none => return ()

def openInvite : Task (Except DaemonError (Option Nat)) := do
  match ← await .runningNetwork with
  | none => return .error .networkOff
  | some network =>
      match ← await .claimWindow with
      | .error e => return .error e
      | .ok none => return .ok none
      | .ok (some claim) =>
          await (.storeInvite ⟨claim.generation, network.number⟩)
          -- the salt query's port; without it members can still pair
          let _ ← await .bind
          await (.offerSalt ⟨claim.generation, network.number⟩ claim.dSalt)
          return .ok (some claim.generation)

def addDevice : Task (Except DaemonError Unit) := do
  match ← openInvite with
  | .error e => return .error e
  | .ok _ => return .ok ()

def windowEnds (generation : Nat) : Task Unit := do
  let _ ← endInvite (some generation)

/-- The window's time is over: its token is cancelled and its task ends it. -/
def windowExpires (generation : Nat) : Task Unit := do
  await (.expireWindow generation)
  windowEnds generation

def stopAddDevice : Task Unit := do
  if ← endInvite none then
    if ← await .joinRunning then return ()
    else await .clearPairings
  else return ()

/-- What a member answers a device that asks for the group salt. -/
def sendGroupSalt (newlyPaired : Bool) (offer : Option Salt) : Option Salt := offer.filter fun _ => newlyPaired

/-! ## Prompts and joins -/

def queuePairing (request : PairingRequest) : Task Unit := do
  if ← await .loadAdding then await (.pushPairing request)
  else if ← await .joinRunning then await (.pushPairing request)
  else return ()

def finishJoin (adding : Bool) : Task Unit := do
  if adding then return ()
  else if ← await .joinRunning then return ()
  else await .clearPairings

def cancelJoin : Task Unit := do
  match ← await .takeJoin with
  | some adding => finishJoin adding
  | none => return ()

def endJoin (generation : Nat) : Task Unit := do
  match ← await (.endJoin generation) with
  | some adding => finishJoin adding
  | none => return ()

/-- Starts a join; its own task is not part of the call. -/
def joinGroup : Task (Except DaemonError JoinClaim) := do
  if !setup.storage then return .error .notSaved
  else
    match ← await .beginJoin with
    | .error e => return .error e
    | .ok claim =>
        if ← await (.claimJoin claim.generation) then return .ok claim
        else return .error .joinRunning

/-! ## Handshakes -/

/-- What a handshake on `list` does to it: a peer that is read there keeps its
name, a new one is called by its address, and a pairing saves it. -/
def pairDevice (list : Nat) (key : StaticKey) (verificationKey : VerificationKey) (addr : SocketAddr) :
    Task (Except AuthSnowErrors Unit) := do
  let peers ← await (.readPeers list)
  let stored := peers.find? fun peer => peer.x25519PubKey = key
  await (.savePeer list ⟨key, verificationKey, stored.elim addr.toString TrustedPeer.name⟩)

/-! ## Saving -/

def trustedCopy : Task (List TrustedPeer) := do
  let list ← await .peerList
  await (.readPeers list)

def encodedPeers : Task (Except DaemonError Bytes) := do
  let peers ← trustedCopy
  match encodePeers peers with
  | some bytes => return .ok bytes
  | none => return .error .storageFailed

def encodedAddresses : Task Bytes := do
  let peers ← trustedCopy
  let book ← await .readBook
  return book.encode peers

def derive (password : Bytes) (salt : Salt) : Task (Except DaemonError (Block 32)) := do
  return (← await (.derive password salt)).result fun _ => .keyDerivationFailed

def reseal (config : Option Config) : Task (Except DaemonError Unit) := do
  if !setup.storage then return .error .notSaved
  else
    match ← encodedPeers with
    | .error e => return .error e
    | .ok peers =>
        let addresses ← encodedAddresses
        let nonce ← await (.random 12)
        let slots ← await .readKeys
        match slots.vault, slots.aKey, slots.aSalt with
        | some vault, some aKey, some aSalt =>
            match sealVault setup.crypto.aead nonce vault.wrapped vault.dek
              ⟨aKey, aSalt, (config.getD vault.config).encode addresses, vault.identity, peers⟩ with
            | .error e => return .error (storageError e)
            | .ok file => return (← await (.writeFile file)).result storageError
        | _, _, _ => return .error .notSaved

def changedKey (kind : KeyKind) (key : Block 32) (nonce : Option (Block 12)) (vault : OpenVault)
    (aKey : AuthKey) : Except VaultErrors (AuthKey × WrappedDek) :=
  match kind with
  | .auth => .ok (key, vault.wrapped)
  | .data => do
      let kek ← deriveKek setup.crypto key vault.storageSalt
      let wrapped ← wrapDek setup.crypto.aead nonce kek vault.dek
      return (aKey, wrapped)

def saveChangedKey (kind : KeyKind) (key : Block 32) : Task (Except DaemonError Unit) := do
  if !setup.storage then return .ok ()
  else
    match ← encodedPeers with
    | .error e => return .error e
    | .ok peers =>
        let addresses ← encodedAddresses
        let wrapNonce ← await (.random 12)
        let nonce ← await (.random 12)
        let slots ← await .readKeys
        match slots.vault, slots.aKey, slots.aSalt with
        | some vault, some aKey, some aSalt =>
            match changedKey setup kind key wrapNonce vault aKey with
            | .error e => return .error (storageError e)
            | .ok (aKey, wrapped) =>
                match sealVault setup.crypto.aead nonce wrapped vault.dek
                  ⟨aKey, aSalt, vault.config.encode addresses, vault.identity, peers⟩ with
                | .error e => return .error (storageError e)
                | .ok file =>
                    match (← await (.writeFile file)).result storageError with
                    | .error e => return .error e
                    | .ok () =>
                        match kind with
                        | .auth => return .ok ()
                        | .data =>
                            await (.writeKeys (KeySlots.setWrapped wrapped))
                            if slots.autoLogin then
                              if (← await (.keychainSet .dataKey key.toList)).isOk then return .ok ()
                              else
                                -- the old keychain key no longer opens the vault
                                let _ ← await (.keychainDelete .dataKey)
                                await (.writeKeys fun keys => { keys with autoLogin := false })
                                return .ok ()
                            else return .ok ()
        | _, _, _ => return .error .internal

structure Prepared where
  salts : Salts
  file : Bytes
  vault : OpenVault

/-- Everything a new vault consists of; the arguments that may be missing are drawn. -/
def prepareVault (aKey : AuthKey) (aSalt : Salt) (dKey : DataKey) (dSalt : Salt) (config : Config)
    (addresses peers : Bytes) (storageSalt : Option Salt) (dek : Option Dek) (identity : Option Identity)
    (wrapNonce nonce : Option (Block 12)) : Except VaultErrors Prepared := do
  let storageSalt ← okOr storageSalt .crypto
  let dek ← okOr dek .crypto
  let kek ← deriveKek setup.crypto dKey storageSalt
  let wrapped ← wrapDek setup.crypto.aead wrapNonce kek dek
  let identity ← okOr identity .crypto
  let file ← sealVault setup.crypto.aead nonce wrapped dek ⟨aKey, aSalt, config.encode addresses, identity, peers⟩
  return ⟨⟨dSalt, storageSalt⟩, file, ⟨dek, wrapped, storageSalt, config, identity⟩⟩

def createVault (identity : Option Identity) (config : Config) : Task Unit := do
  if !setup.storage then return ()
  else
    let slots ← await .readKeys
    match slots.aKey, slots.aSalt, slots.dKey, slots.dSalt with
    | some aKey, some aSalt, some dKey, some dSalt =>
        match ← encodedPeers with
        | .error _ => return ()
        | .ok peers =>
            let addresses ← encodedAddresses
            let storageSalt ← await (.random 32)
            let dek ← await (.random 32)
            let wrapNonce ← await (.random 12)
            let seed ← await (.random identitySeedLen)
            let nonce ← await (.random 12)
            match prepareVault setup aKey aSalt dKey dSalt config addresses peers storageSalt dek
              (identity.or seed) wrapNonce nonce with
            | .error _ => return ()
            | .ok prepared =>
                -- without the salts the file cannot be opened: they go first
                if (← await (.keychainSet .salts prepared.salts.toBytes)).isOk then
                  if (← await (.writeFile prepared.file)).isOk then
                    await (.writeKeys fun keys => { keys with vault := some prepared.vault })
                  else return ()
                else return ()
    | _, _, _, _ => return ()

/-! ## State changes -/

def setPassword (kind : KeyKind) (password : Bytes) : Task (Except DaemonError Unit) := do
  if passwordChars password < minNewPasswordLen then return .error .weakPassword
  else
    let slots ← await .readKeys
    if slots.locked then return .error .locked
    else
      let fresh ← await (.random 32)
      match ← await (.saltFor kind fresh) with
      | none => return .error .internal
      | some salt =>
          match ← derive password salt with
          | .error e => return .error e
          | .ok key =>
              let slots ← await .readKeys
              match ← (if slots.vault.isSome then saveChangedKey setup kind key else pure (.ok ())) with
              | .error e => return .error e
              | .ok () =>
                  await (.writeKeys fun keys => keys.setKey key kind)
                  updateNetworkKeys
                  let slots ← await .readKeys
                  if slots.vault.isNone then
                    createVault setup none {}
                    return .ok ()
                  else return .ok ()

def unlockWith (dKey : DataKey) : Task (Except DaemonError Unit) := do
  if !setup.storage then return .error .notSaved
  else
    match ← await (.keychainGet .salts) with
    | .lost => return .error .internal
    | .ok (some bytes) =>
        match Salts.fromBytes bytes with
        | none => return .error .storageFailed
        | some salts =>
            match (← await .readFile).result storageError with
            | .error e => return .error e
            | .ok none => return .error .notSaved
            | .ok (some file) =>
                match deriveKek setup.crypto dKey salts.storageSalt with
                | .error e => return .error (storageError e)
                | .ok kek =>
                    match openVault setup.crypto.aead kek file with
                    | .error e => return .error (storageError e)
                    | .ok opened =>
                        match decodePeers opened.contents.peers with
                        | none => return .error .storageFailed
                        | some peers =>
                            match Config.decode opened.contents.config with
                            | none => return .error .storageFailed
                            | some (config, addresses) =>
                                let list ← await .peerList
                                await (.loadPeers list peers)
                                await (.writeBook fun _ => PeerBook.load addresses)
                                await (.writeKeys fun keys => { keys with
                                  aKey := some opened.contents.aKey
                                  aSalt := some opened.contents.aSalt
                                  dKey := some dKey
                                  dSalt := some salts.dSalt
                                  vault := some ⟨opened.dek, opened.wrapped, salts.storageSalt, config,
                                    opened.contents.identity⟩
                                  locked := false })
                                return .ok ()
    | _ => return .error .storageFailed

/-- The rest of `start` once a saved vault was found and the daemon is locked. -/
def autoLogin : Task Unit := do
  match ← await (.keychainGet .dataKey) with
  | .ok (some bytes) =>
      await (.writeKeys fun keys => { keys with autoLogin := true })
      match toBlock 32 bytes with
      | none => return ()
      | some dKey =>
          match ← unlockWith setup dKey with
          | .ok () => applyNetwork
          | .error .wrongPassword =>
              -- a stale key that no longer opens the vault
              if (← await (.keychainDelete .dataKey)).isOk then
                await (.writeKeys fun keys => { keys with autoLogin := false })
              else return ()
          | .error _ => return ()
  | _ => return ()

/-- Looks for a saved vault; a file that cannot be read counts as one. -/
def start : Task Unit := do
  if !setup.storage then return ()
  else
    match ← await .readFile with
    | .ok none => return ()
    | _ =>
        await (.writeKeys fun keys => { keys with locked := true })
        autoLogin setup

def countUnlock (result : Except DaemonError Unit) (now : Instant) (keys : KeySlots) : KeySlots :=
  match result with
  | .ok () => { keys with unlockFailures := 0, unlockNotBefore := none }
  | .error .wrongPassword =>
      let failures := min (keys.unlockFailures + 1) (2 ^ 32 - 1)
      { keys with unlockFailures := failures, unlockNotBefore := some (now + unlockDelay failures * second) }
  | .error _ => keys

def unlock (password : Bytes) : Task (Except DaemonError Unit) := do
  if !setup.storage then return .error .notSaved
  else
    let slots ← await .readKeys
    let now ← await .now
    if !slots.locked then
      return .error (if slots.vault.isSome then .badRequest else .notSaved)
    else if 0 < waitSecs slots.unlockNotBefore now then return .error .unlockDelayed
    else
      match ← await (.keychainGet .salts) with
      | .lost => return .error .internal
      | .ok (some bytes) =>
          match Salts.fromBytes bytes with
          | none => return .error .storageFailed
          | some salts =>
              match ← derive password salts.dSalt with
              | .error e => return .error e
              | .ok dKey =>
                  let result ← unlockWith setup dKey
                  let now ← await .now
                  await (.writeKeys (countUnlock result now))
                  return result
      | _ => return .error .storageFailed

def setAutoLogin (on : Bool) : Task (Except DaemonError Unit) := do
  if !setup.storage then return .error .notSaved
  else
    let slots ← await .readKeys
    if slots.locked then return .error .locked
    else if slots.vault.isNone then return .error .notSaved
    else
      match slots.dKey with
      | none => return .error .notSaved
      | some dKey =>
          let result ← (if on then await (.keychainSet .dataKey dKey.toList) else await (.keychainDelete .dataKey))
          match result.result fun _ => .storageFailed with
          | .error e => return .error e
          | .ok () =>
              await (.writeKeys fun keys => { keys with autoLogin := on })
              return .ok ()

def savedConfig : Task (Except DaemonError Config) := do
  let slots ← await .readKeys
  if slots.locked then return .error .locked
  else
    match slots.vault with
    | some vault => return .ok vault.config
    | none => return .error .notSaved

def saveConfig (config : Config) : Task (Except DaemonError Unit) := do
  match ← reseal setup (some config) with
  | .error e => return .error e
  | .ok () =>
      await (.writeKeys (KeySlots.setConfig config))
      return .ok ()

def setSync (on : Bool) : Task (Except DaemonError Unit) := do
  match ← savedConfig with
  | .error e => return .error e
  | .ok config => saveConfig setup { config with sync := on }

def setClipboard (on : Bool) : Task (Except DaemonError Unit) := do
  if on && !setup.clipboard then return .error .clipboardUnavailable
  else
    match ← savedConfig with
    | .error e => return .error e
    | .ok config => saveConfig setup { config with clipboard := on }

def removePeers : List (Nat × TrustedPeer) → Task Unit
  | [] => return ()
  | (_, peer) :: rest => do
      await (.writeBook fun book => book.remove peer)
      removePeers rest

def forgetPeer (fingerprint : Block fingerprintLen) : Task (Except DaemonError Unit) := do
  let slots ← await .readKeys
  if slots.locked then return .error .locked
  else
    let list ← await .peerList
    let removed ← await (.takePeers list fingerprint)
    if removed.isEmpty then return .error .unknownPeer
    else
      let slots ← await .readKeys
      match ← (if slots.vault.isSome then reseal setup none else pure (.ok ())) with
      | .error e =>
          await (.putBack list removed)
          return .error e
      | .ok () =>
          removePeers removed
          return .ok ()

def resetDevice : Task (Except DaemonError Unit) := do
  await .bumpResets
  cancelJoin
  stopNetwork
  match ← (if setup.storage then do return (← await .deleteFile).result storageError else pure (.ok ())) with
  | .error e => return .error e
  | .ok () =>
      await .wipeKeys
      await .newPeers
      await (.writeBook fun _ => .empty)
      await .clearPrompts
      if setup.storage then
        if (← await (.keychainDelete .salts)).isOk then
          if (← await (.keychainDelete .dataKey)).isOk then return .ok ()
          else return .error .storageFailed
        else return .error .storageFailed
      else return .ok ()

inductive Request where
  | setAuthPassword (password : Bytes)
  | setDataPassword (password : Bytes)
  | unlock (password : Bytes)
  | setAutoLogin (on : Bool)
  | setSync (on : Bool)
  | setClipboard (on : Bool)
  | forgetPeer (fingerprint : Block fingerprintLen)
  | resetDevice

def performRequest : Request → Task (Except DaemonError Unit)
  | .setAuthPassword password => setPassword setup .auth password
  | .setDataPassword password => setPassword setup .data password
  | .unlock password => unlock setup password
  | .setAutoLogin on => setAutoLogin setup on
  | .setSync on => setSync setup on
  | .setClipboard on => setClipboard setup on
  | .forgetPeer fingerprint => forgetPeer setup fingerprint
  | .resetDevice => resetDevice setup

/-- A state change under the change slot; networking follows it. -/
def change (request : Request) : Task Unit := do
  await .acquire
  let _ ← performRequest setup request
  applyNetwork
  await .release

def savePeers : Task Unit := do
  await .acquire
  let slots ← await .readKeys
  if slots.vault.isNone then await .release
  else
    let _ ← reseal setup none
    await .release

structure Joined where
  aKey : AuthKey
  aSalt : Salt
  dKey : DataKey
  dSalt : Salt
  peer : TrustedPeer
  addr : SocketAddr

def commitJoin (joined : Joined) (identity : Identity) (resets : Nat) : Task (Except DaemonError Unit) := do
  await .acquire
  if (← await .readResets) ≠ resets then
    await .release
    return .error .internal
  else
    let slots ← await .readKeys
    if !slots.fresh then
      await .release
      return .error .alreadyInGroup
    else
      await (.writeKeys fun keys => { keys with
        aKey := some joined.aKey, aSalt := some joined.aSalt, dKey := some joined.dKey, dSalt := some joined.dSalt })
      await (.writeBook fun book => book.seen joined.peer joined.addr)
      let list ← await .peerList
      await (.pushPeer list joined.peer)
      createVault setup (some identity) { sync := true, clipboard := false }
      let slots ← await .readKeys
      await .release
      applyNetwork
      return if slots.vault.isSome then .ok () else .error .storageFailed

end Daemon

end CesaConn
