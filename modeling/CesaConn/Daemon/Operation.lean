import CesaConn.Daemon.State

/-! The atomic sections of the daemon and what they do.

What the operating system decides is an outcome: a store call that fails or
whose task is lost leaves its store as it was, a bind may be refused, random
bytes and the time are whatever they are.
-/

set_option autoImplicit false

namespace CesaConn

open Format Program

namespace Daemon

open Vault

/-- The result of a blocking call: its task may be lost, or the call may fail. -/
inductive Call (E A : Type) where
  | lost
  | failed (error : E)
  | ok (value : A)

structure WindowClaim where
  generation : Nat
  dSalt : Salt

structure JoinClaim where
  resets : Nat
  identity : Identity
  generation : Nat

inductive Op where
  -- the change slot
  | acquire
  | release
  -- the operating system
  | random (size : Nat)
  | now
  | derive (password : Bytes) (salt : Salt)
  | keychainGet (item : Item)
  | keychainSet (item : Item) (bytes : Bytes)
  | keychainDelete (item : Item)
  | readFile
  | writeFile (bytes : Bytes)
  | deleteFile
  | bind
  -- keys
  | readKeys
  | writeKeys (change : KeySlots → KeySlots)
  | wipeKeys
  | saltFor (kind : KeyKind) (fresh : Option Salt)
  | bumpResets
  | readResets
  -- trusted peers
  | peerList
  | readPeers (list : Nat)
  | takePeers (list : Nat) (fingerprint : Block fingerprintLen)
  | putBack (list : Nat) (removed : List (Nat × TrustedPeer))
  | loadPeers (list : Nat) (peers : List TrustedPeer)
  | pushPeer (list : Nat) (peer : TrustedPeer)
  | savePeer (list : Nat) (peer : TrustedPeer)
  | newPeers
  | readBook
  | writeBook (change : PeerBook → PeerBook)
  -- networking
  | runningNetwork
  | newContext (keys : Keys) (identity : Identity)
  | publishNetwork (network : Network)
  | takeNetwork
  | setContextKeys (network : Nat) (keys : Keys)
  | listenerFails (network : Nat)
  -- invite windows
  | claimWindow
  | storeInvite (slot : InviteSlot)
  | offerSalt (slot : InviteSlot) (dSalt : Salt)
  | expireWindow (generation : Nat)
  | takeInvite (generation : Option Nat)
  | stopInvite
  /-- The rest of `end_invite(generation)` that took `slot`. -/
  | closeOffer (slot : InviteSlot) (generation : Option Nat)
  -- joins
  | beginJoin
  | claimJoin (generation : Nat)
  | takeJoin
  | endJoin (generation : Nat)
  -- prompts
  | loadAdding
  | joinRunning
  | pushPairing (request : PairingRequest)
  | clearPairings
  | clearPrompts
  | closeDecision (decision : Nat)

abbrev Reply : Op → Type
  | .random size => Option (Block size)
  | .now => Instant
  | .derive _ _ => Call Unit (Block 32)
  | .keychainGet _ => Call Unit (Option Bytes)
  | .keychainSet _ _ | .keychainDelete _ => Call Unit Unit
  | .readFile => Call VaultErrors (Option Bytes)
  | .writeFile _ | .deleteFile => Call VaultErrors Unit
  | .bind | .takeNetwork | .claimJoin _ | .loadAdding | .joinRunning => Bool
  | .readKeys => KeySlots
  | .saltFor _ _ => Option Salt
  | .readResets | .peerList => Nat
  | .readPeers _ => List TrustedPeer
  | .takePeers _ _ => List (Nat × TrustedPeer)
  | .savePeer _ _ => Except AuthSnowErrors Unit
  | .readBook => PeerBook
  | .runningNetwork => Option Network
  | .newContext _ _ => Network
  | .claimWindow => Except DaemonError (Option WindowClaim)
  | .takeInvite _ | .stopInvite => Option InviteSlot
  | .beginJoin => Except DaemonError JoinClaim
  | .takeJoin | .endJoin _ => Option Bool
  | _ => Unit

abbrev sections : Signature := ⟨Op, Reply⟩

abbrev Task (A : Type) := Proc sections A

def await (op : Op) : Task (Reply op) := .call op .done

@[simp] theorem await_bind {A : Type} (op : Op) (k : Reply op → Task A) : (await op >>= k) = .call op k := rfl

inductive Outcome where
  | done
  | lost
  | failed (error : VaultErrors)
  | drawn (bytes : Bytes)
  | at (instant : Instant)

def Outcome.call {E A : Type} (outcome : Outcome) (error : VaultErrors → E) (value : A) : Call E A :=
  match outcome with
  | .lost => .lost
  | .failed e => .failed (error e)
  | _ => .ok value

/-- A blocking call that writes: only a call that succeeds has changed its store. -/
def Outcome.write {E : Type} (outcome : Outcome) (error : VaultErrors → E) (state written : State) :
    Call E Unit × State :=
  match outcome with
  | .lost => (.lost, state)
  | .failed e => (.failed (error e), state)
  | _ => (.ok (), written)

/-- What the file functions of the vault fail with: they decrypt nothing. -/
def fileError : VaultErrors → VaultErrors
  | .tooLarge => .tooLarge
  | .crypto => .crypto
  | .insecureDirectory => .insecureDirectory
  | _ => .io

def KeySlots.fresh (keys : KeySlots) : Bool :=
  !keys.locked && keys.vault.isNone && keys.aKey.isNone && keys.dKey.isNone && keys.aSalt.isNone &&
    keys.dSalt.isNone

def KeySlots.salt (keys : KeySlots) : KeyKind → Option Salt
  | .auth => keys.aSalt
  | .data => keys.dSalt

def KeySlots.setSalt (keys : KeySlots) (salt : Salt) : KeyKind → KeySlots
  | .auth => { keys with aSalt := some salt }
  | .data => { keys with dSalt := some salt }

def State.setList (state : State) (list : Nat) (peers : List TrustedPeer) : State :=
  { state with lists := Function.update state.lists list peers }

def Outcome.random (outcome : Outcome) (size : Nat) : Option (Block size) :=
  match outcome with
  | .drawn bytes => toBlock size bytes
  | _ => none

def exec (setup : Setup) (task : Nat) : (op : Op) → Outcome → State → Option (Reply op × State)
  | .acquire, _, state => if state.turn = none then some ((), { state with turn := some task }) else none
  | .release, _, state => if state.turn = some task then some ((), { state with turn := none }) else none
  | .random size, outcome, state => some (outcome.random size, state)
  | .now, outcome, state =>
      let clock : Instant := match outcome with | .at instant => max state.clock instant | _ => state.clock
      some (clock, { state with clock })
  | .derive password salt, outcome, state =>
      match setup.crypto.deriveKey password salt with
      | some key => some (outcome.call (fun _ => ()) key, state)
      | none => some (.failed (), state)
  | .keychainGet item, outcome, state => some (outcome.call (fun _ => ()) (state.keychain item), state)
  | .keychainSet item bytes, outcome, state =>
      some (outcome.write (fun _ => ()) state
        { state with keychain := Function.update state.keychain item (some bytes) })
  | .keychainDelete item, outcome, state =>
      some (outcome.write (fun _ => ()) state
        { state with keychain := Function.update state.keychain item none })
  | .readFile, outcome, state => some (outcome.call fileError state.file, state)
  | .writeFile bytes, outcome, state => some (outcome.write fileError state { state with file := some bytes })
  | .deleteFile, outcome, state => some (outcome.write fileError state { state with file := none })
  | .bind, outcome, state => some (match outcome with | .failed _ => false | _ => true, state)
  | .readKeys, _, state => some (state.keys, state)
  | .writeKeys change, _, state => some ((), { state with keys := change state.keys })
  | .wipeKeys, _, state => some ((), { state with keys := {} })
  | .saltFor kind fresh, _, state =>
      match state.keys.salt kind with
      | some salt => some (some salt, state)
      | none =>
          match fresh with
          | some salt => some (some salt, { state with keys := state.keys.setSalt salt kind })
          | none => some (none, state)
  | .bumpResets, _, state => some ((), { state with resets := state.resets + 1 })
  | .readResets, _, state => some (state.resets, state)
  | .peerList, _, state => some (state.trustedPeers, state)
  | .readPeers list, _, state => some (state.lists list, state)
  | .takePeers list fingerprint, _, state =>
      let (removed, left) := CesaConn.takePeers (state.lists list) fingerprint
      some (removed, state.setList list left)
  | .putBack list removed, _, state =>
      some ((), state.setList list (CesaConn.putBack (state.lists list) removed))
  | .loadPeers list peers, _, state => some ((), state.setList list peers)
  | .pushPeer list peer, _, state => some ((), state.setList list (state.lists list ++ [peer]))
  | .savePeer list peer, _, state =>
      let (result, peers) := CesaConn.savePeer (state.lists list) peer
      some (result, state.setList list peers)
  | .newPeers, _, state =>
      some ((), { state.setList state.nextList [] with
        trustedPeers := state.nextList, nextList := state.nextList + 1 })
  | .readBook, _, state => some (state.peerBook, state)
  | .writeBook change, _, state => some ((), { state with peerBook := change state.peerBook })
  | .runningNetwork, _, state => some (state.runningNetwork, state)
  | .newContext keys identity, _, state =>
      some (⟨state.nextNetwork, identity, state.trustedPeers⟩, { state with
        nextNetwork := state.nextNetwork + 1
        contextKeys := Function.update state.contextKeys state.nextNetwork (some keys) })
  -- one write guard: a second start is undone, the first one closes any window
  | .publishNetwork network, _, state =>
      match state.runningNetwork with
      | some _ => some ((), state.cancel (.network network.number))
      | none => some ((), { state with network := some network, adding := false })
  | .takeNetwork, _, state =>
      match state.network with
      | none => some (false, state)
      | some network => some (true, { state.cancel (.network network.number) with network := none })
  | .setContextKeys network keys, _, state =>
      some ((), { state with contextKeys := Function.update state.contextKeys network (some keys) })
  | .listenerFails network, _, state => some ((), state.cancel (.network network))
  -- the salts, the discovery id, the flag and the generation, in one go
  | .claimWindow, outcome, state =>
      match state.keys.aSalt, state.keys.dSalt with
      | some _, some dSalt =>
          match outcome with
          | .failed _ => some (.error .internal, state)
          | _ =>
              if state.adding then some (.ok none, state)
              else some (.ok (some ⟨state.nextInvite, dSalt⟩), { state with
                adding := true, otherGroup := false, nextInvite := state.nextInvite + 1 })
      | _, _ => some (.error .networkOff, state)
  | .storeInvite slot, _, state => some ((), { state with invite := some slot })
  | .offerSalt slot dSalt, _, state =>
      some ((), { state with
        saltOffer := Function.update state.saltOffer slot.offer (some dSalt)
        windows := slot.generation :: state.windows })
  | .expireWindow generation, _, state => some ((), state.cancel (.window generation))
  | .takeInvite generation, _, state =>
      match state.invite with
      | none => some (none, state)
      | some slot =>
          if generation.any (· ≠ slot.generation) then some (none, state)
          else some (some slot, { state.cancel (.window slot.generation) with invite := none })
  -- `end_invite(None)` and the flag that `stop_network` clears after it
  | .stopInvite, _, state =>
      match state.invite with
      | none => some (none, { state with adding := false })
      | some slot => some (some slot, { state.cancel (.window slot.generation) with invite := none })
  | .closeOffer slot _, _, state =>
      some ((), { state with
        saltOffer := Function.update state.saltOffer slot.offer none, adding := false })
  | .beginJoin, outcome, state =>
      if !state.keys.fresh then some (.error .alreadyInGroup, state)
      else
        match outcome.random identitySeedLen with
        | none => some (.error .internal, state)
        | some identity =>
            some (.ok ⟨state.resets, identity, state.nextJoin⟩, { state with nextJoin := state.nextJoin + 1 })
  | .claimJoin generation, _, state =>
      if state.joinRunning then some (false, state)
      else some (true, { state with join := some ⟨generation⟩ })
  -- the slot is cleared and the flag is read before the next await
  | .takeJoin, _, state =>
      match state.join with
      | none => some (none, state)
      | some slot => some (some state.adding, { state.cancel (.join slot.generation) with join := none })
  | .endJoin generation, _, state =>
      if state.join = some ⟨generation⟩ then some (some state.adding, { state with join := none })
      else some (none, state)
  | .loadAdding, _, state => some (state.adding, state)
  | .joinRunning, _, state => some (state.joinRunning, state)
  | .pushPairing request, _, state =>
      let waiting := state.pairings.waiting.filter fun (_, request) => state.alive request
      if maxPendingPairings ≤ waiting.length then
        some ((), { state with pairings := { state.pairings with waiting } })
      else
        some ((), { state with pairings :=
          ⟨state.pairings.nextId + 1, waiting ++ [(state.pairings.nextId, request)]⟩ })
  | .clearPairings, _, state => some ((), { state with pairings := { state.pairings with waiting := [] } })
  -- a reset clears the other-group finding in the same section
  | .clearPrompts, _, state =>
      some ((), { state with pairings := { state.pairings with waiting := [] }, otherGroup := false })
  | .closeDecision decision, _, state =>
      some ((), { state with closed := Function.update state.closed decision true })

abbrev machine (setup : Setup) : Machine sections := ⟨State, Outcome, exec setup⟩

/-- Only the change slot makes a task wait; everything else goes through, whatever its outcome. -/
theorem exec_isSome (setup : Setup) (task : Nat) {op : Op} (outcome : Outcome) (state : State)
    (free : op ≠ .acquire ∧ op ≠ .release) : ((machine setup).exec task op outcome state).isSome := by
  cases op
  all_goals simp only [machine, exec]
  case acquire => exact absurd rfl free.1
  case release => exact absurd rfl free.2
  all_goals repeat' split
  all_goals rfl

end Daemon

end CesaConn
