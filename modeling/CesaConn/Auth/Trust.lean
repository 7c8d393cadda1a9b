import CesaConn.Auth.Pairing
import CesaConn.Auth.Transcript

/-! Whom a device trusts.

The account of a connection is what mattered on it: the Noise result, the lists
that were read, the messages that came in, the requests that reached the user
and the user's answers. Whatever the other side sends and whatever happens to
the list meanwhile, the account of a successful authentication is one of two.
-/

set_option autoImplicit false

namespace CesaConn

open Format Program

namespace Auth

open Vault Attempt

/-! ## Accounts -/

structure Account where
  noise : List (StaticKey × HandshakeHash) := []
  lists : List (List TrustedPeer) := []
  /-- Every message received, its tag apart. -/
  heard : List (UInt8 × Bytes) := []
  requests : List (Pairing × String × PairingCode) := []
  answers : List Answer := []

instance : Append Account where
  append first second := ⟨first.noise ++ second.noise, first.lists ++ second.lists, first.heard ++ second.heard,
    first.requests ++ second.requests, first.answers ++ second.answers⟩

namespace Event

def noise : Event wire → Option (StaticKey × HandshakeHash)
  | ⟨.noise _ _, .ok found⟩ => some found
  | _ => none

def list : Event wire → Option (List TrustedPeer)
  | ⟨.readPeers, peers⟩ => some peers
  | _ => none

def heard : Event wire → Option (UInt8 × Bytes)
  | ⟨.receive _ _, .done packet⟩ => packet.toList.getLast?.map fun tag => (tag, packet.toList.dropLast)
  | _ => none

def request : Event wire → Option (Pairing × String × PairingCode)
  | ⟨.trySend pairing name code, true⟩ => some (pairing, name, code)
  | _ => none

def answer : Event wire → Option Answer
  | ⟨.answer _, answer⟩ => some answer
  | _ => none

end Event

def account (events : List (Event wire)) : Account where
  noise := events.filterMap Event.noise
  lists := events.filterMap Event.list
  heard := events.filterMap Event.heard
  requests := events.filterMap Event.request
  answers := events.filterMap Event.answer

theorem account_append (first second : List (Event wire)) : account (first ++ second) = account first ++ account second := by
  simp only [account, List.filterMap_append]
  rfl

theorem account_cons (event : Event wire) (events : List (Event wire)) :
    account (event :: events) = account [event] ++ account events :=
  account_append [event] events

@[simp] theorem empty_append (account : Account) : ({} : Account) ++ account = account := rfl

@[simp] theorem append_empty (account : Account) : account ++ ({} : Account) = account := by
  obtain ⟨_, _, _, _, _⟩ := account
  show Account.mk _ _ _ _ _ = _
  simp

def Op.raw : Op → Bool
  | .write _ => true
  | .read _ => true
  | _ => false

theorem account_raw {events : List (Event wire)} (raw : ∀ event ∈ events, event.op.raw) : account events = {} := by
  induction events with
  | nil => rfl
  | cons event rest ih =>
      have first : account [event] = {} := by
        obtain ⟨op, reply⟩ := event
        have holds : op.raw := raw ⟨op, reply⟩ (by simp)
        cases op with
        | write _ => rfl
        | read _ => rfl
        | _ => cases holds
      rw [account_cons, first, ih fun other member => raw other (by simp [member])]
      rfl

/-! ## What the parts do -/

@[simp] theorem account_received {size : Nat} (payload : Block size) (tag : UInt8) (secs : Nat) :
    account [⟨.receive (size + 1) secs, Io.done (tagged payload tag)⟩] = { heard := [(tag, payload.toList)] } := by
  simp [account, Event.noise, Event.list, Event.heard, Event.request, Event.answer]

theorem account_sendSecure {size : Nat} {data : Block size} {tag : Tags} {secs : Nat} {events : List (Event wire)}
    {value : Unit} (yields : Yields (sendSecure data tag secs) events value) : account events = {} := by
  simp only [sendSecure, yields_bind, yields_ensure] at yields
  obtain ⟨_, _, _, rfl, ⟨rfl, -⟩, _, _, io, rfl, performed, settled⟩ := yields
  obtain ⟨rfl, rfl⟩ := (yields_settle io _ _ _ _).mp settled
  obtain rfl := (yields_perform (I := wire) (.send _ _) _ _).mp performed
  rfl

theorem account_recvSecure {size : Nat} {tag : Tags} {secs : Nat} {events : List (Event wire)} {payload : Block size}
    (yields : Yields (recvSecure size tag secs) events payload) :
    account events = { heard := [(tag.byte, payload.toList)] } := by
  simp only [recvSecure, yields_bind, yields_ensure, yields_require, untag_eq_some] at yields
  obtain ⟨_, _, _, rfl, ⟨rfl, -⟩, _, _, io, rfl, performed, _, _, _, rfl, settled, rfl, rfl⟩ := yields
  obtain ⟨rfl, rfl⟩ := (yields_settle io _ _ _ _).mp settled
  obtain rfl := (yields_perform (I := wire) (.receive _ _) _ _).mp performed
  exact account_received payload tag.byte secs

theorem account_exchangeIsSaved {role : Role} {weHavePeer bothSaved : Bool} {events : List (Event wire)}
    (yields : Yields (exchangeIsSaved role weHavePeer) events bothSaved) :
    ∃ theirs : Block 1, bothSaved = (weHavePeer && isOne theirs) ∧
      account events = { heard := [(Tags.isSavedTag.byte, theirs.toList)] } := by
  cases role with
  | client =>
      simp only [exchangeIsSaved, yields_bind, yields_pure] at yields
      obtain ⟨_, _, _, rfl, out, _, _, theirs, rfl, into, rfl, rfl⟩ := yields
      refine ⟨theirs, rfl, ?_⟩
      simp [account_append, account_sendSecure out, account_recvSecure into]
  | server =>
      simp only [exchangeIsSaved, yields_bind, yields_pure] at yields
      obtain ⟨_, _, theirs, rfl, into, _, _, _, rfl, out, rfl, rfl⟩ := yields
      refine ⟨theirs, rfl, ?_⟩
      simp [account_append, account_sendSecure out, account_recvSecure into]

variable {crypto : Primitives} {deviceKeypairs : DeviceKeypairs crypto}

theorem account_sendIdentity {signature : Signature} {events : List (Event wire)} {value : Unit}
    (yields : Yields (sendIdentity deviceKeypairs signature) events value) : account events = {} := by
  simp only [sendIdentity, yields_bind] at yields
  obtain ⟨_, _, _, rfl, key, sign⟩ := yields
  simp [account_append, account_sendSecure key, account_sendSecure sign]

theorem account_recvIdentity {key : VerificationKey} {signature : Signature} {events : List (Event wire)}
    (yields : Yields recvIdentity events (key, signature)) :
    account events = { heard := [(Tags.mldsa87VerificationKeyTag.byte, key.toList),
      (Tags.mldsa87SignatureTag.byte, signature.toList)] } := by
  simp only [recvIdentity, yields_bind, yields_pure, Prod.mk.injEq] at yields
  obtain ⟨_, _, _, rfl, into, _, _, _, rfl, into', rfl, rfl, rfl⟩ := yields
  simp only [account_append, account_recvSecure into, account_recvSecure into']
  rfl

theorem verified {key : VerificationKey} {signature : Signature} {stored : Option VerificationKey} {hash : HandshakeHash}
    {context : Bytes} {events : List (Event wire)} {value : Unit}
    (yields : Yields (verifyPeerSignature crypto key signature stored hash context) events value) :
    events = [] ∧ crypto.verify key hash.toList context signature ∧ ∀ known, stored = some known → known = key := by
  simp only [verifyPeerSignature, yields_bind, yields_ensure] at yields
  obtain ⟨_, _, _, rfl, ⟨rfl, same⟩, rfl, signed⟩ := yields
  refine ⟨rfl, signed, ?_⟩
  rintro known rfl
  simpa using same

theorem account_exchangeSignatures {role : Role} {hash : HandshakeHash} {stored : Option VerificationKey}
    {random : Option (Block 32)} {key : VerificationKey} {events : List (Event wire)}
    (yields : Yields (exchangeSignatures crypto role hash stored deviceKeypairs random) events key) :
    ∃ signature, crypto.verify key hash.toList role.peerContext signature ∧
      (∀ known, stored = some known → known = key) ∧
      account events = { heard := [(Tags.mldsa87VerificationKeyTag.byte, key.toList),
        (Tags.mldsa87SignatureTag.byte, signature.toList)] } := by
  simp only [exchangeSignatures, yields_bind, yields_require] at yields
  obtain ⟨_, _, _, rfl, ⟨rfl, -⟩, _, _, _, rfl, ⟨rfl, -⟩, exchanged⟩ := yields
  cases role with
  | client =>
      simp only [yields_bind, yields_pure] at exchanged
      obtain ⟨_, _, _, rfl, out, _, _, ⟨peerKey, signature⟩, rfl, into, _, _, _, rfl, checked, rfl, rfl⟩ := exchanged
      obtain ⟨rfl, signed, same⟩ := verified checked
      refine ⟨signature, signed, same, ?_⟩
      simp [account_append, account_sendIdentity out, account_recvIdentity into]
  | server =>
      simp only [yields_bind, yields_pure] at exchanged
      obtain ⟨_, _, ⟨peerKey, signature⟩, rfl, into, _, _, _, rfl, checked, _, _, _, rfl, out, rfl, rfl⟩ := exchanged
      obtain ⟨rfl, signed, same⟩ := verified checked
      refine ⟨signature, signed, same, ?_⟩
      simp [account_append, account_sendIdentity out, account_recvIdentity into]

def identification (saved : Bytes) (peer : TrustedPeer) (signature : Signature) : List (UInt8 × Bytes) :=
  [(Tags.isSavedTag.byte, saved), (Tags.mldsa87VerificationKeyTag.byte, peer.mldsaVerificationKey.toList),
    (Tags.mldsa87SignatureTag.byte, signature.toList)]

theorem account_identifyPeer {role : Role} {name : String} {peerStatic : StaticKey} {hash : HandshakeHash}
    {random : Option (Block 32)} {peer : TrustedPeer} {bothSaved : Bool} {events : List (Event wire)}
    (yields : Yields (identifyPeer crypto role name peerStatic hash deviceKeypairs random) events (peer, bothSaved)) :
    ∃ known theirs signature, peer.x25519PubKey = peerStatic ∧
      crypto.verify peer.mldsaVerificationKey hash.toList role.peerContext signature ∧
      (∀ stored, lookup known peerStatic = some stored → stored.mldsaVerificationKey = peer.mldsaVerificationKey) ∧
      bothSaved = ((lookup known peerStatic).isSome && isOne theirs) ∧
      account events = { lists := [known], heard := identification theirs.toList peer signature } := by
  simp only [identifyPeer, yields_bind, yields_pure, Prod.mk.injEq] at yields
  obtain ⟨_, _, known, rfl, read, _, _, _, rfl, saved, _, _, _, rfl, signatures, rfl, rfl, rfl⟩ := yields
  obtain rfl := (yields_perform (I := wire) .readPeers _ _).mp read
  obtain ⟨theirs, rfl, heard⟩ := account_exchangeIsSaved saved
  obtain ⟨signature, signed, same, heard'⟩ := account_exchangeSignatures signatures
  refine ⟨known, theirs, signature, rfl, signed, fun stored found => same _ (by rw [found]; rfl), rfl, ?_⟩
  simp only [account_append, heard, heard']
  rfl

theorem account_askUser {pairing : Pairing} {name : String} {hash : HandshakeHash} {events : List (Event wire)}
    (yields : Yields (askUser crypto pairing name hash) events true) :
    ∃ code, pairingCode crypto hash = .ok code ∧
      account events = { requests := [(pairing, name, code)], answers := [.decided true] } := by
  simp only [askUser, yields_bind] at yields
  obtain ⟨_, _, code, rfl, ⟨rfl, coded⟩, _, _, queued, rfl, sent, decided⟩ := yields
  obtain rfl := (yields_perform (I := wire) (.trySend _ _ _) _ _).mp sent
  refine ⟨code, coded, ?_⟩
  cases queued with
  | false => simp at decided
  | true =>
      simp only [Bool.not_true, Bool.false_eq_true, if_false, yields_bind] at decided
      obtain ⟨_, _, answer, rfl, waited, settled⟩ := decided
      obtain rfl := (yields_perform (I := wire) (.answer _) _ _).mp waited
      cases answer with
      | decided accept =>
          obtain ⟨rfl, same⟩ := (yields_pure _ _ _).mp settled
          cases same
          rfl
      | dropped => simp at settled
      | elapsed => simp at settled

theorem account_confirmPairing {role : Role} {name : String} {hash : HandshakeHash} {pairing : Pairing}
    {events : List (Event wire)} {value : Unit}
    (yields : Yields (confirmPairing crypto role name hash pairing) events value) :
    ∃ code, pairingCode crypto hash = .ok code ∧
      account events = {
        heard := [(role.other.acceptTag.byte, [0x01])]
        requests := [(pairing, name, code)]
        answers := [.decided true] } := by
  simp only [confirmPairing, yields_bind, yields_outcome] at yields
  obtain ⟨_, _, asked, rfl, asks, _, _, _, rfl, out, decided⟩ := yields
  cases accepted : accepts asked with
  | false =>
      simp only [accepted, Bool.not_false, if_true] at decided
      cases asked with
      | error error => simp at decided
      | ok accept => simp at decided
  | true =>
      simp only [accepted, Bool.not_true, Bool.false_eq_true, if_false, yields_bind, yields_ensure] at decided
      obtain ⟨_, _, theirs, rfl, into, rfl, one⟩ := decided
      have yes : asked = .ok true := by
        cases asked with
        | error error => cases accepted
        | ok accept => exact congrArg _ accepted
      subst yes
      obtain ⟨code, coded, user⟩ := account_askUser asks
      refine ⟨code, coded, ?_⟩
      simp only [account_append, user, account_sendSecure out, account_recvSecure into, toList_of_isOne one]
      rfl

/-! ## What the parts cannot do -/

section

variable {P : Op → Prop}

theorem all_settle {A : Type} (io : Io A) (failed elapsed : AuthSnowErrors) : All P (settle io failed elapsed) := by
  cases io <;> trivial

theorem all_writeAll {bytes : Bytes} (holds : P (.write bytes)) : All P (writeAll bytes) :=
  all_bind (all_perform (I := wire) holds) fun _ => all_settle _ _ _

theorem all_readExact {size : Nat} (holds : P (.read size)) : All P (readExact size) :=
  all_bind (all_perform (I := wire) holds) fun _ => all_settle _ _ _

theorem all_sendSecure {size : Nat} {data : Block size} {tag : Tags} {secs : Nat}
    (holds : ∀ plaintext, P (.send plaintext secs)) : All P (sendSecure data tag secs) :=
  all_bind (all_ensure _ _) fun _ => all_bind (all_perform (I := wire) (holds _)) fun _ => all_settle _ _ _

theorem all_recvSecure {size : Nat} {tag : Tags} {secs : Nat} (holds : ∀ size, P (.receive size secs)) :
    All P (recvSecure size tag secs) :=
  all_bind (all_ensure _ _) fun _ => all_bind (all_perform (I := wire) (holds _)) fun _ =>
    all_bind (all_settle _ _ _) fun _ => all_require _ _

end

section

variable (coins : Coins) (transcript : Bytes)

abbrev Raw {A : Type} (x : Exchange A) : Prop := All (fun op : Op => op.raw) x

theorem raw_writeAll (bytes : Bytes) : Raw (writeAll bytes) := all_writeAll rfl

theorem raw_readExact (size : Nat) : Raw (readExact size) := all_readExact rfl

theorem raw_sendConfirm (accepted : Bool) : Raw (sendConfirm accepted transcript) :=
  all_bind (raw_writeAll _) fun _ => all_pure _

theorem raw_recvConfirm : Raw (recvConfirm transcript) :=
  all_bind (raw_readExact _) fun _ => all_bind (all_require _ _) fun _ => all_bind (all_ensure _ _) fun _ => all_pure _

theorem raw_spake2Exchange (seed : Bytes) (aKey : AuthKey) (aSalt : Salt) :
    Raw (spake2ExchangeClient crypto seed aKey aSalt transcript) ∧
      Raw (spake2ExchangeServer crypto seed aKey aSalt transcript) := by
  constructor <;>
  · refine all_bind (raw_writeAll _) fun _ => all_bind (raw_readExact _) fun _ => ?_
    exact all_bind (all_require _ _) fun _ => all_bind (all_require _ _) fun _ => all_pure _

theorem raw_spake2ConfirmMutualAuthServer (key1 : Bytes) : Raw (spake2ConfirmMutualAuthServer crypto key1 transcript) := by
  refine all_bind (all_require _ _) fun _ => all_bind (raw_readExact _) fun _ => ?_
  split
  · exact all_pure _
  · exact all_bind (all_require _ _) fun _ => all_bind (raw_writeAll _) fun _ => all_pure _

theorem raw_spake2ConfirmMutualAuthClient (key1 : Bytes) : Raw (spake2ConfirmMutualAuthClient crypto key1 transcript) := by
  refine all_bind (all_require _ _) fun _ => all_bind (all_require _ _) fun _ => ?_
  refine all_bind (raw_writeAll _) fun _ => all_bind (raw_readExact _) fun _ => ?_
  split <;> exact all_pure _

theorem raw_x25519KexServer (random : Option (Block 32)) : Raw (x25519KexServer crypto random transcript) := by
  refine all_bind (all_require _ _) fun _ => all_bind (raw_readExact _) fun _ => ?_
  refine all_bind (all_require _ _) fun _ => all_bind (all_require _ _) fun _ => ?_
  exact all_bind (raw_writeAll _) fun _ => all_bind (raw_recvConfirm _) fun _ => all_pure _

theorem raw_x25519KexClient (random : Option (Block 32)) : Raw (x25519KexClient crypto random transcript) := by
  refine all_bind (all_require _ _) fun _ => all_bind (raw_writeAll _) fun _ => ?_
  refine all_bind (raw_readExact _) fun _ => all_bind (all_require _ _) fun _ => ?_
  exact all_bind (raw_sendConfirm _ _) fun _ => all_bind (all_require _ _) fun _ => all_pure _

theorem raw_mlkemKexServer (random : Option (Block 32)) : Raw (mlkemKexServer crypto random transcript) := by
  refine all_bind (raw_readExact _) fun _ => all_bind (all_require _ _) fun _ => ?_
  refine all_bind (all_ensure _ _) fun _ => all_bind (all_require _ _) fun _ => ?_
  exact all_bind (raw_writeAll _) fun _ => all_bind (raw_recvConfirm _) fun _ => all_pure _

theorem raw_mlkemKexClient (random : Option (Block 64)) : Raw (mlkemKexClient crypto random transcript) := by
  refine all_bind (all_require _ _) fun _ => all_bind (raw_writeAll _) fun _ => ?_
  refine all_bind (raw_readExact _) fun _ => all_bind (all_require _ _) fun _ => ?_
  exact all_bind (raw_sendConfirm _ _) fun _ => all_pure _

theorem raw_hybridKexServer : Raw (hybridKexServer crypto coins transcript) :=
  all_bind (all_mapError (raw_x25519KexServer _ _)) fun _ =>
    all_bind (all_mapError (raw_mlkemKexServer _ _)) fun _ => all_pure _

theorem raw_hybridKexClient : Raw (hybridKexClient crypto coins transcript) :=
  all_bind (all_mapError (raw_x25519KexClient _ _)) fun _ =>
    all_bind (all_mapError (raw_mlkemKexClient _ _)) fun _ => all_pure _

theorem raw_keyExchange (role : Role) (aKey : AuthKey) (aSalt : Salt) :
    Raw (keyExchange crypto role coins aKey aSalt) := by
  cases role with
  | client =>
      refine all_bind (all_mapError (raw_spake2Exchange _ _ _ _).1) fun _ => ?_
      refine all_bind (all_mapError (raw_spake2ConfirmMutualAuthClient _ _)) ?_
      rintro ⟨_ | _, _⟩
      · exact all_pure _
      · exact all_bind (all_mapError (raw_hybridKexClient _ _)) fun _ => all_pure _
  | server =>
      refine all_bind (all_mapError (raw_spake2Exchange _ _ _ _).2) fun _ => ?_
      refine all_bind (all_mapError (raw_spake2ConfirmMutualAuthServer _ _)) ?_
      rintro ⟨_ | _, _⟩
      · exact all_pure _
      · exact all_bind (all_mapError (raw_hybridKexServer _ _)) fun _ => all_pure _

end

/-! ## What authentication does -/

variable {role : Role} {name : String} {coins : Coins} {pairing : Pairing}

/-- What an identified device has shown: a signature over this handshake with the
other role's context, by the key it is stored with if it is known. -/
structure Shown (crypto : Primitives) (role : Role) (identified : Identified) (known : List TrustedPeer) (theirs : Block 1)
    (signature : Signature) : Prop where
  signed : crypto.verify identified.peer.mldsaVerificationKey identified.handshakeHash.toList role.peerContext signature
  stored : ∀ entry, lookup known identified.peer.x25519PubKey = some entry →
    entry.mldsaVerificationKey = identified.peer.mldsaVerificationKey
  both : identified.bothSaved = ((lookup known identified.peer.x25519PubKey).isSome && isOne theirs)

theorem account_handshake {aKey : AuthKey} {aSalt : Salt} {identified : Identified} {events : List (Event wire)}
    (yields : Yields (handshake crypto role name coins aKey aSalt deviceKeypairs) events (some identified)) :
    ∃ known theirs signature, Shown crypto role identified known theirs signature ∧
      account events = {
        noise := [(identified.peer.x25519PubKey, identified.handshakeHash)]
        lists := [known]
        heard := identification theirs.toList identified.peer signature } := by
  rw [handshake, yields_bind] at yields
  obtain ⟨first, _, exchanged, rfl, exchange, later⟩ := yields
  have silent := account_raw (exchange.all (raw_keyExchange coins role aKey aSalt))
  cases exchanged with
  | none => simp at later
  | some input =>
      simp only [yields_bind, yields_pure, Option.some.injEq, deriveSecurePsk, yields_require] at later
      obtain ⟨_, _, psk, rfl, ⟨_, _, _, rfl, ⟨rfl, -⟩, rfl, -⟩, _, _, found, rfl, noise, _, _, ⟨peerStatic, hash⟩, rfl,
        ⟨rfl, agreed⟩, _, _, ⟨peer, bothSaved⟩, rfl, identifies, rfl, rfl⟩ := later
      obtain rfl := (yields_perform (I := wire) (.noise role psk) _ _).mp noise
      cases agreed
      obtain ⟨known, theirs, signature, rfl, signed, stored, both, rest⟩ := account_identifyPeer identifies
      refine ⟨known, theirs, signature, ⟨signed, stored, both⟩, ?_⟩
      simp only [account_append, silent, rest]
      rfl

def pairingAccount (role : Role) (pairing : Pairing) (name : String) (later : List TrustedPeer) (code : PairingCode) :
    Account where
  lists := [later]
  heard := [(role.other.acceptTag.byte, [0x01])]
  requests := [(pairing, name, code)]
  answers := [.decided true]

theorem account_finishAuth {result : Option (Except AuthSnowErrors (Option Identified))} {authenticated : Authenticated}
    {events : List (Event wire)} (yields : Yields (finishAuth crypto result role name pairing) events (some authenticated)) :
    ∃ identified, result = some (.ok (some identified)) ∧ authenticated = ⟨identified.peer, !identified.bothSaved⟩ ∧
      if identified.bothSaved then events = []
      else ∃ later code, pairingCode crypto identified.handshakeHash = .ok code ∧
        account events = pairingAccount role pairing name later code := by
  match result with
  | none => simp [finishAuth] at yields
  | some (.error error) => simp [finishAuth] at yields
  | some (.ok none) => simp [finishAuth] at yields
  | some (.ok (some ⟨peer, hash, true⟩)) =>
      simp only [finishAuth, if_true, yields_pure, Option.some.injEq] at yields
      obtain ⟨rfl, rfl⟩ := yields
      exact ⟨_, rfl, rfl, rfl⟩
  | some (.ok (some ⟨peer, hash, false⟩)) =>
      simp only [finishAuth, Bool.false_eq_true, if_false, yields_bind, yields_pure, yields_ensure, savePeer,
        Option.some.injEq] at yields
      obtain ⟨_, _, later, rfl, read, _, _, _, rfl, ⟨rfl, -⟩, _, _, _, rfl, confirm, _, _, _, rfl,
        ⟨_, _, saved, rfl, save, rfl, -⟩, _, _, _, rfl, notify, rfl, rfl⟩ := yields
      obtain rfl := (yields_perform (I := wire) .readPeers _ _).mp read
      obtain rfl := (yields_perform (I := wire) (.savePeer peer) _ _).mp save
      obtain rfl := (yields_perform (I := wire) .notifySaved _ _).mp notify
      obtain ⟨code, coded, user⟩ := account_confirmPairing confirm
      refine ⟨_, rfl, rfl, ?_⟩
      simp only [Bool.false_eq_true, if_false]
      refine ⟨later, code, coded, ?_⟩
      simp only [account_append, user]
      rfl

theorem account_limited {A : Type} {p : Proc wire A} {events : List (Event wire)} {value : A}
    (traced : (p.limited (I := wire) .deadline id).Traces events (some value)) :
    ∃ own, p.Traces own value ∧ account own = account events := by
  obtain ⟨own, traces, views⟩ := Proc.traces_limited traced
  refine ⟨own, traces, ?_⟩
  simp only [account]
  rw [views _ Event.noise fun _ => rfl, views _ Event.list fun _ => rfl, views _ Event.heard fun _ => rfl,
    views _ Event.request fun _ => rfl, views _ Event.answer fun _ => rfl]

theorem account_authenticate {authenticated : Authenticated} {events : List (Event wire)}
    (yields : Yields (authenticate crypto role name coins deviceKeypairs pairing) events (some authenticated)) :
    ∃ identified known theirs signature, Shown crypto role identified known theirs signature ∧
      authenticated = ⟨identified.peer, !identified.bothSaved⟩ ∧
      ∃ rest, account events = {
          noise := [(identified.peer.x25519PubKey, identified.handshakeHash)]
          lists := [known]
          heard := identification theirs.toList identified.peer signature } ++ rest ∧
        if identified.bothSaved then rest = {}
        else ∃ later code, pairingCode crypto identified.handshakeHash = .ok code ∧
          rest = pairingAccount role pairing name later code := by
  rw [authenticate, yields_bind] at yields
  obtain ⟨_, _, ⟨aKey, aSalt⟩, rfl, keys, yields⟩ := yields
  obtain rfl := (yields_perform (I := wire) .readKeys _ _).mp keys
  rw [yields_bind] at yields
  obtain ⟨_, rest, result, rfl, limited, finish⟩ := yields
  obtain ⟨identified, rfl, rfl, later⟩ := account_finishAuth finish
  obtain ⟨own, shook, same⟩ := account_limited ((yields_lift _ _ _).mp limited)
  obtain ⟨known, theirs, signature, shown, accounted⟩ := account_handshake shook
  refine ⟨identified, known, theirs, signature, shown, rfl, account rest, ?_, ?_⟩
  · simp only [account_append, ← same, accounted]
    rfl
  · cases both : identified.bothSaved with
    | true =>
        simp only [both, if_true] at later ⊢
        rw [later]
        rfl
    | false => simpa [both] using later

/-! ## The list of trusted peers -/

/-- One operation of the authentication, with the list right before and right after
it. Between two of them other tasks may have made any list of it. -/
structure Moment where
  event : Event wire
  before : List TrustedPeer
  after : List TrustedPeer

/-- What an operation does to the list, and that nobody answers for a dropped inbox. -/
def Moment.happens : Moment → Bool
  | ⟨⟨.readPeers, peers⟩, before, after⟩ => peers = before && after = before
  | ⟨⟨.savePeer peer, reply⟩, before, after⟩ => (reply, after) = CesaConn.savePeer before peer
  | ⟨⟨.trySend pairing _ _, queued⟩, before, after⟩ => (!queued || pairing.inbox) && after = before
  | ⟨_, before, after⟩ => after = before

section

structure Messages (P : Op → Prop) : Prop where
  send : ∀ plaintext secs, P (.send plaintext secs)
  receive : ∀ size secs, P (.receive size secs)

section

variable {P : Op → Prop} (messages : Messages P)
include messages

theorem all_exchangeIsSaved (weHavePeer : Bool) : All P (exchangeIsSaved role weHavePeer) := by
  have sends : All P (sendSecure (flag weHavePeer) .isSavedTag timeout) := all_sendSecure (messages.send · _)
  have receives : All P (recvSecure 1 .isSavedTag timeout) := all_recvSecure (messages.receive · _)
  cases role with
  | client => exact all_bind sends fun _ => all_bind receives fun _ => all_pure _
  | server => exact all_bind receives fun _ => all_bind sends fun _ => all_pure _

theorem all_exchangeSignatures (hash : HandshakeHash) (stored : Option VerificationKey) (random : Option (Block 32)) :
    All P (exchangeSignatures crypto role hash stored deviceKeypairs random) := by
  have sends : ∀ signature, All P (sendIdentity deviceKeypairs signature) := fun signature =>
    all_bind (all_sendSecure (messages.send · _)) fun _ => all_sendSecure (messages.send · _)
  have receives : All P recvIdentity := by
    refine all_bind (all_recvSecure (messages.receive · _)) fun _ => ?_
    exact all_bind (all_recvSecure (messages.receive · _)) fun _ => all_pure _
  have verifies : ∀ key signature context, All P (verifyPeerSignature crypto key signature stored hash context) :=
    fun _ _ _ => all_bind (all_ensure _ _) fun _ => all_ensure _ _
  refine all_bind (all_require _ _) fun _ => all_bind (all_require _ _) fun _ => ?_
  cases role with
  | client =>
      refine all_bind (sends _) fun _ => all_bind receives fun _ => ?_
      exact all_bind (verifies _ _ _) fun _ => all_pure _
  | server =>
      refine all_bind receives fun _ => all_bind (verifies _ _ _) fun _ => ?_
      exact all_bind (sends _) fun _ => all_pure _

theorem all_identifyPeer (read : P .readPeers) (peerStatic : StaticKey) (hash : HandshakeHash)
    (random : Option (Block 32)) : All P (identifyPeer crypto role name peerStatic hash deviceKeypairs random) := by
  refine all_bind (all_perform (I := wire) read) fun _ => all_bind (all_exchangeIsSaved messages _) fun _ => ?_
  exact all_bind (all_exchangeSignatures messages _ _ _) fun _ => all_pure _

theorem all_confirmPairing (hash : HandshakeHash) (asks : ∀ code, P (.trySend pairing name code))
    (waits : ∀ secs, P (.answer secs)) : All P (confirmPairing crypto role name hash pairing) := by
  have user : All P (askUser crypto pairing name hash) := by
    refine all_bind trivial fun _ => all_bind (all_perform (I := wire) (asks _)) fun queued => ?_
    cases queued with
    | false => exact all_pure _
    | true =>
        refine all_bind (all_perform (I := wire) (waits _)) fun answer => ?_
        cases answer with
        | decided accept => exact all_pure _
        | dropped => exact all_pure _
        | elapsed => exact all_throw _
  refine all_bind (all_lift user) fun asked => all_bind (all_sendSecure (messages.send · _)) fun _ => ?_
  split
  · cases asked with
    | error error => exact all_throw _
    | ok accept => exact all_throw _
  · exact all_bind (all_recvSecure (messages.receive · _)) fun _ => all_ensure _ _

end

abbrev Keeps {A : Type} (x : Exchange A) : Prop := All (fun op : Op => ∀ peer, op ≠ .savePeer peer) x

theorem keeps_messages : Messages fun op : Op => ∀ peer, op ≠ .savePeer peer := ⟨by simp, by simp⟩

theorem keeps_handshake (aKey : AuthKey) (aSalt : Salt) :
    Keeps (handshake crypto role name coins aKey aSalt deviceKeypairs) := by
  have raw : Keeps (keyExchange crypto role coins aKey aSalt) :=
    Proc.All.mono (raw_keyExchange coins role aKey aSalt) fun op raw peer same => by
      subst same
      cases raw
  refine all_bind raw fun exchanged => ?_
  cases exchanged with
  | none => exact all_pure _
  | some input =>
      refine all_bind (all_bind (all_require _ _) fun _ => all_require _ _) fun _ => ?_
      refine all_bind (all_perform (I := wire) (by simp)) fun _ => all_bind trivial fun _ => ?_
      exact all_bind (all_identifyPeer keeps_messages (by simp) _ _ _) fun _ => all_pure _

theorem keeps_confirmPairing (hash : HandshakeHash) : Keeps (confirmPairing crypto role name hash pairing) :=
  all_confirmPairing keeps_messages hash (by simp) (by simp)

end

theorem paired_of_saved_finish {identified : Option (Except AuthSnowErrors (Option Identified))} {events : List (Event wire)}
    {result : Except AuthSnowErrors (Option Authenticated)} {peer : TrustedPeer}
    (traced : (finishAuth crypto identified role name pairing).run.Traces events result)
    (saved : ⟨.savePeer peer, Except.ok ()⟩ ∈ events) : result = .ok (some ⟨peer, true⟩) := by
  have outside : ¬ ∀ other, Op.savePeer peer ≠ .savePeer other := fun never => never peer rfl
  match identified with
  | none =>
      obtain ⟨rfl, -⟩ := traced
      cases saved
  | some (.error error) =>
      obtain ⟨rfl, -⟩ := traced
      cases saved
  | some (.ok none) =>
      obtain ⟨rfl, -⟩ := traced
      cases saved
  | some (.ok (some ⟨other, hash, true⟩)) =>
      obtain ⟨rfl, -⟩ := traced
      cases saved
  | some (.ok (some ⟨other, hash, false⟩)) =>
      have read : Keeps readPeers := all_perform (I := wire) (by simp)
      obtain ⟨_, _, traced, saved⟩ := mem_of_traces_bind read traced saved outside
      have checked : ∀ condition error, Keeps (ensure condition error) := fun _ _ => all_ensure _ _
      obtain ⟨_, _, traced, saved⟩ := mem_of_traces_bind (checked _ _) traced saved outside
      obtain ⟨_, _, traced, saved⟩ := mem_of_traces_bind (keeps_confirmPairing hash) traced saved outside
      obtain ⟨reply, _, rfl, traced⟩ := traced
      cases reply with
      | error error =>
          obtain ⟨rfl, -⟩ := traced
          simp at saved
      | ok value =>
          obtain ⟨_, _, rfl, rfl, same⟩ := traced
          obtain rfl : peer = other := by simpa using saved
          exact same.symm

theorem paired_of_saved {events : List (Event wire)} {result : Except AuthSnowErrors (Option Authenticated)}
    {peer : TrustedPeer} (traced : (authenticate crypto role name coins deviceKeypairs pairing).run.Traces events result)
    (saved : ⟨.savePeer peer, Except.ok ()⟩ ∈ events) : result = .ok (some ⟨peer, true⟩) := by
  have outside : ¬ ∀ other, Op.savePeer peer ≠ .savePeer other := fun never => never peer rfl
  have keys : Keeps (perform (I := wire) .readKeys : Exchange (AuthKey × Salt)) := all_perform (I := wire) (by simp)
  obtain ⟨⟨aKey, aSalt⟩, _, traced, saved⟩ := mem_of_traces_bind keys traced saved outside
  have shakes : Keeps (handshake crypto role name coins aKey aSalt deviceKeypairs) := keeps_handshake aKey aSalt
  have limited : Proc.All (fun op : Op => ∀ peer, op ≠ .savePeer peer)
      ((handshake crypto role name coins aKey aSalt deviceKeypairs).run.limited (I := wire) .deadline id) :=
    Proc.all_limited shakes (by simp)
  obtain ⟨identified, _, traced, saved⟩ := mem_of_traces_bind (all_lift limited) traced saved outside
  exact paired_of_saved_finish traced saved

/-- Only a successful save changes the list, and it adds the peer at its end. -/
theorem Moment.change {moment : Moment} (happens : moment.happens) :
    moment.after = moment.before ∨ ∃ peer, moment.event = ⟨.savePeer peer, Except.ok ()⟩ ∧
      moment.after = moment.before ++ [peer] := by
  obtain ⟨⟨op, reply⟩, before, after⟩ := moment
  cases op with
  | savePeer peer =>
      have saves : (reply, after) = CesaConn.savePeer before peer := of_decide_eq_true happens
      unfold CesaConn.savePeer at saves
      split at saves
      · exact .inl (Prod.ext_iff.mp saves).2
      · split at saves
        · exact .inl (Prod.ext_iff.mp saves).2
        · cases saves
          exact .inr ⟨peer, rfl, rfl⟩
  | readPeers => exact .inl (of_decide_eq_true (Bool.and_eq_true_iff.mp happens).2)
  | trySend _ _ _ => exact .inl (of_decide_eq_true (Bool.and_eq_true_iff.mp happens).2)
  | _ => exact .inl (of_decide_eq_true happens)

def knownAccount (peer : TrustedPeer) (hash : HandshakeHash) (signature : Signature) (known : List TrustedPeer) :
    Account where
  noise := [(peer.x25519PubKey, hash)]
  lists := [known]
  heard := identification [0x01] peer signature

def pairedAccount (role : Role) (peer : TrustedPeer) (hash : HandshakeHash) (signature : Signature)
    (known later : List TrustedPeer) (theirs : Block 1) (pairing : Pairing) (name : String) (code : PairingCode) :
    Account where
  noise := [(peer.x25519PubKey, hash)]
  lists := [known, later]
  heard := identification theirs.toList peer signature ++ [(role.other.acceptTag.byte, [0x01])]
  requests := [(pairing, name, code)]
  answers := [.decided true]

theorem lookup_eq_some {peers : List TrustedPeer} {key : StaticKey} {entry : TrustedPeer}
    (found : lookup peers key = some entry) : entry ∈ peers ∧ entry.x25519PubKey = key :=
  ⟨List.mem_of_find?_eq_some found, by simpa using List.find?_some found⟩

theorem trusted_of_yields {authenticated : Authenticated} {events : List (Event wire)}
    (yields : Yields (authenticate crypto role name coins deviceKeypairs pairing) events (some authenticated)) :
    ∃ hash signature known,
      crypto.verify authenticated.peer.mldsaVerificationKey hash.toList role.peerContext signature ∧
      (authenticated.newlyPaired = false ∧
          (∃ entry ∈ known, entry.x25519PubKey = authenticated.peer.x25519PubKey ∧
            entry.mldsaVerificationKey = authenticated.peer.mldsaVerificationKey) ∧
          account events = knownAccount authenticated.peer hash signature known ∨
        authenticated.newlyPaired = true ∧
          ∃ later theirs code, pairingCode crypto hash = .ok code ∧
            account events =
              pairedAccount role authenticated.peer hash signature known later theirs pairing name code) := by
  obtain ⟨identified, known, theirs, signature, shown, rfl, rest, accounted, decided⟩ := account_authenticate yields
  refine ⟨identified.handshakeHash, signature, known, shown.signed, ?_⟩
  cases both : identified.bothSaved with
  | true =>
      obtain ⟨stored, one⟩ := Bool.and_eq_true_iff.mp (shown.both.symm.trans both)
      obtain ⟨entry, found⟩ := Option.isSome_iff_exists.mp stored
      obtain ⟨member, key⟩ := lookup_eq_some found
      simp only [both, if_true] at decided
      refine .inl ⟨rfl, ⟨entry, member, key, shown.stored entry found⟩, ?_⟩
      rw [accounted, decided, append_empty, toList_of_isOne one]
      rfl
  | false =>
      simp only [both, Bool.false_eq_true, if_false] at decided
      obtain ⟨later, code, coded, rfl⟩ := decided
      exact .inr ⟨rfl, later, theirs, code, coded, accounted⟩

theorem queued_of_account {history : List Moment} {pairing : Pairing} {name : String} {code : PairingCode}
    (requests : (account (history.map Moment.event)).requests = [(pairing, name, code)]) :
    ∃ moment ∈ history, moment.event = ⟨.trySend pairing name code, true⟩ := by
  have member : (pairing, name, code) ∈ (history.map Moment.event).filterMap Event.request := by
    show _ ∈ (account (history.map Moment.event)).requests
    simp [requests]
  obtain ⟨event, listed, found⟩ := List.mem_filterMap.mp member
  obtain ⟨moment, within, rfl⟩ := List.mem_map.mp listed
  refine ⟨moment, within, ?_⟩
  unfold Event.request at found
  split at found
  · next same =>
    cases found
    exact same
  · cases found

/-- Whatever the other side sends and other tasks do to the list: a device is
returned only with a verified signature of its key over this handshake, and only if
both sides knew it by this key or both users accepted. The call adds the device it
returns as newly paired and changes nothing else; without an inbox it pairs none. -/
theorem trust_decision (crypto : Primitives) (role : Role) (name : String) (coins : Coins)
    (deviceKeypairs : DeviceKeypairs crypto) (pairing : Pairing) (history : List Moment)
    (result : Except AuthSnowErrors (Option Authenticated)) (happens : ∀ moment ∈ history, moment.happens)
    (ended : (authenticate crypto role name coins deviceKeypairs pairing).run.Traces (history.map Moment.event) result) :
    (∀ authenticated, result = .ok (some authenticated) →
      ∃ hash signature known,
        crypto.verify authenticated.peer.mldsaVerificationKey hash.toList role.peerContext signature ∧
        (authenticated.newlyPaired = false ∧
            (∃ entry ∈ known, entry.x25519PubKey = authenticated.peer.x25519PubKey ∧
              entry.mldsaVerificationKey = authenticated.peer.mldsaVerificationKey) ∧
            account (history.map Moment.event) = knownAccount authenticated.peer hash signature known ∨
          authenticated.newlyPaired = true ∧
            ∃ later theirs code, pairingCode crypto hash = .ok code ∧
              account (history.map Moment.event) =
                pairedAccount role authenticated.peer hash signature known later theirs pairing name code)) ∧
    (∀ moment ∈ history, moment.after = moment.before ∨
      ∃ peer, result = .ok (some ⟨peer, true⟩) ∧ moment.after = moment.before ++ [peer]) ∧
    (pairing = .refuseAll → ∀ authenticated, result = .ok (some authenticated) →
      authenticated.newlyPaired = false) := by
  refine ⟨?_, ?_, ?_⟩
  · rintro authenticated rfl
    exact trusted_of_yields ended
  · intro moment member
    refine (Moment.change (happens moment member)).imp_right ?_
    rintro ⟨peer, saved, added⟩
    exact ⟨peer, paired_of_saved ended (saved ▸ List.mem_map_of_mem member), added⟩
  · rintro rfl authenticated rfl
    obtain ⟨hash, signature, known, -, ⟨old, -⟩ | ⟨-, later, theirs, code, -, accounted⟩⟩ := trusted_of_yields ended
    · exact old
    · obtain ⟨moment, member, queued⟩ := queued_of_account (congrArg Account.requests accounted)
      have answered := happens moment member
      obtain ⟨event, before, after⟩ := moment
      subst queued
      cases answered

/-! ## A visitor -/

def visitor : TrustedPeer := ⟨.replicate 32 5, .replicate mldsa87VkLen 6, "visitor"⟩

def visitHash : HandshakeHash := .replicate 32 8

def visitorSays (size secs : Nat) : Bytes :=
  if size = 2 then
    (tagged (flag true) (if secs = timeout then Tags.isSavedTag else Tags.clientAcceptTag).byte).toList
  else if size = mldsa87VkLen + 1 then
    (tagged visitor.mldsaVerificationKey Tags.mldsa87VerificationKeyTag.byte).toList
  else
    (tagged (checksum mldsa87SigLen (visitHash.toList ++ Role.clientContext)) Tags.mldsa87SignatureTag.byte).toList

def visit (peers : List TrustedPeer) : (op : Op) → wire.Reply op
  | .readKeys => (.replicate 32 3, .replicate 32 9)
  | .write _ => Io.done ()
  | .read size => (toBlock size (arrives (List.replicate 64 1) (.replicate 32 1) confirmClientToServer size)).elim
      Io.failed Io.done
  | .noise _ _ => .ok (visitor.x25519PubKey, visitHash)
  | .send _ _ => Io.done ()
  | .receive size secs => (toBlock size (visitorSays size secs)).elim Io.failed Io.done
  | .deadline => false
  | .readPeers => peers
  | .savePeer peer => (CesaConn.savePeer peers peer).1
  | .trySend pairing _ _ => pairing.inbox
  | .answer _ => .decided true
  | .notifySaved => ()
  | .identified _ => ()

/-! ### A guest with any key -/

section Guest

variable (key : VerificationKey)

def guest : TrustedPeer := { visitor with mldsaVerificationKey := key }

def guestSays (size secs : Nat) : Bytes :=
  if size = mldsa87VkLen + 1 then (tagged key Tags.mldsa87VerificationKeyTag.byte).toList else visitorSays size secs

def receives (peers : List TrustedPeer) : (op : Op) → wire.Reply op
  | .receive size secs => (toBlock size (guestSays key size secs)).elim Io.failed Io.done
  | op => visit peers op

theorem receives_visitor (peers : List TrustedPeer) : receives visitor.mldsaVerificationKey peers = visit peers := by
  funext op
  cases op with
  | receive size secs =>
      by_cases long : size = mldsa87VkLen + 1
      · subst long
        rfl
      · show (toBlock size (guestSays _ size secs)).elim Io.failed Io.done = _
        rw [guestSays, if_neg long]
        rfl
  | _ => rfl

variable {key} {peers : List TrustedPeer}

theorem guest_keyExchange :
    ∃ input, (keyExchange .plain .server (coinsOf 2) (.replicate 32 3) (.replicate 32 9)).returns (receives key peers) =
      .ok (some input) := by
  obtain ⟨input, reached⟩ := server_reaches
  refine ⟨input, ?_⟩
  rw [← returns_of_reached reached]
  refine congrArg Prod.snd (Proc.answered_congr (raw_keyExchange (coinsOf 2) .server _ _) fun op raw => ?_)
  cases op with
  | write _ => rfl
  | read _ => rfl
  | _ => cases raw

theorem guest_sendSecure {size : Nat} {data : Block size} {tag : Tags} {secs : Nat}
    (fits : size ≤ secureMsgMaxPayload) : (sendSecure data tag secs).returns (receives key peers) = .ok () :=
  returns_then (returns_ensure (decide_eq_true fits)) rfl

theorem guest_recvSecure {size : Nat} {tag : Tags} {secs : Nat} (payload : Block size)
    (fits : size ≤ secureMsgMaxPayload) (told : guestSays key (size + 1) secs = (tagged payload tag.byte).toList) :
    (recvSecure size tag secs).returns (receives key peers) = .ok payload := by
  have arrived : receives key peers (.receive (size + 1) secs) = Io.done (tagged payload tag.byte) := by
    show (toBlock (size + 1) (guestSays key (size + 1) secs)).elim Io.failed Io.done = _
    rw [toBlock_eq_some.mpr told]
    rfl
  have received : (perform (I := wire) (.receive (size + 1) secs) : Exchange (Io (Block (size + 1)))).returns
      (receives key peers) = .ok (Io.done (tagged payload tag.byte)) := congrArg Except.ok arrived
  refine returns_then (returns_ensure (by simpa using fits)) (returns_then received ?_)
  exact returns_then rfl (returns_require (untag_tagged _ _))

theorem guest_exchangeIsSaved (weHavePeer : Bool) :
    (exchangeIsSaved .server weHavePeer).returns (receives key peers) = .ok weHavePeer := by
  refine returns_then (guest_recvSecure (flag true) (by decide) rfl) (returns_then (guest_sendSecure (by decide)) ?_)
  cases weHavePeer <;> rfl

def visitKeypairs : DeviceKeypairs .plain := ⟨(), .replicate mldsa87VkLen 7⟩

def visitSignature : Signature := checksum mldsa87SigLen (visitHash.toList ++ Role.clientContext)

theorem guest_exchangeSignatures (stored : Option VerificationKey) (same : stored.all fun known => known = key) :
    (exchangeSignatures .plain .server visitHash stored visitKeypairs (some (.replicate 32 2))).returns
      (receives key peers) = .ok key := by
  have identity : recvIdentity.returns (receives key peers) = .ok (key, visitSignature) :=
    returns_then (guest_recvSecure key (by decide) rfl) (returns_then (guest_recvSecure visitSignature (by decide) rfl) rfl)
  have signed : Primitives.plain.verify key visitHash.toList Role.clientContext visitSignature :=
    Primitives.plain_verify _ _ _
  have verifies : (verifyPeerSignature .plain key visitSignature stored visitHash Role.server.peerContext).returns
      (receives key peers) = .ok () :=
    returns_then (returns_ensure same) (returns_ensure signed)
  have answers : ∀ signature, (sendIdentity visitKeypairs signature).returns (receives key peers) = .ok () :=
    fun _ => returns_then (guest_sendSecure (by decide)) (guest_sendSecure (by decide))
  refine returns_then (returns_require rfl) (returns_then (returns_require rfl) ?_)
  exact returns_then identity (returns_then verifies (returns_then (answers _) rfl))

theorem guest_handshake {stored : Option TrustedPeer} (found : lookup peers visitor.x25519PubKey = stored)
    (same : ∀ peer ∈ stored, peer = guest key) :
    (handshake .plain .server "visitor" (coinsOf 2) (.replicate 32 3) (.replicate 32 9) visitKeypairs).returns
      (receives key peers) = .ok (some ⟨guest key, visitHash, stored.isSome⟩) := by
  obtain ⟨input, exchanged⟩ : ∃ input, (keyExchange .plain .server (coinsOf 2) (.replicate 32 3)
    (.replicate 32 9)).returns (receives key peers) = .ok (some input) := guest_keyExchange
  have keys : (stored.map TrustedPeer.mldsaVerificationKey).all fun known => known = key := by
    cases stored with
    | none => rfl
    | some peer => simp [same peer rfl, guest]
  have named : stored.elim "visitor" TrustedPeer.name = "visitor" := by
    cases stored with
    | none => rfl
    | some peer => simp [same peer rfl, guest, visitor]
  have identified : (identifyPeer .plain .server "visitor" visitor.x25519PubKey visitHash visitKeypairs
      (some (.replicate 32 2))).returns (receives key peers) = .ok (guest key, stored.isSome) := by
    have read : readPeers.returns (receives key peers) = .ok peers := rfl
    unfold identifyPeer
    refine returns_then read ?_
    rw [found]
    refine returns_then (guest_exchangeIsSaved _) (returns_then (guest_exchangeSignatures _ keys) ?_)
    rw [named]
    rfl
  refine returns_then exchanged (returns_then (returns_then rfl rfl) ?_)
  exact returns_then rfl (returns_then rfl (returns_then identified rfl))

theorem guest_limited {x : Exchange (Option Identified)} {value : Option Identified}
    (returned : x.returns (receives key peers) = .ok value) :
    returns (receives key peers) (ExceptT.lift (x.run.limited (I := wire) .deadline id) : Exchange _) =
      .ok (some (.ok value)) := by
  have early : id (receives key peers .deadline) = false := rfl
  rw [returns_lift, Proc.answered_limited early]
  exact congrArg (fun result => Except.ok (some result)) returned

theorem guest_authIncoming {stored : Option TrustedPeer} {authenticated : Authenticated}
    (found : lookup peers visitor.x25519PubKey = stored) (same : ∀ peer ∈ stored, peer = guest key)
    (finished : (finishAuth .plain (some (.ok (some ⟨guest key, visitHash, stored.isSome⟩))) .server "visitor"
      .channel).returns (receives key peers) = .ok (some authenticated)) :
    (authIncoming .plain "visitor" (coinsOf 2) visitKeypairs .channel).returns (receives key peers) =
      .ok (some authenticated) := by
  have keys : (perform (I := wire) .readKeys : Exchange (AuthKey × Salt)).returns (receives key peers) =
      .ok (.replicate 32 3, .replicate 32 9) := rfl
  exact returns_then keys (returns_then (guest_limited (guest_handshake found same)) finished)

theorem guest_paired : (authIncoming .plain "visitor" (coinsOf 2) visitKeypairs .channel).returns (receives key []) =
    .ok (some ⟨guest key, true⟩) := by
  have found : lookup [] visitor.x25519PubKey = none := rfl
  refine guest_authIncoming found (by simp) ?_
  have asked : (askUser .plain .channel "visitor" visitHash).returns (receives key []) = .ok true := rfl
  have confirmed : (confirmPairing .plain .server "visitor" visitHash .channel).returns (receives key []) = .ok () := by
    refine returns_then (returns_lift _) ?_
    unfold returns at asked
    rw [asked]
    refine returns_then (guest_sendSecure (by decide)) ?_
    exact returns_then (guest_recvSecure (flag true) (by decide) rfl) rfl
  exact returns_then rfl (returns_then (returns_ensure rfl) (returns_then confirmed rfl))

end Guest

theorem visit_known : (authIncoming .plain "visitor" (coinsOf 2) visitKeypairs .channel).returns (visit [visitor]) =
    .ok (some ⟨visitor, false⟩) := by
  have found : lookup [visitor] visitor.x25519PubKey = some visitor := by simp [lookup]
  have same : ∀ peer ∈ some visitor, peer = guest visitor.mldsaVerificationKey := by simp [guest]
  have known := guest_authIncoming found same rfl
  rwa [receives_visitor] at known

theorem visit_paired : (authIncoming .plain "visitor" (coinsOf 2) visitKeypairs .channel).returns (visit []) =
    .ok (some ⟨visitor, true⟩) := by
  have paired : (authIncoming .plain "visitor" (coinsOf 2) visitKeypairs .channel).returns
      (receives visitor.mldsaVerificationKey []) = .ok (some ⟨guest visitor.mldsaVerificationKey, true⟩) := guest_paired
  rwa [receives_visitor] at paired

def visitMoment (peers : List TrustedPeer) (event : Event wire) : Moment :=
  match event with
  | ⟨.savePeer peer, reply⟩ => ⟨⟨.savePeer peer, reply⟩, peers, (CesaConn.savePeer peers peer).2⟩
  | event => ⟨event, peers, peers⟩

def visitHistory (peers : List TrustedPeer) : List Moment :=
  ((authIncoming .plain "visitor" (coinsOf 2) visitKeypairs .channel).run.answered (visit peers)).1.map
    (visitMoment peers)

theorem visit_happens (peers : List TrustedPeer) : ∀ moment ∈ visitHistory peers, moment.happens := by
  intro moment member
  obtain ⟨⟨op, reply⟩, listed, rfl⟩ := List.mem_map.mp member
  have same : reply = visit peers op := Proc.reply_of_answered (I := wire) (visit peers) _ _ listed
  subst same
  cases op with
  | savePeer peer => exact decide_eq_true rfl
  | readPeers => simp [visitMoment, Moment.happens, visit]
  | trySend pairing _ _ => cases inbox : pairing.inbox <;> simp [visitMoment, Moment.happens, visit, inbox]
  | _ => exact decide_eq_true rfl

theorem visit_events (peers : List TrustedPeer) : (visitHistory peers).map Moment.event =
    ((authIncoming .plain "visitor" (coinsOf 2) visitKeypairs .channel).run.answered (visit peers)).1 := by
  rw [visitHistory, List.map_map]
  refine List.map_id'' (fun event => ?_) _
  obtain ⟨op, reply⟩ := event
  cases op <;> rfl

theorem trust_decision_visitor :
    (∃ hash signature known later theirs code, account ((visitHistory []).map Moment.event) =
      pairedAccount .server visitor hash signature known later theirs .channel "visitor" code) ∧
    ∃ hash signature known, account ((visitHistory [visitor]).map Moment.event) =
      knownAccount visitor hash signature known := by
  have traced : ∀ peers, (authenticate .plain .server "visitor" (coinsOf 2) visitKeypairs .channel).run.Traces
      ((visitHistory peers).map Moment.event)
      ((authIncoming .plain "visitor" (coinsOf 2) visitKeypairs .channel).returns (visit peers)) := by
    intro peers
    rw [visit_events]
    exact traces_returns (I := wire) (visit peers) _
  constructor
  · obtain ⟨hash, signature, known, -, ⟨old, -⟩ | ⟨-, later, theirs, code, -, accounted⟩⟩ :=
      (trust_decision _ _ _ _ _ _ _ _ (visit_happens []) (traced [])).1 _ visit_paired
    · cases old
    · exact ⟨hash, signature, known, later, theirs, code, accounted⟩
  · obtain ⟨hash, signature, known, -, ⟨-, -, accounted⟩ | ⟨new, -⟩⟩ :=
      (trust_decision _ _ _ _ _ _ _ _ (visit_happens [visitor]) (traced [visitor])).1 _ visit_known
    · exact ⟨hash, signature, known, accounted⟩
    · cases new

end Auth

end CesaConn
