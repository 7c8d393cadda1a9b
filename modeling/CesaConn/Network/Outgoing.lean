import CesaConn.Auth.Pairing
import CesaConn.Network.Receiver
import CesaConn.Program.Sum

/-! Guesses that a server makes against us.

A client that has sent its confirmation value has given the server one guess at
the password. A trace of `authenticate_outgoing` lists the whole conversation
and the calls to the guess limiter and the peer book, in order.
-/

set_option autoImplicit false

namespace CesaConn

open Format Program

namespace Outgoing

open Auth Vault

inductive Op where
  | isLocked (ip : IpAddr)
  | recordFailure (ip : IpAddr)
  | recordSuccess (ip : IpAddr)
  | wrongPasswordAt (ip : IpAddr) (outgoing : Bool)
  | seen (peer : TrustedPeer) (addr : SocketAddr)
  deriving DecidableEq

abbrev calls : Program.Signature where
  Op := Op
  Reply
    | .isLocked _ => Bool
    | .recordFailure _ | .recordSuccess _ | .wrongPasswordAt _ _ | .seen _ _ => Unit

/-- The errors before anything is sent to the peer. -/
inductive TcpNetworkerErrors where
  | lockedOut
  | wrongPassword
  | failedToAuthenticate
  deriving DecidableEq

abbrev Task (A : Type) := Proc (wire.sum calls) A

def call (op : Op) : Task (calls.Reply op) := .perform (I := wire.sum calls) (.inr op)

variable (crypto : Primitives) (name : String) (coins : Coins) (deviceKeypairs : DeviceKeypairs crypto) (pairing : Pairing)
  (connectAddr : SocketAddr)

/-- The errors after which the server may have had a guess. -/
def countsGuess : AuthSnowErrors → Bool
  | .failedToConfirmMutualAuthSpake2 | .handshakeTimeout => true
  | _ => false

def authenticateOutgoing : Task (Except TcpNetworkerErrors Authenticated) := do
  if ← call (.isLocked connectAddr.ip) then return .error .lockedOut
  else
    match ← (authOutgoing crypto name coins deviceKeypairs pairing).run.left with
    | .error e =>
        (if countsGuess e then call (.recordFailure connectAddr.ip) else pure ())
        if e = .failedToConfirmMutualAuthSpake2 then
          call (.wrongPasswordAt connectAddr.ip true)
          return .error .wrongPassword
        else return .error .failedToAuthenticate
    | .ok none =>
        call (.recordFailure connectAddr.ip)
        call (.wrongPasswordAt connectAddr.ip true)
        return .error .wrongPassword
    | .ok (some authenticated) =>
        call (.recordSuccess connectAddr.ip)
        call (.seen authenticated.peer connectAddr)
        return .ok authenticated

variable {crypto name coins deviceKeypairs pairing connectAddr}

/-! ## What is recorded -/

def recorded (events : List (Event (wire.sum calls))) : List Op :=
  events.filterMap fun event => match event.op with
    | .inr (.recordFailure ip) => some (.recordFailure ip)
    | .inr (.recordSuccess ip) => some (.recordSuccess ip)
    | _ => none

@[simp] theorem recorded_append (first rest : List (Event (wire.sum calls))) :
    recorded (first ++ rest) = recorded first ++ recorded rest :=
  List.filterMap_append

@[simp] theorem recorded_left (own : List (Event wire)) : recorded (own.map Event.left) = [] := by
  rw [recorded, List.filterMap_map]
  exact List.filterMap_eq_nil_iff.mpr fun _ _ => rfl

def conversation (events : List (Event (wire.sum calls))) : List (Event wire) :=
  events.filterMap fun event => match event with
    | ⟨.inl op, reply⟩ => some ⟨op, reply⟩
    | ⟨.inr _, _⟩ => none

@[simp] theorem conversation_append (first rest : List (Event (wire.sum calls))) :
    conversation (first ++ rest) = conversation first ++ conversation rest :=
  List.filterMap_append

@[simp] theorem conversation_left (own : List (Event wire)) : conversation (own.map Event.left) = own := by
  rw [conversation, List.filterMap_map]
  exact List.filterMap_some

def verdict (ip : IpAddr) : Except AuthSnowErrors (Option Authenticated) → List Op
  | .error e => if countsGuess e then [.recordFailure ip] else []
  | .ok none => [.recordFailure ip]
  | .ok (some _) => [.recordSuccess ip]

/-- Behind the whole conversation there are only the calls that its result demands. -/
theorem traces_authenticateOutgoing {events : List (Event (wire.sum calls))} {result : Except TcpNetworkerErrors Authenticated}
    (traced : (authenticateOutgoing crypto name coins deviceKeypairs pairing connectAddr).Traces events result) :
    (events = [⟨.inr (.isLocked connectAddr.ip), true⟩] ∧ result = .error .lockedOut) ∨
    ∃ own ended rest, events = ⟨.inr (.isLocked connectAddr.ip), false⟩ :: (own.map Event.left ++ rest) ∧
      (authOutgoing crypto name coins deviceKeypairs pairing).run.Traces own ended ∧
      recorded rest = verdict connectAddr.ip ended ∧ conversation rest = [] ∧ ∀ authenticated, ended = .ok (some authenticated) → result = .ok authenticated := by
  obtain ⟨locked, rest, rfl, traced⟩ := traced
  cases locked with
  | true =>
      obtain ⟨rfl, rfl⟩ := traced
      exact .inl ⟨rfl, rfl⟩
  | false =>
      simp only [Proc.bind, Bool.false_eq_true, if_false] at traced
      obtain ⟨_, rest, ended, rfl, first, traced⟩ := (Proc.traces_bind _ _ _ _).mp traced
      obtain ⟨own, rfl, talked⟩ := Proc.traces_left.mp first
      refine .inr ⟨own, ended, rest, rfl, talked, ?_⟩
      match ended with
      | .ok (some authenticated) =>
          obtain ⟨_, _, rfl, _, _, rfl, rfl, rfl⟩ := traced
          exact ⟨rfl, rfl, fun _ same => by cases same; rfl⟩
      | .ok none =>
          obtain ⟨_, _, rfl, _, _, rfl, rfl, rfl⟩ := traced
          exact ⟨rfl, rfl, fun _ same => by cases same⟩
      | .error e =>
          obtain ⟨first, rest, _, rfl, counted, traced⟩ := (Proc.traces_bind _ _ _ _).mp traced
          have told : recorded rest = [] ∧ conversation rest = [] := by
            split at traced
            · obtain ⟨_, _, rfl, rfl, rfl⟩ := traced
              exact ⟨rfl, rfl⟩
            · obtain ⟨rfl, rfl⟩ := traced
              exact ⟨rfl, rfl⟩
          rw [recorded_append, conversation_append, told.1, told.2, List.append_nil, List.append_nil]
          have counts : recorded first = verdict connectAddr.ip (.error e) ∧ conversation first = [] := by
            rw [verdict]
            split at counted
            · next counts =>
              obtain ⟨_, _, rfl, rfl, rfl⟩ := counted
              rw [if_pos counts]
              exact ⟨rfl, rfl⟩
            · next counts =>
              obtain ⟨rfl, rfl⟩ := counted
              rw [if_neg counts]
              exact ⟨rfl, rfl⟩
          exact ⟨counts.1, counts.2, fun _ same => by cases same⟩

/-! ## The guess -/

/-- The event if bytes were sent or received in the clear. -/
def transfer (event : Event wire) : Option (Event wire) :=
  match event with
  | ⟨.write _, _⟩ | ⟨.read _, _⟩ => some event
  | _ => none

abbrev transfers (events : List (Event wire)) : List (Event wire) := events.filterMap transfer

variable (crypto coins) in
def clientKey (keys : AuthKey × Salt) (inbound : Block (crypto.spake2.messageLen + 1)) : Option Bytes :=
  (untag inbound KexTags.outboundMsg.byte).bind (crypto.spake2.finish (startClient crypto coins.spake2 keys.1 keys.2).1)

variable (crypto coins) in
/-- A conversation begins with the two messages of the exchange and our confirmation
value, whether all of it went out or not. -/
structure Guessed (keys : AuthKey × Salt) (events : List (Event wire)) (key1 : Bytes) (rest : List (Event wire)) : Prop where
  sent : ∃ outbound begun inbound confirm ended,
    transfers events = ⟨.write outbound, begun⟩ :: ⟨.read (crypto.spake2.messageLen + 1), Io.done inbound⟩ ::
      ⟨.write confirm, ended⟩ :: rest ∧
    clientKey crypto coins keys inbound = some key1 ∧
    ∃ value, crypto.hkdf 32 key1 confirmClientToServer = some value ∧ confirm = value.toList

variable (crypto) in
/-- The server's confirmation value comes next, and it is the right one. -/
def Proven (key1 : Bytes) (rest : List (Event wire)) : Prop :=
  ∃ expect later, crypto.hkdf 32 key1 confirmServerToClient = some expect ∧ rest = ⟨.read 32, Io.done expect⟩ :: later

def Reached {A : Type} (crypto : Primitives) (coins : Coins) (keys : AuthKey × Salt) (events : List (Event wire))
    (result : Except AuthSnowErrors (Option A)) : Prop :=
  (∃ e, result = .error e ∧ (transfers events).length ≤ 2) ∨ result = .error .failedToConfirmMutualAuthSpake2 ∨
    result = .ok none ∨ ∃ key1 rest, Guessed crypto coins keys events key1 rest ∧ Proven crypto key1 rest

theorem traces_exchangeClient {keys : AuthKey × Salt} {events : List (Event wire)}
    {result : Except AuthSnowErrors (Bytes × Bytes)}
    (traced : (spake2ExchangeClient crypto coins.spake2 keys.1 keys.2 []).run.Traces events result) :
    (∃ e, result = .error e ∧ events.length ≤ 2) ∨
    ∃ outbound begun inbound key1 transcript, result = .ok (key1, transcript) ∧
      events = [⟨.write outbound, begun⟩, ⟨.read (crypto.spake2.messageLen + 1), Io.done inbound⟩] ∧
      clientKey crypto coins keys inbound = some key1 := by
  rw [spake2ExchangeClient, Attempt.traces_bind] at traced
  obtain ⟨e, failed, rfl⟩ | ⟨first, rest, _, rfl, wrote, traced⟩ := traced
  · obtain ⟨io, rfl⟩ := traces_writeAll failed
    exact .inl ⟨e, rfl, by simp⟩
  obtain rfl := (yields_writeAll _ _ _).mp wrote
  rw [Attempt.traces_bind] at traced
  obtain ⟨e, failed, rfl⟩ | ⟨first, rest, inbound, rfl, came, traced⟩ := traced
  · obtain ⟨io, rfl⟩ := traces_readExact failed
    exact .inl ⟨e, rfl, by simp⟩
  obtain rfl := (yields_readExact _ _ _).mp came
  rw [Attempt.traces_bind] at traced
  obtain ⟨e, failed, rfl⟩ | ⟨first, rest, message, rfl, opened, traced⟩ := traced
  · obtain rfl := Attempt.traces_require failed
    exact .inl ⟨e, rfl, by simp⟩
  obtain ⟨rfl, untagged⟩ := (Attempt.yields_require _ _ _ _).mp opened
  rw [Attempt.traces_bind] at traced
  obtain ⟨e, failed, rfl⟩ | ⟨first, rest, key1, rfl, finished, traced⟩ := traced
  · obtain rfl := Attempt.traces_require failed
    exact .inl ⟨e, rfl, by simp⟩
  obtain ⟨rfl, shared⟩ := (Attempt.yields_require _ _ _ _).mp finished
  obtain ⟨rfl, rfl⟩ := traced
  refine .inr ⟨_, _, inbound, key1, _, rfl, rfl, ?_⟩
  rw [clientKey, untagged, Option.bind_some]
  exact shared

/-- Only the right value of the server makes the confirmation succeed. -/
theorem yields_confirmClient {key1 transcript transcript' : Bytes} {events : List (Event wire)}
    (yields : Attempt.Yields (spake2ConfirmMutualAuthClient crypto key1 transcript) events (true, transcript')) :
    ∃ confirm expect, crypto.hkdf 32 key1 confirmClientToServer = some confirm ∧
      crypto.hkdf 32 key1 confirmServerToClient = some expect ∧
      events = [⟨.write confirm.toList, Io.done ()⟩, ⟨.read 32, Io.done expect⟩] := by
  rw [spake2ConfirmMutualAuthClient, Attempt.yields_bind] at yields
  obtain ⟨first, rest, confirm, rfl, made, yields⟩ := yields
  rw [Attempt.yields_bind] at yields
  obtain ⟨second, rest, expect, rfl, expected, yields⟩ := yields
  rw [Attempt.yields_bind] at yields
  obtain ⟨third, rest, _, rfl, wrote, yields⟩ := yields
  rw [Attempt.yields_bind] at yields
  obtain ⟨fourth, rest, received, rfl, came, yields⟩ := yields
  obtain ⟨rfl, confirms⟩ := (Attempt.yields_require _ _ _ _).mp made
  obtain ⟨rfl, expects⟩ := (Attempt.yields_require _ _ _ _).mp expected
  obtain rfl := (yields_writeAll _ _ _).mp wrote
  obtain rfl := (yields_readExact _ _ _).mp came
  split at yields
  · obtain ⟨rfl, same⟩ := yields
    cases same
  · next right =>
    obtain ⟨rfl, -⟩ := yields
    rw [ne_eq, not_not] at right
    subst right
    exact ⟨confirm, expect, confirms, expects, rfl⟩

theorem reached_keyExchange {keys : AuthKey × Salt} {events : List (Event wire)} {result : Except AuthSnowErrors (Option PskInput)}
    (traced : (keyExchangeClient crypto coins keys.1 keys.2).run.Traces events result) :
    Reached crypto coins keys events result := by
  rw [keyExchangeClient, Attempt.traces_bind] at traced
  obtain ⟨e, failed, rfl⟩ | ⟨first, rest, ⟨key1, transcript⟩, rfl, exchanged, traced⟩ := traced
  · obtain ⟨own, failed, same⟩ := (Attempt.traces_mapError _ _ _ _).mp failed
    obtain ⟨_, -, short⟩ | ⟨_, _, _, _, _, rfl, -⟩ := traces_exchangeClient failed
    · exact .inl ⟨e, rfl, Nat.le_trans (List.length_filterMap_le _ _) short⟩
    · cases same
  have exchanged := (Attempt.yields_mapError _ _ _ _).mp exchanged
  obtain ⟨_, failed, -⟩ | ⟨outbound, begun, inbound, _, _, same, rfl, shared⟩ := traces_exchangeClient exchanged
  · cases failed
  cases same
  rw [Attempt.traces_bind] at traced
  obtain ⟨e, failed, rfl⟩ | ⟨confirming, rest, ⟨confirmed, transcript⟩, rfl, confirms, traced⟩ := traced
  · obtain ⟨own, -, same⟩ := (Attempt.traces_mapError _ _ _ _).mp failed
    cases own with
    | ok _ => cases same
    | error _ =>
        cases same
        exact .inr (.inl rfl)
  cases confirmed with
  | false =>
      obtain ⟨-, rfl⟩ := traced
      exact .inr (.inr (.inl rfl))
  | true =>
      obtain ⟨confirm, expect, proves, expects, rfl⟩ := yields_confirmClient ((Attempt.yields_mapError _ _ _ _).mp confirms)
      refine .inr (.inr (.inr ⟨key1, ⟨.read 32, Io.done expect⟩ :: transfers rest, ⟨?_⟩, expect, _, expects, rfl⟩))
      exact ⟨outbound, begun, inbound, _, _, rfl, shared, confirm, proves, rfl⟩

/-! ## The whole handshake -/

theorem Reached.fails {A B : Type} {keys : AuthKey × Salt} {events : List (Event wire)} {e : AuthSnowErrors}
    (reached : Reached crypto coins keys events (.error e : Except AuthSnowErrors (Option A))) :
    Reached crypto coins keys events (.error e : Except AuthSnowErrors (Option B)) := by
  obtain ⟨_, same, short⟩ | same | same | proven := reached
  · cases same
    exact .inl ⟨e, rfl, short⟩
  · cases same
    exact .inr (.inl rfl)
  · cases same
  · exact .inr (.inr (.inr proven))

/-- Once the server has proven itself, more conversation does not change that. -/
theorem Guessed.append {keys : AuthKey × Salt} {first later : List (Event wire)} {key1 : Bytes} {rest : List (Event wire)}
    (guessed : Guessed crypto coins keys first key1 rest) : Guessed crypto coins keys (first ++ later) key1 (rest ++ transfers later) := by
  obtain ⟨outbound, begun, inbound, confirm, ended, sent, shared, proves⟩ := guessed.sent
  refine ⟨outbound, begun, inbound, confirm, ended, ?_, shared, proves⟩
  rw [transfers, List.filterMap_append, show first.filterMap transfer = _ from sent]
  rfl

theorem reached_handshake {keys : AuthKey × Salt} {events : List (Event wire)} {result : Except AuthSnowErrors (Option Identified)}
    (traced : (handshake crypto .client name coins keys.1 keys.2 deviceKeypairs).run.Traces events result) :
    Reached crypto coins keys events result := by
  rw [handshake, Attempt.traces_bind] at traced
  obtain ⟨e, failed, rfl⟩ | ⟨first, rest, input, rfl, exchanged, traced⟩ := traced
  · exact (reached_keyExchange failed).fails
  obtain ⟨_, same, -⟩ | same | same | ⟨key1, later, guessed, expect, last, expects, rfl⟩ := reached_keyExchange exchanged
  · cases same
  · cases same
  · cases same
    obtain ⟨-, rfl⟩ := traced
    exact .inr (.inr (.inl rfl))
  · exact .inr (.inr (.inr ⟨key1, _, guessed.append, expect, _, expects, rfl⟩))

theorem Guessed.unique {keys : AuthKey × Salt} {events : List (Event wire)} {key1 key1' : Bytes} {rest rest' : List (Event wire)}
    (first : Guessed crypto coins keys events key1 rest) (second : Guessed crypto coins keys events key1' rest') :
    key1 = key1' ∧ rest = rest' := by
  obtain ⟨_, _, inbound, _, _, sent, shared, -⟩ := first.sent
  obtain ⟨_, _, inbound', _, _, sent', shared', -⟩ := second.sent
  have same := sent.symm.trans sent'
  simp only [List.cons.injEq, Event.mk.injEq, true_and] at same
  obtain ⟨-, read, -, rest⟩ := same
  cases read
  exact ⟨Option.some.inj (shared.symm.trans shared'), rest⟩

theorem Guessed.long {keys : AuthKey × Salt} {events : List (Event wire)} {key1 : Bytes} {rest : List (Event wire)}
    (guessed : Guessed crypto coins keys events key1 rest) : 2 < (transfers events).length := by
  obtain ⟨_, _, _, _, _, sent, -⟩ := guessed.sent
  rw [sent]
  simp

theorem Guessed.congr {keys : AuthKey × Salt} {events events' : List (Event wire)} {key1 : Bytes} {rest : List (Event wire)}
    (guessed : Guessed crypto coins keys events key1 rest) (same : transfers events = transfers events') :
    Guessed crypto coins keys events' key1 rest := by
  obtain ⟨outbound, begun, inbound, confirm, ended, sent, shared⟩ := guessed.sent
  exact ⟨outbound, begun, inbound, confirm, ended, same.symm.trans sent, shared⟩

/-- Our confirmation value went out, and no right value of the server came back. -/
def Unconfirmed (crypto : Primitives) (coins : Coins) (talk : List (Event wire)) : Prop :=
  ∃ (keys : AuthKey × Salt) (said : List (Event wire)) (key1 : Bytes) (rest : List (Event wire)),
    talk = ⟨.readKeys, keys⟩ :: said ∧ Guessed crypto coins keys said key1 rest ∧ ¬ Proven crypto key1 rest

theorem unconfirmed_authOutgoing {talk : List (Event wire)} {ended : Except AuthSnowErrors (Option Authenticated)}
    (traced : (authOutgoing crypto name coins deviceKeypairs pairing).run.Traces talk ended)
    (unconfirmed : Unconfirmed crypto coins talk) :
    ended = .error .handshakeTimeout ∨ ended = .error .failedToConfirmMutualAuthSpake2 ∨ ended = .ok none := by
  obtain ⟨keys, said, key1, rest, rfl, guessed, unproven⟩ := unconfirmed
  rw [authOutgoing, authenticate, Attempt.traces_bind] at traced
  obtain ⟨e, failed, -⟩ | ⟨first, rest, found, talk, asked, traced⟩ := traced
  · obtain ⟨_, -, same⟩ := Attempt.traces_lift failed
    cases same
  obtain rfl := (Attempt.yields_perform _ _ _).mp asked
  cases talk
  rw [Attempt.traces_bind] at traced
  obtain ⟨e, failed, -⟩ | ⟨limited, rest, identified, rfl, shaken, traced⟩ := traced
  · obtain ⟨_, -, same⟩ := Attempt.traces_lift failed
    cases same
  have shaken := (Attempt.yields_lift _ _ _).mp shaken
  cases identified with
  | none =>
      obtain ⟨-, rfl⟩ := traced
      exact .inl rfl
  | some result =>
      obtain ⟨own, shaken, seen⟩ := Proc.traces_limited shaken
      have same : transfers own = transfers limited := seen _ transfer fun _ => rfl
      have unproven' : ¬ ∃ key1' rest', Guessed crypto coins keys own key1' rest' ∧ Proven crypto key1' rest' := by
        rintro ⟨key1', _, guessed', expect, later, expects, rfl⟩
        have whole : transfers (own ++ rest) = transfers (limited ++ rest) := by
          rw [transfers, transfers, List.filterMap_append, List.filterMap_append]
          exact congrArg (· ++ _) same
        obtain ⟨rfl, said⟩ := guessed.unique (guessed'.append.congr whole)
        exact unproven ⟨expect, _, expects, said⟩
      obtain ⟨e, rfl, short⟩ | rfl | rfl | proven := reached_handshake shaken
      · -- it failed before our value went out
        obtain ⟨rfl, rfl⟩ := traced
        have long : 2 < (transfers (limited ++ [])).length := guessed.long
        rw [List.append_nil, ← same] at long
        exact absurd long (Nat.not_lt.mpr short)
      · obtain ⟨rfl, rfl⟩ := traced
        exact .inr (.inl rfl)
      · obtain ⟨rfl, rfl⟩ := traced
        exact .inr (.inr rfl)
      · exact absurd proven unproven'

/-- Whatever the server does: an attempt whose confirmation value went out, and to
which the right one did not come back, is recorded as one failure of the server's
address. A success is recorded only behind a conversation that authenticated it. -/
theorem guesses_counted {events : List (Event (wire.sum calls))} {result : Except TcpNetworkerErrors Authenticated}
    (traced : (authenticateOutgoing crypto name coins deviceKeypairs pairing connectAddr).Traces events result) :
    (Unconfirmed crypto coins (conversation events) → recorded events = [.recordFailure connectAddr.ip]) ∧
    ∀ ip, .recordSuccess ip ∈ recorded events → ∃ own authenticated rest,
      events = ⟨.inr (.isLocked connectAddr.ip), false⟩ :: (own.map Event.left ++ rest) ∧
      (authOutgoing crypto name coins deviceKeypairs pairing).run.Traces own (.ok (some authenticated)) ∧
      recorded rest = [.recordSuccess connectAddr.ip] ∧ conversation rest = [] ∧ result = .ok authenticated := by
  obtain ⟨rfl, -⟩ | ⟨own, ended, rest, rfl, talked, told, silent, returned⟩ := traces_authenticateOutgoing traced
  · constructor
    · rintro ⟨_, _, _, _, never, -⟩
      cases never
    · exact fun ip never => absurd never (List.not_mem_nil)
  have records : recorded (⟨.inr (.isLocked connectAddr.ip), false⟩ :: (own.map Event.left ++ rest)) = verdict connectAddr.ip ended := by
    show recorded (own.map Event.left ++ rest) = _
    rw [recorded_append, recorded_left, List.nil_append, told]
  have talk : conversation (⟨.inr (.isLocked connectAddr.ip), false⟩ :: (own.map Event.left ++ rest)) = own := by
    show conversation (own.map Event.left ++ rest) = _
    rw [conversation_append, conversation_left, silent, List.append_nil]
  constructor
  · intro unconfirmed
    rw [talk] at unconfirmed
    rw [records]
    obtain rfl | rfl | rfl := unconfirmed_authOutgoing talked unconfirmed
    · rfl
    · rfl
    · rfl
  · intro ip success
    rw [records] at success
    match ended, told, talked, success, returned with
    | .ok (some authenticated), told, talked, _, returned => exact ⟨own, authenticated, rest, rfl, talked, told, silent, returned _ rfl⟩
    | .ok none, _, _, success, _ => simp [verdict] at success
    | .error e, _, _, success, _ =>
        rw [verdict] at success
        split at success
        · simp at success
        · cases success

def hangsUp : (op : (wire.sum calls).Op) → (wire.sum calls).Reply op
  | .inl .readKeys => (.replicate 32 1, .replicate 32 2)
  | .inl (.write _) => Io.done ()
  | .inl (.read size) =>
      match size with
      | 34 => Io.done (tagged (.replicate 33 7) KexTags.outboundMsg.byte)
      | _ => Io.failed
  | .inl (.noise _ _) => .error .handshakeTimeout
  | .inl (.send _ _) => Io.failed
  | .inl (.receive _ _) => Io.failed
  | .inl .deadline => false
  | .inl .readPeers => []
  | .inl (.savePeer _) => .ok ()
  | .inl (.trySend _ _ _) => false
  | .inl (.answer _) => .dropped
  | .inl .notifySaved => ()
  | .inl (.identified _) => ()
  | .inr (.isLocked _) => false
  | .inr (.recordFailure _) | .inr (.recordSuccess _) | .inr (.wrongPasswordAt _ _) | .inr (.seen _ _) => ()

theorem guesses_counted_hangsUp :
    ∃ events result, (authenticateOutgoing .plain "phone" ⟨[], none, none, none, none⟩ ⟨(), .replicate _ 0⟩ .refuseAll
        (.v4 (.replicate 4 10) 3232)).Traces events result ∧
      recorded events = [.recordFailure (.v4 (.replicate 4 10))] := by
  have traced := Proc.traces_answered hangsUp (authenticateOutgoing .plain "phone" ⟨[], none, none, none, none⟩
    ⟨(), .replicate _ 0⟩ .refuseAll (.v4 (.replicate 4 10) 3232))
  refine ⟨_, _, traced, (guesses_counted traced).1 ?_⟩
  refine ⟨(.replicate 32 1, .replicate 32 2), _, List.replicate 33 7, [⟨.read 32, Io.failed⟩], rfl, ⟨?_⟩, ?_⟩
  · exact ⟨_, _, tagged (.replicate 33 7) KexTags.outboundMsg.byte, _, _, rfl, rfl, _, rfl, rfl⟩
  · rintro ⟨_, _, -, same⟩
    cases same

end Outgoing

end CesaConn
