import CesaConn.Auth.Kex
import CesaConn.Program.Duplex

/-! Both devices see one conversation, or they derive different keys.

Honest devices end with one transcript however their reads and writes
interleave. Against an attacker, the messages have fixed lengths in a fixed
order, so a transcript can be cut back into its messages: two devices with one
transcript have exchanged exactly those.
-/

set_option autoImplicit false

namespace CesaConn

open Format Program

namespace Auth

open Vault Attempt

/-! ## Conversations -/

/-- Messages in the order of the transcript, each with the device that sent it. -/
abbrev Conversation := List (Role × Bytes)

namespace Conversation

def transcript (conversation : Conversation) : Bytes := (conversation.map Prod.snd).flatten

def said (conversation : Conversation) (role : Role) : List Bytes :=
  (conversation.filter fun message => message.1 = role).map Prod.snd

def layout (conversation : Conversation) : List (Role × Nat) :=
  conversation.map fun message => (message.1, message.2.length)

/-- A transcript of a known layout can be cut back into its messages. -/
theorem eq_of_transcript {first second : Conversation} (layouts : first.layout = second.layout)
    (same : first.transcript = second.transcript) : first = second := by
  induction first generalizing second with
  | nil => exact (List.map_eq_nil_iff.mp layouts.symm).symm
  | cons message rest ih =>
      obtain ⟨role, bytes⟩ := message
      cases second with
      | nil => cases layouts
      | cons message' rest' =>
          obtain ⟨role', bytes'⟩ := message'
          simp only [layout, List.map_cons, List.cons.injEq, Prod.mk.injEq] at layouts
          obtain ⟨⟨rfl, length⟩, layouts⟩ := layouts
          simp only [transcript, List.map_cons, List.flatten_cons] at same
          obtain ⟨rfl, remaining⟩ := List.append_inj same length
          rw [ih layouts remaining]

end Conversation

def sent (events : List (Event wire)) : List Bytes :=
  events.filterMap fun
    | ⟨.write bytes, _⟩ => some bytes
    | _ => none

def received (events : List (Event wire)) : List Bytes :=
  events.filterMap fun
    | ⟨.read _, .done block⟩ => some block.toList
    | _ => none

/-- A part of the handshake, as one device sees it: what it adds to the transcript,
sends and receives is one conversation of a known layout. -/
def Converses (role : Role) (layout : List (Role × Nat)) (before after : Bytes) (events : List (Event wire)) : Prop :=
  ∃ conversation : Conversation, conversation.layout = layout ∧ after = before ++ conversation.transcript ∧
    sent events = conversation.said role ∧ received events = conversation.said role.other

theorem Converses.append {role : Role} {first second : List (Role × Nat)} {before mid after : Bytes}
    (events later : List (Event wire)) (left : Converses role first before mid events)
    (right : Converses role second mid after later) :
    Converses role (first ++ second) before after (events ++ later) := by
  obtain ⟨conversation, rfl, rfl, out, into⟩ := left
  obtain ⟨conversation', rfl, rfl, out', into'⟩ := right
  refine ⟨conversation ++ conversation', ?_, ?_, ?_, ?_⟩
  · simp [Conversation.layout]
  · simp [Conversation.transcript]
  · simpa [sent, Conversation.said] using congrArg₂ (· ++ ·) out out'
  · simpa [received, Conversation.said] using congrArg₂ (· ++ ·) into into'

/-- Equal transcripts mean that every message arrived as it was sent. -/
theorem Converses.agree {layout : List (Role × Nat)} {transcript : Bytes} {client server : List (Event wire)}
    (left : Converses .client layout [] transcript client) (right : Converses .server layout [] transcript server) :
    received server = sent client ∧ received client = sent server := by
  obtain ⟨conversation, layouts, same, out, into⟩ := left
  obtain ⟨conversation', layouts', same', out', into'⟩ := right
  have one : conversation = conversation' :=
    Conversation.eq_of_transcript (layouts.trans layouts'.symm) (by simpa using same.symm.trans same')
  subst one
  exact ⟨into'.trans out.symm, into.trans out'.symm⟩

variable {crypto : Primitives} {coins : Coins}

theorem converses_server {size size' : Nat} (theirs : Block size) (ours : Block size') (before : Bytes)
    {events : List (Event wire)} (out : sent events = [ours.toList]) (into : received events = [theirs.toList]) :
    Converses .server [(.client, size), (.server, size')] before (before ++ (theirs.toList ++ ours.toList)) events :=
  ⟨[(.client, theirs.toList), (.server, ours.toList)], by simp [Conversation.layout],
    by simp [Conversation.transcript], out, into⟩

theorem converses_client {size size' : Nat} (ours : Block size) (theirs : Block size') (before : Bytes)
    {events : List (Event wire)} (out : sent events = [ours.toList]) (into : received events = [theirs.toList]) :
    Converses .client [(.client, size), (.server, size')] before (before ++ (ours.toList ++ theirs.toList)) events :=
  ⟨[(.client, ours.toList), (.server, theirs.toList)], by simp [Conversation.layout],
    by simp [Conversation.transcript], out, into⟩

theorem converses_recvConfirm {before after : Bytes} {events : List (Event wire)}
    (yields : Yields (recvConfirm before) events after) : Converses .server [(.client, 2)] before after events := by
  simp only [recvConfirm, yields_bind, yields_readExact, yields_require, yields_ensure, yields_pure] at yields
  obtain ⟨_, _, confirm, rfl, rfl, _, _, accepted, rfl, ⟨rfl, -⟩, _, _, _, rfl, ⟨rfl, -⟩, rfl, rfl⟩ := yields
  exact ⟨[(.client, confirm.toList)], by simp [Conversation.layout], by simp [Conversation.transcript], rfl, rfl⟩

theorem converses_sendConfirm {accepted : Bool} {before after : Bytes} {events : List (Event wire)}
    (yields : Yields (sendConfirm accepted before) events after) :
    Converses .client [(.client, 2)] before after events := by
  simp only [sendConfirm, yields_bind, yields_writeAll, yields_pure] at yields
  obtain ⟨_, _, _, rfl, rfl, rfl, rfl⟩ := yields
  exact ⟨[(.client, (tagged (flag accepted) KexTags.confirmByte.byte).toList)], by simp [Conversation.layout],
    by simp [Conversation.transcript], rfl, rfl⟩

/-! ## The layout of the handshake -/

def spake2Layout (crypto : Primitives) : List (Role × Nat) :=
  [(.client, crypto.spake2.messageLen + 1), (.server, crypto.spake2.messageLen + 1)]

def confirmLayout : List (Role × Nat) := [(.client, 32), (.server, 32)]

def x25519Layout : List (Role × Nat) := [(.client, 32 + 1), (.server, 32 + 1)] ++ [(.client, 2)]

def mlkemLayout : List (Role × Nat) :=
  [(.client, mlkem1024PublicKeyLen + 1), (.server, mlkem1024CiphertextLen + 1)] ++ [(.client, 2)]

def handshakeLayout (crypto : Primitives) : List (Role × Nat) :=
  spake2Layout crypto ++ (confirmLayout ++ (x25519Layout ++ mlkemLayout))

theorem converses_spake2ExchangeServer {seed : Bytes} {aKey : AuthKey} {aSalt : Salt} {before after key1 : Bytes}
    {events : List (Event wire)}
    (yields : Yields (spake2ExchangeServer crypto seed aKey aSalt before) events (key1, after)) :
    Converses .server (spake2Layout crypto) before after events := by
  simp only [spake2ExchangeServer, yields_bind, yields_writeAll, yields_readExact, yields_require, yields_pure,
    Prod.mk.injEq] at yields
  obtain ⟨_, _, _, rfl, rfl, _, _, inbound, rfl, rfl, _, _, _, rfl, ⟨rfl, -⟩, _, _, _, rfl, ⟨rfl, -⟩, rfl, -, rfl⟩ :=
    yields
  exact converses_server _ _ _ rfl rfl

theorem converses_spake2ExchangeClient {seed : Bytes} {aKey : AuthKey} {aSalt : Salt} {before after key1 : Bytes}
    {events : List (Event wire)}
    (yields : Yields (spake2ExchangeClient crypto seed aKey aSalt before) events (key1, after)) :
    Converses .client (spake2Layout crypto) before after events := by
  simp only [spake2ExchangeClient, yields_bind, yields_writeAll, yields_readExact, yields_require, yields_pure,
    Prod.mk.injEq] at yields
  obtain ⟨_, _, _, rfl, rfl, _, _, inbound, rfl, rfl, _, _, _, rfl, ⟨rfl, -⟩, _, _, _, rfl, ⟨rfl, -⟩, rfl, -, rfl⟩ :=
    yields
  exact converses_client _ _ _ rfl rfl

theorem converses_spake2ConfirmMutualAuthServer {key1 before after : Bytes} {events : List (Event wire)}
    (yields : Yields (spake2ConfirmMutualAuthServer crypto key1 before) events (true, after)) :
    Converses .server confirmLayout before after events := by
  simp only [spake2ConfirmMutualAuthServer, yields_bind, yields_readExact, yields_require] at yields
  obtain ⟨_, _, expect, rfl, ⟨rfl, -⟩, _, _, confirm, rfl, rfl, decided⟩ := yields
  split at decided
  · simp at decided
  · simp only [yields_bind, yields_require, yields_writeAll, yields_pure, Prod.mk.injEq] at decided
    obtain ⟨_, _, answer, rfl, ⟨rfl, -⟩, _, _, _, rfl, rfl, rfl, -, rfl⟩ := decided
    exact converses_server _ _ _ rfl rfl

theorem converses_spake2ConfirmMutualAuthClient {key1 before after : Bytes} {events : List (Event wire)}
    (yields : Yields (spake2ConfirmMutualAuthClient crypto key1 before) events (true, after)) :
    Converses .client confirmLayout before after events := by
  simp only [spake2ConfirmMutualAuthClient, yields_bind, yields_readExact, yields_writeAll, yields_require] at yields
  obtain ⟨_, _, confirm, rfl, ⟨rfl, -⟩, _, _, _, rfl, ⟨rfl, -⟩, _, _, _, rfl, rfl, _, _, answer, rfl, rfl, decided⟩ :=
    yields
  split at decided
  · simp at decided
  · simp only [yields_pure, Prod.mk.injEq] at decided
    obtain ⟨rfl, -, rfl⟩ := decided
    exact converses_client _ _ _ rfl rfl

theorem converses_x25519KexServer {random : Option (Block 32)} {before after : Bytes} {ss : SsKey}
    {events : List (Event wire)} (yields : Yields (x25519KexServer crypto random before) events (ss, after)) :
    Converses .server x25519Layout before after events := by
  simp only [x25519KexServer, yields_bind, yields_readExact, yields_writeAll, yields_require, yields_pure,
    Prod.mk.injEq] at yields
  obtain ⟨_, _, _, rfl, ⟨rfl, -⟩, _, _, theirs, rfl, rfl, _, _, _, rfl, ⟨rfl, -⟩, _, _, _, rfl, ⟨rfl, -⟩,
    _, _, _, rfl, rfl, events, _, _, rfl, confirm, rfl, -, rfl⟩ := yields
  rw [List.append_nil]
  exact .append [_, _] _ (converses_server _ _ _ rfl rfl) (converses_recvConfirm confirm)

theorem converses_x25519KexClient {random : Option (Block 32)} {before after : Bytes} {ss : SsKey}
    {events : List (Event wire)} (yields : Yields (x25519KexClient crypto random before) events (ss, after)) :
    Converses .client x25519Layout before after events := by
  simp only [x25519KexClient, yields_bind, yields_readExact, yields_writeAll, yields_require, yields_pure,
    Prod.mk.injEq] at yields
  obtain ⟨_, _, _, rfl, ⟨rfl, -⟩, _, _, _, rfl, rfl, _, _, theirs, rfl, rfl, _, _, _, rfl, ⟨rfl, -⟩,
    events, _, _, rfl, confirm, _, _, _, rfl, ⟨rfl, -⟩, rfl, -, rfl⟩ := yields
  simp only [List.append_nil, List.nil_append]
  exact .append [_, _] _ (converses_client _ _ _ rfl rfl) (converses_sendConfirm confirm)

theorem converses_mlkemKexServer {random : Option (Block 32)} {before after : Bytes} {ss : SsKey}
    {events : List (Event wire)} (yields : Yields (mlkemKexServer crypto random before) events (ss, after)) :
    Converses .server mlkemLayout before after events := by
  simp only [mlkemKexServer, yields_bind, yields_readExact, yields_writeAll, yields_require, yields_ensure,
    yields_pure, Prod.mk.injEq] at yields
  obtain ⟨_, _, theirs, rfl, rfl, _, _, _, rfl, ⟨rfl, -⟩, _, _, _, rfl, ⟨rfl, -⟩, _, _, _, rfl, ⟨rfl, -⟩,
    _, _, _, rfl, rfl, events, _, _, rfl, confirm, rfl, -, rfl⟩ := yields
  rw [List.append_nil]
  exact .append [_, _] _ (converses_server _ _ _ rfl rfl) (converses_recvConfirm confirm)

theorem converses_mlkemKexClient {random : Option (Block 64)} {before after : Bytes} {ss : SsKey}
    {events : List (Event wire)} (yields : Yields (mlkemKexClient crypto random before) events (ss, after)) :
    Converses .client mlkemLayout before after events := by
  simp only [mlkemKexClient, yields_bind, yields_readExact, yields_writeAll, yields_require, yields_pure,
    Prod.mk.injEq] at yields
  obtain ⟨_, _, _, rfl, ⟨rfl, -⟩, _, _, _, rfl, rfl, _, _, theirs, rfl, rfl, _, _, _, rfl, ⟨rfl, -⟩,
    events, _, _, rfl, confirm, rfl, -, rfl⟩ := yields
  rw [List.append_nil]
  exact .append [_, _] _ (converses_client _ _ _ rfl rfl) (converses_sendConfirm confirm)

theorem converses_hybridKexServer {before after : Bytes} {kep : HybridKep} {events : List (Event wire)}
    (yields : Yields (hybridKexServer crypto coins before) events (kep, after)) :
    Converses .server (x25519Layout ++ mlkemLayout) before after events := by
  simp only [hybridKexServer, yields_bind, yields_mapError, yields_pure, Prod.mk.injEq] at yields
  obtain ⟨_, _, ⟨_, _⟩, rfl, x25519, _, _, ⟨_, _⟩, rfl, mlkem, rfl, -, rfl⟩ := yields
  rw [List.append_nil]
  exact .append _ _ (converses_x25519KexServer x25519) (converses_mlkemKexServer mlkem)

theorem converses_hybridKexClient {before after : Bytes} {kep : HybridKep} {events : List (Event wire)}
    (yields : Yields (hybridKexClient crypto coins before) events (kep, after)) :
    Converses .client (x25519Layout ++ mlkemLayout) before after events := by
  simp only [hybridKexClient, yields_bind, yields_mapError, yields_pure, Prod.mk.injEq] at yields
  obtain ⟨_, _, ⟨_, _⟩, rfl, x25519, _, _, ⟨_, _⟩, rfl, mlkem, rfl, -, rfl⟩ := yields
  rw [List.append_nil]
  exact .append _ _ (converses_x25519KexClient x25519) (converses_mlkemKexClient mlkem)

theorem converses_keyExchangeServer {aKey : AuthKey} {aSalt : Salt} {input : PskInput} {events : List (Event wire)}
    (yields : Yields (keyExchangeServer crypto coins aKey aSalt) events (some input)) :
    Converses .server (handshakeLayout crypto) [] input.transcript events := by
  simp only [keyExchangeServer, yields_bind, yields_mapError] at yields
  obtain ⟨_, _, ⟨_, _⟩, rfl, exchange, _, _, ⟨_ | _, _⟩, rfl, confirm, decided⟩ := yields
  · simp at decided
  · simp only [Bool.not_true, Bool.false_eq_true, if_false, yields_bind, yields_mapError, yields_pure,
      Option.some.injEq] at decided
    obtain ⟨_, _, ⟨_, _⟩, rfl, kex, rfl, rfl⟩ := decided
    rw [List.append_nil]
    exact .append _ _ (converses_spake2ExchangeServer exchange)
      (.append _ _ (converses_spake2ConfirmMutualAuthServer confirm) (converses_hybridKexServer kex))

theorem converses_keyExchangeClient {aKey : AuthKey} {aSalt : Salt} {input : PskInput} {events : List (Event wire)}
    (yields : Yields (keyExchangeClient crypto coins aKey aSalt) events (some input)) :
    Converses .client (handshakeLayout crypto) [] input.transcript events := by
  simp only [keyExchangeClient, yields_bind, yields_mapError] at yields
  obtain ⟨_, _, ⟨_, _⟩, rfl, exchange, _, _, ⟨_ | _, _⟩, rfl, confirm, decided⟩ := yields
  · simp at decided
  · simp only [Bool.not_true, Bool.false_eq_true, if_false, yields_bind, yields_mapError, yields_pure,
      Option.some.injEq] at decided
    obtain ⟨_, _, ⟨_, _⟩, rfl, kex, rfl, rfl⟩ := decided
    rw [List.append_nil]
    exact .append _ _ (converses_spake2ExchangeClient exchange)
      (.append _ _ (converses_spake2ConfirmMutualAuthClient confirm) (converses_hybridKexClient kex))

/-! ## Honest devices -/

/-- What a handshake relies on: honest devices agree in every one of its exchanges. -/
structure Primitives.Correct (crypto : Primitives) : Prop where
  spake2 : ∀ seed seed' password first second, ∃ key,
    crypto.spake2.finish (crypto.spake2.startA seed password first second).1
      (crypto.spake2.startB seed' password first second).2 = some key ∧
    crypto.spake2.finish (crypto.spake2.startB seed' password first second).1
      (crypto.spake2.startA seed password first second).2 = some key
  x25519 : ∀ first second, ∃ key,
    crypto.calculateSharedKey first (crypto.calculatePublicKey second) = some key ∧
    crypto.calculateSharedKey second (crypto.calculatePublicKey first) = some key
  valid : ∀ random, crypto.validatePublicKey (crypto.generateKeyPair random).publicKey
  mlkem : ∀ random random',
    crypto.decapsulate (crypto.generateKeyPair random).privateKey
      (crypto.encapsulate (crypto.generateKeyPair random).publicKey random').1 =
        (crypto.encapsulate (crypto.generateKeyPair random).publicKey random').2
  /-- HKDF refuses only outputs that are too long. -/
  expands : ∀ key label, ∃ output, crypto.hkdf 32 key label = some output

/-- The raw stream of a connection that does not fail. -/
def access : (op : Op) → Access (wire.Reply op)
  | .write bytes => .write bytes (Io.done ())
  | .read size => .read size Io.done
  | _ => .neither

/-- From these bytes in flight the two ends run to their results and leave none. -/
def Meets {A B : Type} (toLeft toRight : List Bytes) (left : Exchange A) (right : Exchange B) (value : A) (value' : B) :
    Prop :=
  ∀ (C D : Type) (k : Except AuthSnowErrors A → Proc wire C) (j : Except AuthSnowErrors B → Proc wire D),
    Duplex.Steps access ⟨left.run >>= k, right.run >>= j, toLeft, toRight, true⟩
      ⟨k (.ok value), j (.ok value'), [], [], true⟩

namespace Meets

variable {A B C D : Type} {toLeft toRight : List Bytes} {value : A} {value' : B}

theorem pure : Meets [] [] (pure value) (pure value') value value' := fun _ _ _ _ => .refl

section

variable {left : Exchange A} {right : Exchange B}

theorem left_write {bytes : Bytes} {f : Unit → Exchange A}
    (later : Meets toLeft (toRight ++ [bytes]) (f ()) right value value') :
    Meets toLeft toRight (writeAll bytes >>= f) right value value' :=
  fun C D k j => .left_write (I := wire) (.write bytes) rfl (later C D k j)

theorem right_write {bytes : Bytes} {g : Unit → Exchange B}
    (later : Meets (toLeft ++ [bytes]) toRight left (g ()) value value') :
    Meets toLeft toRight left (writeAll bytes >>= g) value value' :=
  fun C D k j => .right_write (I := wire) (.write bytes) rfl (later C D k j)

theorem left_read {size : Nat} {block : Block (size + 1)} {f : Block (size + 1) → Exchange A}
    (later : Meets toLeft toRight (f block) right value value') :
    Meets (block.toList :: toLeft) toRight (readExact (size + 1) >>= f) right value value' :=
  fun C D k j => .left_read (I := wire) (.read (size + 1)) block rfl (by simp) (later C D k j)

theorem right_read {size : Nat} {block : Block (size + 1)} {g : Block (size + 1) → Exchange B}
    (later : Meets toLeft toRight left (g block) value value') :
    Meets toLeft (block.toList :: toRight) left (readExact (size + 1) >>= g) value value' :=
  fun C D k j => .right_read (I := wire) (.read (size + 1)) block rfl (by simp) (later C D k j)

theorem left_require {found : C} {option : Option C} {error : AuthSnowErrors} {f : C → Exchange A}
    (same : option = some found) (later : Meets toLeft toRight (f found) right value value') :
    Meets toLeft toRight (require option error >>= f) right value value' :=
  same ▸ later

theorem right_require {found : C} {option : Option C} {error : AuthSnowErrors} {g : C → Exchange B}
    (same : option = some found) (later : Meets toLeft toRight left (g found) value value') :
    Meets toLeft toRight left (require option error >>= g) value value' :=
  same ▸ later

theorem right_ensure {condition : Bool} {error : AuthSnowErrors} {g : Unit → Exchange B}
    (holds : condition = true) (later : Meets toLeft toRight left (g ()) value value') :
    Meets toLeft toRight left (ensure condition error >>= g) value value' :=
  holds ▸ later

end

theorem bind {left : Exchange A} {right : Exchange B} {f : A → Exchange C} {g : B → Exchange D} {result : C} {result' : D}
    (first : Meets toLeft toRight left right value value') (second : Meets [] [] (f value) (g value') result result') :
    Meets toLeft toRight (left >>= f) (right >>= g) result result' := by
  intro E F k j
  simp only [run_bind, Proc.bind_bind]
  exact (first E F _ _).trans (second E F k j)

theorem mapError {left : Exchange A} {right : Exchange B} (h h' : AuthSnowErrors → AuthSnowErrors)
    (meets : Meets toLeft toRight left right value value') :
    Meets toLeft toRight (left.mapError h) (right.mapError h') value value' := by
  intro C D k j
  simp only [Attempt.mapError, ExceptT.run_mk, Proc.bind_bind]
  exact meets C D _ _

end Meets

theorem meets_confirm (transcript : Bytes) :
    Meets [] [] (sendConfirm true transcript) (recvConfirm transcript)
      (transcript ++ (tagged (flag true) KexTags.confirmByte.byte).toList)
      (transcript ++ (tagged (flag true) KexTags.confirmByte.byte).toList) := by
  refine .left_write (.right_read ?_)
  exact .right_require (untag_tagged _ _) (.right_ensure rfl .pure)

section

variable (correct : crypto.Correct)
include correct

theorem meets_spake2Exchange (seed seed' : Bytes) (aKey : AuthKey) (aSalt : Salt) (transcript : Bytes) :
    ∃ result, Meets [] [] (spake2ExchangeClient crypto seed aKey aSalt transcript)
      (spake2ExchangeServer crypto seed' aKey aSalt transcript) result result := by
  obtain ⟨key, client, server⟩ := correct.spake2 seed seed' aKey.toList (identity clientIdentity aSalt)
    (identity serverIdentity aSalt)
  let outbound := (tagged (startClient crypto seed aKey aSalt).2 KexTags.outboundMsg.byte).toList
  let inbound := (tagged (startServer crypto seed' aKey aSalt).2 KexTags.outboundMsg.byte).toList
  refine ⟨(key, transcript ++ (outbound ++ inbound)), ?_⟩
  refine .left_write (.right_write ?_)
  refine .left_read (.right_read ?_)
  refine .left_require (untag_tagged _ _) (.right_require (untag_tagged _ _) ?_)
  exact .left_require client (.right_require server .pure)

theorem meets_spake2Confirm (key1 transcript : Bytes) :
    ∃ after, Meets [] [] (spake2ConfirmMutualAuthClient crypto key1 transcript)
      (spake2ConfirmMutualAuthServer crypto key1 transcript) (true, after) (true, after) := by
  obtain ⟨fromClient, expands⟩ := correct.expands key1 confirmClientToServer
  obtain ⟨fromServer, expands'⟩ := correct.expands key1 confirmServerToClient
  refine ⟨transcript ++ (fromClient.toList ++ fromServer.toList), ?_⟩
  refine .left_require expands (.left_require expands' (.right_require expands ?_))
  refine .left_write (.right_read ?_)
  simp only [ne_eq, not_true_eq_false, if_false]
  refine .right_require expands' (.right_write (.left_read ?_))
  simp only [not_true_eq_false, if_false]
  exact .pure

theorem meets_x25519Kex (first second : Block 32) (transcript : Bytes) :
    ∃ result, Meets [] [] (x25519KexClient crypto (some first) transcript)
      (x25519KexServer crypto (some second) transcript) result result := by
  obtain ⟨key, client, server⟩ := correct.x25519 first second
  let ours := (tagged (crypto.calculatePublicKey first) KexTags.x25519Pub.byte).toList
  let theirs := (tagged (crypto.calculatePublicKey second) KexTags.x25519Pub.byte).toList
  let yes := (tagged (flag true) KexTags.confirmByte.byte).toList
  refine ⟨(key, transcript ++ (ours ++ theirs) ++ yes), ?_⟩
  refine .left_require rfl (.right_require rfl ?_)
  refine .left_write (.right_read ?_)
  refine .right_require (untag_tagged _ _) (.right_require server ?_)
  refine .right_write (.left_read ?_)
  refine .left_require (untag_tagged _ _) ?_
  simp only [client]
  exact .bind (meets_confirm _) (.left_require rfl .pure)

theorem meets_mlkemKex (random : Block 64) (random' : Block 32) (transcript : Bytes) :
    ∃ result, Meets [] [] (mlkemKexClient crypto (some random) transcript)
      (mlkemKexServer crypto (some random') transcript) result result := by
  let publicKey := (crypto.generateKeyPair random).publicKey
  let ours := (tagged publicKey KexTags.mlKeyPub.byte).toList
  let ciphertext := (tagged (crypto.encapsulate publicKey random').1 KexTags.mlKeyPub.byte).toList
  let yes := (tagged (flag true) KexTags.confirmByte.byte).toList
  refine ⟨((crypto.encapsulate publicKey random').2, transcript ++ (ours ++ ciphertext) ++ yes), ?_⟩
  refine .left_require rfl (.left_write (.right_read ?_))
  refine .right_require (untag_tagged _ _) (.right_ensure (correct.valid random) (.right_require rfl ?_))
  refine .right_write (.left_read (.left_require (untag_tagged _ _) ?_))
  rw [correct.mlkem]
  exact .bind (meets_confirm _) .pure

def Coins.Drawn (coins : Coins) : Role → Prop
  | .client => coins.x25519.isSome ∧ coins.keyPair.isSome
  | .server => coins.x25519.isSome ∧ coins.encapsulation.isSome

theorem meets_keyExchange {client server : Coins} (drawn : client.Drawn .client) (drawn' : server.Drawn .server)
    (aKey : AuthKey) (aSalt : Salt) :
    ∃ input, Meets [] [] (keyExchangeClient crypto client aKey aSalt) (keyExchangeServer crypto server aKey aSalt)
      (some input) (some input) := by
  obtain ⟨first, x25519⟩ := Option.isSome_iff_exists.mp drawn.1
  obtain ⟨second, x25519'⟩ := Option.isSome_iff_exists.mp drawn'.1
  obtain ⟨random, keyPair⟩ := Option.isSome_iff_exists.mp drawn.2
  obtain ⟨random', encapsulation⟩ := Option.isSome_iff_exists.mp drawn'.2
  obtain ⟨⟨key1, exchanged⟩, exchange⟩ := meets_spake2Exchange correct client.spake2 server.spake2 aKey aSalt []
  obtain ⟨confirmed, confirm⟩ := meets_spake2Confirm correct key1 exchanged
  obtain ⟨⟨x25519Ss, agreed⟩, classic⟩ := meets_x25519Kex correct first second confirmed
  obtain ⟨⟨mlkemSs, transcript⟩, quantum⟩ := meets_mlkemKex correct random random' agreed
  refine ⟨⟨key1, ⟨x25519Ss, mlkemSs⟩, transcript⟩, ?_⟩
  have hybrid : Meets [] [] (hybridKexClient crypto client confirmed) (hybridKexServer crypto server confirmed)
      (⟨x25519Ss, mlkemSs⟩, transcript) (⟨x25519Ss, mlkemSs⟩, transcript) := by
    unfold hybridKexClient hybridKexServer
    rw [x25519, x25519', keyPair, encapsulation]
    exact .bind (classic.mapError _ _) (.bind (quantum.mapError _ _) .pure)
  exact .bind (exchange.mapError _ _) (.bind (confirm.mapError _ _) (.bind (hybrid.mapError _ _) .pure))

end

def connection (crypto : Primitives) (client server : Coins) (aKey : AuthKey) (aSalt : Salt) :
    Duplex wire (Except AuthSnowErrors (Option PskInput)) (Except AuthSnowErrors (Option PskInput)) :=
  ⟨(keyExchangeClient crypto client aKey aSalt).run, (keyExchangeServer crypto server aKey aSalt).run, [], [], true⟩

def agreed (input : PskInput) :
    Duplex wire (Except AuthSnowErrors (Option PskInput)) (Except AuthSnowErrors (Option PskInput)) :=
  ⟨.done (.ok (some input)), .done (.ok (some input)), [], [], true⟩

theorem steps_connection (correct : crypto.Correct) {client server : Coins} (drawn : client.Drawn .client)
    (drawn' : server.Drawn .server) (aKey : AuthKey) (aSalt : Salt) :
    ∃ input, Duplex.Steps access (connection crypto client server aKey aSalt) (agreed input) := by
  obtain ⟨input, meets⟩ := meets_keyExchange correct drawn drawn' aKey aSalt
  have run := meets _ _ .done .done
  rw [Proc.bind_done, Proc.bind_done] at run
  exact ⟨input, run⟩

/-! ## The key and the transcript -/

theorem PskInput.material_ne {input input' : PskInput} {hash hash' : Block 32} (different : hash ≠ hash') :
    input.material hash ≠ input'.material hash' := by
  intro same
  simp only [PskInput.material, ← List.append_assoc] at same
  exact different (List.Vector.toList_injective (List.append_inj_right' same (by simp)))

/-- Honest devices with one key and one salt come to one transcript and one input of
the derivation in every order of their steps: no read waits in vain and each takes
one message. Under attack, both come to the derivation with a message altered only
with different transcripts, so with different bytes unless HKDF collides on these two. -/
theorem handshake_transcript (crypto : Primitives) :
    (crypto.Correct → ∀ (client server : Coins) (aKey : AuthKey) (aSalt : Salt),
      client.Drawn .client → server.Drawn .server →
      ∃ input, (∀ mid, Duplex.Steps access (connection crypto client server aKey aSalt) mid →
          mid.aligned ∧ Duplex.Steps access mid (agreed input)) ∧
        Acc (fun next now => Duplex.Step access now next) (connection crypto client server aKey aSalt)) ∧
    ∀ (client server : Coins) (aKey aKey' : AuthKey) (aSalt aSalt' : Salt) (events events' : List (Event wire))
      (input input' : PskInput),
      Yields (keyExchangeClient crypto client aKey aSalt) events (some input) →
      Yields (keyExchangeServer crypto server aKey' aSalt') events' (some input') →
      received events' ≠ sent events ∨ received events ≠ sent events' →
      input.transcript ≠ input'.transcript ∧
        ∀ hash hash', crypto.hkdf 32 input.transcript [] = some hash →
          crypto.hkdf 32 input'.transcript [] = some hash' →
          (hash = hash' → input.transcript = input'.transcript) → input.material hash ≠ input'.material hash' := by
  constructor
  · intro correct client server aKey aSalt drawn drawn'
    obtain ⟨input, ends⟩ := steps_connection correct drawn drawn' aKey aSalt
    refine ⟨input, fun mid reached => ?_, Duplex.wellFounded_step.apply _⟩
    have onward := ends.converge (fun _ => Duplex.not_step_done) reached
    exact ⟨onward.aligned rfl, onward⟩
  · intro client server aKey aKey' aSalt aSalt' events events' input input' left right altered
    have differ : input.transcript ≠ input'.transcript := by
      intro same
      have conversed := converses_keyExchangeServer right
      rw [← same] at conversed
      obtain ⟨toServer, toClient⟩ := (converses_keyExchangeClient left).agree conversed
      exact altered.elim (· toServer) (· toClient)
    exact ⟨differ, fun hash hash' _ _ injective => PskInput.material_ne fun same => differ (injective same)⟩

/-! ## A replaced key -/

theorem Primitives.plain_correct : Primitives.plain.Correct where
  spake2 _ _ _ _ _ := ⟨_, rfl, rfl⟩
  x25519 first second := by
    refine ⟨.replicate 32 (first.head + second.head), rfl, ?_⟩
    show some _ = some _
    rw [UInt8.add_comm]
    rfl
  valid _ := rfl
  mlkem _ _ := rfl
  expands _ _ := ⟨_, rfl⟩

def coinsOf (byte : UInt8) : Coins :=
  ⟨[], some (.replicate 32 byte), some (.replicate 64 byte), some (.replicate 32 byte), some (.replicate 32 byte)⟩

def scripted (script : Nat → Bytes) : (op : Op) → wire.Reply op
  | .write _ => Io.done ()
  | .read size => (toBlock size (script size)).elim Io.failed Io.done
  | .readKeys => (.replicate 32 0, .replicate 32 0)
  | .noise _ _ => .error .failedToReadSnowMessage
  | .send _ _ => Io.failed
  | .receive _ _ => Io.failed
  | .deadline => false
  | .readPeers => []
  | .savePeer _ => .error .failedToPairNewDevice
  | .trySend _ _ _ => false
  | .answer _ => .dropped
  | .notifySaved => ()
  | .identified _ => ()

def arrives (random : Bytes) (key : Block 32) (label : Bytes) (size : Nat) : Bytes :=
  if size = 34 then (tagged (Primitives.plain.spake2.startA [] (List.replicate 32 3) [] []).2 0x01).toList
  else if size = 32 then (checksum 32 ((checksum 33 (List.replicate 32 3)).toList ++ label)).toList
  else if size = 33 then (tagged key 0x01).toList
  else if size = 2 then (tagged (flag true) 0x02).toList
  else (tagged (checksum 1568 random) 0x03).toList

def clientRun : List (Event wire) × Except AuthSnowErrors (Option PskInput) :=
  (keyExchangeClient .plain (coinsOf 1) (.replicate 32 3) (.replicate 32 9)).run.answered
    (scripted (arrives (List.replicate 32 2) (.cons 7 (.replicate 31 2)) confirmServerToClient))

def serverRun : List (Event wire) × Except AuthSnowErrors (Option PskInput) :=
  (keyExchangeServer .plain (coinsOf 2) (.replicate 32 3) (.replicate 32 9)).run.answered
    (scripted (arrives (List.replicate 64 1) (.replicate 32 1) confirmClientToServer))

def reached (run : List (Event wire) × Except AuthSnowErrors (Option PskInput)) : Option PskInput :=
  run.2.toOption.join

theorem returns_of_reached {x : Exchange (Option PskInput)} {reply : (op : Op) → wire.Reply op} {input : PskInput}
    (found : reached (x.run.answered reply) = some input) : x.returns reply = .ok (some input) := by
  unfold reached at found
  unfold returns
  cases result : (x.run.answered reply).2 with
  | error error =>
      rw [result] at found
      cases found
  | ok value =>
      rw [result] at found
      exact congrArg _ found

theorem yields_of_reached {x : Exchange (Option PskInput)} {reply : (op : Op) → wire.Reply op} {input : PskInput}
    (found : reached (x.run.answered reply) = some input) : Yields x (x.run.answered reply).1 (some input) := by
  have traced := traces_returns reply x
  rwa [returns_of_reached found] at traced

theorem server_reaches : ∃ input, reached serverRun = some input :=
  Option.isSome_iff_exists.mp (by decide +kernel)

/-- With the server's X25519 key replaced on its way to the client both devices still
come to the derivation, but not with the same bytes. -/
theorem handshake_transcript_replaced :
    (∃ input, ∀ mid,
      Duplex.Steps access (connection .plain (coinsOf 1) (coinsOf 2) (.replicate 32 3) (.replicate 32 9)) mid →
        mid.aligned ∧ Duplex.Steps access mid (agreed input)) ∧
    ∃ input input', reached clientRun = some input ∧ reached serverRun = some input' ∧
      received clientRun.1 ≠ sent serverRun.1 ∧ input.transcript ≠ input'.transcript ∧
      input.material (checksum 32 input.transcript) ≠ input'.material (checksum 32 input'.transcript) := by
  obtain ⟨honest, attacked⟩ := handshake_transcript .plain
  constructor
  · obtain ⟨input, runs, -⟩ := honest Primitives.plain_correct (coinsOf 1) (coinsOf 2) (.replicate 32 3)
      (.replicate 32 9) ⟨rfl, rfl⟩ ⟨rfl, rfl⟩
    exact ⟨input, runs⟩
  · obtain ⟨input, left⟩ : ∃ input, reached clientRun = some input :=
      Option.isSome_iff_exists.mp (by decide +kernel)
    obtain ⟨input', right⟩ := server_reaches
    have altered : received clientRun.1 ≠ sent serverRun.1 := by decide +kernel
    have apart : (reached clientRun).map (fun input => checksum 32 input.transcript) ≠
        (reached serverRun).map fun input => checksum 32 input.transcript := by decide +kernel
    rw [left, right] at apart
    have yields : Yields (keyExchangeClient .plain (coinsOf 1) (.replicate 32 3) (.replicate 32 9)) clientRun.1
        (some input) := yields_of_reached left
    have yields' : Yields (keyExchangeServer .plain (coinsOf 2) (.replicate 32 3) (.replicate 32 9)) serverRun.1
        (some input') := yields_of_reached right
    obtain ⟨differ, bytes⟩ := attacked _ _ _ _ _ _ _ _ _ _ yields yields' (.inr altered)
    have plain : ∀ transcript : Bytes, Primitives.plain.hkdf 32 transcript [] = some (checksum 32 transcript) := by
      intro transcript
      show some (checksum 32 (transcript ++ [])) = _
      rw [List.append_nil]
    exact ⟨input, input', left, right, altered, differ,
      bytes _ _ (plain _) (plain _) fun same => absurd (congrArg some same) apart⟩

end Auth

end CesaConn
