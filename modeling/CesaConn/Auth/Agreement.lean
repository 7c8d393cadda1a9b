import CesaConn.Auth.Pairing

/-! Two devices that identify and pair each other.

Each end runs the part of authentication after Noise. The channel delivers what
was sent, in order and unchanged, until it is cut; every wait may fail or run
out, and a failed send may still have been delivered. What a device has sent is
kept, and its peer reads on from where it stopped.
-/

set_option autoImplicit false

namespace CesaConn

open Format Program

namespace Auth

open Vault Attempt

/-! ## The two devices -/

/-- One end, with a record of what its user was shown and decided, of what it found
out, and of what this connection added to its list. -/
structure Device where
  peers : List TrustedPeer
  sent : List Bytes := []
  taken : Nat := 0
  shown : List PairingCode := []
  accepted : Bool := false
  bothSaved : Option Bool := none
  added : List TrustedPeer := []
  deriving DecidableEq

structure Fate where
  meanwhile : Option (List TrustedPeer) := none
  io : Io Unit := .done ()
  delivered : Bool := false
  late : Bool := false
  queued : Bool := true
  answer : Answer := .dropped

def Device.act (own other : Device) (fate : Fate) : (op : Op) → Option (wire.Reply op × Device)
  | .send plaintext _ =>
      some (fate.io, { own with
        sent := if fate.io = .done () ∨ fate.delivered then own.sent ++ [plaintext] else own.sent })
  | .receive size _ =>
      match fate.io with
      | .failed => some (Io.failed, own)
      | .elapsed => some (Io.elapsed, own)
      | .done () =>
          -- a message of another size does not decrypt
          other.sent[own.taken]?.map fun message =>
            ((toBlock size message).elim Io.failed Io.done, { own with taken := own.taken + 1 })
  | .deadline => some (fate.late, own)
  | .readPeers => some (own.peers, own)
  | .savePeer peer =>
      let (reply, peers) := CesaConn.savePeer own.peers peer
      some (reply, { own with
        peers
        added := own.added ++ peers.drop own.peers.length })
  | .trySend pairing _ code =>
      let queued := pairing.inbox && fate.queued
      some (queued, { own with shown := if queued then own.shown ++ [code] else own.shown })
  | .answer _ => some (fate.answer, { own with accepted := own.accepted || fate.answer = .decided true })
  | .notifySaved => some ((), own)
  | .identified bothSaved => some ((), { own with bothSaved := some bothSaved })
  | .readKeys | .write _ | .read _ | .noise _ _ => none

abbrev Devices := Role → Device

def roleOf : Nat → Option Role
  | 0 => some .client
  | 1 => some .server
  | _ => none

theorem roleOf_injective {task other : Nat} {role : Role} (first : roleOf task = some role)
    (second : roleOf other = some role) : task = other := by
  cases role <;> unfold roleOf at first second <;> split at first <;> split at second <;> simp_all

def pair : Machine wire where
  State := Devices
  Outcome := Fate
  exec task op fate devices := do
    let role ← roleOf task
    let own := { devices role with peers := fate.meanwhile.getD (devices role).peers }
    let (reply, device) ← own.act (devices role.other) fate op
    return (reply, Function.update devices role device)

/-- Nothing starts later, and nothing is kept from going on. -/
def pairLoad : Workload pair where
  Job := Empty
  program := nofun
  ready := nofun
  allows _ _ _ := true

def pairRegime : Regime pair := pairLoad.regime

variable (crypto : Primitives)

/-- What one end brings to the connection: the name it calls the other by, the static
key Noise gave it, its own keys, and how it asks its user. -/
structure End where
  name : String
  peerStatic : StaticKey
  deviceKeypairs : DeviceKeypairs crypto
  random : Option (Block 32)
  pairing : Pairing

variable {crypto}

/-- Everything after Noise, as `auth_incoming` and `auth_outgoing` run it. -/
def End.afterNoise (ours : End crypto) (role : Role) (handshakeHash : HandshakeHash) : Proc wire Unit := do
  let identified ← (do
    let (peer, bothSaved) ← identifyPeer crypto role ours.name ours.peerStatic handshakeHash ours.deviceKeypairs
      ours.random
    let _ ← perform (I := wire) (.identified bothSaved)
    return some ⟨peer, handshakeHash, bothSaved⟩ : Exchange (Option Identified)).run.limited (I := wire) .deadline id
  let _ ← (finishAuth crypto identified role ours.name ours.pairing).run
  return ()

def connected (ends : Role → End crypto) (handshakeHash : HandshakeHash) (peers : Role → List TrustedPeer) : Pool pair :=
  ⟨fun role => { peers := peers role },
    [(ends .client).afterNoise .client handshakeHash, (ends .server).afterNoise .server handshakeHash]⟩

/-! ## What holds between the two -/

/-- A message that means what it says: whether the device knows the other, and
that its user was asked and accepted. -/
structure Honest (role : Role) (message : Bytes) (device : Device) (knows : Option Bool) : Prop where
  saved : message.getLast? = some Tags.isSavedTag.byte →
    ∃ known, knows = some known ∧ message = (tagged (flag known) Tags.isSavedTag.byte).toList
  accepts : message = (tagged (flag true) role.acceptTag.byte).toList → device.accepted ∧ device.shown ≠ []

/-- The ghost is what each device has found about the other in its list. -/
abbrev Knowledge := Role → Option Bool

structure Consistent (code : PairingCode → Prop) (devices : Devices) (knowledge : Knowledge) : Prop where
  honest : ∀ role, ∀ message ∈ (devices role).sent, Honest role message (devices role) (knowledge role)
  shown : ∀ role, ∀ shown ∈ (devices role).shown, code shown
  identified : ∀ role bothSaved, (devices role).bothSaved = some bothSaved →
    ∃ own other, knowledge role = some own ∧ knowledge role.other = some other ∧ bothSaved = (own && other)
  added : ∀ role, (devices role).added ≠ [] → ∀ role, (devices role).accepted ∧ (devices role).shown ≠ []

structure Onward (before after : Device) : Prop where
  accepted : before.accepted → after.accepted
  shown : before.shown ≠ [] → after.shown ≠ []

theorem Onward.refl (device : Device) : Onward device device := ⟨id, id⟩

theorem Onward.trans {first second third : Device} (left : Onward first second) (right : Onward second third) :
    Onward first third :=
  ⟨right.accepted ∘ left.accepted, right.shown ∘ left.shown⟩

theorem Onward.update {devices : Devices} {role : Role} {device : Device} (onward : Onward (devices role) device)
    (other : Role) : Onward (devices other) (Function.update devices role device other) := by
  by_cases same : other = role
  · subst same
    rwa [Function.update_self]
  · rw [Function.update_of_ne same]
    exact .refl _

theorem Honest.onward {role : Role} {message : Bytes} {before after : Device} {knows knows' : Option Bool}
    (honest : Honest role message before knows) (onward : Onward before after)
    (knowing : ∀ known, knows = some known → knows' = some known) : Honest role message after knows' where
  saved last := by
    obtain ⟨known, found, same⟩ := honest.saved last
    exact ⟨known, knowing known found, same⟩
  accepts same := ⟨onward.accepted (honest.accepts same).1, onward.shown (honest.accepts same).2⟩

theorem Consistent.learn {code : PairingCode → Prop} {devices : Devices} {knowledge : Knowledge} {role : Role}
    (consistent : Consistent code devices knowledge) (unknown : knowledge role = none) (known : Bool) :
    Consistent code devices (Function.update knowledge role (some known)) := by
  have keeps : ∀ other found, knowledge other = some found →
      Function.update knowledge role (some known) other = some found := by
    intro other found same
    have apart : other ≠ role := by
      rintro rfl
      rw [unknown] at same
      cases same
    rwa [Function.update_of_ne apart]
  refine ⟨fun other message member => ?_, consistent.shown, fun other bothSaved same => ?_, consistent.added⟩
  · exact (consistent.honest other message member).onward (.refl _) (keeps other)
  · obtain ⟨own, theirs, found, found', both⟩ := consistent.identified other bothSaved same
    exact ⟨own, theirs, keeps _ _ found, keeps _ _ found', both⟩

theorem Consistent.update {code : PairingCode → Prop} {devices : Devices} {knowledge : Knowledge} {role : Role}
    {device : Device} (consistent : Consistent code devices knowledge) (onward : Onward (devices role) device)
    (honest : ∀ message ∈ device.sent, Honest role message device (knowledge role))
    (shown : ∀ shown ∈ device.shown, code shown)
    (identified : ∀ bothSaved, device.bothSaved = some bothSaved →
      ∃ own other, knowledge role = some own ∧ knowledge role.other = some other ∧ bothSaved = (own && other))
    (added : device.added ≠ [] → ∀ role, (devices role).accepted ∧ (devices role).shown ≠ []) :
    Consistent code (Function.update devices role device) knowledge := by
  have adds : ∀ other, (Function.update devices role device other).added ≠ [] →
      ∀ role, (devices role).accepted ∧ (devices role).shown ≠ [] := by
    intro other some
    by_cases same : other = role
    · subst same
      rw [Function.update_self] at some
      exact added some
    · rw [Function.update_of_ne same] at some
      exact consistent.added other some
  refine ⟨fun other message member => ?_, fun other code member => ?_, fun other bothSaved same => ?_,
    fun other some third => ?_⟩
  · by_cases same : other = role
    · subst same
      rw [Function.update_self] at member ⊢
      exact honest message member
    · rw [Function.update_of_ne same] at member ⊢
      exact consistent.honest other message member
  · by_cases same : other = role
    · subst same
      rw [Function.update_self] at member
      exact shown code member
    · rw [Function.update_of_ne same] at member
      exact consistent.shown other code member
  · by_cases own : other = role
    · subst own
      rw [Function.update_self] at same
      exact identified bothSaved same
    · rw [Function.update_of_ne own] at same
      exact consistent.identified other bothSaved same
  · obtain ⟨yes, seen⟩ := adds other some third
    exact ⟨(onward.update third).accepted yes, (onward.update third).shown seen⟩

/-- Every end may rely on what both have established, and nobody else touches what it
has found in its list. -/
def agreement (code : PairingCode → Prop) : Discipline pair Knowledge where
  inv := Consistent code
  keep task devices knowledge devices' knowledge' :=
    (∀ role, Onward (devices role) (devices' role)) ∧
    (∀ role known, knowledge role = some known → knowledge' role = some known) ∧
    ∀ role, roleOf task = some role → knowledge' role = knowledge role
  idle _ _ _ := True
  observe _ _ _ _ _ := True
  keep_refl _ _ _ := ⟨fun _ => .refl _, fun _ _ => id, fun _ _ => rfl⟩
  keep_trans _ _ _ _ _ _ _ first second :=
    ⟨fun role => (first.1 role).trans (second.1 role), fun role known found => second.2.1 role known (first.2.1 role known found),
      fun role own => (second.2.2 role own).trans (first.2.2 role own)⟩
  idle_keep _ _ _ _ _ _ _ := trivial

/-! ## What each operation does -/

section

variable {code : PairingCode → Prop} {task : Nat} {role : Role} {devices : Devices} {knowledge : Knowledge}

theorem performs {op : Op} {holds : Devices → Knowledge → Prop} {post : wire.Reply op → Devices → Knowledge → Prop}
    (own : roleOf task = some role) (stable : (agreement code).Stable task holds)
    (acts : ∀ devices knowledge peers fate reply device, holds devices knowledge → Consistent code devices knowledge →
      Device.act { devices role with peers } (devices role.other) fate op = some (reply, device) →
      Onward (devices role) device ∧ Consistent code (Function.update devices role device) knowledge ∧
        post reply (Function.update devices role device) knowledge) :
    (agreement code).Performs pairRegime task holds op
      fun reply devices knowledge => holds devices knowledge ∧ post reply devices knowledge := by
  intro before knowledge held consistent _ fate reply after executed
  simp only [pair, own, Option.bind_eq_bind, Option.bind_some, Option.bind_eq_some_iff, Option.pure_def,
    Option.some.injEq, Prod.exists] at executed
  obtain ⟨_, device, acted, rfl, rfl⟩ := executed
  obtain ⟨onward, consistent', posted⟩ := acts before knowledge _ fate _ device held consistent acted
  have keeps : ∀ other, (agreement code).keep other before knowledge (Function.update before role device) knowledge :=
    fun other => ⟨onward.update, fun _ _ => id, fun _ _ => rfl⟩
  exact ⟨knowledge, consistent', trivial, fun other _ => keeps other, stable _ _ _ _ (keeps task) held, posted⟩

theorem Consistent.quiet (consistent : Consistent code devices knowledge) (role : Role) (device : Device)
    (sent : device.sent = (devices role).sent) (shown : device.shown = (devices role).shown)
    (accepted : device.accepted = (devices role).accepted) (bothSaved : device.bothSaved = (devices role).bothSaved)
    (added : device.added = (devices role).added) :
    Onward (devices role) device ∧ Consistent code (Function.update devices role device) knowledge := by
  have onward : Onward (devices role) device := ⟨by rw [accepted]; exact id, by rw [shown]; exact id⟩
  refine ⟨onward, consistent.update onward ?_ ?_ ?_ ?_⟩
  · intro message member
    rw [sent] at member
    exact (consistent.honest role message member).onward onward fun _ => id
  · rw [shown]
    exact consistent.shown role
  · rw [bothSaved]
    exact consistent.identified role
  · rw [added]
    exact consistent.added role

variable {holds : Devices → Knowledge → Prop}

theorem performs_silent (own : roleOf task = some role) (stable : (agreement code).Stable task holds) {op : Op}
    (silent : ∀ own other fate reply device, Device.act own other fate op = some (reply, device) → device = own) :
    (agreement code).Performs pairRegime task holds op fun _ devices knowledge => holds devices knowledge ∧ True := by
  refine performs own stable fun devices knowledge peers fate reply device held consistent acted => ?_
  have same := silent _ _ _ _ _ acted
  subst same
  have quiet := consistent.quiet role { devices role with peers } rfl rfl rfl rfl rfl
  exact ⟨quiet.1, quiet.2, trivial⟩

theorem performs_send {message : Bytes} {secs : Nat} (own : roleOf task = some role)
    (stable : (agreement code).Stable task holds)
    (honest : ∀ devices knowledge, holds devices knowledge → Honest role message (devices role) (knowledge role)) :
    (agreement code).Performs pairRegime task holds (.send message secs)
      fun _ devices knowledge => holds devices knowledge ∧ True := by
  refine performs own stable fun devices knowledge peers fate reply device held consistent acted => ?_
  cases acted
  have onward : Onward (devices role) { devices role with
      peers
      sent := if fate.io = .done () ∨ fate.delivered then (devices role).sent ++ [message] else (devices role).sent } :=
    ⟨id, id⟩
  refine ⟨onward, consistent.update onward ?_ (consistent.shown role) (consistent.identified role)
    (consistent.added role), trivial⟩
  intro other member
  have old : other ∈ (devices role).sent ∨ other = message := by
    simp only at member
    split at member
    · simpa using member
    · exact .inl member
  obtain earlier | rfl := old
  · exact (consistent.honest role other earlier).onward onward fun _ => id
  · exact (honest devices knowledge held).onward onward fun _ => id

theorem performs_receive {size secs : Nat} (own : roleOf task = some role) (stable : (agreement code).Stable task holds) :
    (agreement code).Performs pairRegime task holds (.receive size secs)
      fun reply devices knowledge => holds devices knowledge ∧ ∀ packet : Block size, reply = Io.done packet →
        Honest role.other packet.toList (devices role.other) (knowledge role.other) := by
  refine performs own stable fun devices knowledge peers fate reply device held consistent acted => ?_
  have apart : role.other ≠ role := by cases role <;> decide
  simp only [Device.act] at acted
  split at acted
  · cases acted
    have quiet := consistent.quiet role { devices role with peers } rfl rfl rfl rfl rfl
    exact ⟨quiet.1, quiet.2, fun _ same => by cases same⟩
  · cases acted
    have quiet := consistent.quiet role { devices role with peers } rfl rfl rfl rfl rfl
    exact ⟨quiet.1, quiet.2, fun _ same => by cases same⟩
  · simp only [Option.map_eq_some_iff] at acted
    obtain ⟨message, found, same⟩ := acted
    cases same
    have quiet := consistent.quiet role
      { devices role with
        peers
        taken := (devices role).taken + 1 } rfl rfl rfl rfl rfl
    refine ⟨quiet.1, quiet.2, fun packet same => ?_⟩
    have whole : message = packet.toList := by
      cases fits : toBlock size message with
      | none =>
          rw [fits] at same
          cases same
      | some block =>
          rw [fits] at same
          cases same
          exact toBlock_eq_some.mp fits
    rw [Function.update_of_ne apart, ← whole]
    exact consistent.honest role.other message (List.mem_of_getElem? found)

theorem performs_trySend {pairing : Pairing} {name : String} {shown : PairingCode} (own : roleOf task = some role)
    (stable : (agreement code).Stable task holds) (coded : code shown) :
    (agreement code).Performs pairRegime task holds (.trySend pairing name shown)
      fun queued devices knowledge => holds devices knowledge ∧ (queued = true → (devices role).shown ≠ []) := by
  refine performs own stable fun devices knowledge peers fate reply device held consistent acted => ?_
  cases acted
  have onward : Onward (devices role) { devices role with
      peers
      shown := if pairing.inbox && fate.queued then (devices role).shown ++ [shown] else (devices role).shown } := by
    refine ⟨id, fun some => ?_⟩
    show (if _ then _ else _) ≠ []
    split
    · simp
    · exact some
  refine ⟨onward, consistent.update onward ?_ ?_ (consistent.identified role) (consistent.added role), ?_⟩
  · intro message member
    exact (consistent.honest role message member).onward onward fun _ => id
  · intro other member
    simp only at member
    split at member
    · obtain earlier | rfl := by simpa using member
      · exact consistent.shown role other earlier
      · exact coded
    · exact consistent.shown role other member
  · intro queued
    rw [Function.update_self]
    show (if _ then _ else _) ≠ []
    rw [if_pos queued]
    simp

theorem performs_answer {secs : Nat} (own : roleOf task = some role) (stable : (agreement code).Stable task holds) :
    (agreement code).Performs pairRegime task holds (.answer secs)
      fun answer devices knowledge => holds devices knowledge ∧ (answer = Answer.decided true → (devices role).accepted) := by
  refine performs own stable fun devices knowledge peers fate reply device held consistent acted => ?_
  cases acted
  have onward : Onward (devices role) { devices role with
      peers
      accepted := (devices role).accepted || fate.answer = .decided true } :=
    ⟨fun yes => by simp [yes], id⟩
  refine ⟨onward, consistent.update onward ?_ (consistent.shown role) (consistent.identified role)
    (consistent.added role), ?_⟩
  · intro message member
    exact (consistent.honest role message member).onward onward fun _ => id
  · intro decided
    rw [Function.update_self]
    simp [decided]

theorem performs_savePeer {peer : TrustedPeer} (own : roleOf task = some role)
    (stable : (agreement code).Stable task holds)
    (accepted : ∀ devices knowledge, holds devices knowledge → ∀ role, (devices role).accepted ∧ (devices role).shown ≠ []) :
    (agreement code).Performs pairRegime task holds (.savePeer peer)
      fun _ devices knowledge => holds devices knowledge ∧ True := by
  refine performs own stable fun devices knowledge peers fate reply device held consistent acted => ?_
  cases acted
  have onward : Onward (devices role) { devices role with
      peers := (CesaConn.savePeer peers peer).2
      added := (devices role).added ++ (CesaConn.savePeer peers peer).2.drop peers.length } := ⟨id, id⟩
  refine ⟨onward, consistent.update onward ?_ (consistent.shown role) (consistent.identified role)
    (fun _ => accepted devices knowledge held), trivial⟩
  intro message member
  exact (consistent.honest role message member).onward onward fun _ => id

theorem performs_identified {bothSaved : Bool} (own : roleOf task = some role)
    (stable : (agreement code).Stable task holds)
    (both : ∀ devices knowledge, holds devices knowledge → ∃ known known', knowledge role = some known ∧
      knowledge role.other = some known' ∧ bothSaved = (known && known')) :
    (agreement code).Performs pairRegime task holds (.identified bothSaved)
      fun _ devices knowledge => holds devices knowledge ∧ True := by
  refine performs own stable fun devices knowledge peers fate reply device held consistent acted => ?_
  cases acted
  have onward : Onward (devices role) { devices role with
      peers
      bothSaved := some bothSaved } := ⟨id, id⟩
  refine ⟨onward, consistent.update onward ?_ (consistent.shown role) ?_ (consistent.added role), trivial⟩
  · intro message member
    exact (consistent.honest role message member).onward onward fun _ => id
  · rintro _ ⟨⟩
    exact both devices knowledge held

/-- Only the first look at the list tells a device whether it knows the other. -/
theorem performs_learn {peerStatic : StaticKey} (own : roleOf task = some role) :
    (agreement code).Performs pairRegime task (fun _ knowledge => knowledge role = none) .readPeers
      fun peers _ knowledge => knowledge role = some (lookup peers peerStatic).isSome := by
  intro before knowledge unknown consistent _ fate reply after executed
  simp only [pair, own, Device.act, Option.bind_eq_bind, Option.bind_some, Option.pure_def, Option.some.injEq]
    at executed
  obtain ⟨rfl, rfl⟩ := executed
  have quiet := consistent.quiet role
    { before role with peers := fate.meanwhile.getD (before role).peers } rfl rfl rfl rfl rfl
  refine ⟨Function.update knowledge role (some _), quiet.2.learn unknown _, trivial, fun other apart => ?_,
    Function.update_self _ _ _⟩
  refine ⟨quiet.1.update, fun third known found => ?_, fun third owns => ?_⟩
  · have different : third ≠ role := by
      rintro rfl
      rw [unknown] at found
      cases found
    rwa [Function.update_of_ne different]
  · have different : third ≠ role := by
      rintro rfl
      exact apart (roleOf_injective owns own)
    rw [Function.update_of_ne different]

/-! ## Messages -/

theorem honest_tagged {size : Nat} {data : Block size} {tag : Tags} {device : Device} {knows : Option Bool}
    (notSaved : tag ≠ .isSavedTag) (notAccept : tag ≠ role.acceptTag) :
    Honest role (tagged data tag.byte).toList device knows where
  saved last := by
    have same : tag.byte = Tags.isSavedTag.byte := by simpa using last
    exact absurd (Tags.byte_injective same) notSaved
  accepts same := by
    have last := congrArg List.getLast? same
    have same : tag.byte = role.acceptTag.byte := by simpa using last
    exact absurd (Tags.byte_injective same) notAccept

theorem honest_isSaved {known : Bool} {device : Device} :
    Honest role (tagged (flag known) Tags.isSavedTag.byte).toList device (some known) where
  saved _ := ⟨known, rfl, rfl⟩
  accepts same := by
    have last := congrArg List.getLast? same
    have same : Tags.isSavedTag.byte = role.acceptTag.byte := by simpa using last
    cases role <;> cases Tags.byte_injective same

theorem honest_decision {accept : Bool} {device : Device} {knows : Option Bool}
    (decided : accept = true → device.accepted ∧ device.shown ≠ []) :
    Honest role (tagged (flag accept) role.acceptTag.byte).toList device knows where
  saved last := by
    have same : role.acceptTag.byte = Tags.isSavedTag.byte := by simpa using last
    cases role <;> cases Tags.byte_injective same
  accepts same := by
    refine decided ?_
    have payload := congrArg List.head? same
    cases accept with
    | true => rfl
    | false => exact absurd (Option.some.inj payload : (0x00 : UInt8) = 0x01) (by decide)

theorem Honest.isSaved {theirs : Block 1} {device : Device} {knows : Option Bool}
    (honest : Honest role (tagged theirs Tags.isSavedTag.byte).toList device knows) : knows = some (isOne theirs) := by
  obtain ⟨known, found, same⟩ := honest.saved (by simp)
  have payload : theirs = flag known := by
    refine List.Vector.toList_injective ?_
    simpa using same
  rw [found, payload, isOne_flag]

theorem Honest.accepted {theirs : Block 1} {device : Device} {knows : Option Bool}
    (honest : Honest role (tagged theirs role.acceptTag.byte).toList device knows) (one : isOne theirs) :
    device.accepted ∧ device.shown ≠ [] := by
  have payload : theirs = flag true := List.Vector.toList_injective (toList_of_isOne one)
  subst payload
  exact honest.accepts rfl

/-! ## What each end does -/

abbrev Achieves (code : PairingCode → Prop) (task : Nat) {A : Type} (pre : Devices → Knowledge → Prop) (x : Exchange A)
    (post : A → Devices → Knowledge → Prop) : Prop :=
  (agreement code).Attempts pairRegime task pre x post

theorem achieves_perform {op : Op} {pre : Devices → Knowledge → Prop} {post : wire.Reply op → Devices → Knowledge → Prop}
    (stable : (agreement code).Stable task pre) (does : (agreement code).Performs pairRegime task pre op post) :
    Achieves code task pre (perform (I := wire) op) post :=
  Discipline.Attempts.perform (Discipline.Triple.call stable does)

theorem achieves_settle {A : Type} {io : Io A} {failed elapsed : AuthSnowErrors} :
    Achieves code task holds (settle io failed elapsed)
      fun value devices knowledge => io = .done value ∧ holds devices knowledge := by
  cases io with
  | done value => exact Discipline.Attempts.pure fun _ _ held => ⟨rfl, held⟩
  | failed => exact Discipline.Attempts.throw
  | elapsed => exact Discipline.Attempts.throw

theorem stable_honest (other : Role) (message : Bytes) :
    (agreement code).Stable task fun devices knowledge => Honest other message (devices other) (knowledge other) :=
  fun _ _ _ _ kept honest => honest.onward (kept.1 other) (kept.2.1 other)

theorem stable_known (other : Role) (known : Bool) :
    (agreement code).Stable task fun _ knowledge => knowledge other = some known :=
  fun _ _ _ _ kept found => kept.2.1 other known found

theorem stable_unknown (own : roleOf task = some role) :
    (agreement code).Stable task fun _ knowledge => knowledge role = none :=
  fun _ _ _ _ kept unknown => (kept.2.2 role own).trans unknown

theorem stable_decided (other : Role) :
    (agreement code).Stable task fun devices _ => (devices other).accepted ∧ (devices other).shown ≠ [] :=
  fun _ _ _ _ kept decided => ⟨(kept.1 other).accepted decided.1, (kept.1 other).shown decided.2⟩

section

variable (own : roleOf task = some role) (stable : (agreement code).Stable task holds)
include own stable

theorem achieves_sendSecure {size : Nat} {data : Block size} {tag : Tags} {secs : Nat}
    (honest : ∀ devices knowledge, holds devices knowledge →
      Honest role (tagged data tag.byte).toList (devices role) (knowledge role)) :
    Achieves code task holds (sendSecure data tag secs) fun _ => holds := by
  have sends : Achieves code task holds (perform (I := wire) (.send (tagged data tag.byte).toList secs)) _ :=
    achieves_perform stable (performs_send own stable honest)
  have settles : ∀ io : Io Unit, Achieves code task (fun devices knowledge => holds devices knowledge ∧ True)
      (settle io .failedToWriteToSecureConnection .writeTimeout) fun _ => holds :=
    fun io => achieves_settle.consequence (fun _ _ held => held) fun _ _ _ held => held.2.1
  refine Discipline.Attempts.bind Discipline.Attempts.ensure fun _ => ?_
  exact (sends.bind settles).consequence (fun _ _ held => held.2) fun _ _ _ held => held

theorem achieves_recvSecure {size : Nat} {tag : Tags} {secs : Nat} :
    Achieves code task holds (recvSecure size tag secs) fun payload devices knowledge =>
      holds devices knowledge ∧
        Honest role.other (tagged payload tag.byte).toList (devices role.other) (knowledge role.other) := by
  have receives : Achieves code task holds (perform (I := wire) (.receive (size + 1) secs)) _ :=
    achieves_perform stable (performs_receive own stable)
  refine Discipline.Attempts.bind Discipline.Attempts.ensure fun _ => ?_
  refine Discipline.Attempts.consequence ?_ (fun _ _ held => held.2) fun _ _ _ held => held
  refine receives.bind fun io => achieves_settle.bind fun packet =>
    Discipline.Attempts.require.consequence (fun _ _ held => held) ?_
  rintro payload devices knowledge ⟨whole, arrived, held, honest⟩
  refine ⟨held, ?_⟩
  rw [← untag_eq_some.mp whole]
  exact honest _ arrived

end

theorem achieves_exchangeIsSaved {weHavePeer : Bool} (own : roleOf task = some role) :
    Achieves code task (fun _ knowledge => knowledge role = some weHavePeer) (exchangeIsSaved role weHavePeer)
      fun bothSaved _ knowledge => ∃ theirs, knowledge role = some weHavePeer ∧ knowledge role.other = some theirs ∧
        bothSaved = (weHavePeer && theirs) := by
  have known : (agreement code).Stable task fun _ knowledge => knowledge role = some weHavePeer := stable_known role _
  cases role with
  | client =>
      refine (achieves_sendSecure own known fun _ _ found => ?_).bind fun _ =>
        (achieves_recvSecure own known).bind fun theirs => Discipline.Attempts.pure fun _ _ held => ?_
      · rw [found]
        exact honest_isSaved
      · exact ⟨_, held.1, held.2.isSaved, rfl⟩
  | server =>
      refine (achieves_recvSecure own known).bind fun theirs =>
        (achieves_sendSecure own (known.and (stable_honest _ _)) fun _ _ held => ?_).bind fun _ =>
          Discipline.Attempts.pure fun _ _ held => ?_
      · rw [held.1]
        exact honest_isSaved
      · exact ⟨_, held.1, held.2.isSaved, rfl⟩

/-- The proofs of identity do not touch the agreement. -/
theorem achieves_exchangeSignatures {hash : HandshakeHash} {stored : Option VerificationKey} {random : Option (Block 32)}
    {deviceKeypairs : DeviceKeypairs crypto} (own : roleOf task = some role)
    (stable : (agreement code).Stable task holds) :
    Achieves code task holds (exchangeSignatures crypto role hash stored deviceKeypairs random) fun _ => holds := by
  have sends : ∀ signature, Achieves code task holds (sendIdentity deviceKeypairs signature) fun _ => holds := by
    intro signature
    refine (achieves_sendSecure own stable fun _ _ _ => honest_tagged (by decide) ?_).bind fun _ =>
      achieves_sendSecure own stable fun _ _ _ => honest_tagged (by decide) ?_ <;>
    cases role <;> decide
  have receives : Achieves code task holds recvIdentity fun _ => holds := by
    have one : ∀ {size : Nat} {tag : Tags} {secs : Nat}, Achieves code task holds (recvSecure size tag secs) fun _ => holds :=
      (achieves_recvSecure own stable).consequence (fun _ _ held => held) fun _ _ _ held => held.1
    exact one.bind fun _ => one.bind fun _ => Discipline.Attempts.pure fun _ _ held => held
  have verifies : ∀ key signature context,
      Achieves code task holds (verifyPeerSignature crypto key signature stored hash context) fun _ => holds := by
    intro key signature context
    have checks : ∀ {condition : Bool} {error : AuthSnowErrors},
        Achieves code task holds (ensure condition error) fun _ => holds :=
      Discipline.Attempts.ensure.consequence (fun _ _ held => held) fun _ _ _ held => held.2
    exact checks.bind fun _ => checks
  have finds : ∀ {A : Type} {value : Option A} {error : AuthSnowErrors},
      Achieves code task holds (require value error) fun _ => holds :=
    Discipline.Attempts.require.consequence (fun _ _ held => held) fun _ _ _ held => held.2
  refine finds.bind fun _ => finds.bind fun signature => ?_
  cases role with
  | client =>
      exact (sends signature).bind fun _ => receives.bind fun identity => (verifies _ _ _).bind fun _ =>
        Discipline.Attempts.pure fun _ _ held => held
  | server =>
      exact receives.bind fun identity => (verifies _ _ _).bind fun _ => (sends signature).bind fun _ =>
        Discipline.Attempts.pure fun _ _ held => held

def Found (role : Role) (bothSaved : Bool) (_ : Devices) (knowledge : Knowledge) : Prop :=
  ∃ own other, knowledge role = some own ∧ knowledge role.other = some other ∧ bothSaved = (own && other)

theorem stable_found (role : Role) (bothSaved : Bool) : (agreement code).Stable task (Found role bothSaved) := by
  rintro _ _ _ _ kept ⟨known, known', found, found', both⟩
  exact ⟨known, known', kept.2.1 _ _ found, kept.2.1 _ _ found', both⟩

theorem achieves_identifyPeer {name : String} {peerStatic : StaticKey} {hash : HandshakeHash} {random : Option (Block 32)}
    {deviceKeypairs : DeviceKeypairs crypto} (own : roleOf task = some role) :
    Achieves code task (fun _ knowledge => knowledge role = none)
      (identifyPeer crypto role name peerStatic hash deviceKeypairs random)
      fun identified => Found role identified.2 := by
  have reads : Achieves code task (fun _ knowledge => knowledge role = none) readPeers
      fun peers _ knowledge => knowledge role = some (lookup peers peerStatic).isSome :=
    achieves_perform (stable_unknown own) (performs_learn own)
  refine reads.bind fun peers => ?_
  refine ((achieves_exchangeIsSaved own).consequence (fun _ _ found => found) ?_).bind fun bothSaved =>
    (achieves_exchangeSignatures own (stable_found role bothSaved)).bind fun key =>
      Discipline.Attempts.pure fun _ _ found => found
  rintro bothSaved _ knowledge ⟨theirs, found, found', both⟩
  exact ⟨_, theirs, found, found', both⟩

theorem achieves_askUser {pairing : Pairing} {name : String} {hash : HandshakeHash} (own : roleOf task = some role)
    (codes : ∀ shown, pairingCode crypto hash = .ok shown → code shown) :
    Achieves code task (fun _ _ => True) (askUser crypto pairing name hash)
      fun accept devices _ => accept = true → (devices role).accepted ∧ (devices role).shown ≠ [] := by
  have always : (agreement code).Stable task fun _ _ => True := fun _ _ _ _ _ _ => trivial
  have seen : (agreement code).Stable task fun devices _ => (devices role).shown ≠ [] :=
    fun _ _ _ _ kept shown => (kept.1 role).shown shown
  refine Discipline.Attempts.result.bind fun shown => ?_
  intro devices knowledge before
  have asks : Achieves code task (fun _ _ => True) (perform (I := wire) (.trySend pairing name shown)) _ :=
    achieves_perform always (performs_trySend own always (codes shown before.1))
  refine (asks.bind fun queued => ?_) devices knowledge trivial
  cases queued with
  | false => exact Discipline.Attempts.pure fun _ _ _ no => by cases no
  | true =>
      have answers : Achieves code task (fun devices _ => (devices role).shown ≠ [])
          (perform (I := wire) (.answer pairingTimeout)) _ := achieves_perform seen (performs_answer own seen)
      refine Discipline.Attempts.consequence ?_ (fun _ _ held => held.2 rfl) fun _ _ _ held => held
      refine answers.bind fun answer => ?_
      cases answer with
      | decided accept =>
          refine Discipline.Attempts.pure fun _ _ held yes => ?_
          subst yes
          exact ⟨held.2 rfl, held.1⟩
      | dropped => exact Discipline.Attempts.pure fun _ _ _ no => by cases no
      | elapsed => exact Discipline.Attempts.throw

/-- Pairing goes through only after both users have seen the code and accepted. -/
theorem achieves_confirmPairing {pairing : Pairing} {name : String} {hash : HandshakeHash}
    (own : roleOf task = some role) (codes : ∀ shown, pairingCode crypto hash = .ok shown → code shown) :
    Achieves code task (fun _ _ => True) (confirmPairing crypto role name hash pairing)
      fun _ devices _ => ∀ role, (devices role).accepted ∧ (devices role).shown ≠ [] := by
  refine (Discipline.Attempts.outcome (achieves_askUser own codes)).bind fun asked => ?_
  by_cases accepted : accepts asked
  · have decided : asked = .ok true := by
      cases asked with
      | error error => cases accepted
      | ok accept => exact congrArg _ accepted
    subst decided
    refine Discipline.Attempts.consequence ?_ (fun _ _ held => held true rfl rfl) fun _ _ _ held => held
    have stable : (agreement code).Stable task fun devices _ =>
      (devices role).accepted ∧ (devices role).shown ≠ [] := stable_decided role
    refine (achieves_sendSecure own stable fun _ _ held => honest_decision fun _ => held).bind fun _ => ?_
    refine (achieves_recvSecure own stable).bind fun theirs => ?_
    refine Discipline.Attempts.ensure.consequence (fun _ _ held => held) ?_
    rintro _ devices _ ⟨one, ours, honest⟩ other
    by_cases same : other = role
    · rw [same]
      exact ours
    · have opposite : other = role.other := by revert same; cases other <;> cases role <;> decide
      rw [opposite]
      exact honest.accepted one
  · have refused : accepts asked = false := by simpa using accepted
    have stable : (agreement code).Stable task fun _ _ => True := fun _ _ _ _ _ _ => trivial
    have no : ∀ (devices : Devices) (knowledge : Knowledge), True →
        Honest role (tagged (flag (accepts asked)) role.acceptTag.byte).toList (devices role) (knowledge role) := by
      rw [refused]
      exact fun _ _ _ => honest_decision fun yes => by cases yes
    refine Discipline.Attempts.consequence ?_ (fun _ _ _ => trivial) fun _ _ _ held => held
    refine (achieves_sendSecure own stable no).bind fun _ => ?_
    rw [refused]
    cases asked with
    | error error => exact Discipline.Attempts.throw
    | ok accept => exact Discipline.Attempts.throw

theorem achieves_finishAuth {identified : Option (Except AuthSnowErrors (Option Identified))} {pairing : Pairing}
    {name : String} {hash : HandshakeHash} (own : roleOf task = some role)
    (codes : ∀ shown, pairingCode crypto hash = .ok shown → code shown)
    (hashes : ∀ found, identified = some (.ok (some found)) → found.handshakeHash = hash) :
    Achieves code task (fun _ _ => True) (finishAuth crypto identified role name pairing) fun _ _ _ => True := by
  have always : (agreement code).Stable task fun _ _ => True := fun _ _ _ _ _ _ => trivial
  have both : (agreement code).Stable task fun devices _ => ∀ role, (devices role).accepted ∧ (devices role).shown ≠ [] :=
    fun _ _ _ _ kept held other => stable_decided other _ _ _ _ kept (held other)
  match identified with
  | none => exact Discipline.Attempts.throw
  | some (.error error) => exact Discipline.Attempts.throw
  | some (.ok none) => exact Discipline.Attempts.pure fun _ _ _ => trivial
  | some (.ok (some ⟨peer, handshakeHash, bothSaved⟩)) =>
      have same : handshakeHash = hash := hashes _ rfl
      subst same
      cases bothSaved with
      | true => exact Discipline.Attempts.pure fun _ _ _ => trivial
      | false =>
          have reads : Achieves code task (fun _ _ => True) readPeers fun _ _ _ => True :=
            (achieves_perform always (performs_silent own always fun _ _ _ _ _ acted => by cases acted; rfl)).consequence
              (fun _ _ held => held) fun _ _ _ _ => trivial
          have saves : Achieves code task (fun devices _ => ∀ role, (devices role).accepted ∧ (devices role).shown ≠ [])
              (savePeer peer) fun _ _ _ => True :=
            (achieves_perform both (performs_savePeer own both fun _ _ held => held)).bind fun _ =>
              Discipline.Attempts.result.consequence (fun _ _ held => held) fun _ _ _ _ => trivial
          have notifies : Achieves code task (fun _ _ => True) (perform (I := wire) .notifySaved) fun _ _ _ => True :=
            (achieves_perform always (performs_silent own always fun _ _ _ _ _ acted => by cases acted; rfl)).consequence
              (fun _ _ held => held) fun _ _ _ _ => trivial
          refine reads.bind fun peers => Discipline.Attempts.bind Discipline.Attempts.ensure fun _ => ?_
          refine ((achieves_confirmPairing own codes).consequence (fun _ _ _ => trivial) fun _ _ _ held => held).bind
            fun _ => saves.bind fun _ => notifies.bind fun _ => Discipline.Attempts.pure fun _ _ _ => trivial

theorem neutral_deadline (own : roleOf task = some role) : (agreement code).Neutral pairRegime task (.deadline) := by
  intro before knowledge consistent _ fate reply after executed
  simp only [pair, own, Device.act, Option.bind_eq_bind, Option.bind_some, Option.pure_def, Option.some.injEq]
    at executed
  obtain ⟨rfl, rfl⟩ := executed
  have quiet := consistent.quiet role
    { before role with peers := fate.meanwhile.getD (before role).peers } rfl rfl rfl rfl rfl
  exact ⟨quiet.2, trivial, fun _ => ⟨quiet.1.update, fun _ _ => id, fun _ _ => rfl⟩⟩

theorem triple_afterNoise (ours : End crypto) {hash : HandshakeHash} (own : roleOf task = some role)
    (codes : ∀ shown, pairingCode crypto hash = .ok shown → code shown) :
    (agreement code).Triple pairRegime task (fun _ knowledge => knowledge role = none) (ours.afterNoise role hash)
      fun _ => (agreement code).idle task := by
  have identifies : Achieves code task (fun _ knowledge => knowledge role = none) (do
      let (peer, bothSaved) ← identifyPeer crypto role ours.name ours.peerStatic hash ours.deviceKeypairs ours.random
      let _ ← perform (I := wire) (.identified bothSaved)
      return some ⟨peer, hash, bothSaved⟩ : Exchange (Option Identified))
      fun found _ _ => ∀ identified, found = some identified → identified.handshakeHash = hash := by
    refine (achieves_identifyPeer own).bind fun ⟨peer, bothSaved⟩ => ?_
    have stable : (agreement code).Stable task (Found role bothSaved) := stable_found role bothSaved
    have tells : Achieves code task (Found role bothSaved) (perform (I := wire) (.identified bothSaved)) _ :=
      achieves_perform stable (performs_identified own stable fun _ _ found => found)
    refine tells.bind fun _ => Discipline.Attempts.pure fun _ _ _ identified same => ?_
    cases same
    rfl
  refine Discipline.Triple.bind (Discipline.Triple.limited (neutral_deadline own) identifies) fun identified => ?_
  intro devices knowledge hashes
  have finishes : Achieves code task (fun _ _ => True) (finishAuth crypto identified role ours.name ours.pairing)
      fun _ _ _ => True :=
    achieves_finishAuth own codes fun found same => hashes _ same _ rfl found rfl
  exact Discipline.Triple.bind finishes (fun _ => Discipline.Triple.done fun _ _ _ => trivial) devices knowledge trivial

theorem sound_connected (ends : Role → End crypto) {hash : HandshakeHash} (peers : Role → List TrustedPeer)
    (codes : ∀ shown, pairingCode crypto hash = .ok shown → code shown) :
    (agreement code).Sound pairRegime (connected ends hash peers) fun _ => none := by
  refine ⟨⟨?_, ?_, ?_, ?_⟩, fun task => ?_⟩
  · exact fun _ _ member => by cases member
  · exact fun _ _ member => by cases member
  · exact fun _ _ same => by cases same
  · exact fun _ some => absurd rfl some
  · match task with
    | 0 =>
        have own : roleOf 0 = some .client := rfl
        exact triple_afterNoise (ends .client) own codes _ _ rfl
    | 1 =>
        have own : roleOf 1 = some .server := rfl
        exact triple_afterNoise (ends .server) own codes _ _ rfl
    | _ + 2 => exact trivial

theorem covers_agreement : (agreement code).Covers pairRegime := by
  rintro _ _ _ _ ⟨job, _⟩
  cases job

end

/-- Both ends find out the same, no end adds the other unless both users have seen the
same code and accepted, and otherwise neither list changes. -/
theorem pairing_agreement {crypto : Primitives} (ends : Role → End crypto) (hash : HandshakeHash)
    (peers : Role → List TrustedPeer) {pool : Pool pair}
    (run : Run pairRegime (fun _ => True) (connected ends hash peers) pool) :
    (∀ ours theirs, (pool.state .client).bothSaved = some ours → (pool.state .server).bothSaved = some theirs →
      ours = theirs) ∧
    (∀ role, (pool.state role).added ≠ [] → ∀ role, (pool.state role).accepted ∧ (pool.state role).shown ≠ []) ∧
    (∀ role other, ∀ code ∈ (pool.state role).shown, ∀ code' ∈ (pool.state other).shown, code = code') ∧
    ∀ role, (pool.state role).accepted = false ∨ (pool.state role).shown = [] → ∀ role, (pool.state role).added = [] := by
  obtain ⟨knowledge, consistent, -⟩ := (sound_connected ends peers fun _ coded => coded).run covers_agreement run
  refine ⟨fun ours theirs first second => ?_, consistent.added, fun role other code shown code' shown' => ?_,
    fun role refused other => ?_⟩
  · obtain ⟨own, other, found, found', both⟩ := consistent.identified .client ours first
    obtain ⟨own', other', known, known', both'⟩ := consistent.identified .server theirs second
    have same : own' = other := Option.some.inj (known.symm.trans found')
    have same' : other' = own := Option.some.inj (known'.symm.trans found)
    rw [both, both', same, same', Bool.and_comm]
  · have first := consistent.shown role code shown
    have second := consistent.shown other code' shown'
    exact Except.ok.inj (first.symm.trans second)
  · by_contra some
    obtain ⟨yes, seen⟩ := consistent.added other some role
    obtain no | never := refused
    · rw [no] at yes
      cases yes
    · exact seen never

/-! ## Two strangers -/

def Primitives.short : Primitives := { Primitives.plain with
  sign := fun _ message _ _ => some (.replicate _ (message.headD 0))
  verify := fun _ message _ signature => signature.head = message.headD 0 }

def strangers (_ : Role) : End Primitives.short where
  name := "stranger"
  peerStatic := .replicate 32 0x07
  deviceKeypairs := ⟨(), .replicate mldsa87VkLen 0x01⟩
  random := some (.replicate 32 0x00)
  pairing := .channel

def goesOn (task count : Nat) : List pairLoad.Move := .replicate count (.resume task { answer := .decided true })

/-- Both users see the code, both accept it, and each device has added the other. -/
theorem pairing_agreement_strangers : ∃ pool : Pool pair,
    Run pairRegime (fun _ => True) (connected strangers (.replicate 32 0x03) fun _ => []) pool ∧
    (∀ role, (pool.state role).added.length = 1 ∧ (pool.state role).accepted) ∧
    ∃ code, ∀ role, (pool.state role).shown = [code] := by
  have played : (pairLoad.play (connected strangers (.replicate 32 0x03) fun _ => [])
      (goesOn 0 5 ++ goesOn 1 7 ++ goesOn 0 6 ++ goesOn 1 13 ++ goesOn 0 12 ++ goesOn 1 3)).any fun pool =>
        (pool.state .client).added.length = 1 ∧ (pool.state .server).added.length = 1 ∧
        (pool.state .client).shown.length = 1 ∧ (pool.state .server).shown.length = 1 := by
    decide +kernel
  simp only [Option.any_eq_true, decide_eq_true_eq] at played
  obtain ⟨pool, same, client, server, asked, asked'⟩ := played
  have run := Workload.run_of_play same
  obtain ⟨-, saved, codes, -⟩ := pairing_agreement strangers (.replicate 32 0x03) (fun _ => []) run
  have some : (pool.state .client).added ≠ [] := List.ne_nil_of_length_eq_add_one client
  obtain ⟨code, shown⟩ := List.length_eq_one_iff.mp asked
  obtain ⟨code', shown'⟩ := List.length_eq_one_iff.mp asked'
  have one : code = code' := codes .client .server code (by rw [shown]; exact List.mem_singleton_self _) code'
    (by rw [shown']; exact List.mem_singleton_self _)
  refine ⟨pool, run, fun role => ?_, code, fun role => ?_⟩
  · cases role with
    | client => exact ⟨client, (saved .client some .client).1⟩
    | server => exact ⟨server, (saved .client some .server).1⟩
  · cases role with
    | client => exact shown
    | server => exact one ▸ shown'

end Auth

end CesaConn
