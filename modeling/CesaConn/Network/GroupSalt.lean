import CesaConn.Network.DataPacket

/-! The data salt of a group, on its way to a device that joins.

The salt goes over the connection on which both users have just paired the devices, while
the member's invite window offers it. To anyone else a member answers nothing, and from
anyone else a joining device takes nothing.
-/

set_option autoImplicit false

namespace CesaConn

open Format Program

namespace DataPacket

open Auth Stateful

abbrev groupSaltLen : Nat := 32

section Handlers

variable {transport : Transport}

/-- `join_handler` up to the answer; its connection is the one that authentication gives. -/
def askGroupSalt (newlyPaired : Bool) : Handling transport Unit := do
  if newlyPaired = false then throw .notInvited
  sendSecure (initHeader .groupSalt 0)

def takeGroupSalt : Handling transport (Block groupSaltLen) := do
  let received ← mapError (fun _ => .failedToReadFromStream) (readChunked groupSaltLen .regular)
  match toBlock groupSaltLen received with
  | some dSalt => pure dSalt
  | none => throw .failedToReadFromStream

end Handlers

section Passing

variable {transport : Transport} {inStep : transport.State → transport.State → Prop} {hash : HandshakeHash}
  {initiator : Bool}

theorem carries_ask (delivers : transport.Delivers inStep) :
    Carries inStep hash initiator (askGroupSalt true) readHeader (.groupSalt, 0) :=
  carries_header delivers .groupSalt (Nat.zero_le _)

theorem carries_salt (delivers : transport.Delivers inStep) (dSalt : Block groupSaltLen) :
    Carries inStep hash initiator (sendGroupSalt true (some dSalt)) takeGroupSalt dSalt := by
  have chunked : Carries inStep hash initiator (writeChunked dSalt.toList .regular) (readChunked dSalt.toList.length .regular) dSalt.toList :=
    carries_chunked delivers dSalt.toList .regular
  rw [dSalt.toList_length] at chunked
  apply (chunked.writing Returns.mapError).reading
  intro before after read
  unfold takeGroupSalt
  apply Returns.bind read.mapError
  rw [toBlock_toList]
  exact returns_pure _ _

theorem fails_uninvited {crypto : Crypto} {deliver : Bytes → DataAck} {peer : TrustedPeer} {newlyPaired : Bool}
    {offer : Option (Block 32)} {dKey : DataKey} {before after : SecureConnection transport}
    (uninvited : newlyPaired = false ∨ offer = none) (read : Returns readHeader before (.groupSalt, 0) after) :
    Fails (recvHandler crypto deliver peer newlyPaired offer dKey) before .notInvited after := by
  have nothing : offer.filter (fun _ => newlyPaired) = none := by
    obtain rfl | rfl := uninvited
    · cases offer <;> rfl
    · rfl
  unfold recvHandler
  apply read.fails
  show Fails (sendGroupSalt newlyPaired offer >>= fun _ => pure _) after .notInvited after
  apply Fails.bind
  unfold sendGroupSalt
  rw [nothing]
  exact fails_throw _ _

theorem returns_invited {crypto : Crypto} {deliver : Bytes → DataAck} {peer : TrustedPeer} {offer : Option (Block 32)}
    {dKey : DataKey} {before middle after : SecureConnection transport} (read : Returns readHeader before (.groupSalt, 0) middle)
    (sent : Returns (sendGroupSalt true offer) middle () after) :
    Returns (recvHandler crypto deliver peer true offer dKey) before ⟨⟨peer, .groupSalt, []⟩, none⟩ after := by
  unfold recvHandler
  apply read.bind
  exact sent.bind (returns_pure _ _)

theorem fails_readTimeout {size : Nat} (tag : Tags) (fits : size ≤ secureMsgMaxPayload)
    (connection : SecureConnection transport) :
    Fails (readTimeout size tag) { connection with incoming := [] } .failedToReadFromSecureConnection
      { connection with incoming := [] } := by
  unfold readTimeout
  have stopped : Fails (Auth.read size tag) { connection with incoming := [] } .failedToReadFromStream
      { connection with incoming := [] } := by
    unfold Auth.read
    rw [if_neg (by omega)]
    apply (returns_get _).fails
    exact fails_throw _ _
  exact stopped.mapError

theorem fails_takeGroupSalt (connection : SecureConnection transport) :
    Fails takeGroupSalt { connection with incoming := [] } .failedToReadFromStream { connection with incoming := [] } := by
  unfold takeGroupSalt
  apply Fails.bind
  have stopped : Fails (readChunked groupSaltLen .regular) { connection with incoming := [] }
      .failedToReadFromSecureConnection { connection with incoming := [] } := by
    rw [readChunked, readMore, if_pos (by decide)]
    apply Fails.bind
    exact fails_readTimeout .regular (by decide) connection
  exact stopped.mapError

/-- The member has the request: it lets the device have the salt, or it does not. -/
structure SaltPasses (handler : Handling transport Received) (peer : TrustedPeer) (invited : Option (Block 32))
    (joiner requested member : SecureConnection transport) : Prop where
  given : ∀ dSalt, invited = some dSalt → ∃ answers member',
    Returns handler requested ⟨⟨peer, .groupSalt, []⟩, none⟩ member' ∧ member'.written = member.written ++ answers ∧
    ∀ rest, ∃ joiner', Returns takeGroupSalt { joiner with incoming := answers.flatten ++ rest } dSalt joiner' ∧
      joiner'.incoming = rest
  refused : invited = none → ∃ member', Fails handler requested .notInvited member' ∧ member'.written = member.written ∧
    Fails takeGroupSalt { joiner with incoming := [] } .failedToReadFromStream { joiner with incoming := [] }

/-- Between two linked ends, whatever each of them knows of the pairing: a device that did not pair just
now asks for nothing; one that did gets the salt that is offered if the member paired it just now as
well, and otherwise not a byte. -/
theorem group_salt_passes (delivers : transport.Delivers inStep) (crypto : Crypto) (deliver : Bytes → DataAck)
    (peer : TrustedPeer) (dKey : DataKey) {joiner member : SecureConnection transport}
    (linked : Linked inStep hash initiator joiner member) (joinerPaired memberPaired : Bool) (offer : Option (Block 32)) :
    (joinerPaired = false → Fails (askGroupSalt joinerPaired) joiner .notInvited joiner) ∧
    (joinerPaired = true → ∃ messages joiner', Returns (askGroupSalt joinerPaired) joiner () joiner' ∧
      joiner'.written = joiner.written ++ messages ∧
      ∀ rest, SaltPasses (recvHandler crypto deliver peer memberPaired offer dKey) peer
        (if memberPaired then offer else none) joiner' { member with incoming := messages.flatten ++ rest } member) := by
  constructor
  · intro known
    rw [known]
    exact fails_throw _ _
  · intro paired
    rw [paired]
    obtain ⟨messages, joiner', asked, wrote, _, _, arrives⟩ := carries_ask delivers joiner member linked
    refine ⟨messages, joiner', asked, wrote, fun rest => ?_⟩
    obtain ⟨middle, read, _, _, kept, linked'⟩ := arrives rest
    constructor
    · intro dSalt invited
      obtain ⟨rfl, rfl⟩ : memberPaired = true ∧ offer = some dSalt := by
        cases memberPaired with
        | false => cases invited
        | true => exact ⟨rfl, invited⟩
      -- the answer goes the other way, from the ends that the request leaves
      obtain ⟨answers, member', sent, wroteBack, _, _, comesBack⟩ :=
        carries_salt delivers dSalt middle joiner' (linked'.symm inStep delivers)
      refine ⟨answers, member', returns_invited read sent, wroteBack.trans (by rw [kept]), fun rest => ?_⟩
      obtain ⟨joiner'', taken, left, _⟩ := comesBack rest
      exact ⟨joiner'', taken, left⟩
    · intro refused
      have uninvited : memberPaired = false ∨ offer = none := by
        cases memberPaired with
        | false => exact .inl rfl
        | true => exact .inr refused
      exact ⟨middle, fails_uninvited uninvited read, kept, fails_takeGroupSalt joiner'⟩

end Passing

theorem group_salt_passes_opened :
    (∃ joiner' member', Returns (askGroupSalt true) (opened true) () joiner' ∧
      Returns (recvHandler Crypto.plain (fun _ => .ignored) ⟨.replicate 32 0, .replicate _ 0, "peer"⟩ true
        (some (.replicate 32 9)) (.replicate 32 2)) { opened false with incoming := joiner'.written.flatten }
        ⟨⟨⟨.replicate 32 0, .replicate _ 0, "peer"⟩, .groupSalt, []⟩, none⟩ member' ∧
      ∃ joiner'', Returns takeGroupSalt { joiner' with incoming := member'.written.flatten } (.replicate 32 9) joiner'') ∧
    Fails (askGroupSalt false) (opened true) .notInvited (opened true) := by
  have passes := group_salt_passes Transport.plain_delivers Crypto.plain (fun _ => .ignored)
    ⟨.replicate 32 0, .replicate _ 0, "peer"⟩ (.replicate 32 2) opened_linked
  constructor
  · obtain ⟨messages, joiner', asked, wrote, passes⟩ := (passes true true (some (.replicate 32 9))).2 rfl
    obtain ⟨answers, member', answered, wroteBack, comesBack⟩ := (passes []).given _ rfl
    obtain ⟨joiner'', taken, _⟩ := comesBack []
    rw [List.append_nil] at answered taken
    have first : joiner'.written = messages := wrote
    have second : member'.written = answers := wroteBack
    rw [← first] at answered
    rw [← second] at taken
    exact ⟨joiner', member', asked, answered, joiner'', taken⟩
  · exact (passes false true none).1 rfl

end DataPacket

end CesaConn
