import CesaConn.Auth.Wire

/-! Requests from the UI to the daemon and the bytes of their bodies.

The decoder takes exactly what the encoder writes of a request with passwords of
an allowed length and a code in the table. A request that is not so is still
written whole, and refused when it is read.
-/

set_option autoImplicit false

namespace CesaConn

namespace Ipc

open Format Auth

def maxPasswordLen : Nat := 1024

def pairingSymbols : Nat := 64

/-- `pairing_code::is_valid`: every index is in the table. -/
def isValid (code : PairingCode) : Bool := code.toList.all fun index => index.toNat < pairingSymbols

/-- The payload of `ResetDevice`, `CN-RESET`. -/
def resetConfirm : Bytes := [0x43, 0x4E, 0x2D, 0x52, 0x45, 0x53, 0x45, 0x54]

structure PasswordUpdate where
  password : Bytes
  deriving DecidableEq

structure JoinPasswords where
  auth : PasswordUpdate
  data : PasswordUpdate
  deriving DecidableEq

inductive Request where
  | status
  | setAuthPassword (update : PasswordUpdate)
  | setDataPassword (update : PasswordUpdate)
  | listPeers
  | unlock (update : PasswordUpdate)
  | setAutoLogin (on : Bool)
  | setSync (on : Bool)
  | addDevice
  | pendingPairing
  | answerPairing (id : UInt32) (code : PairingCode) (accept : Bool)
  | joinGroup (passwords : JoinPasswords)
  | cancelJoin
  | stopAddDevice
  | forgetPeer (fingerprint : Block fingerprintLen)
  | resetDevice
  | setClipboard (on : Bool)
  deriving DecidableEq

inductive Kind where
  | status
  | listPeers
  | setAuthPassword
  | setDataPassword
  | unlock
  | setAutoLogin
  | setSync
  | addDevice
  | pendingPairing
  | answerPairing
  | joinGroup
  | cancelJoin
  | stopAddDevice
  | forgetPeer
  | resetDevice
  | setClipboard

/-- The `REQ_` constants. -/
def Kind.byte : Kind → UInt8
  | .status => 0x01
  | .listPeers => 0x04
  | .setAuthPassword => 0x05
  | .setDataPassword => 0x06
  | .unlock => 0x07
  | .setAutoLogin => 0x08
  | .setSync => 0x09
  | .addDevice => 0x0A
  | .pendingPairing => 0x0B
  | .answerPairing => 0x0C
  | .joinGroup => 0x0D
  | .cancelJoin => 0x0E
  | .stopAddDevice => 0x0F
  | .forgetPeer => 0x10
  | .resetDevice => 0x11
  | .setClipboard => 0x12

def Kind.ofByte (byte : UInt8) : Option Kind :=
  match byte with
  | 0x01 => some .status
  | 0x04 => some .listPeers
  | 0x05 => some .setAuthPassword
  | 0x06 => some .setDataPassword
  | 0x07 => some .unlock
  | 0x08 => some .setAutoLogin
  | 0x09 => some .setSync
  | 0x0A => some .addDevice
  | 0x0B => some .pendingPairing
  | 0x0C => some .answerPairing
  | 0x0D => some .joinGroup
  | 0x0E => some .cancelJoin
  | 0x0F => some .stopAddDevice
  | 0x10 => some .forgetPeer
  | 0x11 => some .resetDevice
  | 0x12 => some .setClipboard
  | _ => none

def flag (on : Bool) : UInt8 := if on then 0x01 else 0x00

def parseFlag : Bytes → Option Bool
  | [0x00] => some false
  | [0x01] => some true
  | _ => none

def parsePasswordUpdate (password : Bytes) : Option PasswordUpdate :=
  if password = [] ∨ maxPasswordLen < password.length then none else some ⟨password⟩

/-- The two lowest bytes of a length, which stops at the largest there is. -/
def lengthU16 (length : Nat) : Bytes := little 2 (if length < 2 ^ 16 then length else 2 ^ 16 - 1)

def plainBody (kind : Kind) (update : Option PasswordUpdate) : Bytes :=
  kind.byte :: update.elim [] PasswordUpdate.password

def Request.encode : Request → Bytes
  | .status => plainBody .status none
  | .setAuthPassword update => plainBody .setAuthPassword (some update)
  | .setDataPassword update => plainBody .setDataPassword (some update)
  | .listPeers => plainBody .listPeers none
  | .unlock update => plainBody .unlock (some update)
  | .setAutoLogin on => [Kind.setAutoLogin.byte, flag on]
  | .setSync on => [Kind.setSync.byte, flag on]
  | .setClipboard on => [Kind.setClipboard.byte, flag on]
  | .addDevice => plainBody .addDevice none
  | .pendingPairing => plainBody .pendingPairing none
  | .cancelJoin => plainBody .cancelJoin none
  | .stopAddDevice => plainBody .stopAddDevice none
  | .forgetPeer fingerprint => Kind.forgetPeer.byte :: fingerprint.toList
  | .resetDevice => Kind.resetDevice.byte :: resetConfirm
  | .joinGroup passwords =>
      -- never cut: a too long password goes out whole and is refused
      Kind.joinGroup.byte :: (lengthU16 passwords.auth.password.length ++
        (passwords.auth.password ++ passwords.data.password))
  | .answerPairing id code accept =>
      Kind.answerPairing.byte :: (little 4 id.toNat ++ (code.toList ++ [flag accept]))

def decodeJoin (payload : Bytes) : Option Request := do
  let (authLen, rest) ← readLE 2 payload
  let (auth, data) ← splitAtChecked authLen rest
  let auth ← parsePasswordUpdate auth
  let data ← parsePasswordUpdate data
  return .joinGroup ⟨auth, data⟩

def decodeAnswer (payload : Bytes) : Option Request := do
  let (id, rest) ← readLE 4 payload
  let (code, accept) ← splitFirstChunk 8 rest
  if isValid code then
    let accept ← parseFlag accept
    return .answerPairing (UInt32.ofNat id) code accept
  else none

def Request.decode : Bytes → Option Request
  | [] => none
  | kind :: payload => do
      match ← Kind.ofByte kind with
      | .status => if payload = [] then some .status else none
      | .listPeers => if payload = [] then some .listPeers else none
      | .setAuthPassword => (parsePasswordUpdate payload).map .setAuthPassword
      | .setDataPassword => (parsePasswordUpdate payload).map .setDataPassword
      | .unlock => (parsePasswordUpdate payload).map .unlock
      | .setAutoLogin => (parseFlag payload).map .setAutoLogin
      | .setSync => (parseFlag payload).map .setSync
      | .setClipboard => (parseFlag payload).map .setClipboard
      | .addDevice => if payload = [] then some .addDevice else none
      | .pendingPairing => if payload = [] then some .pendingPairing else none
      | .cancelJoin => if payload = [] then some .cancelJoin else none
      | .stopAddDevice => if payload = [] then some .stopAddDevice else none
      | .forgetPeer => (toBlock fingerprintLen payload).map .forgetPeer
      | .resetDevice => if payload = resetConfirm then some .resetDevice else none
      | .joinGroup => decodeJoin payload
      | .answerPairing => decodeAnswer payload

/-! ## What is read is what was written -/

def PasswordUpdate.Allowed (update : PasswordUpdate) : Prop :=
  1 ≤ update.password.length ∧ update.password.length ≤ maxPasswordLen

/-- The daemon takes the request: its passwords have an allowed length, its code
is in the table. -/
def Request.Allowed : Request → Prop
  | .setAuthPassword update | .setDataPassword update | .unlock update => update.Allowed
  | .joinGroup passwords => passwords.auth.Allowed ∧ passwords.data.Allowed
  | .answerPairing _ code _ => isValid code = true
  | _ => True

@[simp] theorem ofByte_byte (kind : Kind) : Kind.ofByte kind.byte = some kind := by
  cases kind <;> rfl

theorem ofByte_eq_some {byte : UInt8} {kind : Kind} (found : Kind.ofByte byte = some kind) : byte = kind.byte := by
  unfold Kind.ofByte at found
  split at found <;> first | (cases found; rfl) | cases found

theorem parseFlag_eq_some {payload : Bytes} {on : Bool} : parseFlag payload = some on ↔ payload = [flag on] := by
  unfold parseFlag
  split
  · cases on <;> simp [flag]
  · cases on <;> simp [flag]
  · next zero one =>
    cases on
    · simpa [flag] using zero
    · simpa [flag] using one

theorem parsePasswordUpdate_eq_some {password : Bytes} {update : PasswordUpdate} :
    parsePasswordUpdate password = some update ↔ update.Allowed ∧ password = update.password := by
  obtain ⟨own⟩ := update
  have size : password = own → (¬ (password = [] ∨ maxPasswordLen < password.length) ↔
      (⟨own⟩ : PasswordUpdate).Allowed) := by
    rintro rfl
    simp only [PasswordUpdate.Allowed, Nat.succ_le_iff, List.length_pos_iff, not_or, Nat.not_lt, ne_eq]
  simp only [parsePasswordUpdate, Option.ite_none_left_eq_some, Option.some.injEq, PasswordUpdate.mk.injEq]
  constructor
  · intro ⟨fits, same⟩
    exact ⟨(size same).mp fits, same⟩
  · intro ⟨fits, same⟩
    exact ⟨(size same).mpr fits, same⟩

theorem decodeJoin_eq_some {payload : Bytes} {request : Request} :
    decodeJoin payload = some request ↔ ∃ passwords : JoinPasswords, request = .joinGroup passwords ∧
      request.Allowed ∧ payload = little 2 passwords.auth.password.length ++
        (passwords.auth.password ++ passwords.data.password) := by
  simp only [decodeJoin, Option.bind_eq_bind, Option.bind_eq_some_iff, Prod.exists, readLE_eq_some,
    splitAtChecked_eq_some, parsePasswordUpdate_eq_some]
  constructor
  · intro found
    obtain ⟨_, _, ⟨rfl, _⟩, _, _, ⟨rfl, rfl⟩, auth, ⟨authFits, rfl⟩, data, ⟨dataFits, rfl⟩, same⟩ := found
    cases same
    exact ⟨⟨auth, data⟩, rfl, ⟨authFits, dataFits⟩, rfl⟩
  · intro ⟨passwords, same, fits, shape⟩
    subst same
    have small : passwords.auth.password.length < 256 ^ 2 := fits.1.2.trans_lt (by decide)
    exact ⟨_, _, ⟨shape, small⟩, _, _, ⟨rfl, rfl⟩, passwords.auth, ⟨fits.1, rfl⟩, passwords.data, ⟨fits.2, rfl⟩, rfl⟩

theorem decodeAnswer_eq_some {payload : Bytes} {request : Request} :
    decodeAnswer payload = some request ↔ ∃ id code accept, request = .answerPairing id code accept ∧
      request.Allowed ∧ payload = little 4 id.toNat ++ (code.toList ++ [flag accept]) := by
  simp only [decodeAnswer, Option.bind_eq_bind, Option.bind_eq_some_iff, Prod.exists, readLE_eq_some,
    splitFirstChunk_eq_some, Option.ite_none_right_eq_some, parseFlag_eq_some]
  constructor
  · intro found
    obtain ⟨number, _, ⟨rfl, fits⟩, code, _, rfl, valid, accept, rfl, same⟩ := found
    cases same
    have same : (UInt32.ofNat number).toNat = number := by
      rw [UInt32.toNat_ofNat', Nat.mod_eq_of_lt (by simpa using fits)]
    exact ⟨_, code, accept, rfl, valid, by rw [same]⟩
  · intro ⟨id, code, accept, same, valid, shape⟩
    subst same
    have fits : id.toNat < 256 ^ 4 := id.toNat_lt
    refine ⟨_, _, ⟨shape, fits⟩, code, _, rfl, valid, accept, rfl, ?_⟩
    rw [UInt32.ofNat_toNat]
    rfl

theorem lengthU16_of_allowed {update : PasswordUpdate} (fits : update.Allowed) :
    lengthU16 update.password.length = little 2 update.password.length := by
  have small : update.password.length < 2 ^ 16 := fits.2.trans_lt (by decide)
  rw [lengthU16, if_pos small]

/-- A body is read as a request exactly when it is what was written of an allowed one. -/
theorem decode_eq_some {body : Bytes} {request : Request} :
    Request.decode body = some request ↔ request.Allowed ∧ body = request.encode := by
  constructor
  · intro found
    cases body with
    | nil => cases found
    | cons byte payload =>
        simp only [Request.decode, Option.bind_eq_bind, Option.bind_eq_some_iff] at found
        obtain ⟨kind, known, found⟩ := found
        cases ofByte_eq_some known
        cases kind with
        -- the kinds with a payload have readers of their own
        | setAuthPassword | setDataPassword | unlock =>
            obtain ⟨update, parsed, rfl⟩ := Option.map_eq_some_iff.mp found
            obtain ⟨fits, rfl⟩ := parsePasswordUpdate_eq_some.mp parsed
            exact ⟨fits, rfl⟩
        | setAutoLogin | setSync | setClipboard =>
            obtain ⟨on, parsed, rfl⟩ := Option.map_eq_some_iff.mp found
            rw [parseFlag_eq_some.mp parsed]
            exact ⟨trivial, rfl⟩
        | forgetPeer =>
            obtain ⟨fingerprint, parsed, rfl⟩ := Option.map_eq_some_iff.mp found
            rw [toBlock_eq_some.mp parsed]
            exact ⟨trivial, rfl⟩
        | joinGroup =>
            obtain ⟨passwords, rfl, fits, rfl⟩ := decodeJoin_eq_some.mp found
            exact ⟨fits, by rw [Request.encode, lengthU16_of_allowed fits.1]⟩
        | answerPairing =>
            obtain ⟨id, code, accept, rfl, valid, rfl⟩ := decodeAnswer_eq_some.mp found
            exact ⟨valid, rfl⟩
        | _ =>
            simp only [Option.ite_none_right_eq_some, Option.some.injEq] at found
            obtain ⟨rfl, rfl⟩ := found
            exact ⟨trivial, rfl⟩
  · intro ⟨fits, shape⟩
    subst shape
    cases request with
    | setAuthPassword update | setDataPassword update | unlock update =>
        have parsed := parsePasswordUpdate_eq_some.mpr ⟨fits, rfl⟩
        simp [Request.decode, Request.encode, plainBody, parsed]
    | setAutoLogin on | setSync on | setClipboard on =>
        have parsed : parseFlag [flag on] = some on := parseFlag_eq_some.mpr rfl
        simp [Request.decode, Request.encode, parsed]
    | forgetPeer fingerprint => simp [Request.decode, Request.encode]
    | joinGroup passwords =>
        have parsed := decodeJoin_eq_some.mpr ⟨passwords, rfl, fits, rfl⟩
        simp [Request.decode, Request.encode, lengthU16_of_allowed fits.1, parsed]
    | answerPairing id code accept =>
        have parsed := decodeAnswer_eq_some.mpr ⟨id, code, accept, rfl, fits, rfl⟩
        simp [Request.decode, Request.encode, parsed]
    | _ => simp [Request.decode, Request.encode, plainBody]

/-- What is written of a request that is not allowed is refused. The length of a
too long password stops at the largest one, which is still too long, so the two
passwords of a join are never split elsewhere. -/
theorem decode_encode_of_not_allowed {request : Request} (refused : ¬ request.Allowed) :
    Request.decode request.encode = none := by
  have password : ∀ update : PasswordUpdate, ¬ update.Allowed → parsePasswordUpdate update.password = none := by
    intro update refused
    rw [Option.eq_none_iff_forall_ne_some]
    intro other parsed
    obtain ⟨fits, same⟩ := parsePasswordUpdate_eq_some.mp parsed
    exact refused (by unfold PasswordUpdate.Allowed; rw [same]; exact fits)
  cases request with
  | setAuthPassword update | setDataPassword update | unlock update =>
      simp [Request.decode, Request.encode, plainBody, password update refused]
  | answerPairing id code accept =>
      have none : decodeAnswer (little 4 id.toNat ++ (code.toList ++ [flag accept])) = none := by
        rw [Option.eq_none_iff_forall_ne_some]
        intro other found
        obtain ⟨id', code', accept', rfl, valid, shape⟩ := decodeAnswer_eq_some.mp found
        have rest := (List.append_inj shape (by simp)).2
        have codes := (List.append_inj rest (by simp)).1
        exact refused (List.Vector.toList_injective codes ▸ valid)
      simp [Request.decode, Request.encode, none]
  | joinGroup passwords =>
      have none : decodeJoin (lengthU16 passwords.auth.password.length ++
          (passwords.auth.password ++ passwords.data.password)) = none := by
        rw [Option.eq_none_iff_forall_ne_some]
        intro other found
        obtain ⟨others, rfl, fits, shape⟩ := decodeJoin_eq_some.mp found
        -- the written length is the real one or the largest, and only a real one is short enough
        obtain ⟨lengths, texts⟩ := List.append_inj shape (by simp [lengthU16])
        have short : others.auth.password.length ≤ 1024 := fits.1.2
        have written : (if passwords.auth.password.length < 2 ^ 16 then passwords.auth.password.length else 2 ^ 16 - 1) =
            others.auth.password.length := by
          have values := congrArg valueLE lengths
          rwa [lengthU16, valueLE_little (by split <;> omega), valueLE_little (by omega)] at values
        have same : passwords.auth.password.length = others.auth.password.length := by
          split at written
          · exact written
          · omega
        obtain ⟨auth, data⟩ := List.append_inj texts same
        have whole : passwords = others := by
          obtain ⟨⟨_⟩, ⟨_⟩⟩ := passwords
          cases auth
          cases data
          rfl
        exact refused (whole ▸ fits)
      simp [Request.decode, Request.encode, none]
  | _ => exact absurd trivial refused

/-- What is read of a written request is the request itself, or nothing if one of
its passwords has no allowed length or its code is not in the table; and only
what was written is read. -/
theorem request_codec :
    (∀ request : Request, (request.Allowed → Request.decode request.encode = some request) ∧
      (¬ request.Allowed → Request.decode request.encode = none)) ∧
    ∀ (body : Bytes) (request : Request), Request.decode body = some request → request.encode = body := by
  refine ⟨fun request => ⟨?_, decode_encode_of_not_allowed⟩, ?_⟩
  · intro fits
    exact decode_eq_some.mpr ⟨fits, rfl⟩
  · intro body request found
    exact (decode_eq_some.mp found).2.symm

def joining : Request := .joinGroup ⟨⟨[0x70, 0x31]⟩, ⟨[0x70, 0x32, 0x21]⟩⟩

theorem request_codec_join : Request.decode joining.encode = some joining ∧
    Request.decode [0x0D, 0x02, 0x00, 0x70, 0x31, 0x70, 0x32, 0x21] = some joining ∧
    joining.encode = [0x0D, 0x02, 0x00, 0x70, 0x31, 0x70, 0x32, 0x21] := by
  have read : Request.decode [0x0D, 0x02, 0x00, 0x70, 0x31, 0x70, 0x32, 0x21] = some joining := by decide
  exact ⟨(request_codec.1 joining).1 ⟨⟨by decide, by decide⟩, ⟨by decide, by decide⟩⟩, read, request_codec.2 _ _ read⟩

end Ipc

end CesaConn
