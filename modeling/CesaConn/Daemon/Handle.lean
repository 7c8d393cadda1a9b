import CesaConn.Auth.PairingCode
import CesaConn.Daemon.Answers
import CesaConn.Daemon.Tasks
import CesaConn.Ipc.Response
import CesaConn.Program.Sum

/-! What the daemon answers to a request, and that the UI reads it.

A change runs as its own task, which goes on when the one that waits for it is cut off:
here it is one operation. So are the two things that are read off the waiting pairings.
-/

set_option autoImplicit false

namespace CesaConn

open Format Program

namespace Daemon

open Ipc (Status PeerInfo PairingPrompt Response maxListedPeers)

inductive Ask where
  /-- The requests that wait, once those that do not any more were dropped. -/
  | waiting
  /-- Whether a waiting request has this id and this code; it is answered. -/
  | answerPairing (id : UInt32) (code : PairingCode) (accept : Bool)
  | loadOtherGroup
  /-- Waits for a change; it is lost with its task. -/
  | change (request : Request)

abbrev asks : Signature where
  Op := Ask
  Reply
    | .waiting => List (UInt32 × PairingRequest)
    | .answerPairing _ _ _ => Bool
    | .loadOtherGroup => Bool
    | .change _ => Option (Except DaemonError Unit)

abbrev Handling (A : Type) := Proc (sections.sum asks) A

def ask (op : Ask) : Handling (asks.Reply op) := .call (.inr op) .done

def run {A : Type} (task : Task A) : Handling A := task.left

def clamp (bits number : Nat) : Nat := min number (2 ^ bits - 1)

variable (setup : Setup)

def status : Handling Status := do
  let keys ← run (await .readKeys)
  let now ← run (await .now)
  let peers ← run trustedCopy
  let networkRunning := (← run (await .runningNetwork)).isSome
  let waiting ← ask .waiting
  let joining ← run (await .joinRunning)
  -- the flag is loaded for each of the two fields
  let addingDevice ← if networkRunning then run (await .loadAdding) else pure false
  let asksNearby ← if networkRunning then run (await .loadAdding) else pure false
  let otherGroupNearby ← if asksNearby then ask .loadOtherGroup else pure false
  return {
    authKeySet := keys.aKey.isSome
    dataKeySet := keys.dKey.isSome
    networkRunning
    trustedPeers := UInt32.ofNat (clamp 32 peers.length)
    locked := keys.locked
    saved := keys.vault.isSome
    autoLogin := keys.autoLogin
    unlockWaitSecs := UInt16.ofNat (waitSecs keys.unlockNotBefore now)
    syncEnabled := keys.vault.any fun vault => vault.config.sync
    addingDevice
    pendingPairings := UInt8.ofNat (clamp 8 waiting.length)
    joining
    otherGroupNearby
    clipboardEnabled := keys.vault.any fun vault => vault.config.clipboard
    clipboardUnavailable := !setup.clipboard }

/-- The states are read one after the other. -/
def listed : List TrustedPeer → Handling (List PeerInfo)
  | [] => return []
  | peer :: rest => do
      let book ← run (await .readBook)
      let infos ← listed rest
      return ⟨peer.fingerprint, peer.name, book.state peer⟩ :: infos

def peers : Handling (List PeerInfo) := do
  let peers ← run trustedCopy
  listed (peers.take maxListedPeers)

/-- The oldest pairing still waiting for the user. -/
def pendingPairing : Handling (Option PairingPrompt) := do
  let waiting ← ask .waiting
  return waiting.head?.map fun (id, request) => ⟨id, request.name, request.code⟩

def answerPairing (id : UInt32) (code : PairingCode) (accept : Bool) : Handling (Except DaemonError Unit) := do
  return if ← ask (.answerPairing id code accept) then .ok () else .error .pairingExpired

def answerDone {A : Type} (result : Except DaemonError A) : Bytes :=
  match result with
  | .ok _ => Response.done.encode
  | .error error => Response.encodeError error

/-- A change that is lost is answered like one that failed. -/
def performChange (request : Request) : Handling Bytes := do
  return answerDone ((← ask (.change request)).getD (.error .internal))

def handle : Ipc.Request → Handling Bytes
  | .status => do return (Response.status (← status setup)).encode
  | .listPeers => do return (Response.peers (← peers)).encode
  | .pendingPairing => do return (Response.pairing (← pendingPairing)).encode
  | .answerPairing id code accept => do return answerDone (← answerPairing id code accept)
  | .addDevice => do return answerDone (← run addDevice)
  | .joinGroup _ => do return answerDone (← run (joinGroup setup))
  | .cancelJoin => do
      run cancelJoin
      return Response.done.encode
  | .stopAddDevice => do
      run stopAddDevice
      return Response.done.encode
  | .setAuthPassword update => performChange (.setAuthPassword update.password)
  | .setDataPassword update => performChange (.setDataPassword update.password)
  | .unlock update => performChange (.unlock update.password)
  | .setAutoLogin on => performChange (.setAutoLogin on)
  | .setSync on => performChange (.setSync on)
  | .setClipboard on => performChange (.setClipboard on)
  | .forgetPeer fingerprint => performChange (.forgetPeer fingerprint)
  | .resetDevice => performChange .resetDevice

/-! ## Every answer is read -/

/-- The name and the code that a handshake asks with: its other end's address, and the
symbols of what its hash is expanded to. -/
def PairingRequest.Shown (request : PairingRequest) : Prop :=
  (∃ addr : SocketAddr, request.name = addr.toString) ∧ ∃ okm : Block 6, request.code = Auth.symbolsOf okm

def promptOf (entry : UInt32 × PairingRequest) : PairingPrompt := ⟨entry.1, entry.2.name, entry.2.code⟩

theorem PairingRequest.Shown.fits {request : PairingRequest} (shown : request.Shown) (id : UInt32) :
    (promptOf (id, request)).cut = promptOf (id, request) ∧ (promptOf (id, request)).Shown := by
  obtain ⟨⟨addr, named⟩, okm, coded⟩ := shown
  obtain ⟨short, printable⟩ := validPeerName_iff.mp (validPeerName_toString addr)
  have size : (asBytes request.name).length ≤ 255 := by
    rw [length_asBytes_eq, named]
    exact short
  refine ⟨?_, ?_, ?_⟩
  · show (PairingPrompt.mk id (Ipc.cutName request.name) request.code) = _
    rw [Ipc.cutName_of_le size]
    rfl
  · show Ipc.isValid request.code = true
    rw [coded]
    exact Auth.isValid_symbolsOf okm
  · show ∀ c ∈ request.name.toList, ¬ isControl c
    rw [named]
    exact printable

theorem PairingRequest.Shown.read {entry : UInt32 × PairingRequest} (shown : entry.2.Shown) :
    Response.decode .pendingPairing (Response.pairing (some (promptOf entry))).encode =
      .ok (.pairing (some (promptOf entry))) := by
  obtain ⟨whole, readable⟩ := shown.fits entry.1
  have cut : (promptOf entry).cut = promptOf entry := whole
  have shows : (Response.pairing (some (promptOf entry))).Readable := by
    show (promptOf entry).cut.Shown
    rw [cut]
    exact readable
  have answers : (Response.pairing (some (promptOf entry))).Answers .pendingPairing := rfl
  rw [Ipc.decode_encode answers shows]
  show Except.ok (Response.pairing (some (promptOf entry).cut)) = _
  rw [cut]

theorem PairingRequest.Shown.answered {entry : UInt32 × PairingRequest} (shown : entry.2.Shown) (accept : Bool) :
    Ipc.Request.decode (Ipc.Request.answerPairing (promptOf entry).id (promptOf entry).code accept).encode =
      some (.answerPairing (promptOf entry).id (promptOf entry).code accept) := by
  obtain ⟨-, valid, -⟩ := shown.fits entry.1
  exact Ipc.decode_eq_some.mpr ⟨valid, rfl⟩

/-- An answer to the request that the UI reads, or an error. -/
def Answers (question : Ipc.Request) (body : Bytes) : Prop :=
  (∃ response : Response, response.Answers question ∧ response.Readable ∧ body = response.encode) ∨
    ∃ error, body = Response.encodeError error

def Plain (question : Ipc.Request) : Prop := Response.done.Answers question

theorem answers_done {A : Type} {question : Ipc.Request} (plain : Plain question) (result : Except DaemonError A) :
    Answers question (answerDone result) := by
  cases result with
  | ok value => exact .inl ⟨.done, plain, trivial, rfl⟩
  | error error => exact .inr ⟨error, rfl⟩

def Asked (events : List (Event (sections.sum asks))) : Prop :=
  ∀ waiting : List (UInt32 × PairingRequest), ⟨.inr .waiting, waiting⟩ ∈ events → ∀ entry ∈ waiting, entry.2.Shown

variable {setup} {question : Ipc.Request} {events : List (Event (sections.sum asks))} {body : Bytes}

theorem answers_of_bind {A : Type} {program : Handling A} {encode : A → Bytes} {P : Bytes → Prop}
    (traced : (program >>= fun value => .done (encode value)).Traces events body) (holds : ∀ value, P (encode value)) : P body := by
  obtain ⟨first, rest, value, rfl, before, rfl, rfl⟩ := (Proc.traces_bind _ _ _ _).mp traced
  exact holds value

theorem traces_pendingPairing {prompt : Option PairingPrompt} (traced : pendingPairing.Traces events prompt) :
    ∃ waiting, ⟨.inr .waiting, waiting⟩ ∈ events ∧ prompt = waiting.head?.map promptOf := by
  obtain ⟨waiting, rest, rfl, rfl, rfl⟩ := traced
  exact ⟨waiting, List.mem_cons_self, rfl⟩

theorem answers_handle (traced : (handle setup question).Traces events body) (asked : Asked events) :
    Answers question body := by
  cases question with
  | status => exact answers_of_bind traced fun status => .inl ⟨.status status, rfl, trivial, rfl⟩
  | listPeers => exact answers_of_bind traced fun peers => .inl ⟨.peers peers, rfl, trivial, rfl⟩
  | pendingPairing =>
      obtain ⟨first, rest, prompt, rfl, before, rfl, rfl⟩ := (Proc.traces_bind _ _ _ _).mp traced
      obtain ⟨waiting, member, rfl⟩ := traces_pendingPairing before
      refine .inl ⟨.pairing _, rfl, ?_, rfl⟩
      cases waiting with
      | nil => trivial
      | cons entry others =>
          have shown := asked _ (List.mem_append_left _ member) entry List.mem_cons_self
          obtain ⟨whole, readable⟩ := shown.fits entry.1
          show (promptOf entry).cut.Shown
          rw [whole]
          exact readable
  | cancelJoin | stopAddDevice => exact answers_of_bind traced fun _ => answers_done (by simp [Plain, Response.Answers]) (.ok ())
  | _ => exact answers_of_bind traced fun _ => answers_done (by simp [Plain, Response.Answers]) _

/-- The answer to any request fits into a frame and is read by the UI as an answer to this
request or as an error of the daemon, never as malformed. The oldest waiting pairing is
read as it waits, and what the UI answers to it is a request that the daemon takes. -/
theorem answer_is_read (traced : (handle setup question).Traces events body) (asked : Asked events) :
    Ipc.Framed body ∧
      ((∃ response : Response, response.Answers question ∧ Response.decode question body = .ok response) ∨
        ∃ error, body = Response.encodeError error ∧ Response.decode question body = .error (.daemon error)) ∧
      (question = .pendingPairing → ∃ waiting : List (UInt32 × PairingRequest), ⟨.inr .waiting, waiting⟩ ∈ events ∧
        Response.decode question body = .ok (.pairing (waiting.head?.map promptOf)) ∧
        ∀ prompt, waiting.head?.map promptOf = some prompt → ∀ accept,
          Ipc.Request.decode (Ipc.Request.answerPairing prompt.id prompt.code accept).encode =
            some (.answerPairing prompt.id prompt.code accept)) := by
  refine ⟨?_, ?_, ?_⟩
  · rcases answers_handle traced asked with ⟨response, _, _, rfl⟩ | ⟨error, rfl⟩
    · exact Ipc.framed_encode response
    · exact Ipc.framed_of_length (by simp [Response.encodeError]) (by simp [Response.encodeError, Ipc.maxFrameLen])
  · rcases answers_handle traced asked with ⟨response, answers, readable, rfl⟩ | ⟨error, rfl⟩
    · refine .inl ⟨response.cut, ?_, Ipc.decode_encode answers readable⟩
      cases response <;> exact answers
    · exact .inr ⟨error, rfl, by simp [Response.encodeError, Response.decode]⟩
  · rintro rfl
    obtain ⟨first, rest, prompt, rfl, before, rfl, rfl⟩ := (Proc.traces_bind _ _ _ _).mp traced
    obtain ⟨waiting, member, rfl⟩ := traces_pendingPairing before
    refine ⟨waiting, List.mem_append_left _ member, ?_⟩
    cases waiting with
    | nil =>
        refine ⟨rfl, fun prompt none => ?_⟩
        cases none
    | cons entry others =>
        have shown := asked _ (List.mem_append_left _ member) entry List.mem_cons_self
        refine ⟨shown.read, ?_⟩
        rintro prompt same accept
        cases same
        exact shown.answered accept

def phoneRequest : PairingRequest := ⟨phoneAddr.toString, Auth.symbolsOf (.replicate 6 7), 0⟩

theorem phoneRequest_shown : phoneRequest.Shown := ⟨⟨phoneAddr, rfl⟩, _, rfl⟩

theorem answer_is_read_phone :
    Response.decode .pendingPairing (Response.pairing (some (promptOf (3, phoneRequest)))).encode =
      .ok (.pairing (some (promptOf (3, phoneRequest)))) := by
  have traced : (handle plainSetup .pendingPairing).Traces [⟨.inr .waiting, [(3, phoneRequest)]⟩]
      (Response.pairing (some (promptOf (3, phoneRequest)))).encode := ⟨_, _, rfl, rfl, rfl⟩
  have asked : Asked [⟨.inr .waiting, [(3, phoneRequest)]⟩] := by
    intro waiting member entry among
    cases List.mem_singleton.mp member
    cases List.mem_singleton.mp among
    exact phoneRequest_shown
  obtain ⟨waiting, member, read, -⟩ := (answer_is_read traced asked).2.2 rfl
  cases List.mem_singleton.mp member
  exact read

end Daemon

namespace Answers

open Daemon (PairingRequest PairingCode promptOf)

def Event.Shown : Event → Prop
  | .ask _ name code => PairingRequest.Shown ⟨name, code, 0⟩
  | _ => True

theorem codes_step {state next : State} {event : Event} (stepped : step state event = some next)
    (other : ∀ bridge name code, event ≠ .ask bridge name code) : next.codes = state.codes := by
  cases event with
  | ask bridge name code => exact absurd rfl (other bridge name code)
  | recv bridge =>
      obtain ⟨-, same⟩ := Option.ite_none_left_eq_some.mp stepped
      obtain ⟨entry, -, rfl⟩ := Option.map_eq_some_iff.mp same
      rfl
  | refuse bridge =>
      obtain ⟨request, -, rfl⟩ := Option.map_eq_some_iff.mp stepped
      rfl
  | push bridge =>
      obtain ⟨request, -, rfl⟩ := Option.map_eq_some_iff.mp stepped
      unfold pushPairing
      dsimp only
      split <;> rfl
  | answerPairing id code accept =>
      cases stepped
      unfold answerPairing
      dsimp only
      split <;> rfl
  | poll handshake =>
      simp only [step, poll] at stepped
      split at stepped <;> cases stepped <;> rfl
  | timeout handshake =>
      obtain ⟨-, same⟩ := Option.ite_none_left_eq_some.mp stepped
      cases same
      rfl
  | endBridge | pendingPairing | clear | leave | restart =>
      cases stepped
      rfl

theorem shown_step {state next : State} {event : Event} (stepped : step state event = some next) (asked : event.Shown)
    (shown : ∀ request ∈ state.present, request.Shown) : ∀ request ∈ next.present, request.Shown := by
  by_cases asks : ∃ bridge name code, event = .ask bridge name code
  · obtain ⟨bridge, name, code, rfl⟩ := asks
    cases stepped
    unfold ask
    dsimp only
    split
    · exact shown
    · intro request member
      simp only [State.present, List.map_append, List.map_cons, List.map_nil, List.append_assoc, List.mem_append,
        List.mem_singleton] at member
      rcases member with inbox | rfl | later
      · exact shown request (List.mem_append_left _ inbox)
      · exact asked
      · exact shown request (List.mem_append_right _ (List.mem_append.mpr later))
  · have other : ∀ bridge name code, event ≠ .ask bridge name code := fun bridge name code same => asks ⟨bridge, name, code, same⟩
    have codes := codes_step stepped other
    have grown (code : PairingCode) : next.codes ≠ state.codes ++ [code] := by
      rw [codes]
      intro same
      have lengths := congrArg List.length same
      simp at lengths
    intro request member
    have kept : request ∈ next.view.present := member
    have same : next.view.codes = next.codes := rfl
    cases moved : next.view with
    | mk present codes oneshot seen given =>
    rw [moved] at kept same
    have move := moves stepped
    rw [moved] at move
    cases move with
    | drops _ gone split => exact shown request (split.symm.subset (List.mem_append_left gone kept))
    | answers _ gone answered accept split =>
        exact shown request (split.symm.subset (List.mem_cons_of_mem answered (List.mem_append_left gone kept)))
    | asks name code _ split => exact absurd same.symm (grown code)
    | refused code => exact absurd same.symm (grown code)
    | closes => exact shown request kept
    | restarts => cases kept

theorem shown_run {events : List Event} {state final : State} (ran : run state events = some final)
    (asked : ∀ event ∈ events, event.Shown) (shown : ∀ request ∈ state.present, request.Shown) :
    ∀ request ∈ final.present, request.Shown := by
  induction events generalizing state with
  | nil =>
      cases ran
      exact shown
  | cons event rest ih =>
      obtain ⟨next, stepped, later⟩ := Option.bind_eq_some_iff.mp ran
      have now := asked event List.mem_cons_self
      exact ih later (fun event member => asked event (List.mem_cons_of_mem _ member)) (shown_step stepped now shown)

/-- An answer to the oldest one takes it from the front. -/
theorem answerPairing_oldest {state : State} {entry : UInt32 × PairingRequest} {rest : List (UInt32 × PairingRequest)}
    (waiting : state.prune.pairings.waiting = entry :: rest) (accept : Bool) :
    answerPairing state entry.1 entry.2.code accept =
      State.answer { state.prune with pairings := { state.prune.pairings with waiting := rest } } entry.2 accept := by
  let own (other : UInt32 × PairingRequest) : Bool := other.1 = entry.1 && other.2.code = entry.2.code
  have named : own entry = true := by simp [own]
  have found : state.prune.pairings.waiting.find? own = some entry := by
    rw [waiting]
    exact List.find?_cons_of_pos named
  have left : state.prune.pairings.waiting.eraseP own = rest := by
    rw [waiting]
    exact List.eraseP_cons_of_pos named
  rw [← left]
  simp only [answerPairing]
  rw [show List.find? _ state.prune.pairings.waiting = some entry from found]

/-- Two phones ask in a row; the answer to the first leaves the second one's question. -/
def twoPhones : List Event :=
  [.ask 0 Daemon.phoneRequest.name Daemon.phoneRequest.code, .recv 0, .push 0,
    .ask 0 Daemon.phoneRequest.name Daemon.phoneRequest.code, .recv 0, .push 0]

end Answers

end CesaConn
