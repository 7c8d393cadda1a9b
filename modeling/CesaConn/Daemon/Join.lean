import CesaConn.Daemon.Tasks
import CesaConn.Ipc.Request
import CesaConn.Network.Discovery
import CesaConn.Network.Receiver
import CesaConn.Network.SaltService

/-! A join, from the search for members to what it brings.

Everything that the network answers is open, and the join may be cut off anywhere, by its
user or by time. Whoever announces itself can send a salt, and each salt costs a run of
Argon2 and a handshake, so they are counted.
-/

set_option autoImplicit false

namespace CesaConn

open Format Program

namespace Daemon

open Vault
open Discovery (InstanceId Hint)
open SaltService (SaltServiceErrors)

namespace Join

def joinMaxAttempts : Nat := 5

def saltPort : UInt16 := 3233
def tcpPort : UInt16 := 3232

/-- Where a join looks for the member: its salt query and its listener. -/
structure MemberAddrs where
  salt : SocketAddr
  tcp : SocketAddr

def MemberAddrs.at (ip : IpAddr) : MemberAddrs := ⟨.new ip saltPort, .new ip tcpPort⟩

inductive Op where
  | generateId
  /-- `udp_find_broadcasters`. -/
  | findBroadcasters (own : InstanceId)
  | querySalt (addr : SocketAddr)
  | derive (password : Bytes) (salt : Salt)
  | randomKey
  | connect (addr : SocketAddr)
  | joinHandler (keys : Keys) (identity : Identity) (addr : SocketAddr)
  /-- `commit_join` as a task of its own. -/
  | commit (joined : Joined) (identity : Identity) (resets : Nat)
  | sleep

def Op.Aside : Op → Prop
  | .generateId | .findBroadcasters _ | .randomKey | .connect _ | .sleep => True
  | .querySalt _ | .derive _ _ | .joinHandler _ _ _ | .commit _ _ _ => False

abbrev joining : Signature where
  Op := Op
  Reply
    | .generateId => Option InstanceId
    | .findBroadcasters _ => Option (List Hint)
    | .querySalt _ => Except SaltServiceErrors Salt
    | .derive _ _ => Call Unit (Block 32)
    | .randomKey => Option (Block 32)
    | .connect _ => Bool
    | .joinHandler _ _ _ => Option (TrustedPeer × Salt)
    | .commit _ _ _ => Option (Except DaemonError Unit)
    | .sleep => Unit

abbrev Did := Program.Event joining

def perform (op : Op) : Proc joining (joining.Reply op) := .call op .done

section

variable (passwords : Ipc.JoinPasswords) (identity : Identity) (resets : Nat)

def findMembers : Proc joining (List MemberAddrs) := do
  match ← perform .generateId with
  | none => return []
  | some own =>
      match ← perform (.findBroadcasters own) with
      -- only the address is taken from what was heard
      | some found => return found.map fun hint => .at hint.ip
      | none => return []

def joinWith (member : MemberAddrs) (aSalt : Salt) : Proc joining (Except DaemonError Joined) := do
  match (← perform (.derive passwords.auth.password aSalt)).result fun _ => .keyDerivationFailed with
  | .error e => return .error e
  | .ok aKey =>
      -- a data key that opens nothing
      match ← perform .randomKey with
      | none => return .error .internal
      | some unused =>
          if !(← perform (.connect member.tcp)) then return .error .networkOff
          else
            match ← perform (.joinHandler ⟨aKey, aSalt, unused⟩ identity member.tcp) with
            | none => return .error .networkOff
            | some (peer, dSalt) =>
                match (← perform (.derive passwords.data.password dSalt)).result fun _ => .keyDerivationFailed with
                | .error e => return .error e
                | .ok dKey => return .ok ⟨aKey, aSalt, dKey, dSalt, peer, member.tcp⟩

def joinAttempt (member : MemberAddrs) (attempts : Nat) : Proc joining (Except DaemonError Joined × Nat) := do
  match ← perform (.querySalt member.salt) with
  | .error _ => return (.error .networkOff, attempts)
  | .ok aSalt => return (← joinWith passwords identity member aSalt, attempts + 1)

/-- The members found by one search, until one of them lets us in. -/
def tryMembers : List MemberAddrs → Nat → Proc joining (Option (Except DaemonError Unit) × Nat)
  | [], attempts => return (none, attempts)
  | member :: rest, attempts => do
      if joinMaxAttempts ≤ attempts then return (none, attempts)
      else
        match ← joinAttempt passwords identity member attempts with
        | (.ok joined, attempts) => return (some ((← perform (.commit joined identity resets)).getD (.error .internal)), attempts)
        | (.error _, attempts) => tryMembers rest attempts

/-- The loop of `run_join`, for so many searches. -/
def runJoin : Nat → Nat → Proc joining (Option (Except DaemonError Unit))
  | 0, _ => return none
  | searches + 1, attempts => do
      if attempts < joinMaxAttempts then
        match ← tryMembers passwords identity resets (← findMembers) attempts with
        | (some result, _) => return some result
        | (none, attempts) =>
            perform .sleep
            runJoin searches attempts
      else return some (.error .networkOff)

end

/-! ## What a join does -/

def salts (past : List Did) : Nat := past.countP fun
  | ⟨.querySalt _, .ok _⟩ => true
  | _ => false

def handshakes (past : List Did) : Nat := past.countP fun
  | ⟨.joinHandler _ _ _, _⟩ => true
  | _ => false

/-- The runs of Argon2. -/
def derivations (past : List Did) : Nat := past.countP fun
  | ⟨.derive _ _, _⟩ => true
  | _ => false

def Uncommitted (past : List Did) : Prop := ∀ event ∈ past, ∀ joined identity resets, event.op ≠ .commit joined identity resets

section

variable (passwords : Ipc.JoinPasswords) (identity : Identity) (resets : Nat)

def Heard (past : List Did) (member : MemberAddrs) : Prop :=
  ∃ own found hint, ⟨.findBroadcasters own, some found⟩ ∈ past ∧ hint ∈ found ∧ member = .at hint.ip

/-- The last salt that came is this one, and not more than this was done with it since. -/
def Spent (past : List Did) (addr : SocketAddr) (salt : Salt) (h d : Nat) : Prop :=
  ∃ before after, past = before ++ ⟨.querySalt addr, .ok salt⟩ :: after ∧ Join.salts after = 0 ∧
    Join.handshakes after ≤ h ∧ Join.derivations after ≤ d

/-- Where what an operation is given comes from; a salt is good for one handshake, with a
derivation before it and one after it. -/
def Sourced (past : List Did) : Op → Prop
  | .querySalt addr => ∃ member, Heard past member ∧ addr = member.salt
  | .derive password salt =>
      (password = passwords.auth.password ∧ ∃ addr, Spent past addr salt 0 0) ∨
      (password = passwords.data.password ∧ (∃ addr aSalt, Spent past addr aSalt 1 1) ∧
        ∃ keys addr peer, ⟨.joinHandler keys identity addr, some (peer, salt)⟩ ∈ past)
  | .joinHandler keys own addr => own = identity ∧ ∃ member, Heard past member ∧ addr = member.tcp ∧
      Spent past member.salt keys.aSalt 0 1 ∧ ⟨.derive passwords.auth.password keys.aSalt, .ok keys.aKey⟩ ∈ past
  | .commit joined own number => own = identity ∧ number = resets ∧
      (∃ unused, ⟨.joinHandler ⟨joined.aKey, joined.aSalt, unused⟩ identity joined.addr, some (joined.peer, joined.dSalt)⟩ ∈ past) ∧
      ⟨.derive passwords.data.password joined.dSalt, .ok joined.dKey⟩ ∈ past
  | .generateId | .findBroadcasters _ | .randomKey | .connect _ | .sleep => True

def Allowed (past : List Did) (op : Op) : Prop := Uncommitted past ∧ Sourced passwords identity resets past op

structure Bounded (past : List Did) : Prop where
  justified : Justified (Allowed passwords identity resets) past
  salts : Join.salts past ≤ joinMaxAttempts
  handshakes : Join.handshakes past ≤ Join.salts past
  derivations : Join.derivations past ≤ 2 * Join.salts past

structure Stands (past : List Did) (s h d : Nat) : Prop where
  justified : Justified (Allowed passwords identity resets) past
  uncommitted : Uncommitted past
  salts : Join.salts past = s
  handshakes : Join.handshakes past = h
  derivations : Join.derivations past = d

end

variable {passwords : Ipc.JoinPasswords} {identity : Identity} {resets : Nat} {past : List Did} {s h d : Nat}

theorem Stands.bounded (stands : Stands passwords identity resets past s h d) (few : s ≤ joinMaxAttempts) (shook : h ≤ s)
    (derived : d ≤ 2 * s) : Bounded passwords identity resets past := by
  refine ⟨stands.justified, ?_, ?_, ?_⟩
  · rwa [stands.salts]
  · rwa [stands.salts, stands.handshakes]
  · rwa [stands.salts, stands.derivations]

theorem Stands.snoc (stands : Stands passwords identity resets past s h d) {op : Op} (reply : joining.Reply op)
    (sourced : Sourced passwords identity resets past op) (goes : ∀ joined own number, op ≠ .commit joined own number) :
    Stands passwords identity resets (past ++ [⟨op, reply⟩]) (s + Join.salts [⟨op, reply⟩]) (h + Join.handshakes [⟨op, reply⟩])
      (d + Join.derivations [⟨op, reply⟩]) := by
  constructor
  · exact stands.justified.snoc ⟨stands.uncommitted, sourced⟩ reply
  · intro event member
    obtain old | new := List.mem_append.mp member
    · exact stands.uncommitted event old
    · rw [List.mem_singleton.mp new]
      exact goes
  · rw [Join.salts, List.countP_append]
    exact congrArg (· + _) stands.salts
  · rw [Join.handshakes, List.countP_append]
    exact congrArg (· + _) stands.handshakes
  · rw [Join.derivations, List.countP_append]
    exact congrArg (· + _) stands.derivations

theorem Stands.derive (stands : Stands passwords identity resets past s h d) {password : Bytes} {salt : Salt}
    (call : Call Unit (Block 32)) (sourced : Sourced passwords identity resets past (.derive password salt)) :
    Stands passwords identity resets (past ++ [⟨.derive password salt, call⟩]) s h (d + 1) :=
  stands.snoc call sourced fun _ _ _ never => by cases never

theorem Stands.aside (stands : Stands passwords identity resets past s h d) (op : Op) (reply : joining.Reply op) (aside : op.Aside) :
    Stands passwords identity resets (past ++ [⟨op, reply⟩]) s h d := by
  cases op with
  | generateId | findBroadcasters | randomKey | connect | sleep => exact stands.snoc reply trivial fun _ _ _ never => by cases never
  | _ => cases aside

theorem Stands.handshake (stands : Stands passwords identity resets past s h d) (keys : Keys) {own : Identity} {addr : SocketAddr}
    (reply : Option (TrustedPeer × Salt)) (sourced : Sourced passwords identity resets past (.joinHandler keys own addr)) :
    Stands passwords identity resets (past ++ [⟨.joinHandler keys own addr, reply⟩]) s (h + 1) d :=
  stands.snoc reply sourced fun _ _ _ never => by cases never

theorem mem_snoc {event : Did} (member : event ∈ past) (last : Did) : event ∈ past ++ [last] :=
  List.mem_append_left _ member

theorem Heard.snoc {member : MemberAddrs} (heard : Heard past member) (last : Did) : Heard (past ++ [last]) member := by
  obtain ⟨own, found, hint, searched, among, same⟩ := heard
  exact ⟨own, found, hint, mem_snoc searched last, among, same⟩

theorem Heard.onwards {later : List Did} {member : MemberAddrs} (heard : Heard past member) (begins : past <+: later) :
    Heard later member := by
  obtain ⟨own, found, hint, searched, among, same⟩ := heard
  exact ⟨own, found, hint, begins.subset searched, among, same⟩

theorem Spent.fresh (past : List Did) (addr : SocketAddr) (salt : Salt) :
    Spent (past ++ [⟨.querySalt addr, .ok salt⟩]) addr salt 0 0 :=
  ⟨past, [], rfl, rfl, Nat.le_refl 0, Nat.le_refl 0⟩

theorem Spent.snoc {addr : SocketAddr} {salt : Salt} (spent : Spent past addr salt h d) {last : Did}
    (same : Join.salts [last] = 0) :
    Spent (past ++ [last]) addr salt (h + Join.handshakes [last]) (d + Join.derivations [last]) := by
  obtain ⟨before, after, rfl, none, shook, derived⟩ := spent
  refine ⟨before, after ++ [last], by simp, ?_, ?_, ?_⟩
  · exact List.countP_append.trans (congrArg₂ (· + ·) none same)
  · exact List.countP_append.trans_le (Nat.add_le_add_right shook _)
  · exact List.countP_append.trans_le (Nat.add_le_add_right derived _)

theorem Spent.aside {addr : SocketAddr} {salt : Salt} (spent : Spent past addr salt h d) (op : Op) (reply : joining.Reply op)
    (aside : op.Aside) : Spent (past ++ [⟨op, reply⟩]) addr salt h d := by
  cases op with
  | generateId | findBroadcasters | randomKey | connect | sleep => exact spent.snoc rfl
  | _ => cases aside

structure Brought (passwords : Ipc.JoinPasswords) (identity : Identity) (past : List Did) (joined : Joined) : Prop where
  answered : ∃ unused, ⟨.joinHandler ⟨joined.aKey, joined.aSalt, unused⟩ identity joined.addr,
    some (joined.peer, joined.dSalt)⟩ ∈ past
  derived : ⟨.derive passwords.data.password joined.dSalt, .ok joined.dKey⟩ ∈ past

def Ended (passwords : Ipc.JoinPasswords) (identity : Identity) (resets : Nat) (past : List Did)
    (result : Except DaemonError Joined × Nat) : Prop :=
  ∃ h d, Stands passwords identity resets past result.2 h d ∧ result.2 ≤ joinMaxAttempts ∧ h ≤ result.2 ∧ d ≤ 2 * result.2 ∧
    ∀ joined, result.1 = .ok joined → Brought passwords identity past joined

theorem Stands.ended (stands : Stands passwords identity resets past s h d) (few : s ≤ joinMaxAttempts) (shook : h ≤ s)
    (derived : d ≤ 2 * s) {result : Except DaemonError Joined} (brought : ∀ joined, result = .ok joined → Brought passwords identity past joined) :
    Bounded passwords identity resets past ∧ Ended passwords identity resets past (result, s) :=
  ⟨stands.bounded few shook derived, h, d, stands, few, shook, derived, brought⟩

structure Guessed (passwords : Ipc.JoinPasswords) (past : List Did) (member : MemberAddrs) (aSalt : Salt) (aKey : AuthKey) : Prop where
  heard : Heard past member
  spent : Spent past member.salt aSalt 0 1
  derived : ⟨.derive passwords.auth.password aSalt, .ok aKey⟩ ∈ past

theorem Guessed.aside {member : MemberAddrs} {aSalt : Salt} {aKey : AuthKey} (guessed : Guessed passwords past member aSalt aKey)
    (op : Op) (reply : joining.Reply op) (aside : op.Aside) : Guessed passwords (past ++ [⟨op, reply⟩]) member aSalt aKey :=
  ⟨guessed.heard.snoc _, guessed.spent.aside op reply aside, mem_snoc guessed.derived _⟩

theorem mem_last (last : Did) : last ∈ past ++ [last] := List.mem_append_right past (List.mem_singleton_self last)

theorem always_joinWith {member : MemberAddrs} {aSalt : Salt} (stands : Stands passwords identity resets past s h d)
    (few : s ≤ joinMaxAttempts) (shook : h + 1 ≤ s) (derived : d + 2 ≤ 2 * s) (heard : Heard past member)
    (fresh : Spent past member.salt aSalt 0 0) :
    (joinWith passwords identity member aSalt).Always (Bounded passwords identity resets)
      (fun later result => Ended passwords identity resets later (result, s)) past := by
  have failing {e : DaemonError} (later : List Did) : ∀ joined, (.error e : Except DaemonError Joined) = .ok joined →
      Brought passwords identity later joined := fun _ never => by cases never
  refine ⟨stands.bounded few (by omega) (by omega), fun call => ?_⟩
  have stands := stands.derive call (.inl ⟨rfl, member.salt, fresh⟩)
  cases call with
  | lost => exact stands.ended few (by omega) (by omega) (failing _)
  | failed error => exact stands.ended few (by omega) (by omega) (failing _)
  | ok aKey =>
      have guessed : Guessed passwords (past ++ [⟨.derive passwords.auth.password aSalt, .ok aKey⟩]) member aSalt aKey :=
        ⟨heard.snoc _, fresh.snoc rfl, mem_last _⟩
      refine ⟨stands.bounded few (by omega) (by omega), fun unused => ?_⟩
      have stands := stands.aside .randomKey unused trivial
      have guessed := guessed.aside .randomKey unused trivial
      cases unused with
      | none => exact stands.ended few (by omega) (by omega) (failing _)
      | some unused =>
          refine ⟨stands.bounded few (by omega) (by omega), fun connected => ?_⟩
          have stands := stands.aside (.connect member.tcp) connected trivial
          have guessed := guessed.aside (.connect member.tcp) connected trivial
          cases connected with
          | false => exact stands.ended few (by omega) (by omega) (failing _)
          | true =>
              refine ⟨stands.bounded few (by omega) (by omega), fun found => ?_⟩
              have stands := stands.handshake ⟨aKey, aSalt, unused⟩ found
                ⟨rfl, member, guessed.heard, rfl, guessed.spent, guessed.derived⟩
              cases found with
              | none => exact stands.ended few (by omega) (by omega) (failing _)
              | some found =>
                  obtain ⟨peer, dSalt⟩ := found
                  refine ⟨stands.bounded few (by omega) (by omega), fun call => ?_⟩
                  have stands := stands.derive call (.inr ⟨rfl, ⟨_, _, guessed.spent.snoc rfl⟩, _, _, peer, mem_last _⟩)
                  cases call with
                  | lost => exact stands.ended few (by omega) (by omega) (failing _)
                  | failed error => exact stands.ended few (by omega) (by omega) (failing _)
                  | ok dKey =>
                      refine stands.ended few (by omega) (by omega) fun joined same => ?_
                      cases same
                      exact ⟨⟨unused, mem_snoc (mem_last _) _⟩, mem_last _⟩

theorem always_joinAttempt {member : MemberAddrs} (stands : Stands passwords identity resets past s h d)
    (few : s < joinMaxAttempts) (shook : h ≤ s) (derived : d ≤ 2 * s) (heard : Heard past member) :
    (joinAttempt passwords identity member s).Always (Bounded passwords identity resets) (Ended passwords identity resets) past := by
  refine ⟨stands.bounded (by omega) shook derived, fun reply => ?_⟩
  have sourced : Sourced passwords identity resets past (.querySalt member.salt) := ⟨member, heard, rfl⟩
  have next := stands.snoc reply sourced fun _ _ _ never => by cases never
  cases reply with
  | error error =>
      have next : Stands passwords identity resets (past ++ [⟨.querySalt member.salt, .error error⟩]) s h d := next
      exact next.ended (by omega) shook derived fun _ never => by cases never
  | ok aSalt =>
      have next : Stands passwords identity resets (past ++ [⟨.querySalt member.salt, .ok aSalt⟩]) (s + 1) h d := next
      have tried := always_joinWith next few (by omega) (by omega) (heard.snoc _) (.fresh past member.salt aSalt)
      have counted : Proc.Always (Bounded passwords identity resets) (Ended passwords identity resets)
          (joinWith passwords identity member aSalt >>= fun result => .done (result, s + 1)) _ :=
        Proc.Always.bind tried.strengthen fun result later ended => ended
      exact counted

/-- The join was committed, and that is the last that it did. -/
def Committed (passwords : Ipc.JoinPasswords) (identity : Identity) (resets : Nat) (past : List Did)
    (result : Except DaemonError Unit) : Prop :=
  ∃ before joined reply, past = before ++ [⟨.commit joined identity resets, reply⟩] ∧ Uncommitted before ∧
    Brought passwords identity before joined ∧ result = reply.getD (.error .internal)

def Visited (passwords : Ipc.JoinPasswords) (identity : Identity) (resets : Nat) (past : List Did) :
    Option (Except DaemonError Unit) × Nat → Prop
  | (none, attempts) => ∃ h d, Stands passwords identity resets past attempts h d ∧ attempts ≤ joinMaxAttempts ∧ h ≤ attempts ∧
      d ≤ 2 * attempts
  | (some result, _) => Committed passwords identity resets past result

theorem always_commit {joined : Joined} (stands : Stands passwords identity resets past s h d) (few : s ≤ joinMaxAttempts)
    (shook : h ≤ s) (derived : d ≤ 2 * s) (brought : Brought passwords identity past joined) (attempts : Nat) :
    Proc.Always (Bounded passwords identity resets) (Visited passwords identity resets)
      (perform (.commit joined identity resets) >>= fun reply => .done (some (reply.getD (.error .internal)), attempts)) past := by
  refine ⟨stands.bounded few shook derived, fun reply => ⟨?_, past, joined, reply, rfl, stands.uncommitted, brought, rfl⟩⟩
  have same : Join.salts (past ++ [⟨.commit joined identity resets, reply⟩]) = s ∧
      Join.handshakes (past ++ [⟨.commit joined identity resets, reply⟩]) = h ∧
      Join.derivations (past ++ [⟨.commit joined identity resets, reply⟩]) = d := by
    rw [Join.salts, Join.handshakes, Join.derivations, List.countP_append, List.countP_append, List.countP_append]
    exact ⟨stands.salts, stands.handshakes, stands.derivations⟩
  constructor
  · have allowed : Allowed passwords identity resets past (.commit joined identity resets) :=
      ⟨stands.uncommitted, rfl, rfl, brought.answered, brought.derived⟩
    exact stands.justified.snoc allowed reply
  · omega
  · omega
  · omega

theorem always_tryMembers (members : List MemberAddrs) : ∀ {s h d : Nat} {past : List Did},
    Stands passwords identity resets past s h d → s ≤ joinMaxAttempts → h ≤ s → d ≤ 2 * s →
    (∀ member ∈ members, Heard past member) →
    (tryMembers passwords identity resets members s).Always (Bounded passwords identity resets)
      (Visited passwords identity resets) past := by
  induction members with
  | nil => exact fun stands few shook derived _ => ⟨stands.bounded few shook derived, _, _, stands, few, shook, derived⟩
  | cons member rest ih =>
      intro s h d past stands few shook derived heard
      obtain ⟨here, heard⟩ := List.forall_mem_cons.mp heard
      unfold tryMembers
      split
      · exact ⟨stands.bounded few shook derived, _, _, stands, few, shook, derived⟩
      · next more =>
        have tried := always_joinAttempt stands (by omega) shook derived here
        refine Proc.Always.bind (Proc.Always.onwards tried (List.prefix_refl past)) ?_
        rintro ⟨result, attempts⟩ later ⟨begins, h, d, stands, few, shook, derived, brought⟩
        cases result with
        | ok joined => exact always_commit stands few shook derived (brought joined rfl) attempts
        | error e => exact ih stands few shook derived fun member among => (heard member among).onwards begins

theorem always_findMembers (stands : Stands passwords identity resets past s h d) (few : s ≤ joinMaxAttempts)
    (shook : h ≤ s) (derived : d ≤ 2 * s) :
    findMembers.Always (Bounded passwords identity resets)
      (fun later members => Stands passwords identity resets later s h d ∧ ∀ member ∈ members, Heard later member) past := by
  refine ⟨stands.bounded few shook derived, fun own => ?_⟩
  have stands := stands.aside .generateId own trivial
  cases own with
  | none => exact ⟨stands.bounded few shook derived, stands, fun _ never => by cases never⟩
  | some own =>
      refine ⟨stands.bounded few shook derived, fun found => ?_⟩
      have stands := stands.aside (.findBroadcasters own) found trivial
      cases found with
      | none => exact ⟨stands.bounded few shook derived, stands, fun _ never => by cases never⟩
      | some found =>
          refine ⟨stands.bounded few shook derived, stands, fun member among => ?_⟩
          obtain ⟨hint, heard, rfl⟩ := List.mem_map.mp among
          exact ⟨own, found, hint, mem_last _, heard, rfl⟩

def Concluded (passwords : Ipc.JoinPasswords) (identity : Identity) (resets : Nat) (past : List Did) :
    Option (Except DaemonError Unit) → Prop
  | none => Uncommitted past
  | some result => Committed passwords identity resets past result ∨
      Uncommitted past ∧ Join.salts past = joinMaxAttempts ∧ result = .error .networkOff

theorem always_runJoin (searches : Nat) : ∀ {s h d : Nat} {past : List Did},
    Stands passwords identity resets past s h d → s ≤ joinMaxAttempts → h ≤ s → d ≤ 2 * s →
    (runJoin passwords identity resets searches s).Always (Bounded passwords identity resets)
      (Concluded passwords identity resets) past := by
  induction searches with
  | zero => exact fun stands few shook derived => ⟨stands.bounded few shook derived, stands.uncommitted⟩
  | succ searches ih =>
      intro s h d past stands few shook derived
      unfold runJoin
      split
      · refine Proc.Always.bind (always_findMembers stands few shook derived) ?_
        rintro members later ⟨stands, heard⟩
        refine Proc.Always.bind (always_tryMembers members stands few shook derived heard).strengthen ?_
        rintro ⟨result, attempts⟩ later ⟨bounded, visited⟩
        cases result with
        | some result => exact ⟨bounded, .inl visited⟩
        | none =>
            obtain ⟨h, d, stands, few, shook, derived⟩ := visited
            exact ⟨bounded, fun _ => ih (stands.aside .sleep () trivial) few shook derived⟩
      · next all =>
        have five : s = joinMaxAttempts := by omega
        exact ⟨stands.bounded few shook derived, .inr ⟨stands.uncommitted, stands.salts.trans five, rfl⟩⟩

/-- However long a join searches, whoever answers it, and wherever it is cut off: it takes five salts
at most, with one handshake and two key derivations before the next. A password is derived only with the
last salt that a member found by a search has sent, or with one that came over a handshake; a
handshake is made only with a key derived so. A join is committed once at most, with what it has brought, and
does nothing after that; without that it ends by itself only when its attempts are used up. -/
theorem join_tries_bounded {searches : Nat} {rest : Proc joining (Option (Except DaemonError Unit))}
    (leads : (runJoin passwords identity resets searches 0).Leads past rest) :
    Bounded passwords identity resets past ∧
      ∀ result, rest = .done result → Concluded passwords identity resets past result := by
  have start : Stands passwords identity resets [] 0 0 0 := by
    refine ⟨justified_nil, ?_, rfl, rfl, rfl⟩
    intro event never
    cases never
  have always := always_runJoin searches start (by decide) (Nat.le_refl _) (Nat.le_refl _)
  refine ⟨always.begins leads, fun result same => ?_⟩
  subst same
  exact (always.leads leads).2

def welcoming : (op : Op) → joining.Reply op
  | .generateId => some ⟨.replicate 16 1⟩
  | .findBroadcasters _ => some [(.v4 ⟨[192, 168, 1, 52], rfl⟩ 40000, ⟨.replicate 16 2⟩)]
  | .querySalt _ => .ok (.replicate 32 3)
  | .derive _ _ => .ok (.replicate 32 4)
  | .randomKey => some (.replicate 32 5)
  | .connect _ => true
  | .joinHandler _ _ _ => some (⟨.replicate 32 6, .replicate _ 7, "laptop"⟩, .replicate 32 8)
  | .commit _ _ _ => some (.ok ())
  | .sleep => ()

theorem join_tries_bounded_welcomed :
    let program := runJoin ⟨⟨[1]⟩, ⟨[2]⟩⟩ (.replicate identitySeedLen 9) 0 1 0
    ∃ past, program.Leads past (.done (some (.ok ()))) ∧
      Bounded ⟨⟨[1]⟩, ⟨[2]⟩⟩ (.replicate identitySeedLen 9) 0 past ∧
      Concluded ⟨⟨[1]⟩, ⟨[2]⟩⟩ (.replicate identitySeedLen 9) 0 past (some (.ok ())) := by
  intro program
  have leads : program.Leads (program.answered welcoming).1 (.done (some (.ok ()))) := Proc.leads_answered welcoming program
  obtain ⟨bounded, concluded⟩ := join_tries_bounded leads
  exact ⟨_, leads, bounded, concluded _ rfl⟩

end Join

end Daemon

end CesaConn
