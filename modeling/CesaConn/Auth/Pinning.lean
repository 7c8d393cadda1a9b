import CesaConn.Auth.Trust
import Mathlib.Logic.Relation

/-! One list, many handshakes.

A call looks the static key up before the signatures and saves the peer minutes
later, after the users decided. Meanwhile other calls save theirs. The list only
grows, so what it holds of a static key stays; but a save that finds the static
key there does not look at the verification key.
-/

set_option autoImplicit false

namespace CesaConn

open Format Program

namespace Auth

/-! ## Concurrent calls -/

structure Call where
  program : Proc wire (Except AuthSnowErrors (Option Authenticated))
  history : List Moment
  remaining : Proc wire (Except AuthSnowErrors (Option Authenticated))

structure Calls where
  peers : List TrustedPeer
  calls : List Call

def Call.perform (call : Call) (moment : Moment) (remaining : Proc wire (Except AuthSnowErrors (Option Authenticated))) : Call :=
  { call with history := call.history ++ [moment], remaining }

/-- One step of any of the calls. The network and the users answer as they like; the
list answers as it is, and only a save changes it. -/
inductive Step (crypto : Primitives) : Calls → Calls → Prop where
  | start {state : Calls} (role : Role) (name : String) (coins : Coins) (deviceKeypairs : DeviceKeypairs crypto)
      (pairing : Pairing) (call : Call) (fresh : call.history = [])
      (program : call.program = (authenticate crypto role name coins deviceKeypairs pairing).run)
      (whole : call.remaining = call.program) : Step crypto state { state with calls := state.calls ++ [call] }
  | go {state : Calls} {index : Nat} {call : Call} {op : Op}
      {next : wire.Reply op → Proc wire (Except AuthSnowErrors (Option Authenticated))} (reply : wire.Reply op)
      (after : List TrustedPeer) (runs : state.calls[index]? = some call) (waits : call.remaining = .call op next)
      (happens : Moment.happens ⟨⟨op, reply⟩, state.peers, after⟩) :
      Step crypto state ⟨after, state.calls.set index (call.perform ⟨⟨op, reply⟩, state.peers, after⟩ (next reply))⟩
  /-- The task of a connection is dropped. -/
  | drop {state : Calls} (index : Nat) : Step crypto state { state with calls := state.calls.eraseIdx index }

variable {crypto : Primitives}

/-! ## The list only grows -/

theorem lookup_of_grown {peers later : List TrustedPeer} {key : StaticKey} {entry : TrustedPeer}
    (found : lookup peers key = some entry) (grown : peers <+: later) : lookup later key = some entry := by
  obtain ⟨more, rfl⟩ := grown
  rw [lookup, List.find?_append]
  show (lookup peers key).or _ = _
  rw [found, Option.some_or]

theorem Moment.grows {moment : Moment} (happens : moment.happens) : moment.before <+: moment.after := by
  rcases Moment.change happens with same | ⟨peer, _, added⟩
  · rw [same]
  · rw [added]
    exact List.prefix_append _ _

theorem Step.grows {state next : Calls} (step : Step crypto state next) : state.peers <+: next.peers := by
  cases step with
  | start => exact List.prefix_refl _
  | go reply after runs waits happens => exact Moment.grows happens
  | drop => exact List.prefix_refl _

theorem run_grows {state later : Calls} (run : Relation.ReflTransGen (Step crypto) state later) :
    state.peers <+: later.peers := by
  induction run with
  | refl => exact List.prefix_refl _
  | tail _ step ih => exact ih.trans step.grows

/-! ## What a call has done is a run of its program -/

structure Call.Sound (crypto : Primitives) (peers : List TrustedPeer) (call : Call) : Prop where
  authenticates : ∃ role name coins deviceKeypairs pairing,
    call.program = (authenticate crypto role name coins deviceKeypairs pairing).run
  soFar : ∀ rest result, call.remaining.Traces rest result →
    call.program.Traces (call.history.map Moment.event ++ rest) result
  happened : ∀ moment ∈ call.history, moment.happens
  grown : ∀ moment ∈ call.history, moment.after <+: peers

theorem Call.Sound.later {peers later : List TrustedPeer} {call : Call} (sound : call.Sound crypto peers)
    (grown : peers <+: later) : call.Sound crypto later :=
  { sound with grown := fun moment member => (sound.grown moment member).trans grown }

theorem Call.Sound.perform {peers after : List TrustedPeer} {call : Call} (sound : call.Sound crypto peers) {op : Op}
    {next : wire.Reply op → Proc wire (Except AuthSnowErrors (Option Authenticated))} {reply : wire.Reply op}
    (waits : call.remaining = .call op next) (happens : Moment.happens ⟨⟨op, reply⟩, peers, after⟩) :
    (call.perform ⟨⟨op, reply⟩, peers, after⟩ (next reply)).Sound crypto after where
  authenticates := sound.authenticates
  soFar := by
    intro rest result traced
    have before : call.remaining.Traces (⟨op, reply⟩ :: rest) result := by
      rw [waits]
      exact ⟨reply, rest, rfl, traced⟩
    have whole := sound.soFar _ _ before
    simpa only [Call.perform, List.map_append, List.map_cons, List.map_nil, List.append_assoc,
      List.singleton_append] using whole
  happened := by
    intro moment member
    rcases List.mem_append.mp member with old | new
    · exact sound.happened moment old
    · rw [List.mem_singleton.mp new]
      exact happens
  grown := by
    intro moment member
    rcases List.mem_append.mp member with old | new
    · exact (sound.grown moment old).trans (Moment.grows happens)
    · rw [List.mem_singleton.mp new]

theorem sound_step {state next : Calls} (step : Step crypto state next)
    (sound : ∀ call ∈ state.calls, call.Sound crypto state.peers) : ∀ call ∈ next.calls, call.Sound crypto next.peers := by
  cases step with
  | start role name coins deviceKeypairs pairing call fresh program whole =>
      intro other member
      rcases List.mem_append.mp member with old | new
      · exact sound other old
      · rw [List.mem_singleton.mp new]
        refine ⟨⟨role, name, coins, deviceKeypairs, pairing, program⟩, ?_, by simp [fresh], by simp [fresh]⟩
        intro rest result traced
        rw [whole] at traced
        simpa [fresh] using traced
  | go reply after runs waits happens =>
      intro other member
      rcases List.mem_or_eq_of_mem_set member with old | new
      · exact (sound other old).later (Moment.grows happens)
      · rw [new]
        exact (sound _ (List.mem_of_getElem? runs)).perform waits happens
  | drop index =>
      intro other member
      exact sound other (List.mem_of_mem_eraseIdx member)

theorem sound_run {peers : List TrustedPeer} {state : Calls} (run : Relation.ReflTransGen (Step crypto) ⟨peers, []⟩ state) :
    ∀ call ∈ state.calls, call.Sound crypto state.peers := by
  induction run with
  | refl =>
      intro call member
      cases member
  | tail _ step ih => exact sound_step step ih

/-! ## The save is the last thing a pairing does -/

section Pairs

variable {role : Role} {name : String} {coins : Coins} {deviceKeypairs : DeviceKeypairs crypto} {pairing : Pairing}

def Unsaved (events : List (Event wire)) : Prop := ∀ event ∈ events, ∀ peer, event.op ≠ .savePeer peer

theorem saved_of_paired_finish {identified : Option (Except AuthSnowErrors (Option Identified))} {peer : TrustedPeer}
    {events : List (Event wire)} (yields : Attempt.Yields (finishAuth crypto identified role name pairing) events (some ⟨peer, true⟩)) :
    ∃ first, events = first ++ [⟨.savePeer peer, Except.ok ()⟩, ⟨.notifySaved, ()⟩] ∧ Unsaved first := by
  match identified with
  | none => simp [finishAuth] at yields
  | some (.error error) => simp [finishAuth] at yields
  | some (.ok none) => simp [finishAuth] at yields
  | some (.ok (some ⟨other, hash, true⟩)) => simp [finishAuth] at yields
  | some (.ok (some ⟨other, hash, false⟩)) =>
      simp only [finishAuth, Bool.false_eq_true, if_false, Attempt.yields_bind, Attempt.yields_pure,
        Attempt.yields_ensure, savePeer, Option.some.injEq] at yields
      obtain ⟨_, _, later, rfl, read, _, _, _, rfl, ⟨rfl, -⟩, asked, _, _, rfl, confirm, _, _, _, rfl,
        ⟨_, _, saved, rfl, save, rfl, stored⟩, _, _, _, rfl, notify, rfl, same⟩ := yields
      obtain rfl := (Attempt.yields_perform (I := wire) .readPeers _ _).mp read
      obtain rfl := (Attempt.yields_perform (I := wire) (.savePeer other) _ _).mp save
      obtain rfl := (Attempt.yields_perform (I := wire) .notifySaved _ _).mp notify
      cases same
      cases stored
      refine ⟨⟨.readPeers, later⟩ :: asked, by simp, ?_⟩
      intro event member peer
      rcases List.mem_cons.mp member with rfl | asking
      · simp
      · exact confirm.all (keeps_confirmPairing hash) event asking peer

theorem saved_of_paired {peer : TrustedPeer} {events : List (Event wire)}
    (yields : Attempt.Yields (authenticate crypto role name coins deviceKeypairs pairing) events (some ⟨peer, true⟩)) :
    ∃ first, events = first ++ [⟨.savePeer peer, Except.ok ()⟩, ⟨.notifySaved, ()⟩] ∧ Unsaved first := by
  rw [authenticate, Attempt.yields_bind] at yields
  obtain ⟨_, _, ⟨aKey, aSalt⟩, rfl, keys, yields⟩ := yields
  obtain rfl := (Attempt.yields_perform (I := wire) .readKeys _ _).mp keys
  rw [Attempt.yields_bind] at yields
  obtain ⟨shaken, _, identified, rfl, limited, finish⟩ := yields
  obtain ⟨first, rfl, unsaved⟩ := saved_of_paired_finish finish
  have shakes : Proc.All (fun op : Op => ∀ peer, op ≠ .savePeer peer)
      ((handshake crypto role name coins aKey aSalt deviceKeypairs).run.limited (I := wire) .deadline id) :=
    Proc.all_limited (keeps_handshake aKey aSalt) (by simp)
  refine ⟨⟨.readKeys, (aKey, aSalt)⟩ :: (shaken ++ first), by simp, ?_⟩
  intro event member peer
  rcases List.mem_cons.mp member with rfl | rest
  · simp
  · rcases List.mem_append.mp rest with shaking | finishing
    · exact ((Attempt.yields_lift _ _ _).mp limited).all shakes event shaking peer
    · exact unsaved event finishing peer

end Pairs

/-! ## Pinned keys -/

def Pinned (peers : List TrustedPeer) (peer : TrustedPeer) : Prop :=
  ∃ entry, lookup peers peer.x25519PubKey = some entry ∧ entry.mldsaVerificationKey = peer.mldsaVerificationKey

/-- No save of the call finds its static key in the list with another verification key. -/
def Call.SavesPinned (call : Call) : Prop :=
  ∀ moment ∈ call.history, ∀ peer reply, moment.event = ⟨.savePeer peer, reply⟩ →
    ∀ entry, lookup moment.before peer.x25519PubKey = some entry → entry.mldsaVerificationKey = peer.mldsaVerificationKey

theorem knows_eq_isSome (peers : List TrustedPeer) (key : StaticKey) : knows peers key = (lookup peers key).isSome := by
  rw [lookup, List.isSome_find?]
  rfl

/-- A save succeeds when the static key is there, whatever its verification key. -/
theorem reply_of_known {peer entry : TrustedPeer} {reply : Except AuthSnowErrors Unit} {before after : List TrustedPeer}
    (happens : Moment.happens ⟨⟨.savePeer peer, reply⟩, before, after⟩)
    (known : lookup before peer.x25519PubKey = some entry) : reply = .ok () := by
  have saves : (reply, after) = CesaConn.savePeer before peer := of_decide_eq_true happens
  have there : knows before peer.x25519PubKey = true := by rw [knows_eq_isSome, known, Option.isSome_some]
  rw [CesaConn.savePeer, if_pos there] at saves
  exact congrArg Prod.fst saves

theorem lookup_of_saved {peer : TrustedPeer} {before after : List TrustedPeer}
    (happens : Moment.happens ⟨⟨.savePeer peer, Except.ok ()⟩, before, after⟩) :
    lookup after peer.x25519PubKey = some ((lookup before peer.x25519PubKey).getD peer) := by
  have saves : (Except.ok (), after) = CesaConn.savePeer before peer := of_decide_eq_true happens
  unfold CesaConn.savePeer at saves
  cases found : lookup before peer.x25519PubKey with
  | some entry =>
      have there : knows before peer.x25519PubKey = true := by rw [knows_eq_isSome, found, Option.isSome_some]
      rw [if_pos there] at saves
      have same : after = before := congrArg Prod.snd saves
      rw [same]
      exact found
  | none =>
      have absent : ¬ knows before peer.x25519PubKey = true := by simp [knows_eq_isSome, found]
      rw [if_neg absent] at saves
      split at saves
      · cases congrArg Prod.fst saves
      · have added : after = before ++ [peer] := congrArg Prod.snd saves
        have own : List.find? (fun device => decide (device.x25519PubKey = peer.x25519PubKey)) [peer] = some peer := by simp
        rw [added, lookup, List.find?_append]
        show (lookup before peer.x25519PubKey).or _ = _
        rw [found, own]
        rfl

theorem mem_lists {known : List TrustedPeer} {history : List Moment}
    (listed : known ∈ (account (history.map Moment.event)).lists) : ∃ moment ∈ history, moment.event = ⟨.readPeers, known⟩ := by
  obtain ⟨event, member, found⟩ := List.mem_filterMap.mp listed
  obtain ⟨moment, within, rfl⟩ := List.mem_map.mp member
  refine ⟨moment, within, ?_⟩
  unfold Event.list at found
  split at found
  · next same =>
    cases found
    exact same
  · cases found

theorem pinned_of_known {peers : List TrustedPeer} {call : Call} (sound : call.Sound crypto peers) {peer : TrustedPeer}
    (returned : call.remaining = .done (.ok (some ⟨peer, false⟩))) : Pinned peers peer := by
  obtain ⟨role, name, coins, deviceKeypairs, pairing, program⟩ := sound.authenticates
  have traced := sound.soFar [] _ (by rw [returned]; exact ⟨rfl, rfl⟩)
  rw [List.append_nil, program] at traced
  obtain ⟨identified, known, theirs, signature, shown, same, rest, accounted, _⟩ := account_authenticate traced
  obtain ⟨rfl, both⟩ := Authenticated.mk.inj same
  -- it is not newly paired, so we had it in the list we read
  have stored : (lookup known identified.peer.x25519PubKey).isSome = true :=
    (Bool.and_eq_true_iff.mp (shown.both.symm.trans (Bool.not_eq_eq_eq_not.mp both.symm))).1
  obtain ⟨entry, found⟩ := Option.isSome_iff_exists.mp stored
  have listed : known ∈ (account (call.history.map Moment.event)).lists := by
    rw [accounted]
    exact List.mem_append_left _ (List.mem_singleton.mpr rfl)
  obtain ⟨moment, member, read⟩ := mem_lists listed
  have happens := sound.happened moment member
  have grown := (Moment.grows happens).trans (sound.grown moment member)
  obtain ⟨event, before, after⟩ := moment
  subst read
  have same : known = before := of_decide_eq_true (Bool.and_eq_true_iff.mp happens).1
  subst same
  exact ⟨entry, lookup_of_grown found grown, shown.stored entry found⟩

theorem pinned_of_paired_iff {peers : List TrustedPeer} {call : Call} (sound : call.Sound crypto peers) {peer : TrustedPeer}
    (returned : call.remaining = .done (.ok (some ⟨peer, true⟩))) : Pinned peers peer ↔ call.SavesPinned := by
  obtain ⟨role, name, coins, deviceKeypairs, pairing, program⟩ := sound.authenticates
  have traced := sound.soFar [] _ (by rw [returned]; exact ⟨rfl, rfl⟩)
  rw [List.append_nil, program] at traced
  obtain ⟨first, events, _⟩ := saved_of_paired traced
  have saved : ⟨.savePeer peer, Except.ok ()⟩ ∈ call.history.map Moment.event := by
    rw [events]
    simp
  obtain ⟨moment, member, event⟩ := List.mem_map.mp saved
  have happens := sound.happened moment member
  have grown := sound.grown moment member
  obtain ⟨_, before, after⟩ := moment
  subst event
  -- from the save on, the list holds this entry
  have now : lookup peers peer.x25519PubKey = some ((lookup before peer.x25519PubKey).getD peer) :=
    lookup_of_grown (lookup_of_saved happens) grown
  constructor
  · intro pinned moment own other reply saves entry found
    obtain ⟨held, holds, key⟩ := pinned
    have happened := sound.happened moment own
    have later := (Moment.grows happened).trans (sound.grown moment own)
    obtain ⟨event, _, _⟩ := moment
    subst saves
    cases reply_of_known happened found
    -- a call saves but one peer, the one it returns
    cases paired_of_saved traced (List.mem_map_of_mem own)
    have same : held = entry := Option.some.inj (holds.symm.trans (lookup_of_grown found later))
    rw [← same]
    exact key
  · intro pinned
    refine ⟨_, now, ?_⟩
    cases found : lookup before peer.x25519PubKey with
    | none => rfl
    | some entry => exact pinned _ member peer _ rfl entry found

/-- In every run of calls that share one list: what the list holds of a static key
never changes, and the device that a call returns has the verification key of the
list exactly when no save of that call found its static key there with another one. -/
theorem identity_pinned_iff (crypto : Primitives) (peers : List TrustedPeer) (state : Calls)
    (run : Relation.ReflTransGen (Step crypto) ⟨peers, []⟩ state) :
    (∀ later, Relation.ReflTransGen (Step crypto) state later → ∀ key entry,
      lookup state.peers key = some entry → lookup later.peers key = some entry) ∧
    ∀ call ∈ state.calls, ∀ authenticated, call.remaining = .done (.ok (some authenticated)) →
      (Pinned state.peers authenticated.peer ↔ call.SavesPinned) := by
  constructor
  · intro later on key entry found
    exact lookup_of_grown found (run_grows on)
  · intro call member authenticated returned
    have sound := sound_run run call member
    obtain ⟨peer, newlyPaired⟩ := authenticated
    cases newlyPaired with
    | true => exact pinned_of_paired_iff sound returned
    | false =>
        have pinned := pinned_of_known sound returned
        refine ⟨fun _ => ?_, fun _ => pinned⟩
        intro moment own other reply saves entry found
        have happened := sound.happened moment own
        have traced := sound.soFar [] _ (by rw [returned]; exact ⟨rfl, rfl⟩)
        obtain ⟨role, name, coins, deviceKeypairs, pairing, program⟩ := sound.authenticates
        rw [List.append_nil, program] at traced
        obtain ⟨event, before, after⟩ := moment
        subst saves
        cases reply_of_known happened found
        -- it would have returned the device as newly paired
        cases paired_of_saved traced (List.mem_map_of_mem own)

/-! ## Two guests with one static key -/

theorem go_of_leads {peers after : List TrustedPeer} {calls : List Call} {index : Nat} {call : Call} {event : Event wire}
    {last : Proc wire (Except AuthSnowErrors (Option Authenticated))} (runs : calls[index]? = some call)
    (leads : call.remaining.Leads [event] last) (happens : Moment.happens ⟨event, peers, after⟩) :
    ∃ call', Step crypto ⟨peers, calls⟩ ⟨after, calls.set index call'⟩ ∧ call'.remaining = last := by
  obtain ⟨next, waits, later⟩ := leads.of_cons
  exact ⟨_, .go event.reply after runs waits happens, later.of_nil⟩

theorem run_of_leads {peers : List TrustedPeer} {events : List (Event wire)}
    {last : Proc wire (Except AuthSnowErrors (Option Authenticated))}
    (happens : ∀ event ∈ events, Moment.happens ⟨event, peers, peers⟩) {calls : List Call} {index : Nat} {call : Call}
    (runs : calls[index]? = some call) (leads : call.remaining.Leads events last) :
    ∃ call', Relation.ReflTransGen (Step crypto) ⟨peers, calls⟩ ⟨peers, calls.set index call'⟩ ∧ call'.remaining = last := by
  induction events generalizing calls call with
  | nil =>
      obtain ⟨bound, here⟩ := List.getElem?_eq_some_iff.mp runs
      refine ⟨call, ?_, leads.of_nil⟩
      rw [← here, List.set_getElem_self]
  | cons event events ih =>
      have first := happens event List.mem_cons_self
      obtain ⟨next, waits, later⟩ := leads.of_cons
      have step : Step crypto ⟨peers, calls⟩ ⟨peers, calls.set index (call.perform ⟨event, peers, peers⟩ (next event.reply))⟩ :=
        .go event.reply peers runs waits first
      have bound : index < calls.length := (List.getElem?_eq_some_iff.mp runs).1
      have runs' : (calls.set index (call.perform ⟨event, peers, peers⟩ (next event.reply)))[index]? =
          some (call.perform ⟨event, peers, peers⟩ (next event.reply)) := by simp [bound]
      obtain ⟨call', run, ends⟩ := ih (fun event member => happens event (List.mem_cons_of_mem _ member)) runs' later
      rw [List.set_set] at run
      exact ⟨call', .head step run, ends⟩

def guestCall : Call :=
  ⟨(authIncoming .plain "visitor" (coinsOf 2) visitKeypairs .channel).run, [],
    (authIncoming .plain "visitor" (coinsOf 2) visitKeypairs .channel).run⟩

theorem guest_starts (peers : List TrustedPeer) (calls : List Call) :
    Step .plain ⟨peers, calls⟩ ⟨peers, calls ++ [guestCall]⟩ :=
  .start .server "visitor" (coinsOf 2) visitKeypairs .channel guestCall rfl rfl rfl

theorem guest_leads (key : VerificationKey) : ∃ first asked saved,
    guestCall.remaining.Leads first asked ∧ (∀ event ∈ first, Moment.happens ⟨event, [], []⟩) ∧
    asked.Leads [⟨.savePeer (guest key), Except.ok ()⟩] saved ∧
    saved.Leads [⟨.notifySaved, ()⟩] (.done (.ok (some ⟨guest key, true⟩))) := by
  have traced := Attempt.traces_returns (I := wire) (receives key [])
    (authIncoming .plain "visitor" (coinsOf 2) visitKeypairs .channel)
  rw [guest_paired] at traced
  obtain ⟨first, events, unsaved⟩ := saved_of_paired traced
  rw [events] at traced
  obtain ⟨asked, leads, traced⟩ := traced.leads
  rw [← List.singleton_append] at traced
  obtain ⟨saved, saves, traced⟩ := traced.leads
  rw [← List.append_nil [_]] at traced
  obtain ⟨ended, ends, traced⟩ := traced.leads
  refine ⟨first, asked, saved, leads, ?_, saves, ?_⟩
  · intro event member
    have listed : event ∈ ((authIncoming .plain "visitor" (coinsOf 2) visitKeypairs .channel).run.answered
        (receives key [])).1 := by
      rw [events]
      exact List.mem_append_left _ member
    have answers := Proc.reply_of_answered (I := wire) (receives key []) _ event listed
    have other := unsaved event member
    obtain ⟨op, reply⟩ := event
    cases op with
    | savePeer peer => exact absurd rfl (other peer)
    | readPeers => simp [Moment.happens, show reply = [] from answers]
    | trySend pairing _ _ =>
        have queued : reply = pairing.inbox := answers
        cases inbox : pairing.inbox <;> simp [Moment.happens, queued, inbox]
    | _ => rfl
  · cases ended with
    | done value =>
        rw [← traced.2]
        exact ends
    | call op next =>
        obtain ⟨_, _, none, _⟩ := traced
        cases none

theorem happens_first (peer : TrustedPeer) : Moment.happens ⟨⟨.savePeer peer, Except.ok ()⟩, [], [peer]⟩ := by
  simp [Moment.happens, CesaConn.savePeer, knows, maxTrustedPeers]

theorem happens_told (peers : List TrustedPeer) : Moment.happens ⟨⟨.notifySaved, ()⟩, peers, peers⟩ := by
  simp [Moment.happens]

/-- Two guests with one static key are asked about at the same time. The first to be
saved is the one in the list, but the other is returned as well. -/
theorem identity_swapped : ¬ ∀ (crypto : Primitives) (peers : List TrustedPeer) (state : Calls),
    Relation.ReflTransGen (Step crypto) ⟨peers, []⟩ state → ∀ call ∈ state.calls, ∀ authenticated,
      call.remaining = .done (.ok (some authenticated)) → Pinned state.peers authenticated.peer := by
  intro pins
  obtain ⟨first, asked, saved, leads, happens, saves, _⟩ := guest_leads (.replicate mldsa87VkLen 6)
  obtain ⟨first', asked', saved', leads', happens', saves', ends'⟩ := guest_leads (.replicate mldsa87VkLen 9)
  have kept : Moment.happens ⟨⟨.savePeer (guest (.replicate mldsa87VkLen 9)), Except.ok ()⟩,
      [guest (.replicate mldsa87VkLen 6)], [guest (.replicate mldsa87VkLen 6)]⟩ := by
    simp [Moment.happens, CesaConn.savePeer, knows, guest]
  have starts : Relation.ReflTransGen (Step .plain) ⟨[], []⟩ ⟨[], [guestCall, guestCall]⟩ :=
    .head (guest_starts [] []) (.single (guest_starts [] [guestCall]))
  obtain ⟨one, run, here⟩ := run_of_leads happens (show [guestCall, guestCall][0]? = some guestCall from rfl) leads
  obtain ⟨two, run', here'⟩ := run_of_leads happens' (show [one, guestCall][1]? = some guestCall from rfl) leads'
  rw [← here] at saves
  obtain ⟨one', step, _⟩ := go_of_leads (show [one, two][0]? = some one from rfl) saves (happens_first _)
  rw [← here'] at saves'
  obtain ⟨two', step', here'⟩ := go_of_leads (show [one', two][1]? = some two from rfl) saves' kept
  rw [← here'] at ends'
  obtain ⟨two'', step'', returned⟩ := go_of_leads (show [one', two'][1]? = some two' from rfl) ends' (happens_told _)
  have whole := (((((starts.trans run).trans run').tail step).tail step').tail step'')
  obtain ⟨entry, found, same⟩ := pins .plain [] _ whole two'' (by simp) _ returned
  have held : lookup [guest (.replicate mldsa87VkLen 6)] visitor.x25519PubKey =
      some (guest (.replicate mldsa87VkLen 6)) := by simp [lookup, guest]
  cases Option.some.inj (held.symm.trans found)
  have heads := congrArg (fun key : VerificationKey => key.toList.head?) same
  revert heads
  decide

theorem identity_pinned_iff_guest : ∃ state call, Relation.ReflTransGen (Step .plain) ⟨[], []⟩ state ∧ call ∈ state.calls ∧
    call.remaining = .done (.ok (some ⟨guest (.replicate mldsa87VkLen 6), true⟩)) ∧
    (Pinned state.peers (guest (.replicate mldsa87VkLen 6)) ↔ call.SavesPinned) := by
  obtain ⟨first, asked, saved, leads, happens, saves, ends⟩ := guest_leads (.replicate mldsa87VkLen 6)
  obtain ⟨one, run, here⟩ := run_of_leads happens (show [guestCall][0]? = some guestCall from rfl) leads
  rw [← here] at saves
  obtain ⟨one', step, here'⟩ := go_of_leads (show [one][0]? = some one from rfl) saves (happens_first _)
  rw [← here'] at ends
  obtain ⟨one'', step', returned⟩ := go_of_leads (show [one'][0]? = some one' from rfl) ends (happens_told _)
  have whole : Relation.ReflTransGen (Step .plain) ⟨[], []⟩ _ :=
    (((Relation.ReflTransGen.single (guest_starts [] [])).trans run).tail step).tail step'
  have member : one'' ∈ ([one'].set 0 one'') := by simp
  exact ⟨_, one'', whole, member, returned, (identity_pinned_iff .plain [] _ whole).2 one'' member _ returned⟩

end Auth

end CesaConn
