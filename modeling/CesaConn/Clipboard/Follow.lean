import CesaConn.Clipboard.Task

/-! What one device copies, as another one gets it.

Connections may deliver the updates of a device in any order, more than once or never.
What is put on the other clipboard of them is still in the order in which they were
sent, each of them once at most, and nothing else is.
-/

set_option autoImplicit false

namespace CesaConn

open Format Program

namespace Clipboard

inductive Turns : ClipTask → List (List Did) → ClipTask → Prop where
  | done (task : ClipTask) : Turns task [] task
  | turn {task next last : ClipTask} {events : List Did} {rest : List (List Did)} :
      (turn task).Traces events (some next) → Turns next rest last → Turns task (events :: rest) last

def sent (events : List Did) : List Bytes := events.filterMap fun
  | ⟨.sendRound payload, _⟩ => some payload
  | _ => none

def deliveries (events : List Did) : List ClipDelivery := events.filterMap fun
  | ⟨.select, .inbox delivery⟩ => delivery
  | _ => none

def texts (events : List Did) : List String := events.filterMap fun
  | ⟨.writeText text, _⟩ => some text
  | _ => none

def messages (events : List Did) : List ClipMessage := (sent events).filterMap decode

def ClipMessage.update (message : ClipMessage) (peer : StaticKey) : Update := ⟨peer, message.epoch, message.seq⟩

/-- The update that a turn considers, with the switch on. -/
def considered : List Did → List (StaticKey × ClipMessage)
  | ⟨.select, .inbox (some delivery)⟩ :: ⟨.clipboardOn, true⟩ :: _ =>
      (decode delivery.payload).toList.map fun message => (delivery.peer, message)
  | _ => []

/-- The update that a turn puts on the clipboard, if the system lets it. -/
def applied : List Did → List (StaticKey × ClipMessage)
  | ⟨.select, .inbox (some delivery)⟩ :: ⟨.clipboardOn, _⟩ :: ⟨.writeText _, _⟩ :: _ =>
      (decode delivery.payload).toList.map fun message => (delivery.peer, message)
  | _ => []

def updateOf (entry : StaticKey × ClipMessage) : Update := entry.2.update entry.1

/-! ## The device that sends -/

variable {task next last : ClipTask} {events : List Did} {turns : List (List Did)}

structure Sends (task next : ClipTask) (events : List Did) (message : ClipMessage) : Prop where
  read : ⟨.readText clipMaxLen, some (ClipRead.text message.text)⟩ ∈ events
  on : ⟨.clipboardOn, true⟩ ∈ events
  epoch : message.epoch = task.epoch
  seq : task.seq ≤ message.seq ∧ message.seq ≤ next.seq

theorem sends_of_turned (turned : Turned task events (some next)) : task.seq ≤ next.seq ∧ next.epoch = task.epoch ∧
    (messages events = [] ∨ ∃ message, messages events = [message] ∧ Sends task next events message) := by
  cases turned with
  | ignored => exact ⟨UInt64.le_refl _, rfl, .inl rfl⟩
  | taken => exact ⟨UInt64.le_refl _, rfl, .inl rfl⟩
  | unread => exact ⟨UInt64.le_refl _, rfl, .inl rfl⟩
  | waits => exact ⟨UInt64.le_refl _, rfl, .inl rfl⟩
  | skips on count busy read seq tick seq_le => exact ⟨seq_le, rfl, .inl rfl⟩
  | sends on count busy text payload tick encoded =>
      have decoded : decode payload = some ⟨task.epoch, saturatingSucc task.seq, text⟩ := decode_eq_some.mpr encoded
      have switched : on = true := by
        unfold ClipWatch.tick at tick
        split at tick
        · cases tick
        · split at tick
          · cases tick
          · next off => simpa using off
      subst switched
      refine ⟨le_saturatingSucc _, rfl, .inr ⟨⟨task.epoch, saturatingSucc task.seq, text⟩, ?_, ?_⟩⟩
      · show [payload].filterMap decode = _
        rw [List.filterMap_cons_some decoded, List.filterMap_nil]
      · exact ⟨by simp, by simp, rfl, le_saturatingSucc _, UInt64.le_refl _⟩

theorem ordered_messages (run : Turns task turns last) :
    (turns.flatMap messages).Pairwise (fun first second => first.seq ≤ second.seq) ∧
      ∀ message ∈ turns.flatMap messages, message.epoch = task.epoch ∧ task.seq ≤ message.seq := by
  induction run with
  | done task => exact ⟨.nil, fun _ member => by cases member⟩
  | @turn task next last events rest traced _ ih =>
      obtain ⟨grows, epoch, sends⟩ := sends_of_turned (turned_of_traces traced)
      obtain ⟨ordered, later⟩ := ih
      have onwards : ∀ message ∈ rest.flatMap messages, message.epoch = task.epoch ∧ task.seq ≤ message.seq := by
        intro message member
        obtain ⟨same, above⟩ := later message member
        exact ⟨same.trans epoch, UInt64.le_trans grows above⟩
      rw [List.flatMap_cons]
      obtain none | ⟨first, one, sends⟩ := sends
      · rw [none]
        exact ⟨ordered, onwards⟩
      · rw [one, List.singleton_append]
        constructor
        · exact .cons (fun message member => UInt64.le_trans sends.seq.2 (later message member).2) ordered
        · intro message member
          obtain rfl | member := List.mem_cons.mp member
          · exact ⟨sends.epoch, sends.seq.1⟩
          · exact onwards message member

theorem read_of_messages (run : Turns task turns last) : ∀ message ∈ turns.flatMap messages, ∃ events ∈ turns,
    ⟨.readText clipMaxLen, some (ClipRead.text message.text)⟩ ∈ events ∧ ⟨.clipboardOn, true⟩ ∈ events := by
  induction run with
  | done task => exact fun _ member => by cases member
  | @turn task next last events rest traced _ ih =>
      intro message member
      rw [List.flatMap_cons] at member
      obtain here | later := List.mem_append.mp member
      · obtain none | ⟨one, same, sends⟩ := (sends_of_turned (turned_of_traces traced)).2.2
        · rw [none] at here
          cases here
        · rw [same, List.mem_singleton] at here
          rw [here]
          exact ⟨events, List.mem_cons_self, sends.read, sends.on⟩
      · obtain ⟨turn, among, did⟩ := ih message later
        exact ⟨turn, List.mem_cons_of_mem _ among, did⟩

/-! ## The device that receives -/

theorem applied_eq_taken (run : Turns task turns last) :
    (turns.flatMap applied).map updateOf = taken task.ordering ((turns.flatMap considered).map updateOf) := by
  induction run with
  | done task => rfl
  | @turn task next last events rest traced _ ih =>
      rw [List.flatMap_cons, List.flatMap_cons, List.map_append, List.map_append, ih]
      have turned := turned_of_traces traced
      cases turned with
      | ignored delivery on refused =>
          cases on with
          | false => rfl
          | true =>
              show taken task.ordering _ =
                taken task.ordering (((decode delivery.payload).toList.map fun message => (delivery.peer, message)).map updateOf ++ _)
              cases decoded : decode delivery.payload with
              | none => rfl
              | some message =>
                  have old := refused rfl message decoded
                  simp only [Option.toList_some, List.map_cons, List.map_nil, List.singleton_append, taken, updateOf,
                    ClipMessage.update, old]
      | taken delivery message ordering written decoded newer =>
          show ((decode delivery.payload).toList.map fun message => (delivery.peer, message)).map updateOf ++ taken ordering _ =
            taken task.ordering (((decode delivery.payload).toList.map fun message => (delivery.peer, message)).map updateOf ++ _)
          simp only [decoded, Option.toList_some, List.map_cons, List.map_nil, List.singleton_append, taken, updateOf,
            ClipMessage.update, newer]
      | _ => rfl

structure Receives (events : List Did) : Prop where
  texts : texts events = (applied events).map fun entry => entry.2.text
  applied : ∀ entry ∈ applied events, entry ∈ considered events
  delivered : ∀ entry ∈ considered events,
    ∃ delivery ∈ deliveries events, delivery.peer = entry.1 ∧ decode delivery.payload = some entry.2

theorem receives_of_turned (turned : Turned task events (some next)) : Receives events := by
  have heard {delivery : ClipDelivery} {entry : StaticKey × ClipMessage}
      (member : entry ∈ (decode delivery.payload).toList.map fun message => (delivery.peer, message)) :
      delivery.peer = entry.1 ∧ decode delivery.payload = some entry.2 := by
    obtain ⟨message, decoded, rfl⟩ := List.mem_map.mp member
    exact ⟨rfl, Option.mem_toList.mp decoded⟩
  cases turned with
  | ignored delivery on refused =>
      refine ⟨rfl, fun _ never => (by cases never), fun entry member => ?_⟩
      cases on with
      | false => cases member
      | true => exact ⟨delivery, List.mem_singleton_self _, heard member⟩
  | taken delivery message ordering written decoded newer =>
      refine ⟨?_, fun entry member => member, fun entry member => ⟨delivery, List.mem_singleton_self _, heard member⟩⟩
      show [message.text] = ((decode delivery.payload).toList.map fun message => (delivery.peer, message)).map _
      rw [decoded]
      rfl
  | _ => exact ⟨rfl, fun _ never => (by cases never), fun _ never => (by cases never)⟩

theorem receives_of_turns (run : Turns task turns last) : ∀ events ∈ turns, Receives events := by
  induction run with
  | done task => exact fun _ member => by cases member
  | turn traced _ ih =>
      intro events member
      obtain rfl | later := List.mem_cons.mp member
      · exact receives_of_turned (turned_of_traces traced)
      · exact ih events later

/-! ## From one to the other -/

/-- Numbers that grow, found among numbers that do not go down, are in the same order. -/
theorem sublist_of_ordered {A : Type} (key : A → Nat) {first second : List A}
    (growing : first.Pairwise fun a b => key a < key b) (ordered : second.Pairwise fun a b => key a ≤ key b)
    (among : ∀ a ∈ first, a ∈ second) : first.Sublist second := by
  induction second generalizing first with
  | nil =>
      cases first with
      | nil => exact .slnil
      | cons a rest => cases among a List.mem_cons_self
  | cons b later ih =>
      obtain ⟨above, onwards⟩ := List.pairwise_cons.mp ordered
      cases first with
      | nil => exact List.nil_sublist _
      | cons a rest =>
          obtain ⟨below, growing'⟩ := List.pairwise_cons.mp growing
          have further : ∀ c ∈ rest, c ∈ later := by
            intro c member
            obtain rfl | found := List.mem_cons.mp (among c (List.mem_cons_of_mem _ member))
            · have small := below c member
              obtain rfl | found := List.mem_cons.mp (among a List.mem_cons_self)
              · omega
              · have large := above a found
                omega
            · exact found
          obtain rfl | found := List.mem_cons.mp (among a List.mem_cons_self)
          · exact (ih growing' onwards further).cons_cons a
          · refine (ih growing onwards fun c member => ?_).cons b
            obtain rfl | member := List.mem_cons.mp member
            · exact found
            · exact further c member

theorem growing_takenFrom {epoch : Epoch} (updates : List Update) : ∀ known : Option Update,
    (∀ update ∈ updates, update.epoch = epoch) → (∀ update ∈ known, update.epoch = epoch) →
    (takenFrom known updates).Pairwise (fun first second => first.seq < second.seq) ∧
      ∀ update ∈ takenFrom known updates, ∀ last ∈ known, last.seq < update.seq := by
  induction updates with
  | nil => exact fun _ _ _ => ⟨.nil, fun _ member => by cases member⟩
  | cons update rest ih =>
      intro known own same
      obtain ⟨here, own⟩ := List.forall_mem_cons.mp own
      unfold takenFrom
      split
      · next fresh =>
        obtain ⟨growing, above⟩ := ih (some update) own fun last member => by
          cases member
          exact here
        have larger : ∀ last ∈ known, last.seq < update.seq := by
          intro last member
          obtain rfl : known = some last := member
          have newest : ¬last.epoch = update.epoch ∨ last.seq < update.seq := by simpa [newer] using fresh
          exact newest.resolve_left fun different => different ((same last rfl).trans here.symm)
        refine ⟨.cons (fun later member => above later member update rfl) growing, ?_⟩
        intro later member last known
        obtain rfl | member := List.mem_cons.mp member
        · exact larger last known
        · exact UInt64.lt_trans (larger last known) (above later member update rfl)
      · exact ih known own same

theorem UpdateOrder.within_empty {group : Finset StaticKey} : UpdateOrder.Within {} group :=
  ⟨List.nodup_nil, fun _ member => by cases member⟩

theorem ordering_of_start (starts : startTask.Traces events (some task)) : task.ordering = {} := by
  obtain ⟨epoch, rest, rfl, starts⟩ := starts
  cases epoch with
  | none => cases starts.2
  | some epoch =>
      obtain ⟨count, rest, rfl, starts⟩ := starts
      cases count with
      | none => cases starts.2
      | some count =>
          cases starts.2
          rfl

def appliedFrom (peer : StaticKey) (turns : List (List Did)) : List ClipMessage :=
  ((turns.flatMap applied).filter fun entry => entry.1 = peer).map Prod.snd

theorem growing_applied {group : Finset StaticKey} {peer : StaticKey} {epoch : Epoch} (run : Turns task turns last)
    (fresh : task.ordering = {}) (few : group.card ≤ maxTrustedPeers)
    (paired : ∀ entry ∈ turns.flatMap considered, entry.1 ∈ group)
    (own : ∀ entry ∈ turns.flatMap considered, entry.1 = peer → entry.2.epoch = epoch) :
    (appliedFrom peer turns).Pairwise fun first second => first.seq.toNat < second.seq.toNat := by
  have from_group : ∀ update ∈ (turns.flatMap considered).map updateOf, update.peer ∈ group := by
    intro update member
    obtain ⟨entry, found, rfl⟩ := List.mem_map.mp member
    exact paired entry found
  have one_epoch : ∀ update ∈ ((turns.flatMap considered).map updateOf).filter (fun update => update.peer = peer),
      update.epoch = epoch := by
    intro update kept
    obtain ⟨member, mine⟩ := List.mem_filter.mp kept
    obtain ⟨entry, found, rfl⟩ := List.mem_map.mp member
    exact own entry found (of_decide_eq_true mine)
  have mine := taken_from few peer _ UpdateOrder.within_empty from_group
  rw [← fresh, ← applied_eq_taken run, List.filter_map, fresh] at mine
  have growing := (growing_takenFrom _ none one_epoch fun _ never => by cases never).1
  have applied : (((turns.flatMap applied).filter fun entry => entry.1 = peer).map updateOf).Pairwise
      fun first second => first.seq < second.seq := mine ▸ growing
  rw [List.pairwise_map] at applied
  rw [appliedFrom, List.pairwise_map]
  exact applied

/-- However the connections deliver what `sender` sends: of it the receiver takes some updates in
their order, each once, while its other updates come from others in the group. Their texts are what
it gives its clipboard to write. What was sent was on the sender's clipboard, with its switch on. -/
theorem clipboard_follows {sender sender' receiver receiver' : ClipTask} {first : List Did} {peer : StaticKey}
    {sending receiving : List (List Did)} {group : Finset StaticKey} (sends : Turns sender sending sender')
    (starts : startTask.Traces first (some receiver)) (receives : Turns receiver receiving receiver')
    (few : group.card ≤ maxTrustedPeers) (paired : ∀ delivery ∈ receiving.flatMap deliveries, delivery.peer ∈ group)
    (authentic : ∀ delivery ∈ receiving.flatMap deliveries, delivery.peer = peer → delivery.payload ∈ sending.flatMap sent) :
    (appliedFrom peer receiving).Sublist (sending.flatMap messages) ∧
    receiving.flatMap texts = (receiving.flatMap applied).map (fun entry => entry.2.text) ∧
    ∀ message ∈ sending.flatMap messages, ∃ events ∈ sending,
      ⟨.readText clipMaxLen, some (ClipRead.text message.text)⟩ ∈ events ∧ ⟨.clipboardOn, true⟩ ∈ events := by
  have received := receives_of_turns receives
  obtain ⟨ordered, epochs⟩ := ordered_messages sends
  refine ⟨?_, ?_, read_of_messages sends⟩
  · -- a delivered payload is one that was sent, and decodes to its message
    have among : ∀ entry ∈ receiving.flatMap considered, entry.1 ∈ group ∧ (entry.1 = peer → entry.2 ∈ sending.flatMap messages) := by
      intro entry member
      obtain ⟨events, of, here⟩ := List.mem_flatMap.mp member
      obtain ⟨delivery, found, same, decoded⟩ := (received events of).delivered entry here
      have delivered := List.mem_flatMap.mpr ⟨events, of, found⟩
      refine ⟨same ▸ paired delivery delivered, fun own => ?_⟩
      obtain ⟨turn, of, payload⟩ := List.mem_flatMap.mp (authentic delivery delivered (same.trans own))
      exact List.mem_flatMap.mpr ⟨turn, of, List.mem_filterMap.mpr ⟨delivery.payload, payload, decoded⟩⟩
    have growing := growing_applied receives (ordering_of_start starts) few (fun entry member => (among entry member).1)
      fun entry member own => (epochs entry.2 ((among entry member).2 own)).1
    have ordered : (sending.flatMap messages).Pairwise fun first second => first.seq.toNat ≤ second.seq.toNat := ordered
    refine sublist_of_ordered (fun message => message.seq.toNat) growing ordered fun message member => ?_
    obtain ⟨entry, kept, rfl⟩ := List.mem_map.mp member
    obtain ⟨applied, own⟩ := List.mem_filter.mp kept
    obtain ⟨events, of, here⟩ := List.mem_flatMap.mp applied
    exact (among entry (List.mem_flatMap.mpr ⟨events, of, (received events of).applied entry here⟩)).2 (of_decide_eq_true own)
  · rw [List.map_flatMap]
    exact List.flatMap_congr fun events of => (received events of).texts

theorem clipboard_follows_copy :
    let payload : Bytes := [1, 1, 9, 9, 9, 9, 9, 9, 9, 9, 1, 0, 0, 0, 0, 0, 0, 0, 1, 0, 0, 0, 97]
    let pasted : List Did := [⟨.select, Wake.inbox (some ⟨.replicate 32 7, payload⟩)⟩, ⟨.clipboardOn, true⟩,
      ⟨.writeText "a", some (some 2)⟩, ⟨.answer .applied, ()⟩]
    (appliedFrom (.replicate 32 7) [pasted]).Sublist [⟨.replicate 8 9, 1, "a"⟩] ∧ texts pasted = ["a"] := by
  intro payload pasted
  have encoded : encode (.replicate 8 9) (saturatingSucc 0) "a" = some payload := rfl
  have decoded : decode payload = some ⟨.replicate 8 9, 1, "a"⟩ := decode_eq_some.mpr encoded
  let sender : ClipTask := ⟨.replicate 8 9, 0, {}, ⟨6, true⟩⟩
  let receiver : ClipTask := ⟨.replicate 8 2, 0, {}, .new 1⟩
  let copied : List Did := [⟨.select, Wake.poll⟩, ⟨.clipboardOn, true⟩, ⟨.changeCount, some (6 : Int)⟩, ⟨.busy, false⟩,
    ⟨.readText clipMaxLen, some (ClipRead.text "a")⟩, ⟨.sendRound payload, ()⟩]
  have sends : (turn sender).Traces copied (some ⟨.replicate 8 9, 1, {}, ⟨6, false⟩⟩) := by
    refine ⟨_, _, rfl, _, _, rfl, _, _, rfl, _, _, rfl, _, _, rfl, ?_⟩
    show Proc.Traces (Proc.bind (Proc.done (encode (.replicate 8 9) (saturatingSucc 0) "a", _)) _) _ _
    rw [encoded]
    exact ⟨_, _, rfl, rfl, rfl⟩
  have starts : startTask.Traces [⟨.randomEpoch, some (.replicate 8 2)⟩, ⟨.changeCount, some (1 : Int)⟩] (some receiver) :=
    ⟨_, _, rfl, _, _, rfl, rfl, rfl⟩
  have receives : (turn receiver).Traces pasted
      (some ⟨.replicate 8 2, 0, ⟨[⟨.replicate 32 7, .replicate 8 9, 1⟩]⟩, ⟨2, false⟩⟩) := by
    refine ⟨_, _, rfl, _, _, rfl, ?_⟩
    show Proc.Traces (Proc.bind (match decode payload with | _ => _) _) _ _
    rw [decoded]
    exact ⟨_, _, rfl, _, _, rfl, rfl, rfl⟩
  have delivered : ∀ delivery ∈ [pasted].flatMap deliveries, delivery = ⟨.replicate 32 7, payload⟩ :=
    fun delivery member => List.mem_singleton.mp member
  have few : ({.replicate 32 7} : Finset StaticKey).card ≤ maxTrustedPeers := by decide
  have paired : ∀ delivery ∈ [pasted].flatMap deliveries, delivery.peer ∈ ({.replicate 32 7} : Finset StaticKey) := by
    intro delivery member
    rw [delivered delivery member]
    exact Finset.mem_singleton_self _
  have authentic : ∀ delivery ∈ [pasted].flatMap deliveries, delivery.peer = .replicate 32 7 →
      delivery.payload ∈ [copied].flatMap sent := by
    intro delivery member _
    rw [delivered delivery member]
    exact List.mem_singleton_self _
  have follows := clipboard_follows (.turn sends (.done _)) starts (.turn receives (.done _)) few paired authentic
  have one : [copied].flatMap messages = [⟨.replicate 8 9, 1, "a"⟩] := by
    show [payload].filterMap decode ++ [] = _
    rw [List.filterMap_cons_some decoded, List.filterMap_nil]
    rfl
  exact ⟨one ▸ follows.1, rfl⟩

end Clipboard

end CesaConn
