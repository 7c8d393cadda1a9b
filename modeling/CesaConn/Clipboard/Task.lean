import CesaConn.Clipboard.ClipWatch
import CesaConn.Network.DataPacket
import CesaConn.Program.History

/-! The clipboard task: one event at a time, from polling or from a paired device.

What the operating system and the daemon answer is left open, so other tasks and the
user may do anything between two steps of a turn. A run is told turn by turn.
-/

set_option autoImplicit false

namespace CesaConn

open Format Program

namespace Clipboard

open DataPacket (DataAck)

inductive ClipRead where
  | text (text : String)
  /-- Marked as a secret by a password manager. -/
  | concealed
  | tooLarge
  | noText
  deriving DecidableEq

structure ClipDelivery where
  peer : StaticKey
  payload : Bytes
  deriving DecidableEq

inductive Wake where
  | cancelled
  /-- `none` once nobody can deliver any more. -/
  | inbox (delivery : Option ClipDelivery)
  | poll
  deriving DecidableEq

inductive Op where
  | randomEpoch
  | select
  | clipboardOn
  | changeCount
  | readText (maxLen : Nat)
  | writeText (text : String)
  | answer (ack : DataAck)
  /-- Whether the last round of sends is still running. -/
  | busy
  | sendRound (payload : Bytes)
  deriving DecidableEq

abbrev desk : Signature where
  Op := Op
  Reply
    | .randomEpoch => Option Epoch
    | .select => Wake
    | .clipboardOn => Bool
    | .changeCount => Option Int
    | .readText _ => Option ClipRead
    | .writeText _ => Option (Option Int)
    | .answer _ => Unit
    | .busy => Bool
    | .sendRound _ => Unit

/-- An operation of the task, with what was answered. -/
abbrev Did := Program.Event desk

def perform (op : Op) : Proc desk (desk.Reply op) := .call op .done

structure ClipTask where
  epoch : Epoch
  seq : UInt64 := 0
  ordering : UpdateOrder := {}
  watch : ClipWatch

/-- `u64::saturating_add`. -/
def saturatingSucc (seq : UInt64) : UInt64 := if seq.toNat + 1 < 2 ^ 64 then seq + 1 else seq

def readClip (task : ClipTask) : Proc desk (Option Bytes × ClipTask) := do
  match ← perform (.readText clipMaxLen) with
  | some (.text text) =>
      let task := { task with seq := saturatingSucc task.seq }
      return (encode task.epoch task.seq text, task)
  | some .concealed | some .tooLarge | some .noText | none => return (none, task)

def applyClip (task : ClipTask) (delivery : ClipDelivery) : Proc desk (DataAck × ClipTask) := do
  if !(← perform .clipboardOn) then return (.ignored, task)
  else
    match decode delivery.payload with
    | none => return (.ignored, task)
    | some message =>
        match task.ordering.accept delivery.peer message.epoch message.seq with
        | (false, ordering) => return (.ignored, { task with ordering })
        | (true, ordering) =>
            let task := { task with ordering }
            match ← perform (.writeText message.text) with
            | some (some count) => return (.applied, { task with watch := task.watch.written count })
            | some none | none => return (.ignored, task)

def turn (task : ClipTask) : Proc desk (Option ClipTask) := do
  match ← perform .select with
  | .cancelled | .inbox none => return none
  | .inbox (some delivery) =>
      let (ack, task) ← applyClip task delivery
      perform (.answer ack)
      return some task
  | .poll =>
      let on ← perform .clipboardOn
      match ← perform .changeCount with
      | none => return some task
      | some count =>
          let busy ← perform .busy
          let (tick, watch) := task.watch.tick on count busy
          let task := { task with watch }
          if tick = .wait then return some task
          else
            match ← readClip task with
            | (none, task) => return some task
            | (some payload, task) =>
                perform (.sendRound payload)
                return some task

/-- What is on the clipboard at the start is never sent. -/
def startTask : Proc desk (Option ClipTask) := do
  match ← perform .randomEpoch with
  | none => return none
  | some epoch =>
      match ← perform .changeCount with
      | none => return none
      | some start => return some { epoch, watch := .new start }

/-! ## What a turn does -/

/-- All that a turn can do. -/
inductive Turned (task : ClipTask) : List Did → Option ClipTask → Prop where
  | cancelled : Turned task [⟨.select, Wake.cancelled⟩] none
  | closed : Turned task [⟨.select, Wake.inbox none⟩] none
  | ignored (delivery : ClipDelivery) (on : Bool)
      (refused : on = true → ∀ message, decode delivery.payload = some message →
        task.ordering.accept delivery.peer message.epoch message.seq = (false, task.ordering)) :
      Turned task [⟨.select, Wake.inbox (some delivery)⟩, ⟨.clipboardOn, on⟩, ⟨.answer .ignored, ()⟩] (some task)
  | taken (delivery : ClipDelivery) (message : ClipMessage) (ordering : UpdateOrder) (written : Option (Option Int))
      (decoded : decode delivery.payload = some message)
      (newer : task.ordering.accept delivery.peer message.epoch message.seq = (true, ordering)) :
      Turned task [⟨.select, Wake.inbox (some delivery)⟩, ⟨.clipboardOn, true⟩, ⟨.writeText message.text, written⟩,
          ⟨.answer (if written.join.isSome then .applied else .ignored), ()⟩]
        (some { task with ordering, watch := written.join.elim task.watch task.watch.written })
  | unread (on : Bool) : Turned task [⟨.select, Wake.poll⟩, ⟨.clipboardOn, on⟩, ⟨.changeCount, (none : Option Int)⟩] (some task)
  | waits (on : Bool) (count : Int) (busy : Bool) (tick : (task.watch.tick on count busy).1 = .wait) :
      Turned task [⟨.select, Wake.poll⟩, ⟨.clipboardOn, on⟩, ⟨.changeCount, some count⟩, ⟨.busy, busy⟩]
        (some { task with watch := (task.watch.tick on count busy).2 })
  | skips (on : Bool) (count : Int) (busy : Bool) (read : Option ClipRead) (seq : UInt64)
      (tick : (task.watch.tick on count busy).1 = .send) (seq_le : task.seq ≤ seq) :
      Turned task [⟨.select, Wake.poll⟩, ⟨.clipboardOn, on⟩, ⟨.changeCount, some count⟩, ⟨.busy, busy⟩,
          ⟨.readText clipMaxLen, read⟩]
        (some { task with seq, watch := (task.watch.tick on count busy).2 })
  | sends (on : Bool) (count : Int) (busy : Bool) (text : String) (payload : Bytes)
      (tick : (task.watch.tick on count busy).1 = .send) (encoded : encode task.epoch (saturatingSucc task.seq) text = some payload) :
      Turned task [⟨.select, Wake.poll⟩, ⟨.clipboardOn, on⟩, ⟨.changeCount, some count⟩, ⟨.busy, busy⟩,
          ⟨.readText clipMaxLen, some (ClipRead.text text)⟩, ⟨.sendRound payload, ()⟩]
        (some { task with seq := saturatingSucc task.seq, watch := (task.watch.tick on count busy).2 })

variable {task : ClipTask} {events : List Did}

theorem ordering_of_refused {order ordering : UpdateOrder} {peer : StaticKey} {epoch : Epoch} {seq : UInt64}
    (refused : order.accept peer epoch seq = (false, ordering)) : ordering = order := by
  simp only [UpdateOrder.accept] at refused
  split at refused
  · split at refused
    · cases refused
      rfl
    · cases refused
  · cases refused

theorem traces_applyClip {delivery : ClipDelivery} {ack : DataAck} {after : ClipTask}
    (traced : (applyClip task delivery).Traces events (ack, after)) :
    Turned task (⟨.select, Wake.inbox (some delivery)⟩ :: events ++ [⟨.answer ack, ()⟩]) (some after) := by
  obtain ⟨on, rest, rfl, traced⟩ := traced
  cases on with
  | false =>
      obtain ⟨rfl, same⟩ := traced
      cases same
      exact .ignored delivery false fun never => by cases never
  | true =>
      cases decoded : decode delivery.payload with
      | none =>
          simp only [decoded] at traced
          obtain ⟨rfl, same⟩ := traced
          cases same
          refine .ignored delivery true fun _ message some => ?_
          rw [decoded] at some
          cases some
      | some message =>
          simp only [decoded] at traced
          cases accepted : task.ordering.accept delivery.peer message.epoch message.seq with
          | mk fresh ordering =>
              rw [accepted] at traced
              cases fresh with
              | false =>
                  obtain rfl := ordering_of_refused accepted
                  obtain ⟨rfl, same⟩ := traced
                  cases same
                  refine .ignored delivery true fun _ other some => ?_
                  rw [decoded] at some
                  cases some
                  exact accepted
              | true =>
                  obtain ⟨written, rest, rfl, traced⟩ := traced
                  have turned := Turned.taken delivery message ordering written decoded accepted
                  cases written with
                  | none =>
                      obtain ⟨rfl, same⟩ := traced
                      cases same
                      exact turned
                  | some written =>
                      cases written with
                      | none =>
                          obtain ⟨rfl, same⟩ := traced
                          cases same
                          exact turned
                      | some count =>
                          obtain ⟨rfl, same⟩ := traced
                          cases same
                          exact turned

theorem le_saturatingSucc (seq : UInt64) : seq ≤ saturatingSucc seq := by
  unfold saturatingSucc
  split
  · next small =>
    rw [UInt64.le_iff_toNat_le, UInt64.toNat_add]
    show seq.toNat ≤ (seq.toNat + 1) % 2 ^ 64
    omega
  · exact UInt64.le_refl seq

theorem traces_readClip {on busy : Bool} {count : Int} {payload : Option Bytes} {after : ClipTask}
    (tick : (task.watch.tick on count busy).1 = .send)
    (traced : (readClip { task with watch := (task.watch.tick on count busy).2 }).Traces events (payload, after)) :
    Turned task ([⟨.select, Wake.poll⟩, ⟨.clipboardOn, on⟩, ⟨.changeCount, some count⟩, ⟨.busy, busy⟩] ++ events ++
      payload.toList.map fun payload => ⟨.sendRound payload, ()⟩) (some after) := by
  obtain ⟨read, rest, rfl, traced⟩ := traced
  have skipped (same : after = { task with watch := (task.watch.tick on count busy).2 }) (quiet : payload = none) :
      Turned task ([⟨.select, Wake.poll⟩, ⟨.clipboardOn, on⟩, ⟨.changeCount, some count⟩, ⟨.busy, busy⟩] ++
        [⟨.readText clipMaxLen, read⟩] ++ payload.toList.map fun payload => ⟨.sendRound payload, ()⟩) (some after) := by
    rw [same, quiet]
    exact .skips on count busy read task.seq tick (UInt64.le_refl _)
  cases read with
  | none =>
      obtain ⟨rfl, same⟩ := traced
      cases same
      exact skipped rfl rfl
  | some read =>
      cases read with
      | text text =>
          obtain ⟨rfl, same⟩ := traced
          cases same
          cases encoded : encode task.epoch (saturatingSucc task.seq) text with
          | none => exact .skips on count busy _ _ tick (le_saturatingSucc _)
          | some payload => exact .sends on count busy text payload tick encoded
      | _ =>
          obtain ⟨rfl, same⟩ := traced
          cases same
          exact skipped rfl rfl

theorem turned_of_traces {after : Option ClipTask} (traced : (turn task).Traces events after) : Turned task events after := by
  obtain ⟨wake, rest, rfl, traced⟩ := traced
  cases wake with
  | cancelled =>
      obtain ⟨rfl, rfl⟩ := traced
      exact .cancelled
  | inbox delivery =>
      cases delivery with
      | none =>
          obtain ⟨rfl, rfl⟩ := traced
          exact .closed
      | some delivery =>
          have traced : (applyClip task delivery >>= fun applied =>
            perform (.answer applied.1) >>= fun _ => pure (some applied.2)).Traces rest after := traced
          obtain ⟨first, later, ⟨ack, next⟩, rfl, applied, answered⟩ := (Proc.traces_bind _ _ _ _).mp traced
          obtain ⟨_, _, rfl, rfl, rfl⟩ := answered
          exact traces_applyClip applied
  | poll =>
      obtain ⟨on, rest, rfl, count, rest, rfl, traced⟩ := traced
      cases count with
      | none =>
          obtain ⟨rfl, rfl⟩ := traced
          exact .unread on
      | some count =>
          obtain ⟨busy, rest, rfl, traced⟩ := traced
          have traced : Proc.Traces (if (task.watch.tick on count busy).1 = .wait then _ else _) rest after := traced
          cases tick : (task.watch.tick on count busy).1 with
          | wait =>
              rw [if_pos tick] at traced
              obtain ⟨rfl, rfl⟩ := traced
              exact .waits on count busy tick
          | send =>
              rw [if_neg (by rw [tick]; decide)] at traced
              have traced : (readClip { task with watch := (task.watch.tick on count busy).2 } >>= fun read =>
                match read with
                | (none, task) => pure (some task)
                | (some payload, task) => perform (.sendRound payload) >>= fun _ => pure (some task)).Traces rest after := traced
              obtain ⟨first, later, ⟨payload, next⟩, rfl, read, sent⟩ := (Proc.traces_bind _ _ _ _).mp traced
              have turned := traces_readClip tick read
              cases payload with
              | none =>
                  obtain ⟨rfl, rfl⟩ := sent
                  exact turned
              | some payload =>
                  obtain ⟨_, _, rfl, rfl, rfl⟩ := sent
                  exact turned

end Clipboard

end CesaConn
