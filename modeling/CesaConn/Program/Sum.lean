import CesaConn.Program.Attempt

/-! Programs over two signatures side by side.

A program over one of them is also a program over both. Rules for its triples
need not see the embedding: it commutes with sequencing.
-/

set_option autoImplicit false

namespace Program

variable {I J : Signature} {A B : Type}

abbrev Signature.sum (I J : Signature) : Signature where
  Op := I.Op ⊕ J.Op
  Reply
    | .inl op => I.Reply op
    | .inr op => J.Reply op

namespace Proc

def left : Proc I A → Proc (I.sum J) A
  | .done value => .done value
  | .call op next => .call (.inl op) fun reply => (next reply).left

@[simp] theorem left_done (value : A) : (Proc.done value : Proc I A).left = (.done value : Proc (I.sum J) A) := rfl

theorem left_bind (program : Proc I A) (k : A → Proc I B) :
    (program >>= k).left = (program.left >>= fun value => (k value).left : Proc (I.sum J) B) := by
  induction program with
  | done value => rfl
  | call op next ih => exact congrArg (Proc.call (I := I.sum J) (.inl op)) (funext ih)

theorem all_left {P : (I.sum J).Op → Prop} {program : Proc I A} (all : program.All fun op => P (.inl op)) :
    (program.left : Proc (I.sum J) A).All P := by
  induction program with
  | done value => trivial
  | call op next ih => exact ⟨all.1, fun reply => ih reply (all.2 reply)⟩

end Proc

def Event.left (event : Event I) : Event (I.sum J) := ⟨.inl event.op, event.reply⟩

namespace Proc

theorem traces_left {program : Proc I A} {events : List (Event (I.sum J))} {result : A} :
    program.left.Traces events result ↔ ∃ own, events = own.map Event.left ∧ program.Traces own result := by
  induction program generalizing events with
  | done value =>
      constructor
      · rintro ⟨rfl, same⟩
        exact ⟨[], rfl, rfl, same⟩
      · rintro ⟨_, rfl, rfl, same⟩
        exact ⟨rfl, same⟩
  | call op next ih =>
      constructor
      · rintro ⟨reply, rest, rfl, traced⟩
        obtain ⟨own, rfl, later⟩ := (ih reply).mp traced
        exact ⟨⟨op, reply⟩ :: own, rfl, reply, own, rfl, later⟩
      · rintro ⟨_, rfl, reply, own, rfl, later⟩
        exact ⟨reply, own.map Event.left, rfl, (ih reply).mpr ⟨own, rfl, later⟩⟩

end Proc

end Program
