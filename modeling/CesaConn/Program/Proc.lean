import Mathlib.Control.Basic

/-! Finite programs over a signature of operations.

A program is the tree of the operations it performs: every reply of an
operation selects a subtree. The tree says nothing about what an operation
does; a semantics is supplied separately, and one program can be given several.
-/

set_option autoImplicit false

namespace Program

structure Signature where
  Op : Type
  Reply : Op → Type

inductive Proc (I : Signature) (A : Type) where
  | done (value : A)
  | call (op : I.Op) (next : I.Reply op → Proc I A)

namespace Proc

variable {I : Signature} {A B C : Type}

def bind : Proc I A → (A → Proc I B) → Proc I B
  | .done value, k => k value
  | .call op next, k => .call op fun reply => (next reply).bind k

instance : Monad (Proc I) where
  pure := .done
  bind := bind

def perform (op : I.Op) : Proc I (I.Reply op) := .call op .done

@[simp] theorem pure_eq (value : A) : (pure value : Proc I A) = .done value := rfl

@[simp] theorem done_bind (value : A) (k : A → Proc I B) : (Proc.done value >>= k) = k value := rfl

@[simp] theorem call_bind (op : I.Op) (next : I.Reply op → Proc I A) (k : A → Proc I B) :
    (Proc.call op next >>= k) = .call op fun reply => next reply >>= k := rfl

@[simp] theorem perform_bind (op : I.Op) (k : I.Reply op → Proc I B) :
    (perform op >>= k) = .call op k := rfl

theorem bind_done (p : Proc I A) : (p >>= fun value => Proc.done value) = p := by
  induction p with
  | done value => rfl
  | call op next ih => exact congrArg (Proc.call op) (funext ih)

theorem bind_bind (p : Proc I A) (f : A → Proc I B) (g : B → Proc I C) :
    (p >>= f >>= g) = (p >>= fun value => f value >>= g) := by
  induction p with
  | done value => rfl
  | call op next ih => exact congrArg (Proc.call op) (funext ih)

instance : LawfulMonad (Proc I) :=
  LawfulMonad.mk' (Proc I) bind_done (fun _ _ => rfl) bind_bind

def All (P : I.Op → Prop) : Proc I A → Prop
  | .done _ => True
  | .call op next => P op ∧ ∀ reply, (next reply).All P

@[simp] theorem all_done (P : I.Op → Prop) (value : A) : (Proc.done value : Proc I A).All P := trivial

@[simp] theorem all_call (P : I.Op → Prop) (op : I.Op) (next : I.Reply op → Proc I A) :
    (Proc.call op next).All P ↔ P op ∧ ∀ reply, (next reply).All P := Iff.rfl

theorem all_bind {P : I.Op → Prop} {p : Proc I A} {k : A → Proc I B}
    (first : p.All P) (rest : ∀ value, (k value).All P) : (p >>= k).All P := by
  induction p with
  | done value => exact rest value
  | call op next ih => exact ⟨first.1, fun reply => ih reply (first.2 reply)⟩

end Proc

end Program
