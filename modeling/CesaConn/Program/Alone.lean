import CesaConn.Program.Attempt
import CesaConn.Program.Duplex

/-! One end of a connection that goes on alone, as far as what has arrived lets it.

Where the ends take turns, a run of both is made of runs of one.
-/

set_option autoImplicit false

namespace Program

open Format

variable {I : Signature} {A B C E F : Type} {access : (op : I.Op) → Access (I.Reply op)}

namespace Duplex

/-- With this inbox the program ends: what it writes, its result, what it leaves unread. -/
inductive Alone (access : (op : I.Op) → Access (I.Reply op)) {A : Type} : Proc I A → List Bytes → List Bytes → A → List Bytes → Prop where
  | done {value : A} {inbox : List Bytes} : Alone access (.done value) inbox [] value inbox
  | step {program rest : Proc I A} {inbox sent unread more last : List Bytes} {value : A} :
      advance access program inbox = some (rest, sent, unread, true) →
      Alone access rest unread more value last → Alone access program inbox (sent ++ more) value last

variable {program : Proc I A} {inbox sent unread : List Bytes} {value : A}

theorem advance_bind {rest : Proc I A} {exact : Bool} (k : A → Proc I B)
    (advanced : advance access program inbox = some (rest, sent, unread, exact)) :
    advance access (program >>= k) inbox = some (rest >>= k, sent, unread, exact) := by
  cases program with
  | done value => cases advanced
  | call op next =>
      simp only [Proc.call_bind, advance] at advanced ⊢
      split at advanced
      · cases advanced
        rfl
      · next size reply _ =>
        simp only [Option.map_eq_some_iff, Prod.exists] at advanced ⊢
        obtain ⟨block, after, split, same⟩ := advanced
        cases same
        exact ⟨block, after, split, rfl⟩
      · cases advanced

namespace Alone

theorem bind {more last : List Bytes} {k : A → Proc I B} {result : B} (first : Alone access program inbox sent value unread)
    (second : Alone access (k value) unread more result last) : Alone access (program >>= k) inbox (sent ++ more) result last := by
  induction first with
  | done => exact second
  | step advanced _ ih =>
      rw [List.append_assoc]
      exact .step (advance_bind k advanced) (ih second)

/-- What goes on alone goes on whatever the other end does. -/
theorem left {other : Proc I B} {toRight : List Bytes} (alone : Alone access program inbox sent value unread)
    (k : A → Proc I C) :
    Steps access ⟨program >>= k, other, inbox, toRight, true⟩ ⟨k value, other, unread, toRight ++ sent, true⟩ := by
  induction alone generalizing toRight with
  | done =>
      rw [List.append_nil]
      exact .refl
  | step advanced _ ih =>
      rw [← List.append_assoc]
      exact .head (.left (advance_bind k advanced)) (ih)

theorem right {other : Proc I B} {toLeft : List Bytes} (alone : Alone access program inbox sent value unread)
    (k : A → Proc I C) :
    Steps access ⟨other, program >>= k, toLeft, inbox, true⟩ ⟨other, k value, toLeft ++ sent, unread, true⟩ := by
  induction alone generalizing toLeft with
  | done =>
      rw [List.append_nil]
      exact .refl
  | step advanced _ ih =>
      rw [← List.append_assoc]
      exact .head (.right (advance_bind k advanced)) (ih)

theorem left_ends {other : Proc I B} {toRight : List Bytes} (alone : Alone access program inbox sent value unread) :
    Steps access ⟨program, other, inbox, toRight, true⟩ ⟨.done value, other, unread, toRight ++ sent, true⟩ := by
  have whole : Steps access ⟨program >>= Proc.done, other, inbox, toRight, true⟩ _ := alone.left Proc.done
  rwa [Proc.bind_done] at whole

theorem right_ends {other : Proc I B} {toLeft : List Bytes} (alone : Alone access program inbox sent value unread) :
    Steps access ⟨other, program, toLeft, inbox, true⟩ ⟨other, .done value, toLeft ++ sent, unread, true⟩ := by
  have whole : Steps access ⟨other, program >>= Proc.done, toLeft, inbox, true⟩ _ := alone.right Proc.done
  rwa [Proc.bind_done] at whole

/-! ## Attempts -/

theorem bind_ok {x : Attempt I E A} {f : A → Attempt I E B} {more last : List Bytes} {result : Except E B}
    (first : Alone access x.run inbox sent (.ok value) unread)
    (second : Alone access (f value).run unread more result last) : Alone access (x >>= f).run inbox (sent ++ more) result last := by
  rw [Attempt.run_bind]
  exact first.bind second

section

variable {more last : List Bytes} {result : Except E B} (op : I.Op) {f : I.Reply op → Attempt I E B}

theorem write_bind {bytes : Bytes} {reply : I.Reply op} (writes : access op = .write bytes reply)
    (rest : Alone access (f reply).run inbox more result last) :
    Alone access (Attempt.perform op >>= f).run inbox (bytes :: more) result last := by
  have advanced : advance access (Attempt.perform op >>= f).run inbox = some ((f reply).run, [bytes], inbox, true) := by
    show advance access (.call op fun reply => (f reply).run) inbox = _
    simp [advance, writes]
  exact .step advanced rest

theorem read_bind {size : Nat} {reply : Block size → I.Reply op} (block : Block size)
    (reads : access op = .read size reply) (some : size ≠ 0)
    (rest : Alone access (f (reply block)).run inbox more result last) :
    Alone access (Attempt.perform op >>= f).run (block.toList :: inbox) more result last := by
  have advanced : advance access (Attempt.perform op >>= f).run (block.toList :: inbox) =
      .some ((f (reply block)).run, [], inbox, true) := advance_read reads block inbox some
  exact .step advanced rest

theorem aside_bind {reply : I.Reply op} (reads : access op = .read 0 fun _ => reply)
    (rest : Alone access (f reply).run inbox more result last) :
    Alone access (Attempt.perform op >>= f).run inbox more result last := by
  have advanced : advance access (Attempt.perform op >>= f).run inbox = some ((f reply).run, [], inbox, true) := by
    show advance access (.call op fun reply => (f reply).run) inbox = _
    simp [advance, reads, splitFirstChunk, dropBytes, exactly]
  exact .step advanced rest

end

theorem outcome_bind {x : Attempt I E A} {f : Except E A → Attempt I F B} {result : Except E A} {more last : List Bytes}
    {final : Except F B} (first : Alone access x.run inbox sent result unread)
    (second : Alone access (f result).run unread more final last) :
    Alone access (Attempt.outcome x >>= f).run inbox (sent ++ more) final last := by
  have lifted : Alone access (Attempt.outcome x : Attempt I F _).run inbox sent (.ok result) unread := by
    have returned : Alone access (.done (.ok result) : Proc I (Except F (Except E A))) unread [] (.ok result) unread := .done
    have whole := first.bind (k := fun result => .done (Except.ok result)) returned
    rwa [List.append_nil] at whole
  exact bind_ok lifted second

theorem left_then {x : Attempt I E A} {f : A → Attempt I E B} {other : Proc I C} {toRight : List Bytes}
    (alone : Alone access x.run inbox sent (.ok value) unread) :
    Steps access ⟨(x >>= f).run, other, inbox, toRight, true⟩ ⟨(f value).run, other, unread, toRight ++ sent, true⟩ := by
  rw [Attempt.run_bind]
  exact alone.left _

theorem ensure_bind {condition : Bool} {error : E} {f : Unit → Attempt I E B} {result : Except E B} {last : List Bytes}
    (holds : condition = true) (rest : Alone access (f ()).run inbox sent result last) :
    Alone access (Attempt.ensure condition error >>= f).run inbox sent result last := by
  subst holds
  exact rest

theorem require_bind {option : Option A} {error : E} {f : A → Attempt I E B} {result : Except E B} {last : List Bytes}
    (found : option = some value) (rest : Alone access (f value).run inbox sent result last) :
    Alone access (Attempt.require option error >>= f).run inbox sent result last := by
  subst found
  exact rest

end Alone

end Duplex

end Program
