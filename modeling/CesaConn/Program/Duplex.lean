import CesaConn.Format.Bytes
import CesaConn.Program.Proc
import Mathlib.Logic.Relation
import Mathlib.Order.GameAdd

/-! Two programs at the two ends of a connection.

A byte stream runs in each direction. It remembers where one write ended and
the next began, which a reader cannot see: a read takes as many bytes as it
asks for, from as many writes as it takes. `aligned` records whether every read
so far took exactly what one write had written.

The programs are deterministic and a step of one end cannot disable a step of
the other, so the order of the steps does not matter: where one interleaving
ends, every interleaving ends.
-/

set_option autoImplicit false

namespace Program

open Format

inductive Access (R : Type) where
  | write (bytes : Bytes) (reply : R)
  | read (size : Nat) (reply : Block size → R)
  | neither

structure Duplex (I : Signature) (A B : Type) where
  left : Proc I A
  right : Proc I B
  toLeft : List Bytes
  toRight : List Bytes
  aligned : Bool

namespace Duplex

variable {I : Signature} {A B : Type}

def dropBytes : Nat → List Bytes → List Bytes
  | 0, writes => writes
  | _ + 1, [] => []
  | size + 1, bytes :: writes =>
      if bytes.length ≤ size + 1 then dropBytes (size + 1 - bytes.length) writes
      else bytes.drop (size + 1) :: writes

def exactly (size : Nat) (writes : List Bytes) : Bool :=
  size == 0 || writes.head?.map List.length == some size

/-- One operation of an end: the rest of it, what it wrote, what it left unread,
and whether what it read was one write. A read of too many bytes waits. -/
def advance (access : (op : I.Op) → Access (I.Reply op)) :
    Proc I A → List Bytes → Option (Proc I A × List Bytes × List Bytes × Bool)
  | .done _, _ => none
  | .call op next, inbox =>
      match access op with
      | .write bytes reply => some (next reply, [bytes], inbox, true)
      | .read size reply => (splitFirstChunk size inbox.flatten).map fun (block, _) =>
          (next (reply block), [], dropBytes size inbox, exactly size inbox)
      | .neither => none

inductive Step (access : (op : I.Op) → Access (I.Reply op)) : Duplex I A B → Duplex I A B → Prop where
  | left {left rest : Proc I A} {right : Proc I B} {toLeft toRight sent unread : List Bytes} {aligned exact : Bool} :
      advance access left toLeft = some (rest, sent, unread, exact) →
      Step access ⟨left, right, toLeft, toRight, aligned⟩ ⟨rest, right, unread, toRight ++ sent, aligned && exact⟩
  | right {left : Proc I A} {right rest : Proc I B} {toLeft toRight sent unread : List Bytes} {aligned exact : Bool} :
      advance access right toRight = some (rest, sent, unread, exact) →
      Step access ⟨left, right, toLeft, toRight, aligned⟩ ⟨left, rest, toLeft ++ sent, unread, aligned && exact⟩

abbrev Steps (access : (op : I.Op) → Access (I.Reply op)) : Duplex I A B → Duplex I A B → Prop :=
  Relation.ReflTransGen (Step access)

variable {access : (op : I.Op) → Access (I.Reply op)}

/-! ## What arrives later does not change what can be read now -/

theorem dropBytes_append {size : Nat} {writes : List Bytes} (more : List Bytes)
    (long : size ≤ writes.flatten.length) : dropBytes size (writes ++ more) = dropBytes size writes ++ more := by
  induction writes generalizing size with
  | nil =>
      have none : size = 0 := by simpa using long
      subst none
      simp [dropBytes]
  | cons bytes rest ih =>
      cases size with
      | zero => simp [dropBytes]
      | succ size =>
          simp only [List.cons_append, dropBytes]
          split
          · next short =>
            refine ih ?_
            rw [List.flatten_cons, List.length_append] at long
            omega
          · rfl

theorem exactly_append {size : Nat} {writes : List Bytes} (more : List Bytes)
    (long : size ≤ writes.flatten.length) : exactly size (writes ++ more) = exactly size writes := by
  cases writes with
  | nil =>
      have none : size = 0 := by simpa using long
      subst none
      rfl
  | cons bytes rest => rfl

theorem advance_append {program rest : Proc I A} {inbox sent unread : List Bytes} {exact : Bool} (more : List Bytes)
    (advanced : advance access program inbox = some (rest, sent, unread, exact)) :
    advance access program (inbox ++ more) = some (rest, sent, unread ++ more, exact) := by
  cases program with
  | done value => cases advanced
  | call op next =>
      simp only [advance] at advanced ⊢
      split at advanced
      · cases advanced
        rfl
      · next size reply _ =>
        simp only [Option.map_eq_some_iff, Prod.exists, splitFirstChunk_eq_some] at advanced ⊢
        obtain ⟨block, after, split, same⟩ := advanced
        have long : size ≤ inbox.flatten.length := by simp [split]
        cases same
        refine ⟨block, after ++ more.flatten, by simp [split], ?_⟩
        rw [dropBytes_append more long, exactly_append more long]
      · cases advanced

/-! ## Every interleaving ends alike -/

theorem diamond {first second third : Duplex I A B} (one : Step access first second) (other : Step access first third) :
    ∃ last, Relation.ReflGen (Step access) second last ∧ Relation.ReflTransGen (Step access) third last := by
  cases one with
  | left advanced =>
      cases other with
      | left advanced' =>
          rw [advanced] at advanced'
          cases advanced'
          exact ⟨_, .refl, .refl⟩
      | right advanced' =>
          refine ⟨_, .single (.right (advance_append _ advanced')), .single ?_⟩
          rw [Bool.and_right_comm]
          exact .left (advance_append _ advanced)
  | right advanced =>
      cases other with
      | right advanced' =>
          rw [advanced] at advanced'
          cases advanced'
          exact ⟨_, .refl, .refl⟩
      | left advanced' =>
          refine ⟨_, .single (.left (advance_append _ advanced')), .single ?_⟩
          rw [Bool.and_right_comm]
          exact .right (advance_append _ advanced)

theorem not_step_done {a : A} {b : B} {toLeft toRight : List Bytes} {aligned : Bool} {next : Duplex I A B} :
    ¬ Step access ⟨.done a, .done b, toLeft, toRight, aligned⟩ next := by
  intro step
  cases step with
  | left advanced => cases advanced
  | right advanced => cases advanced

/-- Whatever has happened so far, the connection goes on to where one interleaving ends. -/
theorem Steps.converge {first mid last : Duplex I A B} (ends : Steps access first last)
    (final : ∀ next, ¬ Step access last next) (reached : Steps access first mid) : Steps access mid last := by
  obtain ⟨common, onward, stuck⟩ := Relation.church_rosser (fun _ _ _ => diamond) reached ends
  cases stuck.cases_head with
  | inl same => exact same ▸ onward
  | inr more =>
      obtain ⟨next, step, -⟩ := more
      exact absurd step (final next)

theorem Steps.aligned {first last : Duplex I A B} (run : Steps access first last) (ends : last.aligned) :
    first.aligned := by
  induction run with
  | refl => exact ends
  | tail _ step ih =>
      refine ih ?_
      cases step with
      | left _ => exact (Bool.and_eq_true_iff.mp ends).1
      | right _ => exact (Bool.and_eq_true_iff.mp ends).1

def Rest (rest program : Proc I A) : Prop := ∃ op next reply, program = .call op next ∧ rest = next reply

theorem wellFounded_rest : WellFounded (Rest : Proc I A → Proc I A → Prop) := by
  refine ⟨fun program => ?_⟩
  induction program with
  | done value =>
      refine ⟨_, ?_⟩
      rintro _ ⟨op, next, reply, same, rfl⟩
      cases same
  | call op next ih =>
      refine ⟨_, ?_⟩
      rintro _ ⟨_, _, reply, same, rfl⟩
      cases same
      exact ih reply

theorem rest_of_advance {program rest : Proc I A} {inbox sent unread : List Bytes} {exact : Bool}
    (advanced : advance access program inbox = some (rest, sent, unread, exact)) : Rest rest program := by
  cases program with
  | done value => cases advanced
  | call op next =>
      simp only [advance] at advanced
      split at advanced
      · next reply _ =>
        cases advanced
        exact ⟨op, next, reply, rfl, rfl⟩
      · next reply _ =>
        simp only [Option.map_eq_some_iff, Prod.exists] at advanced
        obtain ⟨block, _, _, same⟩ := advanced
        cases same
        exact ⟨op, next, reply block, rfl, rfl⟩
      · cases advanced

/-- No interleaving goes on forever. -/
theorem wellFounded_step : WellFounded fun next now : Duplex I A B => Step access now next := by
  have shrinks := InvImage.wf (fun duplex : Duplex I A B => (duplex.left, duplex.right))
    (WellFounded.prod_gameAdd wellFounded_rest wellFounded_rest)
  refine Subrelation.wf ?_ shrinks
  intro next now step
  cases step with
  | left advanced => exact .fst (rest_of_advance advanced)
  | right advanced => exact .snd (rest_of_advance advanced)

/-! ## Running one interleaving -/

section

variable {left : Proc I A} {right : Proc I B} {toLeft toRight : List Bytes} {last : Duplex I A B}

theorem Steps.left_write (op : I.Op) {next : I.Reply op → Proc I A} {bytes : Bytes} {reply : I.Reply op}
    (writes : access op = .write bytes reply)
    (later : Steps access ⟨next reply, right, toLeft, toRight ++ [bytes], true⟩ last) :
    Steps access ⟨.call op next, right, toLeft, toRight, true⟩ last := by
  have advanced : advance access (.call op next) toLeft = some (next reply, [bytes], toLeft, true) := by
    simp [advance, writes]
  exact .head (.left advanced) later

theorem Steps.right_write (op : I.Op) {next : I.Reply op → Proc I B} {bytes : Bytes} {reply : I.Reply op}
    (writes : access op = .write bytes reply)
    (later : Steps access ⟨left, next reply, toLeft ++ [bytes], toRight, true⟩ last) :
    Steps access ⟨left, .call op next, toLeft, toRight, true⟩ last := by
  have advanced : advance access (.call op next) toRight = some (next reply, [bytes], toRight, true) := by
    simp [advance, writes]
  exact .head (.right advanced) later

theorem advance_read {op : I.Op} {next : I.Reply op → Proc I A} {size : Nat} {reply : Block size → I.Reply op}
    (reads : access op = .read size reply) (block : Block size) (inbox : List Bytes) (some : size ≠ 0) :
    advance access (.call op next) (block.toList :: inbox) = .some (next (reply block), [], inbox, true) := by
  obtain ⟨size, rfl⟩ := Nat.exists_eq_succ_of_ne_zero some
  simp [advance, reads, dropBytes, exactly]

theorem Steps.left_read (op : I.Op) {next : I.Reply op → Proc I A} {size : Nat} {reply : Block size → I.Reply op}
    (block : Block size) (reads : access op = .read size reply) (some : size ≠ 0)
    (later : Steps access ⟨next (reply block), right, toLeft, toRight, true⟩ last) :
    Steps access ⟨.call op next, right, block.toList :: toLeft, toRight, true⟩ last := by
  refine .head (.left (advance_read reads block toLeft some)) ?_
  rwa [List.append_nil]

theorem Steps.right_read (op : I.Op) {next : I.Reply op → Proc I B} {size : Nat} {reply : Block size → I.Reply op}
    (block : Block size) (reads : access op = .read size reply) (some : size ≠ 0)
    (later : Steps access ⟨left, next (reply block), toLeft, toRight, true⟩ last) :
    Steps access ⟨left, .call op next, toLeft, block.toList :: toRight, true⟩ last := by
  refine .head (.right (advance_read reads block toRight some)) ?_
  rwa [List.append_nil]

end

end Duplex

end Program
