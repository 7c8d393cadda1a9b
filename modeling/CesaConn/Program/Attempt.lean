import CesaConn.Program.Triple

/-! Programs that can fail, what they did, and programs under a time limit.

An attempt stops at its first error. A trace lists the operations of one run
with their replies, whoever chose the replies: a statement about all traces of
a program is a statement about every environment.
-/

set_option autoImplicit false

namespace Program

variable {I : Signature} {A B E F : Type}

structure Event (I : Signature) where
  op : I.Op
  reply : I.Reply op

namespace Proc

/-- The program can perform exactly these operations with these replies, and returns `result`. -/
def Traces : Proc I A → List (Event I) → A → Prop
  | .done value, events, result => events = [] ∧ value = result
  | .call op next, events, result => ∃ reply rest, events = ⟨op, reply⟩ :: rest ∧ (next reply).Traces rest result

@[simp] theorem traces_done (value result : A) (events : List (Event I)) :
    (Proc.done value).Traces events result ↔ events = [] ∧ value = result := Iff.rfl

@[simp] theorem traces_call (op : I.Op) (next : I.Reply op → Proc I A) (events : List (Event I)) (result : A) :
    (Proc.call op next).Traces events result ↔
      ∃ reply rest, events = ⟨op, reply⟩ :: rest ∧ (next reply).Traces rest result := Iff.rfl

theorem traces_bind (p : Proc I A) (k : A → Proc I B) (events : List (Event I)) (result : B) :
    (p >>= k).Traces events result ↔
      ∃ first rest value, events = first ++ rest ∧ p.Traces first value ∧ (k value).Traces rest result := by
  induction p generalizing events with
  | done value =>
      constructor
      · intro traced
        exact ⟨[], events, value, rfl, ⟨rfl, rfl⟩, traced⟩
      · rintro ⟨_, rest, _, rfl, ⟨rfl, rfl⟩, traced⟩
        exact traced
  | call op next ih =>
      rw [call_bind]
      constructor
      · rintro ⟨reply, later, rfl, traced⟩
        obtain ⟨first, rest, value, rfl, before, after⟩ := (ih reply later).mp traced
        exact ⟨⟨op, reply⟩ :: first, rest, value, rfl, ⟨reply, first, rfl, before⟩, after⟩
      · rintro ⟨_, rest, value, rfl, ⟨reply, first, rfl, before⟩, after⟩
        exact ⟨reply, first ++ rest, rfl, (ih reply _).mpr ⟨first, rest, value, rfl, before, after⟩⟩

theorem Traces.all {P : I.Op → Prop} {p : Proc I A} {events : List (Event I)} {result : A}
    (traced : p.Traces events result) (within : p.All P) : ∀ event ∈ events, P event.op := by
  induction p generalizing events with
  | done value =>
      obtain ⟨rfl, -⟩ := traced
      simp
  | call op next ih =>
      obtain ⟨reply, rest, rfl, later⟩ := traced
      rintro event (_ | ⟨_, member⟩)
      · exact within.1
      · exact ih reply later (within.2 reply) event member

theorem All.mono {P Q : I.Op → Prop} {p : Proc I A} (within : p.All P) (weaker : ∀ op, P op → Q op) : p.All Q := by
  induction p with
  | done value => trivial
  | call op next ih => exact ⟨weaker op within.1, fun reply => ih reply (within.2 reply)⟩

/-- The first program gets to the second one with these operations and replies. -/
inductive Leads : Proc I A → List (Event I) → Proc I A → Prop where
  | here (p : Proc I A) : Leads p [] p
  | step {op : I.Op} {next : I.Reply op → Proc I A} {reply : I.Reply op} {events : List (Event I)} {last : Proc I A}
      (later : Leads (next reply) events last) : Leads (.call op next) (⟨op, reply⟩ :: events) last

theorem Leads.of_nil {p last : Proc I A} (leads : p.Leads [] last) : p = last := by
  cases leads
  rfl

theorem Leads.of_cons {event : Event I} {events : List (Event I)} {p last : Proc I A} (leads : p.Leads (event :: events) last) :
    ∃ next, p = .call event.op next ∧ (next event.reply).Leads events last := by
  cases leads with
  | step later => exact ⟨_, rfl, later⟩

theorem Traces.leads {first rest : List (Event I)} {p : Proc I A} {result : A} (traced : p.Traces (first ++ rest) result) :
    ∃ last, p.Leads first last ∧ last.Traces rest result := by
  induction first generalizing p with
  | nil => exact ⟨p, .here p, traced⟩
  | cons event first ih =>
      cases p with
      | done value => cases traced.1
      | call op next =>
          obtain ⟨reply, _, same, later⟩ := traced
          cases same
          obtain ⟨last, leads, remaining⟩ := ih later
          exact ⟨last, .step leads, remaining⟩

def answered (reply : (op : I.Op) → I.Reply op) : Proc I A → List (Event I) × A
  | .done value => ([], value)
  | .call op next => (⟨op, reply op⟩ :: ((next (reply op)).answered reply).1, ((next (reply op)).answered reply).2)

theorem traces_answered (reply : (op : I.Op) → I.Reply op) (p : Proc I A) :
    p.Traces (p.answered reply).1 (p.answered reply).2 := by
  induction p with
  | done value => exact ⟨rfl, rfl⟩
  | call op next ih => exact ⟨reply op, _, rfl, ih (reply op)⟩

theorem reply_of_answered (reply : (op : I.Op) → I.Reply op) (p : Proc I A) :
    ∀ event ∈ (p.answered reply).1, event.reply = reply event.op := by
  induction p with
  | done value => simp [answered]
  | call op next ih =>
      rintro event (_ | ⟨_, member⟩)
      · rfl
      · exact ih _ event member

theorem answered_bind (reply : (op : I.Op) → I.Reply op) (p : Proc I A) (k : A → Proc I B) :
    ((p >>= k).answered reply).2 = ((k (p.answered reply).2).answered reply).2 := by
  induction p with
  | done value => rfl
  | call op next ih => exact ih (reply op)

theorem answered_congr {P : I.Op → Prop} {p : Proc I A} (within : p.All P) {reply reply' : (op : I.Op) → I.Reply op}
    (same : ∀ op, P op → reply op = reply' op) : p.answered reply = p.answered reply' := by
  induction p with
  | done value => rfl
  | call op next ih =>
      simp only [answered, same op within.1, ih _ (within.2 _)]

/-! ## Time limits -/

/-- The program under a time limit: the clock is asked before every operation. -/
def limited (clock : I.Op) (late : I.Reply clock → Bool) : Proc I A → Proc I (Option A)
  | .done value => .done (some value)
  | .call op next => .call clock fun reply =>
      if late reply then .done none else .call op fun answer => (next answer).limited clock late

theorem all_limited {P : I.Op → Prop} {clock : I.Op} {late : I.Reply clock → Bool} {p : Proc I A}
    (within : p.All P) (ticks : P clock) : (p.limited clock late).All P := by
  induction p with
  | done value => trivial
  | call op next ih =>
      refine ⟨ticks, fun reply => ?_⟩
      by_cases expired : late reply
      · simp only [if_pos expired]
        trivial
      · simp only [if_neg expired]
        exact ⟨within.1, fun answer => ih answer (within.2 answer)⟩

/-- A run that ends in time is a run of the program, as far as one looks past the clock. -/
theorem traces_limited {clock : I.Op} {late : I.Reply clock → Bool} {p : Proc I A} {events : List (Event I)} {value : A}
    (traced : (p.limited clock late).Traces events (some value)) :
    ∃ own, p.Traces own value ∧ ∀ (B : Type) (view : Event I → Option B),
      (∀ reply, view ⟨clock, reply⟩ = none) → own.filterMap view = events.filterMap view := by
  induction p generalizing events with
  | done result =>
      obtain ⟨rfl, same⟩ := traced
      cases same
      exact ⟨[], ⟨rfl, rfl⟩, fun _ _ _ => rfl⟩
  | call op next ih =>
      obtain ⟨reply, rest, rfl, later⟩ := traced
      by_cases expired : late reply
      · simp only [if_pos expired] at later
        cases later.2
      · simp only [if_neg expired] at later
        obtain ⟨answer, after, rfl, remaining⟩ := later
        obtain ⟨own, traces, agrees⟩ := ih answer remaining
        refine ⟨⟨op, answer⟩ :: own, ⟨answer, own, rfl, traces⟩, fun B view blind => ?_⟩
        simp [List.filterMap_cons, blind, agrees B view blind]

theorem answered_limited {clock : I.Op} {late : I.Reply clock → Bool} {reply : (op : I.Op) → I.Reply op} {p : Proc I A}
    (early : late (reply clock) = false) : ((p.limited clock late).answered reply).2 = some (p.answered reply).2 := by
  induction p with
  | done value => rfl
  | call op next ih => simp [limited, answered, early, ih]

end Proc

/-! ## Attempts -/

abbrev Attempt (I : Signature) (E A : Type) := ExceptT E (Proc I) A

namespace Attempt

def perform (op : I.Op) : Attempt I E (I.Reply op) := ExceptT.lift (Proc.perform op)

def outcome (x : Attempt I E A) : Attempt I F (Except E A) := ExceptT.lift x.run

def require (value : Option A) (error : E) : Attempt I E A :=
  match value with
  | some value => pure value
  | none => throw error

def ensure (condition : Bool) (error : E) : Attempt I E Unit :=
  if condition then pure () else throw error

def mapError (f : E → F) (x : Attempt I E A) : Attempt I F A :=
  ExceptT.mk (x.run >>= fun result => .done (result.mapError f))

def Yields (x : Attempt I E A) (events : List (Event I)) (value : A) : Prop := x.run.Traces events (.ok value)

@[simp] theorem run_perform (op : I.Op) : (perform op : Attempt I E _).run = .call op fun reply => .done (.ok reply) := rfl

@[simp] theorem run_require_some (value : A) (error : E) : (require (some value) error : Attempt I E A).run = .done (.ok value) := rfl

@[simp] theorem run_ensure_true (error : E) : (ensure true error : Attempt I E Unit).run = .done (.ok ()) := rfl

@[simp] theorem yields_pure (value result : A) (events : List (Event I)) :
    Yields (pure value : Attempt I E A) events result ↔ events = [] ∧ value = result := by
  simp [Yields]

@[simp] theorem yields_throw (error : E) (events : List (Event I)) (result : A) :
    ¬ Yields (throw error : Attempt I E A) events result := by
  rintro ⟨_, same⟩
  cases same

@[simp] theorem yields_perform (op : I.Op) (events : List (Event I)) (result : I.Reply op) :
    Yields (perform op : Attempt I E _) events result ↔ events = [⟨op, result⟩] := by
  simp only [Yields, run_perform, Proc.traces_call, Proc.traces_done, Except.ok.injEq]
  constructor
  · rintro ⟨_, _, rfl, rfl, rfl⟩
    rfl
  · rintro rfl
    exact ⟨result, [], rfl, rfl, rfl⟩

@[simp] theorem yields_require (value : Option A) (error : E) (events : List (Event I)) (result : A) :
    Yields (require value error : Attempt I E A) events result ↔ events = [] ∧ value = some result := by
  cases value <;> simp [require]

@[simp] theorem yields_ensure (condition : Bool) (error : E) (events : List (Event I)) (result : Unit) :
    Yields (ensure condition error : Attempt I E Unit) events result ↔ events = [] ∧ condition := by
  cases condition <;> simp [ensure]

@[simp] theorem yields_lift (p : Proc I A) (events : List (Event I)) (result : A) :
    Yields (ExceptT.lift p : Attempt I E A) events result ↔ p.Traces events result := by
  simp only [Yields, ExceptT.run_lift, map_eq_pure_bind, Proc.traces_bind]
  constructor
  · rintro ⟨first, rest, value, rfl, traced, rfl, same⟩
    cases same
    simpa using traced
  · intro traced
    exact ⟨events, [], result, by simp, traced, rfl, rfl⟩

@[simp] theorem yields_outcome (x : Attempt I E A) (events : List (Event I)) (result : Except E A) :
    Yields (outcome x : Attempt I F _) events result ↔ x.run.Traces events result :=
  yields_lift x.run events result

theorem run_bind (x : Attempt I E A) (f : A → Attempt I E B) :
    (x >>= f).run = x.run >>= fun
      | .ok value => (f value).run
      | .error error => .done (.error error) := by
  rw [ExceptT.run_bind]
  refine congrArg (x.run >>= ·) (funext fun result => ?_)
  cases result <;> rfl

theorem yields_bind (x : Attempt I E A) (f : A → Attempt I E B) (events : List (Event I)) (result : B) :
    Yields (x >>= f) events result ↔
      ∃ first rest value, events = first ++ rest ∧ Yields x first value ∧ Yields (f value) rest result := by
  rw [Yields, run_bind, Proc.traces_bind]
  constructor
  · rintro ⟨first, rest, value | value, same, before, after⟩
    · cases after.2
    · exact ⟨first, rest, value, same, before, after⟩
  · rintro ⟨first, rest, value, same, before, after⟩
    exact ⟨first, rest, .ok value, same, before, after⟩

/-- A run of two parts is a run of the first alone, if that fails, or of both. -/
theorem traces_bind (x : Attempt I E A) (f : A → Attempt I E B) (events : List (Event I)) (result : Except E B) :
    (x >>= f).run.Traces events result ↔
      (∃ error, x.run.Traces events (.error error) ∧ result = .error error) ∨
      ∃ first rest value, events = first ++ rest ∧ x.run.Traces first (.ok value) ∧ (f value).run.Traces rest result := by
  rw [run_bind, Proc.traces_bind]
  constructor
  · rintro ⟨first, rest, error | value, rfl, before, after⟩
    · obtain ⟨rfl, rfl⟩ := after
      rw [List.append_nil]
      exact .inl ⟨error, before, rfl⟩
    · exact .inr ⟨first, rest, value, rfl, before, after⟩
  · rintro (⟨error, before, rfl⟩ | ⟨first, rest, value, rfl, before, after⟩)
    · exact ⟨events, [], .error error, (List.append_nil events).symm, before, rfl, rfl⟩
    · exact ⟨first, rest, .ok value, rfl, before, after⟩

theorem traces_mapError (f : E → F) (x : Attempt I E A) (events : List (Event I)) (result : Except F A) :
    (mapError f x).run.Traces events result ↔ ∃ own, x.run.Traces events own ∧ result = own.mapError f := by
  rw [mapError, ExceptT.run_mk, Proc.traces_bind]
  constructor
  · rintro ⟨first, _, own, rfl, before, rfl, rfl⟩
    rw [List.append_nil]
    exact ⟨own, before, rfl⟩
  · rintro ⟨own, traced, rfl⟩
    exact ⟨events, [], own, (List.append_nil events).symm, traced, rfl, rfl⟩

theorem traces_lift {p : Proc I A} {events : List (Event I)} {result : Except E A}
    (traced : (ExceptT.lift p : Attempt I E A).run.Traces events result) : ∃ value, p.Traces events value ∧ result = .ok value := by
  simp only [ExceptT.run_lift, map_eq_pure_bind, Proc.traces_bind] at traced
  obtain ⟨first, _, value, rfl, before, rfl, rfl⟩ := traced
  rw [List.append_nil]
  exact ⟨value, before, rfl⟩

theorem traces_require {value : Option A} {error : E} {events : List (Event I)} {result : Except E A}
    (traced : (require value error : Attempt I E A).run.Traces events result) : events = [] := by
  cases value <;> exact traced.1

theorem yields_perform_bind (op : I.Op) (f : I.Reply op → Attempt I E B) (events : List (Event I)) (result : B) :
    Yields (perform op >>= f) events result ↔
      ∃ reply rest, events = ⟨op, reply⟩ :: rest ∧ Yields (f reply) rest result := Iff.rfl

@[simp] theorem yields_mapError (f : E → F) (x : Attempt I E A) (events : List (Event I)) (result : A) :
    Yields (mapError f x) events result ↔ Yields x events result := by
  simp only [Yields, mapError, ExceptT.run_mk, Proc.traces_bind]
  constructor
  · rintro ⟨first, rest, value | value, rfl, before, rfl, same⟩
    · cases same
    · cases same
      simpa using before
  · intro traced
    exact ⟨events, [], .ok result, by simp, traced, rfl, rfl⟩

def All (P : I.Op → Prop) (x : Attempt I E A) : Prop := x.run.All P

theorem all_pure {P : I.Op → Prop} (value : A) : All P (pure value : Attempt I E A) := trivial

theorem all_throw {P : I.Op → Prop} (error : E) : All P (throw error : Attempt I E A) := trivial

theorem all_perform {P : I.Op → Prop} {op : I.Op} (holds : P op) : All P (perform op : Attempt I E _) :=
  ⟨holds, fun _ => trivial⟩

theorem all_require {P : I.Op → Prop} (value : Option A) (error : E) : All P (require value error : Attempt I E A) := by
  cases value <;> trivial

theorem all_ensure {P : I.Op → Prop} (condition : Bool) (error : E) : All P (ensure condition error : Attempt I E Unit) := by
  cases condition <;> trivial

theorem all_lift {P : I.Op → Prop} {p : Proc I A} (within : p.All P) : All P (ExceptT.lift p : Attempt I E A) :=
  Proc.all_bind within fun _ => trivial

theorem all_bind {P : I.Op → Prop} {x : Attempt I E A} {f : A → Attempt I E B}
    (first : All P x) (rest : ∀ value, All P (f value)) : All P (x >>= f) := by
  refine Proc.all_bind first fun result => ?_
  cases result with
  | ok value => exact rest value
  | error error => trivial

theorem all_mapError {P : I.Op → Prop} {f : E → F} {x : Attempt I E A} (within : All P x) : All P (mapError f x) :=
  Proc.all_bind within fun _ => trivial

/-- An operation the first part cannot perform is one of the second. -/
theorem mem_of_traces_bind {P : I.Op → Prop} {x : Attempt I E A} {f : A → Attempt I E B} {events : List (Event I)}
    {result : Except E B} {event : Event I} (within : All P x) (traced : (x >>= f).run.Traces events result)
    (member : event ∈ events) (outside : ¬ P event.op) :
    ∃ value rest, (f value).run.Traces rest result ∧ event ∈ rest := by
  rw [run_bind, Proc.traces_bind] at traced
  obtain ⟨first, rest, value, rfl, before, after⟩ := traced
  have later : event ∈ rest := (List.mem_append.mp member).resolve_left fun first =>
    outside (before.all within event first)
  cases value with
  | ok value => exact ⟨value, rest, after, later⟩
  | error error =>
      obtain ⟨rfl, -⟩ := after
      cases later

/-! ## One environment -/

def returns (reply : (op : I.Op) → I.Reply op) (x : Attempt I E A) : Except E A := (x.run.answered reply).2

theorem traces_returns (reply : (op : I.Op) → I.Reply op) (x : Attempt I E A) :
    x.run.Traces (x.run.answered reply).1 (x.returns reply) :=
  Proc.traces_answered reply x.run

section

variable {reply : (op : I.Op) → I.Reply op}

theorem returns_bind {x : Attempt I E A} {f : A → Attempt I E B} {value : A} (first : x.returns reply = .ok value) :
    (x >>= f).returns reply = (f value).returns reply := by
  unfold returns at *
  rw [run_bind, Proc.answered_bind, first]

theorem returns_then {x : Attempt I E A} {f : A → Attempt I E B} {value : A} {result : B}
    (first : x.returns reply = .ok value) (second : (f value).returns reply = .ok result) :
    (x >>= f).returns reply = .ok result :=
  (returns_bind first).trans second

theorem returns_require {value : Option A} {found : A} {error : E} (same : value = some found) :
    (require value error : Attempt I E A).returns reply = .ok found := by
  subst same
  rfl

theorem returns_ensure {condition : Bool} {error : E} (holds : condition) :
    (ensure condition error : Attempt I E Unit).returns reply = .ok () := by
  subst holds
  rfl

theorem returns_lift (p : Proc I A) :
    returns reply (ExceptT.lift p : Attempt I E A) = .ok (p.answered reply).2 :=
  Proc.answered_bind reply p _

end

end Attempt

/-! ## Attempts under a discipline -/

namespace Discipline

variable {M : Machine I} {Ghost : Type} {D : Discipline M Ghost} {R : Regime M} {task : Nat}

/-- A triple of an attempt promises its postcondition on success, and nothing on failure. -/
def Attempts (D : Discipline M Ghost) (R : Regime M) (task : Nat) (pre : M.State → Ghost → Prop)
    (x : Attempt I E A) (post : A → M.State → Ghost → Prop) : Prop :=
  D.Triple R task pre x.run fun result state ghost => ∀ value, result = .ok value → post value state ghost

theorem Attempts.bind {pre : M.State → Ghost → Prop} {mid : A → M.State → Ghost → Prop}
    {post : B → M.State → Ghost → Prop} {x : Attempt I E A} {f : A → Attempt I E B}
    (first : D.Attempts R task pre x mid) (rest : ∀ value, D.Attempts R task (mid value) (f value) post) :
    D.Attempts R task pre (x >>= f) post := by
  refine Triple.bind first fun result => ?_
  cases result with
  | ok value => exact (rest value).consequence (fun _ _ holds => holds value rfl) fun _ _ _ holds => holds
  | error error =>
      refine Triple.done fun _ _ _ value same => ?_
      cases same

theorem Attempts.pure {pre : M.State → Ghost → Prop} {post : A → M.State → Ghost → Prop} {value : A}
    (holds : ∀ state ghost, pre state ghost → post value state ghost) :
    D.Attempts R task pre (pure value : Attempt I E A) post := by
  refine Triple.done fun state ghost before result same => ?_
  cases same
  exact holds state ghost before

theorem Attempts.throw {pre : M.State → Ghost → Prop} {post : A → M.State → Ghost → Prop} {error : E} :
    D.Attempts R task pre (throw error : Attempt I E A) post := by
  refine Triple.done fun _ _ _ value same => ?_
  cases same

theorem Attempts.consequence {pre strong : M.State → Ghost → Prop} {post weak : A → M.State → Ghost → Prop}
    {x : Attempt I E A} (attempts : D.Attempts R task pre x post)
    (before : ∀ state ghost, strong state ghost → pre state ghost)
    (after : ∀ value state ghost, post value state ghost → weak value state ghost) :
    D.Attempts R task strong x weak :=
  Triple.consequence attempts before fun _ _ _ holds value same => after value _ _ (holds value same)

theorem Attempts.perform {pre : M.State → Ghost → Prop} {op : I.Op} {post : I.Reply op → M.State → Ghost → Prop}
    (triple : D.Triple R task pre (.call op .done) post) :
    D.Attempts R task pre (Attempt.perform op : Attempt I E _) post := by
  have returned : ∀ reply, D.Triple R task (post reply) (Proc.done (Except.ok reply) : Proc I (Except E _))
      fun result state ghost => ∀ value, result = .ok value → post value state ghost := by
    intro reply
    refine Triple.done fun _ _ holds value same => ?_
    cases same
    exact holds
  exact Triple.bind triple returned

theorem Attempts.outcome {pre : M.State → Ghost → Prop} {post : Except E A → M.State → Ghost → Prop} {x : Attempt I E A}
    (triple : D.Triple R task pre x.run post) : D.Attempts R task pre (Attempt.outcome x : Attempt I F _) post := by
  refine Triple.bind triple fun result => ?_
  refine Triple.done fun _ _ holds value same => ?_
  cases same
  exact holds

theorem Attempts.result {pre : M.State → Ghost → Prop} {result : Except E A} :
    D.Attempts R task pre (ExceptT.mk (.done result)) fun value state ghost => result = .ok value ∧ pre state ghost :=
  Triple.done fun _ _ before _ same => ⟨same, before⟩

theorem Attempts.ensure {pre : M.State → Ghost → Prop} {condition : Bool} {error : E} :
    D.Attempts R task pre (Attempt.ensure condition error) fun _ state ghost => condition ∧ pre state ghost := by
  cases condition with
  | true => exact Attempts.pure fun _ _ before => ⟨rfl, before⟩
  | false => exact Attempts.throw

theorem Attempts.require {pre : M.State → Ghost → Prop} {value : Option A} {error : E} :
    D.Attempts R task pre (Attempt.require value error) fun found state ghost => value = some found ∧ pre state ghost := by
  cases value with
  | some value => exact Attempts.pure fun _ _ before => ⟨rfl, before⟩
  | none => exact Attempts.throw

/-- A time limit only adds that the program may stop early. -/
theorem Safe.limited {clock : I.Op} {late : I.Reply clock → Bool} {post : A → M.State → Ghost → Prop}
    {program : Proc I A} {state : M.State} {ghost : Ghost} (neutral : D.Neutral R task clock)
    (safe : D.Safe R task post program state ghost) :
    D.Safe R task (fun result state ghost => ∀ value, result = some value → post value state ghost)
      (program.limited clock late) state ghost := by
  induction program generalizing state ghost with
  | done value =>
      rintro _ ⟨⟩
      exact safe
  | call op next ih =>
      intro state₁ ghost₁ kept invariant allowed outcome reply after executed
      obtain ⟨invariant', observed, keeps⟩ := neutral state₁ ghost₁ invariant allowed outcome reply after executed
      refine ⟨ghost₁, invariant', observed, fun other _ => keeps other, ?_⟩
      by_cases expired : late reply
      · simp only [if_pos expired]
        rintro _ ⟨⟩
      · simp only [if_neg expired]
        intro state₂ ghost₂ kept₂ invariant₂ allowed₂ outcome₂ reply₂ after₂ executed₂
        have kept' := D.keep_trans _ _ _ _ _ _ _ (D.keep_trans _ _ _ _ _ _ _ kept (keeps task)) kept₂
        obtain ⟨ghost₃, invariant₃, observed₃, others₃, rest⟩ :=
          safe state₂ ghost₂ kept' invariant₂ allowed₂ outcome₂ reply₂ after₂ executed₂
        exact ⟨ghost₃, invariant₃, observed₃, others₃, ih reply₂ rest⟩

theorem Triple.limited {clock : I.Op} {late : I.Reply clock → Bool} {pre : M.State → Ghost → Prop}
    {post : A → M.State → Ghost → Prop} {program : Proc I A} (neutral : D.Neutral R task clock)
    (triple : D.Triple R task pre program post) :
    D.Triple R task pre (program.limited clock late)
      fun result state ghost => ∀ value, result = some value → post value state ghost :=
  fun state ghost before => Safe.limited neutral (triple state ghost before)

end Discipline

end Program
