import CesaConn.Program.History
import Mathlib.Data.List.Perm.Basic

/-! Connections accepted by a loop and served side by side.

A connection is served if a slot is free when it is accepted and the guard lets it in;
otherwise it is closed at once. A served connection runs the program of the service, and
gives its slot back when the program has ended or was dropped.
-/

set_option autoImplicit false

namespace Program

variable {I : Signature} {Conn Shared A : Type}

/-- What a server does with a connection. The guard is asked only when a slot is free. -/
structure Service (I : Signature) (Conn Shared A : Type) where
  slots : Nat
  guard : Conn → Shared → Bool × Shared
  handler : Conn → Proc I A

/-- A connection with a slot: what has been done on it and what is left to do. -/
structure Serving (I : Signature) (Conn A : Type) where
  conn : Conn
  events : List (Event I)
  rest : Proc I A

/-- A connection that had a slot; there is no result if its program was dropped. -/
structure Served (I : Signature) (Conn A : Type) where
  conn : Conn
  events : List (Event I)
  result : Option A

structure Server (I : Signature) (Conn Shared A : Type) where
  shared : Shared
  running : List (Serving I Conn A)
  served : List (Served I Conn A)
  /-- The connections that found a slot free, the newest first. -/
  offered : List Conn
  stopped : Bool

namespace Service

variable (service : Service I Conn Shared A)

/-- What the guard keeps after these connections, the newest first. -/
def sharedAfter (initial : Shared) : List Conn → Shared
  | [] => initial
  | conn :: earlier => (service.guard conn (sharedAfter initial earlier)).2

def admitted (initial : Shared) : List Conn → List Conn
  | [] => []
  | conn :: earlier =>
      if (service.guard conn (service.sharedAfter initial earlier)).1 then conn :: admitted initial earlier
      else admitted initial earlier

end Service

namespace Server

inductive Act (I : Signature) (Conn : Type) where
  | accept (conn : Conn)
  | stop
  | perform (place : Nat) (reply : (op : I.Op) → I.Reply op)
  | finish (place : Nat)
  /-- Cut off by a deadline, by the end of the server, or by the end of its program. -/
  | drop (place : Nat)

def start (initial : Shared) : Server I Conn Shared A := ⟨initial, [], [], [], false⟩

variable (service : Service I Conn Shared A)

def step (server : Server I Conn Shared A) : Act I Conn → Option (Server I Conn Shared A)
  | .accept conn =>
      if server.stopped then none
      -- no free slot: closed at once, never queued
      else if service.slots ≤ server.running.length then some server
      else
        let (allowed, shared) := service.guard conn server.shared
        let server := { server with shared, offered := conn :: server.offered }
        if allowed then some { server with running := server.running ++ [⟨conn, [], service.handler conn⟩] }
        else some server
  | .stop => some { server with stopped := true }
  | .perform place reply =>
      match server.running[place]? with
      | some ⟨conn, events, .call op next⟩ =>
          some { server with running := server.running.set place ⟨conn, events ++ [⟨op, reply op⟩], next (reply op)⟩ }
      | _ => none
  | .finish place =>
      match server.running[place]? with
      | some ⟨conn, events, .done value⟩ =>
          some { server with running := server.running.eraseIdx place, served := server.served ++ [⟨conn, events, some value⟩] }
      | _ => none
  | .drop place =>
      match server.running[place]? with
      | some ⟨conn, events, _⟩ =>
          some { server with running := server.running.eraseIdx place, served := server.served ++ [⟨conn, events, none⟩] }
      | none => none

inductive Reachable (initial : Shared) : Server I Conn Shared A → Prop where
  | start : Reachable initial (.start initial)
  | step {server next : Server I Conn Shared A} (act : Act I Conn) :
      Reachable initial server → server.step service act = some next → Reachable initial next

def run (server : Server I Conn Shared A) : List (Act I Conn) → Option (Server I Conn Shared A)
  | [] => some server
  | act :: rest => (server.step service act).bind fun next => next.run rest

theorem Reachable.run {initial : Shared} {server next : Server I Conn Shared A} {acts : List (Act I Conn)}
    (reachable : Reachable service initial server) (ran : server.run service acts = some next) :
    Reachable service initial next := by
  induction acts generalizing server with
  | nil =>
      cases ran
      exact reachable
  | cons act rest ih =>
      obtain ⟨middle, stepped, later⟩ := Option.bind_eq_some_iff.mp ran
      exact ih (.step act reachable stepped) later

/-- Every connection that ever had a slot, with what was done on it so far. -/
def connections (server : Server I Conn Shared A) : List (Conn × List (Event I)) :=
  server.running.map (fun task => (task.conn, task.events)) ++ server.served.map fun task => (task.conn, task.events)

/-! ## What holds in every run -/

structure Sound (initial : Shared) (server : Server I Conn Shared A) : Prop where
  slots : server.running.length ≤ service.slots
  shared : server.shared = service.sharedAfter initial server.offered
  admitted : (server.connections.map Prod.fst).Perm (service.admitted initial server.offered)
  running : ∀ task ∈ server.running, (service.handler task.conn).Leads task.events task.rest
  served : ∀ task ∈ server.served, ∃ rest, (service.handler task.conn).Leads task.events rest ∧
    ∀ value, task.result = some value → rest = .done value

variable {service} {initial : Shared} {server next : Server I Conn Shared A}

theorem map_connections (server : Server I Conn Shared A) : server.connections.map Prod.fst =
    server.running.map Serving.conn ++ server.served.map Served.conn := by
  rw [connections, List.map_append, List.map_map, List.map_map]
  rfl

theorem conns_set {running : List (Serving I Conn A)} {place : Nat} {task task' : Serving I Conn A}
    (here : running[place]? = some task) (same : task'.conn = task.conn) :
    (running.set place task').map Serving.conn = running.map Serving.conn := by
  have kept : (running.map Serving.conn)[place]? = some task'.conn := by
    rw [List.getElem?_map, here, Option.map_some, same]
  obtain ⟨within, value⟩ := List.getElem?_eq_some_iff.mp kept
  rw [List.map_set, ← value, List.set_getElem_self]

/-- A connection that gives its slot back stays among the connections. -/
theorem perm_eraseIdx {running : List (Serving I Conn A)} {place : Nat} {task : Serving I Conn A}
    {served : List (Served I Conn A)} {result : Served I Conn A} (here : running[place]? = some task)
    (same : result.conn = task.conn) :
    ((running.eraseIdx place).map Serving.conn ++ (served ++ [result]).map Served.conn).Perm
      (running.map Serving.conn ++ served.map Served.conn) := by
  obtain ⟨within, rfl⟩ := List.getElem?_eq_some_iff.mp here
  have taken : (running[place] :: running.eraseIdx place).Perm running := List.getElem_cons_eraseIdx_perm within
  have first := (taken.map Serving.conn).append_right (served.map Served.conn)
  rw [List.map_cons, ← same] at first
  rw [List.map_append, List.map_singleton, ← List.append_assoc]
  exact (List.perm_append_singleton _ _).trans first

theorem Sound.ended {place : Nat} {conn : Conn} {events : List (Event I)} {rest : Proc I A} {result : Option A}
    (sound : Sound service initial server) (here : server.running[place]? = some ⟨conn, events, rest⟩)
    (final : ∀ value, result = some value → rest = .done value) :
    Sound service initial
      { server with running := server.running.eraseIdx place, served := server.served ++ [⟨conn, events, result⟩] } := by
  refine ⟨?_, sound.shared, ?_, ?_, ?_⟩
  · exact Nat.le_trans (List.length_eraseIdx_le server.running place) sound.slots
  · have same := sound.admitted
    rw [map_connections] at same ⊢
    exact (perm_eraseIdx here rfl).trans same
  · intro task member
    exact sound.running task (List.mem_of_mem_eraseIdx member)
  · intro task member
    rcases List.mem_append.mp member with old | new
    · exact sound.served task old
    · rw [List.mem_singleton.mp new]
      exact ⟨rest, sound.running _ (List.mem_of_getElem? here), final⟩

theorem Sound.performed {place : Nat} {conn : Conn} {events : List (Event I)} {op : I.Op}
    {rest : I.Reply op → Proc I A} (sound : Sound service initial server)
    (here : server.running[place]? = some ⟨conn, events, .call op rest⟩) (reply : I.Reply op) :
    Sound service initial
      { server with running := server.running.set place ⟨conn, events ++ [⟨op, reply⟩], rest reply⟩ } := by
  have conns : (server.running.set place ⟨conn, events ++ [⟨op, reply⟩], rest reply⟩).map Serving.conn =
      server.running.map Serving.conn := conns_set here rfl
  refine ⟨?_, sound.shared, ?_, ?_, sound.served⟩
  · rw [List.length_set]
    exact sound.slots
  · have same := sound.admitted
    rw [map_connections] at same ⊢
    dsimp only
    rwa [conns]
  · intro task member
    rcases List.mem_or_eq_of_mem_set member with old | rfl
    · exact sound.running task old
    · have before := sound.running _ (List.mem_of_getElem? here)
      exact before.append (.step (.here _))

theorem sound_step {act : Act I Conn} (sound : Sound service initial server)
    (step : server.step service act = some next) : Sound service initial next := by
  cases act with
  | accept conn =>
      simp only [Server.step] at step
      split at step
      · cases step
      split at step
      · cases step
        exact sound
      next room =>
      have shared : (service.guard conn server.shared).2 = service.sharedAfter initial (conn :: server.offered) := by
        rw [Service.sharedAfter, ← sound.shared]
      split at step
      · next allowed =>
        cases step
        have let_in : service.admitted initial (conn :: server.offered) =
            conn :: service.admitted initial server.offered := by
          rw [Service.admitted, ← sound.shared, if_pos allowed]
        refine ⟨?_, shared, ?_, ?_, sound.served⟩
        · rw [List.length_append, List.length_singleton]
          exact Nat.lt_of_not_le room
        · have same := sound.admitted
          rw [map_connections] at same ⊢
          rw [List.map_append, List.map_singleton, List.append_assoc, let_in]
          exact List.perm_middle.trans (same.cons conn)
        · intro task member
          rcases List.mem_append.mp member with old | new
          · exact sound.running task old
          · rw [List.mem_singleton.mp new]
            exact .here _
      · next refused =>
        cases step
        have kept_out : service.admitted initial (conn :: server.offered) = service.admitted initial server.offered := by
          rw [Service.admitted, ← sound.shared, if_neg refused]
        exact ⟨sound.slots, shared, by rw [kept_out]; exact sound.admitted, sound.running, sound.served⟩
  | stop =>
      cases step
      exact ⟨sound.slots, sound.shared, sound.admitted, sound.running, sound.served⟩
  | perform place reply =>
      simp only [Server.step] at step
      split at step
      · next conn events op rest here =>
        cases step
        exact sound.performed here (reply op)
      · cases step
  | finish place =>
      simp only [Server.step] at step
      split at step
      · next conn events value here =>
        cases step
        exact sound.ended here fun result same => by cases same; rfl
      · cases step
  | drop place =>
      simp only [Server.step] at step
      split at step
      · next conn events rest here =>
        cases step
        exact sound.ended here fun value none => by cases none
      · cases step

theorem Reachable.sound (reachable : Reachable service initial server) : Sound service initial server := by
  induction reachable with
  | start =>
      refine ⟨Nat.zero_le _, rfl, .refl _, ?_, ?_⟩
      · intro task member
        cases member
      · intro task member
        cases member
  | step act _ step ih => exact sound_step ih step

/-- What always holds in the program holds of every connection, whatever the others do. -/
theorem Reachable.connection (reachable : Reachable service initial server) {P : Conn → List (Event I) → Prop}
    {post : Conn → List (Event I) → A → Prop} (always : ∀ conn, (service.handler conn).Always (P conn) (post conn) []) :
    ∀ entry ∈ server.connections, P entry.1 entry.2 := by
  have sound := reachable.sound
  intro entry member
  rcases List.mem_append.mp member with member | member
  · obtain ⟨task, among, rfl⟩ := List.mem_map.mp member
    exact (always task.conn).begins (sound.running task among)
  · obtain ⟨task, among, rfl⟩ := List.mem_map.mp member
    obtain ⟨rest, leads, _⟩ := sound.served task among
    exact (always task.conn).begins leads

end Server

end Program
