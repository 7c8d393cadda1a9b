import CesaConn.Daemon.Windows

/-! The group salt is offered only while an invite window is open.

`open_invite` publishes its slot, waits for a port and only then fills the offer;
`end_invite` takes the slot and clears the offer in another step. The ghost state
says what every task is in the middle of, which generations were ever published
as a slot and which networks ever ran. `covered` is what filling an offer and
replacing a slot need to find.
-/

set_option autoImplicit false

namespace CesaConn

open Format Program

namespace Daemon

variable {setup : Setup}

def State.runs (state : State) (number : Nat) : Bool :=
  state.runningNetwork.any fun network => network.number = number

/-- An offer of the running network is filled only under a published slot for it,
and no slot for it is replaced by one for another network. -/
def covered : Op → State → Bool
  | .storeInvite slot, state => state.invite.all fun old => old.offer = slot.offer || !state.runs old.offer
  | .offerSalt slot _, state => state.invite.any (fun stored => stored.offer = slot.offer) || !state.runs slot.offer
  | _, _ => true

def offerWorkload (setup : Setup) : Workload (machine setup) := { windowWorkload setup with allows := fun _ => covered }

/-! ## What the tasks are doing -/

inductive OfferRole where
  | idle
  | claimed (generation : Nat)
  | expiring (generation : Nat)
  | closing (network : Nat)
  | making (network : Nat)
  deriving DecidableEq

structure OfferGhost where
  role : Nat → OfferRole
  stored : Nat → Prop
  published : Nat → Prop

/-- Claimed generations and networks in the making are numbered, new and held by one task. -/
structure OfferRoles (nextInvite nextNetwork : Nat) (ghost : OfferGhost) : Prop where
  claimed : ∀ task generation, ghost.role task = .claimed generation →
    generation < nextInvite ∧ ¬ ghost.stored generation
  claimedOnce : ∀ task other generation, ghost.role task = .claimed generation →
    ghost.role other = .claimed generation → task = other
  making : ∀ task number, ghost.role task = .making number →
    number < nextNetwork ∧ ¬ ghost.published number
  makingOnce : ∀ task other number, ghost.role task = .making number → ghost.role other = .making number →
    task = other

structure OfferInv (state : State) (ghost : OfferGhost) : Prop where
  storedLt : ∀ generation, ghost.stored generation → generation < state.nextInvite
  cancelledStored : ∀ generation, state.cancelled (.window generation) = true → ghost.stored generation
  windowsStored : ∀ generation ∈ state.windows, ghost.stored generation
  inviteStored : ∀ slot, state.invite = some slot → ghost.stored slot.generation
  live : ∀ slot, state.invite = some slot →
    state.cancelled (.window slot.generation) = false ∨ ∃ task, ghost.role task = .expiring slot.generation
  publishedLt : ∀ number, ghost.published number → number < state.nextNetwork
  networkPublished : ∀ network, state.network = some network → ghost.published network.number
  offerPublished : ∀ number, state.saltOffer number ≠ none → ghost.published number
  roles : OfferRoles state.nextInvite state.nextNetwork ghost
  covered : ∀ number, state.runs number = true → state.saltOffer number ≠ none →
    (∃ slot, state.invite = some slot ∧ slot.offer = number) ∨ ∃ task, ghost.role task = .closing number

def offers (setup : Setup) : Discipline (machine setup) OfferGhost where
  inv := OfferInv
  keep task state ghost state' ghost' :=
    ghost'.role task = ghost.role task ∧ (∀ generation, ghost.stored generation → ghost'.stored generation) ∧
      (∀ number, ghost.published number → ghost'.published number) ∧
      ∀ generation ∈ state.windows, generation ∈ state'.windows
  idle task _ ghost := ghost.role task = .idle
  observe _ _ _ _ _ := True
  keep_refl _ _ _ := ⟨rfl, fun _ held => held, fun _ held => held, fun _ held => held⟩
  keep_trans _ _ _ _ _ _ _ first second :=
    ⟨second.1.trans first.1, fun _ held => second.2.1 _ (first.2.1 _ held),
      fun _ held => second.2.2.1 _ (first.2.2.1 _ held), fun _ held => second.2.2.2 _ (first.2.2.2 _ held)⟩
  idle_keep _ _ _ _ _ kept idle := kept.1.trans idle

abbrev Offers (setup : Setup) (task : Nat) {A : Type} (pre : State → OfferGhost → Prop) (program : Task A)
    (post : A → State → OfferGhost → Prop) : Prop :=
  (offers setup).Triple (offerWorkload setup).regime task pre program post

abbrev Role (task : Nat) (role : OfferRole) (_ : State) (ghost : OfferGhost) : Prop := ghost.role task = role

variable {task : Nat}

theorem stable_role (role : OfferRole) : (offers setup).Stable task (Role task role) :=
  fun _ _ _ _ kept same => kept.1.trans same

theorem stable_stored (generation : Nat) : (offers setup).Stable task fun _ ghost => ghost.stored generation :=
  fun _ _ _ _ kept held => kept.2.1 generation held

theorem stable_published (number : Nat) : (offers setup).Stable task fun _ ghost => ghost.published number :=
  fun _ _ _ _ kept held => kept.2.2.1 number held

theorem stable_opened (generation : Nat) : (offers setup).Stable task fun state _ => generation ∈ state.windows :=
  fun _ _ _ _ kept held => kept.2.2.2 generation held

def OfferGhost.become (ghost : OfferGhost) (task : Nat) (role : OfferRole) : OfferGhost :=
  { ghost with role := Function.update ghost.role task role }

@[simp] theorem OfferGhost.role_become (ghost : OfferGhost) (task : Nat) (role : OfferRole) :
    (ghost.become task role).role task = role := by simp [become]

theorem OfferGhost.role_become_of_ne {ghost : OfferGhost} {task other : Nat} {role : OfferRole}
    (different : other ≠ task) : (ghost.become task role).role other = ghost.role other := by
  simp [become, different]

theorem OfferGhost.become_cases {ghost : OfferGhost} {task other : Nat} {role found : OfferRole}
    (same : (ghost.become task role).role other = found) :
    (other = task ∧ role = found) ∨ (other ≠ task ∧ ghost.role other = found) := by
  by_cases own : other = task
  · subst own
    exact .inl ⟨rfl, by simpa using same⟩
  · exact .inr ⟨own, by rwa [role_become_of_ne own] at same⟩

theorem OfferRoles.become {nextInvite nextNetwork : Nat} {ghost : OfferGhost}
    (roles : OfferRoles nextInvite nextNetwork ghost) {task : Nat} {role : OfferRole}
    (plain : ∀ number, role ≠ .claimed number ∧ role ≠ .making number) :
    OfferRoles nextInvite nextNetwork (ghost.become task role) where
  claimed other generation found :=
    (OfferGhost.become_cases found).elim (fun own => absurd own.2 (plain _).1) fun old =>
      roles.claimed other generation old.2
  claimedOnce first second generation found found' :=
    (OfferGhost.become_cases found).elim (fun own => absurd own.2 (plain _).1) fun old =>
      (OfferGhost.become_cases found').elim (fun own => absurd own.2 (plain _).1) fun old' =>
        roles.claimedOnce first second generation old.2 old'.2
  making other number found :=
    (OfferGhost.become_cases found).elim (fun own => absurd own.2 (plain _).2) fun old =>
      roles.making other number old.2
  makingOnce first second number found found' :=
    (OfferGhost.become_cases found).elim (fun own => absurd own.2 (plain _).2) fun old =>
      (OfferGhost.become_cases found').elim (fun own => absurd own.2 (plain _).2) fun old' =>
        roles.makingOnce first second number old.2 old'.2

theorem OfferRoles.claim {nextInvite nextNetwork : Nat} {ghost : OfferGhost}
    (roles : OfferRoles nextInvite nextNetwork ghost) (task : Nat) (fresh : ¬ ghost.stored nextInvite) :
    OfferRoles (nextInvite + 1) nextNetwork (ghost.become task (.claimed nextInvite)) where
  claimed other generation found := by
    rcases OfferGhost.become_cases found with ⟨-, same⟩ | ⟨-, old⟩
    · cases same
      exact ⟨Nat.lt_succ_self _, fresh⟩
    · obtain ⟨small, unstored⟩ := roles.claimed other generation old
      exact ⟨small.trans (Nat.lt_succ_self _), unstored⟩
  claimedOnce first second generation found found' := by
    rcases OfferGhost.become_cases found with ⟨own, same⟩ | ⟨-, old⟩ <;>
      rcases OfferGhost.become_cases found' with ⟨own', same'⟩ | ⟨-, old'⟩
    · exact own.trans own'.symm
    · cases same
      exact absurd (roles.claimed _ _ old').1 (Nat.lt_irrefl _)
    · cases same'
      exact absurd (roles.claimed _ _ old).1 (Nat.lt_irrefl _)
    · exact roles.claimedOnce _ _ _ old old'
  making other number found :=
    (OfferGhost.become_cases found).elim (fun own => nomatch own.2) fun old => roles.making other number old.2
  makingOnce first second number found found' :=
    (OfferGhost.become_cases found).elim (fun own => nomatch own.2) fun old =>
      (OfferGhost.become_cases found').elim (fun own => nomatch own.2) fun old' =>
        roles.makingOnce first second number old.2 old'.2

theorem OfferRoles.make {nextInvite nextNetwork : Nat} {ghost : OfferGhost}
    (roles : OfferRoles nextInvite nextNetwork ghost) (task : Nat) (fresh : ¬ ghost.published nextNetwork) :
    OfferRoles nextInvite (nextNetwork + 1) (ghost.become task (.making nextNetwork)) where
  claimed other generation found :=
    (OfferGhost.become_cases found).elim (fun own => nomatch own.2) fun old =>
      roles.claimed other generation old.2
  claimedOnce first second generation found found' :=
    (OfferGhost.become_cases found).elim (fun own => nomatch own.2) fun old =>
      (OfferGhost.become_cases found').elim (fun own => nomatch own.2) fun old' =>
        roles.claimedOnce first second generation old.2 old'.2
  making other number found := by
    rcases OfferGhost.become_cases found with ⟨-, same⟩ | ⟨-, old⟩
    · cases same
      exact ⟨Nat.lt_succ_self _, fresh⟩
    · obtain ⟨small, unpublished⟩ := roles.making other number old
      exact ⟨small.trans (Nat.lt_succ_self _), unpublished⟩
  makingOnce first second number found found' := by
    rcases OfferGhost.become_cases found with ⟨own, same⟩ | ⟨-, old⟩ <;>
      rcases OfferGhost.become_cases found' with ⟨own', same'⟩ | ⟨-, old'⟩
    · exact own.trans own'.symm
    · cases same
      exact absurd (roles.making _ _ old').1 (Nat.lt_irrefl _)
    · cases same'
      exact absurd (roles.making _ _ old).1 (Nat.lt_irrefl _)
    · exact roles.makingOnce _ _ _ old old'

theorem OfferRoles.store {nextInvite nextNetwork : Nat} {ghost : OfferGhost}
    (roles : OfferRoles nextInvite nextNetwork ghost) {task generation : Nat}
    (own : ghost.role task = .claimed generation) :
    OfferRoles nextInvite nextNetwork
      { ghost.become task .idle with stored := fun other => other = generation ∨ ghost.stored other } where
  claimed other claimed found := by
    rcases OfferGhost.become_cases found with ⟨-, ⟨⟩⟩ | ⟨different, old⟩
    obtain ⟨small, unstored⟩ := roles.claimed other claimed old
    refine ⟨small, fun stored => stored.elim ?_ unstored⟩
    rintro rfl
    exact different (roles.claimedOnce _ _ _ old own)
  claimedOnce := (roles.become (by simp)).claimedOnce
  making := (roles.become (by simp)).making
  makingOnce := (roles.become (by simp)).makingOnce

theorem OfferRoles.publish {nextInvite nextNetwork : Nat} {ghost : OfferGhost}
    (roles : OfferRoles nextInvite nextNetwork ghost) {task number : Nat}
    (own : ghost.role task = .making number) :
    OfferRoles nextInvite nextNetwork
      { ghost.become task .idle with published := fun other => other = number ∨ ghost.published other } where
  claimed := (roles.become (by simp)).claimed
  claimedOnce := (roles.become (by simp)).claimedOnce
  making other made found := by
    rcases OfferGhost.become_cases found with ⟨-, ⟨⟩⟩ | ⟨different, old⟩
    obtain ⟨small, unpublished⟩ := roles.making other made old
    refine ⟨small, fun published => published.elim ?_ unpublished⟩
    rintro rfl
    exact different (roles.makingOnce _ _ _ old own)
  makingOnce := (roles.become (by simp)).makingOnce

/-- A task that is not in the role leaves it to whoever is. -/
theorem OfferGhost.exists_become {ghost : OfferGhost} {task : Nat} {role found : OfferRole}
    (other : ghost.role task ≠ found) (some : ∃ holder, ghost.role holder = found) :
    ∃ holder, (ghost.become task role).role holder = found := by
  obtain ⟨holder, holds⟩ := some
  have different : holder ≠ task := by
    rintro rfl
    exact other holds
  exact ⟨holder, (role_become_of_ne different).trans holds⟩

theorem State.runs_iff {state : State} {number : Nat} :
    state.runs number = true ↔
      ∃ network, state.network = some network ∧ state.cancelled (.network network.number) = false ∧
        network.number = number := by
  simp only [State.runs, State.runningNetwork, Network.running, Option.any_eq_true, decide_eq_true_eq,
    Option.filter_eq_some_iff, Bool.not_eq_true']
  constructor
  · rintro ⟨network, ⟨found, live⟩, same⟩
    exact ⟨network, found, live, same⟩
  · rintro ⟨network, found, live, same⟩
    exact ⟨network, ⟨found, live⟩, same⟩

theorem State.runs_of_cancel {state : State} {token : Token} {number : Nat}
    (running : (state.cancel token).runs number = true) : state.runs number = true := by
  obtain ⟨network, found, live, same⟩ := State.runs_iff.mp running
  refine State.runs_iff.mpr ⟨network, found, ?_, same⟩
  by_cases own : Token.network network.number = token
  · simp [State.cancel, own] at live
  · simpa [State.cancel, own] using live

/-! ## One step -/

@[simp] def Op.Aside (op : Op) : Prop :=
  .invite ∉ op.writes ∧ .nextInvite ∉ op.writes ∧ .windows ∉ op.writes ∧ .cancelled ∉ op.writes ∧
    .offer ∉ op.writes ∧ .contexts ∉ op.writes ∧ .network ∉ op.writes

theorem offers_aside {op : Op} (aside : op.Aside) : (offers setup).Neutral (offerWorkload setup).regime task op := by
  intro before ghost inv _ outcome reply after executed
  have invite : after.invite = before.invite := exec_same executed .invite aside.1
  have nextInvite : after.nextInvite = before.nextInvite := exec_same executed .nextInvite aside.2.1
  have opened : after.windows = before.windows := exec_same executed .windows aside.2.2.1
  have cancelled : after.cancelled = before.cancelled := exec_same executed .cancelled aside.2.2.2.1
  have offer : after.saltOffer = before.saltOffer := exec_same executed .offer aside.2.2.2.2.1
  have contexts : after.nextNetwork = before.nextNetwork := (exec_same executed .contexts aside.2.2.2.2.2.1).2
  have network : after.network = before.network := exec_same executed .network aside.2.2.2.2.2.2
  have runs : after.runs = before.runs := by
    funext number
    simp only [State.runs, State.runningNetwork, network, cancelled]
  refine ⟨?_, trivial, fun other => ⟨rfl, fun _ held => held, fun _ held => held, by rw [opened]; exact fun _ held => held⟩⟩
  obtain ⟨storedLt, cancelledStored, windowsStored, inviteStored, live, publishedLt, networkPublished,
    offerPublished, ⟨claimed, claimedOnce, making, makingOnce⟩, isCovered⟩ := inv
  exact ⟨by rwa [nextInvite], by rwa [cancelled], by rwa [opened], by rwa [invite], by rwa [invite, cancelled],
    by rwa [contexts], by rwa [network], by rwa [offer],
    ⟨by rwa [nextInvite], claimedOnce, by rwa [contexts], makingOnce⟩, by rwa [runs, offer, invite]⟩

theorem offers_listenerFails (number : Nat) :
    (offers setup).Neutral (offerWorkload setup).regime task (.listenerFails number) := by
  intro before ghost inv _ outcome reply after executed
  cases executed
  refine ⟨{ inv with cancelledStored := ?_, live := ?_, covered := ?_ }, trivial,
    fun other => ⟨rfl, fun _ held => held, fun _ held => held, fun _ held => held⟩⟩
  · intro generation cancelled
    exact inv.cancelledStored generation (by simpa [State.cancel] using cancelled)
  · intro slot found
    simpa [State.cancel] using inv.live slot found
  · intro running number offered
    exact inv.covered _ (State.runs_of_cancel number) offered

theorem keeps_become {before after : State} {ghost : OfferGhost} {role : OfferRole}
    (opened : ∀ generation ∈ before.windows, generation ∈ after.windows) :
    ∀ other, other ≠ task → (offers setup).keep other before ghost after (ghost.become task role) :=
  fun _ different => ⟨OfferGhost.role_become_of_ne different, fun _ held => held, fun _ held => held, opened⟩

theorem offers_claimWindow (number : Nat) :
    Offers setup task (fun state ghost => Role task .idle state ghost ∧ ghost.published number) (await .claimWindow)
      fun reply state ghost =>
        match reply with
        | .ok (some claim) => Role task (.claimed claim.generation) state ghost ∧ ghost.published number
        | _ => Role task .idle state ghost := by
  refine Discipline.Triple.call ((stable_role _).and (stable_published _)) ?_
  rintro before ghost ⟨idle, published⟩ inv _ outcome reply after executed
  rcases claimWindow_cases executed with ⟨rfl, other⟩ | ⟨dSalt, unset, rfl, rfl⟩
  · refine ⟨ghost, inv, trivial, fun _ _ => (offers setup).keep_refl _ _ _, ?_⟩
    dsimp only
    split
    · exact absurd rfl (other _)
    · exact idle
  · have fresh : ¬ ghost.stored before.nextInvite := fun stored => Nat.lt_irrefl _ (inv.storedLt _ stored)
    refine ⟨ghost.become task (.claimed before.nextInvite), ?_, trivial, keeps_become fun _ held => held,
      OfferGhost.role_become _ _ _, published⟩
    refine { inv with storedLt := ?_, live := ?_, roles := inv.roles.claim task fresh, covered := ?_ }
    · exact fun generation stored => (inv.storedLt generation stored).trans (Nat.lt_succ_self _)
    · intro slot found
      exact (inv.live slot found).imp_right (OfferGhost.exists_become (by simp [idle]))
    · intro number running offered
      exact (inv.covered number running offered).imp_right (OfferGhost.exists_become (by simp [idle]))

theorem offers_storeInvite (slot : InviteSlot) :
    Offers setup task
      (fun state ghost => Role task (.claimed slot.generation) state ghost ∧ ghost.published slot.offer)
      (await (.storeInvite slot)) fun _ state ghost =>
        Role task .idle state ghost ∧ ghost.stored slot.generation ∧ ghost.published slot.offer := by
  refine Discipline.Triple.call ((stable_role _).and (stable_published _)) ?_
  rintro before ghost ⟨own, published⟩ inv allowed outcome reply after executed
  cases executed
  obtain ⟨small, unstored⟩ := inv.roles.claimed _ _ own
  have replaced : covered (.storeInvite slot) before := allowed
  refine ⟨{ ghost.become task .idle with stored := fun other => other = slot.generation ∨ ghost.stored other },
    ?_, trivial, ?_, OfferGhost.role_become _ _ _, .inl rfl, published⟩
  · refine { inv with
      storedLt := ?_, cancelledStored := ?_, windowsStored := ?_, inviteStored := ?_, live := ?_,
      roles := inv.roles.store own, covered := ?_ }
    · rintro generation (rfl | stored)
      · exact small
      · exact inv.storedLt generation stored
    · exact fun generation cancelled => .inr (inv.cancelledStored generation cancelled)
    · exact fun generation member => .inr (inv.windowsStored generation member)
    · rintro _ ⟨⟩
      exact .inl rfl
    · -- nobody can have cancelled the token of a window that was not published
      rintro _ ⟨⟩
      refine .inl (Bool.eq_false_iff.mpr fun cancelled => ?_)
      exact unstored (inv.cancelledStored _ cancelled)
    · intro number running offered
      rcases inv.covered number running offered with ⟨old, found, rfl⟩ | closing
      · refine .inl ⟨slot, rfl, ?_⟩
        have stopped : before.runs old.offer = true := running
        simpa [covered, found, stopped, eq_comm] using replaced
      · exact .inr (OfferGhost.exists_become (by simp [own]) closing)
  · exact fun other different =>
      ⟨OfferGhost.role_become_of_ne different, fun _ held => .inr held, fun _ held => held, fun _ held => held⟩

theorem offers_offerSalt (slot : InviteSlot) (dSalt : Vault.Salt) :
    Offers setup task
      (fun state ghost => Role task .idle state ghost ∧ ghost.stored slot.generation ∧ ghost.published slot.offer)
      (await (.offerSalt slot dSalt)) fun _ => Role task .idle := by
  refine Discipline.Triple.call ((stable_role _).and ((stable_stored _).and (stable_published _))) ?_
  rintro before ghost ⟨idle, stored, published⟩ inv allowed outcome reply after executed
  cases executed
  have under : covered (.offerSalt slot dSalt) before := allowed
  refine ⟨ghost, { inv with windowsStored := ?_, offerPublished := ?_, covered := ?_ }, trivial,
    fun _ _ => ⟨rfl, fun _ held => held, fun _ held => held, fun _ held => List.mem_cons_of_mem _ held⟩, idle⟩
  · intro generation member
    rcases List.mem_cons.mp member with rfl | member
    · exact stored
    · exact inv.windowsStored generation member
  · intro number offered
    by_cases own : number = slot.offer
    · exact own ▸ published
    · exact inv.offerPublished number (by simpa [Function.update_of_ne own] using offered)
  · intro number running offered
    by_cases own : number = slot.offer
    · subst own
      have runs : before.runs slot.offer = true := running
      simp only [covered, runs, Bool.not_true, Bool.or_false, Option.any_eq_true, decide_eq_true_eq] at under
      exact .inl under
    · exact inv.covered number running (by simpa [Function.update_of_ne own] using offered)

theorem taken_offer {before : State} {ghost : OfferGhost} {slot : InviteSlot} (inv : OfferInv before ghost)
    (found : before.invite = some slot) (free : ∀ number, ghost.role task ≠ .closing number) :
    OfferInv { before.cancel (.window slot.generation) with invite := none }
      (ghost.become task (.closing slot.offer)) := by
  refine { inv with
    cancelledStored := ?_, inviteStored := ?_, live := ?_,
    roles := inv.roles.become (by simp), covered := ?_ }
  · intro generation cancelled
    by_cases own : generation = slot.generation
    · exact own ▸ inv.inviteStored slot found
    · exact inv.cancelledStored generation (by simpa [State.cancel, own] using cancelled)
  · rintro _ ⟨⟩
  · rintro _ ⟨⟩
  · intro number running offered
    rcases inv.covered number (State.runs_of_cancel running) offered with ⟨old, found', rfl⟩ | closing
    · cases found.symm.trans found'
      exact .inr ⟨task, OfferGhost.role_become _ _ _⟩
    · exact .inr (OfferGhost.exists_become (free _) closing)

/-- The task may end the window: it is in the middle of nothing, or it let this window expire. -/
def Ending (task : Nat) (generation : Option Nat) (_ : State) (ghost : OfferGhost) : Prop :=
  ghost.role task = .idle ∨ ∃ expired, generation = some expired ∧ ghost.role task = .expiring expired

theorem stable_ending (generation : Option Nat) : (offers setup).Stable task (Ending task generation) :=
  fun _ _ _ _ kept => Or.imp kept.1.trans (Exists.imp fun _ => And.imp_right kept.1.trans)

theorem Ending.plain {generation : Option Nat} {state : State} {ghost : OfferGhost}
    (ending : Ending task generation state ghost) (number : Nat) : ghost.role task ≠ .closing number := by
  rcases ending with idle | ⟨_, -, expiring⟩
  · simp [idle]
  · simp [expiring]

theorem offers_takeInvite (generation : Option Nat) :
    Offers setup task (Ending task generation) (await (.takeInvite generation)) fun reply state ghost =>
      match reply with
      | some slot => Role task (.closing slot.offer) state ghost
      | none => Role task .idle state ghost := by
  refine Discipline.Triple.call (stable_ending _) ?_
  intro before ghost ending inv _ outcome reply after executed
  rcases takeInvite_cases executed with ⟨rfl, rfl, other⟩ | ⟨slot, found, rfl, -, rfl⟩
  · refine ⟨ghost.become task .idle, ?_, trivial, keeps_become fun _ held => held, OfferGhost.role_become _ _ _⟩
    refine { inv with live := ?_, roles := inv.roles.become (by simp), covered := ?_ }
    · intro slot found
      refine (inv.live slot found).imp_right (OfferGhost.exists_become fun own => ?_)
      -- the window it let expire is not the published one
      obtain ⟨wanted, rfl, different⟩ := other slot found
      rcases ending with idle | ⟨expired, same, expiring⟩
      · simp [idle] at own
      · cases same
        simp only [expiring, OfferRole.expiring.injEq] at own
        exact different own
    · intro number running offered
      exact (inv.covered number running offered).imp_right (OfferGhost.exists_become (ending.plain _))
  · exact ⟨_, taken_offer inv found ending.plain, trivial, keeps_become fun _ held => held,
      OfferGhost.role_become _ _ _⟩

theorem offers_stopInvite :
    Offers setup task (Role task .idle) (await .stopInvite) fun reply state ghost =>
      match reply with
      | some slot => Role task (.closing slot.offer) state ghost
      | none => Role task .idle state ghost := by
  refine Discipline.Triple.call (stable_role _) ?_
  intro before ghost idle inv _ outcome reply after executed
  rcases stopInvite_cases executed with ⟨missing, rfl, rfl⟩ | ⟨slot, found, rfl, rfl⟩
  · exact ⟨ghost, { inv with }, trivial, fun _ _ => (offers setup).keep_refl _ _ _, idle⟩
  · exact ⟨_, taken_offer inv found (by simp [idle]), trivial, keeps_become fun _ held => held,
      OfferGhost.role_become _ _ _⟩

theorem offers_closeOffer (slot : InviteSlot) (generation : Option Nat) :
    Offers setup task (Role task (.closing slot.offer)) (await (.closeOffer slot generation))
      fun _ => Role task .idle := by
  refine Discipline.Triple.call (stable_role _) ?_
  intro before ghost closing inv _ outcome reply after executed
  cases executed
  refine ⟨ghost.become task .idle, ?_, trivial, keeps_become fun _ held => held, OfferGhost.role_become _ _ _⟩
  refine { inv with live := ?_, offerPublished := ?_, roles := inv.roles.become (by simp), covered := ?_ }
  · intro stored found
    exact (inv.live stored found).imp_right (OfferGhost.exists_become (by simp [closing]))
  · intro number offered
    by_cases own : number = slot.offer
    · simp [own] at offered
    · exact inv.offerPublished number (by simpa [Function.update_of_ne own] using offered)
  · intro number running offered
    by_cases own : number = slot.offer
    · simp [own] at offered
    · refine (inv.covered number running ?_).imp_right (OfferGhost.exists_become ?_)
      · simpa [Function.update_of_ne own] using offered
      · simpa [closing] using Ne.symm own

theorem offers_expireWindow (generation : Nat) :
    Offers setup task (fun state ghost => Role task .idle state ghost ∧ generation ∈ state.windows)
      (await (.expireWindow generation)) fun _ => Role task (.expiring generation) := by
  refine Discipline.Triple.call ((stable_role _).and (stable_opened _)) ?_
  rintro before ghost ⟨idle, opened⟩ inv _ outcome reply after executed
  cases executed
  refine ⟨ghost.become task (.expiring generation), ?_, trivial, keeps_become fun _ held => held,
    OfferGhost.role_become _ _ _⟩
  refine { inv with cancelledStored := ?_, live := ?_, roles := inv.roles.become (by simp), covered := ?_ }
  · intro other cancelled
    by_cases own : other = generation
    · exact own ▸ inv.windowsStored generation opened
    · exact inv.cancelledStored other (by simpa [State.cancel, own] using cancelled)
  · intro slot found
    by_cases own : slot.generation = generation
    · exact .inr ⟨task, by rw [own]; exact OfferGhost.role_become _ _ _⟩
    · refine (inv.live slot found).imp ?_ (OfferGhost.exists_become (by simp [idle]))
      intro live
      simpa [State.cancel, own] using live
  · intro number running offered
    exact (inv.covered number (State.runs_of_cancel running) offered).imp_right
      (OfferGhost.exists_become (by simp [idle]))

theorem offers_takeNetwork : (offers setup).Neutral (offerWorkload setup).regime task .takeNetwork := by
  intro before ghost inv _ outcome reply after executed
  rcases takeNetwork_cases executed with ⟨-, -, rfl⟩ | ⟨network, -, -, rfl⟩
  · exact ⟨inv, trivial, fun _ => (offers setup).keep_refl _ _ _⟩
  · refine ⟨{ inv with cancelledStored := ?_, live := ?_, networkPublished := ?_, covered := ?_ }, trivial,
      fun _ => ⟨rfl, fun _ held => held, fun _ held => held, fun _ held => held⟩⟩
    · intro generation cancelled
      exact inv.cancelledStored generation (by simpa [State.cancel] using cancelled)
    · intro slot found
      simpa [State.cancel] using inv.live slot found
    · rintro _ ⟨⟩
    · rintro number ⟨⟩

theorem offers_runningNetwork :
    Offers setup task (Role task .idle) (await .runningNetwork) fun reply state ghost =>
      Role task .idle state ghost ∧ ∀ network, reply = some network → ghost.published network.number := by
  refine Discipline.Triple.call (stable_role _) ?_
  intro before ghost idle inv _ outcome reply after executed
  cases executed
  refine ⟨ghost, inv, trivial, fun _ _ => (offers setup).keep_refl _ _ _, idle, fun network found => ?_⟩
  exact inv.networkPublished network (Option.filter_eq_some_iff.mp found).1

theorem offers_newContext (keys : Keys) (identity : Vault.Identity) :
    Offers setup task (Role task .idle) (await (.newContext keys identity)) fun network =>
      Role task (.making network.number) := by
  refine Discipline.Triple.call (stable_role _) ?_
  intro before ghost idle inv _ outcome reply after executed
  cases executed
  have fresh : ¬ ghost.published before.nextNetwork := fun published =>
    Nat.lt_irrefl _ (inv.publishedLt _ published)
  refine ⟨ghost.become task (.making before.nextNetwork), ?_, trivial, keeps_become fun _ held => held,
    OfferGhost.role_become _ _ _⟩
  refine { inv with live := ?_, publishedLt := ?_, roles := inv.roles.make task fresh, covered := ?_ }
  · intro slot found
    exact (inv.live slot found).imp_right (OfferGhost.exists_become (by simp [idle]))
  · exact fun number published => (inv.publishedLt number published).trans (Nat.lt_succ_self _)
  · intro number running offered
    exact (inv.covered number running offered).imp_right (OfferGhost.exists_become (by simp [idle]))

theorem offers_publishNetwork (network : Network) :
    Offers setup task (Role task (.making network.number)) (await (.publishNetwork network))
      fun _ => Role task .idle := by
  refine Discipline.Triple.call (stable_role _) ?_
  intro before ghost making inv _ outcome reply after executed
  obtain ⟨small, unpublished⟩ := inv.roles.making _ _ making
  rcases publishNetwork_cases executed with ⟨-, rfl⟩ | ⟨-, rfl⟩
  · refine ⟨ghost.become task .idle, ?_, trivial, keeps_become fun _ held => held, OfferGhost.role_become _ _ _⟩
    refine { inv with cancelledStored := ?_, live := ?_, roles := inv.roles.become (by simp), covered := ?_ }
    · intro generation cancelled
      exact inv.cancelledStored generation (by simpa [State.cancel] using cancelled)
    · intro slot found
      refine (inv.live slot found).imp ?_ (OfferGhost.exists_become (by simp [making]))
      intro live
      simpa [State.cancel] using live
    · intro number running offered
      exact (inv.covered number (State.runs_of_cancel running) offered).imp_right
        (OfferGhost.exists_become (by simp [making]))
  · refine ⟨{ ghost.become task .idle with
        published := fun other => other = network.number ∨ ghost.published other }, ?_, trivial, ?_,
      OfferGhost.role_become _ _ _⟩
    · refine { inv with
        live := ?_, publishedLt := ?_, networkPublished := ?_, offerPublished := ?_,
        roles := inv.roles.publish making, covered := ?_ }
      · intro slot found
        exact (inv.live slot found).imp_right (OfferGhost.exists_become (by simp [making]))
      · rintro number (rfl | published)
        · exact small
        · exact inv.publishedLt number published
      · rintro _ ⟨⟩
        exact .inl rfl
      · exact fun number offered => .inr (inv.offerPublished number offered)
      · -- a network that was never published has no offer
        intro number running offered
        obtain ⟨_, found, -, rfl⟩ := State.runs_iff.mp running
        cases found
        exact absurd (inv.offerPublished _ offered) unpublished
    · exact fun other different =>
        ⟨OfferGhost.role_become_of_ne different, fun _ held => held, fun _ held => .inr held, fun _ held => held⟩

/-! ## The functions -/

theorem offers_done {A : Type} {value : A} :
    Offers setup task (Role task .idle) (.done value) fun _ => Role task .idle :=
  Discipline.Triple.done fun _ _ idle => idle

theorem role_await {op : Op} (aside : op.Aside) :
    Offers setup task (Role task .idle) (await op) fun _ => Role task .idle :=
  (offers_aside aside).triple (stable_role _)

theorem role_then {op : Op} {A : Type} {k : Reply op → Task A} {post : A → State → OfferGhost → Prop}
    (aside : op.Aside) (rest : ∀ reply, Offers setup task (Role task .idle) (k reply) post) :
    Offers setup task (Role task .idle) (await op >>= k) post :=
  (role_await aside).bind rest

theorem offers_endInvite (generation : Option Nat) :
    Offers setup task (Ending task generation) (endInvite generation) fun _ => Role task .idle := by
  refine (offers_takeInvite generation).bind fun taken => ?_
  cases taken with
  | none => exact offers_done
  | some slot => exact (offers_closeOffer slot generation).bind fun _ => offers_done

theorem offers_stopNetwork : Offers setup task (Role task .idle) stopNetwork fun _ => Role task .idle := by
  refine (offers_takeNetwork.triple (stable_role _)).bind fun found => ?_
  split
  · refine offers_stopInvite.bind fun taken => ?_
    cases taken with
    | none => exact role_await (by simp)
    | some slot => exact (offers_closeOffer slot none).bind fun _ => role_await (by simp)
  · exact offers_done

theorem offers_startNetwork (identity : Vault.Identity) :
    Offers setup task (Role task .idle) (startNetwork identity) fun _ => Role task .idle := by
  refine role_then (by simp) fun slots => ?_
  split
  · exact offers_done
  · refine role_then (by simp) fun bound => ?_
    split
    · exact (offers_newContext _ _).bind fun network => offers_publishNetwork network
    · exact offers_done

theorem offers_openInvite : Offers setup task (Role task .idle) openInvite fun _ => Role task .idle := by
  refine offers_runningNetwork.bind fun running => ?_
  cases running with
  | none => exact Discipline.Triple.done fun _ _ held => held.1
  | some network =>
      refine Discipline.Triple.bind ((offers_claimWindow network.number).consequence ?_ fun _ _ _ held => held)
        fun claimed => ?_
      · exact fun state ghost held => ⟨held.1, held.2 network rfl⟩
      · rcases claimed with e | _ | claim
        · exact offers_done
        · exact offers_done
        · refine (offers_storeInvite ⟨claim.generation, network.number⟩).bind fun _ => ?_
          have bind : (Op.bind).Aside := by simp [Op.Aside, Op.writes]
          refine ((offers_aside bind).triple ((stable_role _).and ((stable_stored _).and (stable_published _)))).bind
            fun _ => ?_
          exact (offers_offerSalt ⟨claim.generation, network.number⟩ claim.dSalt).bind fun _ => offers_done

theorem offers_addDevice : Offers setup task (Role task .idle) addDevice fun _ => Role task .idle := by
  refine offers_openInvite.bind fun opened => ?_
  cases opened <;> exact offers_done

theorem offers_windowExpires (generation : Nat) :
    Offers setup task (fun state ghost => Role task .idle state ghost ∧ generation ∈ state.windows)
      (windowExpires generation) fun _ => Role task .idle := by
  refine (offers_expireWindow generation).bind fun _ => ?_
  refine Discipline.Triple.bind ((offers_endInvite (some generation)).consequence ?_ fun _ _ _ held => held)
    fun _ => offers_done
  exact fun _ _ expiring => .inr ⟨generation, rfl, expiring⟩

theorem offers_stopAddDevice : Offers setup task (Role task .idle) stopAddDevice fun _ => Role task .idle := by
  refine Discipline.Triple.bind ((offers_endInvite none).consequence (fun _ _ => .inl) fun _ _ _ held => held)
    fun ended => ?_
  split
  · refine role_then (by simp) fun running => ?_
    split
    · exact offers_done
    · exact role_await (by simp)
  · exact offers_done

theorem offers_covered : (offers setup).Covers (offerWorkload setup).regime := by
  refine Discipline.covers_of_jobs fun task job state ghost start => ?_
  obtain ⟨idle, ready⟩ := start
  cases job with
  | addDevice => exact (offers_addDevice.bind fun _ => offers_done) state ghost idle
  | endInvite generation =>
      exact ((offers_endInvite generation).bind fun _ => offers_done) state ghost (.inl idle)
  | windowExpires generation =>
      exact offers_windowExpires generation state ghost ⟨idle, of_decide_eq_true ready⟩
  | stopAddDevice => exact offers_stopAddDevice state ghost idle
  | stopNetwork => exact offers_stopNetwork state ghost idle
  | startNetwork identity => exact offers_startNetwork identity state ghost idle
  | listenerFails network => exact (offers_listenerFails network).triple (stable_role _) state ghost idle

/-! ## Whole runs -/

structure State.NoOffer (state : State) : Prop where
  invite : state.invite = none
  windows : state.windows = []
  network : state.network = none
  offer : ∀ number, state.saltOffer number = none
  cancelled : ∀ generation, state.cancelled (.window generation) = false

/-- The window `invite` holds is for this network's offer and is not over. -/
def State.Offers (state : State) (number : Nat) : Prop :=
  ∃ slot, state.invite = some slot ∧ state.cancelled (.window slot.generation) = false ∧ slot.offer = number

theorem offers_sound {pool : Pool (machine setup)}
    (reached : Reachable (offerWorkload setup).regime State.NoOffer pool) :
    ∃ ghost, (offers setup).Sound (offerWorkload setup).regime pool ghost := by
  refine Discipline.sound_reachable offers_covered ?_ reached
  intro state none
  refine ⟨⟨fun _ => .idle, fun _ => False, fun _ => False⟩, ?_, fun _ => rfl⟩
  refine ⟨?_, ?_, ?_, ?_, ?_, ?_, ?_, ?_, ⟨?_, ?_, ?_, ?_⟩, ?_⟩ <;>
    simp [none.invite, none.windows, none.network, none.offer, none.cancelled]

/-- While offers are only filled under a published window for them: with nothing
in the middle, a running network offers the salt only while its window is open,
and so the salt is only sent to a device that was just paired in that window. -/
theorem salt_offered_in_window {pool : Pool (machine setup)}
    (reached : Reachable (offerWorkload setup).regime State.NoOffer pool) (quiet : pool.Quiet) {network : Network}
    (running : pool.state.runningNetwork = some network) :
    (pool.state.saltOffer network.number ≠ none → pool.state.Offers network.number) ∧
    ∀ newlyPaired dSalt, sendGroupSalt newlyPaired (pool.state.saltOffer network.number) = some dSalt →
      newlyPaired = true ∧ pool.state.Offers network.number := by
  obtain ⟨ghost, sound⟩ := offers_sound reached
  have inv : OfferInv pool.state ghost := sound.1
  have idle : ∀ task, ghost.role task = .idle := (sound.quiet quiet).2
  have runs : pool.state.runs network.number = true := by simp [State.runs, running]
  have offered : pool.state.saltOffer network.number ≠ none → pool.state.Offers network.number := by
    intro filled
    rcases inv.covered _ runs filled with ⟨slot, found, same⟩ | ⟨task, closing⟩
    · rcases inv.live slot found with live | ⟨task, expiring⟩
      · exact ⟨slot, found, live, same⟩
      · simp [idle task] at expiring
    · simp [idle task] at closing
  refine ⟨offered, fun newlyPaired dSalt sent => ?_⟩
  simp only [sendGroupSalt, Option.filter_eq_some_iff] at sent
  exact ⟨sent.2, offered (by simp [sent.1])⟩

theorem unpaired_no_offer : State.NoOffer unpaired := ⟨rfl, rfl, rfl, fun _ => rfl, fun _ => rfl⟩

theorem salt_offered_in_window_opened :
    ∃ pool, Reachable (offerWorkload plainSetup).regime State.NoOffer pool ∧ pool.Quiet ∧
      pool.state.saltOffer 0 = some (.replicate 32 4) ∧ pool.state.Offers 0 := by
  obtain ⟨pool, reached, quiet, running, filled⟩ := Workload.reachable_of_play (W := offerWorkload plainSetup)
    unpaired
    ([.start (.startNetwork (.replicate Vault.identitySeedLen 8)) .done] ++ List.replicate 3 (.resume 0 .done) ++
      [.start .addDevice .done] ++ List.replicate 4 (.resume 1 .done))
    (fun pool => pool.Quiet ∧
      pool.state.runningNetwork = some ⟨0, .replicate Vault.identitySeedLen 8, 0⟩ ∧
      pool.state.saltOffer 0 = some (.replicate 32 4))
    unpaired_no_offer (by decide +kernel)
  exact ⟨pool, reached, quiet, filled, (salt_offered_in_window reached quiet running).1 (by simp [filled])⟩

/-- The user closes Add device while the window waits for its port: the slot is
taken and the offer cleared, and then the offer is filled. -/
def stoppedWhileBinding : List (offerWorkload plainSetup).unrestricted.Move := List.flatten
  [[.start (.startNetwork (.replicate Vault.identitySeedLen 8)) .done], List.replicate 3 (.resume 0 .done),
    [.start .addDevice .done], List.replicate 3 (.resume 1 .done),
    [.start .stopAddDevice .done], List.replicate 3 (.resume 2 .done), [.resume 1 .done]]

theorem salt_offered_without_window :
    ¬ ∀ pool, Reachable (offerWorkload plainSetup).unrestricted.regime State.NoOffer pool → pool.Quiet →
      ∀ network, pool.state.runningNetwork = some network →
        pool.state.saltOffer network.number ≠ none → pool.state.Offers network.number := by
  intro always
  obtain ⟨pool, reached, quiet, running, filled, closed⟩ := Workload.reachable_of_play unpaired stoppedWhileBinding
    (fun pool => pool.Quiet ∧
      pool.state.runningNetwork = some ⟨0, .replicate Vault.identitySeedLen 8, 0⟩ ∧
      pool.state.saltOffer 0 = some (.replicate 32 4) ∧ pool.state.invite = none)
    unpaired_no_offer (by decide +kernel)
  obtain ⟨slot, found, -⟩ := always pool reached quiet _ running (by simp [filled])
  rw [closed] at found
  cases found

end Daemon

end CesaConn
