import AgenticStack.Executor.Retained

/-!
# The slots of the sessions and the parents of their turns

An unfinished lease occupies the slot of its session, alone. What it pins stays
pinned: the session's own latest checkpoint if that is the parent, else one that
the session itself does not hold.
-/

namespace AgenticStack
set_option autoImplicit false
open Library

namespace World

variable {w w' : World} {s t l k r p : Nat} {latest parent : Option Nat} {lease : ResponseContinuation}
  {session : ResponseSession}

/-- The state of a session, where there is one. -/
def state (w : World) (s : Nat) : Option SessionState := w.sessions[s]?.map (·.state)

/-- Whether a turn of the session is going on. -/
def isActive (w : World) (s : Nat) : Bool := (w.state s).any (·.active)

/-- Whether the session is closed. -/
def isClosed (w : World) (s : Nat) : Bool := (w.state s).any (·.closed)

/-- The session whose slot the lease occupies. -/
def occupies (w : World) (l : Nat) : Option Nat :=
  w.leases[l]?.bind fun lease => if lease.finished then none else some lease.session

theorem latest_eq : w.latest s = (w.state s).bind (·.latest) := by
  cases found : w.sessions[s]? <;> simp [World.latest, state, found]

/-- One state is changed, and no other. -/
@[simp] theorem state_setState {f : SessionState → SessionState} :
    (w.setState s f).state t = (w.state t).map fun st => if s = t then f st else st := by
  simp only [state, setState, List.getElem?_modify]
  cases w.sessions[t]? with
  | none => rfl
  | some session => by_cases here : s = t <;> simp [here]

@[simp] theorem state_setLease {f : ResponseContinuation → ResponseContinuation} :
    (w.setLease l f).state t = w.state t := rfl

@[simp] theorem state_clone : (w.clone latest).state t = w.state t := rfl

@[simp] theorem state_release : (w.release latest).state t = w.state t := rfl

@[simp] theorem state_addLease : (w.addLease lease).state t = w.state t := rfl

theorem state_disown : (w.disown s).state t = w.state t := by
  simp only [state, disown, List.getElem?_modify]
  cases w.sessions[t]? with
  | none => rfl
  | some session => by_cases here : s = t <;> simp [here]

theorem state_addSession : (w.addSession session).state t =
    if t = w.sessions.length then some session.state else w.state t := by
  simp only [state, addSession]
  grind

@[simp] theorem state_setLatest :
    (w.setLatest s latest).state t = (w.state t).map fun st => if s = t then { st with latest } else st := by
  rw [setLatest, state_release, state_setState]

@[simp] theorem state_setParent : (w.setParent l parent).state t = w.state t := rfl

@[simp] theorem state_finish :
    (w.finish l s).state t = (w.state t).map fun st => if s = t then { st with active := false } else st := by
  rw [finish, state_setLease, state_setState, state_setParent]

@[simp] theorem state_closeSession : (w.closeSession s).state t =
    (w.state t).map fun st => if s = t then { st with closed := true, latest := none } else st := by
  rw [closeSession, state_setLatest, state_setState, Option.map_map]
  congr 1
  funext st
  by_cases here : s = t <;> simp [here]

/-- One turn is changed, and no other. -/
@[simp] theorem leases_setLease {f : ResponseContinuation → ResponseContinuation} :
    (w.setLease l f).leases[k]? = w.leases[k]?.map fun lease => if l = k then f lease else lease := by
  simp only [setLease, List.getElem?_modify]
  rfl

@[simp] theorem leases_setState {f : SessionState → SessionState} : (w.setState s f).leases = w.leases := rfl

@[simp] theorem leases_clone : (w.clone latest).leases = w.leases := rfl

@[simp] theorem leases_release : (w.release latest).leases = w.leases := rfl

theorem leases_addLease : (w.addLease lease).leases[k]? = if k = w.leases.length then some lease else w.leases[k]? := by
  simp only [addLease]
  grind

@[simp] theorem leases_setParent :
    (w.setParent l parent).leases[k]? = w.leases[k]?.map fun lease => if l = k then { lease with parent } else lease := by
  rw [setParent, leases_release, leases_setLease]

@[simp] theorem leases_finish : (w.finish l s).leases[k]? =
    w.leases[k]?.map fun lease => if l = k then { lease with parent := none, finished := true } else lease := by
  rw [finish, leases_setLease, leases_setState, leases_setParent, Option.map_map]
  congr 1
  funext lease
  by_cases here : l = k <;> simp [here]

/-- Unfinished leases and active sessions correspond to each other. -/
structure Slots (w : World) : Prop where
  busy : ∀ l s, w.occupies l = some s → w.isActive s = true
  one : ∀ l l' s, w.occupies l = some s → w.occupies l' = some s → l = l'
  idle : ∀ s, w.isActive s = true → ∃ l, w.occupies l = some s
  ended : ∀ (l : Nat) (lease : ResponseContinuation), w.leases[l]? = some lease → lease.finished = true →
    lease.refs = [] ∧ lease.lookup = none
  closed : ∀ s, w.isClosed s = true → w.latest s = none

/-- A step that neither begins nor ends a lease. -/
structure Quiet (w w' : World) : Prop where
  occupies : ∀ l, w'.occupies l = w.occupies l
  active : ∀ s, w'.isActive s = w.isActive s
  ended : ∀ (l : Nat) (lease' : ResponseContinuation), w'.leases[l]? = some lease' → lease'.finished = true →
    w.leases[l]? = some lease'
  closed : ∀ s, w'.isClosed s = true → (w.isClosed s = true ∧ w'.latest s = w.latest s) ∨ w'.latest s = none

namespace Quiet

/-- Nothing was let go of where the sessions and the turns are the same. -/
theorem of_same (sessions : ∀ s, w'.state s = w.state s) (leases : ∀ l : Nat, w'.leases[l]? = w.leases[l]?) :
    w.Quiet w' := by
  refine ⟨fun l => by rw [World.occupies, World.occupies, leases], fun s => by rw [isActive, isActive, sessions],
    fun l lease found _ => by rw [← leases, found], fun s shut => .inl ⟨?_, by rw [latest_eq, latest_eq, sessions]⟩⟩
  rwa [isClosed, sessions] at shut

/-- Quiet steps are quiet together. -/
theorem trans {w'' : World} (h : w.Quiet w') (h' : w'.Quiet w'') : w.Quiet w'' := by
  refine ⟨fun l => by rw [h'.occupies, h.occupies], fun s => by rw [h'.active, h.active],
    fun l lease found fin => h.ended l lease (h'.ended l lease found fin) fin, fun s shut => ?_⟩
  rcases h'.closed s shut with ⟨before, same⟩ | gone
  · rw [same]
    exact h.closed s before
  · exact .inr gone

/-- Sharing a checkpoint is quiet. -/
theorem clone : w.Quiet (w.clone latest) := of_same (fun _ => rfl) fun _ => rfl

/-- Changing the group is quiet. -/
theorem setGroup {group : ResponseSessionGroup} : w.Quiet (w.setGroup group) := of_same (fun _ => rfl) fun _ => rfl

/-- Letting go of a share is quiet. -/
theorem release : w.Quiet (w.release latest) := of_same (fun _ => rfl) fun _ => rfl

/-- An unfinished lease changes, but not its session. -/
theorem setLease {f : ResponseContinuation → ResponseContinuation} (found : w.leases[l]? = some lease)
    (open_ : ResponseContinuation.finished lease = false) (session : (f lease).session = lease.session)
    (finished : (f lease).finished = false) : w.Quiet (w.setLease l f) := by
  refine ⟨fun k => ?_, fun s => rfl, fun k lease' at_ fin => ?_, fun s shut => .inl ⟨shut, rfl⟩⟩
  · simp only [World.occupies, leases_setLease]
    by_cases here : l = k
    · subst here
      simp [found, open_, session, finished]
    · simp [here]
  · rw [leases_setLease] at at_
    by_cases here : l = k
    · subst here
      simp only [found, if_true, Option.map_some, Option.some.injEq] at at_
      rw [← at_, finished] at fin
      cases fin
    · simpa [here] using at_

/-- A turn that goes on may hold another checkpoint. -/
theorem setParent (found : w.leases[l]? = some lease) (open_ : ResponseContinuation.finished lease = false) :
    w.Quiet (w.setParent l parent) :=
  (setLease found open_ rfl open_).trans release

/-- A session may end with a response where it is not closed. -/
theorem setLatest (allowed : latest = none ∨ w.isClosed s = false) : w.Quiet (w.setLatest s latest) := by
  refine ⟨fun l => rfl, fun t => ?_, fun l lease found _ => found, fun t shut => ?_⟩
  · simp only [isActive, state_setLatest]
    cases w.state t with
    | none => rfl
    | some st => by_cases here : s = t <;> simp [here]
  · simp only [isClosed, latest_eq, state_setLatest] at shut allowed ⊢
    cases found : w.state t with
    | none => simp [found] at shut
    | some st =>
      by_cases here : s = t
      · subst here
        rcases allowed with rfl | open_
        · simp
        · simp [found] at shut open_
          rw [open_] at shut
          cases shut
      · simp only [found, here, if_false, Option.map_some, Option.bind_some] at shut ⊢
        exact .inl ⟨shut, trivial⟩

/-- Closing a session is quiet. -/
theorem closeSession : w.Quiet (w.closeSession s) := by
  refine ⟨fun l => rfl, fun t => ?_, fun l lease found _ => found, fun t shut => ?_⟩
  · simp only [isActive, state_closeSession]
    cases w.state t with
    | none => rfl
    | some st => by_cases here : s = t <;> simp [here]
  · simp only [isClosed, latest_eq, state_closeSession] at shut ⊢
    cases found : w.state t with
    | none => simp [found] at shut
    | some st => by_cases here : s = t <;> simp_all

/-- A session may join that did nothing yet. -/
theorem addSession (inactive : session.state.active = false) (open_ : session.state.closed = false) :
    w.Quiet (w.addSession session) := by
  have none_there : w.state w.sessions.length = none := by simp [state]
  refine ⟨fun l => rfl, fun t => ?_, fun l lease found _ => found, fun t shut => ?_⟩
  · simp only [isActive, state_addSession]
    split
    · rename_i here
      simp [here, none_there, inactive]
    · rfl
  · simp only [isClosed, latest_eq, state_addSession] at shut ⊢
    split at shut
    · simp [open_] at shut
    · rename_i away
      rw [if_neg away]
      exact .inl ⟨shut, rfl⟩

/-- Keeping a checkpoint is quiet. -/
theorem retain {grouped : Bool} {v : ResponseCheckpoint} {bytes : Nat} (retained : w.retain grouped v bytes = .ok w') :
    w.Quiet w' := by
  obtain ⟨charge, rfl, -⟩ := retain_ok retained
  exact of_same (fun _ => rfl) fun _ => rfl

end Quiet

/-- Keeping a checkpoint leaves the turns as they are. -/
theorem leases_retain {grouped : Bool} {v : ResponseCheckpoint} {bytes : Nat}
    (retained : w.retain grouped v bytes = .ok w') : w'.leases = w.leases := by
  obtain ⟨charge, rfl, -⟩ := retain_ok retained
  rfl

namespace Slots

/-- A quiet step leaves every session with at most one turn. -/
theorem quiet (h : w.Slots) (q : w.Quiet w') : w'.Slots := by
  constructor
  · intro l s occ
    rw [q.active]
    exact h.busy l s (q.occupies l ▸ occ)
  · intro l l' s occ occ'
    exact h.one l l' s (q.occupies l ▸ occ) (q.occupies l' ▸ occ')
  · intro s act
    obtain ⟨l, occ⟩ := h.idle s (q.active s ▸ act)
    exact ⟨l, by rw [q.occupies, occ]⟩
  · intro l lease found fin
    exact h.ended l lease (q.ended l lease found fin) fin
  · intro s shut
    rcases q.closed s shut with ⟨before, same⟩ | gone
    · rw [same]
      exact h.closed s before
    · exact gone

/-- The lease gives back its slot. -/
theorem finish (h : w.Slots) (found : w.leases[l]? = some lease) (open_ : ResponseContinuation.finished lease = false)
    (looked : lease.lookup = none) (restored : lease.restored = none) : (w.finish l lease.session).Slots := by
  have here : w.occupies l = some lease.session := by simp [occupies, found, open_]
  have occ (k : Nat) : (w.finish l lease.session).occupies k = if l = k then none else w.occupies k := by
    simp only [occupies, leases_finish]
    by_cases same : l = k
    · subst same
      simp [found]
    · simp [same]
  have act (t : Nat) : (w.finish l lease.session).isActive t = (w.isActive t && lease.session != t) := by
    simp only [isActive, state_finish]
    cases w.state t with
    | none => rfl
    | some st => by_cases same : lease.session = t <;> simp [same]
  constructor
  · intro k s occupied
    rw [occ] at occupied
    split at occupied
    · cases occupied
    · rename_i other
      have apart : lease.session ≠ s := fun same => other (h.one l k s (same ▸ here) occupied)
      simp [act, h.busy k s occupied, apart]
  · intro k k' s occupied occupied'
    rw [occ] at occupied occupied'
    split at occupied
    · cases occupied
    · split at occupied'
      · cases occupied'
      · exact h.one k k' s occupied occupied'
  · intro s active
    rw [act] at active
    obtain ⟨k, occupied⟩ := h.idle s (by simp_all)
    refine ⟨k, ?_⟩
    rw [occ, if_neg ?_]
    · exact occupied
    · rintro rfl
      rw [here] at occupied
      simp_all
  · intro k lease' at_ fin
    rw [leases_finish] at at_
    by_cases same : l = k
    · subst same
      simp only [found, if_true, Option.map_some, Option.some.injEq] at at_
      rw [← at_]
      exact ⟨by simp [ResponseContinuation.refs, restored], looked⟩
    · exact h.ended k lease' (by simpa [same] using at_) fin
  · intro s shut
    have before := h.closed s
    simp only [isClosed, latest_eq, state_finish] at shut before ⊢
    cases found : w.state s with
    | none => simp [found] at shut
    | some st => by_cases same : lease.session = s <;> simp_all

/-- A turn begins where the session has none. -/
theorem «begin» {id : Option Text} (h : w.Slots) (begun : w.begin s id = .ok w') : w'.Slots := by
  obtain ⟨session, parent, lookup, found, open_, idle, -, -, rfl⟩ := begin_ok begun
  have here : w.state s = some session.state := by simp [state, found]
  have free (l : Nat) : w.occupies l ≠ some s := by
    intro occupied
    have active := h.busy l s occupied
    simp [isActive, here, idle] at active
  generalize new : (ResponseContinuation.mk ..) = lease
  have taken : lease.session = s ∧ lease.finished = false := by rw [← new]; exact ⟨rfl, rfl⟩
  have leases (k : Nat) : (((w.setState s fun state => { state with active := true }).clone parent).addLease
      lease).leases[k]? = if k = w.leases.length then some lease else w.leases[k]? := leases_addLease
  have occ (k : Nat) : (((w.setState s fun state => { state with active := true }).clone parent).addLease lease).occupies
      k = if k = w.leases.length then some s else w.occupies k := by
    simp only [occupies, leases]
    split
    · simp [taken]
    · rfl
  have act (t : Nat) : (((w.setState s fun state => { state with active := true }).clone parent).addLease lease).isActive
      t = (w.isActive t || s == t) := by
    simp only [isActive, state_addLease, state_clone, state_setState]
    by_cases same : s = t
    · subst same
      simp [here]
    · simp [same]
  have empty : w.occupies w.leases.length = none := by simp [occupies]
  constructor
  · intro k t occupied
    rw [occ] at occupied
    rw [act]
    split at occupied
    · simp_all
    · simp [h.busy k t occupied]
  · intro k k' t occupied occupied'
    rw [occ] at occupied occupied'
    split at occupied <;> split at occupied'
    · omega
    · obtain rfl : s = t := Option.some.inj occupied
      exact absurd occupied' (free k')
    · obtain rfl : s = t := Option.some.inj occupied'
      exact absurd occupied (free k)
    · exact h.one k k' t occupied occupied'
  · intro t active
    rw [act] at active
    by_cases same : s = t
    · subst same
      exact ⟨w.leases.length, by rw [occ, if_pos rfl]⟩
    · obtain ⟨k, occupied⟩ := h.idle t (by simpa [same] using active)
      refine ⟨k, ?_⟩
      rw [occ, if_neg ?_]
      · exact occupied
      · rintro rfl
        rw [empty] at occupied
        cases occupied
  · intro k lease' at_ fin
    rw [leases] at at_
    split at at_
    · rw [← Option.some.inj at_, taken.2] at fin
      cases fin
    · exact h.ended k lease' at_ fin
  · intro t shut
    have before := h.closed t
    simp only [isClosed, latest_eq, state_addLease, state_clone, state_setState] at shut before ⊢
    cases found : w.state t with
    | none => simp [found] at shut
    | some st => by_cases same : s = t <;> simp_all

/-- A turn that looks for its parent goes on. -/
theorem unfinished_of_lookup (h : w.Slots) (found : w.leases[l]? = some lease)
    (looking : ResponseContinuation.lookup lease ≠ none) : lease.finished = false := by
  cases fin : lease.finished with
  | false => rfl
  | true => exact absurd (h.ended l lease found fin).2 looking

/-- A turn that looked for its parent holds its session. -/
theorem lookupMember (h : w.Slots) : (w.lookupMember l).Slots := by
  rcases lookupMember_cases (w := w) l with same | ⟨lease, found, looking, ⟨rest, goes⟩ | ⟨r, member, -, -, pinned⟩⟩
  · rw [same]
    exact h
  · have open_ := h.unfinished_of_lookup found looking
    rw [goes]
    exact h.quiet (Quiet.setLease found open_ rfl open_)
  · have open_ := h.unfinished_of_lookup found looking
    have set : ((w.clone (some r)).setParent l (some r)).leases[l]? = some { lease with parent := some r } := by
      rw [leases_setParent, leases_clone, found, Option.map_some, if_pos rfl]
    rw [pinned]
    exact h.quiet ((Quiet.clone.trans (Quiet.setParent (by rw [leases_clone]; exact found) open_)).trans
      (Quiet.setLease set open_ rfl open_))

/-- What ends a lease gives back its slot, whatever it does to the latest checkpoint before. -/
theorem ends (h : w.Slots) (settled : w.settled l = some lease) (q : w.Quiet w') (same : w'.leases = w.leases) :
    (w'.finish l lease.session).Slots := by
  obtain ⟨held, restored⟩ := settled_eq_some settled
  obtain ⟨found, open_, looked⟩ := held_eq_some held
  exact (h.quiet q).finish (by rw [same]; exact found) open_ looked restored

/-- A turn that ends leaves its session. -/
theorem dropLease (h : w.Slots) (settled : w.settled l = some lease) (q : w.Quiet w') (same : w'.leases = w.leases) :
    (w'.dropLease l lease).Slots := by
  rw [World.dropLease]
  split
  · exact h.ends settled (q.trans (Quiet.setLatest (.inl rfl))) same
  · exact h.ends settled q same

/-- A turn that publishes leaves its session. -/
theorem publish (h : w.Slots) (settled : w.settled l = some lease) : (w.publish l lease r).2.Slots := by
  have taken : w.Quiet { w with prepared := w.prepared.erase r } := Quiet.of_same (fun _ => rfl) fun _ => rfl
  unfold World.publish
  cases found : w.sessions[lease.session]? with
  | none => exact h.dropLease settled (taken.trans Quiet.release) rfl
  | some session =>
    simp only
    split
    · exact h.dropLease settled (taken.trans Quiet.release) rfl
    · rename_i open_
      refine h.ends settled (taken.trans (Quiet.setLatest (.inr ?_))) rfl
      simpa [isClosed, state, found] using open_

/-- Every step leaves every session with at most one turn. -/
theorem moves (h : w.Slots) (move : w.Moves w') : w'.Slots := by
  cases move with
  | stay => exact h
  | addSession group session limit closed closing members fresh inactive open_ =>
    exact h.quiet (Quiet.setGroup.trans (Quiet.addSession inactive open_))
  | «begin» s id begun => exact h.begin begun
  | lookupMember l => exact h.lookupMember
  | mark l lease f held kept =>
    obtain ⟨found, open_, -⟩ := held_eq_some held
    exact h.quiet (Quiet.setLease found open_ (kept lease).session ((kept lease).finished.trans open_))
  | prepare lease grouped v bytes retained =>
    exact h.quiet ((Quiet.retain retained).trans (Quiet.of_same (fun _ => rfl) fun _ => rfl))
  | dropPrepared r held => exact h.quiet (Quiet.of_same (fun _ => rfl) fun _ => rfl)
  | restore l lease grouped v bytes settled no_parent named retained =>
    obtain ⟨found, open_, -⟩ := held_eq_some (settled_eq_some settled).1
    have same := leases_retain retained
    exact h.quiet ((Quiet.retain retained).trans (Quiet.setLease (by rw [same]; exact found) open_ rfl open_))
  | accept l lease r held restored =>
    obtain ⟨found, open_, -⟩ := held_eq_some held
    have taken : (w.setLease l fun lease => { lease with restored := none }).leases[l]? =
        some { lease with restored := none } := by rw [leases_setLease, found, Option.map_some, if_pos rfl]
    exact h.quiet ((Quiet.setLease found open_ rfl open_).trans (Quiet.setParent taken open_))
  | reject l lease held =>
    obtain ⟨found, open_, -⟩ := held_eq_some held
    exact h.quiet ((Quiet.setLease found open_ rfl open_).trans Quiet.release)
  | publish l lease r settled held => exact h.publish settled
  | dropLease l lease settled => exact h.dropLease settled (Quiet.of_same (fun _ => rfl) fun _ => rfl) rfl
  | discard s => exact h.quiet (Quiet.setLatest (.inl rfl))
  | dropSession s => exact h.quiet ((Quiet.of_same (fun _ => state_disown) fun _ => rfl).trans Quiet.closeSession)
  | dropGroup => exact h.quiet Quiet.setGroup
  | closeMember s rest closing => exact h.quiet (Quiet.setGroup.trans Quiet.closeSession)

end Slots
end World
end AgenticStack
