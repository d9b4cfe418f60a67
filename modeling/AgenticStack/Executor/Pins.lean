import AgenticStack.Executor.Leases

/-!
# What a turn pins, and what the end of a turn touches

The parent of a lease has the id its request names. When the session's own
latest checkpoint has that id, it is the parent; so the comparison of ids with
which an ending lease looks for its parent never takes another checkpoint for it.
-/

namespace AgenticStack
set_option autoImplicit false
open Library

namespace World

variable {w w' : World} {s t l k r p : Nat} {latest parent : Option Nat} {lease lease' : ResponseContinuation}
  {session : ResponseSession}

@[simp] theorem value_clone : (w.clone latest).checkpoints.value p = w.checkpoints.value p := by
  cases latest <;> simp [clone]

@[simp] theorem value_release : (w.release latest).checkpoints.value p = w.checkpoints.value p := by
  cases latest <;> simp [release]

@[simp] theorem value_setState {f : SessionState → SessionState} :
    (w.setState s f).checkpoints.value p = w.checkpoints.value p := rfl

@[simp] theorem value_setLease {f : ResponseContinuation → ResponseContinuation} :
    (w.setLease l f).checkpoints.value p = w.checkpoints.value p := rfl

@[simp] theorem value_setLatest : (w.setLatest s latest).checkpoints.value p = w.checkpoints.value p := by
  rw [setLatest, value_release, value_setState]

@[simp] theorem value_setParent : (w.setParent l parent).checkpoints.value p = w.checkpoints.value p := by
  rw [setParent, value_release, value_setLease]

@[simp] theorem value_closeSession : (w.closeSession s).checkpoints.value p = w.checkpoints.value p := by
  rw [closeSession, value_setLatest, value_setState]

@[simp] theorem value_finish : (w.finish l s).checkpoints.value p = w.checkpoints.value p := by
  rw [finish, value_setLease, value_setState, value_setParent]

@[simp] theorem value_dropLease : (w.dropLease l lease).checkpoints.value p = w.checkpoints.value p := by
  rw [dropLease, value_finish]
  split
  · exact value_setLatest
  · rfl

@[simp] theorem value_publish : (w.publish l lease r).2.checkpoints.value p = w.checkpoints.value p := by
  unfold publish
  cases w.sessions[lease.session]? with
  | none => simp
  | some session =>
    simp only
    split <;> simp

theorem value_retain {grouped : Bool} {v : ResponseCheckpoint} {bytes : Nat} (retained : w.retain grouped v bytes = .ok w')
    (old : p < w.checkpoints.cells.length) : w'.checkpoints.value p = w.checkpoints.value p := by
  obtain ⟨charge, rfl, -⟩ := retain_ok retained
  exact Arena.value_alloc_of_lt old

/-- **No step changes a checkpoint** that has been made. -/
theorem value_moves (move : w.Moves w') (old : p < w.checkpoints.cells.length) :
    w'.checkpoints.value p = w.checkpoints.value p := by
  cases move with
  | stay => rfl
  | addSession group session limit closed closing members fresh inactive open_ => rfl
  | «begin» s id begun =>
    obtain ⟨session, parent, lookup, -, -, -, -, -, rfl⟩ := begin_ok begun
    exact value_clone
  | lookupMember l =>
    rcases lookupMember_cases (w := w) l with same | ⟨lease, -, -, ⟨rest, goes⟩ | ⟨r, member, -, -, pinned⟩⟩
    · rw [same]
    · rw [goes, value_setLease]
    · rw [pinned, value_setLease, value_setParent, value_clone]
  | mark l lease f held kept => rfl
  | prepare lease grouped v bytes retained =>
    have kept := value_retain retained old
    exact kept
  | dropPrepared r held => exact value_release
  | restore l lease grouped v bytes settled no_parent named retained =>
    have kept := value_retain retained old
    exact kept
  | accept l lease r held restored => rw [value_setParent, value_setLease]
  | reject l lease held => rw [value_release, value_setLease]
  | publish l lease r settled held => exact value_publish
  | dropLease l lease settled => exact value_dropLease
  | discard s => exact value_setLatest
  | dropSession s => exact value_closeSession
  | dropGroup => rfl
  | closeMember s rest closing => exact value_closeSession

/-- What an unfinished lease knows of its parent. -/
structure Pinned (w : World) (lease : ResponseContinuation) : Prop where
  own : ∀ c, w.latest lease.session = some c → lease.previous_id.any (w.hasId c) = true → lease.parent = some c
  matched : ∀ p ∈ lease.refs, lease.previous_id.any (w.hasId p) = true
  alone : lease.restored ≠ none → lease.parent = none
  looking : lease.lookup ≠ none → lease.parent = none ∧ lease.restored = none

/-- What a turn that goes on continues is what it found. -/
def Pins (w : World) : Prop :=
  ∀ (l : Nat) (lease : ResponseContinuation), w.leases[l]? = some lease → lease.finished = false → w.Pinned lease

theorem hasId_congr {id : Text} (same : w'.checkpoints.value p = w.checkpoints.value p) :
    w'.hasId p id = w.hasId p id := by
  rw [hasId, hasId, same]

/-- The lease keeps its parent. -/
structure Keeps (lease lease' : ResponseContinuation) : Prop where
  session : lease'.session = lease.session
  previous_id : lease'.previous_id = lease.previous_id
  parent : lease'.parent = lease.parent
  restored : lease'.restored = lease.restored ∨ lease'.restored = none
  lookup : lease'.lookup = none ∨ lease.lookup ≠ none

/-- A turn keeps what it held. -/
theorem Keeps.refl (lease : ResponseContinuation) : Keeps lease lease := by
  refine ⟨rfl, rfl, rfl, .inl rfl, ?_⟩
  cases lease.lookup <;> simp

theorem any_hasId_congr {id : Option Text} (same : w'.checkpoints.value p = w.checkpoints.value p) :
    id.any (w'.hasId p) = id.any (w.hasId p) := by
  cases id with
  | none => rfl
  | some id => exact hasId_congr same

/-- A lease that keeps its parent keeps what it knows, while its session may lose its latest checkpoint. -/
theorem Pinned.keep (h : w.Pinned lease) (values : ∀ p ∈ w.refs, w'.checkpoints.value p = w.checkpoints.value p)
    (found : w.leases[l]? = some lease) (keeps : Keeps lease lease')
    (latest : w'.latest lease.session = w.latest lease.session ∨ w'.latest lease.session = none) : w'.Pinned lease' := by
  obtain ⟨session, previous_id, parent, restored, lookup⟩ := keeps
  have refs (p : Nat) (mem : p ∈ lease'.refs) : p ∈ lease.refs := by
    rcases restored with same | gone <;> simp_all [ResponseContinuation.refs]
  constructor
  · intro c holds named
    rw [session] at holds
    rcases latest with same | gone
    · rw [same] at holds
      rw [parent]
      refine h.own c holds ?_
      rwa [previous_id, any_hasId_congr (values c (mem_refs_iff.2 (.inl ⟨_, holds⟩)))] at named
    · rw [gone] at holds
      cases holds
  · intro p mem
    have held : p ∈ w.refs := List.mem_append_right _ (List.mem_append_left _
      (List.mem_flatMap.2 ⟨lease, List.mem_of_getElem? found, refs p mem⟩))
    rw [previous_id, any_hasId_congr (values p held)]
    exact h.matched p (refs p mem)
  · intro some_restored
    rw [parent]
    rcases restored with same | gone
    · exact h.alone (same ▸ some_restored)
    · exact absurd gone some_restored
  · intro some_lookup
    rcases lookup with gone | before
    · exact absurd gone some_lookup
    · obtain ⟨no_parent, no_restored⟩ := h.looking before
      exact ⟨by rw [parent, no_parent], restored.elim (fun same => by rw [same, no_restored]) id⟩

/-- Turns that keep what they held stay pinned where the checkpoints do not change. -/
theorem Pins.keep (h : w.Pins) (values : ∀ p ∈ w.refs, w'.checkpoints.value p = w.checkpoints.value p)
    (keeps : ∀ (k : Nat) (lease' : ResponseContinuation), w'.leases[k]? = some lease' → lease'.finished = false →
      ∃ lease : ResponseContinuation, w.leases[k]? = some lease ∧ lease.finished = false ∧ Keeps lease lease' ∧
        (w'.latest lease.session = w.latest lease.session ∨ w'.latest lease.session = none)) : w'.Pins := by
  intro k lease' found' open'
  obtain ⟨lease, found, open_, same, latest⟩ := keeps k lease' found' open'
  exact (h k lease found open_).keep values found same latest

theorem latest_setState {f : SessionState → SessionState} (same : ∀ st, (f st).latest = st.latest) :
    (w.setState s f).latest t = w.latest t := by
  rw [latest_eq, latest_eq, state_setState]
  cases w.state t with
  | none => rfl
  | some st => by_cases here : s = t <;> simp [here, same]

theorem latest_finish : (w.finish l s).latest t = w.latest t := by
  rw [latest_eq, latest_eq, state_finish]
  cases w.state t with
  | none => rfl
  | some st => by_cases here : s = t <;> simp [here]

theorem latest_setLatest_ne (other : s ≠ t) : (w.setLatest s latest).latest t = w.latest t := by
  rw [latest_eq, latest_eq, state_setLatest]
  cases w.state t <;> simp [other]

theorem latest_setLatest_none : (w.setLatest s none).latest s = none := by
  rw [latest_eq, state_setLatest]
  cases w.state s <;> simp

/-- Letting go makes one session end with nothing. -/
theorem latest_setLatest (t : Nat) : (w.setLatest s none).latest t = w.latest t ∨ (w.setLatest s none).latest t = none := by
  by_cases here : s = t
  · exact .inr (here ▸ latest_setLatest_none)
  · exact .inl (latest_setLatest_ne here)

/-- Closing a session makes it end with nothing or leaves it as it was. -/
theorem latest_closeSession (t : Nat) : (w.closeSession s).latest t = w.latest t ∨ (w.closeSession s).latest t = none := by
  rw [closeSession]
  rcases latest_setLatest (w := w.setState s fun state => { state with closed := true }) (s := s) t with same | gone
  · exact .inl (same.trans (latest_setState fun _ => rfl))
  · exact .inr gone

theorem latest_addSession (fresh : session.state.latest = none) : (w.addSession session).latest t = w.latest t := by
  rw [latest_eq, latest_eq, state_addSession]
  split
  · rename_i here
    simp [here, fresh, state]
  · rfl

theorem latest_disown : (w.disown s).latest t = w.latest t := by
  rw [latest_eq, latest_eq, state_disown]

/-- One unfinished lease changes, and knows its parent afterwards; the others keep theirs. -/
theorem Pins.change {f : ResponseContinuation → ResponseContinuation} (h : w.Pins)
    (values : ∀ p ∈ w.refs, w'.checkpoints.value p = w.checkpoints.value p)
    (leases : ∀ k : Nat, w'.leases[k]? = w.leases[k]?.map fun lease => if l = k then f lease else lease)
    (latest : ∀ t, w'.latest t = w.latest t) (found : w.leases[l]? = some lease)
    (pinned : w'.Pinned (f lease)) : w'.Pins := by
  intro k lease' found' open'
  rw [leases] at found'
  by_cases here : l = k
  · subst here
    simp only [found, if_true, Option.map_some, Option.some.injEq] at found'
    rw [← found']
    exact pinned
  · have before : w.leases[k]? = some lease' := by simpa [here] using found'
    exact (h k lease' before open').keep values before (Keeps.refl lease') (.inl (latest _))

/-- The lease ends; leases of other sessions keep their parents. -/
theorem Pins.finish (h : w.Pins) (slots : w.Slots) (found : w.leases[l]? = some lease)
    (open_ : ResponseContinuation.finished lease = false)
    (values : ∀ p ∈ w.refs, w'.checkpoints.value p = w.checkpoints.value p) (leases : w'.leases = w.leases)
    (latest : ∀ t, lease.session ≠ t → w'.latest t = w.latest t) : (w'.finish l lease.session).Pins := by
  refine h.keep (fun p held => by rw [value_finish, values p held]) fun k lease' found' open' => ?_
  rw [leases_finish, leases] at found'
  by_cases here : l = k
  · subst here
    simp only [found, if_true, Option.map_some, Option.some.injEq] at found'
    rw [← found'] at open'
    cases open'
  · have before : w.leases[k]? = some lease' := by simpa [here] using found'
    refine ⟨lease', before, open', Keeps.refl lease', .inl ?_⟩
    rw [latest_finish]
    refine latest _ fun same => here (slots.one l k lease.session ?_ ?_)
    · simp [occupies, found, open_]
    · simp [occupies, before, open', same]

/-- A turn that ends leaves the others pinned. -/
theorem Pins.dropLease (h : w.Pins) (slots : w.Slots) (found : w.leases[l]? = some lease)
    (open_ : ResponseContinuation.finished lease = false)
    (values : ∀ p ∈ w.refs, w'.checkpoints.value p = w.checkpoints.value p) (leases : w'.leases = w.leases)
    (latest : ∀ t, w'.latest t = w.latest t) : (w'.dropLease l lease).Pins := by
  rw [World.dropLease]
  split
  · refine h.finish slots found open_ (fun p held => ?_) leases fun t other => ?_
    · rw [value_setLatest, values p held]
    · rw [latest_setLatest_ne other, latest]
  · exact h.finish slots found open_ values leases fun t _ => latest t

/-- A turn that publishes leaves the others pinned. -/
theorem Pins.publish (h : w.Pins) (slots : w.Slots) (settled : w.settled l = some lease) :
    (w.publish l lease r).2.Pins := by
  obtain ⟨found, open_, -⟩ := held_eq_some (settled_eq_some settled).1
  unfold World.publish
  cases w.sessions[lease.session]? with
  | none => exact h.dropLease slots found open_ (fun _ _ => value_release) rfl fun _ => rfl
  | some session =>
    simp only
    split
    · exact h.dropLease slots found open_ (fun _ _ => value_release) rfl fun _ => rfl
    · exact h.finish slots found open_ (fun _ _ => value_setLatest) rfl fun t other => latest_setLatest_ne other

/-- A turn that begins is pinned to what it found. -/
theorem Pins.begin {id : Option Text} (h : w.Pins) (begun : w.begin s id = .ok w') : w'.Pins := by
  obtain ⟨session, parent, lookup, found, -, -, parent_eq, looking, rfl⟩ := begin_ok begun
  intro k lease' found' open'
  rw [leases_addLease] at found'
  have latest (t : Nat) : (w.setState s fun state => { state with active := true }).latest t = w.latest t :=
    latest_setState fun _ => rfl
  have here : w.latest s = session.state.latest := by simp [World.latest, found]
  have names (p : Nat) : id.any (((w.setState s fun state => { state with active := true }).clone parent).hasId p) =
      id.any (w.hasId p) := any_hasId_congr value_clone
  split at found'
  · obtain rfl := Option.some.inj found'
    constructor
    · intro c holds named
      rw [parent_eq]
      have own : w.latest s = some c := (latest s).symm.trans holds
      exact Option.filter_eq_some_iff.2 ⟨here ▸ own, (names c).symm.trans named⟩
    · intro p mem
      have is : session.state.latest.filter (fun r => id.any (w.hasId r)) = some p := by
        simpa [ResponseContinuation.refs, ← parent_eq] using mem
      exact (names p).trans (Option.filter_eq_some_iff.1 is).2
    · exact fun some_restored => absurd rfl some_restored
    · exact fun some_lookup => ⟨(looking some_lookup).1, rfl⟩
  · have before : w.leases[k]? = some lease' := found'
    exact (h k lease' before open').keep (fun _ _ => value_clone) before (Keeps.refl lease') (.inl (latest _))

/-- A turn that looks for its parent is pinned to what it finds. -/
theorem Pins.lookupMember (h : w.Pins) (slots : w.Slots) : (w.lookupMember l).Pins := by
  rcases lookupMember_cases (w := w) l with
    same | ⟨lease, found, looking, ⟨rest, goes⟩ | ⟨r, member, -, matching, pinned⟩⟩
  · rw [same]
    exact h
  · have open_ := slots.unfinished_of_lookup found looking
    have before := h l lease found open_
    rw [goes]
    refine h.change (fun _ _ => rfl) (fun _ => leases_setLease) (fun _ => rfl) found ?_
    exact before.keep (fun _ _ => rfl) found ⟨rfl, rfl, rfl, .inl rfl, .inr looking⟩ (.inl rfl)
  · have open_ := slots.unfinished_of_lookup found looking
    have before := h l lease found open_
    obtain ⟨no_parent, no_restored⟩ := before.looking looking
    rw [pinned]
    refine h.change (f := fun lease => { lease with parent := some r, lookup := none }) (fun _ _ => ?_) (fun k => ?_)
      (fun _ => rfl) found ?_
    · rw [value_setLease, value_setParent, value_clone]
    · rw [leases_setLease, leases_setParent, leases_clone, Option.map_map]
      congr 1
      funext lease
      by_cases here : l = k <;> simp [here]
    · have values (p : Nat) : (((w.clone (some r)).setParent l (some r)).setLease l
          fun lease => { lease with lookup := none }).checkpoints.value p = w.checkpoints.value p := by
        rw [value_setLease, value_setParent, value_clone]
      constructor
      · intro c holds named
        rw [any_hasId_congr (values c)] at named
        have own := before.own c holds named
        rw [no_parent] at own
        cases own
      · intro p mem
        obtain rfl : r = p := by simpa [ResponseContinuation.refs, no_restored, eq_comm] using mem
        rw [any_hasId_congr (values r)]
        exact matching
      · exact fun some_restored => absurd no_restored some_restored
      · exact fun some_lookup => absurd rfl some_lookup

/-- The leases stay, and a session may lose its latest checkpoint. -/
theorem Pins.still (h : w.Pins) (values : ∀ p ∈ w.refs, w'.checkpoints.value p = w.checkpoints.value p)
    (leases : w'.leases = w.leases) (latest : ∀ t, w'.latest t = w.latest t ∨ w'.latest t = none) : w'.Pins := by
  refine h.keep values fun k lease found open_ => ?_
  rw [leases] at found
  exact ⟨lease, found, open_, Keeps.refl lease, latest _⟩

theorem latest_retain {grouped : Bool} {v : ResponseCheckpoint} {bytes : Nat}
    (retained : w.retain grouped v bytes = .ok w') : w'.latest t = w.latest t := by
  obtain ⟨charge, rfl, -⟩ := retain_ok retained
  rfl

/-- A turn that restores its parent is pinned to it. -/
theorem Pins.restore {grouped : Bool} {v : ResponseCheckpoint} {bytes : Nat} (h : w.Pins)
    (counted : w.Accounted w.refs) (settled : w.settled l = some lease) (no_parent : lease.parent = none)
    (named : lease.previous_id = some v.response_id) (retained : w.retain grouped v bytes = .ok w') :
    (w'.restoreLast l).Pins := by
  obtain ⟨held, no_restored⟩ := settled_eq_some settled
  obtain ⟨found, open_, looked⟩ := held_eq_some held
  have values (p : Nat) (old : p ∈ w.refs) : w'.checkpoints.value p = w.checkpoints.value p :=
    value_retain retained (counted.sound.lt old)
  have same := leases_retain retained
  have latest (t : Nat) : w'.latest t = w.latest t := latest_retain retained
  refine h.change values (fun k => by rw [restoreLast, leases_setLease, same]) latest found ?_
  obtain ⟨charge, rfl, -⟩ := retain_ok retained
  constructor
  · intro c holds matching
    have own : w.latest lease.session = some c := holds
    have same_names := @any_hasId_congr w _ c lease.previous_id (values c (mem_refs_iff.2 (.inl ⟨_, own⟩)))
    exact (h l lease found open_).own c own (same_names.symm.trans matching)
  · intro p mem
    have position : (w.checkpoints.alloc v charge).cells.length - 1 = w.checkpoints.cells.length := by
      simp [Arena.alloc]
    obtain rfl : w.checkpoints.cells.length = p := by
      simpa [ResponseContinuation.refs, no_parent, position, eq_comm] using mem
    have new : (w.checkpoints.alloc v charge).value w.checkpoints.cells.length = some v := Arena.value_alloc_self
    have is_named : ((w.checkpoints.alloc v charge).value w.checkpoints.cells.length).any
        (·.response_id == v.response_id) = true := by simp [new]
    rw [named]
    exact is_named
  · exact fun _ => no_parent
  · exact fun some_lookup => absurd looked some_lookup

/-- A turn that takes the parent it looked for is pinned to it. -/
theorem Pins.acceptParent (h : w.Pins) (found : w.leases[l]? = some lease)
    (open_ : ResponseContinuation.finished lease = false) (looked : lease.lookup = none)
    (restored : lease.restored = some r) :
    ((w.setLease l fun lease => { lease with restored := none }).setParent l (some r)).Pins := by
  have before := h l lease found open_
  have values (p : Nat) : ((w.setLease l fun lease => { lease with restored := none }).setParent l
      (some r)).checkpoints.value p = w.checkpoints.value p := by rw [value_setParent, value_setLease]
  refine h.change (f := fun lease => { lease with restored := none, parent := some r }) (fun p _ => values p)
    (fun k => ?_) (fun _ => rfl) found ?_
  · rw [leases_setParent, leases_setLease, Option.map_map]
    congr 1
    funext lease
    by_cases here : l = k <;> simp [here]
  · constructor
    · intro c holds matching
      rw [any_hasId_congr (values c)] at matching
      have own := before.own c holds matching
      rw [before.alone (by simp [restored])] at own
      cases own
    · intro p mem
      obtain rfl : r = p := by simpa [ResponseContinuation.refs, eq_comm] using mem
      rw [any_hasId_congr (values r)]
      exact before.matched r (by simp [ResponseContinuation.refs, restored])
    · exact fun some_restored => absurd rfl some_restored
    · exact fun some_lookup => absurd looked some_lookup

/-- Every step leaves the turns pinned. -/
theorem Pins.moves (h : w.Pins) (slots : w.Slots) (counted : w.Accounted w.refs) (move : w.Moves w') : w'.Pins := by
  cases move with
  | stay => exact h
  | addSession group session limit closed closing members fresh inactive open_ =>
    exact h.still (fun _ _ => rfl) rfl fun _ => .inl (latest_addSession fresh)
  | «begin» s id begun => exact h.begin begun
  | lookupMember l => exact h.lookupMember slots
  | mark l lease f held kept =>
    obtain ⟨found, open_, looked⟩ := held_eq_some held
    refine h.change (fun _ _ => rfl) (fun _ => leases_setLease) (fun _ => rfl) found ?_
    have keeps : Keeps lease (f lease) := ⟨(kept lease).session, (kept lease).previous_id, (kept lease).parent,
      .inl (kept lease).restored, .inl ((kept lease).lookup.trans looked)⟩
    exact (h l lease found open_).keep (fun _ _ => rfl) found keeps (.inl rfl)
  | prepare lease grouped v bytes retained =>
    have latest (t : Nat) := latest_retain (t := t) retained
    have values (p : Nat) (held : p ∈ w.refs) := value_retain retained (counted.sound.lt held)
    have leases := leases_retain retained
    exact h.still values leases fun t => .inl (latest t)
  | dropPrepared r held => exact h.still (fun _ _ => value_release) rfl fun _ => .inl rfl
  | restore l lease grouped v bytes settled no_parent named retained =>
    exact h.restore counted settled no_parent named retained
  | accept l lease r held restored =>
    obtain ⟨found, open_, looked⟩ := held_eq_some held
    exact h.acceptParent found open_ looked restored
  | reject l lease held =>
    obtain ⟨found, open_, looked⟩ := held_eq_some held
    refine h.change (f := fun lease => { lease with restored := none }) (fun _ _ => ?_) (fun k => ?_) (fun _ => rfl)
      found ?_
    · rw [value_release, value_setLease]
    · rw [leases_release, leases_setLease]
    · refine (h l lease found open_).keep (fun _ _ => ?_) found ⟨rfl, rfl, rfl, .inr rfl, .inl looked⟩ (.inl rfl)
      rw [value_release, value_setLease]
  | publish l lease r settled held => exact h.publish slots settled
  | dropLease l lease settled =>
    obtain ⟨found, open_, -⟩ := held_eq_some (settled_eq_some settled).1
    exact h.dropLease slots found open_ (fun _ _ => rfl) rfl fun _ => rfl
  | discard s => exact h.still (fun _ _ => value_setLatest) rfl fun t => latest_setLatest t
  | dropSession s =>
    refine h.still (fun _ _ => value_closeSession) rfl fun t => ?_
    rcases latest_closeSession (w := w.disown s) (s := s) t with same | gone
    · exact .inl (same.trans latest_disown)
    · exact .inr gone
  | dropGroup => exact h.still (fun _ _ => rfl) rfl fun _ => .inl rfl
  | closeMember s rest closing => exact h.still (fun _ _ => value_closeSession) rfl fun t => latest_closeSession t

end World
end AgenticStack
