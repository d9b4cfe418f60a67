import AgenticStack.Executor.Moves

/-!
# What the budget of a group is charged for

The references to retained checkpoints are the latest checkpoints of the
sessions, the parents the leases pin or restore, and the checkpoints prepared
for publication. Every operation keeps the arena sound for exactly these.
-/

namespace AgenticStack
set_option autoImplicit false
open Library

/-- The references a lease holds. -/
def ResponseContinuation.refs (lease : ResponseContinuation) : List Nat := lease.parent.toList ++ lease.restored.toList

/-- What a session holds on to. -/
def ResponseSession.refs (session : ResponseSession) : List Nat := session.state.latest.toList

namespace World

/-- All references to retained checkpoints that are alive. -/
def refs (w : World) : List Nat :=
  w.sessions.flatMap ResponseSession.refs ++ (w.leases.flatMap ResponseContinuation.refs ++ w.prepared)

/-- The arena accounts for `refs`, within the limit. A prepared checkpoint is referred to once. -/
structure Accounted (w : World) (refs : List Nat) : Prop where
  sound : w.checkpoints.Sound refs
  limit : w.checkpoints.used ≤ w.group.max_retained_bytes
  exclusive : ∀ r ∈ w.prepared, refs.count r ≤ 1

variable {w : World} {refs refs' : List Nat} {s l r p : Nat} {latest parent : Option Nat} {lease : ResponseContinuation}
  {session : ResponseSession}

/-- A checkpoint is held by a session where one ended with it. -/
theorem mem_sessionRefs_iff : p ∈ w.sessions.flatMap ResponseSession.refs ↔ ∃ s, w.latest s = some p := by
  rw [List.mem_flatMap]
  constructor
  · rintro ⟨session, mem, holds⟩
    obtain ⟨s, found⟩ := List.mem_iff_getElem?.1 mem
    exact ⟨s, Option.bind_eq_some_iff.2 ⟨session, found, Option.mem_toList.1 holds⟩⟩
  · rintro ⟨s, found⟩
    obtain ⟨session, at_, holds⟩ := Option.bind_eq_some_iff.1 found
    exact ⟨session, List.mem_of_getElem? at_, Option.mem_toList.2 holds⟩

/-- A checkpoint is held by a turn where one continues or prepared it. -/
theorem mem_leaseRefs_iff : p ∈ w.leases.flatMap ResponseContinuation.refs ↔
    ∃ (l : Nat) (lease : ResponseContinuation),
      w.leases[l]? = some lease ∧ (lease.parent = some p ∨ lease.restored = some p) := by
  have holds (lease : ResponseContinuation) : p ∈ lease.refs ↔ lease.parent = some p ∨ lease.restored = some p := by
    rw [ResponseContinuation.refs, List.mem_append, Option.mem_toList, Option.mem_toList]
  simp only [List.mem_flatMap, holds]
  constructor
  · rintro ⟨lease, mem, held⟩
    obtain ⟨l, found⟩ := List.mem_iff_getElem?.1 mem
    exact ⟨l, lease, found, held⟩
  · rintro ⟨l, lease, found, held⟩
    exact ⟨lease, List.mem_of_getElem? found, held⟩

/-- A checkpoint is held by a session, by a turn, or by the one that prepared it. -/
theorem mem_refs_iff : p ∈ w.refs ↔ (∃ s, w.latest s = some p) ∨
    (∃ (l : Nat) (lease : ResponseContinuation),
      w.leases[l]? = some lease ∧ (lease.parent = some p ∨ lease.restored = some p)) ∨ p ∈ w.prepared := by
  rw [refs, List.mem_append, List.mem_append, mem_sessionRefs_iff, mem_leaseRefs_iff]

/-- A checkpoint that a session or a lease refers to is not a prepared one. -/
theorem Accounted.not_prepared (h : w.Accounted w.refs)
    (shared : p ∈ w.sessions.flatMap ResponseSession.refs ∨ p ∈ w.leases.flatMap ResponseContinuation.refs) :
    p ∉ w.prepared := by
  intro here
  have once := h.exclusive p here
  have again := List.count_pos_iff.2 here
  simp only [World.refs, List.count_append] at once
  rcases shared with latest | pinned
  · have := List.count_pos_iff.2 latest
    omega
  · have := List.count_pos_iff.2 pinned
    omega

/-- A session that ended with a checkpoint holds it. -/
theorem mem_refs_of_latest (found : w.latest s = some p) : p ∈ w.refs := mem_refs_iff.2 (.inl ⟨s, found⟩)

namespace Accounted

/-- The same shares are accounted for in another order. -/
theorem of_perm (h : w.Accounted refs) (same : refs.Perm refs') : w.Accounted refs' :=
  ⟨h.sound.of_perm same, h.limit, fun r mem => by rw [← same.count_eq]; exact h.exclusive r mem⟩

/-- Sessions and leases may change as long as the references stay. -/
theorem onState (h : w.Accounted refs) (s : Nat) (f : SessionState → SessionState) : (w.setState s f).Accounted refs :=
  ⟨h.sound, h.limit, h.exclusive⟩

/-- A change of a turn keeps the account where it holds what it held. -/
theorem onLease (h : w.Accounted refs) (l : Nat) (f : ResponseContinuation → ResponseContinuation) :
    (w.setLease l f).Accounted refs := ⟨h.sound, h.limit, h.exclusive⟩

/-- A share that is let go of is no longer accounted for. -/
theorem drop (h : w.Accounted (latest.toList ++ refs)) : (w.release latest).Accounted refs := by
  cases latest with
  | none => exact h
  | some r =>
    refine ⟨h.sound.drop, Nat.le_trans h.sound.used_drop_le h.limit, fun p mem => ?_⟩
    have before := h.exclusive p mem
    simp only [Option.toList_some, List.count_append] at before
    omega

/-- Sharing a checkpoint is accounted for. -/
theorem clone (h : w.Accounted refs) (held : ∀ r ∈ latest, r ∈ refs) (shared : ∀ r ∈ latest, r ∉ w.prepared) :
    (w.clone latest).Accounted (latest.toList ++ refs) := by
  cases latest with
  | none => exact h
  | some r =>
    refine ⟨h.sound.clone (held r rfl), h.limit, fun p mem => ?_⟩
    have other : r ≠ p := fun same => shared r rfl (same ▸ mem)
    have before := h.exclusive p mem
    simpa [List.count_cons, other] using before

/-- A new checkpoint, prepared or not. -/
theorem alloc (h : w.Accounted refs) {v : ResponseCheckpoint} {bytes : Nat}
    (fits : w.checkpoints.used + bytes ≤ w.group.max_retained_bytes) :
    ({ w with checkpoints := w.checkpoints.alloc v bytes } : World).Accounted (w.checkpoints.cells.length :: refs) := by
  refine ⟨h.sound.alloc v bytes, fits, fun p mem => ?_⟩
  by_cases new : w.checkpoints.cells.length = p
  · have absent := List.count_eq_zero.2 h.sound.fresh
    rw [← new, List.count_cons_self, absent]
  · have before := h.exclusive p mem
    simpa [List.count_cons, new] using before

end Accounted

theorem refs_release : (w.release latest).refs = w.refs := rfl

theorem refs_clone : (w.clone latest).refs = w.refs := rfl

theorem refs_setState {f : SessionState → SessionState} (same : ∀ state, (f state).latest = state.latest) :
    (w.setState s f).refs = w.refs := by
  have sessions : (w.sessions.modify s fun session => { session with state := f session.state }).flatMap
      ResponseSession.refs = w.sessions.flatMap ResponseSession.refs :=
    flatMap_modify_of_same (by simp [ResponseSession.refs, same])
  simp only [refs, setState, sessions]

theorem refs_setLease {f : ResponseContinuation → ResponseContinuation} (same : ∀ lease, (f lease).refs = lease.refs) :
    (w.setLease l f).refs = w.refs := by
  simp only [refs, setLease, flatMap_modify_of_same same]

theorem refs_setLease_perm {f : ResponseContinuation → ResponseContinuation} (found : w.leases[l]? = some lease) :
    ((w.setLease l f).refs ++ lease.refs).Perm (w.refs ++ (f lease).refs) := by
  rw [List.perm_iff_count]
  intro r
  have leases := (flatMap_modify_perm (g := ResponseContinuation.refs) (f := f) found).count_eq r
  simp only [refs, setLease, List.count_append] at leases ⊢
  omega

theorem refs_setState_latest (found : w.sessions[s]? = some session) :
    ((w.setState s fun state => { state with latest }).refs ++ session.state.latest.toList).Perm
      (w.refs ++ latest.toList) := by
  rw [List.perm_iff_count]
  intro r
  have sessions := (flatMap_modify_perm (g := ResponseSession.refs)
    (f := fun session => { session with state := { session.state with latest } }) found).count_eq r
  simp only [refs, setState, List.count_append, ResponseSession.refs] at sessions ⊢
  omega

namespace Accounted

/-- Replacing the latest checkpoint of a session by one that is accounted for besides. -/
theorem setLatest (found : w.sessions[s]? = some session) (h : w.Accounted (latest.toList ++ w.refs)) :
    (w.setLatest s latest).Accounted (w.setLatest s latest).refs := by
  have old : w.latest s = session.state.latest := by simp [World.latest, found]
  have set := h.onState s fun state => { state with latest }
  rw [World.setLatest, old]
  refine drop (set.of_perm ?_)
  have exchange := @refs_setState_latest w s latest session found
  exact (List.perm_append_comm.trans exchange.symm).trans List.perm_append_comm

/-- A session that lets go of its response is accounted for. -/
theorem clearLatest (h : w.Accounted w.refs) : (w.setLatest s none).Accounted (w.setLatest s none).refs := by
  cases found : w.sessions[s]? with
  | some session => exact setLatest found h
  | none =>
    have nothing : w.latest s = none := by simp [World.latest, found]
    have same : w.sessions.modify s (fun session => { session with state := { session.state with latest := none } }) =
        w.sessions := List.modify_eq_self (List.getElem?_eq_none_iff.1 found)
    rw [World.setLatest, nothing, setState, same]
    exact h

/-- A lease exchanges what it refers to; what it gives up is dropped by the caller. -/
theorem setLease {f : ResponseContinuation → ResponseContinuation} (gone : Option Nat)
    (found : w.leases[l]? = some lease) (split : lease.refs.Perm (gone.toList ++ (f lease).refs))
    (h : w.Accounted w.refs) : (w.setLease l f).Accounted (gone.toList ++ (w.setLease l f).refs) := by
  refine (h.onLease l f).of_perm ?_
  rw [List.perm_iff_count]
  intro r
  have exchange := (refs_setLease_perm (f := f) found).count_eq r
  have parts := split.count_eq r
  simp only [List.count_append] at exchange parts ⊢
  omega

/-- Replacing the parent of a lease by one that is accounted for besides. -/
theorem setParent (found : w.leases[l]? = some lease) (h : w.Accounted (parent.toList ++ w.refs)) :
    (w.setParent l parent).Accounted (w.setParent l parent).refs := by
  have old : w.parent l = lease.parent := by simp [World.parent, found]
  rw [World.setParent, old]
  refine drop ((h.onLease l _).of_perm ?_)
  rw [List.perm_iff_count]
  intro r
  have exchange := (refs_setLease_perm (f := fun lease => { lease with parent }) found).count_eq r
  simp only [ResponseContinuation.refs, List.count_append, refs_release] at exchange ⊢
  omega

/-- A turn that lets go of its parent is accounted for. -/
theorem dropParent (h : w.Accounted w.refs) : (w.setParent l none).Accounted (w.setParent l none).refs := by
  cases found : w.leases[l]? with
  | some lease => exact setParent found h
  | none =>
    have nothing : w.parent l = none := by simp [World.parent, found]
    have same : w.leases.modify l (fun lease => { lease with parent := none }) = w.leases :=
      List.modify_eq_self (List.getElem?_eq_none_iff.1 found)
    rw [World.setParent, nothing, World.setLease, same]
    exact h

/-- A session that is closed is accounted for. -/
theorem closeSession (h : w.Accounted w.refs) : (w.closeSession s).Accounted (w.closeSession s).refs := by
  rw [World.closeSession]
  refine clearLatest ?_
  rw [refs_setState (by intro state; rfl)]
  exact h.onState s _

/-- A turn that is finished is accounted for. -/
theorem finish (h : w.Accounted w.refs) : (w.finish l s).Accounted (w.finish l s).refs := by
  rw [World.finish, refs_setLease (by intro lease; rfl), refs_setState (by intro state; rfl)]
  exact (h.dropParent.onState s _).onLease l _

/-- A turn that ends is accounted for. -/
theorem dropLease (h : w.Accounted w.refs) : (w.dropLease l lease).Accounted (w.dropLease l lease).refs := by
  rw [World.dropLease]
  refine finish ?_
  split
  · exact h.clearLatest
  · exact h

/-- The prepared checkpoint is one reference, which its user takes over. -/
theorem take (h : w.Accounted w.refs) (held : r ∈ w.prepared) :
    ({ w with prepared := w.prepared.erase r } : World).Accounted
      ((some r).toList ++ ({ w with prepared := w.prepared.erase r } : World).refs) := by
  have parts : w.refs.Perm ((some r).toList ++ ({ w with prepared := w.prepared.erase r } : World).refs) := by
    rw [List.perm_iff_count]
    intro p
    have split := (List.perm_cons_erase held).count_eq p
    simp only [World.refs, List.count_append, Option.toList_some, List.count_cons, List.count_nil] at split ⊢
    omega
  have moved := h.of_perm parts
  exact ⟨moved.sound, moved.limit, fun p mem => moved.exclusive p (List.mem_of_mem_erase mem)⟩

/-- A turn that publishes is accounted for. -/
theorem publish (h : w.Accounted w.refs) (held : r ∈ w.prepared) :
    (w.publish l lease r).2.Accounted (w.publish l lease r).2.refs := by
  unfold World.publish
  cases found : w.sessions[lease.session]? with
  | none => exact dropLease (drop (h.take held))
  | some session =>
    simp only
    split
    · exact dropLease (drop (h.take held))
    · refine finish ?_
      exact setLatest (w := { w with prepared := w.prepared.erase r }) found (h.take held)

/-- A checkpoint that was just made fits the budget. -/
theorem retain {w' : World} {grouped : Bool} {v : ResponseCheckpoint} {bytes : Nat} (h : w.Accounted refs)
    (retained : w.retain grouped v bytes = .ok w') : w'.Accounted (w.checkpoints.cells.length :: refs) := by
  obtain ⟨charge, rfl, fits, -⟩ := retain_ok retained
  refine h.alloc ?_
  have := h.limit
  omega

end Accounted

namespace Accounted

/-- A session that joins is accounted for. -/
theorem addSession (h : w.Accounted w.refs) (fresh : session.state.latest = none) :
    (w.addSession session).Accounted (w.addSession session).refs := by
  have same : (w.addSession session).refs = w.refs := by
    simp [refs, World.addSession, ResponseSession.refs, fresh]
  rw [same]
  exact ⟨h.sound, h.limit, h.exclusive⟩

/-- A turn that begins is accounted for. -/
theorem addLease (h : w.Accounted (lease.refs ++ w.refs)) : (w.addLease lease).Accounted (w.addLease lease).refs := by
  have moved : (lease.refs ++ w.refs).Perm (w.addLease lease).refs := by
    rw [List.perm_iff_count]
    intro r
    simp only [refs, World.addLease, List.flatMap_append, List.flatMap_singleton, List.count_append]
    omega
  have counted := h.of_perm moved
  exact ⟨counted.sound, counted.limit, counted.exclusive⟩

/-- A session's latest checkpoint may be pinned. -/
theorem pin (h : w.Accounted w.refs) (found : ∀ r ∈ latest, ∃ s, w.latest s = some r) :
    (w.clone latest).Accounted (latest.toList ++ w.refs) :=
  h.clone (fun r mem => mem_refs_iff.2 (.inl (found r mem)))
    fun r mem => h.not_prepared (.inl (mem_sessionRefs_iff.2 (found r mem)))

/-- A turn that begins is accounted for. -/
theorem «begin» {w' : World} {id : Option Text} (h : w.Accounted w.refs) (begun : w.begin s id = .ok w') :
    w'.Accounted w'.refs := by
  obtain ⟨session, parent, lookup, found, -, -, rfl, -, rfl⟩ := begin_ok begun
  have own (r : Nat) (mem : r ∈ session.state.latest.filter fun r => id.any (w.hasId r)) : ∃ s, w.latest s = some r := by
    refine ⟨s, ?_⟩
    rw [World.latest, found]
    exact (Option.filter_eq_some_iff.1 mem).1
  refine addLease ?_
  rw [refs_clone, refs_setState (by intro state; rfl)]
  have pinned := h.pin own
  simp only [ResponseContinuation.refs, Option.toList_none, List.append_nil]
  exact ⟨pinned.sound, pinned.limit, pinned.exclusive⟩

/-- A turn that looks for its parent is accounted for. -/
theorem lookupMember (h : w.Accounted w.refs) : (w.lookupMember l).Accounted (w.lookupMember l).refs := by
  rcases lookupMember_cases (w := w) l with same | ⟨lease, found, -, ⟨rest, goes⟩ | ⟨r, member, latest, -, pinned⟩⟩
  · rw [same]
    exact h
  · rw [goes, refs_setLease (by intro lease; rfl)]
    exact h.onLease l _
  · rw [pinned, refs_setLease (by intro lease; rfl)]
    refine onLease (setParent (w := w.clone (some r)) found ?_) l _
    rw [refs_clone]
    exact h.pin fun r' same => ⟨member, by rw [latest]; exact same⟩

/-- A checkpoint that is prepared is accounted for. -/
theorem prepare {grouped : Bool} {v : ResponseCheckpoint} {bytes : Nat} {w' : World} (h : w.Accounted w.refs)
    (retained : w.retain grouped v bytes = .ok w') : w'.prepareLast.Accounted w'.prepareLast.refs := by
  have counted := h.retain retained
  obtain ⟨charge, rfl, -⟩ := retain_ok retained
  have last : ({ w with checkpoints := w.checkpoints.alloc v charge } : World).prepareLast =
      { w with checkpoints := w.checkpoints.alloc v charge, prepared := w.prepared ++ [w.checkpoints.cells.length] } := by
    simp [prepareLast, Arena.alloc]
  rw [last]
  have moved : (w.checkpoints.cells.length :: w.refs).Perm
      (w.sessions.flatMap ResponseSession.refs ++
        (w.leases.flatMap ResponseContinuation.refs ++ (w.prepared ++ [w.checkpoints.cells.length]))) := by
    rw [List.perm_iff_count]
    intro r
    simp only [World.refs, List.count_append, List.count_cons, List.count_nil]
    omega
  refine ⟨counted.sound.of_perm moved, counted.limit, fun r mem => ?_⟩
  show List.count r (w.sessions.flatMap ResponseSession.refs ++
    (w.leases.flatMap ResponseContinuation.refs ++ (w.prepared ++ [w.checkpoints.cells.length]))) ≤ 1
  rw [← moved.count_eq]
  rcases List.mem_append.1 mem with old | new
  · exact counted.exclusive r old
  · obtain rfl := List.mem_singleton.1 new
    rw [List.count_cons_self, List.count_eq_zero.2 h.sound.fresh]

/-- A parent that is restored is accounted for. -/
theorem restore {grouped : Bool} {v : ResponseCheckpoint} {bytes : Nat} {w' : World} (h : w.Accounted w.refs)
    (found : w.leases[l]? = some lease) (none_restored : lease.restored = none)
    (retained : w.retain grouped v bytes = .ok w') : (w'.restoreLast l).Accounted (w'.restoreLast l).refs := by
  have counted := h.retain retained
  obtain ⟨charge, rfl, -⟩ := retain_ok retained
  have last : ({ w with checkpoints := w.checkpoints.alloc v charge } : World).restoreLast l =
      ({ w with checkpoints := w.checkpoints.alloc v charge } : World).setLease l
        fun lease => { lease with restored := some w.checkpoints.cells.length } := by
    simp [restoreLast, Arena.alloc]
  rw [last]
  refine (counted.onLease l _).of_perm ?_
  rw [List.perm_iff_count]
  intro r
  have exchange := (@refs_setLease_perm { w with checkpoints := w.checkpoints.alloc v charge } l lease
    (fun lease => { lease with restored := some w.checkpoints.cells.length }) found).count_eq r
  have same : ({ w with checkpoints := w.checkpoints.alloc v charge } : World).refs = w.refs := rfl
  simp only [ResponseContinuation.refs, none_restored, same, List.count_append, List.count_cons, Option.toList_some,
    Option.toList_none, List.count_nil] at exchange ⊢
  omega

/-- A handle that is dropped is accounted for. -/
theorem disown (h : w.Accounted w.refs) (s : Nat) : (w.disown s).Accounted (w.disown s).refs := by
  have same : (w.sessions.modify s fun session => { session with owned := false }).flatMap ResponseSession.refs =
      w.sessions.flatMap ResponseSession.refs := flatMap_modify_of_same fun _ => rfl
  have refs : (w.disown s).refs = w.refs := by simp only [World.refs, World.disown, same]
  rw [refs]
  exact ⟨h.sound, h.limit, h.exclusive⟩

/-- **Every step accounts for what it retains.** -/
theorem moves {w' : World} (h : w.Accounted w.refs) (move : w.Moves w') : w'.Accounted w'.refs := by
  cases move with
  | stay => exact h
  | addSession group session limit closed closing members fresh inactive open_ =>
    have counted : (w.setGroup group).Accounted w.refs := ⟨h.sound, limit.symm ▸ h.limit, h.exclusive⟩
    exact counted.addSession fresh
  | «begin» s id begun => exact h.begin begun
  | lookupMember l => exact h.lookupMember
  | mark l lease f held kept =>
    rw [refs_setLease (fun lease => by rw [ResponseContinuation.refs, ResponseContinuation.refs, (kept lease).parent, (kept lease).restored])]
    exact h.onLease l _
  | prepare lease grouped v bytes retained => exact h.prepare retained
  | dropPrepared r held => exact drop (h.take held)
  | restore l lease grouped v bytes settled no_parent named retained =>
    obtain ⟨held, none_restored⟩ := settled_eq_some settled
    exact h.restore (held_eq_some held).1 none_restored retained
  | accept l lease r held restored =>
    have found := (held_eq_some held).1
    have taken : (w.setLease l fun lease => { lease with restored := none }).leases[l]? =
        some { lease with restored := none } := by simp [World.setLease, found]
    refine setParent taken (setLease (some r) found ?_ h)
    simp [ResponseContinuation.refs, restored]
  | reject l lease held =>
    refine drop (setLease lease.restored (held_eq_some held).1 ?_ h)
    simp [ResponseContinuation.refs, List.perm_append_comm]
  | publish l lease r settled held => exact h.publish held
  | dropLease l lease settled => exact h.dropLease
  | discard s => exact h.clearLatest
  | dropSession s => exact closeSession (h.disown s)
  | dropGroup => exact ⟨h.sound, h.limit, h.exclusive⟩
  | closeMember s rest closing => exact closeSession (w := w.setGroup _) ⟨h.sound, h.limit, h.exclusive⟩

/-- A group without sessions is accounted for. -/
theorem new {max_sessions max_items max_bytes max_retained_bytes : Nat} :
    (World.new max_sessions max_items max_bytes max_retained_bytes).Accounted
      (World.new max_sessions max_items max_bytes max_retained_bytes).refs :=
  ⟨Arena.Sound.empty, Nat.zero_le _, by simp [World.new]⟩

end Accounted
end World
end AgenticStack
