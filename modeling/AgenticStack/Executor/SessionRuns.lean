import AgenticStack.Executor.Pins

/-!
# Sessions under any interleaving

The invariants of the world, over every run from an empty group: the slots and
the pins, the closing of sessions, and the accounting of what is retained.
-/

namespace AgenticStack
set_option autoImplicit false
open Library

namespace World

variable {w w' : World} {s t l r p : Nat} {lease : ResponseContinuation} {session : ResponseSession}

theorem isClosed_eq (same : w'.state s = w.state s) : w'.isClosed s = w.isClosed s := by
  rw [isClosed, isClosed, same]

/-- A step that closes no session again and leaves the group and its members. -/
structure Stays (w w' : World) : Prop where
  closed : ∀ s, w.isClosed s = true → w'.isClosed s = true
  grouped : ∀ s, w'.isGrouped s = w.isGrouped s
  group : w'.group = w.group

namespace Stays

/-- Every session stays. -/
theorem refl : w.Stays w := ⟨fun _ => id, fun _ => rfl, rfl⟩

/-- Sessions that stay stay. -/
theorem trans {w'' : World} (h : w.Stays w') (h' : w'.Stays w'') : w.Stays w'' :=
  ⟨fun s shut => h'.closed s (h.closed s shut), fun s => by rw [h'.grouped, h.grouped], by rw [h'.group, h.group]⟩

/-- Sessions stay where nothing of them changes. -/
theorem of_sessions (sessions : w'.sessions = w.sessions) (group : w'.group = w.group) : w.Stays w' :=
  ⟨fun s shut => by rwa [isClosed, state, sessions], fun s => by rw [isGrouped, isGrouped, sessions], group⟩

/-- Sessions stay where none is opened again. -/
theorem setState {f : SessionState → SessionState} (kept : ∀ st, st.closed = true → (f st).closed = true) :
    w.Stays (w.setState s f) := by
  refine ⟨fun t shut => ?_, fun t => ?_, rfl⟩
  · simp only [isClosed, state_setState] at shut ⊢
    cases found : w.state t with
    | none => simp [found] at shut
    | some st =>
      have before : st.closed = true := by simpa [found] using shut
      by_cases here : s = t <;> simp [here, before, kept]
  · simp only [isGrouped, World.setState, List.getElem?_modify]
    cases w.sessions[t]? with
    | none => rfl
    | some session => by_cases here : s = t <;> simp [here]

/-- Sessions stay whatever one ended with. -/
theorem setLatest {latest : Option Nat} : w.Stays (w.setLatest s latest) := by
  have set : w.Stays (w.setState s fun state => { state with latest }) := setState fun _ => id
  exact ⟨set.closed, set.grouped, set.group⟩

/-- Closing a session keeps the closed ones closed. -/
theorem closeSession : w.Stays (w.closeSession s) := by
  have set : w.Stays (w.setState s fun state => { state with closed := true }) := setState fun _ _ => rfl
  exact set.trans setLatest

/-- The end of a turn keeps the closed sessions closed. -/
theorem finish : w.Stays (w.finish l s) := by
  have set : w.Stays (w.setState s fun state => { state with active := false }) := setState fun _ => id
  exact ⟨set.closed, set.grouped, set.group⟩

/-- A turn that ends keeps the closed sessions closed. -/
theorem dropLease (h : w.Stays w') : w.Stays (w'.dropLease l lease) := by
  rw [World.dropLease]
  split
  · exact (h.trans setLatest).trans finish
  · exact h.trans finish

/-- Publishing keeps the closed sessions closed. -/
theorem publish : w.Stays (w.publish l lease r).2 := by
  have taken : w.Stays { w with prepared := w.prepared.erase r } := of_sessions rfl rfl
  unfold World.publish
  cases w.sessions[lease.session]? with
  | none => exact dropLease (taken.trans (of_sessions rfl rfl))
  | some session =>
    simp only
    split
    · exact dropLease (taken.trans (of_sessions rfl rfl))
    · exact (taken.trans setLatest).trans finish

/-- Dropping a handle keeps the closed sessions closed. -/
theorem disown : w.Stays (w.disown s) := by
  refine ⟨fun t shut => by rwa [isClosed_eq state_disown], fun t => ?_, rfl⟩
  simp only [isGrouped, World.disown, List.getElem?_modify]
  cases w.sessions[t]? with
  | none => rfl
  | some session => by_cases here : s = t <;> simp [here]

/-- Keeping a checkpoint keeps the closed sessions closed. -/
theorem retain {grouped : Bool} {v : ResponseCheckpoint} {bytes : Nat} (retained : w.retain grouped v bytes = .ok w') :
    w.Stays w' := by
  obtain ⟨charge, rfl, -⟩ := retain_ok retained
  exact of_sessions rfl rfl

end Stays

/-- A session that was closed is closed. -/
theorem closed_closeSession (member : w.isGrouped s = true) : (w.closeSession s).isClosed s = true := by
  obtain ⟨session, found, -⟩ := Option.any_eq_true _ _ |>.1 member
  have here : w.state s = some session.state := by simp [state, found]
  rw [isClosed, state_closeSession, here]
  simp

/-- Every member is known to the group until it has been closed. -/
structure Members (w : World) : Prop where
  known : ∀ s, w.isGrouped s = true → w.isClosed s = true ∨ s ∈ w.group.members ∨ s ∈ w.group.closing
  left : w.group.closed = true → w.group.members = []

/-- The members stay members. -/
theorem Members.stays (h : w.Members) (same : w.Stays w') : w'.Members := by
  refine ⟨fun s member => ?_, fun shut => ?_⟩
  · rw [same.grouped] at member
    rw [same.group]
    exact (h.known s member).imp_left (same.closed s)
  · rw [same.group] at shut ⊢
    exact h.left shut

/-- What most steps do to the sessions: nothing that bears on the group. -/
inductive Housekeeping (w : World) : World → Prop where
  | stays {w' : World} (same : w.Stays w') : w.Housekeeping w'
  | addSession (group : ResponseSessionGroup) (session : ResponseSession) (closed : group.closed = w.group.closed)
      (closing : group.closing = w.group.closing)
      (members : if session.grouped then w.group.closed = false ∧ group.members = w.group.members ++ [w.sessions.length]
        else group.members = w.group.members) : w.Housekeeping ((w.setGroup group).addSession session)
  | dropGroup : w.Housekeeping w.dropGroup
  | closeMember (s : Nat) (rest : List Nat) (closing : w.group.closing = s :: rest) :
      w.Housekeeping ((w.setGroup { w.group with closing := rest }).closeSession s)

/-- A move either concerns one turn or lets the group go on. -/
theorem Moves.housekeeping (move : w.Moves w') : w.Housekeeping w' := by
  cases move with
  | stay => exact .stays .refl
  | addSession group session limit closed closing members fresh inactive open_ =>
    exact .addSession group session closed closing members
  | «begin» s id begun =>
    obtain ⟨session, parent, lookup, -, -, -, -, -, rfl⟩ := begin_ok begun
    have set : w.Stays (w.setState s fun state => { state with active := true }) := .setState fun _ shut => shut
    exact .stays ⟨set.closed, set.grouped, set.group⟩
  | lookupMember l =>
    rcases lookupMember_cases (w := w) l with same | ⟨lease, -, -, ⟨rest, goes⟩ | ⟨r, member, -, -, pinned⟩⟩
    · rw [same]
      exact .stays .refl
    · rw [goes]
      exact .stays (.of_sessions rfl rfl)
    · rw [pinned]
      exact .stays (.of_sessions rfl rfl)
  | mark l lease f held kept => exact .stays (.of_sessions rfl rfl)
  | prepare lease grouped v bytes retained => exact .stays ((Stays.retain retained).trans (.of_sessions rfl rfl))
  | dropPrepared r held => exact .stays (.of_sessions rfl rfl)
  | restore l lease grouped v bytes settled no_parent named retained =>
    exact .stays ((Stays.retain retained).trans (.of_sessions rfl rfl))
  | accept l lease r held restored => exact .stays (.of_sessions rfl rfl)
  | reject l lease held => exact .stays (.of_sessions rfl rfl)
  | publish l lease r settled held => exact .stays .publish
  | dropLease l lease settled => exact .stays (.dropLease .refl)
  | discard s => exact .stays .setLatest
  | dropSession s => exact .stays (Stays.disown.trans .closeSession)
  | dropGroup => exact .dropGroup
  | closeMember s rest closing => exact .closeMember s rest closing

/-- **Closed for good.** -/
theorem Moves.closed (move : w.Moves w') (shut : w.isClosed s = true) : w'.isClosed s = true := by
  cases move.housekeeping with
  | stays same => exact same.closed s shut
  | addSession group session closed closing members =>
    obtain ⟨st, found, is⟩ := Option.any_eq_true _ _ |>.1 shut
    have old : s ≠ w.sessions.length := by
      rintro rfl
      simp [state] at found
    rw [isClosed, state_addSession]
    exact (if_neg (c := s = (w.setGroup group).sessions.length) old) ▸ shut
  | dropGroup => exact shut
  | closeMember s' rest closing => exact Stays.closeSession.closed s shut

/-- The members are those of the group after every move. -/
theorem Members.moves (h : w.Members) (move : w.Moves w') : w'.Members := by
  have closed (s : Nat) (shut : w.isClosed s = true) := move.closed shut
  cases move.housekeeping with
  | stays same => exact h.stays same
  | addSession group session same_closed closing members =>
    refine ⟨fun s member => ?_, fun shut => ?_⟩
    · show _ ∨ s ∈ group.members ∨ s ∈ group.closing
      by_cases new : s = w.sessions.length
      · have is : session.grouped = true := by simpa [isGrouped, addSession, setGroup, new] using member
        rw [if_pos is] at members
        rw [members.2, new]
        simp
      · have before : w.isGrouped s = true := by
          have away : s ≠ w.sessions.length := new
          simp only [isGrouped, addSession, setGroup] at member ⊢
          grind
        rcases h.known s before with shut | mem | mem
        · exact .inl (closed s shut)
        · refine .inr (.inl ?_)
          split at members
          · rw [members.2]
            exact List.mem_append_left _ mem
          · rwa [members]
        · exact .inr (.inr (closing ▸ mem))
    · have shut' : w.group.closed = true := same_closed ▸ shut
      show group.members = []
      split at members
      · rw [members.1] at shut'
        cases shut'
      · rw [members, h.left shut']
  | dropGroup =>
    refine ⟨fun s member => ?_, fun _ => rfl⟩
    rcases h.known s member with shut | mem | mem
    · exact .inl shut
    · exact .inr (.inr (List.mem_append_right _ mem))
    · exact .inr (.inr (List.mem_append_left _ mem))
  | closeMember t rest closing =>
    refine ⟨fun s member => ?_, h.left⟩
    have before : w.isGrouped s = true := (Stays.closeSession.grouped s).symm.trans member
    rcases h.known s before with shut | mem | mem
    · exact .inl (closed s shut)
    · exact .inr (.inl mem)
    · rw [closing] at mem
      rcases List.mem_cons.1 mem with rfl | later
      · exact .inl (closed_closeSession before)
      · exact .inr (.inr later)

/-- What holds in every state: shares are accounted for, sessions have one turn, and turns keep what they found. -/
structure Invariant (w : World) : Prop where
  accounted : w.Accounted w.refs
  slots : w.Slots
  pins : w.Pins
  members : w.Members

/-- Every move keeps the invariant. -/
theorem Invariant.moves (h : w.Invariant) (move : w.Moves w') : w'.Invariant :=
  ⟨h.accounted.moves move, h.slots.moves move, h.pins.moves h.slots h.accounted move, h.members.moves move⟩

/-- A group without sessions satisfies the invariant. -/
theorem Invariant.new {max_sessions max_items max_bytes max_retained_bytes : Nat} :
    (World.new max_sessions max_items max_bytes max_retained_bytes).Invariant := by
  refine ⟨Accounted.new, ?_, fun l lease found => by simp [World.new] at found, ?_⟩
  · constructor <;> intros <;> simp_all [World.new, occupies, isActive, isClosed, state]
  · constructor <;> intros <;> simp_all [World.new, isGrouped]

/-- Every run keeps the invariant. -/
theorem Invariant.run {serializedSize : ResponseCheckpoint → Nat} (h : w.Invariant) (ops : List Op) :
    (w.run serializedSize ops).Invariant := by
  induction ops generalizing w with
  | nil => exact h
  | cons op ops ih => exact ih (h.moves (moves_step op))

/-- The end of a lease as its session sees it: idle, and no latest checkpoint lost but the parent of the lease. -/
structure LetsGo (w : World) (lease : ResponseContinuation) (w' : World) : Prop where
  idle : w'.isActive lease.session = false
  others : ∀ t, t ≠ lease.session → w'.state t = w.state t
  evicts : w'.latest lease.session = w.latest lease.session ∨
    (w'.latest lease.session = none ∧ lease.parent ≠ none ∧ w.latest lease.session = lease.parent)

/-- A turn that is finished leaves its session idle. -/
theorem isActive_finish : (w.finish l s).isActive s = false := by
  simp only [isActive, state_finish]
  cases w.state s <;> simp

/-- Other sessions end as before. -/
theorem state_setLatest_ne {latest : Option Nat} (other : t ≠ s) : (w.setLatest s latest).state t = w.state t := by
  rw [state_setLatest]
  cases w.state t <;> simp [other.symm]

/-- Other sessions go on as before. -/
theorem state_finish_ne (other : t ≠ s) : (w.finish l s).state t = w.state t := by
  rw [state_finish]
  cases w.state t <;> simp [other.symm]

/-- An ending lease that finds its parent's id at its own session has found its parent. -/
theorem Invariant.evicts_parent (h : w.Invariant) (found : w.leases[l]? = some lease)
    (open_ : ResponseContinuation.finished lease = false)
    (pinned : (lease.parent.bind w.checkpoints.value).any (fun parent =>
      (w.latest lease.session).any (w.hasId · parent.response_id)) = true) :
    lease.parent ≠ none ∧ w.latest lease.session = lease.parent := by
  have pin := h.pins l lease found open_
  obtain ⟨v, at_, named⟩ := Option.any_eq_true _ _ |>.1 pinned
  obtain ⟨p, parent, value⟩ := Option.bind_eq_some_iff.1 at_
  obtain ⟨c, latest, same_id⟩ := Option.any_eq_true _ _ |>.1 named
  have asked := pin.matched p (by simp [ResponseContinuation.refs, parent])
  obtain ⟨id, previous, is⟩ := Option.any_eq_true _ _ |>.1 asked
  have id_eq : v.response_id = id := by simpa [hasId, value] using is
  have own := pin.own c latest (by rw [previous, Option.any_some, ← id_eq]; exact same_id)
  exact ⟨by simp [parent], latest.trans own.symm⟩

/-- A turn that ends lets go of what it held. -/
theorem Invariant.dropLease_letsGo (h : w.Invariant) (settled : w.settled l = some lease)
    (states : ∀ t, w'.state t = w.state t) (values : ∀ p, w'.checkpoints.value p = w.checkpoints.value p) :
    w.LetsGo lease (w'.dropLease l lease) := by
  obtain ⟨found, open_, -⟩ := held_eq_some (settled_eq_some settled).1
  have latest (t : Nat) : w'.latest t = w.latest t := by rw [latest_eq, latest_eq, states]
  have values' : w'.checkpoints.value = w.checkpoints.value := funext values
  have ids (c : Nat) (id : Text) : w'.hasId c id = w.hasId c id := hasId_congr (values c)
  rw [World.dropLease]
  split
  · rename_i pinned
    simp only [latest, values', ids] at pinned
    refine ⟨isActive_finish, fun t other => ?_, .inr ⟨?_, h.evicts_parent found open_ pinned⟩⟩
    · rw [state_finish_ne other, state_setLatest_ne other, states]
    · rw [latest_finish, latest_setLatest_none]
  · refine ⟨isActive_finish, fun t other => ?_, .inl ?_⟩
    · rw [state_finish_ne other, states]
    · rw [latest_finish, latest]

/-- **A pinned parent stays** until its lease ends. -/
theorem Pins.parent_moves (h : w.Pins) (move : w.Moves w') (found : w.leases[l]? = some lease)
    (open_ : ResponseContinuation.finished lease = false) (parent : lease.parent = some p) :
    ∃ lease', w'.leases[l]? = some lease' ∧ (lease'.finished = true ∨ lease'.parent = some p) := by
  have pin := h l lease found open_
  have kept {w' : World} {k : Nat} {f : ResponseContinuation → ResponseContinuation}
      (leases : w'.leases[l]? = w.leases[l]?.map fun lease => if k = l then f lease else lease)
      (keeps : (f lease).parent = lease.parent) :
      ∃ lease', w'.leases[l]? = some lease' ∧ (lease'.finished = true ∨ lease'.parent = some p) := by
    rw [found, Option.map_some] at leases
    refine ⟨_, leases, .inr ?_⟩
    split
    · rw [keeps, parent]
    · exact parent
  have ends {w' : World} {k s : Nat} (leases : w'.leases = w.leases) :
      ∃ lease', (w'.finish k s).leases[l]? = some lease' ∧ (lease'.finished = true ∨ lease'.parent = some p) := by
    rw [leases_finish, leases, found, Option.map_some]
    refine ⟨_, rfl, ?_⟩
    split
    · exact .inl rfl
    · exact .inr parent
  cases move with
  | stay => exact ⟨lease, found, .inr parent⟩
  | addSession group session limit closed closing members fresh inactive open' => exact ⟨lease, found, .inr parent⟩
  | «begin» s id begun =>
    obtain ⟨session, parent', lookup, -, -, -, -, -, rfl⟩ := begin_ok begun
    refine ⟨lease, ?_, .inr parent⟩
    have old : l < w.leases.length := (List.getElem?_eq_some_iff.1 found).1
    have away : ¬ l = ((w.setState s fun state => { state with active := true }).clone parent').leases.length := by
      intro same
      have beyond : l = w.leases.length := same
      omega
    rw [leases_addLease, if_neg away]
    exact found
  | lookupMember k =>
    rcases lookupMember_cases (w := w) k with
      same | ⟨lease', found', looking, ⟨rest, goes⟩ | ⟨r, member, -, -, pinned⟩⟩
    · rw [same]
      exact ⟨lease, found, .inr parent⟩
    · rw [goes]
      exact kept (k := k) (f := fun lease => { lease with lookup := rest }) leases_setLease rfl
    · by_cases here : k = l
      · subst here
        obtain rfl := Option.some.inj (found.symm.trans found')
        rw [(pin.looking looking).1] at parent
        cases parent
      · refine ⟨lease, ?_, .inr parent⟩
        rw [pinned, leases_setLease, leases_setParent, leases_clone, found]
        simp [here]
  | mark k lease' f held same => exact kept leases_setLease (same lease).parent
  | prepare lease' grouped v bytes retained => exact ⟨lease, (leases_retain retained) ▸ found, .inr parent⟩
  | dropPrepared r held => exact ⟨lease, found, .inr parent⟩
  | restore k lease' grouped v bytes settled no_parent named retained =>
    exact kept (by rw [restoreLast, leases_setLease, leases_retain retained]) rfl
  | accept k lease' r held restored =>
    by_cases here : k = l
    · subst here
      obtain rfl := Option.some.inj (found.symm.trans (held_eq_some held).1)
      rw [pin.alone (by simp [restored])] at parent
      cases parent
    · refine ⟨lease, ?_, .inr parent⟩
      rw [leases_setParent, leases_setLease, found]
      simp [here]
  | reject k lease' held =>
    exact kept (k := k) (f := fun lease => { lease with restored := none }) (by rw [leases_release, leases_setLease]) rfl
  | publish k lease' r settled held =>
    have dropped {w' : World} (leases : w'.leases = w.leases) :
        ∃ lease'', (w'.dropLease k lease').leases[l]? = some lease'' ∧
          (lease''.finished = true ∨ lease''.parent = some p) := by
      rw [World.dropLease]
      split
      · exact ends leases
      · exact ends leases
    unfold World.publish
    cases w.sessions[lease'.session]? with
    | none => exact dropped rfl
    | some session =>
      simp only
      split
      · exact dropped rfl
      · exact ends rfl
  | dropLease k lease' settled =>
    rw [World.dropLease]
    split
    · exact ends rfl
    · exact ends rfl
  | discard s => exact ⟨lease, found, .inr parent⟩
  | dropSession s => exact ⟨lease, found, .inr parent⟩
  | dropGroup => exact ⟨lease, found, .inr parent⟩
  | closeMember s rest closing => exact ⟨lease, found, .inr parent⟩

/-- Session safety at one moment: the leases and the slots, closing, the ends of leases, and the pinned parents. -/
structure SessionsSafe (serializedSize : ResponseCheckpoint → Nat) (w : World) : Prop where
  one_lease : ∀ l l' s, w.occupies l = some s → w.occupies l' = some s → l = l'
  slot : ∀ s, w.isActive s = true ↔ ∃ l, w.occupies l = some s
  closed_latest : ∀ s, w.isClosed s = true → w.latest s = none
  closed_begin : ∀ s id w', w.isClosed s = true → w.begin s id ≠ .ok w'
  closed_stays : ∀ s op, w.isClosed s = true → (w.step serializedSize op).isClosed s = true
  closed_publish : ∀ l lease r, w.settled l = some lease → w.isClosed lease.session = true →
    (w.publish l lease r).1 ≠ .ok () ∧ (w.publish l lease r).2.latest lease.session = none
  /-- Once the drop of the group is through, all members are closed; before, they refuse a `begin`. -/
  group_closed : w.group.closed = true → ∀ s, w.isGrouped s = true →
    (∀ id w', w.begin s id ≠ .ok w') ∧ (w.group.closing = [] → w.isClosed s = true)
  dropped : ∀ l lease, w.settled l = some lease → w.LetsGo lease (w.dropLease l lease)
  published : ∀ l lease r, w.settled l = some lease →
    (w.publish l lease r).2.isActive lease.session = false ∧
      (∀ t, t ≠ lease.session → (w.publish l lease r).2.state t = w.state t)
  pinned : ∀ (l : Nat) (lease : ResponseContinuation) (p : Nat) (op : Op), w.leases[l]? = some lease →
    lease.finished = false → lease.parent = some p →
      (w.step serializedSize op).checkpoints.value p = w.checkpoints.value p ∧
      ∃ lease', (w.step serializedSize op).leases[l]? = some lease' ∧
        (lease'.finished = true ∨ lease'.parent = some p)

/-- A turn begins in an open session. -/
theorem closed_of_begin {id : Option Text} (begun : w.begin s id = .ok w') : w.isClosed s = false := by
  obtain ⟨session, parent, lookup, found, open_, -⟩ := begin_ok begun
  simp [isClosed, state, found, open_]

/-- A turn begins in an open group. -/
theorem open_group_of_begin {id : Option Text} (member : w.isGrouped s = true) (begun : w.begin s id = .ok w') :
    w.group.closed = false := by
  unfold World.begin at begun
  obtain ⟨session, found, is⟩ := Option.any_eq_true _ _ |>.1 member
  simp only [found] at begun
  split at begun
  · cases begun
  · rename_i usable
    simpa [is] using usable

/-- The sessions are safe where the invariant holds. -/
theorem Invariant.safe (h : w.Invariant) (serializedSize : ResponseCheckpoint → Nat) :
    w.SessionsSafe serializedSize := by
  constructor
  · exact h.slots.one
  · refine fun s => ⟨h.slots.idle s, ?_⟩
    rintro ⟨l, occupied⟩
    exact h.slots.busy l s occupied
  · exact h.slots.closed
  · intro s id w' shut begun
    rw [closed_of_begin begun] at shut
    cases shut
  · exact fun s op shut => (moves_step op).closed shut
  · intro l lease r settled shut
    obtain ⟨st, found, closed⟩ := Option.any_eq_true _ _ |>.1 shut
    obtain ⟨session, at_, rfl⟩ := Option.map_eq_some_iff.1 found
    have gone := h.slots.closed lease.session shut
    have letsGo : w.LetsGo lease
        ((({ w with prepared := w.prepared.erase r } : World).release (some r)).dropLease l lease) :=
      h.dropLease_letsGo settled (fun _ => rfl) fun _ => value_release
    unfold World.publish
    simp only [at_, closed, if_true]
    refine ⟨throw_ne_ok, ?_⟩
    rcases letsGo.evicts with same | ⟨none_left, -⟩
    · rw [same, gone]
    · exact none_left
  · intro shut s member
    refine ⟨fun id w' begun => ?_, fun done => ?_⟩
    · rw [open_group_of_begin member begun] at shut
      cases shut
    · rcases h.members.known s member with closed | mem | mem
      · exact closed
      · rw [h.members.left shut] at mem
        cases mem
      · rw [done] at mem
        cases mem
  · exact fun l lease settled => h.dropLease_letsGo settled (fun _ => rfl) fun _ => rfl
  · intro l lease r settled
    have letsGo : w.LetsGo lease
        ((({ w with prepared := w.prepared.erase r } : World).release (some r)).dropLease l lease) :=
      h.dropLease_letsGo settled (fun _ => rfl) fun _ => value_release
    unfold World.publish
    cases w.sessions[lease.session]? with
    | none => exact ⟨letsGo.idle, letsGo.others⟩
    | some session =>
      simp only
      split
      · exact ⟨letsGo.idle, letsGo.others⟩
      · refine ⟨isActive_finish, fun t other => ?_⟩
        rw [state_finish_ne other, state_setLatest_ne other]
        rfl
  · intro l lease p op found open_ parent
    have held : p ∈ w.refs := mem_refs_iff.2 (.inr (.inl ⟨l, lease, found, .inl parent⟩))
    exact ⟨value_moves (moves_step op) (h.accounted.sound.lt held), h.pins.parent_moves (moves_step op) found open_ parent⟩

/-- **Sessions are safe under any interleaving** of the operations of their owners, from an empty group on. -/
theorem sessions_safe (serializedSize : ResponseCheckpoint → Nat)
    (max_sessions max_items max_bytes max_retained_bytes : Nat) (ops : List Op) :
    ((World.new max_sessions max_items max_bytes max_retained_bytes).run serializedSize ops).SessionsSafe
      serializedSize :=
  (Invariant.new.run ops).safe serializedSize

/-- No other session, nor a lease of one, holds on to `p`. -/
def OthersLetGo (w : World) (s p : Nat) : Prop :=
  (∀ t, t ≠ s → w.latest t ≠ some p) ∧
    ∀ (k : Nat) (other : ResponseContinuation), w.leases[k]? = some other → other.session ≠ s →
      other.parent ≠ some p ∧ other.restored ≠ some p

/-- What the budget is charged for at one moment. -/
structure BudgetExact (serializedSize : ResponseCheckpoint → Nat) (w : World) : Prop where
  used : w.checkpoints.used = ∑ r ∈ w.refs.toFinset, w.checkpoints.charge r
  limit : w.checkpoints.used ≤ w.group.max_retained_bytes
  /-- Returning the charge of a retained checkpoint does not wrap. -/
  no_underflow : ∀ r ∈ w.refs, w.checkpoints.charge r ≤ w.checkpoints.used
  empty : w.refs = [] → w.checkpoints.used = 0
  /-- A call that is refused changes nothing. -/
  refused : ∀ (l : Nat) (lease : ResponseContinuation) (response_id : Text) (conversation_id : Option Text)
    (metadata : ResponseMetadata) (new_items : List InOutItem) (durable : Bool) (e : ExecutorError),
    w.held l = some lease →
    w.checkpoint serializedSize lease response_id conversation_id metadata new_items durable = .error e →
      w.step serializedSize (.checkpoint l response_id conversation_id metadata new_items durable) = w
  refused_parent : ∀ (l : Nat) (lease : ResponseContinuation) (response_id : Text) (conversation_id : Option Text)
    (history : List InputItem) (metadata : ResponseMetadata) (e : ExecutorError),
    w.settled l = some lease → lease.previous_id = some response_id →
    w.retainParent serializedSize l lease
      { response_id, conversation_id, history := canonicalSessionHistory history, metadata, durable := true } = .error e →
      w.step serializedSize (.retainParent l conversation_id history metadata) = w
  /-- The charge of the parent is back when the slot of an ended lease is idle. -/
  returned : ∀ (l : Nat) (lease : ResponseContinuation) (p : Nat), w.settled l = some lease →
    lease.parent = some p → w.OthersLetGo lease.session p →
      (w.dropLease l lease).isActive lease.session = false ∧ p ∉ (w.dropLease l lease).refs ∧
      ∀ r ∈ w.prepared, (w.publish l lease r).2.isActive lease.session = false ∧ p ∉ (w.publish l lease r).2.refs

/-- The last turn to let go of a parent returns its bytes. -/
theorem Invariant.finish_returned (h : w.Invariant) (settled : w.settled l = some lease) (parent : lease.parent = some p)
    (others : w.OthersLetGo lease.session p) (leases : w'.leases = w.leases)
    (latest : ∀ t, t ≠ lease.session → w'.latest t = w.latest t) (own : w'.latest lease.session ≠ some p)
    (prepared : ∀ r ∈ w'.prepared, r ∈ w.prepared) : p ∉ (w'.finish l lease.session).refs := by
  obtain ⟨held, restored⟩ := settled_eq_some settled
  obtain ⟨found, open_, -⟩ := held_eq_some held
  have pinned : p ∈ w.leases.flatMap ResponseContinuation.refs := mem_leaseRefs_iff.2 ⟨l, lease, found, .inl parent⟩
  rw [mem_refs_iff]
  rintro (⟨t, holds⟩ | ⟨k, other, at_, holds⟩ | mem)
  · rw [latest_finish] at holds
    by_cases here : t = lease.session
    · exact own (here ▸ holds)
    · rw [latest t here] at holds
      exact others.1 t here holds
  · rw [leases_finish, leases] at at_
    by_cases here : l = k
    · subst here
      simp only [found, if_true, Option.map_some, Option.some.injEq] at at_
      rw [← at_] at holds
      simp [restored] at holds
    · have before : w.leases[k]? = some other := by simpa [here] using at_
      by_cases same : other.session = lease.session
      · cases fin : other.finished with
        | true =>
          have empty := (h.slots.ended k other before fin).1
          have mem : p ∈ other.refs := by simpa [ResponseContinuation.refs] using holds
          rw [empty] at mem
          cases mem
        | false =>
          refine here (h.slots.one l k lease.session ?_ ?_)
          · simp [occupies, found, open_]
          · simp [occupies, before, fin, same]
      · have free := others.2 k other before same
        exact holds.elim free.1 free.2
  · exact h.accounted.not_prepared (.inr pinned) (prepared p mem)

/-- A turn that ends returns the bytes of what only it held. -/
theorem Invariant.dropLease_returned (h : w.Invariant) (settled : w.settled l = some lease)
    (parent : lease.parent = some p) (others : w.OthersLetGo lease.session p) (leases : w'.leases = w.leases)
    (latest : ∀ t, w'.latest t = w.latest t) (values : ∀ p, w'.checkpoints.value p = w.checkpoints.value p)
    (prepared : ∀ r ∈ w'.prepared, r ∈ w.prepared) : p ∉ (w'.dropLease l lease).refs := by
  have found := (held_eq_some (settled_eq_some settled).1).1
  rw [World.dropLease]
  split
  · refine h.finish_returned settled parent others leases (fun t other => ?_) ?_ prepared
    · rw [latest_setLatest_ne other.symm, latest]
    · rw [latest_setLatest_none]
      intro same
      cases same
  · rename_i unpinned
    refine h.finish_returned settled parent others leases (fun t _ => latest t) (fun holds => unpinned ?_) prepared
    have live : p < w.checkpoints.cells.length :=
      h.accounted.sound.lt (mem_refs_iff.2 (.inr (.inl ⟨l, lease, found, .inl parent⟩)))
    have value : w.checkpoints.value p = some w.checkpoints.cells[p].value := by simp [Arena.value, live]
    have kept := (values p).trans value
    simp [parent, holds, hasId, kept]

/-- The budget is exact where the invariant holds. -/
theorem Invariant.budget (h : w.Invariant) (serializedSize : ResponseCheckpoint → Nat) :
    w.BudgetExact serializedSize := by
  constructor
  · exact h.accounted.sound.used
  · exact h.accounted.limit
  · exact fun r held => h.accounted.sound.charge_le held
  · intro nothing
    rw [h.accounted.sound.used, nothing]
    rfl
  · intro l lease response_id conversation_id metadata new_items durable e held failed
    simp only [World.step, held, failed, after]
  · intro l lease response_id conversation_id history metadata e settled named failed
    simp only [World.step, settled, named]
    cases lease.parent with
    | none => simp only [failed, after]
    | some p => rfl
  · intro l lease p settled parent others
    have idle := (h.safe serializedSize).dropped l lease settled |>.idle
    refine ⟨idle, h.dropLease_returned settled parent others rfl (fun _ => rfl) (fun _ => rfl) fun _ => id, ?_⟩
    intro r held
    have found := (held_eq_some (settled_eq_some settled).1).1
    refine ⟨((h.safe serializedSize).published l lease r settled).1, ?_⟩
    have refused : p ∉ ((({ w with prepared := w.prepared.erase r } : World).release (some r)).dropLease l lease).refs :=
      h.dropLease_returned settled parent others rfl (fun _ => rfl) (fun _ => value_release)
        fun _ mem => List.mem_of_mem_erase mem
    unfold World.publish
    cases at_ : w.sessions[lease.session]? with
    | none => exact refused
    | some session =>
      simp only
      split
      · exact refused
      · refine h.finish_returned settled parent others rfl (fun t other => latest_setLatest_ne other.symm) ?_
          fun _ mem => List.mem_of_mem_erase mem
        rw [latest_eq, state_setLatest]
        have here : w.state lease.session = some session.state := by simp [state, at_]
        have same : ({ w with prepared := w.prepared.erase r } : World).state lease.session = some session.state := here
        rw [same]
        simp only [Option.map_some, if_true, Option.bind_some, ne_eq, Option.some.injEq]
        rintro rfl
        exact h.accounted.not_prepared (.inr (mem_leaseRefs_iff.2 ⟨l, lease, found, .inl parent⟩)) held

/-- **A prepared checkpoint is charged its serialized size**, within the limit of its session; outside the group nothing. -/
theorem checkpoint_charge {serializedSize : ResponseCheckpoint → Nat} {response_id : Text} {conversation_id : Option Text}
    {metadata : ResponseMetadata} {new_items : List InOutItem} {durable : Bool}
    (made : w.checkpoint serializedSize lease response_id conversation_id metadata new_items durable = .ok w') :
    ∃ (session : ResponseSession) (checkpoint : ResponseCheckpoint), w.sessions[lease.session]? = some session ∧
      checkpoint.response_id = response_id ∧ w'.prepared = w.prepared ++ [w.checkpoints.cells.length] ∧
      w'.checkpoints.value w.checkpoints.cells.length = some checkpoint ∧
      serializedSize checkpoint ≤ session.state.max_bytes ∧
      w'.checkpoints.charge w.checkpoints.cells.length = if session.grouped then serializedSize checkpoint else 0 := by
  unfold World.checkpoint at made
  dsimp only at made
  cases found : w.sessions[lease.session]? with
  | none =>
    rw [found] at made
    cases made
  | some session =>
    rw [found] at made
    dsimp only at made
    split at made
    · cases made
    · rename_i bytes fits
      obtain ⟨kept, retained, same⟩ := bind_eq_ok.1 made
      cases pure_eq_ok.1 same
      obtain ⟨charge, rfl, -, charged⟩ := retain_ok retained
      split at fits
      · unfold serializedSizeUpTo at fits
        split at fits
        · rename_i within
          cases fits
          refine ⟨session, _, rfl, rfl, ?_, Arena.value_alloc_self, within, Arena.charge_alloc_self.trans charged⟩
          simp [World.prepareLast, Arena.alloc]
        · cases fits
      · cases fits

/-- **The budget is exact under any interleaving**: it is charged for every checkpoint that a session, a lease or a
turn about to publish it still refers to, once. -/
theorem budget_exact (serializedSize : ResponseCheckpoint → Nat)
    (max_sessions max_items max_bytes max_retained_bytes : Nat) (ops : List Op) :
    ((World.new max_sessions max_items max_bytes max_retained_bytes).run serializedSize ops).BudgetExact
      serializedSize :=
  (Invariant.new.run ops).budget serializedSize

end World
end AgenticStack
