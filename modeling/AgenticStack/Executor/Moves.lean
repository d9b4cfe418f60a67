import AgenticStack.Library.Outcome
import AgenticStack.Executor.Continuation

/-!
# What a step can do

The guards of every operation and what it does to the world, said once. The
invariants of the following modules are proved by cases on `Moves`.
-/

namespace AgenticStack
set_option autoImplicit false
open Library

namespace World

variable {w : World} {s l r : Nat} {lease : ResponseContinuation}

/-- What `retain` makes: a cell whose charge, if any, fits the budget. -/
theorem retain_ok {w' : World} {grouped : Bool} {v : ResponseCheckpoint} {bytes : Nat}
    (retained : w.retain grouped v bytes = .ok w') :
    ∃ charge, w' = { w with checkpoints := w.checkpoints.alloc v charge } ∧
      (charge = 0 ∨ w.checkpoints.used + charge ≤ w.group.max_retained_bytes) ∧ charge = if grouped then bytes else 0 := by
  cases grouped with
  | false => exact ⟨0, (Except.ok.inj retained).symm, .inl rfl, rfl⟩
  | true =>
    by_cases fits : w.checkpoints.used + bytes < 2 ^ 64 ∧ w.checkpoints.used + bytes ≤ w.group.max_retained_bytes
    · have reserved : w.reserve bytes = .ok () := by rw [reserve, if_pos fits]; rfl
      rw [World.retain, if_pos rfl, reserved] at retained
      exact ⟨bytes, (Except.ok.inj retained).symm, .inr fits.2, rfl⟩
    · have refused : w.reserve bytes = .error aggregateBudgetError := by rw [reserve, if_neg fits]; rfl
      rw [World.retain, if_pos rfl, refused] at retained
      exact absurd retained (by intro same; cases same)

section
variable {serializedSize : ResponseCheckpoint → Nat} {w' : World}

/-- What `checkpoint` makes: a cell under the next position, prepared. -/
theorem checkpoint_ok {response_id : Text} {conversation_id : Option Text} {metadata : ResponseMetadata}
    {new_items : List InOutItem} {durable : Bool}
    (made : w.checkpoint serializedSize lease response_id conversation_id metadata new_items durable = .ok w') :
    ∃ grouped v bytes w₁, w.retain grouped v bytes = .ok w₁ ∧
      v.history = canonicalSessionHistory (w.parentItems lease ++ intoInputItems new_items) ∧
      w' = w₁.prepareLast := by
  simp only [checkpoint] at made
  cases found : w.sessions[lease.session]? with
  | none =>
    rw [found] at made
    cases made
  | some session =>
    simp only [found] at made
    split at made
    · cases made
    · rename_i bytes fits
      obtain ⟨w₁, retained, rest⟩ := bind_eq_ok.1 made
      exact ⟨_, _, _, w₁, retained, rfl, (Except.ok.inj rest).symm⟩

/-- What `retain_parent` makes: a cell under the next position, restored by the lease. -/
theorem retainParent_ok {v : ResponseCheckpoint} (made : w.retainParent serializedSize l lease v = .ok w') :
    ∃ grouped bytes w₁, w.retain grouped v bytes = .ok w₁ ∧
      w' = w₁.restoreLast l := by
  simp only [retainParent] at made
  cases found : w.sessions[lease.session]? with
  | none =>
    rw [found] at made
    cases made
  | some session =>
    simp only [found] at made
    split at made
    · cases made
    · rename_i bytes fits
      obtain ⟨w₁, retained, rest⟩ := bind_eq_ok.1 made
      exact ⟨_, _, w₁, retained, (Except.ok.inj rest).symm⟩

end

/-- The turn that is held goes on and is not looking for its parent. -/
theorem held_eq_some (held : w.held l = some lease) :
    w.leases[l]? = some lease ∧ lease.finished = false ∧ lease.lookup = none := by
  obtain ⟨found, pass⟩ := Option.filter_eq_some_iff.1 held
  simpa [found] using pass

/-- The turn that is settled restores nothing. -/
theorem settled_eq_some (settled : w.settled l = some lease) : w.held l = some lease ∧ lease.restored = none := by
  obtain ⟨held, pass⟩ := Option.filter_eq_some_iff.1 settled
  exact ⟨held, by simpa using pass⟩

/-- What a successful `begin` does: the slot was idle, and the lease pins the session's own checkpoint if that is the
parent, or has yet to look for it. -/
theorem begin_ok {w' : World} {id : Option Text} (begun : w.begin s id = .ok w') :
    ∃ session parent lookup, w.sessions[s]? = some session ∧ session.state.closed = false ∧
      session.state.active = false ∧ parent = (session.state.latest.filter fun r => id.any (w.hasId r)) ∧
      (lookup ≠ none → parent = none ∧ session.grouped = true) ∧
      w' = ((w.setState s fun state => { state with active := true }).clone parent).addLease
        { session := s, previous_id := id, parent, history_replaced := false, recorded_output_count := 0,
          finished := false, lookup, restored := none } := by
  unfold World.begin at begun
  cases found : w.sessions[s]? with
  | none =>
    rw [found] at begun
    cases begun
  | some session =>
    simp only [found] at begun
    split at begun
    · cases begun
    · split at begun
      · cases begun
      · rename_i usable
        refine ⟨session, _, _, rfl, ?_, ?_, rfl, ?_, (Except.ok.inj begun).symm⟩
        · simpa using fun closed => usable (.inl closed)
        · simpa using fun active => usable (.inr active)
        · intro looking
          split at looking
          · rename_i forked
            exact ⟨Option.isNone_iff_eq_none.1 forked.1, forked.2.2⟩
          · exact absurd rfl looking

/-- What one more look does: the search goes on, ends, or finds a parent at another open member. -/
theorem lookupMember_cases (l : Nat) : w.lookupMember l = w ∨
    ∃ lease, w.leases[l]? = some lease ∧ lease.lookup ≠ none ∧
      ((∃ rest, w.lookupMember l = w.setLease l fun lease => { lease with lookup := rest }) ∨
        ∃ r member, w.latest member = some r ∧ lease.previous_id.any (w.hasId r) = true ∧
          w.lookupMember l = ((w.clone (some r)).setParent l (some r)).setLease l
            fun lease => { lease with lookup := none }) := by
  unfold lookupMember
  cases found : w.leases[l]? with
  | none => exact .inl rfl
  | some lease =>
    simp only
    cases looking : lease.lookup with
    | none => exact .inl rfl
    | some members =>
      refine .inr ⟨lease, rfl, by simp [looking], ?_⟩
      cases members with
      | nil => exact .inl ⟨none, rfl⟩
      | cons member rest =>
        simp only
        split
        · exact .inl ⟨some rest, rfl⟩
        · rename_i r sought
          obtain ⟨source, open_, latest⟩ := Option.bind_eq_some_iff.1 sought
          obtain ⟨at_, -⟩ := Option.filter_eq_some_iff.1 open_
          obtain ⟨here, matching⟩ := Option.filter_eq_some_iff.1 latest
          exact .inr ⟨r, member, by simp [World.latest, at_, here], matching, rfl⟩

/-- The lease keeps all that bears on its parent and its slot. -/
structure SameLease (lease lease' : ResponseContinuation) : Prop where
  session : lease'.session = lease.session
  previous_id : lease'.previous_id = lease.previous_id
  parent : lease'.parent = lease.parent
  restored : lease'.restored = lease.restored
  lookup : lease'.lookup = lease.lookup
  finished : lease'.finished = lease.finished

/-- The worlds one step leads to. -/
inductive Moves (w : World) : World → Prop where
  | stay : w.Moves w
  | addSession (group : ResponseSessionGroup) (session : ResponseSession)
      (limit : group.max_retained_bytes = w.group.max_retained_bytes) (closed : group.closed = w.group.closed)
      (closing : group.closing = w.group.closing)
      (members : if session.grouped then w.group.closed = false ∧ group.members = w.group.members ++ [w.sessions.length]
        else group.members = w.group.members)
      (fresh : session.state.latest = none) (inactive : session.state.active = false)
      (open_ : session.state.closed = false) : w.Moves ((w.setGroup group).addSession session)
  | «begin» (s : Nat) (id : Option Text) {w' : World} (begun : w.begin s id = .ok w') : w.Moves w'
  | lookupMember (l : Nat) : w.Moves (w.lookupMember l)
  | mark (l : Nat) (lease : ResponseContinuation) (f : ResponseContinuation → ResponseContinuation)
      (held : w.held l = some lease) (kept : ∀ lease, SameLease lease (f lease)) : w.Moves (w.setLease l f)
  | prepare (lease : ResponseContinuation) (grouped : Bool) (v : ResponseCheckpoint) (bytes : Nat) {w' : World}
      (retained : w.retain grouped v bytes = .ok w') : w.Moves w'.prepareLast
  | dropPrepared (r : Nat) (held : r ∈ w.prepared) :
      w.Moves ({ w with prepared := w.prepared.erase r }.release (some r))
  | restore (l : Nat) (lease : ResponseContinuation) (grouped : Bool) (v : ResponseCheckpoint) (bytes : Nat) {w' : World}
      (settled : w.settled l = some lease) (no_parent : lease.parent = none)
      (named : lease.previous_id = some v.response_id) (retained : w.retain grouped v bytes = .ok w') :
      w.Moves (w'.restoreLast l)
  | accept (l : Nat) (lease : ResponseContinuation) (r : Nat) (held : w.held l = some lease)
      (restored : lease.restored = some r) :
      w.Moves ((w.setLease l fun lease => { lease with restored := none }).setParent l (some r))
  | reject (l : Nat) (lease : ResponseContinuation) (held : w.held l = some lease) :
      w.Moves ((w.setLease l fun lease => { lease with restored := none }).release lease.restored)
  | publish (l : Nat) (lease : ResponseContinuation) (r : Nat) (settled : w.settled l = some lease)
      (held : r ∈ w.prepared) : w.Moves (w.publish l lease r).2
  | dropLease (l : Nat) (lease : ResponseContinuation) (settled : w.settled l = some lease) :
      w.Moves (w.dropLease l lease)
  | discard (s : Nat) : w.Moves (w.setLatest s none)
  | dropSession (s : Nat) : w.Moves (w.dropSession s)
  | dropGroup : w.Moves w.dropGroup
  | closeMember (s : Nat) (rest : List Nat) (closing : w.group.closing = s :: rest) :
      w.Moves ((w.setGroup { w.group with closing := rest }).closeSession s)

/-- A step that fails moves nothing. -/
theorem Moves.after {result : ExecutorResult World} (moves : ∀ w', result = .ok w' → w.Moves w') :
    w.Moves (w.after result) := by
  cases result with
  | error e => exact .stay
  | ok w' => exact moves w' rfl

/-- Every operation is a move. -/
theorem moves_step {serializedSize : ResponseCheckpoint → Nat} (op : Op) : w.Moves (w.step serializedSize op) := by
  cases op with
  | standalone max_items max_bytes => exact .addSession w.group _ rfl rfl rfl rfl rfl rfl rfl
  | newSession =>
    simp only [World.step]
    split
    · exact .stay
    · refine .after fun w' made => ?_
      rw [World.newSession] at made
      split at made
      · cases made
      · rename_i usable
        obtain rfl := Except.ok.inj made
        refine .addSession _ _ rfl rfl rfl ⟨?_, rfl⟩ rfl rfl rfl
        simpa using fun closed => usable (.inl closed)
  | «begin» s previous_id =>
    simp only [World.step]
    split
    · exact .stay
    · exact .after fun w' begun => .begin s previous_id begun
  | lookupMember l => exact .lookupMember l
  | markHistoryReplaced l =>
    simp only [World.step]
    split
    · rename_i lease held
      exact .mark l lease _ held fun _ => ⟨rfl, rfl, rfl, rfl, rfl, rfl⟩
    · exact .stay
  | markOutputsRecorded l output_count =>
    simp only [World.step]
    split
    · rename_i lease held
      exact .mark l lease _ held fun _ => ⟨rfl, rfl, rfl, rfl, rfl, rfl⟩
    · exact .stay
  | checkpoint l response_id conversation_id metadata new_items durable =>
    simp only [World.step]
    split
    · rename_i lease held
      refine .after fun w' made => ?_
      obtain ⟨grouped, v, bytes, w₁, retained, -, rfl⟩ := checkpoint_ok made
      exact .prepare lease grouped v bytes retained
    · exact .stay
  | dropPrepared r =>
    simp only [World.step]
    split
    · rename_i held
      exact .dropPrepared r held
    · exact .stay
  | retainParent l conversation_id history metadata =>
    simp only [World.step]
    split
    · rename_i lease settled
      split
      · rename_i id no_parent named
        refine .after fun w' made => ?_
        obtain ⟨grouped, bytes, w₁, retained, rfl⟩ := retainParent_ok made
        exact .restore l lease grouped _ bytes settled no_parent named retained
      · exact .stay
    · exact .stay
  | acceptParent l =>
    simp only [World.step]
    split
    · rename_i lease held
      split
      · rename_i r restored
        exact .accept l lease r held restored
      · exact .stay
    · exact .stay
  | rejectParent l =>
    simp only [World.step]
    split
    · rename_i lease held
      exact .reject l lease held
    · exact .stay
  | publish l r =>
    simp only [World.step]
    split
    · rename_i lease settled
      split
      · rename_i held
        exact .publish l lease r settled held
      · exact .stay
    · exact .stay
  | dropLease l =>
    simp only [World.step]
    split
    · rename_i lease settled
      exact .dropLease l lease settled
    · exact .stay
  | discardCachedResponse s response_id =>
    simp only [World.step, World.discardCachedResponse]
    split
    · split
      · exact .discard s
      · exact .stay
    · exact .stay
  | dropSession s =>
    simp only [World.step]
    split
    · exact .dropSession s
    · exact .stay
  | dropGroup =>
    simp only [World.step]
    split
    · exact .stay
    · exact .dropGroup
  | closeMember =>
    simp only [World.step, World.closeMember]
    split
    · exact .stay
    · rename_i s rest closing
      exact .closeMember s rest closing

end World
end AgenticStack
