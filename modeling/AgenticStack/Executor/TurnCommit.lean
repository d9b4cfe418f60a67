import AgenticStack.Executor.Recording
import AgenticStack.Executor.SessionRuns
import AgenticStack.Storage.ItemRow

/-!
# A turn commits

A turn reserves its checkpoint, writes to the store and publishes the checkpoint.
Between these steps others go on: they write responses of their own, take turns of
other sessions, and may close this one.
-/

namespace AgenticStack
set_option autoImplicit false
open Library

namespace World

/-- The lease an operation is about. -/
def Op.lease : Op → Option Nat
  | .lookupMember l | .markHistoryReplaced l | .markOutputsRecorded l _ | .checkpoint l _ _ _ _ _ | .retainParent l _ _ _
  | .acceptParent l | .rejectParent l | .publish l _ | .dropLease l => some l
  | .standalone _ _ | .newSession | .begin _ _ | .dropPrepared _ | .discardCachedResponse _ _ | .dropSession _
  | .dropGroup | .closeMember => none

/-- The prepared checkpoint an operation takes. -/
def Op.takes : Op → Option Nat
  | .publish _ r | .dropPrepared r => some r
  | _ => none

variable {w w' : World} {l k r s : Nat} {lease other : ResponseContinuation} {op : Op}
  {serializedSize : ResponseCheckpoint → Nat}

/-- A turn that ends leaves the others as they are. -/
theorem leases_dropLease (apart : k ≠ l) : (w.dropLease k lease).leases[l]? = w.leases[l]? := by
  rw [dropLease, leases_finish]
  have kept : (fun lease : ResponseContinuation =>
      if k = l then { lease with parent := none, finished := true } else lease) = id := by
    funext lease
    rw [if_neg apart]
    rfl
  rw [kept, Option.map_id]
  split <;> rfl

/-- Changing one turn leaves the others as they are. -/
theorem leases_setLease_ne {f : ResponseContinuation → ResponseContinuation} (apart : k ≠ l) :
    (w.setLease k f).leases[l]? = w.leases[l]? := by
  rw [leases_setLease]
  cases w.leases[l]? with
  | none => rfl
  | some lease => rw [Option.map_some, if_neg apart]

/-- Changing the parent of one turn leaves the others as they are. -/
theorem leases_setParent_ne {parent : Option Nat} (apart : k ≠ l) : (w.setParent k parent).leases[l]? = w.leases[l]? := by
  rw [setParent, leases_release]
  exact leases_setLease_ne apart

/-- Finishing one turn leaves the others as they are. -/
theorem leases_finish_ne (apart : k ≠ l) : (w.finish k s).leases[l]? = w.leases[l]? := by
  rw [finish, leases_setLease_ne apart, leases_setState]
  exact leases_setParent_ne apart

/-- A step that fails leaves the turns as they are. -/
theorem leases_after {result : ExecutorResult World} (kept : ∀ w', result = .ok w' → w'.leases[l]? = w.leases[l]?) :
    (w.after result).leases[l]? = w.leases[l]? := by
  cases result with
  | error e => rfl
  | ok w' => exact kept w' rfl

/-- Publishing leaves the other turns as they are. -/
theorem leases_publish (apart : k ≠ l) : (w.publish k other r).2.leases[l]? = w.leases[l]? := by
  unfold publish
  cases w.sessions[other.session]? with
  | none => exact leases_dropLease apart
  | some session =>
    dsimp only
    split
    · exact leases_dropLease apart
    · exact leases_finish_ne apart

/-- **A lease stays as it is** while others are at work. -/
theorem leases_step (found : w.leases[l]? = some lease) (apart : op.lease ≠ some l) :
    (w.step serializedSize op).leases[l]? = some lease := by
  rw [← found]
  cases op with
  | standalone max_items max_bytes => rfl
  | newSession =>
    simp only [World.step]
    split
    · rfl
    · refine leases_after fun w' made => ?_
      rw [World.newSession] at made
      split at made
      · cases made
      · cases made
        rfl
  | «begin» s previous_id =>
    simp only [World.step]
    split
    · rfl
    · refine leases_after fun w' begun => ?_
      obtain ⟨session, parent, lookup, -, -, -, -, -, rfl⟩ := begin_ok begun
      have before : l < w.leases.length := (List.getElem?_eq_some_iff.1 found).1
      rw [leases_addLease]
      rw [if_neg (by simpa using Nat.ne_of_lt before)]
      rfl
  | lookupMember k =>
    have other : k ≠ l := fun same => apart (congrArg some same)
    simp only [World.step]
    rcases lookupMember_cases (w := w) k with same | ⟨lease, -, -, ⟨rest, goes⟩ | ⟨r, member, -, -, pinned⟩⟩
    · rw [same]
    · rw [goes, leases_setLease_ne other]
    · rw [pinned, leases_setLease_ne other, leases_setParent_ne other, leases_clone]
  | markHistoryReplaced k =>
    have other : k ≠ l := fun same => apart (congrArg some same)
    simp only [World.step]
    split
    · exact leases_setLease_ne other
    · rfl
  | markOutputsRecorded k output_count =>
    have other : k ≠ l := fun same => apart (congrArg some same)
    simp only [World.step]
    split
    · exact leases_setLease_ne other
    · rfl
  | checkpoint k response_id conversation_id metadata new_items durable =>
    simp only [World.step]
    split
    · refine leases_after fun w' made => ?_
      obtain ⟨grouped, v, bytes, w₁, retained, -, rfl⟩ := checkpoint_ok made
      obtain ⟨charge, rfl, -⟩ := retain_ok retained
      rfl
    · rfl
  | dropPrepared r =>
    simp only [World.step]
    split <;> rfl
  | retainParent k conversation_id history metadata =>
    have other : k ≠ l := fun same => apart (congrArg some same)
    simp only [World.step]
    split
    · split
      · refine leases_after fun w' made => ?_
        obtain ⟨grouped, bytes, w₁, retained, rfl⟩ := retainParent_ok made
        obtain ⟨charge, rfl, -⟩ := retain_ok retained
        exact leases_setLease_ne other
      · rfl
    · rfl
  | acceptParent k =>
    have other : k ≠ l := fun same => apart (congrArg some same)
    simp only [World.step]
    split
    · split
      · rw [leases_setParent_ne other, leases_setLease_ne other]
      · rfl
    · rfl
  | rejectParent k =>
    have other : k ≠ l := fun same => apart (congrArg some same)
    simp only [World.step]
    split
    · rw [leases_release, leases_setLease_ne other]
    · rfl
  | publish k r =>
    have other : k ≠ l := fun same => apart (congrArg some same)
    simp only [World.step]
    split
    · split
      · exact leases_publish other
      · rfl
    · rfl
  | dropLease k =>
    have other : k ≠ l := fun same => apart (congrArg some same)
    simp only [World.step]
    split
    · exact leases_dropLease other
    · rfl
  | discardCachedResponse s response_id =>
    simp only [World.step, World.discardCachedResponse]
    split
    · split <;> rfl
    · rfl
  | dropSession s =>
    simp only [World.step]
    split <;> rfl
  | dropGroup =>
    simp only [World.step]
    split <;> rfl
  | closeMember =>
    simp only [World.step, World.closeMember]
    split <;> rfl

/-- A turn that ends has nothing prepared any more. -/
theorem prepared_dropLease : (w.dropLease l lease).prepared = w.prepared := by
  rw [dropLease]
  split <;> rfl

/-- What was published is no longer prepared. -/
theorem prepared_publish : (w.publish l lease r).2.prepared = w.prepared.erase r := by
  unfold publish
  cases w.sessions[lease.session]? with
  | none => exact prepared_dropLease
  | some session =>
    dsimp only
    split
    · exact prepared_dropLease
    · rfl

/-- **A prepared checkpoint stays prepared** while others are at work. -/
theorem prepared_step (mem : r ∈ w.prepared) (apart : op.takes ≠ some r) : r ∈ (w.step serializedSize op).prepared := by
  have kept {w' : World} (same : w'.prepared = w.prepared) : r ∈ w'.prepared := same ▸ mem
  have after {result : ExecutorResult World} (still : ∀ w', result = .ok w' → r ∈ w'.prepared) : r ∈ (w.after result).prepared := by
    cases result with
    | error e => exact mem
    | ok w' => exact still w' rfl
  cases op with
  | standalone max_items max_bytes => exact mem
  | newSession =>
    simp only [World.step]
    split
    · exact mem
    · refine after fun w' made => ?_
      rw [World.newSession] at made
      split at made
      · cases made
      · cases made
        exact mem
  | «begin» s previous_id =>
    simp only [World.step]
    split
    · exact mem
    · refine after fun w' begun => ?_
      obtain ⟨session, parent, lookup, -, -, -, -, -, rfl⟩ := begin_ok begun
      exact mem
  | lookupMember k =>
    simp only [World.step]
    rcases lookupMember_cases (w := w) k with same | ⟨lease, -, -, ⟨rest, goes⟩ | ⟨r, member, -, -, pinned⟩⟩
    · exact kept (congrArg World.prepared same)
    · rw [goes]
      exact mem
    · rw [pinned]
      exact mem
  | checkpoint k response_id conversation_id metadata new_items durable =>
    simp only [World.step]
    split
    · refine after fun w' made => ?_
      obtain ⟨grouped, v, bytes, w₁, retained, -, rfl⟩ := checkpoint_ok made
      obtain ⟨charge, rfl, -⟩ := retain_ok retained
      exact List.mem_append_left _ mem
    · exact mem
  | dropPrepared r' =>
    simp only [World.step]
    split
    · have other : r ≠ r' := fun same => apart (congrArg some same.symm)
      exact (List.mem_erase_of_ne other).2 mem
    · exact mem
  | retainParent k conversation_id history metadata =>
    simp only [World.step]
    split
    · split
      · refine after fun w' made => ?_
        obtain ⟨grouped, bytes, w₁, retained, rfl⟩ := retainParent_ok made
        obtain ⟨charge, rfl, -⟩ := retain_ok retained
        exact mem
      · exact mem
    · exact mem
  | acceptParent k =>
    simp only [World.step]
    split
    · split <;> exact mem
    · exact mem
  | publish k r' =>
    simp only [World.step]
    split
    · split
      · have other : r ≠ r' := fun same => apart (congrArg some same.symm)
        rw [prepared_publish]
        exact (List.mem_erase_of_ne other).2 mem
      · exact mem
    · exact mem
  | dropLease k =>
    simp only [World.step]
    split
    · exact kept prepared_dropLease
    · exact mem
  | discardCachedResponse s response_id =>
    simp only [World.step, World.discardCachedResponse]
    split
    · split <;> exact mem
    · exact mem
  | closeMember =>
    simp only [World.step, World.closeMember]
    split <;> exact mem
  | markHistoryReplaced k | markOutputsRecorded k output_count | rejectParent k | dropSession s | dropGroup =>
    simp only [World.step]
    split <;> exact mem

end World

/-- The sessions and the store. -/
structure SharedState (Row : Type) where
  world : World
  store : ResponseStore Row

/-- What others do meanwhile. -/
inductive Others where
  | session (op : World.Op)
  | persist (response_id : Text) (conversation_id previous_response_id : Option Text) (new_items : List InOutItem)
      (metadata : ResponseMetadata)

/-- A call of `execute_turn_with_metadata`. The lease of the turn, if it has one, is in the world. -/
structure Turn where
  lease : Option Nat
  request : Engine.RequestContext
  output_items : List OutputItem
  metadata : ResponseMetadata

/-- How a call ends, and the steps of others until then. -/
structure TurnEnd (Row : Type) where
  result : ExecutorResult Unit
  state : SharedState Row
  seen : List Others

section
variable {Row : Type} (codec : ItemCodec Row) (serializedSize : ResponseCheckpoint → Nat)

/-- A write of others. One that fails, also by the database, changes nothing. -/
def Others.write (store : ResponseStore Row) : Others → ResponseStore Row
  | .session _ => store
  | .persist response_id conversation_id previous_response_id new_items metadata =>
    match store.persistWithConversationId codec response_id conversation_id previous_response_id new_items metadata with
    | .ok store => store
    | .error _ => store

/-- All writes of others. -/
def writes (steps : List Others) (store : ResponseStore Row) : ResponseStore Row := steps.foldl (Others.write codec) store

/-- Only the turn itself ends its lease and takes its checkpoint. -/
def Others.isTurns (lease checkpoint : Option Nat) : Others → Bool
  | .session op => (op.lease.isSome && op.lease == lease) || (op.takes.isSome && op.takes == checkpoint)
  | .persist _ _ _ _ _ => false

/-- A step of another turn, which leaves this one alone. -/
def Others.step (lease checkpoint : Option Nat) (state : SharedState Row) (others : Others) : SharedState Row :=
  match others with
  | .session op =>
    if (Others.session op).isTurns lease checkpoint then state
    else { state with world := state.world.step serializedSize op }
  | write => { state with store := write.write codec state.store }

/-- The other turns go on. -/
def interfere (lease checkpoint : Option Nat) (steps : List Others) (state : SharedState Row) : SharedState Row :=
  steps.foldl (Others.step codec serializedSize lease checkpoint) state

namespace Turn
variable (turn : Turn)

/-- The lease the call owns. -/
def held (w : World) : Option ResponseContinuation := turn.lease.bind w.settled

/-- The checkpoint the turn continues. -/
def parent (w : World) : Option ResponseCheckpoint := (turn.held w).bind fun lease => lease.parent.bind w.checkpoints.value

/-- The request, with what the lease tells of the turn. -/
def context (w : World) : Engine.RequestContext :=
  { turn.request with continuation := (turn.held w).map fun lease => Engine.turnLease lease (turn.parent w) }

/-- The checkpoint the turn would publish. -/
def checkpointed (w : World) : Option ResponseCheckpoint :=
  (turn.context w).continuation.map fun lease => lease.checkpoint (turn.parent w) turn.request.response_id
    turn.request.conversation_id turn.metadata ((turn.context w).savedItems turn.output_items) (turn.context w).writeDurable

/-- The checkpoint is made, or the call fails and drops its lease. -/
def prepare (w : World) : ExecutorResult (Option Nat) × World :=
  match turn.lease, turn.held w with
  | some l, some lease =>
    match w.checkpoint serializedSize lease turn.request.response_id turn.request.conversation_id turn.metadata
      ((turn.context w).savedItems turn.output_items) (turn.context w).writeDurable with
    | .ok w' => (.ok (some w.checkpoints.cells.length), w')
    | .error e => (.error e, w.dropLease l lease)
  | _, _ => (.ok none, w)

/-- What the store answers, which fails with `failure` where the database or the serialization does. -/
def stores (failure : Option StorageError) (w : World) (store : ResponseStore Row) : Except StorageError (ResponseStore Row) :=
  match failure with
  | some e => .error e
  | none => store.persistWithConversationId codec turn.request.response_id turn.request.conversation_id
    (Engine.previousDurableId (turn.context w).continuation (turn.parent w) turn.metadata)
    ((turn.context w).writtenItems (turn.parent w) turn.output_items) turn.metadata

/-- The turn writes what it said, where it is to be written. -/
def write (failure : Option StorageError) (w : World) (store : ResponseStore Row) : ExecutorResult (ResponseStore Row) :=
  if (turn.context w).writeDurable then
    match turn.stores codec failure w store with
    | .error e => throw (Engine.storageFailure turn.request.response_id e)
    | .ok store => return store
  else return store

/-- A call that fails to write drops its checkpoint and its lease. -/
def abandon (checkpoint : Option Nat) (w : World) : World :=
  match turn.lease, turn.held w, checkpoint with
  | some l, some lease, some r => (({ w with prepared := w.prepared.erase r } : World).release (some r)).dropLease l lease
  | _, _, _ => w

/-- The turn publishes its checkpoint, where it prepared one. -/
def publish (checkpoint : Option Nat) (w : World) : ExecutorResult Unit × World :=
  match turn.lease, turn.held w, checkpoint with
  | some l, some lease, some r => w.publish l lease r
  | _, _, _ => (.ok (), w)

/-- The call, with the failure of its write, if that fails, and what others do before its write and before its publication. -/
def execute (failure : Option StorageError) (start : SharedState Row) (during writing : List Others) : TurnEnd Row :=
  match turn.prepare serializedSize start.world with
  | (.error e, world) => ⟨.error e, { start with world }, []⟩
  | (.ok r, world) =>
    let state := interfere codec serializedSize turn.lease r during { start with world }
    match turn.write codec failure state.world state.store with
    | .error e => ⟨.error e, { state with world := turn.abandon r state.world }, during⟩
    | .ok store =>
      let state := interfere codec serializedSize turn.lease r writing { state with store }
      let (result, world) := turn.publish r state.world
      ⟨result, { state with world }, during ++ writing⟩

/-- The response is stored with the items of its turn, behind those of the response it continues. -/
def Stored (w : World) (store : ResponseStore Row) : Prop :=
  ∃ rows, ResponseStore.Before codec store
      (Engine.previousDurableId (turn.context w).continuation (turn.parent w) turn.metadata) rows ∧
    store.rehydrate codec turn.request.response_id =
      .ok (rows ++ ResponseStore.readBack codec ((turn.context w).writtenItems (turn.parent w) turn.output_items))

/-- What a call that starts in `start`, and whose write fails as `failure` says, comes to. -/
structure CommitsWhole (failure : Option StorageError) (start : SharedState Row) (finish : TurnEnd Row) : Prop where
  /-- After an error no session shows a new checkpoint, and nothing is stored: unless the session was closed, when what
  was to be stored is. -/
  failed : ∀ e, finish.result = .error e →
    (turn.held start.world ≠ none → ∀ s, finish.state.world.latest s ≠ some start.world.checkpoints.cells.length) ∧
    (finish.state.store = writes codec finish.seen start.store ∨
      e = .invalidRequest "response session has closed" ∧ (turn.context start.world).writeDurable = true ∧
        turn.Stored codec start.world finish.state.store ∧
        ∃ lease, turn.held start.world = some lease ∧ finish.state.world.isClosed lease.session = true)
  /-- A write that fails fails the call. -/
  refused : failure ≠ none → (turn.context start.world).writeDurable = true → ∃ e, finish.result = .error e
  stored : finish.result = .ok () → (turn.context start.world).writeDurable = true →
    turn.Stored codec start.world finish.state.store
  transient : finish.result = .ok () → (turn.context start.world).writeDurable = false →
    finish.state.store = writes codec finish.seen start.store
  published : finish.result = .ok () → ∀ lease, turn.held start.world = some lease →
    ∃ r, finish.state.world.latest lease.session = some r ∧
      finish.state.world.checkpoints.value r = turn.checkpointed start.world

end Turn

variable {codec serializedSize} {store store' : ResponseStore Row} {state start : SharedState Row} {turn : Turn}
  {lease checkpoint : Option Nat} {steps more during writing : List Others} {failure : Option StorageError}

open ResponseStore

/-- A step of another turn only adds rows. -/
theorem write_grows (step : Others) (wf : store.WellFormed) :
    Grows store (step.write codec store) ∧ (step.write codec store).WellFormed := by
  cases step with
  | session op => exact ⟨.refl, wf⟩
  | persist response_id conversation_id previous_response_id new_items metadata =>
    rw [Others.write]
    split
    · rename_i stored
      obtain ⟨grows, wf', -⟩ := persist_ok wf stored
      exact ⟨grows, wf'⟩
    · exact ⟨.refl, wf⟩

/-- The steps of other turns only add rows. -/
theorem writes_grows (steps : List Others) (wf : store.WellFormed) :
    Grows store (writes codec steps store) ∧ (writes codec steps store).WellFormed := by
  induction steps generalizing store with
  | nil => exact ⟨.refl, wf⟩
  | cons step steps ih =>
    obtain ⟨first, wf'⟩ := @write_grows _ codec _ step wf
    obtain ⟨rest, wf''⟩ := ih wf'
    exact ⟨first.trans rest, wf''⟩

/-- What other turns write does not depend on the world. -/
theorem store_interfere : (interfere codec serializedSize lease checkpoint steps state).store = writes codec steps state.store := by
  induction steps generalizing state with
  | nil => rfl
  | cons step steps ih =>
    have here : (step.step codec serializedSize lease checkpoint state).store = step.write codec state.store := by
      cases step with
      | session op =>
        rw [Others.step]
        split <;> rfl
      | persist _ _ _ _ _ => rfl
    show (interfere codec serializedSize lease checkpoint steps _).store = writes codec steps (step.write codec state.store)
    rw [ih, here]

/-- What other turns write does not depend on the world. -/
theorem store_of_interfere {state' : SharedState Row}
    (h : interfere codec serializedSize lease checkpoint steps state = state') : state'.store = writes codec steps state.store := by
  rw [← h, store_interfere]

/-- What is stored stays stored. -/
theorem Turn.Stored.grows {w : World} (h : turn.Stored codec w store) (grows : Grows store store') (wf : store.WellFormed) :
    turn.Stored codec w store' := by
  obtain ⟨rows, before, read⟩ := h
  exact ⟨rows, before.grows grows wf, grows.rehydrate wf read⟩

/-- A write that ends well did not fail. -/
theorem Turn.stores_ok {w : World} (h : turn.stores codec failure w store = .ok store') : failure = none ∧
    store.persistWithConversationId codec turn.request.response_id turn.request.conversation_id
      (Engine.previousDurableId (turn.context w).continuation (turn.parent w) turn.metadata)
      ((turn.context w).writtenItems (turn.parent w) turn.output_items) turn.metadata = .ok store' := by
  cases failure with
  | some e => cases h
  | none => exact ⟨rfl, h⟩

/-- A turn that was written did not fail. -/
theorem Turn.unfailed_of_write {w : World} (h : turn.write codec failure w store = .ok store')
    (durable : (turn.context w).writeDurable = true) : failure = none := by
  rw [Turn.write, if_pos durable] at h
  split at h
  · exact absurd h throw_ne_ok
  · rename_i stored
    exact (Turn.stores_ok stored).1

/-- **What a write that ended well has stored.** -/
theorem Turn.write_ok {w : World} (wf : store.WellFormed) (h : turn.write codec failure w store = .ok store') :
    Grows store store' ∧ store'.WellFormed ∧ ((turn.context w).writeDurable = true → turn.Stored codec w store') ∧
      ((turn.context w).writeDurable = false → store' = store) := by
  rw [Turn.write] at h
  split at h
  · rename_i durable
    split at h
    · exact absurd h throw_ne_ok
    · rename_i stored
      cases pure_eq_ok.1 h
      obtain ⟨-, stored⟩ := Turn.stores_ok stored
      obtain ⟨grows, wf', -, rows, before, read⟩ := persist_ok wf stored
      refine ⟨grows, wf', fun _ => ⟨rows, before.grows grows wf, read⟩, fun no => ?_⟩
      rw [durable] at no
      cases no
  · rename_i durable
    cases pure_eq_ok.1 h
    exact ⟨.refl, wf, fun yes => absurd yes durable, fun _ => rfl⟩

/-- The turn's lease is as it was, and its checkpoint is prepared. -/
structure Turn.Pending (turn : Turn) (start : World) (lease : ResponseContinuation) (r : Nat) (w : World) : Prop where
  inv : w.Invariant
  held : turn.held w = some lease
  prepared : r ∈ w.prepared
  value : w.checkpoints.value r = turn.checkpointed start
  parent : turn.parent w = turn.parent start

/-- A turn is settled alike where it did not change. -/
theorem settled_congr {w w' : World} {l : Nat} (same : w'.leases[l]? = w.leases[l]?) : w'.settled l = w.settled l := by
  rw [World.settled, World.settled, World.held, World.held, same]

variable {w : World} {held : ResponseContinuation} {r l : Nat}

/-- The turn holds a session. -/
theorem Turn.held_eq_some (h : turn.held w = some held) :
    ∃ l, turn.lease = some l ∧ w.settled l = some held ∧ w.leases[l]? = some held ∧ held.finished = false := by
  obtain ⟨l, leased, settled⟩ := Option.bind_eq_some_iff.1 h
  obtain ⟨found, open_, -⟩ := World.held_eq_some (World.settled_eq_some settled).1
  exact ⟨l, leased, settled, found, open_⟩

/-- A turn that waits still waits. -/
theorem Turn.Pending.step {op : World.Op} (h : turn.Pending start.world held r w)
    (others : (Others.session op).isTurns turn.lease (some r) = false) :
    turn.Pending start.world held r (w.step serializedSize op) := by
  obtain ⟨l, leased, settled, found, open_⟩ := Turn.held_eq_some h.held
  rw [Others.isTurns, leased] at others
  have apart : op.lease ≠ some l := by
    intro same
    rw [same] at others
    simp at others
  have spares : op.takes ≠ some r := by
    intro same
    rw [same] at others
    simp at others
  have found' : (w.step serializedSize op).leases[l]? = some held := World.leases_step found apart
  have kept {p : Nat} (mem : p ∈ w.refs) : (w.step serializedSize op).checkpoints.value p = w.checkpoints.value p :=
    World.value_moves (World.moves_step op) (h.inv.accounted.sound.lt mem)
  have settled' : (w.step serializedSize op).settled l = some held := by
    rw [settled_congr (found'.trans found.symm), settled]
  have held' : turn.held (w.step serializedSize op) = some held := by rw [Turn.held, leased, Option.bind_some, settled']
  refine ⟨h.inv.moves (World.moves_step op), held', World.prepared_step h.prepared spares, ?_, ?_⟩
  · rw [kept (World.mem_refs_iff.2 (.inr (.inr h.prepared))), h.value]
  · rw [← h.parent, Turn.parent, Turn.parent, held', h.held, Option.bind_some, Option.bind_some]
    cases pinned : held.parent with
    | none => rfl
    | some p => exact kept (World.mem_refs_iff.2 (.inr (.inl ⟨l, held, found, .inl pinned⟩)))

/-- **While others are at work** the turn's lease and checkpoint wait. -/
theorem Turn.Pending.interfere (h : turn.Pending start.world held r state.world) :
    turn.Pending start.world held r (interfere codec serializedSize turn.lease (some r) steps state).world := by
  induction steps generalizing state with
  | nil => exact h
  | cons step steps ih =>
    apply ih
    cases step with
    | session op =>
      rw [Others.step]
      split
      · exact h
      · rename_i others
        exact h.step (eq_false_of_ne_true others)
    | persist _ _ _ _ _ => exact h

/-- What the turn knows does not change. -/
theorem Turn.context_congr {w' : World} (h : turn.held w' = turn.held w) (h' : turn.parent w' = turn.parent w) :
    turn.context w' = turn.context w := by
  rw [Turn.context, Turn.context, h, h']

/-- A call without a session makes no checkpoint. -/
theorem Turn.prepare_none (bare : turn.lease = none) : turn.prepare serializedSize w = (.ok none, w) := by
  rw [Turn.prepare, bare]

/-- **What preparing does**: the checkpoint of the turn is made, or the lease is dropped. -/
theorem Turn.prepare_cases (inv : w.Invariant) (h : turn.held w = some held) :
    (∃ w', turn.prepare serializedSize w = (.ok (some w.checkpoints.cells.length), w') ∧
      turn.Pending w held w.checkpoints.cells.length w') ∨
    ∃ e l, turn.prepare serializedSize w = (.error e, w.dropLease l held) ∧ w.settled l = some held := by
  obtain ⟨l, leased, settled, found, open_⟩ := Turn.held_eq_some h
  rw [Turn.prepare, leased, h]
  dsimp only
  cases made : w.checkpoint serializedSize held turn.request.response_id turn.request.conversation_id turn.metadata
      ((turn.context w).savedItems turn.output_items) (turn.context w).writeDurable with
  | error e => exact .inr ⟨e, l, rfl, settled⟩
  | ok w' =>
    refine .inl ⟨w', rfl, ?_⟩
    have value := Engine.checkpoint_prepared made
    obtain ⟨grouped, v, bytes, w₁, retained, -, rfl⟩ := World.checkpoint_ok made
    have inv' : w₁.prepareLast.Invariant := inv.moves (.prepare held grouped v bytes retained)
    have old {p : Nat} (mem : p ∈ w.refs) : w₁.prepareLast.checkpoints.value p = w.checkpoints.value p :=
      World.value_moves (.prepare held grouped v bytes retained) (inv.accounted.sound.lt mem)
    obtain ⟨charge, rfl, -⟩ := World.retain_ok retained
    refine ⟨inv', ?_, ?_, ?_, ?_⟩
    · rw [Turn.held, leased]
      exact settled
    · show w.checkpoints.cells.length ∈ w.prepared ++ [_]
      apply List.mem_append_right
      simp [Arena.alloc]
    · rw [value, Turn.checkpointed, Turn.context, Turn.parent, h]
      rfl
    · have held' : turn.held (({ w with checkpoints := w.checkpoints.alloc v charge } : World).prepareLast) = some held := by
        rw [Turn.held, leased]
        exact settled
      rw [Turn.parent, Turn.parent, held', h, Option.bind_some, Option.bind_some]
      cases pinned : held.parent with
      | none => rfl
      | some p => exact old (World.mem_refs_iff.2 (.inr (.inl ⟨l, held, found, .inl pinned⟩)))

/-- Nothing shows a checkpoint that is not made yet. -/
theorem latest_ne_new (inv : w.Invariant) (s : Nat) : w.latest s ≠ some w.checkpoints.cells.length := by
  intro shown
  exact absurd (inv.accounted.sound.lt (World.mem_refs_of_latest shown)) (Nat.lt_irrefl _)

/-- A session that did not end with the checkpoint does not. -/
theorem latest_dropLease_ne (shows : ∀ s, w.latest s ≠ some r) (s : Nat) : (w.dropLease l held).latest s ≠ some r := by
  rw [World.dropLease, World.latest_finish]
  split
  · rcases World.latest_setLatest (w := w) (s := held.session) s with same | gone
    · rw [same]
      exact shows s
    · rw [gone]
      intro same
      cases same
  · exact shows s

/-- No session ends with a checkpoint that is only prepared. -/
theorem Turn.Pending.latest_ne (h : turn.Pending start.world held r w) (s : Nat) : w.latest s ≠ some r := by
  intro shown
  exact h.inv.accounted.not_prepared (.inl (World.mem_sessionRefs_iff.2 ⟨s, shown⟩)) h.prepared

/-- Giving the checkpoint back shows it nowhere. -/
theorem Turn.Pending.dropped (h : turn.Pending start.world held r w) (s : Nat) :
    ((({ w with prepared := w.prepared.erase r } : World).release (some r)).dropLease l held).latest s ≠ some r := by
  have shows (t : Nat) : (({ w with prepared := w.prepared.erase r } : World).release (some r)).latest t ≠ some r := h.latest_ne t
  exact latest_dropLease_ne shows s

/-- What a waiting turn knows is what it knew at its start. -/
theorem Turn.Pending.context (h : turn.Pending start.world held r w) (start_held : turn.held start.world = some held) :
    turn.context w = turn.context start.world :=
  Turn.context_congr (h.held.trans start_held.symm) h.parent

/-- After a failed write nothing shows the checkpoint. -/
theorem Turn.Pending.abandon (h : turn.Pending start.world held r w) (s : Nat) : (turn.abandon (some r) w).latest s ≠ some r := by
  obtain ⟨l, leased, -⟩ := Turn.held_eq_some h.held
  simp only [Turn.abandon, leased, h.held]
  exact h.dropped s

/-- **What publishing does**: an open session shows the checkpoint, a closed one refuses it. -/
theorem Turn.Pending.publish (h : turn.Pending start.world held r w) :
    ((turn.publish (some r) w).1 = .ok () ∧ (turn.publish (some r) w).2.latest held.session = some r ∧
      (turn.publish (some r) w).2.checkpoints.value r = turn.checkpointed start.world) ∨
    ((turn.publish (some r) w).1 = .error (.invalidRequest "response session has closed") ∧
      (∀ s, (turn.publish (some r) w).2.latest s ≠ some r) ∧ (turn.publish (some r) w).2.isClosed held.session = true) := by
  obtain ⟨l, leased, settled, found, open_⟩ := Turn.held_eq_some h.held
  have same : turn.publish (some r) w = w.publish l held r := by simp only [Turn.publish, leased, h.held]
  rw [same]
  have active : w.isActive held.session = true := by
    apply h.inv.slots.busy l
    rw [World.occupies, found, Option.bind_some, open_]
    rfl
  obtain ⟨st, there, -⟩ := Option.any_eq_true _ _ |>.1 active
  obtain ⟨session, at_, rfl⟩ := Option.map_eq_some_iff.1 there
  have value : (w.publish l held r).2.checkpoints.value r = turn.checkpointed start.world := by
    rw [World.value_publish, h.value]
  by_cases closed : session.state.closed = true
  · have shut : w.isClosed held.session = true := by
      rw [World.isClosed, World.state, at_]
      exact closed
    refine .inr ⟨?_, fun s => ?_, World.Stays.publish.closed _ shut⟩
    · unfold World.publish
      simp only [at_, closed, if_true]
      rfl
    · unfold World.publish
      simp only [at_, closed, if_true]
      exact h.dropped s
  · refine .inl ⟨?_, ?_, value⟩
    · unfold World.publish
      simp only [at_, closed]
      rfl
    · unfold World.publish
      simp only [at_, closed]
      show ((({ w with prepared := w.prepared.erase r } : World).setLatest held.session (some r)).finish l held.session).latest
        held.session = some r
      rw [World.latest_finish, World.latest_eq, World.state_setLatest]
      simp [World.state, at_]

/-- A call that could not prepare its checkpoint. -/
theorem Turn.execute_unprepared {e : ExecutorError} (prepared : turn.prepare serializedSize start.world = (.error e, w)) :
    turn.execute codec serializedSize failure start during writing = ⟨.error e, { start with world := w }, []⟩ := by
  simp only [Turn.execute, prepared]

/-- A call that could not write. -/
theorem Turn.execute_unwritten {e : ExecutorError} {checkpoint : Option Nat}
    (prepared : turn.prepare serializedSize start.world = (.ok checkpoint, w))
    (state_is : interfere codec serializedSize turn.lease checkpoint during { start with world := w } = state)
    (written : turn.write codec failure state.world state.store = .error e) :
    turn.execute codec serializedSize failure start during writing =
      ⟨.error e, { state with world := turn.abandon checkpoint state.world }, during⟩ := by
  simp only [Turn.execute, prepared, state_is, written]

/-- A turn that is written is in the store behind the others. -/
theorem Turn.execute_written {checkpoint : Option Nat} {state' : SharedState Row}
    (prepared : turn.prepare serializedSize start.world = (.ok checkpoint, w))
    (state_is : interfere codec serializedSize turn.lease checkpoint during { start with world := w } = state)
    (written : turn.write codec failure state.world state.store = .ok store)
    (state_is' : interfere codec serializedSize turn.lease checkpoint writing { state with store } = state') :
    turn.execute codec serializedSize failure start during writing =
      ⟨(turn.publish checkpoint state'.world).1, { state' with world := (turn.publish checkpoint state'.world).2 },
        during ++ writing⟩ := by
  simp only [Turn.execute, prepared, state_is, written, state_is']

/-- What other turns write, one list after the other. -/
theorem writes_append : writes codec (steps ++ more) store = writes codec more (writes codec steps store) := List.foldl_append

/-- What the write of the turn, and the others before and after it, leave in the store. -/
theorem Turn.written_store (wf : start.store.WellFormed) (same : turn.context w = turn.context start.world)
    (parent : turn.parent w = turn.parent start.world)
    (written : turn.write codec failure w (writes codec during start.store) = .ok store) :
    ((turn.context start.world).writeDurable = true → turn.Stored codec start.world (writes codec writing store)) ∧
      ((turn.context start.world).writeDurable = false →
        writes codec writing store = writes codec (during ++ writing) start.store) := by
  have wf' : (writes codec during start.store).WellFormed := (writes_grows during wf).2
  obtain ⟨-, wf'', durable, transient⟩ := Turn.write_ok wf' written
  have durable : (turn.context start.world).writeDurable = true → turn.Stored codec start.world store := by
    rw [Turn.Stored, same, parent] at durable
    exact durable
  rw [same] at transient
  refine ⟨fun yes => (durable yes).grows (writes_grows writing wf'').1 wf'', fun no => ?_⟩
  rw [transient no, writes_append]

/-- **A call commits as a whole** or not at all, unless its session closes meanwhile. -/
theorem Turn.commitsWhole (inv : start.world.Invariant) (wf : start.store.WellFormed)
    (owned : turn.lease = none ∨ (turn.held start.world).isSome = true) :
    turn.CommitsWhole codec failure start (turn.execute codec serializedSize failure start during writing) := by
  rcases owned with bare | leased
  · have unheld (w : World) : turn.held w = none := by rw [Turn.held, bare, Option.bind_none]
    have unparented (w : World) : turn.parent w = none := by rw [Turn.parent, unheld, Option.bind_none]
    have same (w : World) : turn.context w = turn.context start.world :=
      Turn.context_congr ((unheld w).trans (unheld _).symm) ((unparented w).trans (unparented _).symm)
    have parent (w : World) : turn.parent w = turn.parent start.world := (unparented w).trans (unparented _).symm
    have prepared : turn.prepare serializedSize start.world = (.ok none, start.world) := Turn.prepare_none bare
    have durable : (turn.context start.world).writeDurable = true := by
      rw [Turn.context, unheld]
      rfl
    obtain ⟨state, state_is⟩ : ∃ state, interfere codec serializedSize turn.lease none during start = state := ⟨_, rfl⟩
    have store_is := store_of_interfere state_is
    cases written : turn.write codec failure state.world state.store with
    | error e =>
      rw [Turn.execute_unwritten prepared state_is written]
      exact ⟨fun e _ => ⟨fun leased => absurd (unheld _) leased, .inl store_is⟩, fun _ _ => ⟨e, rfl⟩, fun no => (nomatch no),
        fun no => (nomatch no), fun no => (nomatch no)⟩
    | ok store =>
      have unfailed : failure = none := Turn.unfailed_of_write written ((same _).symm ▸ durable)
      obtain ⟨state', state_is'⟩ : ∃ state', interfere codec serializedSize turn.lease none writing { state with store } = state' :=
        ⟨_, rfl⟩
      have store_is' := store_of_interfere state_is'
      have published : turn.publish none state'.world = (.ok (), state'.world) := by simp only [Turn.publish, bare]
      rw [Turn.execute_written prepared state_is written state_is', published]
      rw [store_is] at written
      obtain ⟨stored, transient⟩ := Turn.written_store wf (same _) (parent _) written
      refine ⟨fun e no => (nomatch no), fun failed => absurd unfailed failed, fun _ yes => store_is' ▸ stored yes,
        fun _ no => store_is'.trans (transient no), ?_⟩
      intro _ lease here
      rw [unheld] at here
      cases here
  · obtain ⟨held, leased⟩ := Option.isSome_iff_exists.1 leased
    have prepares := @Turn.prepare_cases serializedSize turn start.world held inv leased
    rcases prepares with ⟨w, prepared, pending⟩ | ⟨e, l, prepared, settled⟩
    · obtain ⟨state, state_is⟩ : ∃ state, interfere codec serializedSize turn.lease (some start.world.checkpoints.cells.length)
          during { start with world := w } = state := ⟨_, rfl⟩
      have store_is := store_of_interfere state_is
      have waits : turn.Pending start.world held start.world.checkpoints.cells.length state.world := by
        rw [← state_is]
        exact pending.interfere
      cases written : turn.write codec failure state.world state.store with
      | error e =>
        rw [Turn.execute_unwritten prepared state_is written]
        exact ⟨fun e _ => ⟨fun _ => waits.abandon, .inl store_is⟩, fun _ _ => ⟨e, rfl⟩, fun no => (nomatch no),
          fun no => (nomatch no), fun no => (nomatch no)⟩
      | ok store =>
        have unfailed (durable : (turn.context start.world).writeDurable = true) : failure = none :=
          Turn.unfailed_of_write written ((waits.context leased).symm ▸ durable)
        obtain ⟨state', state_is'⟩ : ∃ state', interfere codec serializedSize turn.lease
            (some start.world.checkpoints.cells.length) writing { state with store } = state' := ⟨_, rfl⟩
        have store_is' := store_of_interfere state_is'
        have waits' : turn.Pending start.world held start.world.checkpoints.cells.length state'.world := by
          rw [← state_is']
          have waits : turn.Pending start.world held _ ({ state with store } : SharedState Row).world := waits
          exact waits.interfere
        rw [Turn.execute_written prepared state_is written state_is']
        rw [store_is] at written
        obtain ⟨stored, transient⟩ := Turn.written_store wf (waits.context leased) waits.parent written
        rcases waits'.publish with ⟨shown, latest, value⟩ | ⟨refused, hidden, closed⟩
        · refine ⟨fun e no => ?_, fun failed durable => absurd (unfailed durable) failed, fun _ yes => store_is' ▸ stored yes,
            fun _ no => store_is'.trans (transient no), ?_⟩
          · rw [shown] at no
            cases no
          · intro _ lease here
            cases leased.symm.trans here
            exact ⟨_, latest, value⟩
        · refine ⟨fun e failed => ⟨fun _ => hidden, ?_⟩, fun failed durable => absurd (unfailed durable) failed, fun no => ?_,
            fun no => ?_, fun no => ?_⟩
          · cases Except.error.inj (refused.symm.trans failed)
            cases durable : (turn.context start.world).writeDurable with
            | true => exact .inr ⟨rfl, rfl, store_is' ▸ stored durable, held, leased, closed⟩
            | false => exact .inl (store_is'.trans (transient durable))
          all_goals
            rw [refused] at no
            cases no
    · rw [Turn.execute_unprepared prepared]
      refine ⟨fun e _ => ⟨fun _ => latest_dropLease_ne (latest_ne_new inv), .inl rfl⟩, fun _ _ => ⟨e, rfl⟩, fun no => (nomatch no),
        fun no => (nomatch no), fun no => (nomatch no)⟩

/-- **Every turn commits as a whole**, in every state that sessions and stored responses can come to, and whatever the database
answers. -/
theorem execute_commitsWhole (max_sessions max_items max_bytes max_retained_bytes : Nat) (ops : List World.Op)
    (prior during writing : List Others) (turn : Turn) (failure : Option StorageError)
    (owned : turn.lease = none ∨
      (turn.held ((World.new max_sessions max_items max_bytes max_retained_bytes).run serializedSize ops)).isSome = true) :
    let start : SharedState Row := ⟨(World.new max_sessions max_items max_bytes max_retained_bytes).run serializedSize ops,
      writes codec prior .empty⟩
    turn.CommitsWhole codec failure start (turn.execute codec serializedSize failure start during writing) :=
  Turn.commitsWhole (World.Invariant.new.run ops) (writes_grows prior wellFormed_empty).2 owned

end

/-- A session outside a group, in a turn. -/
def oneTurn : World := (World.new 0 0 0 0).run (fun _ => 0) [.standalone 10 10, .begin 0 none]

/-- A question of the user. -/
def askedMessage : InputItem := .message ⟨none, "user", none, .text "list the files"⟩

/-- A turn with a message and a call of it, to be stored. -/
def storedTurn : Turn where
  lease := some 0
  request :=
    let payload : RequestPayload :=
      { model := [], input := .items [askedMessage], instructions := none, previous_response_id := none, conversation_id := none
        tool_choice := none, store := true, context_management := none }
    { original_request := payload, enriched_request := payload, new_input_items := [askedMessage], response_id := "resp_1"
      conversation_id := none, continuation := none }
  output_items := [.functionCall ⟨"fc_1", "call_1", "ls", none, [], .completed⟩]
  metadata := .default

/-- The items of the turn are stored and shown, and a write that the database refuses leaves neither. -/
theorem execute_commitsWhole_stored :
    (storedTurn.CommitsWhole (.rows rowSerde rowIds) none ⟨oneTurn, .empty⟩
      (storedTurn.execute (.rows rowSerde rowIds) (fun _ => 0) none ⟨oneTurn, .empty⟩ [] []) ∧
      (storedTurn.execute (.rows rowSerde rowIds) (fun _ => 0) none ⟨oneTurn, .empty⟩ [] []).result = .ok ()) ∧
    storedTurn.CommitsWhole (.rows rowSerde rowIds) (some (.database "disk full")) ⟨oneTurn, .empty⟩
      (storedTurn.execute (.rows rowSerde rowIds) (fun _ => 0) (some (.database "disk full")) ⟨oneTurn, .empty⟩ [] []) :=
  ⟨⟨execute_commitsWhole 0 0 0 0 [.standalone 10 10, .begin 0 none] [] [] [] storedTurn none (.inr rfl), rfl⟩,
    execute_commitsWhole 0 0 0 0 [.standalone 10 10, .begin 0 none] [] [] [] storedTurn (some (.database "disk full")) (.inr rfl)⟩

/-- The session closes after the write: the call fails, and its response is stored. -/
theorem closed_after_write :
    let finish := storedTurn.execute (.rows rowSerde rowIds) (fun _ => 0) none ⟨oneTurn, .empty⟩ [] [.session (.dropSession 0)]
    finish.result = .error (.invalidRequest "response session has closed") ∧
      finish.state.store.responses.map Prod.fst = ["resp_1"] ∧ finish.state.store.items.length = 2 ∧
      (writes (.rows rowSerde rowIds) finish.seen .empty).responses = [] :=
  ⟨rfl, rfl, rfl, rfl⟩

end AgenticStack
