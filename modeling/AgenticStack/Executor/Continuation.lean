import AgenticStack.Library.Shared
import AgenticStack.Executor.Session
import AgenticStack.Types.Tools
import AgenticStack.Types.Lowering

/-!
# Sessions and their leases

A session keeps the checkpoint of its latest response and admits one turn at a
time. A turn holds a lease, which pins the parent it continues, and ends by
publishing the next checkpoint or by being dropped. The sessions of a group
look up each other's checkpoints and share one budget for what they retain.

`World` is a group with its sessions, the sessions outside any group, the
leases of all of them, and the checkpoints they share. Each operation is one
critical section of the code; a fork, which locks one member after the other
under the lock of the group, and the drop of a group, which closes its members
one by one, take several steps.
-/

namespace AgenticStack
set_option autoImplicit false
open Library

/-- A response as the next turn finds it: its history, and what was set for it. -/
structure ResponseCheckpoint where
  response_id : Text
  conversation_id : Option Text
  history : List InputItem
  metadata : ResponseMetadata
  durable : Bool

/-- What a session is at: the response it ended with, and whether a turn is going on. -/
structure SessionState where
  latest : Option Nat
  active : Bool
  closed : Bool
  max_items : Nat
  max_bytes : Nat

/-- A session and the handle of its client. -/
structure ResponseSession where
  state : SessionState
  /-- `group` and `budget` are set. -/
  grouped : Bool
  /-- The handle is alive; leases may outlive it. -/
  owned : Bool

/-- The lease of a turn. -/
structure ResponseContinuation where
  session : Nat
  /-- The `previous_response_id` of the turn's request. -/
  previous_id : Option Text
  parent : Option Nat
  history_replaced : Bool
  recorded_output_count : Nat
  /-- Published or dropped. -/
  finished : Bool
  /-- `begin` still has these members to look at. -/
  lookup : Option (List Nat)
  /-- A parent restored from storage that rehydration has not accepted yet. -/
  restored : Option Nat

/-- The sessions of one connection, which share the bytes they may hold. -/
structure ResponseSessionGroup where
  max_sessions : Nat
  max_items : Nat
  max_bytes : Nat
  max_retained_bytes : Nat
  closed : Bool
  members : List Nat
  /-- The members `drop` still has to close. -/
  closing : List Nat

/-- Every session of a group, every turn that holds one, and what they keep. -/
structure World where
  group : ResponseSessionGroup
  sessions : List ResponseSession
  leases : List ResponseContinuation
  /-- The retained checkpoints, charged against the budget of the group. -/
  checkpoints : Arena ResponseCheckpoint
  /-- Checkpoints prepared by a turn and neither published nor dropped yet. -/
  prepared : List Nat

/-- The error of a checkpoint that no longer fits the group. -/
def aggregateBudgetError : ExecutorError :=
  .payloadTooLarge (utf8 "response continuation exceeds the aggregate retained checkpoint budget; release inactive state or replay a compacted input window")

/-- The error of a checkpoint that does not fit its session. -/
def sessionBudgetError : ExecutorError :=
  .payloadTooLarge (utf8 "response continuation exceeds the session checkpoint budget; replay a compacted input window")

/-- `serialized_size_up_to` of a value of `size` bytes. -/
def serializedSizeUpTo (size limit : Nat) : Option Nat := if size ≤ limit then some size else none

namespace World

/-- A group without a session. -/
def new (max_sessions max_items max_bytes max_retained_bytes : Nat) : World :=
  { group := { max_sessions, max_items, max_bytes, max_retained_bytes, closed := false, members := [], closing := [] }
    sessions := [], leases := [], checkpoints := Arena.empty, prepared := [] }

/-- The state of a session is changed. -/
def setState (w : World) (s : Nat) (f : SessionState → SessionState) : World :=
  { w with sessions := w.sessions.modify s fun session => { session with state := f session.state } }

/-- A turn is changed. -/
def setLease (w : World) (l : Nat) (f : ResponseContinuation → ResponseContinuation) : World :=
  { w with leases := w.leases.modify l f }

/-- The group is changed. -/
def setGroup (w : World) (group : ResponseSessionGroup) : World := { w with group }

/-- The handle of a session goes. -/
def disown (w : World) (s : Nat) : World :=
  { w with sessions := w.sessions.modify s fun session => { session with owned := false } }

/-- A session joins. -/
def addSession (w : World) (session : ResponseSession) : World := { w with sessions := w.sessions ++ [session] }

/-- A turn begins. -/
def addLease (w : World) (lease : ResponseContinuation) : World := { w with leases := w.leases ++ [lease] }

/-- A checkpoint is shared once more. -/
def clone (w : World) (r : Option Nat) : World :=
  { w with checkpoints := r.elim w.checkpoints w.checkpoints.clone }

/-- A share of a checkpoint is let go of, and with the last one its bytes. -/
def release (w : World) (r : Option Nat) : World :=
  { w with checkpoints := r.elim w.checkpoints w.checkpoints.drop }

/-- The checkpoint a session ended with. -/
def latest (w : World) (s : Nat) : Option Nat := w.sessions[s]?.bind (·.state.latest)

/-- `state.latest = latest`, which drops the old one. -/
def setLatest (w : World) (s : Nat) (latest : Option Nat) : World :=
  (w.setState s fun state => { state with latest }).release (w.latest s)

/-- The checkpoint a turn continues. -/
def parent (w : World) (l : Nat) : Option Nat := w.leases[l]?.bind (·.parent)

/-- `self.parent = parent`, which drops the old one. -/
def setParent (w : World) (l : Nat) (parent : Option Nat) : World :=
  (w.setLease l fun lease => { lease with parent }).release (w.parent l)

/-- Whether a checkpoint is the response of that id. -/
def hasId (w : World) (r : Nat) (id : Text) : Bool := (w.checkpoints.value r).any (·.response_id == id)

/-- `CheckpointBudget::reserve`: the charges in use after another one, which must fit 64 bits and the limit. -/
def reserve (w : World) (bytes : Nat) : ExecutorResult Unit :=
  if w.checkpoints.used + bytes < 2 ^ 64 ∧ w.checkpoints.used + bytes ≤ w.group.max_retained_bytes then return ()
  else throw aggregateBudgetError

/-- `retain`: a session outside the group has no budget, and its checkpoints carry no charge. -/
def retain (w : World) (grouped : Bool) (checkpoint : ResponseCheckpoint) (bytes : Nat) : ExecutorResult World := do
  if grouped then
    w.reserve bytes
    return { w with checkpoints := w.checkpoints.alloc checkpoint bytes }
  else
    return { w with checkpoints := w.checkpoints.alloc checkpoint 0 }

/-- A session that did nothing yet. -/
def emptyState (max_items max_bytes : Nat) : SessionState :=
  { latest := none, active := false, closed := false, max_items, max_bytes }

/-- `ResponseSession::new`. -/
def standalone (w : World) (max_items max_bytes : Nat) : World :=
  w.addSession { state := emptyState max_items max_bytes, grouped := false, owned := true }

/-- A group that is open and has room takes another session. -/
def newSession (w : World) : ExecutorResult World :=
  if w.group.closed ∨ w.group.max_sessions ≤ w.group.members.length then
    throw (.invalidRequest "response session group is closed or has reached its session limit")
  else
    return (w.setGroup { w.group with members := w.group.members ++ [w.sessions.length] }).addSession
      { state := emptyState w.group.max_items w.group.max_bytes, grouped := true, owned := true }

/-- A session lets go of a response that must not be continued. -/
def discardCachedResponse (w : World) (s : Nat) (response_id : Text) : World :=
  if (w.latest s).any (w.hasId · response_id) then w.setLatest s none else w

/-- Closing a session, by the drop of its handle or of its group. -/
def closeSession (w : World) (s : Nat) : World :=
  (w.setState s fun state => { state with closed := true }).setLatest s none

/-- The client lets go of its session. -/
def dropSession (w : World) (s : Nat) : World := (w.disown s).closeSession s

/-- The drop of the group, up to the closing of its members. -/
def dropGroup (w : World) : World :=
  w.setGroup { w.group with closed := true, closing := w.group.closing ++ w.group.members, members := [] }

/-- The drop of the group closes the next of its members. -/
def closeMember (w : World) : World :=
  match w.group.closing with
  | [] => w
  | s :: rest => (w.setGroup { w.group with closing := rest }).closeSession s

/-- `begin`, up to the search for a fork: the lease is the last of `leases`. -/
def «begin» (w : World) (s : Nat) (previous_id : Option Text) : ExecutorResult World :=
  match w.sessions[s]? with
  | none => throw (.streamError "response session state is unavailable")
  | some session =>
    if session.grouped ∧ w.group.closed then throw (.invalidRequest "response session group has closed")
    else if session.state.closed ∨ session.state.active then
      throw (.invalidRequest "response session is closed or already executing a turn")
    else
      let parent := session.state.latest.filter fun r => previous_id.any (w.hasId r)
      let lookup := if parent.isNone ∧ previous_id.isSome ∧ session.grouped then some w.group.members else none
      return ((w.setState s fun state => { state with active := true }).clone parent).addLease
        { session := s, previous_id, parent, history_replaced := false, recorded_output_count := 0, finished := false,
          lookup, restored := none }

/-- `begin` looks at one more member. -/
def lookupMember (w : World) (l : Nat) : World :=
  match w.leases[l]? with
  | none => w
  | some lease =>
    match lease.lookup with
    | none => w
    | some [] => w.setLease l fun lease => { lease with lookup := none }
    | some (member :: rest) =>
      let found := (w.sessions[member]?.filter fun source => member ≠ lease.session ∧ ¬source.state.closed).bind
        fun source => source.state.latest.filter fun r => lease.previous_id.any (w.hasId r)
      match found with
      | none => w.setLease l fun lease => { lease with lookup := some rest }
      | some r => ((w.clone (some r)).setParent l (some r)).setLease l fun lease => { lease with lookup := none }

/-- The lease is held by a turn: `begin` has returned, and the turn has neither published nor dropped it. -/
def held (w : World) (l : Nat) : Option ResponseContinuation :=
  w.leases[l]?.filter fun lease => !lease.finished && lease.lookup.isNone

/-- The history a turn continues, where it is held. -/
def parentHistory (w : World) (lease : ResponseContinuation) : List InputItem :=
  match lease.parent.bind w.checkpoints.value with
  | some parent => parent.history
  | none => []

/-- `parent_items`: after a compaction only the records of tool listings remain. -/
def parentItems (w : World) (lease : ResponseContinuation) : List InputItem :=
  (w.parentHistory lease).filter fun item => !lease.history_replaced || item.isMcpListTools

/-- The checkpoint just made is prepared for publication. -/
def prepareLast (w : World) : World := { w with prepared := w.prepared ++ [w.checkpoints.cells.length - 1] }

/-- The checkpoint just made is a parent restored from storage. -/
def restoreLast (w : World) (l : Nat) : World :=
  w.setLease l fun lease => { lease with restored := some (w.checkpoints.cells.length - 1) }

section
variable (serializedSize : ResponseCheckpoint → Nat)

/-- `checkpoint`: the prepared checkpoint is the last cell. -/
def checkpoint (w : World) (lease : ResponseContinuation) (response_id : Text) (conversation_id : Option Text)
    (metadata : ResponseMetadata) (new_items : List InOutItem) (durable : Bool) : ExecutorResult World := do
  let checkpoint : ResponseCheckpoint :=
    { response_id, conversation_id, durable
      history := canonicalSessionHistory (w.parentItems lease ++ intoInputItems new_items)
      metadata := { metadata with
        effective_tools := metadata.effective_tools.map (·.map ResponsesTool.sanitizeForPersistence) } }
  let some session := w.sessions[lease.session]? | throw (.streamError "response session state is unavailable")
  let bytes := if checkpoint.history.length ≤ session.state.max_items
    then serializedSizeUpTo (serializedSize checkpoint) session.state.max_bytes else none
  match bytes with
  | none => throw sessionBudgetError
  | some bytes =>
    let w ← w.retain session.grouped checkpoint bytes
    return w.prepareLast

/-- `retain_parent`: the restored parent is the last cell. -/
def retainParent (w : World) (l : Nat) (lease : ResponseContinuation) (checkpoint : ResponseCheckpoint) :
    ExecutorResult World := do
  let some session := w.sessions[lease.session]? | throw (.streamError "response session state is unavailable")
  let bytes := if session.grouped
    then serializedSizeUpTo (serializedSize checkpoint) w.group.max_retained_bytes else some 0
  match bytes with
  | none => throw aggregateBudgetError
  | some bytes =>
    let w ← w.retain session.grouped checkpoint bytes
    return w.restoreLast l

end

/-- What an ending lease leaves: no parent, and an idle slot. -/
def finish (w : World) (l s : Nat) : World :=
  ((w.setParent l none).setState s fun state => { state with active := false }).setLease l
    fun lease => { lease with finished := true }

/-- `Drop for ResponseContinuation`. -/
def dropLease (w : World) (l : Nat) (lease : ResponseContinuation) : World :=
  let pinned := (lease.parent.bind w.checkpoints.value).any fun parent =>
    (w.latest lease.session).any (w.hasId · parent.response_id)
  (if pinned then w.setLatest lease.session none else w).finish l lease.session

/-- `publish`: a closed session refuses, and drops the checkpoint and the lease. -/
def publish (w : World) (l : Nat) (lease : ResponseContinuation) (r : Nat) : ExecutorResult Unit × World :=
  let taken := { w with prepared := w.prepared.erase r }
  match w.sessions[lease.session]? with
  | none => (throw (.streamError "response session state is unavailable"), (taken.release (some r)).dropLease l lease)
  | some session =>
    if session.state.closed then
      (throw (.invalidRequest "response session has closed"), (taken.release (some r)).dropLease l lease)
    else (return (), (taken.setLatest lease.session (some r)).finish l lease.session)

/-- What the owners of the group, of the sessions and of the leases may do next. -/
inductive Op where
  | standalone (max_items max_bytes : Nat)
  | newSession
  | «begin» (s : Nat) (previous_id : Option Text)
  | lookupMember (l : Nat)
  | markHistoryReplaced (l : Nat)
  | markOutputsRecorded (l output_count : Nat)
  | checkpoint (l : Nat) (response_id : Text) (conversation_id : Option Text) (metadata : ResponseMetadata)
      (new_items : List InOutItem) (durable : Bool)
  | dropPrepared (r : Nat)
  /-- `from_session_response` found the parent in storage. -/
  | retainParent (l : Nat) (conversation_id : Option Text) (history : List InputItem) (metadata : ResponseMetadata)
  /-- Rehydration accepts the restored parent, or fails on it. -/
  | acceptParent (l : Nat)
  | rejectParent (l : Nat)
  | publish (l r : Nat)
  | dropLease (l : Nat)
  | discardCachedResponse (s : Nat) (response_id : Text)
  | dropSession (s : Nat)
  | dropGroup
  | closeMember

/-- A `begin` that looks for a fork holds the lock of the group. -/
def groupLocked (w : World) : Bool := w.leases.any (·.lookup.isSome)

/-- Whether the session belongs to the group. -/
def isGrouped (w : World) (s : Nat) : Bool := w.sessions[s]?.any (·.grouped)

/-- Whether the handle of the session is alive. -/
def isOwned (w : World) (s : Nat) : Bool := w.sessions[s]?.any (·.owned)

/-- The lease is held and has no restored parent to settle, so the turn may end it. -/
def settled (w : World) (l : Nat) : Option ResponseContinuation := (w.held l).filter (·.restored.isNone)

/-- The world a call leaves, a failed one leaving all as it was. -/
def after (w : World) (result : ExecutorResult World) : World :=
  match result with
  | .ok w' => w'
  | .error _ => w

/-- One step; an operation that its owner cannot call, or that waits for a lock, does nothing. -/
def step (serializedSize : ResponseCheckpoint → Nat) (w : World) : Op → World
  | .standalone max_items max_bytes => w.standalone max_items max_bytes
  | .newSession => if w.groupLocked then w else w.after w.newSession
  | .begin s previous_id => if w.isGrouped s && w.groupLocked then w else w.after (w.begin s previous_id)
  | .lookupMember l => w.lookupMember l
  | .markHistoryReplaced l => match w.held l with
    | some _ => w.setLease l fun lease => { lease with history_replaced := true }
    | none => w
  | .markOutputsRecorded l output_count => match w.held l with
    | some _ => w.setLease l fun lease => { lease with recorded_output_count := output_count }
    | none => w
  | .checkpoint l response_id conversation_id metadata new_items durable => match w.held l with
    | some lease =>
      w.after (w.checkpoint serializedSize lease response_id conversation_id metadata new_items durable)
    | none => w
  | .dropPrepared r =>
    if r ∈ w.prepared then { w with prepared := w.prepared.erase r }.release (some r) else w
  | .retainParent l conversation_id history metadata => match w.settled l with
    | some lease => match lease.parent, lease.previous_id with
      | none, some response_id =>
        w.after (w.retainParent serializedSize l lease
          { response_id, conversation_id, history := canonicalSessionHistory history, metadata, durable := true })
      | _, _ => w
    | none => w
  | .acceptParent l => match w.held l with
    | some lease => match lease.restored with
      | some r => (w.setLease l fun lease => { lease with restored := none }).setParent l (some r)
      | none => w
    | none => w
  | .rejectParent l => match w.held l with
    | some lease => (w.setLease l fun lease => { lease with restored := none }).release lease.restored
    | none => w
  | .publish l r => match w.settled l with
    | some lease => if r ∈ w.prepared then (w.publish l lease r).2 else w
    | none => w
  | .dropLease l => match w.settled l with
    | some lease => w.dropLease l lease
    | none => w
  | .discardCachedResponse s response_id => if w.isOwned s then w.discardCachedResponse s response_id else w
  | .dropSession s => if w.isOwned s then w.dropSession s else w
  | .dropGroup => if w.groupLocked then w else w.dropGroup
  | .closeMember => w.closeMember

/-- The world after every operation. -/
def run (serializedSize : ResponseCheckpoint → Nat) (w : World) (ops : List Op) : World :=
  ops.foldl (step serializedSize) w

end World
end AgenticStack
