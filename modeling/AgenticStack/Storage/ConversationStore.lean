import AgenticStack.Storage.ResponseStore
import Mathlib.Data.List.Sort

/-!
# The conversation store

The rows of a conversation are numbered, and a turn is written only if the
conversation is still at the version at which the turn read it. A snapshot is one
statement and a write one transaction under the lock of the conversation's row.
-/

namespace AgenticStack
set_option autoImplicit false
open Library

/-- The state of a conversation that a turn has read and must still find when it commits. -/
inductive ConversationVersion where
  | empty
  | lastSequence (sequence : Int)
  | lastResponse (response_id : Text) (last_sequence : Option Int)
deriving DecidableEq, Repr

/-- The version that a snapshot's last sequence and latest response stand for. -/
def ConversationVersion.fromSnapshot : Option Int → Option Text → ConversationVersion
  | last_sequence, some response_id => .lastResponse response_id last_sequence
  | some sequence, none => .lastSequence sequence
  | none, none => .empty

/-- What a turn reads of a conversation: its items and its version. -/
structure ConversationSnapshot where
  items : List InOutItem
  version : ConversationVersion

/-- What a call of the store fails with; `database` is any failure of the
serialization or of the database, after which the transaction is rolled back. -/
inductive ConversationError where
  | storage (error : StorageError)
  | invalidConversationSequence
  | conversationConflict
  | database
deriving DecidableEq, Repr

/-- A row of the table `items`; its id is its place. -/
structure ItemRow (Row : Type) where
  data : Row
  conversation_id : Option Text
  seq : Option Int

/-- The tables that a conversation uses. -/
structure ConversationStore (Row : Type) where
  /-- The conversations and the response that committed the latest turn of each. -/
  conversations : List (Text × Option Text)
  items : List (ItemRow Row)
  responses : List (Text × ResponseData)

/-- The most parameters one statement binds. -/
def MAX_BIND_PARAMETERS : Nat := 999

/-- The columns of one item row. -/
def ITEM_COLUMN_COUNT : Nat := 5

/-- The most items that one insert takes. -/
def MAX_ITEMS_PER_INSERT : Nat := MAX_BIND_PARAMETERS / ITEM_COLUMN_COUNT

/-- The order of sequence numbers; a row without one comes first. -/
def seqLe : Option Int → Option Int → Bool
  | none, _ => true
  | some _, none => false
  | some a, some b => a ≤ b

section
variable {Row : Type}

/-- Rows of a conversation numbered from `start`. -/
def numbered (conversation_id : Text) (start : Int) : List Row → List (ItemRow Row)
  | [] => []
  | data :: rest =>
    { data, conversation_id := some conversation_id, seq := some start } :: numbered conversation_id (start + 1) rest

/-- The last of the sequence numbers of sorted rows; each has to have one. -/
def lastOf (last : Option Int) : List (ItemRow Row) → Except ConversationError (Option Int)
  | [] => .ok last
  | row :: rest => match row.seq with
    | none => .error .invalidConversationSequence
    | some sequence => lastOf (some sequence) rest

namespace ConversationStore

variable (codec : ItemCodec Row) (store : ConversationStore Row)

/-- The rows of a conversation, as they lie in the table. -/
def rowsOf (conversation_id : Text) : List (ItemRow Row) :=
  store.items.filter fun row => row.conversation_id = some conversation_id

/-- The rows of a conversation by their sequence. -/
def ordered (conversation_id : Text) : List (ItemRow Row) :=
  (store.rowsOf conversation_id).insertionSort fun a b => seqLe a.seq b.seq

/-- The latest response of a conversation and its rows in order. -/
def getSnapshot (conversation_id : Text) : Option Text × List (ItemRow Row) :=
  match store.conversations.lookup conversation_id with
  | none => (none, [])
  | some latest_response_id => (latest_response_id, store.ordered conversation_id)

/-- The snapshot of a conversation, read item by item. -/
def rehydrateSnapshot (conversation_id : Text) : Except ConversationError ConversationSnapshot := do
  let (latest_response_id, items) := store.getSnapshot conversation_id
  let last_sequence ← lastOf none items
  return {
    items := items.filterMap fun row => codec.read row.data
    version := .fromSnapshot last_sequence latest_response_id }

/-- Creates the conversation unless it exists. -/
def getOrCreate (conversation_id : Text) : ConversationStore Row :=
  match store.conversations.lookup conversation_id with
  | some _ => store
  | none => { store with conversations := store.conversations ++ [(conversation_id, none)] }

/-- `MAX(seq)`. -/
def lastConversationSequence (conversation_id : Text) : Option Int :=
  ((store.rowsOf conversation_id).filterMap (·.seq)).max?

/-- The number of the next row of a conversation, 0 for an empty one. -/
def nextSequence (conversation_id : Text) : Int := (store.lastConversationSequence conversation_id).getD (-1) + 1

/-- Inserts one batch, numbered on from the last row. -/
def createWithNextConversationSeq (conversation_id : Text) (batch : List Row) : ConversationStore Row :=
  { store with items := store.items ++ numbered conversation_id (store.nextSequence conversation_id) batch }

/-- Inserts the items in batches that fit the bind limit. -/
def createInTx (tx : ConversationStore Row) (conversation_id : Text) (items : List Row) : ConversationStore Row :=
  if items = [] then tx
  else (tx.createWithNextConversationSeq conversation_id (items.take MAX_ITEMS_PER_INSERT)).createInTx
    conversation_id (items.drop MAX_ITEMS_PER_INSERT)
termination_by items.length
decreasing_by
  rename_i some
  have := List.length_pos_iff.2 some
  rw [List.length_drop, MAX_ITEMS_PER_INSERT, MAX_BIND_PARAMETERS, ITEM_COLUMN_COUNT]
  omega

/-- Commits a turn in one transaction, refused when the version has changed in between. -/
def persistImpl (conversation_id : Text) (expected_version : Option ConversationVersion) (response_id : Text)
    (previous_response_id : Option Text) (new_items : List InOutItem) (metadata : ResponseMetadata) (fails : Bool) :
    Except ConversationError (ConversationStore Row) :=
  if fails then .error .database
  else match store.conversations.lookup conversation_id with
    | none => .error (.storage (.notFound "Conversation" conversation_id))
    | some latest_response_id =>
      if expected_version.any (· ≠ .fromSnapshot (store.lastConversationSequence conversation_id) latest_response_id) then
        .error .conversationConflict
      else if (store.responses.lookup response_id).isSome then .error (.storage .uniqueViolation)
      else
        let tx := store.createInTx conversation_id (new_items.map codec.write)
        let history_item_ids := List.range' store.items.length new_items.length
        let response : ResponseData :=
          { conversation_id := some conversation_id, previous_response_id, history_item_ids, metadata := metadata.persisted }
        .ok { tx with
          responses := tx.responses ++ [(response_id, response)]
          conversations := insertEntry tx.conversations conversation_id (some response_id) }

/-- The commit of a turn that has read its conversation. -/
def persistIfVersion (conversation_id : Text) (expected_version : ConversationVersion) (response_id : Text)
    (previous_response_id : Option Text) (new_items : List InOutItem) (metadata : ResponseMetadata) (fails : Bool) :
    Except ConversationError (ConversationStore Row) :=
  store.persistImpl codec conversation_id (some expected_version) response_id previous_response_id new_items metadata fails

end ConversationStore

/-- A turn that has read its conversation; `turns` says, of the history only, how
many turns of the conversation had been committed then. -/
structure CapturedTurn where
  conversation_id : Text
  snapshot : ConversationSnapshot
  turns : Nat

/-- What a committed turn has written. -/
structure CommittedTurn where
  conversation_id : Text
  new_items : List InOutItem

/-- The store with the turns that have read it and the turns that are committed. -/
structure ConversationWorld (Row : Type) where
  store : ConversationStore Row
  captured : List (Nat × CapturedTurn)
  /-- The turns that were committed, in that order. -/
  committed : List CommittedTurn

/-- One request against the store. -/
inductive ConversationOp (Row : Type) where
  | create (conversation_id : Text)
  /-- A turn reads its conversation. -/
  | capture (turn : Nat) (conversation_id : Text)
  /-- A turn is written at the version it has read. -/
  | persist (turn : Nat) (response_id : Text) (previous_response_id : Option Text) (new_items : List InOutItem)
    (metadata : ResponseMetadata) (fails : Bool)
  /-- Somebody stores a response without a conversation turn. -/
  | respond (response_id : Text) (response : ResponseData) (rows : List Row)

namespace ConversationWorld

/-- The turns committed on a conversation. -/
def committedOn (w : ConversationWorld Row) (conversation_id : Text) : List CommittedTurn :=
  w.committed.filter fun turn => turn.conversation_id = conversation_id

/-- One request, by itself a transaction. -/
def step (codec : ItemCodec Row) (w : ConversationWorld Row) : ConversationOp Row → ConversationWorld Row
  | .create conversation_id => { w with store := w.store.getOrCreate conversation_id }
  | .capture turn conversation_id =>
    match w.store.rehydrateSnapshot codec conversation_id with
    | .error _ => w
    | .ok snapshot =>
      let turns := (w.committedOn conversation_id).length
      { w with captured := insertEntry w.captured turn { conversation_id, snapshot, turns } }
  | .persist turn response_id previous_response_id new_items metadata fails =>
    match w.captured.lookup turn with
    | none => w
    | some t =>
      match w.store.persistIfVersion codec t.conversation_id t.snapshot.version response_id previous_response_id new_items
          metadata fails with
      | .error _ => w
      | .ok store => { w with store, committed := w.committed ++ [{ conversation_id := t.conversation_id, new_items }] }
  | .respond response_id response rows =>
    if (w.store.responses.lookup response_id).isSome then w
    else
      let items := rows.map fun data => { data, conversation_id := none, seq := none }
      { w with store := { w.store with
        items := w.store.items ++ items, responses := w.store.responses ++ [(response_id, response)] } }

/-- The requests of `ops` in order. -/
def run (codec : ItemCodec Row) (w : ConversationWorld Row) (ops : List (ConversationOp Row)) : ConversationWorld Row :=
  ops.foldl (step codec) w

/-- What was committed on a conversation, as rows. -/
def writtenOn (codec : ItemCodec Row) (w : ConversationWorld Row) (conversation_id : Text) : List Row :=
  (w.committedOn conversation_id).flatMap fun turn => turn.new_items.map codec.write

end ConversationWorld
end
end AgenticStack
