import AgenticStack.Executor.Recording
import AgenticStack.Executor.StreamEnd
import AgenticStack.Storage.ResponseRows

/-!
# Committing a turn

A caller that ran the inference itself hands in the response of a turn. The calls of its output are
checked before it is stored: each has an id of its own, which no call of the history that the turn
continues has, nor one of its input.
-/

namespace AgenticStack
set_option autoImplicit false
open Library

namespace ConversationStore
variable {Row : Type}

/-- The tables as the response store reads them. -/
def responseStore (db : ConversationStore Row) : ResponseStore Row := ⟨db.items.map (·.data), db.responses⟩

/-- The tables once the response store wrote to them; its rows are in no conversation. -/
def afterResponse (db : ConversationStore Row) (store : ResponseStore Row) : ConversationStore Row :=
  { db with
    items := db.items ++ (store.items.drop db.items.length).map fun data => ⟨data, none, none⟩
    responses := store.responses }

/-- The responses that were written are those that are there. -/
theorem responseStore_afterResponse {db : ConversationStore Row} {store : ResponseStore Row}
    (grows : db.responseStore.Grows store) : (db.afterResponse store).responseStore = store := by
  obtain ⟨more, items⟩ := grows.items
  have length : db.items.length = (db.items.map (·.data)).length := (List.length_map _).symm
  have made : ((db.afterResponse store).items.map (·.data)) = store.items := by
    show (db.items ++ (store.items.drop db.items.length).map _).map _ = _
    rw [List.map_append, List.map_map, items, length]
    show db.items.map _ ++ (List.drop _ (db.items.map (·.data) ++ more)).map _ = _
    rw [List.drop_left]
    show _ ++ more.map (fun data => data) = _
    rw [List.map_id']
    rfl
  show (⟨_, store.responses⟩ : ResponseStore Row) = _
  rw [made]

/-- Nothing changes where the responses stay as they are. -/
theorem afterResponse_self (db : ConversationStore Row) : db.afterResponse db.responseStore = db := by
  have none : db.responseStore.items.drop db.items.length = [] :=
    List.drop_eq_nil_of_le (by show (db.items.map _).length ≤ _; rw [List.length_map])
  rw [afterResponse, none, List.map_nil, List.append_nil]
  rfl

end ConversationStore

/-- The id under which an item of the input is a call. -/
def InputItem.callId : InputItem → Option Text
  | .functionCall call => some call.call_id
  | .toolSearchCall call => some call.call_id
  | .customToolCall call => some call.call_id
  | .shellCall call => some call.call_id
  | _ => none

/-- `stored_call_id`. -/
def InOutItem.callId : InOutItem → Option Text
  | .input item => item.callId
  | .output item => item.callId

/-- The ids of the calls of a turn. -/
def callIdsOf (items : List InOutItem) : List Text := items.filterMap InOutItem.callId

/-- The type and the id of a call. -/
def OutputItem.call : OutputItem → Option (Text × Text)
  | .functionCall call => some ("function_call", call.call_id)
  | .toolSearchCall call => some ("tool_search_call", call.call_id)
  | .customToolCall call => some ("custom_tool_call", call.call_id)
  | .shellCall call => some ("shell_call", call.call_id)
  | _ => none

/-- The calls of an output, each under its id, with the place and the type it has there. -/
abbrev OutputCalls := List (Text × (Nat × Text))

/-- Where in the output an item stands, for the texts of the errors. -/
def outputPlace (index : Nat) (item_type : Text) : Text :=
  utf8 "upstream response output[" ++ decimal index ++ utf8 "] " ++ item_type

/-- The calls of the output, each with its place. No id may be empty, and none may be used twice. -/
def collectCallIds (index : Nat) (call_ids : OutputCalls) : List OutputItem → ExecutorResult OutputCalls
  | [] => .ok call_ids
  | item :: items => match item.call with
    | none => collectCallIds (index + 1) call_ids items
    | some (item_type, call_id) =>
      if call_id = [] then .error (invalid (outputPlace index item_type ++ utf8 " has no valid 'call_id'"))
      else match call_ids.lookup call_id with
        | some (first_index, _) => .error (invalid (outputPlace index item_type ++
            utf8 " repeats 'call_id' from output[" ++ decimal first_index ++ utf8 "]"))
        | none => collectCallIds (index + 1) (insertEntry call_ids call_id (index, item_type)) items

/-- No item from `index` on has the id of a call in the output; `place` says what the items are. -/
def validateCallIds (call_ids : OutputCalls) (place : Text) (index : Nat) : List (Option Text) → ExecutorResult Unit
  | [] => .ok ()
  | id :: ids => match id.bind fun call_id => call_ids.lookup call_id with
    | some (output_index, item_type) => .error (invalid (outputPlace output_index item_type ++
        utf8 " repeats 'call_id' from " ++ place ++ decimal index ++ utf8 "]"))
    | none => validateCallIds call_ids place (index + 1) ids

/-- What a turn is committed with. -/
structure CommitContext where
  request : Engine.RequestContext
  conversation_version : Option ConversationVersion
  /-- The checkpoint that the lease of a session holds. -/
  parent : Option ResponseCheckpoint
  tools : Option (List ResponsesTool)

namespace CommitContext

/-- What is kept of a turn for the turns that continue it. -/
def metadata (ctx : CommitContext) : ResponseMetadata where
  model := ctx.request.enriched_request.model
  previous_response_id := ctx.request.original_request.previous_response_id
  effective_tools := ctx.tools
  tool_search_loaded_tools := none
  effective_tool_choice := ctx.request.enriched_request.tool_choice.getD .auto
  effective_instructions := ctx.request.enriched_request.instructions

end CommitContext

namespace Commit

section
variable {Row : Type} (codec : ItemCodec Row)

/-- `ResponseHandler::rehydrate`: the history of the response before, if there is one. -/
def rehydratePrevious (store : ResponseStore Row) (previous_response_id : Option Text) :
    Except StorageError (List InOutItem) :=
  match previous_response_id with
  | none => .ok []
  | some previous_id => store.rehydrate codec previous_id

/-- No call of the output may have the id of a call that came before. -/
def validateOutputCallIds (db : ConversationStore Row) (ctx : CommitContext) (output_items : List OutputItem) :
    ExecutorResult Unit := do
  let call_ids ← collectCallIds 0 [] output_items
  if call_ids.isEmpty then return ()
  if ctx.request.continuation.isSome then
    validateCallIds call_ids "continued history item[" 0 (ctx.request.enriched_request.input.modelItems.map InputItem.callId)
  else
    match rehydratePrevious codec db.responseStore ctx.request.original_request.previous_response_id with
    | .error e => throw (Engine.storageFailure ctx.request.response_id e)
    | .ok history =>
      validateCallIds call_ids "continued history item[" 0 (history.map InOutItem.callId)
      validateCallIds call_ids "request input[" 0 (ctx.request.new_input_items.map InputItem.callId)

variable (retain publish : ResponseCheckpoint → ExecutorResult Unit) (storageText : ConversationError → Text) (fails : Bool)

/-- `ResponseHandler::execute_turn_with_metadata`. The checkpoint is published once the turn is written. -/
def executeResponseTurn (db : ConversationStore Row) (ctx : CommitContext) (output_items : List OutputItem) :
    ExecutorResult Unit × ConversationStore Row :=
  match Engine.executeTurnWithMetadata codec retain db.responseStore ctx.request ctx.parent output_items ctx.metadata with
  | .error e => (.error e, db)
  | .ok (store, checkpoint) => (checkpoint.elim (.ok ()) publish, db.afterResponse store)

/-- `ConversationHandler::execute_turn_with_metadata`. -/
def executeConversationTurn (db : ConversationStore Row) (ctx : CommitContext) (output_items : List OutputItem) :
    ExecutorResult Unit × ConversationStore Row :=
  match ctx.request.conversation_id, ctx.conversation_version with
  | none, _ => (.error (invalid "conversation_id is required for execute_turn"), db)
  | some _, none => (.error (invalid "conversation version is required for execute_turn"), db)
  | some conversation_id, some version =>
    match db.persistIfVersion codec conversation_id version ctx.request.response_id ctx.metadata.previous_response_id
      (ctx.request.new_input_items.map .input ++ output_items.map .output) ctx.metadata fails with
    | .ok db => (.ok (), db)
    | .error .conversationConflict => (.error .conversationLocked, db)
    | .error e => (.error (.storage (storageText e) (e matches .storage (.notFound ..))), db)

/-- A turn is stored under its conversation, or after the response it continues. -/
def persistPreparedTurn (db : ConversationStore Row) (ctx : CommitContext) (output_items : List OutputItem) :
    ExecutorResult Unit × ConversationStore Row :=
  if ctx.request.original_request.conversation_id.isSome then
    executeConversationTurn codec storageText fails db ctx output_items
  else executeResponseTurn codec retain publish db ctx output_items

/-- Whether a response that ended so is stored. -/
def isStoredStatus (status : Text) : Bool :=
  ResponseStatus.parse status = .completed || ResponseStatus.parse status = .incomplete

/-- A response is stored where it ended well and the request asks for it. -/
def persistPreparedResponse (db : ConversationStore Row) (payload : ResponsePayload) (ctx : CommitContext) :
    ExecutorResult Unit × ConversationStore Row :=
  if !isStoredStatus payload.status || payload.id.isEmpty then (.ok (), db)
  else persistPreparedTurn codec retain publish storageText fails db ctx payload.output

/-- A response is stored where the request asks for it, and a failure is the failure of the turn. -/
def persistIfNeeded (db : ConversationStore Row) (payload : ResponsePayload) (ctx : CommitContext) :
    ExecutorResult Unit × ConversationStore Row :=
  if shouldPersist ctx.request then
    let (result, db) := persistPreparedResponse codec retain publish storageText fails db payload ctx
    ((Persistence.mapError ⟨result, result.isOk⟩).result, db)
  else (.ok (), db)

/-- A response that another service has fetched is stored as if it were the engine's own. -/
def commit (db : ConversationStore Row) (ctx : CommitContext) (payload : ResponsePayload) :
    ExecutorResult ResponsePayload × ConversationStore Row :=
  if ctx.request.response_id = [] then (.error (invalid "context has no reserved response id"), db)
  else if ResponseStatus.parse payload.status = .inProgress then
    (.error (invalid (utf8 "upstream response status '" ++ payload.status ++ utf8 "' is not terminal")), db)
  else
    match if isStoredStatus payload.status then validateOutputCallIds codec db ctx payload.output else .ok () with
    | .error e => (.error e, db)
    | .ok () =>
      let (result, db) := persistIfNeeded codec retain publish storageText fails db payload ctx
      (result.map fun _ => payload, db)

end
end Commit
end AgenticStack
