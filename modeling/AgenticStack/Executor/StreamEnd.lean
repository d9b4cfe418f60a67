import AgenticStack.Executor.Gateway

/-!
# The end of a streamed response

The last event of a stream is made from the finished response. It is checked and
serialized first, then the turn is stored, and only then the client gets it.
-/

namespace AgenticStack
set_option autoImplicit false
open Library

/-- The mark of the end of a stream. -/
def DONE_MARKER : Text := "data: [DONE]\n\n"

/-- `terminal_event_type`, as it is classified. -/
def ResponsePayload.terminalEventType (payload : ResponsePayload) : SSEEventType :=
  if payload.status = "incomplete" then .responseIncomplete
  else if payload.status = "failed" ∨ payload.status = "error" then .responseFailed
  else if payload.status = "in_progress" then .responseInProgress
  else .responseCompleted

/-- The last event of a response. -/
def terminalResponseFrame (values : SerdeValues) (payload : ResponsePayload) : ExecutorResult EventFrame :=
  match EventFrame.synthetic payload.terminalEventType [("response", values.payload payload)] with
  | some frame => .ok frame
  | none => .error (.streamError "terminal response event has no wire representation")

/-- The last event as it is sent. -/
def GatewayStreamAccumulator.terminalResponseChunk (self : GatewayStreamAccumulator) (values : SerdeValues)
    (payload : ResponsePayload) : ExecutorResult Text := do
  let frame ← terminalResponseFrame values payload
  checkedStreamEvent (self.stampEvent frame 0).1

/-- Whether a response is to be kept at all. -/
def shouldPersist (ctx : Engine.RequestContext) : Bool :=
  ctx.continuation.isSome || ctx.original_request.store || ctx.original_request.previous_response_id.isSome ||
    ctx.original_request.conversation_id.isSome

/-- What storing a turn comes to: its result, and whether the turn is stored or its checkpoint published. -/
structure Persistence where
  result : ExecutorResult Unit
  committed : Bool

namespace Persistence

/-- Nothing was stored. -/
def skipped : Persistence := ⟨.ok (), false⟩

/-- How a failure to store is reported. -/
def mapError (turn : Persistence) : Persistence :=
  { turn with result := match turn.result with
    | .error (.conflict message) => .error (.conflict message)
    | .error (.payloadTooLarge message) => .error (.payloadTooLarge message)
    | .error source => .error (.persistence source)
    | .ok () => .ok () }

end Persistence

/-- `persist_prepared_response`; `turn` is what `persist_prepared_turn` comes to. -/
def persistPreparedResponse (payload : ResponsePayload) (turn : Persistence) : Persistence :=
  match ResponseStatus.parse payload.status with
  | .completed | .incomplete => if payload.id = [] then .skipped else turn
  | _ => .skipped

/-- A response is stored where it is to be kept. -/
def persistIfNeeded (payload : ResponsePayload) (ctx : Engine.RequestContext) (turn : Persistence) : Persistence :=
  if shouldPersist ctx then (persistPreparedResponse payload turn).mapError else .skipped

/-- What the task that runs a streaming request ends with; `joinError` is a panic. -/
inductive RunOutcome where
  | joinError (message : Text)
  | failed (error : ExecutorError)
  | completed (payload : ResponsePayload) (ctx : Engine.RequestContext)

/-- What is known of a turn that fails. -/
structure StreamFailureContext where
  response_id : Text
  conversation_id : Option Text
  model : Text
  previous_response_id : Option Text
  instructions : Option Text

namespace StreamFailureContext

/-- What is known of a turn before it runs. -/
def ofContext (ctx : Engine.RequestContext) : StreamFailureContext where
  response_id := ctx.response_id
  conversation_id := ctx.conversation_id
  model := ctx.enriched_request.model
  previous_response_id := ctx.original_request.previous_response_id
  instructions := ctx.original_request.instructions

/-- The response of a turn that has failed. -/
def failedPayload (self : StreamFailureContext) (error : ExecutorError) : ResponsePayload where
  id := self.response_id
  model := self.model
  status := "failed"
  output := []
  usage := none
  incomplete_details := none
  error := some (.obj [("message", .str error.errorMessage), ("type", .str error.errorType), ("code", .str error.errorCode)])
  previous_response_id := self.previous_response_id
  conversation_id := self.conversation_id
  instructions := self.instructions

end StreamFailureContext

/-- The chunks behind the events of the run, and whether the turn was committed. -/
structure StreamEnd where
  chunks : List Text
  committed : Bool

section
variable (values : SerdeValues) (failure : StreamFailureContext) (accumulator : GatewayStreamAccumulator)
  (next_sequence_number : Nat)

/-- The event of an error as it is sent. -/
def errorChunk (error : ExecutorError) : Text := serializeSseFrame (executorErrorChunkAt error next_sequence_number)

/-- The end of `run_stream`, once every event of the run was passed on; `turn` is what storing it comes to. -/
def runStreamEnd (outcome : RunOutcome) (turn : Persistence) : StreamEnd :=
  match outcome with
  | .joinError message =>
    { chunks := [serializeSseFrame (errorSseFrame (utf8 "stream task failed: " ++ message) next_sequence_number), DONE_MARKER]
      committed := false }
  | .failed error =>
    let chunk :=
      if error.isInvalidUpstreamToolSearch then
        match accumulator.terminalResponseChunk values (failure.failedPayload error) with
        | .ok chunk => chunk
        | .error serialize_error => errorChunk next_sequence_number serialize_error
      else errorChunk next_sequence_number error
    { chunks := [chunk, DONE_MARKER], committed := false }
  | .completed payload ctx =>
    match accumulator.terminalResponseChunk values payload with
    | .error error => { chunks := [errorChunk next_sequence_number error, DONE_MARKER], committed := false }
    | .ok chunk =>
      -- the client may leave as soon as it has the terminal event
      let persisted := persistIfNeeded payload ctx turn
      match persisted.result with
      | .ok () => { chunks := [chunk, DONE_MARKER], committed := persisted.committed }
      | .error error => { chunks := [errorChunk next_sequence_number error, DONE_MARKER], committed := persisted.committed }

end

end AgenticStack
