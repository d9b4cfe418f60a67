import AgenticStack.Executor.StreamEnd
import AgenticStack.Executor.Engine
import AgenticStack.Server.Multiplexer

/-!
# Outbound WebSocket events

An event is serialized with the `stream_id` of its request and checked for its
size before it is queued. The events of a generated turn arrive as the chunks of
its stream and are read again first; a turn without inference makes its two
events itself. The queue stays open.
-/

namespace AgenticStack.Server
set_option autoImplicit false
open Library

/-- An event may be so long. -/
def WS_MAX_EVENT_BYTES : Nat := 1024 * 1024

/-- A lane may have a name of so many characters. -/
def WS_MAX_STREAM_ID_CHARS : Nat := 256

/-- The name of a lane, neither empty nor too long. -/
structure StreamId where
  text : Text
  chars : 1 ≤ charCount text ∧ charCount text ≤ WS_MAX_STREAM_ID_CHARS

/-- A text that may name a lane. -/
def StreamId.tryFrom (value : Text) : Except Text StreamId :=
  if chars : 1 ≤ charCount value ∧ charCount value ≤ WS_MAX_STREAM_ID_CHARS then .ok ⟨value, chars⟩
  else .error (utf8 "stream_id must contain between 1 and " ++ decimal WS_MAX_STREAM_ID_CHARS ++ utf8 " characters")

/-- `Map::remove`: the last field takes the place of the removed one. -/
def removeField (fields : List (Text × Json)) (key : Text) : List (Text × Json) :=
  match fields.findIdx? (fun field => field.1 == key), fields.getLast? with
  | some i, some last => (fields.set i last).dropLast
  | _, _ => fields

/-- The lane is added to the fields of an event. -/
def attachStreamId (value : Json) (stream_id : Option StreamId) : Except WsError Json :=
  match value.asObject with
  | none => .error (.executor (.streamError "upstream WebSocket event must be a JSON object"))
  | some event => match stream_id with
    | some stream_id => .ok (.obj (insertField event "stream_id" (.str stream_id.text)))
    | none => .ok (.obj (removeField event "stream_id"))

/-- A serialized event that may be queued. -/
structure WsOutboundEvent where
  text : Text
  fits : text.length ≤ WS_MAX_EVENT_BYTES

/-- An event with its lane, which must not be too long. -/
def WsOutboundEvent.new (value : Json) (stream_id : Option StreamId) : Except WsError WsOutboundEvent := do
  let value ← attachStreamId value stream_id
  if fits : value.write.length ≤ WS_MAX_EVENT_BYTES then return ⟨value.write, fits⟩
  else throw (.executor (.streamError (utf8 "websocket event exceeded " ++ decimal WS_MAX_EVENT_BYTES ++ utf8 " bytes")))

/-- The outbound queue of a connection. -/
abbrev OutboundM (α : Type) := EStateM WsError (List WsOutboundEvent) α

/-- An event is queued for the client. -/
def queueWsJson (value : Json) (stream_id : Option StreamId) : OutboundM Unit := do
  let event ← ofExcept (WsOutboundEvent.new value stream_id)
  modify fun queued => queued ++ [event]

/-- The line without the carriage return at its end. -/
def stripCarriageReturn (line : Text) : Text := if line.getLast? = some 0x0d then line.dropLast else line

/-- The lines of a text after the bytes `line` of its first one. -/
def linesFrom (line : Text) : Text → List Text
  | [] => if line = [] then [] else [line]
  | b :: s => if b = 0x0a then stripCarriageReturn line :: linesFrom [] s else linesFrom (line ++ [b]) s

/-- `str::lines`. -/
def lines (s : Text) : List Text := linesFrom [] s

/-- The data of the lines of a chunk, without the mark of the end. -/
def sseJsonDataLines (chunk : Text) : List Text :=
  ((lines chunk).filterMap (stripPrefix (utf8 "data: ")) |>.map Engine.trim).filter (· ≠ "[DONE]")

/-- The data of a line is queued. -/
def forwardData (serde : SerdeJson) (stream_id : Option StreamId) (data : Text) : OutboundM Unit :=
  match serde.fromStr data with
  | some value => queueWsJson value stream_id
  | none => throw (.executor (.jsonError (serde.errorText data)))

/-- The data of a chunk is queued line by line. -/
def forwardWsStreamChunk (serde : SerdeJson) (chunk : Text) (stream_id : Option StreamId) : OutboundM Unit :=
  (sseJsonDataLines chunk).forM (forwardData serde stream_id)

/-- No tokens. -/
def usageJson : Json :=
  .obj [("input_tokens", .num (.posInt 0)), ("output_tokens", .num (.posInt 0)), ("total_tokens", .num (.posInt 0)),
    ("input_tokens_details", .obj [("cached_tokens", .num (.posInt 0))]),
    ("output_tokens_details", .obj [("reasoning_tokens", .num (.posInt 0))])]

/-- A text, or null. -/
def optionJson (text : Option Text) : Json := (text.map Json.str).getD .null

/-- `usage` is that of a response without tokens, if there is one. -/
def emptyResponseEvent (ctx : Engine.RequestContext) (created_at : Nat) (event_type status : Text) (sequence_number : Nat)
    (usage : Option Json) : Json :=
  .obj [("type", .str event_type), ("sequence_number", .num (.posInt sequence_number)),
    ("response", .obj [("id", .str ctx.response_id), ("object", .str "response"), ("created_at", .num (.posInt created_at)),
      ("model", .str ctx.enriched_request.model), ("status", .str status), ("output", .arr []),
      ("usage", usage.getD .null), ("incomplete_details", .null), ("error", .null),
      ("previous_response_id", optionJson ctx.original_request.previous_response_id),
      ("conversation_id", optionJson ctx.conversation_id), ("instructions", optionJson ctx.enriched_request.instructions)])]

/-- The first event of a turn without a model. -/
def emptyCreatedEvent (ctx : Engine.RequestContext) (created_at : Nat) : Json :=
  emptyResponseEvent ctx created_at "response.created" "in_progress" 0 none

/-- The last event of a turn without a model. -/
def emptyCompletedEvent (ctx : Engine.RequestContext) (created_at : Nat) : Json :=
  emptyResponseEvent ctx created_at "response.completed" "completed" 1 (some usageJson)

/-- What a turn without inference comes to. -/
structure LocalCompletion where
  result : Except WsError Unit
  queued : List WsOutboundEvent
  committed : Bool

/-- `rehydrated` is the context of the request, `turn` what storing it comes to. -/
def completeWithoutInference (rehydrated : ExecutorResult Engine.RequestContext) (created_at : Nat) (turn : Persistence)
    (stream_id : Option StreamId) : LocalCompletion :=
  match rehydrated with
  | .error error => ⟨.error (.executor error), [], false⟩
  | .ok ctx =>
    match WsOutboundEvent.new (emptyCreatedEvent ctx created_at) stream_id with
    | .error error => ⟨.error error, [], false⟩
    | .ok created_event =>
      match WsOutboundEvent.new (emptyCompletedEvent ctx created_at) stream_id with
      | .error error => ⟨.error error, [], false⟩
      | .ok completed_event =>
        match turn.result with
        | .error error => ⟨.error (.executor error), [], turn.committed⟩
        | .ok () => ⟨.ok (), [created_event, completed_event], turn.committed⟩

/-- A WebSocket request that is run, with what the code around it answers. -/
inductive WsTurn where
  | generated (outcome : RunOutcome) (failure : StreamFailureContext) (accumulator : GatewayStreamAccumulator)
      (next_sequence_number : Nat) (u64 : accumulator.next_sequence_number < 2 ^ 64)
  | withoutInference (rehydrated : ExecutorResult Engine.RequestContext) (created_at : Nat)

namespace WsTurn

/-- The turn is stored, or its checkpoint published; `turn` is what storing it comes to. -/
def committed (values : SerdeValues) (turn : Persistence) (stream_id : Option StreamId) : WsTurn → Bool
  | .generated outcome failure accumulator next_sequence_number _ =>
    (runStreamEnd values failure accumulator next_sequence_number outcome turn).committed
  | .withoutInference rehydrated created_at => (completeWithoutInference rehydrated created_at turn stream_id).committed

/-- Queues the terminal event of a turn that completes. -/
def queueTerminal (serde : SerdeJson) (values : SerdeValues) (stream_id : Option StreamId) : WsTurn → Option (OutboundM Unit)
  | .generated (.completed payload _) _ accumulator _ _ =>
    (accumulator.terminalResponseChunk values payload).toOption.map fun chunk => forwardWsStreamChunk serde chunk stream_id
  | .withoutInference (.ok ctx) created_at => some (queueWsJson (emptyCompletedEvent ctx created_at) stream_id)
  | _ => none

end WsTurn

end AgenticStack.Server
