import AgenticStack.Types.Items

/-!
# Events of a response stream

An upstream line is normalized into an `EventFrame`: its classified type, a
typed payload, and the wire object the client is sent.
-/

namespace AgenticStack
set_option autoImplicit false
open Library

/-- The kind of an output item in a stream. -/
inductive SSEItemType where
  | reasoning | functionCall | toolSearchCall | customToolCall | webSearchCall
  | mcpCall | mcpListTools | shellCall | compaction | message
deriving DecidableEq, Repr

namespace SSEItemType

/-- The name of the type on the wire. -/
def asStr : SSEItemType → Text
  | .reasoning => "reasoning"
  | .functionCall => "function_call"
  | .toolSearchCall => "tool_search_call"
  | .customToolCall => "custom_tool_call"
  | .webSearchCall => "web_search_call"
  | .mcpCall => "mcp_call"
  | .mcpListTools => "mcp_list_tools"
  | .shellCall => "shell_call"
  | .compaction => "compaction"
  | .message => "message"

/-- Every type of an item. -/
def all : List SSEItemType :=
  [.reasoning, .functionCall, .toolSearchCall, .customToolCall, .webSearchCall, .mcpCall, .mcpListTools, .shellCall,
    .compaction, .message]

/-- `FromStr`: the kind a name stands for. -/
def parse (name : Text) : Option SSEItemType := all.find? fun kind => kind.asStr == name

/-- `From<&str>`: an unknown name is taken for a message. -/
def ofStr (name : Text) : SSEItemType := (parse name).getD .message

/-- `TryFrom<&OutputItem>`. -/
def ofItem : OutputItem → Option SSEItemType
  | .message _ => some .message
  | .functionCall _ => some .functionCall
  | .toolSearchCall _ => some .toolSearchCall
  | .customToolCall _ => some .customToolCall
  | .webSearchCall _ => some .webSearchCall
  | .mcpCall _ => some .mcpCall
  | .mcpListTools _ => some .mcpListTools
  | .shellCall _ => some .shellCall
  | .reasoning _ => some .reasoning
  | .compaction _ => some .compaction
  | .unknown => none

end SSEItemType

/-- The types of the events that the reader knows. -/
inductive SSEEventType where
  | responseCreated | responseInProgress | responseCompleted | responseFailed | responseIncomplete
  | outputItemAdded | outputItemDone
  | outputTextDelta | outputTextDone | contentPartAdded | contentPartDone
  | functionCallArgumentsDelta | functionCallArgumentsDone
  | customToolCallInputDelta | customToolCallInputDone
  | shellCallCommandAdded | shellCallCommandDelta | shellCallCommandDone
  | reasoningTextDelta | reasoningTextDone | reasoningPartAdded | reasoningPartDone
  | reasoningSummaryTextDelta | reasoningSummaryTextDone
  | fileSearchCallSearching | fileSearchCallCompleted
  | webSearchCallInProgress | webSearchCallSearching | webSearchCallCompleted
  | mcpCallInProgress | mcpCallArgumentsDelta | mcpCallArgumentsDone | mcpCallCompleted | mcpCallFailed
  | mcpListToolsInProgress | mcpListToolsCompleted | mcpListToolsFailed
  | other
deriving DecidableEq, Repr

namespace SSEEventType

/-- `TryFrom<SSEEventType> for &str`: `response.done` is read, never written. -/
def wireName : SSEEventType → Option Text
  | .responseCreated => some "response.created"
  | .responseInProgress => some "response.in_progress"
  | .responseCompleted => some "response.completed"
  | .responseFailed => some "response.failed"
  | .responseIncomplete => some "response.incomplete"
  | .outputItemAdded => some "response.output_item.added"
  | .outputItemDone => some "response.output_item.done"
  | .outputTextDelta => some "response.output_text.delta"
  | .outputTextDone => some "response.output_text.done"
  | .contentPartAdded => some "response.content_part.added"
  | .contentPartDone => some "response.content_part.done"
  | .functionCallArgumentsDelta => some "response.function_call_arguments.delta"
  | .functionCallArgumentsDone => some "response.function_call_arguments.done"
  | .customToolCallInputDelta => some "response.custom_tool_call_input.delta"
  | .customToolCallInputDone => some "response.custom_tool_call_input.done"
  | .shellCallCommandAdded => some "response.shell_call_command.added"
  | .shellCallCommandDelta => some "response.shell_call_command.delta"
  | .shellCallCommandDone => some "response.shell_call_command.done"
  | .reasoningTextDelta => some "response.reasoning_text.delta"
  | .reasoningTextDone => some "response.reasoning_text.done"
  | .reasoningPartAdded => some "response.reasoning_part.added"
  | .reasoningPartDone => some "response.reasoning_part.done"
  | .reasoningSummaryTextDelta => some "response.reasoning_summary_text.delta"
  | .reasoningSummaryTextDone => some "response.reasoning_summary_text.done"
  | .fileSearchCallSearching => some "response.file_search_call.searching"
  | .fileSearchCallCompleted => some "response.file_search_call.completed"
  | .webSearchCallInProgress => some "response.web_search_call.in_progress"
  | .webSearchCallSearching => some "response.web_search_call.searching"
  | .webSearchCallCompleted => some "response.web_search_call.completed"
  | .mcpCallInProgress => some "response.mcp_call.in_progress"
  | .mcpCallArgumentsDelta => some "response.mcp_call_arguments.delta"
  | .mcpCallArgumentsDone => some "response.mcp_call_arguments.done"
  | .mcpCallCompleted => some "response.mcp_call.completed"
  | .mcpCallFailed => some "response.mcp_call.failed"
  | .mcpListToolsInProgress => some "response.mcp_list_tools.in_progress"
  | .mcpListToolsCompleted => some "response.mcp_list_tools.completed"
  | .mcpListToolsFailed => some "response.mcp_list_tools.failed"
  | .other => none

/-- Every type of an event. -/
def all : List SSEEventType :=
  [.responseCreated, .responseInProgress, .responseCompleted, .responseFailed, .responseIncomplete,
    .outputItemAdded, .outputItemDone, .outputTextDelta, .outputTextDone, .contentPartAdded, .contentPartDone,
    .functionCallArgumentsDelta, .functionCallArgumentsDone, .customToolCallInputDelta, .customToolCallInputDone,
    .shellCallCommandAdded, .shellCallCommandDelta, .shellCallCommandDone, .reasoningTextDelta,
    .reasoningTextDone, .reasoningPartAdded, .reasoningPartDone, .reasoningSummaryTextDelta,
    .reasoningSummaryTextDone, .fileSearchCallSearching, .fileSearchCallCompleted, .webSearchCallInProgress,
    .webSearchCallSearching, .webSearchCallCompleted, .mcpCallInProgress, .mcpCallArgumentsDelta,
    .mcpCallArgumentsDone, .mcpCallCompleted, .mcpCallFailed, .mcpListToolsInProgress, .mcpListToolsCompleted,
    .mcpListToolsFailed]

/-- `From<&str>`. -/
def ofStr (name : Text) : SSEEventType :=
  if name = "response.done" then .responseCompleted
  else (all.find? fun type => type.wireName == some name).getD .other

end SSEEventType

/-- One step in the life of a command of a shell item. -/
inductive ShellCommandUpdate where
  | added (command : Text)
  | delta (delta : Text)
  | done (command : Text)
deriving DecidableEq, Repr

/-- The tokens that were counted. -/
structure ResponseUsage where
  input_tokens : Int
  output_tokens : Int
  total_tokens : Int
  cached_tokens : Int
  reasoning_tokens : Int
deriving DecidableEq, Repr

/-- The typed part of an event. -/
inductive EventPayload where
  | response (id status : Text) (usage : Option ResponseUsage)
  | outputItemAdded (item_id : Text) (item_type : SSEItemType) (output_index : Option Nat)
      (name «namespace» call_id : Option Text) (shell_call : Option ShellCall)
  | outputItemDone (item_id : Text) (item_type : SSEItemType) (output_index : Option Nat) (item : Json)
  | textDelta (delta item_id : Text) (output_index : Option Nat) (content_index : Nat)
  | textDone (text item_id : Text) (output_index : Option Nat)
  | functionCallArgsDelta (delta : Text) (call_id : Option Text) (item_id : Text) (output_index : Option Nat)
  | functionCallArgsDone (arguments : Text) (call_id : Option Text) (item_id name : Text) (output_index : Option Nat)
  | shellCallCommand (item_id : Text) (output_index command_index : Nat) (update : ShellCommandUpdate)
  | customToolCallInputDelta (delta item_id : Text) (output_index : Option Nat)
  | customToolCallInputDone (input item_id : Text) (output_index : Option Nat)
  | reasoningTextDelta (delta item_id : Text) (output_index : Option Nat) (content_index : Nat)
  | reasoningTextDone (text item_id : Text) (output_index : Option Nat) (content_index : Nat)
  | reasoningSummaryTextDelta (delta item_id : Text) (output_index : Option Nat) (summary_index : Nat)
  | reasoningSummaryTextDone (text item_id : Text) (output_index : Option Nat) (summary_index : Nat)
  | raw (value : Json)
  | none

/-- An event as it was read: the fields that are looked at, and the rest. -/
structure WireEvent where
  event_type : Option Text
  sequence_number : Option Nat
  output_index : Option Nat
  rest : List (Text × Json)

/-- An event with its type and what it tells. -/
structure EventFrame where
  event_type : SSEEventType
  payload : EventPayload
  wire : WireEvent

namespace EventFrame

/-- The index the event supplies, as a `u32`. -/
def outputIndex (frame : EventFrame) : Option Nat :=
  match frame.payload with
  | .outputItemAdded _ _ index _ _ _ _ | .outputItemDone _ _ index _ | .textDelta _ _ index _ | .textDone _ _ index
  | .functionCallArgsDelta _ _ _ index | .functionCallArgsDone _ _ _ _ index | .customToolCallInputDelta _ _ index
  | .customToolCallInputDone _ _ index | .reasoningTextDelta _ _ index _ | .reasoningTextDone _ _ index _
  | .reasoningSummaryTextDelta _ _ index _ | .reasoningSummaryTextDone _ _ index _ => index
  | _ => frame.wire.output_index.filter (· < 2 ^ 32)

/-- An event the gateway itself makes: it has a wire name and no payload. -/
def synthetic (type : SSEEventType) (rest : List (Text × Json)) : Option EventFrame :=
  type.wireName.map fun name =>
    { event_type := type
      payload := .none
      wire := ⟨some name, Option.none, Option.none, rest⟩ }

end EventFrame

end AgenticStack
