import AgenticStack.Library.Json

/-!
# Input and output items

The items of a Responses request and of its result, with the fields the
gateway reads, forwards or rewrites. Ids and texts are byte strings.
-/

namespace AgenticStack
set_option autoImplicit false
open Library

inductive MessageStatus where
  | inProgress | completed
deriving DecidableEq, Repr

inductive ShellCallStatus where
  | inProgress | completed | incomplete
deriving DecidableEq, Repr

inductive ToolSearchExecution where
  | client
deriving DecidableEq, Repr

inductive ToolSearchStatus where
  | inProgress | completed | incomplete
deriving DecidableEq, Repr

/-- `GatewayCallStatus`, also under its name `WebSearchCallStatus`. -/
inductive GatewayCallStatus where
  | inProgress | completed | failed
deriving DecidableEq, Repr

inductive McpCallStatus where
  | inProgress | calling | completed | incomplete | failed
deriving DecidableEq, Repr

/-- A content part of an input message. -/
inductive InputContent where
  | inputText (text : Text)
  | inputImage (file_id image_url detail : Option Text)
  | inputFile (file_data file_id file_url filename detail : Option Text)
  | outputText (text : Text)
  | reasoningText (text : Text)
  | unknown
deriving DecidableEq, Repr

inductive InputMessageContent where
  | text (text : Text)
  | parts (parts : List InputContent)
deriving DecidableEq, Repr

structure InputMessage where
  id : Option Text
  role : Text
  status : Option MessageStatus
  content : InputMessageContent
deriving DecidableEq, Repr

inductive ToolOutputContent where
  | inputText (text : Text)
  | inputImage (file_id image_url detail : Option Text)
  | inputFile (file_data file_id file_url filename detail : Option Text)
deriving DecidableEq, Repr

inductive ToolCallOutput where
  | text (text : Text)
  | content (parts : List ToolOutputContent)
deriving DecidableEq, Repr

/-- A `function_call_output` item. -/
structure FunctionToolResultMessage where
  call_id : Text
  output : ToolCallOutput
deriving DecidableEq, Repr

/-- A function call replayed as input: the client may leave out `id` and `status`. -/
structure InputFunctionToolCall where
  id : Option Text
  call_id : Text
  name : Text
  «namespace» : Option Text
  arguments : Text
  status : Option MessageStatus
deriving DecidableEq, Repr

/-- A function call as the model emitted it. -/
structure FunctionToolCall where
  id : Text
  call_id : Text
  name : Text
  «namespace» : Option Text
  arguments : Text
  status : MessageStatus
deriving DecidableEq, Repr

structure InputToolSearchCall where
  id : Text
  call_id : Text
  execution : ToolSearchExecution
  arguments : Json
  status : ToolSearchStatus

structure ToolSearchCall where
  id : Text
  call_id : Text
  execution : ToolSearchExecution
  arguments : Json
  status : ToolSearchStatus

structure ToolSearchOutputMessage where
  call_id : Text
  execution : ToolSearchExecution
  status : ToolSearchStatus
  tools : List Json

/-- A freeform tool call: `input` is opaque text, not JSON. -/
structure CustomToolCall where
  id : Text
  status : Option MessageStatus
  call_id : Text
  name : Text
  input : Text
deriving DecidableEq, Repr

structure CustomToolCallOutputMessage where
  call_id : Text
  name : Option Text
  output : ToolCallOutput
deriving DecidableEq, Repr

/-- The commands and limits of a shell call; `extra` holds the flattened other fields. -/
structure ShellCallAction where
  commands : List Text
  timeout_ms : Option Nat
  max_output_length : Option Nat
  extra : List (Text × Json)

structure ShellCall where
  id : Option Text
  call_id : Text
  action : ShellCallAction
  status : Option ShellCallStatus
  extra : List (Text × Json)

inductive ShellCallOutcome where
  | exit (exit_code : Int)
  | timeout
  | unknown
deriving DecidableEq, Repr

structure ShellCallOutputContent where
  stdout : Text
  stderr : Text
  outcome : ShellCallOutcome
  extra : List (Text × Json)

structure ShellCallOutputMessage where
  id : Option Text
  call_id : Text
  max_output_length : Option Nat
  output : List ShellCallOutputContent
  status : Option ShellCallStatus
  extra : List (Text × Json)

structure ReasoningTextContent where
  type_ : Text
  text : Text
deriving DecidableEq, Repr

structure ReasoningOutput where
  id : Text
  content : List ReasoningTextContent
  summary : List Json
  encrypted_content : Option Json
  status : Option Text

structure McpListTool where
  name : Text
  description : Option Text
  input_schema : Json
  annotations : Option Json

structure McpListTools where
  id : Text
  server_label : Text
  tools : List McpListTool
  error : Option Text

structure CompactionItem where
  id : Option Text
  encrypted_content : Text
deriving DecidableEq, Repr

structure OutputTextContent where
  type_ : Text
  text : Text
  annotations : List Json

structure OutputMessage where
  id : Text
  role : Text
  status : MessageStatus
  content : List OutputTextContent

structure WebSearchSource where
  url : Text
  title : Option Text
deriving DecidableEq, Repr

inductive WebSearchAction where
  | search (query : Text) (queries : List Text) (sources : List WebSearchSource)
  | openPage (url : Option Text)
  | findInPage (pattern url : Text)
deriving DecidableEq, Repr

structure WebSearchCall where
  id : Text
  status : GatewayCallStatus
  action : WebSearchAction
deriving DecidableEq, Repr

structure McpToolExecutionErrorContent where
  type_ : Text
  text : Text
  annotations : Option Json
  «meta» : Option Json

inductive McpCallError where
  | text (text : Text)
  | toolExecution (type_ : Text) (content : List McpToolExecutionErrorContent)
  | unknown (value : Json)

structure McpCall where
  id : Text
  server_label : Text
  name : Text
  arguments : Text
  status : Option McpCallStatus
  approval_request_id : Option Text
  output : Option Text
  error : Option McpCallError

/-- An item of a request's input, or of the rehydrated history before it. -/
inductive InputItem where
  | message (message : InputMessage)
  | functionCall (call : InputFunctionToolCall)
  | functionCallOutput (output : FunctionToolResultMessage)
  | toolSearchCall (call : InputToolSearchCall)
  | toolSearchOutput (output : ToolSearchOutputMessage)
  | customToolCall (call : CustomToolCall)
  | customToolCallOutput (output : CustomToolCallOutputMessage)
  | shellCall (call : ShellCall)
  | shellCallOutput (output : ShellCallOutputMessage)
  | reasoning (reasoning : ReasoningOutput)
  | mcpListTools (list : McpListTools)
  | compaction (item : CompactionItem)
  | compactionTrigger
  | unknown

/-- An item of a response's output. -/
inductive OutputItem where
  | message (message : OutputMessage)
  | functionCall (call : FunctionToolCall)
  | toolSearchCall (call : ToolSearchCall)
  | customToolCall (call : CustomToolCall)
  | shellCall (call : ShellCall)
  | webSearchCall (call : WebSearchCall)
  | mcpCall (call : McpCall)
  | mcpListTools (list : McpListTools)
  | reasoning (reasoning : ReasoningOutput)
  | compaction (item : CompactionItem)
  | unknown

/-- The `input` of a request. -/
inductive ResponsesInput where
  | text (text : Text)
  | items (items : List InputItem)

/-- A stored item: what the client sent, or what the model answered. -/
inductive InOutItem where
  | input (item : InputItem)
  | output (item : OutputItem)

namespace InputItem

def isUnknown : InputItem → Bool
  | .unknown => true
  | _ => false

def isCompactionTrigger : InputItem → Bool
  | .compactionTrigger => true
  | _ => false

def isCompaction : InputItem → Bool
  | .compaction _ => true
  | _ => false

/-- Listing records and compaction markers never reach the model. -/
def isModelVisible : InputItem → Bool
  | .mcpListTools _ | .compactionTrigger => false
  | _ => true

end InputItem

/-- The wire id of an output item, if its type is known. -/
def OutputItem.id : OutputItem → Option Text
  | .message item => some item.id
  | .functionCall item => some item.id
  | .toolSearchCall item => some item.id
  | .customToolCall item => some item.id
  | .shellCall item => item.id
  | .webSearchCall item => some item.id
  | .mcpCall item => some item.id
  | .mcpListTools item => some item.id
  | .reasoning item => some item.id
  | .compaction item => item.id
  | .unknown => none

end AgenticStack
