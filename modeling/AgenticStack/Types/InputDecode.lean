import AgenticStack.Types.ToolParams

/-!
# Reading input items

A request's input and the stored items are read by the same code: an item without a type is a
message, and one of a type that is not known is kept as unknown.
-/

namespace AgenticStack
set_option autoImplicit false
open Library

section
variable (v : Json)

def readText {α : Type} (make : Text → α) : Option α := do
  let fields ← Json.asStruct [("text", false)] v
  let text ← requiredOf fields "text" Json.asStr
  return make text

def readImage {α : Type} (make : Option Text → Option Text → Option Text → α) : Option α := do
  let fields ← Json.asStruct [("file_id", true), ("image_url", true), ("detail", true)] v
  let file_id ← optionField fields "file_id" Json.asStr
  let image_url ← optionField fields "image_url" Json.asStr
  let detail ← optionField fields "detail" Json.asStr
  return make file_id image_url detail

def readFile {α : Type} (make : Option Text → Option Text → Option Text → Option Text → Option Text → α) : Option α := do
  let fields ← Json.asStruct [("file_data", true), ("file_id", true), ("file_url", true), ("filename", true), ("detail", true)] v
  let file_data ← optionField fields "file_data" Json.asStr
  let file_id ← optionField fields "file_id" Json.asStr
  let file_url ← optionField fields "file_url" Json.asStr
  let filename ← optionField fields "filename" Json.asStr
  let detail ← optionField fields "detail" Json.asStr
  return make file_data file_id file_url filename detail

end

def InputContent.ofJson (v : Json) : Option InputContent := do
  let (type, content) ← readTag v
  if type = "input_text" then readText content .inputText
  else if type = "input_image" then readImage content .inputImage
  else if type = "input_file" then readFile content .inputFile
  else if type = "output_text" then readText content .outputText
  else if type = "reasoning_text" then readText content .reasoningText
  else some .unknown

def InputMessageContent.ofJson : Json → Option InputMessageContent
  | .str t => some (.text t)
  | v => (Json.asList InputContent.ofJson v).map .parts

def InputMessage.order : FieldOrder := [("id", true), ("role", false), ("status", true), ("content", false)]

def InputMessage.ofFields (fields : List (Text × Json)) : Option InputMessage := do
  let id ← optionField fields "id" Json.asStr
  let role ← requiredOf fields "role" Json.asStr
  let status ← optionField fields "status" (Json.asCase MessageStatus.names)
  let content ← requiredOf fields "content" InputMessageContent.ofJson
  return ⟨id, role, status, content⟩

def ToolOutputContent.ofJson (v : Json) : Option ToolOutputContent := do
  let (type, content) ← readTag v
  if type = "input_text" then readText content .inputText
  else if type = "input_image" then readImage content .inputImage
  else if type = "input_file" then readFile content .inputFile
  else none

def ToolCallOutput.ofJson : Json → Option ToolCallOutput
  | .str t => some (.text t)
  | v => (Json.asList ToolOutputContent.ofJson v).map .content

def FunctionToolResultMessage.ofFields (fields : List (Text × Json)) : Option FunctionToolResultMessage := do
  let call_id ← requiredOf fields "call_id" Json.asStr
  let output ← requiredOf fields "output" ToolCallOutput.ofJson
  return ⟨call_id, output⟩

def CustomToolCallOutputMessage.ofFields (fields : List (Text × Json)) : Option CustomToolCallOutputMessage := do
  let call_id ← requiredOf fields "call_id" Json.asStr
  let name ← optionField fields "name" Json.asStr
  let output ← requiredOf fields "output" ToolCallOutput.ofJson
  return ⟨call_id, name, output⟩

def InputFunctionToolCall.ofFields (fields : List (Text × Json)) : Option InputFunctionToolCall := do
  let id ← optionField fields "id" Json.asStr
  let call_id ← requiredOf fields "call_id" Json.asStr
  let name ← requiredOf fields "name" Json.asStr
  let namespace_ ← optionField fields "namespace" Json.asStr
  let arguments ← requiredOf fields "arguments" Json.asStr
  let status ← optionField fields "status" (Json.asCase MessageStatus.names)
  return ⟨id, call_id, name, namespace_, arguments, status⟩

def InputToolSearchCall.ofFields (fields : List (Text × Json)) : Option InputToolSearchCall := do
  let id ← requiredOf fields "id" Json.asNonBlank
  let call_id ← requiredOf fields "call_id" Json.asNonBlank
  let execution ← defaultOf fields "execution" (Json.asCase ToolSearchExecution.names) .client
  let arguments ← requiredOf fields "arguments" Json.asValue
  let status ← defaultOf fields "status" (Json.asCase ToolSearchStatus.names) .completed
  return ⟨id, call_id, execution, arguments, status⟩

def ToolSearchOutputMessage.ofFields (fields : List (Text × Json)) : Option ToolSearchOutputMessage := do
  let call_id ← requiredOf fields "call_id" Json.asNonBlank
  let execution ← defaultOf fields "execution" (Json.asCase ToolSearchExecution.names) .client
  let status ← defaultOf fields "status" (Json.asCase ToolSearchStatus.names) .completed
  let tools ← requiredOf fields "tools" (Json.asList ResponsesTool.read)
  return ⟨call_id, execution, status, tools⟩

/-- An integer of 32 bits with a sign. -/
def Json.asI32 (v : Json) : Option Int := (Json.asI64 v).filter fun n => -2 ^ 31 ≤ n ∧ n < 2 ^ 31

def ShellCallOutcome.ofJson (v : Json) : Option ShellCallOutcome := do
  let (type, content) ← readTag v
  if type = "exit" then
    let fields ← Json.asStruct [("exit_code", false)] content
    (requiredOf fields "exit_code" Json.asI32).map .exit
  else if type = "timeout" then some .timeout
  else some .unknown

def ShellCallOutputContent.known : List Text := ["stdout", "stderr", "outcome"]

def ShellCallOutputContent.ofJson (v : Json) : Option ShellCallOutputContent := do
  let fields ← v.asObject
  let stdout ← defaultOf fields "stdout" Json.asStr []
  let stderr ← defaultOf fields "stderr" Json.asStr []
  let outcome ← requiredOf fields "outcome" ShellCallOutcome.ofJson
  return ⟨stdout, stderr, outcome, fields.filter fun field => !ShellCallOutputContent.known.contains field.1⟩

def ShellCallOutputMessage.known : List Text := ["id", "call_id", "max_output_length", "output", "status"]

def ShellCallOutputMessage.ofFields (fields : List (Text × Json)) : Option ShellCallOutputMessage := do
  let id ← optionField fields "id" Json.asStr
  let call_id ← requiredOf fields "call_id" Json.asStr
  let max_output_length ← optionField fields "max_output_length" Json.asU64
  let output ← requiredOf fields "output" (Json.asList ShellCallOutputContent.ofJson)
  let status ← optionField fields "status" (Json.asCase ShellCallStatus.names)
  return ⟨id, call_id, max_output_length, output, status,
    fields.filter fun field => !ShellCallOutputMessage.known.contains field.1⟩

/-- An input item from the fields beside its `type`. -/
def InputItem.ofFields (kind : Option Text) (fields : List (Text × Json)) : Option InputItem :=
  match kind with
  | none => (InputMessage.ofFields fields).map .message
  | some kind =>
    if kind = "message" then (InputMessage.ofFields fields).map .message
    else if kind = "function_call" then (InputFunctionToolCall.ofFields fields).map .functionCall
    else if kind = "function_call_output" then (FunctionToolResultMessage.ofFields fields).map .functionCallOutput
    else if kind = "tool_search_call" then (InputToolSearchCall.ofFields fields).map .toolSearchCall
    else if kind = "tool_search_output" then (ToolSearchOutputMessage.ofFields fields).map .toolSearchOutput
    else if kind = "custom_tool_call" then (CustomToolCall.ofFields fields).map .customToolCall
    else if kind = "custom_tool_call_output" then
      (CustomToolCallOutputMessage.ofFields fields).map .customToolCallOutput
    else if kind = "shell_call" then (ShellCall.ofFields fields).map .shellCall
    else if kind = "shell_call_output" then (ShellCallOutputMessage.ofFields fields).map .shellCallOutput
    else if kind = "reasoning" then (ReasoningOutput.ofFields fields).map .reasoning
    else if kind = "mcp_list_tools" then (McpListTools.ofFields fields).map .mcpListTools
    else if kind = "compaction" then (CompactionItem.ofFields fields).map .compaction
    else if kind = "compaction_trigger" then some .compactionTrigger
    else some .unknown

/-- A `type` that is no text counts as missing; an array can be a message. -/
def InputItem.ofJson : Json → Option InputItem
  | .obj fields => InputItem.ofFields ((fields.lookup (utf8 "type")).bind Json.asStr)
      (fields.filter fun field => field.1 != utf8 "type")
  | v => (Json.asStruct InputMessage.order v).bind (InputItem.ofFields none)

end AgenticStack
