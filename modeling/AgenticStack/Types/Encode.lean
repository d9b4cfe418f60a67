import AgenticStack.Types.Decode
import AgenticStack.Library.ObjectFields

/-!
# The derived writers

`serde_json::to_value` of the items. The fields of a struct are written in their order; an
enumeration writes its `type` before them, and the other fields of a struct are inserted last.
-/

namespace AgenticStack
set_option autoImplicit false
open Library

/-- The name of a case. -/
def Json.ofCase {α : Type} [DecidableEq α] (names : List (Text × α)) (x : α) : Json :=
  .str (((names.find? fun name => name.2 = x).map Prod.fst).getD [])

/-- An `Option` that is written as null when it is `None`. -/
def Json.orNull (v : Option Json) : Option Json := some (v.getD .null)

def Json.ofNat (n : Nat) : Json := .num (.posInt n)

def Json.ofInt (n : Int) : Json := .num (if n < 0 then .negInt n.natAbs else .posInt n.natAbs)

def structValue (fields : List (Text × Option Json)) : Json := .obj (present fields)

/-- The fields of an object under its `type`. -/
def taggedFields (type : Text) (fields : List (Text × Option Json)) (extra : List (Text × Json)) : List (Text × Json) :=
  withExtra ((utf8 "type", .str type) :: present fields) extra

def taggedValue (type : Text) (fields : List (Text × Option Json)) : Json := .obj (taggedFields type fields [])

def InputContent.toValue : InputContent → Json
  | .inputText text => taggedValue "input_text" [("text", some (.str text))]
  | .inputImage file_id image_url detail => taggedValue "input_image"
      [("file_id", file_id.map .str), ("image_url", image_url.map .str), ("detail", detail.map .str)]
  | .inputFile file_data file_id file_url filename detail => taggedValue "input_file"
      [("file_data", file_data.map .str), ("file_id", file_id.map .str), ("file_url", file_url.map .str),
        ("filename", filename.map .str), ("detail", detail.map .str)]
  | .outputText text => taggedValue "output_text" [("text", some (.str text))]
  | .reasoningText text => taggedValue "reasoning_text" [("text", some (.str text))]
  | .unknown => taggedValue "unknown" []

def InputMessageContent.toValue : InputMessageContent → Json
  | .text t => .str t
  | .parts xs => .arr (xs.map InputContent.toValue)

def InputMessage.fields (message : InputMessage) : List (Text × Option Json) :=
  [("id", message.id.map .str), ("role", some (.str message.role)),
    ("status", message.status.map (Json.ofCase MessageStatus.names)), ("content", some message.content.toValue)]

def ToolOutputContent.toValue : ToolOutputContent → Json
  | .inputText text => taggedValue "input_text" [("text", some (.str text))]
  | .inputImage file_id image_url detail => taggedValue "input_image"
      [("file_id", file_id.map .str), ("image_url", image_url.map .str), ("detail", detail.map .str)]
  | .inputFile file_data file_id file_url filename detail => taggedValue "input_file"
      [("file_data", file_data.map .str), ("file_id", file_id.map .str), ("file_url", file_url.map .str),
        ("filename", filename.map .str), ("detail", detail.map .str)]

def ToolCallOutput.toValue : ToolCallOutput → Json
  | .text t => .str t
  | .content xs => .arr (xs.map ToolOutputContent.toValue)

def FunctionToolResultMessage.fields (output : FunctionToolResultMessage) : List (Text × Option Json) :=
  [("call_id", some (.str output.call_id)), ("output", some output.output.toValue)]

def CustomToolCallOutputMessage.fields (output : CustomToolCallOutputMessage) : List (Text × Option Json) :=
  [("call_id", some (.str output.call_id)), ("name", output.name.map .str), ("output", some output.output.toValue)]

def OutputTextContent.toValue (content : OutputTextContent) : Json :=
  structValue [("type", some (.str content.type_)), ("text", some (.str content.text)),
    ("annotations", some (.arr content.annotations))]

def OutputMessage.fields (message : OutputMessage) : List (Text × Option Json) :=
  [("id", some (.str message.id)), ("role", some (.str message.role)),
    ("status", some (Json.ofCase MessageStatus.names message.status)),
    ("content", some (.arr (message.content.map OutputTextContent.toValue)))]

def InputFunctionToolCall.fields (call : InputFunctionToolCall) : List (Text × Option Json) :=
  [("id", call.id.map .str), ("call_id", some (.str call.call_id)), ("name", some (.str call.name)),
    ("namespace", call.namespace.map .str), ("arguments", some (.str call.arguments)),
    ("status", call.status.map (Json.ofCase MessageStatus.names))]

def FunctionToolCall.fields (call : FunctionToolCall) : List (Text × Option Json) :=
  [("id", some (.str call.id)), ("call_id", some (.str call.call_id)), ("name", some (.str call.name)),
    ("namespace", call.namespace.map .str), ("arguments", some (.str call.arguments)),
    ("status", some (Json.ofCase MessageStatus.names call.status))]

def InputToolSearchCall.fields (call : InputToolSearchCall) : List (Text × Option Json) :=
  [("id", some (.str call.id)), ("call_id", some (.str call.call_id)),
    ("execution", some (Json.ofCase ToolSearchExecution.names call.execution)), ("arguments", some call.arguments),
    ("status", some (Json.ofCase ToolSearchStatus.names call.status))]

def ToolSearchCall.fields (call : ToolSearchCall) : List (Text × Option Json) :=
  [("id", some (.str call.id)), ("call_id", some (.str call.call_id)),
    ("execution", some (Json.ofCase ToolSearchExecution.names call.execution)), ("arguments", some call.arguments),
    ("status", some (Json.ofCase ToolSearchStatus.names call.status))]

def ToolSearchOutputMessage.fields (output : ToolSearchOutputMessage) : List (Text × Option Json) :=
  [("call_id", some (.str output.call_id)),
    ("execution", some (Json.ofCase ToolSearchExecution.names output.execution)),
    ("status", some (Json.ofCase ToolSearchStatus.names output.status)), ("tools", some (.arr output.tools))]

def CustomToolCall.fields (call : CustomToolCall) : List (Text × Option Json) :=
  [("id", some (.str call.id)), ("status", call.status.map (Json.ofCase MessageStatus.names)),
    ("call_id", some (.str call.call_id)), ("name", some (.str call.name)), ("input", some (.str call.input))]

def ShellCallAction.fields (action : ShellCallAction) : List (Text × Option Json) :=
  [("commands", some (.arr (action.commands.map .str))), ("timeout_ms", action.timeout_ms.map Json.ofNat),
    ("max_output_length", action.max_output_length.map Json.ofNat)]

def ShellCallAction.toValue (action : ShellCallAction) : Json := .obj (withExtra (present action.fields) action.extra)

def ShellCall.fields (call : ShellCall) : List (Text × Option Json) :=
  [("id", call.id.map .str), ("call_id", some (.str call.call_id)), ("action", some call.action.toValue),
    ("status", call.status.map (Json.ofCase ShellCallStatus.names))]

def ShellCallOutcome.toValue : ShellCallOutcome → Json
  | .exit exit_code => taggedValue "exit" [("exit_code", some (Json.ofInt exit_code))]
  | .timeout => taggedValue "timeout" []
  | .unknown => taggedValue "unknown" []

def ShellCallOutputContent.fields (content : ShellCallOutputContent) : List (Text × Option Json) :=
  [("stdout", some (.str content.stdout)), ("stderr", some (.str content.stderr)),
    ("outcome", some content.outcome.toValue)]

def ShellCallOutputContent.toValue (content : ShellCallOutputContent) : Json :=
  .obj (withExtra (present content.fields) content.extra)

def ShellCallOutputMessage.fields (output : ShellCallOutputMessage) : List (Text × Option Json) :=
  [("id", output.id.map .str), ("call_id", some (.str output.call_id)),
    ("max_output_length", output.max_output_length.map Json.ofNat),
    ("output", some (.arr (output.output.map ShellCallOutputContent.toValue))),
    ("status", output.status.map (Json.ofCase ShellCallStatus.names))]

def WebSearchSource.toValue (source : WebSearchSource) : Json :=
  structValue [("url", some (.str source.url)), ("title", source.title.map .str)]

def WebSearchAction.toValue : WebSearchAction → Json
  | .search query queries sources => taggedValue "search"
      [("query", some (.str query)), ("queries", some (.arr (queries.map .str))),
        ("sources", if sources.isEmpty then none else some (.arr (sources.map WebSearchSource.toValue)))]
  | .openPage url => taggedValue "open_page" [("url", url.map .str)]
  | .findInPage pattern url => taggedValue "find_in_page" [("pattern", some (.str pattern)), ("url", some (.str url))]

def WebSearchCall.fields (call : WebSearchCall) : List (Text × Option Json) :=
  [("id", some (.str call.id)), ("status", some (Json.ofCase GatewayCallStatus.names call.status)),
    ("action", some call.action.toValue)]

def McpToolExecutionErrorContent.toValue (content : McpToolExecutionErrorContent) : Json :=
  structValue [("type", some (.str content.type_)), ("text", some (.str content.text)),
    ("annotations", Json.orNull content.annotations), ("meta", Json.orNull content.meta)]

def McpCallError.toValue : McpCallError → Json
  | .text t => .str t
  | .toolExecution type_ content => structValue
      [("type", some (.str type_)), ("content", some (.arr (content.map McpToolExecutionErrorContent.toValue)))]
  | .unknown value => value

def McpCall.fields (call : McpCall) : List (Text × Option Json) :=
  [("id", some (.str call.id)), ("server_label", some (.str call.server_label)), ("name", some (.str call.name)),
    ("arguments", some (.str call.arguments)), ("status", call.status.map (Json.ofCase McpCallStatus.names)),
    ("approval_request_id", Json.orNull (call.approval_request_id.map .str)),
    ("output", Json.orNull (call.output.map .str)), ("error", Json.orNull (call.error.map McpCallError.toValue))]

def McpListTool.toValue (tool : McpListTool) : Json :=
  structValue [("name", some (.str tool.name)), ("description", tool.description.map .str),
    ("input_schema", some tool.input_schema), ("annotations", tool.annotations)]

def McpListTools.fields (list : McpListTools) : List (Text × Option Json) :=
  [("id", some (.str list.id)), ("server_label", some (.str list.server_label)),
    ("tools", some (.arr (list.tools.map McpListTool.toValue))), ("error", list.error.map .str)]

def ReasoningTextContent.toValue (content : ReasoningTextContent) : Json :=
  structValue [("type", some (.str content.type_)), ("text", some (.str content.text))]

def ReasoningOutput.fields (reasoning : ReasoningOutput) : List (Text × Option Json) :=
  [("id", some (.str reasoning.id)), ("content", some (.arr (reasoning.content.map ReasoningTextContent.toValue))),
    ("summary", some (.arr reasoning.summary)), ("encrypted_content", Json.orNull reasoning.encrypted_content),
    ("status", Json.orNull (reasoning.status.map .str))]

def CompactionItem.fields (item : CompactionItem) : List (Text × Option Json) :=
  [("id", item.id.map .str), ("encrypted_content", some (.str item.encrypted_content))]

/-- The fields an input item is written as. -/
def InputItem.toFields : InputItem → List (Text × Json)
  | .message m => taggedFields "message" m.fields []
  | .functionCall call => taggedFields "function_call" call.fields []
  | .functionCallOutput output => taggedFields "function_call_output" output.fields []
  | .toolSearchCall call => taggedFields "tool_search_call" call.fields []
  | .toolSearchOutput output => taggedFields "tool_search_output" output.fields []
  | .customToolCall call => taggedFields "custom_tool_call" call.fields []
  | .customToolCallOutput output => taggedFields "custom_tool_call_output" output.fields []
  | .shellCall call => taggedFields "shell_call" call.fields call.extra
  | .shellCallOutput output => taggedFields "shell_call_output" output.fields output.extra
  | .reasoning r => taggedFields "reasoning" r.fields []
  | .mcpListTools list => taggedFields "mcp_list_tools" list.fields []
  | .compaction item => taggedFields "compaction" item.fields []
  | .compactionTrigger => taggedFields "compaction_trigger" [] []
  | .unknown => taggedFields "Unknown" [] []

/-- The fields an output item is written as. -/
def OutputItem.toFields : OutputItem → List (Text × Json)
  | .message m => taggedFields "message" m.fields []
  | .functionCall call => taggedFields "function_call" call.fields []
  | .toolSearchCall call => taggedFields "tool_search_call" call.fields []
  | .customToolCall call => taggedFields "custom_tool_call" call.fields []
  | .shellCall call => taggedFields "shell_call" call.fields call.extra
  | .webSearchCall call => taggedFields "web_search_call" call.fields []
  | .mcpCall call => taggedFields "mcp_call" call.fields []
  | .mcpListTools list => taggedFields "mcp_list_tools" list.fields []
  | .reasoning r => taggedFields "reasoning" r.fields []
  | .compaction item => taggedFields "compaction" item.fields []
  | .unknown => taggedFields "Unknown" [] []

end AgenticStack
