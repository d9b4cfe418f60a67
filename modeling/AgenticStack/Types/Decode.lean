import AgenticStack.Events.Normalize
import AgenticStack.Tool.Client

/-!
# The derived readers

A struct is read from an object by the names of its fields, or from an array by
their order, an enumeration from the name of its case. Fields that a struct does
not know are passed over, or kept where it says so; a struct that keeps them is an
object.
-/

namespace AgenticStack
set_option autoImplicit false
open Library

section
variable {α : Type} (fields : List (Text × Json)) (key : Text) (read : Json → Option α)

def requiredOf : Option α := (fields.lookup key).bind read

/-- A field with a default. -/
def defaultOf (default : α) : Option α :=
  match fields.lookup key with
  | none => some default
  | some v => read v

/-- A field with a default that may also be null. -/
def nullableOf (default : α) : Option α := (optionField fields key read).map fun v => v.getD default

end

/-- The fields of a struct in their order, each with whether it has a default. -/
abbrev FieldOrder := List (Text × Bool)

/-- The fields of a struct: those of an object, or the items of an array in the struct's order, where only fields with a
default may be missing at the end. -/
def Json.asStruct (order : FieldOrder) : Json → Option (List (Text × Json))
  | .obj fields => some fields
  | .arr items =>
    if items.length ≤ order.length ∧ (order.drop items.length).all Prod.snd then some ((order.map Prod.fst).zip items) else none
  | _ => none

/-- The tag of a value and what is beside it: the `type` of an object, or the first item of an array. -/
def readTag : Json → Option (Text × Json)
  | .obj fields => do
    let type ← requiredOf fields "type" Json.asStr
    return (type, .obj (fields.filter fun field => field.1 != utf8 "type"))
  | .arr (.str type :: items) => some (type, .arr items)
  | _ => none

def Json.asValue : Json → Option Json := some

/-- An array whose items are all read by `read`. -/
def Json.asList {α : Type} (read : Json → Option α) (v : Json) : Option (List α) :=
  v.asArray.bind fun items => items.mapM read

/-- A text that is not blank. -/
def Json.asNonBlank (v : Json) : Option Text := v.asStr.filter fun s => !isBlank s

/-- The case of an enumeration that has a name: the name itself, or an object with the name as its only key and null. -/
def Json.asCase {α : Type} (names : List (Text × α)) : Json → Option α
  | .str name => names.lookup name
  | .obj [(name, .null)] => names.lookup name
  | _ => none

/-- An integer of 64 bits with a sign. -/
def Json.asI64 : Json → Option Int
  | .num (.posInt n) => if n < 2 ^ 63 then some n else none
  | .num (.negInt n) => if n ≤ 2 ^ 63 then some (-n) else none
  | _ => none

def MessageStatus.names : List (Text × MessageStatus) := [("in_progress", .inProgress), ("completed", .completed)]

def ShellCallStatus.names : List (Text × ShellCallStatus) :=
  [("in_progress", .inProgress), ("completed", .completed), ("incomplete", .incomplete)]

def ToolSearchStatus.names : List (Text × ToolSearchStatus) :=
  [("in_progress", .inProgress), ("completed", .completed), ("incomplete", .incomplete)]

def ToolSearchExecution.names : List (Text × ToolSearchExecution) := [("client", .client)]

def GatewayCallStatus.names : List (Text × GatewayCallStatus) :=
  [("in_progress", .inProgress), ("completed", .completed), ("failed", .failed)]

def McpCallStatus.names : List (Text × McpCallStatus) :=
  [("in_progress", .inProgress), ("calling", .calling), ("completed", .completed), ("incomplete", .incomplete),
    ("failed", .failed)]

def OutputTextContent.order : FieldOrder := [("type", false), ("text", false), ("annotations", true)]

def OutputTextContent.ofJson (v : Json) : Option OutputTextContent := do
  let fields ← Json.asStruct order v
  let type_ ← requiredOf fields "type" Json.asStr
  let text ← requiredOf fields "text" Json.asStr
  let annotations ← defaultOf fields "annotations" Json.asArray []
  return ⟨type_, text, annotations⟩

def OutputMessage.order : FieldOrder := [("id", false), ("role", false), ("status", false), ("content", true)]

def OutputMessage.ofFields (fields : List (Text × Json)) : Option OutputMessage := do
  let id ← requiredOf fields "id" Json.asStr
  let role ← requiredOf fields "role" Json.asStr
  let status ← requiredOf fields "status" (Json.asCase MessageStatus.names)
  let content ← defaultOf fields "content" (Json.asList OutputTextContent.ofJson) []
  return ⟨id, role, status, content⟩

def FunctionToolCall.order : FieldOrder :=
  [("id", true), ("call_id", true), ("name", true), ("namespace", true), ("arguments", true), ("status", true)]

def FunctionToolCall.ofFields (newId : NewId) (fields : List (Text × Json)) : Option FunctionToolCall := do
  let id ← optionField fields "id" Json.asStr
  let call_id ← defaultOf fields "call_id" Json.asStr []
  let name ← defaultOf fields "name" Json.asStr []
  let namespace_ ← optionField fields "namespace" Json.asStr
  let arguments ← defaultOf fields "arguments" Json.asStr []
  let status ← nullableOf fields "status" (Json.asCase MessageStatus.names) .completed
  return ⟨(id.filter (· ≠ [])).getD (newId "fc_"), call_id, name, namespace_, arguments, status⟩

def ToolSearchCall.order : FieldOrder :=
  [("id", false), ("call_id", false), ("execution", false), ("arguments", false), ("status", false)]

def ToolSearchCall.ofFields (fields : List (Text × Json)) : Option ToolSearchCall := do
  let id ← requiredOf fields "id" Json.asNonBlank
  let call_id ← requiredOf fields "call_id" Json.asNonBlank
  let execution ← requiredOf fields "execution" (Json.asCase ToolSearchExecution.names)
  let arguments ← requiredOf fields "arguments" Json.asValue
  let status ← requiredOf fields "status" (Json.asCase ToolSearchStatus.names)
  return ⟨id, call_id, execution, arguments, status⟩

def CustomToolCall.order : FieldOrder :=
  [("id", true), ("status", true), ("call_id", true), ("name", true), ("input", true)]

def CustomToolCall.ofFields (fields : List (Text × Json)) : Option CustomToolCall := do
  let id ← defaultOf fields "id" Json.asStr []
  let status ← optionField fields "status" (Json.asCase MessageStatus.names)
  let call_id ← defaultOf fields "call_id" Json.asStr []
  let name ← defaultOf fields "name" Json.asStr []
  let input ← defaultOf fields "input" Json.asStr []
  return ⟨id, status, call_id, name, input⟩

def ShellCall.ofFields (fields : List (Text × Json)) : Option ShellCall := do
  let id ← optionField fields "id" Json.asStr
  let call_id ← requiredOf fields "call_id" Json.asStr
  let action ← requiredOf fields "action" fun v => v.asObject.bind ShellCallAction.ofFields
  let status ← optionField fields "status" (Json.asCase ShellCallStatus.names)
  let known : List Text := ["id", "call_id", "action", "status"]
  return ⟨id, call_id, action, status, fields.filter fun field => !known.contains field.1⟩

def WebSearchSource.ofJson (v : Json) : Option WebSearchSource := do
  let fields ← Json.asStruct [("url", false), ("title", false)] v
  let url ← requiredOf fields "url" Json.asStr
  let title ← optionField fields "title" Json.asStr
  return ⟨url, title⟩

def WebSearchAction.ofJson (v : Json) : Option WebSearchAction := do
  let (type, rest) ← readTag v
  if type = "search" then
    let fields ← Json.asStruct [("query", false), ("queries", true), ("sources", true)] rest
    let query ← requiredOf fields "query" Json.asStr
    let queries ← defaultOf fields "queries" (Json.asList Json.asStr) []
    let sources ← defaultOf fields "sources" (Json.asList WebSearchSource.ofJson) []
    return .search query queries sources
  else if type = "open_page" then
    let fields ← Json.asStruct [("url", true)] rest
    let url ← optionField fields "url" Json.asStr
    return .openPage url
  else if type = "find_in_page" then
    let fields ← Json.asStruct [("pattern", false), ("url", false)] rest
    let pattern ← requiredOf fields "pattern" Json.asStr
    let url ← requiredOf fields "url" Json.asStr
    return .findInPage pattern url
  else none

def WebSearchCall.order : FieldOrder := [("id", false), ("status", false), ("action", false)]

def WebSearchCall.ofFields (fields : List (Text × Json)) : Option WebSearchCall := do
  let id ← requiredOf fields "id" Json.asStr
  let status ← requiredOf fields "status" (Json.asCase GatewayCallStatus.names)
  let action ← requiredOf fields "action" WebSearchAction.ofJson
  return ⟨id, status, action⟩

def McpToolExecutionErrorContent.ofJson (v : Json) : Option McpToolExecutionErrorContent := do
  let fields ← Json.asStruct [("type", false), ("text", false), ("annotations", false), ("meta", false)] v
  let type_ ← requiredOf fields "type" Json.asStr
  let text ← requiredOf fields "text" Json.asStr
  let annotations ← optionField fields "annotations" Json.asValue
  let meta_ ← optionField fields "meta" Json.asValue
  return ⟨type_, text, annotations, meta_⟩

def McpCallError.ofToolExecution (v : Json) : Option McpCallError := do
  let fields ← Json.asStruct [("type", false), ("content", false)] v
  let type_ ← requiredOf fields "type" Json.asStr
  let content ← requiredOf fields "content" (Json.asList McpToolExecutionErrorContent.ofJson)
  return .toolExecution type_ content

/-- The first form that fits; any value does in the end. -/
def McpCallError.ofJson (v : Json) : Option McpCallError :=
  match v with
  | .str message => some (.text message)
  | v => some ((McpCallError.ofToolExecution v).getD (.unknown v))

def McpCall.order : FieldOrder :=
  [("id", false), ("server_label", false), ("name", false), ("arguments", false), ("status", true),
    ("approval_request_id", false), ("output", false), ("error", false)]

def McpCall.ofFields (fields : List (Text × Json)) : Option McpCall := do
  let id ← requiredOf fields "id" Json.asStr
  let server_label ← requiredOf fields "server_label" Json.asStr
  let name ← requiredOf fields "name" Json.asStr
  let arguments ← requiredOf fields "arguments" Json.asStr
  let status ← optionField fields "status" (Json.asCase McpCallStatus.names)
  let approval_request_id ← optionField fields "approval_request_id" Json.asStr
  let output ← optionField fields "output" Json.asStr
  let error ← optionField fields "error" McpCallError.ofJson
  return ⟨id, server_label, name, arguments, status, approval_request_id, output, error⟩

def McpListTool.ofJson (v : Json) : Option McpListTool := do
  let fields ← Json.asStruct [("name", false), ("description", true), ("input_schema", false), ("annotations", true)] v
  let name ← requiredOf fields "name" Json.asStr
  let description ← optionField fields "description" Json.asStr
  let input_schema ← requiredOf fields "input_schema" Json.asValue
  let annotations ← optionField fields "annotations" Json.asValue
  return ⟨name, description, input_schema, annotations⟩

def McpListTools.order : FieldOrder := [("id", false), ("server_label", false), ("tools", false), ("error", true)]

def McpListTools.ofFields (fields : List (Text × Json)) : Option McpListTools := do
  let id ← requiredOf fields "id" Json.asStr
  let server_label ← requiredOf fields "server_label" Json.asStr
  let tools ← requiredOf fields "tools" (Json.asList McpListTool.ofJson)
  let error ← optionField fields "error" Json.asStr
  return ⟨id, server_label, tools, error⟩

def ReasoningTextContent.ofJson (v : Json) : Option ReasoningTextContent := do
  let fields ← Json.asStruct [("type", false), ("text", false)] v
  let type_ ← requiredOf fields "type" Json.asStr
  let text ← requiredOf fields "text" Json.asStr
  return ⟨type_, text⟩

def ReasoningOutput.order : FieldOrder :=
  [("id", true), ("content", true), ("summary", true), ("encrypted_content", false), ("status", false)]

def ReasoningOutput.ofFields (fields : List (Text × Json)) : Option ReasoningOutput := do
  let id ← defaultOf fields "id" Json.asStr []
  let content ← nullableOf fields "content" (Json.asList ReasoningTextContent.ofJson) []
  let summary ← nullableOf fields "summary" Json.asArray []
  let encrypted_content ← optionField fields "encrypted_content" Json.asValue
  let status ← optionField fields "status" Json.asStr
  return ⟨id, content, summary, encrypted_content, status⟩

def CompactionItem.order : FieldOrder := [("id", true), ("encrypted_content", false)]

def CompactionItem.ofFields (fields : List (Text × Json)) : Option CompactionItem := do
  let id ← optionField fields "id" Json.asStr
  let encrypted_content ← requiredOf fields "encrypted_content" Json.asStr
  return ⟨id, encrypted_content⟩

/-- An item from the fields beside its `type`; an unknown type is an unknown item. -/
def OutputItem.ofFields (newId : NewId) (type : Text) (fields : List (Text × Json)) : Option OutputItem :=
  match SSEItemType.parse type with
  | some .message => (OutputMessage.ofFields fields).map .message
  | some .functionCall => (FunctionToolCall.ofFields newId fields).map .functionCall
  | some .toolSearchCall => (ToolSearchCall.ofFields fields).map .toolSearchCall
  | some .customToolCall => (CustomToolCall.ofFields fields).map .customToolCall
  | some .shellCall => (ShellCall.ofFields fields).map .shellCall
  | some .webSearchCall => (WebSearchCall.ofFields fields).map .webSearchCall
  | some .mcpCall => (McpCall.ofFields fields).map .mcpCall
  | some .mcpListTools => (McpListTools.ofFields fields).map .mcpListTools
  | some .reasoning => (ReasoningOutput.ofFields fields).map .reasoning
  | some .compaction => (CompactionItem.ofFields fields).map .compaction
  | none => some .unknown

/-- The order of an item's fields, where its kind can be read from an array. -/
def SSEItemType.order : SSEItemType → Option FieldOrder
  | .message => some OutputMessage.order
  | .functionCall => some FunctionToolCall.order
  | .toolSearchCall => some ToolSearchCall.order
  | .customToolCall => some CustomToolCall.order
  | .shellCall => none
  | .webSearchCall => some WebSearchCall.order
  | .mcpCall => some McpCall.order
  | .mcpListTools => some McpListTools.order
  | .reasoning => some ReasoningOutput.order
  | .compaction => some CompactionItem.order

/-- An item from what is beside its `type`. -/
def OutputItem.ofContent (newId : NewId) (type : Text) : Json → Option OutputItem
  | .obj fields => OutputItem.ofFields newId type fields
  | content => match SSEItemType.parse type with
    | none => some .unknown
    | some kind => (kind.order.bind fun order => Json.asStruct order content).bind (OutputItem.ofFields newId type)

def OutputItem.ofJson (newId : NewId) (v : Json) : Option OutputItem := do
  let (type, content) ← readTag v
  OutputItem.ofContent newId type content

/-- An object is read as an item by its type and the fields beside it. -/
theorem OutputItem.ofJson_obj {newId : NewId} {fields : List (Text × Json)} : OutputItem.ofJson newId (.obj fields) =
    (requiredOf fields "type" Json.asStr).bind fun type =>
      OutputItem.ofFields newId type (fields.filter fun field => field.1 != utf8 "type") := by
  cases tag : requiredOf fields "type" Json.asStr <;> simp [OutputItem.ofJson, readTag, OutputItem.ofContent, tag]

/-- The one number of a details object. -/
def readDetails (key : Text) (v : Json) : Option Int :=
  (Json.asStruct [(key, false)] v).bind fun fields => requiredOf fields key Json.asI64

def ResponseUsage.order : FieldOrder :=
  [("input_tokens", true), ("output_tokens", true), ("total_tokens", true), ("input_tokens_details", true),
    ("output_tokens_details", true)]

def ResponseUsage.ofJson (v : Json) : Option ResponseUsage := do
  let fields ← Json.asStruct order v
  let input_tokens ← defaultOf fields "input_tokens" Json.asI64 0
  let output_tokens ← defaultOf fields "output_tokens" Json.asI64 0
  let total_tokens ← defaultOf fields "total_tokens" Json.asI64 0
  let cached_tokens ← defaultOf fields "input_tokens_details" (readDetails "cached_tokens") 0
  let reasoning_tokens ← defaultOf fields "output_tokens_details" (readDetails "reasoning_tokens") 0
  return ⟨input_tokens, output_tokens, total_tokens, cached_tokens, reasoning_tokens⟩

def IncompleteDetails.ofJson (v : Json) : Option IncompleteDetails := do
  let fields ← Json.asStruct [("reason", false)] v
  let reason ← optionField fields "reason" Json.asStr
  return ⟨reason⟩

/-- The readers as they are derived. The text of an error and the comparison of written items are given. -/
def ItemSerde.derived (errorText : Json → Text) (sameValue : OutputItem → OutputItem → Bool) : ItemSerde where
  item newId v := match OutputItem.ofJson newId v with
    | some item => .ok item
    | none => .error (errorText v)
  functionCall newId v := (Json.asStruct FunctionToolCall.order v).bind (FunctionToolCall.ofFields newId)
  toolSearchCall v := (Json.asStruct ToolSearchCall.order v).bind ToolSearchCall.ofFields
  customToolCall v := (Json.asStruct CustomToolCall.order v).bind CustomToolCall.ofFields
  mcpCall v := (Json.asStruct McpCall.order v).bind McpCall.ofFields
  mcpListTools v := (Json.asStruct McpListTools.order v).bind McpListTools.ofFields
  compaction v := (Json.asStruct CompactionItem.order v).bind CompactionItem.ofFields
  usage := ResponseUsage.ofJson
  incompleteDetails := IncompleteDetails.ofJson
  sameValue := sameValue

end AgenticStack
