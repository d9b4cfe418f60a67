import AgenticStack.Executor.Accumulator.ReadJson
import AgenticStack.Library.Once
import AgenticStack.Tool.SearchState
import AgenticStack.Types.Decode

/-!
# The search calls of a response

Upstream calls the search of tools as a function, or as an item of its own. A client
is shown the item. The body of a response that is not streamed is checked before it is
read: one search call at most, and no call of a function that is still withheld.
-/

namespace AgenticStack.ToolSearch
set_option autoImplicit false
open Library Tools

/-- `public_item_id`: under the prefix of search calls, which has its own domain of hashes. -/
def publicItemId (item_id : Text) : Text :=
  if ((stripPrefix "tsc_" item_id).filter (· ≠ [])).isSome then item_id
  else match (stripPrefix "fc_" item_id).filter (· ≠ []) with
    | some suffix => utf8 "tsc_" ++ suffix
    | none => utf8 "tsc_" ++ hex16 (stableNameHash (utf8 "tool_search_item:" ++ item_id))

def jsonValue (serde : SerdeJson) (arguments : Text) : Except ToolError Json :=
  match serde.fromStr arguments with
  | some value => .ok value
  | none => .error .invalidUpstreamToolSearch

/-- The public call that stands for an opened call of the search function. -/
def startedPublicCall (call : FunctionToolCall) : Except ToolError ToolSearchCall :=
  if isBlank call.id ∨ isBlank call.call_id ∨ call.name ≠ TOOL_SEARCH_NAME ∨ call.namespace.isSome then
    .error .invalidUpstreamToolSearch
  else .ok ⟨publicItemId call.id, call.call_id, .client, .obj [], .inProgress⟩

/-- The public call that stands for a finished one, its arguments read. -/
def completedPublicCall (serde : SerdeJson) (call : FunctionToolCall) : Except ToolError ToolSearchCall := do
  if call.status ≠ .completed then throw .invalidUpstreamToolSearch
  let started ← startedPublicCall call
  let arguments ← jsonValue serde call.arguments
  return { started with arguments, status := .completed }

/-- A call that is not finished: an incomplete response shows it, a failed one drops it. -/
def projectUnfinished (call : Except ToolError ToolSearchCall) : ResponseStatus → Except ToolError (Option ToolSearchCall)
  | .incomplete => call.map fun call => some { call with status := .incomplete }
  | .error => .ok none
  | .inProgress | .completed => .error .invalidUpstreamToolSearch

def projectSyntheticCall (serde : SerdeJson) (call : FunctionToolCall) (response_status : ResponseStatus)
    (unfinished_stream_call : Bool) : Except ToolError (Option ToolSearchCall) :=
  if unfinished_stream_call = false ∧ call.status = .completed then (completedPublicCall serde call).map some
  else projectUnfinished (startedPublicCall call) response_status

def projectNativeCall (call : ToolSearchCall) (response_status : ResponseStatus) : Except ToolError (Option ToolSearchCall) :=
  if call.status = .completed then .ok (some call) else projectUnfinished (.ok call) response_status

structure StrictFunctionToolCall where
  id : Text
  call_id : Text
  name : Text
  «namespace» : Option Json
  arguments : Text
  status : MessageStatus

def StrictFunctionToolCall.order : FieldOrder :=
  [("id", false), ("call_id", false), ("name", false), ("namespace", true), ("arguments", false), ("status", false)]

def StrictFunctionToolCall.ofFields (fields : List (Text × Json)) : Option StrictFunctionToolCall := do
  let id ← requiredOf fields "id" Json.asStr
  let call_id ← requiredOf fields "call_id" Json.asStr
  let name ← requiredOf fields "name" Json.asStr
  let namespace_ ← optionField fields "namespace" Json.asValue
  let arguments ← requiredOf fields "arguments" Json.asStr
  let status ← requiredOf fields "status" (Json.asCase MessageStatus.names)
  return ⟨id, call_id, name, namespace_, arguments, status⟩

/-- The call that an item of the body is, by the strict reader. -/
def strictFunctionCall (serde : SerdeJson) (item : Json) : Except ToolError FunctionToolCall :=
  match (Json.asStruct StrictFunctionToolCall.order item).bind StrictFunctionToolCall.ofFields with
  | none => .error .invalidUpstreamToolSearch
  | some call => do
    if call.namespace.isSome then throw .invalidUpstreamToolSearch
    let call : FunctionToolCall := ⟨call.id, call.call_id, call.name, none, call.arguments, call.status⟩
    let _ ← startedPublicCall call
    if call.status = .completed then
      let _ ← jsonValue serde call.arguments
    return call

def strictStartedFunction (serde : SerdeJson) (item : Json) : Except ToolError FunctionToolCall := do
  let call ← strictFunctionCall serde item
  if call.status ≠ .inProgress ∨ call.arguments ≠ [] then throw .invalidUpstreamToolSearch
  return call

def strictNativeCall (item : Json) : Except ToolError ToolSearchCall :=
  match item.get "namespace" with
  | none | some .null =>
    match (Json.asStruct ToolSearchCall.order item).bind ToolSearchCall.ofFields with
    | some call => .ok call
    | none => .error .invalidUpstreamToolSearch
  | some _ => .error .invalidUpstreamToolSearch

/-- `item.get("type")`, as a text. -/
def itemType (item : Json) : Option Text := (item.get "type").bind Json.asStr

def itemName (item : Json) : Option Text := (item.get "name").bind Json.asStr

def ensureFunctionIsAvailable (is_withheld : Bool) : Except ToolError Unit :=
  if is_withheld then .error .upstreamWithheldFunctionCall else .ok ()

def mightContainToolSearchWire (wire : Text) : Bool := decide (TOOL_SEARCH_NAME <:+: wire)

/-- The status of a body, which is complete if it does not say. -/
def blockingStatus (value : Json) : ResponseStatus :=
  ((value.get "status").bind Json.asStr).elim .completed ResponseStatus.parse

section
variable (serde : SerdeJson) (tool_search_enabled : Bool) (withheld_function_names : Finset Text)

/-- A function that is withheld is not called. -/
def blockingGuard (item : Json) : Except ToolError Unit :=
  ensureFunctionIsAvailable
    (itemType item = utf8 "function_call" && (itemName item).any fun name => name ∈ withheld_function_names)

def isBlockingSearch (item : Json) : Bool :=
  itemType item = utf8 "tool_search_call" ||
    (itemType item = utf8 "function_call" && tool_search_enabled && itemName item = TOOL_SEARCH_NAME)

/-- A search call is read, and is finished unless the response is not. -/
def readBlockingSearch (allow_unfinished : Bool) (item : Json) : Except ToolError (Option Unit) :=
  if itemType item = utf8 "tool_search_call" then do
    let call ← strictNativeCall item
    if allow_unfinished = false ∧ call.status ≠ .completed then throw .invalidUpstreamToolSearch
    return none
  else if isBlockingSearch tool_search_enabled item then do
    let call ← strictFunctionCall serde item
    if allow_unfinished = false ∧ call.status ≠ .completed then throw .invalidUpstreamToolSearch
    return none
  else .ok none

/-- Nothing to check: no search, nothing withheld, and the body does not speak of searches. -/
def skipsBody (body : Text) : Bool :=
  !tool_search_enabled && decide (withheld_function_names = ∅) && !mightContainToolSearchWire body

def allowsUnfinished : ResponseStatus → Bool
  | .error | .incomplete => true
  | .inProgress | .completed => false

/-- Reads the output items in order and stops at the first that breaks a rule. -/
def validateBlockingItems (status : ResponseStatus) (output : List Json) : Except ToolError Unit :=
  (scanOnce (blockingGuard withheld_function_names) (isBlockingSearch tool_search_enabled) .invalidUpstreamToolSearch
    (readBlockingSearch serde tool_search_enabled (allowsUnfinished status)) false output).map fun _ => ()

def validateBlockingResponse (body : Text) : Except ToolError Unit :=
  if skipsBody tool_search_enabled withheld_function_names body then .ok ()
  else match serde.fromStr body with
    | none => .ok ()
    | some value => validateBlockingItems serde tool_search_enabled withheld_function_names (blockingStatus value)
        (((value.get "output").bind Json.asArray).getD [])

end

example : publicItemId "fc_item" = utf8 "tsc_item" := by decide

end AgenticStack.ToolSearch
