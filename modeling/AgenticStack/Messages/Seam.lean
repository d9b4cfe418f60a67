import AgenticStack.Events.Normalize
import AgenticStack.Tool.Build

/-!
# Tool blocks of Messages

A tool call of an assistant turn is turned into the call the registry dispatches,
and what comes of it into the block of the next turn. The request is kept as it is
sent upstream; a round adds two messages to it.
-/

namespace AgenticStack.Messages
set_option autoImplicit false
open Library

/-- The name of the search as the gateway runs it. -/
def WEB_SEARCH_EXECUTOR : Text := "web_search"

/-- The names clients have for executors of the gateway. -/
structure GatewayToolMap where
  aliases : List (Text × Text)

namespace GatewayToolMap

/-- The name under which the gateway runs a tool, where it does. -/
def canonicalExecutor (map : GatewayToolMap) (name : Text) : Option Text :=
  if name = WEB_SEARCH_EXECUTOR then some WEB_SEARCH_EXECUTOR else map.aliases.lookup name

/-- Whether the gateway runs a tool. -/
def isGatewayOwned (map : GatewayToolMap) (name : Text) : Bool := (map.canonicalExecutor name).isSome

end GatewayToolMap

/-- The string under `key`, or the empty one. -/
def strField (v : Json) (key : Text) : Text := ((v.at_ key).asStr).getD []

/-- Whether the block is a tool use. -/
def isToolUse (block : Json) : Bool := decide ((block.at_ "type").asStr = some (utf8 "tool_use"))

/-- Whether the block is a tool use of the gateway. -/
def isGatewayToolUse (map : GatewayToolMap) (block : Json) : Bool := isToolUse block && map.isGatewayOwned (strField block "name")

/-- Whether the block is a tool use of the client. -/
def isClientToolUse (map : GatewayToolMap) (block : Json) : Bool := isToolUse block && !map.isGatewayOwned (strField block "name")

/-- The blocks without the tool uses of the gateway. -/
def stripGatewayToolUse (content : List Json) (map : GatewayToolMap) : List Json :=
  content.filter fun block => !isGatewayToolUse map block

/-- Whether a field of the value can be set by its key. -/
def takesFields : Json → Bool
  | .obj _ | .null => true
  | .bool _ | .num _ | .str _ | .arr _ => false

/-- `value[key] = v`: null becomes an object. On a value that takes no fields the program panics; nothing calls this
then (`stopsAt`). -/
def setField (value : Json) (key : Text) (v : Json) : Json :=
  match value with
  | .obj fields => .obj (insertField fields key v)
  | .null => .obj [(key, v)]
  | other => other

/-- `Map::remove`: the last field takes the place of the one that is removed. -/
def swapRemove (fields : List (Text × Json)) (key : Text) : Option (Json × List (Text × Json)) :=
  (fields.lookup key).map fun v => (v, match fields.getLast? with
    | none => []
    | some last =>
      if last.1 = key then fields.dropLast
      else fields.dropLast.map fun field => if field.1 = key then last else field)

/-- A field under another name, unless there is one of that name. -/
def renameField (fields : List (Text × Json)) (key renamed : Text) : List (Text × Json) :=
  match swapRemove fields key with
  | none => fields
  | some (v, rest) => if (rest.lookup renamed).isSome then rest else rest ++ [(renamed, v)]

/-- The input of a search, with the names of the domains as the gateway has them. -/
def adaptWebSearchInput : Json → Json
  | .obj fields => .obj (renameField (renameField fields "allowed_domains" "include_domains") "blocked_domains" "exclude_domains")
  | input => input

/-- A tool use as a call of the gateway. -/
def toolUseToCall (id name : Text) (input : Json) (map : GatewayToolMap) : FunctionToolCall :=
  let canonical := (map.canonicalExecutor name).getD name
  let adapted := if canonical = WEB_SEARCH_EXECUTOR ∧ name ≠ WEB_SEARCH_EXECUTOR then adaptWebSearchInput input else input
  ⟨id, id, canonical, none, adapted.write, .completed⟩

/-- The input of a streamed call, which has to be an object. -/
def parseToolInput (serde : SerdeJson) (input_json : Text) : Except Text (List (Text × Json)) :=
  match serde.fromStr input_json with
  | none => .error (utf8 "could not parse tool arguments as JSON: " ++ serde.errorText input_json)
  | some (.obj fields) => .ok fields
  | some _ => .error "tool arguments must be a JSON object"

/-- What came of a tool use. -/
structure GatewayToolResult where
  tool_use_id : Text
  content : Text
  is_error : Bool
deriving DecidableEq

/-- What came of a tool use, as a block. -/
def GatewayToolResult.json (result : GatewayToolResult) : Json :=
  .obj [("type", .str "tool_result"), ("tool_use_id", .str result.tool_use_id), ("content", .str result.content),
    ("is_error", .bool result.is_error)]

/-- The answer to a search beyond the bound. -/
def webSearchBudgetExhaustedResult (tool_use_id : Text) : GatewayToolResult :=
  ⟨tool_use_id, "web_search max_uses exceeded; search was not run", true⟩

/-- The tools of a request, and which calls run into the timeout, told by round, index and call. -/
structure MessagesTools where
  registry : ToolRegistry
  map : GatewayToolMap
  timesOut : Nat → Nat → FunctionToolCall → Bool

/-- The answer to a tool that nothing runs. -/
def noHandler (name : Text) : Text × Bool := (utf8 "no handler for tool '" ++ name ++ utf8 "'", true)

/-- `timeout(dispatch)`, and what is told of it to the model. `name` is the tool as the model called it. -/
def MessagesTools.dispatch (tools : MessagesTools) (round index : Nat) (name : Text) (call : FunctionToolCall) : Text × Bool :=
  match tools.registry.lookup call.name with
  | none => noHandler name
  | some entry => match entry.ownership with
    | .client | .gateway none => noHandler name
    | .gateway (some binding) =>
      if tools.timesOut round index call then (utf8 "gateway tool '" ++ name ++ utf8 "' timed out after 60s", true)
      else match binding.execute round index call.call_id call.name call.arguments with
        | .ok output => (output.output, false)
        | .error error => (utf8 "tool execution failed: " ++ Tools.toolErrorText error, true)

/-- The searches that may still run, when they are limited. -/
structure WebSearchBudget where
  remaining : Option Nat

/-- So many searches of those that are asked for may still be run. -/
def WebSearchBudget.reserve (self : WebSearchBudget) (requested : Nat) : Nat × WebSearchBudget :=
  match self.remaining with
  | some remaining => (min requested remaining, ⟨some (remaining - min requested remaining)⟩)
  | none => (requested, self)

/-- The request as it is sent upstream, which has messages. -/
structure MessagesRequestContext where
  raw : List (Text × Json)
  messages : List Json
  has_messages : raw.lookup (utf8 "messages") = some (.arr messages)
  web_search_budget : WebSearchBudget

namespace MessagesRequestContext

/-- The request as it is sent. -/
def upstreamBody (ctx : MessagesRequestContext) : Json := .obj ctx.raw

/-- The request with or without a stream. -/
def forceStream (ctx : MessagesRequestContext) (streaming : Bool) : MessagesRequestContext where
  raw := insertField ctx.raw "stream" (.bool streaming)
  messages := ctx.messages
  has_messages := by
    rw [lookup_insertField_ne (by decide)]
    exact ctx.has_messages
  web_search_budget := ctx.web_search_budget

/-- Searches are taken from the bound of the request. -/
def reserveSearches (ctx : MessagesRequestContext) (requested : Nat) : Nat × MessagesRequestContext :=
  let (allowed, web_search_budget) := ctx.web_search_budget.reserve requested
  (allowed, { ctx with web_search_budget })

/-- What a round adds to the messages. -/
def roundMessages (assistant_content : List Json) (tool_results : List GatewayToolResult) : List Json :=
  [.obj [("role", .str "assistant"), ("content", .arr assistant_content)],
    .obj [("role", .str "user"), ("content", .arr (tool_results.map GatewayToolResult.json))]]

/-- The error for a request without messages cannot be reached. -/
def appendRound (ctx : MessagesRequestContext) (assistant_content : List Json) (tool_results : List GatewayToolResult) :
    MessagesRequestContext where
  raw := insertField ctx.raw "messages" (.arr (ctx.messages ++ roundMessages assistant_content tool_results))
  messages := ctx.messages ++ roundMessages assistant_content tool_results
  has_messages := lookup_insertField_self
  web_search_budget := ctx.web_search_budget

end MessagesRequestContext

end AgenticStack.Messages
