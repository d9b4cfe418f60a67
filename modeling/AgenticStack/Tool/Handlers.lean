import AgenticStack.Tool.Executors
import AgenticStack.Types.Serde

/-!
# The handlers of the gateway's tools

What the handlers of MCP tools and of web searches show of a call, before and
after it is executed. What the servers answer is a parameter.
-/

namespace AgenticStack.Tools
set_option autoImplicit false
open Library

/-- The part of the item's or the call's id behind its prefix. -/
def callOutputSuffix (call : FunctionToolCall) : Option Text :=
  ((stripPrefix "fc_" call.id).filter (· ≠ [])).or ((stripPrefix "call_" call.call_id).filter (· ≠ []))

namespace McpHandler

def callOutputId (call : FunctionToolCall) : Text :=
  match callOutputSuffix call with
  | some suffix => utf8 "mcp_" ++ suffix
  | none => utf8 "mcp_" ++ AgenticStack.hex16 (AgenticStack.stableNameHash (call.id ++ 0 :: call.call_id))

/-- The text of a failed call: the `error` of its output, else all of it. -/
def errorTextFromOutput (serde : SerdeJson) (output : Text) : Text :=
  (((serde.fromStr output).bind fun value => (value.get "error").bind Json.asStr).filter fun error => Engine.trim error ≠ []).getD
    output

def toolExecutionError (text : Text) : McpCallError := .toolExecution "mcp_tool_execution_error" [⟨"text", text, none, none⟩]

def callStatus : GatewayCallStatus → McpCallStatus
  | .inProgress => .inProgress
  | .completed => .completed
  | .failed => .failed

def outputItem (serde : SerdeJson) (call : FunctionToolCall) (output : ToolOutput) (status : GatewayCallStatus)
    (server_label tool_name : Text) : OutputItem := .mcpCall
  { id := callOutputId call, server_label, name := tool_name, arguments := call.arguments
    status := some (callStatus status)
    approval_request_id := none
    output := if status = .completed then some output.output else none
    error := if status = .failed then some (toolExecutionError (errorTextFromOutput serde output.output)) else none }

def startedOutputItem (call : FunctionToolCall) (server_label tool_name : Text) : OutputItem := .mcpCall
  { id := callOutputId call, server_label, name := tool_name, arguments := [], status := some .inProgress
    approval_request_id := none, output := none, error := none }

/-- A tool of a server; `callTool` is what the server answers, asked in a round for the item at an index. -/
def binding (serde : SerdeJson) (callTool : Nat → Nat → Text → Except ToolError Text) (params : McpDiscoveredToolParam) :
    GatewayBinding where
  execute round item_index call_id _ arguments := (callTool round item_index arguments).map fun output => ⟨call_id, output⟩
  answers_call round item_index call_id tool_name arguments output answered := by
    cases called : callTool round item_index arguments with
    | error error =>
      rw [called] at answered
      cases answered
    | ok text =>
      rw [called] at answered
      cases answered
      rfl
  startedOutput call := some (startedOutputItem call params.server_label params.tool_name)
  publicOutput call output status := some (outputItem serde call output status params.server_label params.tool_name)

end McpHandler

namespace WebSearchHandler

/-- `call_output_id`, where `uuid7` is the id drawn for a call that has none. -/
def callOutputId (uuid7 : FunctionToolCall → Text) (call : FunctionToolCall) : Text :=
  match callOutputSuffix call with
  | some suffix => utf8 "ws_" ++ suffix
  | none => uuid7 call

/-- A string value, trimmed and not empty. -/
def cleanJsonStr (value : Option Json) : Option Text :=
  ((value.bind Json.asStr).map Engine.trim).filter (· ≠ [])

def jsonItems : Json → Option (List Json)
  | .arr items => some items
  | _ => none

/-- The queries that a search names, its blank ones left out. -/
def queriesFromValue (value : Json) : Option (List Text) :=
  (((value.get "queries").bind jsonItems).map fun items => items.filterMap fun item => cleanJsonStr (some item)).filter (· ≠ [])

def queriesFromArguments (serde : SerdeJson) (arguments : Text) : Option (List Text) :=
  (serde.fromStr arguments).bind fun args =>
    (queriesFromValue args).or ((cleanJsonStr (args.get "query")).map fun query => [query])

def sourceFromResult (result : Json) : Option WebSearchSource :=
  (cleanJsonStr (result.get "url")).map fun url => ⟨url, cleanJsonStr (result.get "title")⟩

/-- The web and news sources of a search result. -/
def sourcesFromOutput (output : Json) : List WebSearchSource :=
  [utf8 "web", utf8 "news"].flatMap fun part =>
    (((((output.get "results").bind fun results => results.get part).bind jsonItems).getD []).filterMap sourceFromResult)

/-- `WebSearchCall::try_new`. -/
def tryNew (id : Text) (status : GatewayCallStatus) (queries : List Text) (sources : List WebSearchSource) : Option WebSearchCall :=
  queries.head?.map fun query => ⟨id, status, .search query queries sources⟩

def outputItem (serde : SerdeJson) (uuid7 : FunctionToolCall → Text) (call : FunctionToolCall) (output : ToolOutput)
    (status : GatewayCallStatus) : Option OutputItem :=
  let parsed_output := serde.fromStr output.output
  let queries := ((parsed_output.bind queriesFromValue).or (queriesFromArguments serde call.arguments)).getD [[]]
  let sources := (parsed_output.map sourcesFromOutput).getD []
  (tryNew (callOutputId uuid7 call) status queries sources).map .webSearchCall

def startedOutputItem (serde : SerdeJson) (uuid7 : FunctionToolCall → Text) (call : FunctionToolCall) : Option OutputItem :=
  (tryNew (callOutputId uuid7 call) .inProgress ((queriesFromArguments serde call.arguments).getD [[]]) []).map .webSearchCall

/-- The search, under the name it has; `search` is what the provider answers. -/
def binding (serde : SerdeJson) (uuid7 : FunctionToolCall → Text) (search : Nat → Nat → Text → Except ToolError Text) :
    GatewayBinding where
  execute round item_index call_id tool_name arguments :=
    if tool_name ≠ utf8 "web_search" then
      .error (.config (utf8 "web_search handler cannot execute tool '" ++ tool_name ++ utf8 "'"))
    else (search round item_index arguments).map fun output => ⟨call_id, output⟩
  answers_call round item_index call_id tool_name arguments output answered := by
    split at answered
    · cases answered
    · cases searched : search round item_index arguments with
      | error error =>
        rw [searched] at answered
        cases answered
      | ok text =>
        rw [searched] at answered
        cases answered
        rfl
  startedOutput := startedOutputItem serde uuid7
  publicOutput := outputItem serde uuid7

end WebSearchHandler

/-- A handler of the gateway's: of an MCP tool or of the web search. -/
inductive Handles : GatewayBinding → Prop where
  | mcp (serde : SerdeJson) (callTool : Nat → Nat → Text → Except ToolError Text) (params : McpDiscoveredToolParam) :
      Handles (McpHandler.binding serde callTool params)
  | webSearch (serde : SerdeJson) (uuid7 : FunctionToolCall → Text) (search : Nat → Nat → Text → Except ToolError Text) :
      Handles (WebSearchHandler.binding serde uuid7 search)

/-- A registry whose tools have these handlers. -/
def Handled (registry : ToolRegistry) : Prop :=
  ∀ name entry binding, registry.lookup name = some entry → entry.ownership = .gateway (some binding) → Handles binding

/-- An item that stands for a call the gateway executed. -/
def ShowsExecution : OutputItem → Prop
  | .mcpCall _ | .webSearchCall _ => True
  | _ => False

section
variable {binding : GatewayBinding} {call : FunctionToolCall} {output : ToolOutput} {status : GatewayCallStatus} {item : OutputItem}

/-- **A handler shows its calls as MCP calls or web searches**, before and after it executes them. -/
theorem Handles.shows (handles : Handles binding) : (binding.startedOutput call = some item → ShowsExecution item) ∧
    (binding.publicOutput call output status = some item → ShowsExecution item) := by
  cases handles with
  | mcp serde callTool params =>
    refine ⟨?_, ?_⟩
    · rintro ⟨⟩
      trivial
    · rintro ⟨⟩
      trivial
  | webSearch serde uuid7 search =>
    refine ⟨?_, ?_⟩
    · intro shown
      obtain ⟨found, -, rfl⟩ := Option.map_eq_some_iff.1 shown
      trivial
    · intro shown
      obtain ⟨found, -, rfl⟩ := Option.map_eq_some_iff.1 shown
      trivial

end

end AgenticStack.Tools
