import AgenticStack.Tool.Registry
import AgenticStack.Executor.Engine

/-!
# Declared tools

The tools a request declares, each with what is read of it, and the function
tools they are lowered to for the model. The members of a namespace are lowered
under the names they have by then.
-/

namespace AgenticStack.Tools
set_option autoImplicit false
open Library

structure NonEmptyToolName where
  text : Text
  nonEmpty : text ≠ []
deriving DecidableEq

/-- A function as the model is told of it. -/
structure FunctionTool where
  name : Text
  description : Option Text
  parameters : Option Json
  strict : Option Bool

structure FunctionToolParam where
  name : NonEmptyToolName
  description : Option Text
  parameters : Option Json
  strict : Option Bool
  defer_loading : Option Bool
  extra : List (Text × Json)

structure CustomToolParam where
  name : NonEmptyToolName
  description : Option Text
  format : Option Json
  defer_loading : Option Bool
  extra : List (Text × Json)

structure ToolSearchToolParam where
  description : Option Text
  parameters : Option Json

/-- A tool as an MCP server lists it. -/
structure McpTool where
  name : Text
  description : Option Text
  input_schema : List (Text × Json)
  read_only_hint : Option Bool

structure McpDiscoveredToolParam where
  server_label : Text
  tool_name : Text
  internal_name : Text
  tool : McpTool

/-- `discovered_tools` is not read from a request: the registry fills it in. -/
structure McpToolParam where
  server_label : Text
  server_url : Option Text
  connector_id : Option Text
  headers : Option (List (Text × Text))
  authorization : Option Text
  allowed_tools : Option (List Text)
  require_approval : Option Text
  defer_loading : Option Bool
  discovered_tools : List McpDiscoveredToolParam

inductive ShellEnvironment where
  | local
  | unknown (value : Json)

inductive CodexNamespaceMember where
  | function (param : FunctionToolParam)
  | unknown

structure CodexNamespaceToolParam where
  name : Text
  description : Option Text
  tools : List CodexNamespaceMember
  extra : List (Text × Json)

/-- The parameters of the web and file search are passed on as they came. -/
inductive ResponsesTool where
  | function (param : FunctionToolParam)
  | toolSearch (param : ToolSearchToolParam)
  | mcp (param : McpToolParam)
  | webSearch (param : Json)
  | fileSearch (param : Json)
  | codeInterpreter
  | shell (environment : ShellEnvironment)
  | «namespace» (param : CodexNamespaceToolParam)
  | custom (param : CustomToolParam)
  | unknown

structure AllowedTool where
  type_ : NonEmptyToolName
  name : NonEmptyToolName

inductive ToolChoice where
  | auto | none | required | shell
  | function («namespace» : Option Text) (name : NonEmptyToolName)
  | custom (name : NonEmptyToolName)
  | allowedTools (required : Bool) (tools : List AllowedTool)

def TOOL_SEARCH_NAME : Text := "tool_search"

def SHELL_FUNCTION_NAME : Text := "shell"

/-- A custom or MCP tool is never deferred, and the text of a custom tool is free. -/
def CustomToolParam.validate (param : CustomToolParam) : Except ToolError Unit :=
  if param.defer_loading = some true then
    .error (.config (utf8 "custom tool '" ++ param.name.text ++
      utf8 "' cannot use defer_loading because deferred custom tools are not supported"))
  else if param.format.any fun format => !decide ((format.get "type").bind Json.asStr = some (utf8 "text")) then
    .error (.config (utf8 "custom tool '" ++ param.name.text ++
      utf8 "' uses an unsupported format; gateway normalization cannot preserve constrained decoding"))
  else .ok ()

def McpToolParam.validate (param : McpToolParam) : Except ToolError Unit :=
  if param.defer_loading = some true then
    .error (.config (utf8 "MCP tool '" ++ param.server_label ++
      utf8 "' cannot use defer_loading because deferred MCP tools are not supported"))
  else .ok ()

def ToolSearchToolParam.validate (param : ToolSearchToolParam) : Except ToolError Unit :=
  if param.parameters.any fun parameters => !parameters.asObject.isSome then
    .error (.config "tool_search parameters must be a JSON object for private function lowering")
  else .ok ()

def ShellEnvironment.validate : ShellEnvironment → Except ToolError Unit
  | .local => .ok ()
  | .unknown _ => .error (.config "shell tool currently supports only environment.type='local'")

/-- A function's name is not empty by its type. -/
def ResponsesTool.validate : ResponsesTool → Except ToolError Unit
  | .mcp param => param.validate
  | .toolSearch param => param.validate
  | .shell environment => environment.validate
  | .custom param => param.validate
  | .function _ | .webSearch _ | .fileSearch _ | .codeInterpreter | .namespace _ | .unknown => .ok ()

def FunctionToolParam.toFunctionTool (param : FunctionToolParam) : FunctionTool :=
  ⟨param.name.text, param.description, param.parameters, param.strict⟩

def describedString (type description : Text) : Json := .obj [("type", .str type), ("description", .str description)]

def stringArray : Json := .obj [("type", .str "string")]

def defaultParameters : Json :=
  .obj [("type", .str "object"),
    ("properties", .obj [("query", describedString "string" "A concise description of the needed capabilities.")]),
    ("required", .arr [.str "query"]), ("additionalProperties", .bool false)]

def ToolSearchToolParam.toFunctionTool (param : ToolSearchToolParam) : FunctionTool where
  name := TOOL_SEARCH_NAME
  description := some ((param.description.filter fun description => Engine.trim description ≠ []).getD
    "Search the client tool catalog")
  parameters := some (param.parameters.getD defaultParameters)
  strict := some false

/-- An input schema without properties is given an empty object of them. -/
def McpDiscoveredToolParam.toFunctionTool (param : McpDiscoveredToolParam) : FunctionTool where
  name := param.internal_name
  description := param.tool.description
  parameters := some (.obj (match param.tool.input_schema.lookup (utf8 "properties") with
    | none | some .null => insertField param.tool.input_schema "properties" (.obj [])
    | some _ => param.tool.input_schema))
  strict := some false

def webSearchFunctionTool : FunctionTool where
  name := "web_search"
  description := some "Search the public web for current information and return structured web and news results."
  parameters := some (.obj [("type", .str "object"),
    ("properties", .obj [
      ("query", describedString "string" "The natural language web search query."),
      ("queries", .obj [("type", .str "array"), ("items", stringArray), ("minItems", .num (.posInt 1)),
        ("maxItems", .num (.posInt 5)),
        ("description", .str "Multiple independent search queries to run in parallel, instead of a single query.")]),
      ("count", describedString "integer" "Maximum results per section, from 1 to 100."),
      ("freshness", describedString "string" "Optional recency filter: day, week, month, year, or YYYY-MM-DDtoYYYY-MM-DD."),
      ("country", describedString "string" "Optional ISO 3166-1 alpha-2 country code."),
      ("language", describedString "string" "Optional BCP 47 language code."),
      ("include_domains", .obj [("type", .str "array"), ("items", stringArray),
        ("description", .str "Optional strict allowlist of domains.")]),
      ("exclude_domains", .obj [("type", .str "array"), ("items", stringArray),
        ("description", .str "Optional domain blocklist.")])]),
    ("anyOf", .arr [.obj [("required", .arr [.str "query"])], .obj [("required", .arr [.str "queries"])]])])
  strict := some false

def shellFunctionTool : FunctionTool where
  name := SHELL_FUNCTION_NAME
  description := some (utf8 "Run one or more commands in the caller-provided local shell environment. The caller executes the commands and returns their outputs.")
  parameters := some (.obj [("type", .str "object"),
    ("properties", .obj [
      ("commands", .obj [("type", .str "array"), ("items", stringArray), ("minItems", .num (.posInt 1)),
        ("description", .str "Commands to execute in order.")]),
      ("timeout_ms", .obj [("type", .str "integer"), ("minimum", .num (.posInt 0)),
        ("description", .str "Optional timeout in milliseconds.")]),
      ("max_output_length", .obj [("type", .str "integer"), ("minimum", .num (.posInt 0)),
        ("description", .str "Optional maximum captured output length.")])]),
    ("required", .arr [.str "commands"]), ("additionalProperties", .bool false)])
  strict := some false

/-- The fragments, with an empty line between them. -/
def joinFragments : List Text → Text
  | [] => []
  | [fragment] => fragment
  | fragment :: fragments => fragment ++ utf8 "\n\n" ++ joinFragments fragments

def CustomToolParam.modelVisibleDescription (param : CustomToolParam) : Text :=
  joinFragments (((param.description.map Engine.trim).filter (· ≠ [])).toList
    ++ [utf8 "Provide the raw tool input in the `input` string field."]
    ++ if param.extra = [] then []
       else [utf8 "Additional custom tool declaration fields that must be respected:\n" ++ (Json.obj param.extra).write])

def CustomToolParam.toFunctionTool (param : CustomToolParam) : FunctionTool where
  name := param.name.text
  description := some param.modelVisibleDescription
  parameters := some (.obj [("type", .str "object"),
    ("properties", .obj [("input", describedString "string"
      "Raw custom tool input. Follow the tool description and declared format exactly.")]),
    ("required", .arr [.str "input"]), ("additionalProperties", .bool false)])
  strict := some true

def CodexNamespaceMember.toFunctionTool : CodexNamespaceMember → Option FunctionTool
  | .function param => some param.toFunctionTool
  | .unknown => none

/-- Tools without an executor yet are not shown to the model. -/
def ResponsesTool.toFunctionTools : ResponsesTool → List FunctionTool
  | .function param => [param.toFunctionTool]
  | .mcp param => param.discovered_tools.map McpDiscoveredToolParam.toFunctionTool
  | .toolSearch param => [param.toFunctionTool]
  | .webSearch _ => [webSearchFunctionTool]
  | .shell _ => [shellFunctionTool]
  | .namespace param => param.tools.filterMap CodexNamespaceMember.toFunctionTool
  | .custom param => [param.toFunctionTool]
  | .fileSearch _ | .codeInterpreter | .unknown => []

end AgenticStack.Tools
