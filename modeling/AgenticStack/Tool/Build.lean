import AgenticStack.Tool.Codex
import AgenticStack.Tool.Executors

/-!
# Building the registry, and the tools sent upstream

Two passes over the declared tools. One gives the registry the names under which
the model will call them; the other lowers them to the functions the model sees.
-/

namespace AgenticStack.Tools
set_option autoImplicit false
open Library

def MAX_MCP_SERVERS_PER_REQUEST : Nat := 64

def MAX_DISCOVERED_MCP_TOOLS_PER_REQUEST : Nat := 128

def clientEntry (tool_type : ToolType) (client : tool_type.isGatewayOwned = false) : ToolEntry := ⟨tool_type, .client, client.symm⟩

def gatewayEntry (tool_type : ToolType) (gateway : tool_type.isGatewayOwned = true) (binding : Option GatewayBinding) :
    ToolEntry := ⟨tool_type, .gateway binding, gateway.symm⟩

/-- Puts resolved entries in, each under a name that is still free. -/
def insertUniqueToolEntries (entries : List (Text × ToolEntry)) : List (Text × ToolEntry) →
    Except ToolError (List (Text × ToolEntry))
  | [] => .ok entries
  | (name, entry) :: resolved => match entries.lookup name with
    | some existing => .error (.config (toolTypeDescription entry.tool_type ++ utf8 " registry name '" ++ name ++
        utf8 "' conflicts with existing " ++ toolTypeDescription existing.tool_type))
    | none => insertUniqueToolEntries (insertEntry entries name entry) resolved

/-- The entry of one namespace member, under its flat name. -/
def insertNamespaceEntry (entries : List (Text × ToolEntry)) : CodexNamespaceMember → List (Text × ToolEntry)
  | .function param => insertEntry entries param.name.text (clientEntry .codexNamespace rfl)
  | .unknown => entries

/-- One entry for each function member, under the name it has by then. -/
def namespaceEntries (param : CodexNamespaceToolParam) : List (Text × ToolEntry) := param.tools.foldl insertNamespaceEntry []

def discoveredMcpEntry (discovered : McpDiscoveredHandler) : Text × ToolEntry :=
  (discovered.param.internal_name, gatewayEntry .mcp rfl (some discovered.binding))

/-- What the registry is built with: the MCP servers, the binding of a web search, the id of a server's listing, and
the length of what is read of a server. -/
structure RegistryServices where
  servers : McpServers
  webSearchBinding : Json → GatewayBinding
  listingId : Text → Text
  paramBytes : McpDiscoveredToolParam → Nat
  listingBytes : McpListTools → Nat

/-- The entries of a tool other than an MCP server. -/
def ResponsesTool.entries (services : RegistryServices) : ResponsesTool → List (Text × ToolEntry)
  | .function param => [(param.name.text, clientEntry .function rfl)]
  | .toolSearch _ => [(TOOL_SEARCH_NAME, clientEntry .toolSearch rfl)]
  | .webSearch param => [("web_search", gatewayEntry .webSearch rfl (some (services.webSearchBinding param)))]
  | .fileSearch _ => [("file_search", gatewayEntry .fileSearch rfl none)]
  | .codeInterpreter => [("code_interpreter", gatewayEntry .codeInterpreter rfl none)]
  | .shell _ => [(SHELL_FUNCTION_NAME, clientEntry .shell rfl)]
  | .namespace param => namespaceEntries param
  | .custom param => [(param.name.text, clientEntry .custom rfl)]
  | .mcp _ | .unknown => []

/-- How a discovered tool is shown in a listing. -/
def mcpListTool (param : McpDiscoveredToolParam) : McpListTool where
  name := param.tool_name
  description := param.tool.description
  input_schema := .obj param.tool.input_schema
  annotations := some (.obj [("read_only", .bool (param.tool.read_only_hint.getD false))])

/-- `Display`. -/
def toolErrorText : ToolError → Text
  | .execution message => utf8 "execution failed: " ++ message
  | .config message => utf8 "invalid tool config: " ++ message
  | .invalidUpstreamToolSearch => "upstream returned an invalid tool-search call"
  | .upstreamWithheldFunctionCall => "upstream returned a call for a function that has not been loaded"
  | .missingOutput call_id => utf8 "No tool output found for function call " ++ call_id ++ utf8 "."

def isConfig : ToolError → Bool
  | .config _ => true
  | _ => false

/-- The registry while the tools of a request are added to it. -/
structure BuildState where
  entries : List (Text × ToolEntry)
  mcp_list_tools_items : List (Text × McpListTools)
  discovered_mcp_tools : Nat
  /-- What may still be read of MCP servers. -/
  remaining : Nat
  executors : GatewayExecutors

def budgetExceeded : ToolError := .execution "MCP discovery metadata exceeded 1048576 bytes"

/-- Takes bytes off the discovery budget, which fails when too few are left. -/
def BuildState.consume (self : BuildState) (bytes : Nat) : Except ToolError BuildState :=
  if bytes ≤ self.remaining then .ok { self with remaining := self.remaining - bytes } else .error budgetExceeded

def BuildState.insertUnique (self : BuildState) (resolved : List (Text × ToolEntry)) : Except ToolError BuildState := do
  let entries ← insertUniqueToolEntries self.entries resolved
  return { self with entries }

section
variable (services : RegistryServices)

/-- The listing of a server whose discovery has failed, with the error's text. -/
def failedListToolsItem (server_label : Text) (error : ToolError) : McpListTools :=
  ⟨services.listingId server_label, server_label, [], some (toolErrorText error)⟩

def listToolsItem (server_label : Text) (handlers : List McpDiscoveredHandler) : McpListTools :=
  ⟨services.listingId server_label, Engine.trim server_label, handlers.map fun handler => mcpListTool handler.param, none⟩

/-- The server cannot be reached: the request goes on without its tools. -/
def BuildState.recordFailed (self : BuildState) (param : McpToolParam) (error : ToolError) : Except ToolError BuildState := do
  let item := failedListToolsItem services param.server_label error
  let self ← self.consume (services.listingBytes item)
  return { self with mcp_list_tools_items := self.mcp_list_tools_items ++ [(param.server_label, item)] }

/-- Counts the discovered tools, records the listing and inserts their entries, within every limit. -/
def BuildState.recordDiscovered (self : BuildState) (param : McpToolParam) (handlers : List McpDiscoveredHandler) :
    Except ToolError BuildState := do
  let discovered_mcp_tools := self.discovered_mcp_tools + handlers.length
  if MAX_DISCOVERED_MCP_TOOLS_PER_REQUEST < discovered_mcp_tools then
    throw (.execution (utf8 "request discovered " ++ decimal discovered_mcp_tools ++ utf8 " MCP tools; at most " ++
      decimal MAX_DISCOVERED_MCP_TOOLS_PER_REQUEST ++ utf8 " discovered MCP tools are allowed"))
  let self ← handlers.foldlM (fun (self : BuildState) handler => self.consume (services.paramBytes handler.param)) self
  let item := listToolsItem services param.server_label handlers
  let self ← self.consume (services.listingBytes item)
  handlers.foldlM (fun (self : BuildState) handler => self.insertUnique [discoveredMcpEntry handler])
    { self with
      discovered_mcp_tools
      mcp_list_tools_items := self.mcp_list_tools_items ++ [(param.server_label, item)] }

/-- One tool, and what is to be noted on its declaration as discovered. -/
def BuildState.addTool (self : BuildState) (tool : ResponsesTool) :
    Except ToolError (Option (List McpDiscoveredToolParam) × BuildState) :=
  match tool with
  | .mcp param =>
    match self.executors.mcpServerTools services.servers param with
    | (.error error, executors) =>
      if isConfig error then .error error
      else do
        let self ← { self with executors }.recordFailed services param error
        return (none, self)
    | (.ok handlers, executors) => do
      let self ← { self with executors }.recordDiscovered services param handlers
      return (some (handlers.map (·.param)), self)
  | tool => do
    let self ← self.insertUnique (tool.entries services)
    return (none, self)

def BuildState.addTools (self : BuildState) : List ResponsesTool →
    Except ToolError (List (Option (List McpDiscoveredToolParam)) × BuildState)
  | [] => .ok ([], self)
  | tool :: tools => do
    let (noted, self) ← self.addTool services tool
    let (later, self) ← self.addTools tools
    return (noted :: later, self)

/-- Writes the discovered tools into an MCP declaration. -/
def ResponsesTool.noteDiscovered : ResponsesTool → Option (List McpDiscoveredToolParam) → ResponsesTool
  | .mcp param, some discovered_tools => .mcp { param with discovered_tools }
  | tool, _ => tool

def ResponsesTool.serverLabel : ResponsesTool → Option Text
  | .mcp param => some param.server_label
  | _ => none

def validateLabelsAfter (server_labels : List Text) : List ResponsesTool → Except ToolError Unit
  | [] => .ok ()
  | tool :: tools => match tool.serverLabel with
    | none => validateLabelsAfter server_labels tools
    | some label =>
      if server_labels.contains label then
        .error (.config (utf8 "duplicate MCP declarations are not allowed for server_label '" ++ label ++ utf8 "'"))
      else validateLabelsAfter (label :: server_labels) tools

def validateServerLabels (tools : List ResponsesTool) : Except ToolError Unit := validateLabelsAfter [] tools

def validateMcpServerCount (tools : List ResponsesTool) : Except ToolError Unit :=
  let mcp_server_count := tools.countP fun tool => tool.serverLabel.isSome
  if MAX_MCP_SERVERS_PER_REQUEST < mcp_server_count then
    .error (.config (utf8 "request declared " ++ decimal mcp_server_count ++ utf8 " MCP servers; at most " ++
      decimal MAX_MCP_SERVERS_PER_REQUEST ++ utf8 " MCP server declarations are allowed"))
  else .ok ()

/-- Notes a custom declaration under its name. -/
def noteCustom (declarations : List (Text × CustomToolParam)) : ResponsesTool → List (Text × CustomToolParam)
  | .custom param => insertEntry declarations param.name.text param
  | _ => declarations

/-- Custom tools by their names. -/
def customToolMap (tools : List ResponsesTool) : List (Text × CustomToolParam) := tools.foldl noteCustom []

/-- What the finished build hands to the request. -/
structure BuiltRegistry where
  entries : List (Text × ToolEntry)
  namespace_map : Option NamespaceMap
  custom_tool_map : List (Text × CustomToolParam)
  mcp_list_tools_items : List (Text × McpListTools)

/-- `build_with_handlers_guarded`: the registry, and the declarations with what was discovered. `budget` is what may
be read of MCP servers. -/
def buildWithHandlersGuarded (tools : List ResponsesTool) (executors : GatewayExecutors) (budget : Nat) :
    Except ToolError (BuiltRegistry × List ResponsesTool) := do
  let resolved_tools ← resolveNamespaceMembers tools
  validateServerLabels resolved_tools
  validateMcpServerCount resolved_tools
  let (noted, state) ← BuildState.addTools services ⟨[], [], 0, budget, executors⟩ resolved_tools
  let tools := tools.zipWith ResponsesTool.noteDiscovered noted
  let namespace_map ← buildNamespaceMap (if tools.isEmpty then none else some tools)
  return (⟨state.entries, namespace_map, customToolMap tools, state.mcp_list_tools_items⟩, tools)

end

/-- A choice of a custom tool must name a declared one. -/
def validateCustomSelector (map : List (Text × CustomToolParam)) (name : Text) : Except ToolError Unit :=
  match map.lookup name with
  | some _ => .ok ()
  | none => .error (.config (utf8 "tool_choice selects custom tool '" ++ name ++
      utf8 "', but no matching custom tool is declared"))

def validateToolChoice (tools : List ResponsesTool) : ToolChoice → Except ToolError Unit
  | .custom name => validateCustomSelector (customToolMap tools) name.text
  | .allowedTools _ allowed => allowed.forM fun tool =>
    if tool.type_.text = utf8 "custom" then validateCustomSelector (customToolMap tools) tool.name.text else .ok ()
  | _ => .ok ()

/-- The tools of the upstream request, left out when there are none, and its tool choice. -/
structure UpstreamTools where
  tools : Option (List FunctionTool)
  tool_choice : ToolChoice

/-- The part of `to_upstream_request` that is about tools. -/
def toUpstreamTools (tools : List ResponsesTool) (tool_choice : Option ToolChoice) : Except ToolError UpstreamTools := do
  let renamed_tools ← resolveNamespaceMembers tools
  renamed_tools.forM ResponsesTool.validate
  let functions := renamed_tools.flatMap ResponsesTool.toFunctionTools
  let namespace_map ← buildNamespaceMap (some tools)
  let tool_choice := resolveToolChoice namespace_map tool_choice
  validateToolChoice tools tool_choice
  return ⟨if functions.isEmpty then none else some functions, tool_choice⟩

end AgenticStack.Tools
