import AgenticStack.Tool.Declarations
import AgenticStack.Library.AssocList

/-!
# The tools of MCP servers

A server is configured by the gateway or declared by the request. What is
discovered of a declared server is kept under its label, and another declaration
of the same label takes it for a configured one.
-/

namespace AgenticStack.Tools
set_option autoImplicit false
open Library

structure McpDiscoveredHandler where
  param : McpDiscoveredToolParam
  binding : GatewayBinding

/-- What connecting to a server and listing its tools comes to, while the request is prepared. -/
structure McpServers where
  configured (server_label : Text) : Except ToolError (List McpDiscoveredHandler)
  declared (param : McpToolParam) : Except ToolError (List McpDiscoveredHandler)

/-- The executors of one request, with the servers found so far. -/
structure GatewayExecutors where
  mcp : List (Text × List McpDiscoveredHandler)
  /-- The labels the gateway is configured with. -/
  mcp_configs : List Text
  mcp_discovered : List (Text × List McpDiscoveredHandler)

/-- The options of an MCP declaration that the gateway can carry out. -/
def validateMcpExecutionOptions (param : McpToolParam) (configured_server : Bool) : Except ToolError Unit :=
  if param.connector_id.isSome then
    .error (.config "MCP connector_id is not supported; configure server_url instead")
  else if param.require_approval.any (· ≠ utf8 "never") then
    .error (.config "MCP require_approval supports only 'never'; approval gating is not yet supported")
  else if !configured_server && param.require_approval.isNone then
    .error (.config "MCP require_approval must be set to 'never' in gateway configuration or the request")
  else .ok ()

def filterAllowedMcpHandlers (handlers : List McpDiscoveredHandler) (allowed_tools : Option (List Text)) :
    List McpDiscoveredHandler :=
  handlers.filter fun handler => allowed_tools.all fun allowed => allowed.contains handler.param.tool_name

def requireNonEmptyMcpHandlers (server_label : Text) (handlers : List McpDiscoveredHandler) :
    Except ToolError (List McpDiscoveredHandler) :=
  if handlers.isEmpty then
    .error (.config (utf8 "MCP server '" ++ server_label ++ utf8 "' has an empty final allowed tool set"))
  else .ok handlers

section
variable (servers : McpServers)

/-- A configured server: what was discovered of it is kept for the next request. -/
def GatewayExecutors.configuredTools (self : GatewayExecutors) (server_label : Text) (allowed_tools : Option (List Text)) :
    Except ToolError (List McpDiscoveredHandler) × GatewayExecutors :=
  match self.mcp_discovered.lookup server_label with
  | some discovered =>
    (requireNonEmptyMcpHandlers server_label (filterAllowedMcpHandlers discovered allowed_tools), self)
  | none =>
    match (servers.configured server_label).bind (requireNonEmptyMcpHandlers server_label) with
    | .error error => (.error error, self)
    | .ok discovered =>
      (requireNonEmptyMcpHandlers server_label (filterAllowedMcpHandlers discovered allowed_tools),
        { self with mcp_discovered := insertEntry self.mcp_discovered server_label discovered })

def GatewayExecutors.declaredTools (self : GatewayExecutors) (server_label : Text) (param : McpToolParam) :
    Except ToolError (List McpDiscoveredHandler) × GatewayExecutors :=
  match (servers.declared param).bind (requireNonEmptyMcpHandlers server_label) with
  | .error error => (.error error, self)
  | .ok discovered => (.ok discovered, { self with mcp := insertEntry self.mcp server_label discovered })

/-- The tools of a declared server, cached by its label, discovered otherwise. -/
def GatewayExecutors.mcpServerTools (self : GatewayExecutors) (param : McpToolParam) :
    Except ToolError (List McpDiscoveredHandler) × GatewayExecutors :=
  let server_label := Engine.trim param.server_label
  if server_label = [] then (.error (.config "MCP declaration requires a non-empty server_label"), self)
  else
    let configured_handlers := self.mcp.lookup server_label
    let configured_server := self.mcp_configs.contains server_label
    match validateMcpExecutionOptions param (configured_server || configured_handlers.isSome) with
    | .error error => (.error error, self)
    | .ok () =>
      if (configured_server || configured_handlers.isSome) && param.server_url.isSome then
        (.error (.config (utf8 "MCP server '" ++ server_label ++
          utf8 "' is configured by the gateway; omit server_url from the request")), self)
      else match configured_handlers with
        | some configured_handlers =>
          (requireNonEmptyMcpHandlers server_label (filterAllowedMcpHandlers configured_handlers param.allowed_tools), self)
        | none =>
          if configured_server then self.configuredTools servers server_label param.allowed_tools
          else self.declaredTools servers server_label param

end

end AgenticStack.Tools
