import AgenticStack.Tool.Client

/-!
# The tool registry of a request

The registry maps the name a model calls to the kind of the tool and to its
owner: the client, or the gateway, which may have no handler for it yet.
-/

namespace AgenticStack
set_option autoImplicit false
open Library

/-- The kinds of tools the gateway knows. -/
inductive ToolType where
  | function | toolSearch | custom | shell | codexNamespace | mcp | webSearch | fileSearch | codeInterpreter
deriving DecidableEq, Repr

def ToolType.isGatewayOwned : ToolType → Bool
  | .function | .toolSearch | .custom | .shell | .codexNamespace => false
  | .mcp | .webSearch | .fileSearch | .codeInterpreter => true

/-- The errors of building a registry and of running a tool. -/
inductive ToolError where
  | execution (message : Text)
  | config (message : Text)
  | invalidUpstreamToolSearch
  | upstreamWithheldFunctionCall
  | missingOutput (call_id : Text)
deriving DecidableEq, Repr

structure ToolOutput where
  call_id : Text
  output : Text
deriving DecidableEq, Repr

/-- A handler with its parameters. It is asked in a round, for the item at an index, and answers for the call id
it was given; a call that runs into the timeout has failed with the timeout's message. -/
structure GatewayBinding where
  execute (round item_index : Nat) (call_id tool_name arguments : Text) : Except ToolError ToolOutput
  answers_call : ∀ round item_index call_id tool_name arguments output,
    execute round item_index call_id tool_name arguments = .ok output → output.call_id = call_id
  startedOutput : FunctionToolCall → Option OutputItem
  publicOutput : FunctionToolCall → ToolOutput → GatewayCallStatus → Option OutputItem

/-- Who runs a tool: the client, or the gateway with the binding that does it. -/
inductive ToolOwnership where
  | client
  | gateway (binding : Option GatewayBinding)

def ToolOwnership.isGateway : ToolOwnership → Bool
  | .client => false
  | .gateway _ => true

/-- An entry is made by `client` or by `gateway`, as the kind of the tool asks for. -/
structure ToolEntry where
  tool_type : ToolType
  ownership : ToolOwnership
  owned : ownership.isGateway = tool_type.isGatewayOwned

/-- The entries by name, and the listings of MCP tools the client has not seen yet. -/
structure ToolRegistry where
  entries : List (Text × ToolEntry)
  mcp_list_tool_items : List McpListTools

namespace ToolRegistry

def default : ToolRegistry := ⟨[], []⟩

def lookup (registry : ToolRegistry) (tool_name : Text) : Option ToolEntry := registry.entries.lookup tool_name

def isGatewayOwnedName (registry : ToolRegistry) (name : Text) : Bool :=
  (registry.lookup name).any (·.ownership.isGateway)

def isClientCustomName (registry : ToolRegistry) (name : Text) : Bool :=
  (registry.lookup name).any (·.tool_type = .custom)

def isClientShellName (registry : ToolRegistry) (name : Text) : Bool :=
  (registry.lookup name).any fun entry => entry.tool_type = .shell && !entry.ownership.isGateway

/-- Marks the listings of the request as sent. -/
def clearMcpListToolItems (registry : ToolRegistry) : ToolRegistry := { registry with mcp_list_tool_items := [] }

end ToolRegistry

/-- Whether the client has to act on the item. -/
def OutputItem.requiresClientAction (registry : ToolRegistry) : OutputItem → Bool
  | .functionCall call => (registry.lookup call.name).all fun entry => !entry.ownership.isGateway
  | .toolSearchCall _ | .customToolCall _ | .shellCall _ => true
  | .message _ | .webSearchCall _ | .mcpCall _ | .mcpListTools _ | .reasoning _ | .compaction _ | .unknown => false

/-- Whether the output has a call that the client must answer. -/
def hasClientOwnedCalls (output_items : List OutputItem) (registry : ToolRegistry) : Bool :=
  output_items.any (·.requiresClientAction registry)

end AgenticStack
