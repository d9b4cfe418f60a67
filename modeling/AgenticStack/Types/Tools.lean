import AgenticStack.Types.Items

/-!
# Tool declarations and stored settings

The declarations a request carries and the settings a response stores for its
continuations. A declaration other than an MCP server's is passed on as it came.
-/

namespace AgenticStack
set_option autoImplicit false
open Library

structure McpToolParam where
  server_label : Text
  server_url : Option Text
  connector_id : Option Text
  headers : Option (List (Text × Text))
  authorization : Option Text
  allowed_tools : Option (List Text)
  require_approval : Option Text
  defer_loading : Option Bool
  discovered_tools : List Json

inductive ResponsesTool where
  | mcp (param : McpToolParam)
  /-- Any other kind, under its original type. -/
  | declared (original_type : Option Text) (declaration : Json)

inductive ToolChoice where
  | auto | none | required | shell
  | function («namespace» : Option Text) (name : Text)
  | custom (name : Text)
  | allowedTools (mode : Text) (tools : List Json)

/-- Removes the state of one request from a declaration that is stored. -/
def ResponsesTool.sanitizeForPersistence : ResponsesTool → ResponsesTool
  | .mcp param => .mcp { param with headers := none, authorization := none, discovered_tools := [] }
  | tool => tool

structure ResponseMetadata where
  model : Text
  previous_response_id : Option Text
  effective_tools : Option (List ResponsesTool)
  tool_search_loaded_tools : Option (List ResponsesTool)
  effective_tool_choice : ToolChoice
  effective_instructions : Option Text

def ResponseMetadata.default : ResponseMetadata :=
  { model := "", previous_response_id := none, effective_tools := none, tool_search_loaded_tools := none,
    effective_tool_choice := .auto, effective_instructions := none }

end AgenticStack
