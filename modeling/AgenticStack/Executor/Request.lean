import AgenticStack.Executor.Accumulator.Accumulator
import AgenticStack.Executor.Compaction
import AgenticStack.Types.Tools

/-!
# The context of a run

What the engine keeps of the request it serves: the request as the client sent
it, its copy for the model, and what is to be stored of the turn.
-/

namespace AgenticStack
set_option autoImplicit false
open Library

/-- How the context may be managed, and from how many tokens on. -/
structure ContextManagement where
  type_ : Text
  compact_threshold : Option Nat
deriving DecidableEq, Repr

/-- The fields of a request that the engine reads. -/
structure RequestPayload where
  model : Text
  input : ResponsesInput
  instructions : Option Text
  previous_response_id : Option Text
  conversation_id : Option Text
  tool_choice : Option ToolChoice
  store : Bool
  context_management : Option (List ContextManagement)

/-- Whether the input asks for a compaction. -/
def ResponsesInput.hasCompactionTrigger : ResponsesInput → Bool
  | .text _ => false
  | .items xs => xs.any InputItem.isCompactionTrigger

/-- `ResponsesInput::model_input`: the context sent to the model, in which the latest compaction item is a message
of the assistant. -/
def ResponsesInput.modelInput : ResponsesInput → ResponsesInput
  | .text t => .text t
  | .items xs => .items ((AgenticStack.modelItems xs).map fun
    | .compaction c => .message { id := none, role := "assistant", status := none, content := .parts [.outputText c.encrypted_content] }
    | other => other)

/-- The flat name under which the model knows a member of a namespace. -/
abbrev NamespaceMap := Text → Text → Option Text

/-- `resolve_input`: calls of namespace members go under their flat names. -/
def resolveInput (map : Option NamespaceMap) (input : ResponsesInput) : ResponsesInput :=
  match map, input with
  | some map, .items items => .items (items.map fun
    | .functionCall call => match call.namespace.bind fun «namespace» => map «namespace» call.name with
      | some upstream_name => .functionCall { call with name := upstream_name, «namespace» := none }
      | none => .functionCall call
    | other => other)
  | _, input => input

/-- Files in messages are rejected. -/
def validateMessageFiles (input : ResponsesInput) : ExecutorResult Unit :=
  match input with
  | .text _ => .ok ()
  | .items items =>
    let has_file := items.any fun
      | .message message => match message.content with
        | .parts parts => parts.any fun
          | .inputFile .. => true
          | _ => false
        | .text _ => false
      | _ => false
    if has_file then .error (.invalidRequest (utf8 "input_file content in messages is not supported by the typed Responses executor; provide input_text or input_image content instead"))
    else .ok ()

/-- What a request body says of the conversation. -/
structure UpstreamRequest where
  model : Text
  input : ResponsesInput
  stream : Bool
  instructions : Option Text
  tool_choice : Option ToolChoice

namespace Engine

/-- What the run tells the lease of its session, and the parent the lease holds. -/
structure ResponseContinuation where
  parent : Option (List InputItem)
  history_replaced : Bool
  recorded_output_count : Nat

namespace ResponseContinuation

/-- The history was replaced by a checkpoint. -/
def markHistoryReplaced (self : ResponseContinuation) : ResponseContinuation := { self with history_replaced := true }

/-- So many items of the output stand in the history. -/
def markOutputsRecorded (self : ResponseContinuation) (output_count : Nat) : ResponseContinuation :=
  { self with recorded_output_count := output_count }

/-- Whether an output is still to be stored. -/
def retainsOutput (self : ResponseContinuation) (index : Nat) (item : OutputItem) : Bool :=
  self.recorded_output_count ≤ index || match item with
    | .mcpListTools _ => true
    | _ => false

end ResponseContinuation

/-- A request as the engine works on it: as the client sent it, and as it will be sent. -/
structure RequestContext where
  original_request : RequestPayload
  enriched_request : RequestPayload
  new_input_items : List InputItem
  response_id : Text
  conversation_id : Option Text
  continuation : Option ResponseContinuation

/-- A response under the ids of its turn. -/
def RequestContext.injectIds (ctx : RequestContext) (payload : ResponsePayload) : ResponsePayload :=
  { payload with
    id := ctx.response_id
    conversation_id := ctx.conversation_id
    previous_response_id := ctx.original_request.previous_response_id }

/-- `upstream_request`; `toolsResolved` is what preparing the tools and the tool choice comes to. -/
def RequestContext.upstreamRequest (ctx : RequestContext) (toolsResolved : Option ToolChoice → ExecutorResult Unit)
    (map : Option NamespaceMap) (stream : Bool) : ExecutorResult UpstreamRequest := do
  validateMessageFiles ctx.enriched_request.input
  toolsResolved ctx.enriched_request.tool_choice
  return { model := ctx.enriched_request.model
           input := resolveInput map ctx.enriched_request.input.modelInput
           stream
           instructions := ctx.enriched_request.instructions
           tool_choice := ctx.enriched_request.tool_choice }

/-- A request with another input. -/
def RequestContext.setInput (ctx : RequestContext) (input : ResponsesInput) : RequestContext :=
  { ctx with enriched_request := { ctx.enriched_request with input } }

end Engine
end AgenticStack
