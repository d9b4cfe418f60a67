import AgenticStack.Executor.Request
import AgenticStack.Executor.Stream
import AgenticStack.Tool.Registry

/-!
# Gateway calls of a round

The calls of one round that the gateway executes itself: which they are, what
their execution gives, the events that show them to the client, and the items
that stand for them in the response and in the next request.
-/

namespace AgenticStack
set_option autoImplicit false
open Library

/-- How items and responses are written as values; the writers are derived from their types. -/
structure SerdeValues where
  item : OutputItem → Json
  payload : ResponsePayload → Json

/-- What came of a call: its answer, and what is shown of it. -/
structure GatewayCallResult where
  item_index : Nat
  input_item : InputItem
  public_output : Option OutputItem

/-- What is shown of a call as it starts and as it ends. -/
structure GatewayEventPlan where
  output_index : Nat
  started_output : Option OutputItem
  completed_output : Option OutputItem
  arguments : Option Text

/-- A call to execute; without a binding its handler is missing. -/
structure GatewayCallPlan where
  item_index : Nat
  call : FunctionToolCall
  execution : Option GatewayBinding
  events : GatewayEventPlan

/-- `u32::try_from(offset.saturating_add(index)).unwrap_or(u32::MAX)`. -/
def planIndex (output_offset index : Nat) : Nat := min (output_offset + index) (2 ^ 32 - 1)

namespace GatewayScheduler

/-- The plan for an item, if it is a gateway call. -/
def planItem (registry : ToolRegistry) (output_offset item_index : Nat) : OutputItem → Option GatewayCallPlan
  | .functionCall call => match registry.lookup call.name with
    | none => none
    | some entry => match entry.ownership with
      | .client => none
      | .gateway binding => some
        { item_index
          call
          execution := binding
          events :=
            { output_index := planIndex output_offset item_index
              started_output := binding.bind fun binding => binding.startedOutput call
              completed_output := none
              arguments := some call.arguments } }
  | _ => none

/-- The calls of an output that the gateway runs. -/
def plan (output_items : List OutputItem) (registry : ToolRegistry) (output_offset : Nat) : List GatewayCallPlan :=
  output_items.zipIdx.filterMap fun (item, item_index) => planItem registry output_offset item_index item

/-- The calls are in the order of their items. -/
def callIndexForItem (calls : List GatewayCallPlan) (item_index : Nat) : Option Nat :=
  calls.findIdx? (·.item_index = item_index)

/-- How many of the first calls may be shown before they are executed: they are neighbours, and no custom call of
the client comes before them. -/
def initialEventRunLen (calls : List GatewayCallPlan) (output_items : List OutputItem) (registry : ToolRegistry) : Nat :=
  match calls with
  | [] => 0
  | first :: _ =>
    let custom_before := (output_items.take first.item_index).any fun
      | .functionCall call => registry.isClientCustomName call.name
      | _ => false
    if custom_before then 0
    else (calls.zipIdx.takeWhile fun (call, offset) => call.item_index = first.item_index + offset).length

end GatewayScheduler

/-- The answer of a tool may be so long. -/
def maxGatewayToolOutputBytes : Nat := 1024 * 1024

/-- The answers of a response may be so long together. -/
def maxExecutorResponseBytes : Nat := 1024 * 1024

/-- `ExecutorResponseBudget::consume`, of the bytes that remain. -/
def consumeBudget (bytes : Nat) : EStateM ExecutorError Nat Unit := do
  let remaining ← get
  if bytes ≤ remaining then set (remaining - bytes)
  else throw (.streamError (utf8 "executor response budget exceeded " ++ decimal maxExecutorResponseBytes ++ utf8 " bytes"))

/-- An answer must not be longer than allowed. -/
def enforceGatewayToolOutputSize (bytes : Nat) : ExecutorResult Unit :=
  if maxGatewayToolOutputBytes < bytes then
    .error (.streamError (utf8 "gateway tool output exceeded " ++ decimal maxGatewayToolOutputBytes ++ utf8 " bytes"))
  else .ok ()

/-- The answer of a tool that has failed. -/
def executionErrorOutput (call : FunctionToolCall) (message : Text) : ToolOutput where
  call_id := call.call_id
  output := (Json.obj [("error", .str message)]).write

/-- An answer as an item of the input. -/
def ToolOutput.toInput (output : ToolOutput) : InputItem :=
  .functionCallOutput { call_id := output.call_id, output := .text output.output }

/-- What a dispatched call comes to; some failures end the whole run. -/
def settleDispatch (call : FunctionToolCall) : Except ToolError ToolOutput → ExecutorResult (ToolOutput × GatewayCallStatus)
  | .ok output => .ok (output, .completed)
  | .error (.execution message) | .error (.config message) => .ok (executionErrorOutput call message, .failed)
  | .error (.missingOutput call_id) => .error (.missingOutput call_id)
  | .error .invalidUpstreamToolSearch => .error .invalidUpstreamToolSearch
  | .error .upstreamWithheldFunctionCall => .error .upstreamWithheldFunctionCall

/-- `run_one`, in a round of the loop. -/
def GatewayCallPlan.runOne (plan : GatewayCallPlan) (round : Nat) : EStateM ExecutorError Nat GatewayCallResult :=
  match plan.execution with
  | none => do
    let output := executionErrorOutput plan.call
      (utf8 "gateway tool '" ++ plan.call.name ++ utf8 "' has no registered handler")
    ofExcept (enforceGatewayToolOutputSize output.output.length)
    consumeBudget output.output.length
    return { item_index := plan.item_index, input_item := output.toInput, public_output := none }
  | some binding => do
    let (output, status) ← ofExcept (settleDispatch plan.call
      (binding.execute round plan.item_index plan.call.call_id plan.call.name plan.call.arguments))
    ofExcept (enforceGatewayToolOutputSize output.output.length)
    consumeBudget output.output.length
    return { item_index := plan.item_index, input_item := output.toInput
             public_output := binding.publicOutput plan.call output status }

/-- `execute_with_budget`. The calls run side by side; the first failure in item order fails the round. -/
def executeWithBudget (calls : List GatewayCallPlan) (round : Nat) :
    EStateM ExecutorError Nat (List GatewayCallResult) :=
  calls.mapM fun plan => plan.runOne round

/-- The plans of the executed calls, with what completes their events. -/
def completePlans (calls : List GatewayCallPlan) (results : List GatewayCallResult) : List GatewayEventPlan :=
  List.zipWith (fun plan result => { plan.events with completed_output := result.public_output }) calls results

/-- The item that stands for an output item in the response. -/
def publicOutputItem (serde : SerdeJson) (registry : ToolRegistry) (gateway_results : List GatewayCallResult)
    (item_index : Nat) : OutputItem → ExecutorResult OutputItem
  | .functionCall call =>
    if registry.isClientCustomName call.name then .ok (CustomHandler.outputItem serde call)
    else if registry.isClientShellName call.name then
      match ShellHandler.outputItem serde call with
      | some item => .ok item
      | none => .error (.parseError "shell function call contains invalid action arguments")
    else if registry.isGatewayOwnedName call.name then
      .ok (((gateway_results.find? (·.item_index = item_index)).bind (·.public_output)).getD (.functionCall call))
    else .ok (.functionCall call)
  | other => .ok other

/-- What is shown of an output: each call of the gateway as what came of it. -/
def publicOutputItems (serde : SerdeJson) (output_items : List OutputItem) (registry : ToolRegistry)
    (gateway_results : List GatewayCallResult) : ExecutorResult (List OutputItem) :=
  output_items.zipIdx.mapM fun (item, item_index) => publicOutputItem serde registry gateway_results item_index item

/-- A listing as it starts, before its tools are known. -/
def startedListToolsOutputItem (list : McpListTools) : OutputItem :=
  .mcpListTools { id := list.id, server_label := list.server_label, tools := [], error := none }

/-- What is shown of the listings. -/
def mcpListToolsEventPlans (public_output_items : List OutputItem) (output_offset : Nat) : List GatewayEventPlan :=
  public_output_items.zipIdx.filterMap fun
    | (.mcpListTools list, index) => some
      { output_index := planIndex output_offset index
        started_output := some (startedListToolsOutputItem list)
        completed_output := some (.mcpListTools list)
        arguments := none }
    | _ => none

/-- What is shown of the checkpoints. -/
def compactionEventPlans (public_output_items : List OutputItem) (output_offset : Nat) : List GatewayEventPlan :=
  public_output_items.zipIdx.filterMap fun
    | (.compaction item, index) => some
      { output_index := planIndex output_offset index
        started_output := some (.compaction item)
        completed_output := some (.compaction item)
        arguments := none }
    | _ => none

/-- `synthetic_event`. -/
def gatewayFrame (type : SSEEventType) (rest : List (Text × Json)) : ExecutorResult EventFrame :=
  match EventFrame.synthetic type rest with
  | some frame => .ok frame
  | none => .error (.streamError "synthetic event has no wire representation")

/-- An event of the engine is written. -/
def emitGatewayEvent (frame : EventFrame) : OutletM Unit := do
  let _ ← processAndEmit none frame 0

/-- Events of the gateway's own, one after another. -/
def emitGatewayEvents (events : List (SSEEventType × List (Text × Json))) : OutletM Unit :=
  forM events fun event => do
    let frame ← ofExcept (gatewayFrame event.1 event.2)
    emitGatewayEvent frame

section
variable (values : SerdeValues)

/-- The index of an item, in an event. -/
def jsonIndex (index : Nat) : Text × Json := ("output_index", .num (.posInt index))

/-- The events that show a call as started. -/
def GatewayEventPlan.startEvents (plan : GatewayEventPlan) : List (SSEEventType × List (Text × Json)) :=
  match plan.started_output with
  | none => []
  | some output_item =>
    (.outputItemAdded, [jsonIndex plan.output_index, ("item", values.item output_item)]) ::
    match output_item with
    | .webSearchCall call =>
      [(.webSearchCallInProgress, [("item_id", .str call.id), jsonIndex plan.output_index]),
        (.webSearchCallSearching, [("item_id", .str call.id), jsonIndex plan.output_index])]
    | .mcpCall call =>
      let arguments := plan.arguments.getD []
      [(.mcpCallInProgress, [("item_id", .str call.id), jsonIndex plan.output_index]),
        (.mcpCallArgumentsDelta, [("delta", .str arguments), ("item_id", .str call.id), jsonIndex plan.output_index]),
        (.mcpCallArgumentsDone, [("arguments", .str arguments), ("item_id", .str call.id), jsonIndex plan.output_index])]
    | .mcpListTools list => [(.mcpListToolsInProgress, [("item_id", .str list.id), jsonIndex plan.output_index])]
    | .message _ | .functionCall _ | .toolSearchCall _ | .customToolCall _ | .shellCall _ | .reasoning _
    | .compaction _ | .unknown => []

/-- The events that show a call as completed. -/
def GatewayEventPlan.completedEvents (plan : GatewayEventPlan) : List (SSEEventType × List (Text × Json)) :=
  match plan.completed_output with
  | none => []
  | some public_output =>
    let item := values.item public_output
    let done : SSEEventType × List (Text × Json) := (.outputItemDone, [jsonIndex plan.output_index, ("item", item)])
    match public_output with
    | .webSearchCall call =>
      [(.webSearchCallCompleted, [("item_id", .str call.id), jsonIndex plan.output_index, ("item", item)]), done]
    | .mcpCall call =>
      [(if call.status = some .failed then .mcpCallFailed else .mcpCallCompleted,
        [("item_id", .str call.id), jsonIndex plan.output_index]), done]
    | .mcpListTools list =>
      [(if list.error.isSome then .mcpListToolsFailed else .mcpListToolsCompleted,
        [("item_id", .str list.id), jsonIndex plan.output_index]), done]
    | .compaction _ | .shellCall _ => [done]
    | .message _ | .functionCall _ | .toolSearchCall _ | .customToolCall _ | .reasoning _ | .unknown => []

/-- The events that open the calls are written. -/
def emitGatewayStartEvents (plans : List GatewayEventPlan) : OutletM Unit :=
  forM plans fun plan => emitGatewayEvents (plan.startEvents values)

/-- The events that end the calls are written. -/
def emitGatewayCompletedEvents (plans : List GatewayEventPlan) : OutletM Unit :=
  forM plans fun plan => emitGatewayEvents (plan.completedEvents values)

/-- `emit_response_start_events`: the response as it was when it started. -/
def emitResponseStartEvents (payload : ResponsePayload) : OutletM Unit :=
  let response := values.payload { payload with status := "in_progress", output := [], usage := none }
  emitGatewayEvents [(.responseCreated, [("response", response)]), (.responseInProgress, [("response", response)])]

end

/-- An item is added to an input, which becomes a list of items. -/
def appendInputItem (input : ResponsesInput) (item : InputItem) : ResponsesInput :=
  match input with
  | .items items => .items (items ++ [item])
  | .text text => .items ((ResponsesInput.text text).toItems ++ [item])

/-- Items are added to an input. -/
def appendInputItems (input : ResponsesInput) (items : List InputItem) : ResponsesInput :=
  items.foldl appendInputItem input

/-- The output of a round is added to the input of the next. -/
def appendOutputItemsToInput (input : ResponsesInput) (output_items : List OutputItem) : ResponsesInput :=
  appendInputItems input (output_items.filterMap OutputItem.toInputItem)

namespace Engine

/-- The answers are added to the input and kept as new items. -/
def appendToolOutputs (ctx : RequestContext) (tool_outputs : List InputItem) : RequestContext :=
  { ctx.setInput (appendInputItems ctx.enriched_request.input tool_outputs) with
    new_input_items := ctx.new_input_items ++ tool_outputs }

/-- The call, if the gateway owns it, as an input item. -/
def gatewayCallInput (registry : ToolRegistry) : OutputItem → Option InputItem
  | .functionCall call => if registry.isGatewayOwnedName call.name then some (.functionCall call.toInput) else none
  | _ => none

/-- The calls of the gateway are kept as new items. -/
def appendGatewayCallsToNewInput (ctx : RequestContext) (output_items : List OutputItem) (registry : ToolRegistry) :
    RequestContext :=
  { ctx with new_input_items := ctx.new_input_items ++ output_items.filterMap (gatewayCallInput registry) }

end Engine
end AgenticStack
