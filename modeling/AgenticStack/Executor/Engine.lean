import AgenticStack.Executor.Pipeline.Delivery
import AgenticStack.Executor.Rehydrate

/-!
# The engine

A turn asks the model, executes the gateway calls of its answer and asks again,
for as many rounds as it is allowed. What the model, the tools and the clock
answer is given by `Services`.
-/

namespace AgenticStack
set_option autoImplicit false
open Library

/-- The answer to one upstream request: the lines of its stream, each with its length and what it is translated
into, or the length of its body; and what the whole of it is read as. -/
structure UpstreamReply where
  lines : List (Nat × Translation)
  body_bytes : Nat
  result : ExecutorResult ResponsePayload

/-- What the model is asked for. -/
inductive RequestPurpose where
  | inference | summarization
deriving DecidableEq, Repr

/-- A request as it went upstream. -/
structure SentRequest where
  purpose : RequestPurpose
  body : UpstreamRequest

namespace Engine

/-- What a run depends on: the derived readers and writers, the declared tools, the estimate of a context's tokens,
fresh ids for the `i`-th part of what the `n`-th request led to, and the answer to the `n`-th request. -/
structure Services where
  serde : SerdeJson
  values : SerdeValues
  toolsResolved : Option ToolChoice → ExecutorResult Unit
  namespaces : Option NamespaceMap
  estimateInputTokens : ResponsesInput → Nat
  uuid7 (request part : Nat) : Text
  upstream (request : Nat) : UpstreamReply

/-- The agent and its orchestration: `sent` are the requests that went upstream. -/
structure State where
  request : RequestContext
  delivery : StreamDelivery
  registry : ToolRegistry
  budget : Nat
  sent : List SentRequest

/-- A step of the engine, which changes the state of a turn and may fail. -/
abbrev EngineM (α : Type) := EStateM ExecutorError State α

/-- A step that changes the request. -/
def onRequest (f : RequestContext → RequestContext) : EngineM Unit := modify fun s => { s with request := f s.request }

/-- A step that spends of the budget. -/
def onBudget {α : Type} (x : EStateM ExecutorError Nat α) : EngineM α :=
  onPart State.budget (fun s budget => { s with budget }) x

/-- A step that shows something. -/
def onDelivery {α : Type} (x : EStateM ExecutorError StreamDelivery α) : EngineM α :=
  onPart State.delivery (fun s delivery => { s with delivery }) x

/-- Events are only made for a streaming client. -/
def onStream (x : OutletM Unit) : EngineM Unit := fun s =>
  let close (outlet : Outlet) : State := { s with delivery := { s.delivery with outlet := some outlet } }
  match s.delivery.outlet with
  | none => .ok () s
  | some outlet => match x outlet with
    | .ok () outlet => .ok () (close outlet)
    | .error e outlet => .error e (close outlet)

/-- `i64::saturating_add`. -/
def saturatingAddI64 (a b : Int) : Int := max (-2 ^ 63) (min (a + b) (2 ^ 63 - 1))

/-- The tokens of two requests. -/
def addUsage (total usage : ResponseUsage) : ResponseUsage where
  input_tokens := saturatingAddI64 total.input_tokens usage.input_tokens
  output_tokens := saturatingAddI64 total.output_tokens usage.output_tokens
  total_tokens := saturatingAddI64 total.total_tokens usage.total_tokens
  cached_tokens := saturatingAddI64 total.cached_tokens usage.cached_tokens
  reasoning_tokens := saturatingAddI64 total.reasoning_tokens usage.reasoning_tokens

/-- The tokens of a request are added, where any were reported. -/
def accumulateUsage (total usage : Option ResponseUsage) : Option ResponseUsage :=
  match usage with
  | none => total
  | some usage => some (match total with
    | none => usage
    | some current => addUsage current usage)

/-- No tokens. -/
def defaultUsage : ResponseUsage := ⟨0, 0, 0, 0, 0⟩

/-- So many rounds may end in calls of the gateway. -/
def maxGatewayToolRounds : Nat := 10

/-- What comes after a round. -/
inductive LoopDecision where
  | continue | done | requiresClientAction
  | incomplete (reason : Text)
deriving DecidableEq, Repr

/-- A round goes on where the gateway ran calls and the client has none to run. -/
def classifyRound (has_client_owned_calls : Bool) (gateway_results : List GatewayCallResult) (round max_rounds : Nat) :
    LoopDecision :=
  if has_client_owned_calls then .requiresClientAction
  else if gateway_results.isEmpty then .done
  else if max_rounds ≤ round + 1 then
    .incomplete (utf8 "gateway tool execution exceeded " ++ decimal max_rounds ++ utf8 " rounds")
  else .continue

/-- Whether the reasoning has a text. -/
def hasPlaintextReasoning (reasoning : ReasoningOutput) : Bool := reasoning.content.any fun content => content.text ≠ []

/-- Whether the reasoning has a state that only its model reads. -/
def hasOpaqueReasoningState (reasoning : ReasoningOutput) : Bool :=
  reasoning.encrypted_content.any fun
    | .null => false
    | _ => true

/-- No reasoning may be sent without its text. -/
def validateReasoningForVllm (input : ResponsesInput) : ExecutorResult Unit :=
  match input with
  | .text _ => .ok ()
  | .items items =>
    let opaque_only := items.any fun
      | .reasoning reasoning => hasOpaqueReasoningState reasoning && !hasPlaintextReasoning reasoning
      | _ => false
    if opaque_only then .error (.invalidRequest (utf8 "reasoning item contains encrypted state without plaintext reasoning content and cannot be replayed to vLLM"))
    else .ok ()

/-- The plaintext of all parts, a line each. -/
def joinLines : List Text → Text
  | [] => []
  | [line] => line
  | line :: lines => line ++ utf8 "\n" ++ joinLines lines

/-- One reasoning item for the model, if it has plaintext. -/
def prepareReasoningItem : InputItem → Option InputItem
  | .reasoning reasoning =>
    if hasPlaintextReasoning reasoning then
      some (.reasoning { reasoning with
        content := [ReasoningTextContent.new (joinLines (reasoning.content.map (·.text)))]
        summary := []
        encrypted_content := none })
    else none
  | item => some item

/-- The prepared input; on an error the input is as it was. -/
def prepareReasoningForVllm (input : ResponsesInput) : ExecutorResult Unit × ResponsesInput :=
  match validateReasoningForVllm input with
  | .error e => (.error e, input)
  | .ok () => match input with
    | .text text => (.ok (), .text text)
    | .items items => (.ok (), .items (items.filterMap prepareReasoningItem))

section
variable (services : Services)

/-- A body goes upstream; the answer to it. -/
def send (purpose : RequestPurpose) (body : UpstreamRequest) : EngineM UpstreamReply := do
  let s ← get
  set { s with sent := s.sent ++ [SentRequest.mk purpose body] }
  return services.upstream s.sent.length

/-- `fetch_blocking_payload` of the agent's own request. -/
def fetchBlockingPayload : EngineM ResponsePayload := do
  let s ← get
  let body ← ofExcept (s.request.upstreamRequest services.toolsResolved services.namespaces false)
  let reply ← send services .inference body
  onBudget (consumeBudget reply.body_bytes)
  let payload ← ofExcept reply.result
  return s.request.injectIds payload

/-- `fetch_stream_payload`: the response, and the frames still held back. -/
def fetchStreamPayload (output_offset : Nat) : EngineM (ResponsePayload × List EventFrame) := do
  let s ← get
  let body ← ofExcept (s.request.upstreamRequest services.toolsResolved services.namespaces true)
  let reply ← send services .inference body
  forM reply.lines fun line => do
    onBudget (consumeBudget line.1)
    onDelivery (StreamDelivery.accept s.request output_offset services.serde services.values s.registry line.2)
  let payload ← ofExcept reply.result
  let deferred_events ← onDelivery (modifyGet StreamDelivery.takeDeferredEvents)
  return (s.request.injectIds payload, deferred_events)

/-- `str::trim_end`. -/
def trimEnd : Text → Text
  | [] => []
  | b :: s => if isBlank (b :: s) then [] else b :: trimEnd s

/-- The text without the white space around it. -/
def trim (s : Text) : Text := trimEnd (trimStart s)

/-- The text of the messages of an output. -/
def responseOutputText (output : List OutputItem) : Option Text :=
  let texts := output.flatMap fun
    | .message message => message.content.map fun content => trim content.text
    | _ => []
  let text := joinLines (texts.filter (· ≠ []))
  if text = [] then none else some text

/-- The summary, where the model ended well and with a text. -/
def completedSummaryText (response : ResponsePayload) : ExecutorResult Text :=
  if response.status ≠ "completed" ∨ response.error.isSome then
    let details := (response.error.map Json.write).or (response.incomplete_details.bind (·.reason))
    .error (.compactionFailed response.status (details.getD "upstream returned no failure details"))
  else match responseOutputText response.output with
    | some text => .ok text
    | none => .error (.compactionFailed response.status "upstream returned no summary text")

/-- What the model is asked for a summary with. -/
def compactionPrompt : Text :=
  "You are performing a CONTEXT CHECKPOINT COMPACTION. Create a concise handoff summary that preserves current progress, decisions, constraints, unresolved work, and critical references for the next model. Return only the summary."

/-- The request that asks for a summary of `items`: it declares no tools. -/
def summaryContext (model : Text) (items : List InputItem) (instructions : Option Text) (response_id : Text) :
    RequestContext :=
  let payload (input : ResponsesInput) : RequestPayload :=
    { model, input, instructions, previous_response_id := none, conversation_id := none, tool_choice := none
      store := false, context_management := none }
  { original_request := payload (.items [])
    enriched_request := payload (.items (items ++
      [.message { id := none, role := "user", status := none, content := .text compactionPrompt }]))
    new_input_items := [], response_id, conversation_id := none, continuation := none }

/-- `compact_items`, with the usage of the summary. -/
def compactItems (model : Text) (input : ResponsesInput) (instructions : Option Text) :
    EngineM (List InputItem × ResponseUsage) := do
  let original_items := input.toItems
  if !original_items.any itemHasMeaningfulContext then
    throw (.invalidRequest "compaction requires non-empty input or previous_response_id context")
  let s ← get
  let uuid7 := services.uuid7 s.sent.length
  let compacted := retainedUserWindow uuid7 original_items
  let summary_items := original_items.filter fun item => !item.isCompactionTrigger
  let ctx := summaryContext model summary_items instructions (utf8 "resp_" ++ uuid7 (original_items.length + 1))
  let body ← ofExcept (ctx.upstreamRequest (fun _ => .ok ()) none false)
  let reply ← send services .summarization body
  let response ← ofExcept reply.result
  let summary ← ofExcept (completedSummaryText (ctx.injectIds response))
  return (finishCompactedWindow (uuid7 original_items.length) compacted summary, response.usage.getD defaultUsage)

/-- The first threshold configured for compaction. -/
def compactThreshold (context_management : Option (List ContextManagement)) : Option Nat :=
  ((context_management.getD []).find? (·.type_ = utf8 "compaction")).bind (·.compact_threshold)

/-- `maybe_compact_context`: the usage of the summary, if there was one. -/
def maybeCompactContext : EngineM (Option ResponseUsage) := do
  let s ← get
  match compactThreshold s.request.enriched_request.context_management with
  | none => return none
  | some threshold =>
    if services.estimateInputTokens s.request.enriched_request.input ≤ threshold then return none
    let request := s.request.enriched_request
    let (compacted, usage) ← compactItems services request.model request.input request.instructions
    onRequest fun ctx => { ctx.setInput (.items compacted) with
      new_input_items := compacted
      continuation := ctx.continuation.map ResponseContinuation.markHistoryReplaced }
    return some usage

/-- Before the first round the reasoning of the client is checked; one that was compacted is prepared. -/
def prepareInitialReasoningForVllm (round : Nat) (compacted : Bool) : EngineM Unit := do
  if round = 0 ∧ compacted = false then
    let s ← get
    let (result, input) := prepareReasoningForVllm s.request.enriched_request.input
    onRequest fun ctx => ctx.setInput input
    ofExcept result

/-- What is to be stored of a round's output: a session takes all of it, in its place; else the gateway's calls. -/
def recordRoundHistory (ctx : RequestContext) (output_items : List OutputItem) (registry : ToolRegistry)
    (public_output_count : Nat) : RequestContext :=
  match ctx.continuation, ctx.original_request.conversation_id with
  | some continuation, none =>
    { ctx with
      new_input_items := ctx.new_input_items ++
        (output_items.filter fun
          | .mcpListTools _ => false
          | _ => true).filterMap OutputItem.toInputItem
      continuation := some (continuation.markOutputsRecorded public_output_count) }
  | _, _ => appendGatewayCallsToNewInput ctx output_items registry

/-- The answers of the calls are added to the request. -/
def recordGatewayResults (results : List GatewayCallResult) : EngineM Unit :=
  onRequest fun ctx => appendToolOutputs ctx (results.map (·.input_item))

/-- The calls of a round are run, with the events that open and end them. -/
def executeAndEmitOutputCalls (calls : List GatewayCallPlan) (round : Nat) : EngineM (List GatewayCallResult) := do
  onStream (emitGatewayStartEvents services.values (calls.map (·.events)))
  let results ← onBudget (executeWithBudget calls round)
  onStream (emitGatewayCompletedEvents services.values (completePlans calls results))
  return results

/-- The events of a call and the frames held back for its item. -/
def emitItemEvents (ctx : RequestContext) (output_offset : Nat) (calls : List GatewayCallPlan)
    (plans : List GatewayEventPlan) (initial_event_run_len : Nat) (deferred_events : List EventFrame) (index : Nat) :
    EngineM Unit := do
  match GatewayScheduler.callIndexForItem calls index with
  | none => pure ()
  | some call_index =>
    let plan := plans[call_index]?.toList
    if initial_event_run_len ≤ call_index then onStream (emitGatewayStartEvents services.values plan)
    onStream (emitGatewayCompletedEvents services.values plan)
  onStream (emitDeferredStreamEvents ctx output_offset
    (deferred_events.filter fun frame => frame.wire.output_index = some index))

/-- The round's calls, their events among the frames held back. -/
def executeRoundOutput (output_items : List OutputItem) (output_offset round : Nat) (deferred_events : List EventFrame) :
    EngineM (List GatewayCallResult) := do
  let s ← get
  let calls := GatewayScheduler.plan output_items s.registry output_offset
  if deferred_events.isEmpty ∨ s.delivery.outlet.isNone then executeAndEmitOutputCalls services calls round
  else
    let initial_event_run_len := GatewayScheduler.initialEventRunLen calls output_items s.registry
    onStream (emitGatewayStartEvents services.values ((calls.map (·.events)).take initial_event_run_len))
    let results ← onBudget (executeWithBudget calls round)
    forM (List.range output_items.length) (emitItemEvents services s.request output_offset calls
      (completePlans calls results) initial_event_run_len deferred_events)
    onStream (emitDeferredStreamEvents s.request output_offset
      (deferred_events.filter fun frame => !frame.wire.output_index.any (· < output_items.length)))
    return results

/-- `finalize_loop`. -/
def finalizeLoop (payload : ResponsePayload) (combined_output : List OutputItem) (combined_usage : Option ResponseUsage)
    (ctx : RequestContext) : ResponsePayload :=
  ctx.injectIds { payload with output := combined_output, usage := combined_usage }

/-- How a round leaves the loop. -/
inductive RoundEnd where
  | finished (payload : ResponsePayload)
  | continue (combined_output : List OutputItem) (combined_usage : Option ResponseUsage)

/-- Whether a response of that status has failed. -/
def isFailedStatus (status : Text) : Bool := status = utf8 "error" || status = utf8 "failed"

/-- The model's answer to a round. -/
def fetchPayload (stream_upstream : Bool) (round output_offset : Nat) : EngineM (ResponsePayload × List EventFrame) := do
  if stream_upstream then
    let fetched ← fetchStreamPayload services output_offset
    if round = 0 then modify fun s => { s with registry := s.registry.clearMcpListToolItems }
    return fetched
  else return (← fetchBlockingPayload services, [])

/-- What follows the answer to a round. -/
def settleRound (round : Nat) (payload : ResponsePayload) (current_output : List OutputItem) (output_offset : Nat)
    (deferred_events : List EventFrame) (combined_output : List OutputItem) (combined_usage : Option ResponseUsage) :
    EngineM RoundEnd := do
  let finish (combined_output : List OutputItem) : EngineM ResponsePayload := do
    return finalizeLoop payload combined_output combined_usage (← get).request
  if isFailedStatus payload.status then return .finished (← finish (combined_output ++ current_output))
  let registry := (← get).registry
  let gateway_results ← executeRoundOutput services current_output output_offset round deferred_events
  let public_output ← ofExcept (publicOutputItems services.serde current_output registry gateway_results)
  let combined_output := combined_output ++ public_output
  onRequest fun ctx => recordRoundHistory ctx current_output registry combined_output.length
  if payload.status = "incomplete" then
    recordGatewayResults gateway_results
    return .finished (← finish combined_output)
  match classifyRound (hasClientOwnedCalls current_output registry) gateway_results round maxGatewayToolRounds with
  | .requiresClientAction =>
    recordGatewayResults gateway_results
    return .finished (← finish combined_output)
  | .done => return .finished (← finish combined_output)
  | .incomplete reason =>
    recordGatewayResults gateway_results
    let payload ← finish combined_output
    return .finished { payload with status := "incomplete", incomplete_details := some ⟨some reason⟩ }
  | .continue =>
    onRequest fun ctx =>
      { ctx with enriched_request := { ctx.enriched_request with
          tool_choice := some .auto
          input := appendOutputItemsToInput ctx.enriched_request.input current_output } }
    recordGatewayResults gateway_results
    return .continue combined_output combined_usage

/-- A round: the history may be compacted, the model is asked and its output settled. -/
def runRound (stream_upstream : Bool) (round : Nat) (combined_output : List OutputItem)
    (combined_usage : Option ResponseUsage) : EngineM RoundEnd := do
  let compaction_usage ← maybeCompactContext services
  prepareInitialReasoningForVllm round compaction_usage.isSome
  let combined_usage := accumulateUsage combined_usage compaction_usage
  let output_offset := combined_output.length
  let (payload, deferred_events) ← fetchPayload services stream_upstream round output_offset
  settleRound services round { payload with usage := none, output := [] } payload.output output_offset deferred_events
    combined_output (accumulateUsage combined_usage payload.usage)

/-- The rounds that are left; none is left after `unreachable!`. -/
def runRounds (stream_upstream : Bool) : Nat → List OutputItem → Option ResponseUsage → EngineM (Option ResponsePayload)
  | 0, _, _ => return none
  | left + 1, combined_output, combined_usage => do
    match ← runRound services stream_upstream (maxGatewayToolRounds - (left + 1)) combined_output combined_usage with
    | .finished payload => return some payload
    | .continue combined_output combined_usage => runRounds stream_upstream left combined_output combined_usage

/-- `EngineOrchestration::run`. -/
def run (stream_upstream : Bool) : EngineM (Option ResponsePayload) := do
  let s ← get
  runRounds services stream_upstream maxGatewayToolRounds (s.registry.mcp_list_tool_items.map .mcpListTools) none

/-- `run_compaction_trigger`. -/
def runCompactionTrigger : EngineM ResponsePayload := do
  let s ← get
  let request := s.request.enriched_request
  let (compacted, usage) ← compactItems services request.model request.input request.instructions
  let output := match compacted.getLast? with
    | some (.compaction compaction) => [OutputItem.compaction compaction]
    | _ => []
  onRequest fun ctx => { ctx.setInput (.items []) with
    new_input_items := compacted.dropLast
    continuation := ctx.continuation.map ResponseContinuation.markHistoryReplaced }
  return s.request.injectIds
    { id := s.request.response_id, model := request.model, status := "completed", output, usage := some usage
      incomplete_details := none, error := none
      previous_response_id := s.request.original_request.previous_response_id
      conversation_id := s.request.conversation_id, instructions := request.instructions }

/-- `run_until_gateway_tools_complete`, once the registry is built. -/
def runUntilGatewayToolsComplete (stream_upstream : Bool) : EngineM (Option ResponsePayload) := do
  let s ← get
  if s.request.original_request.input.hasCompactionTrigger then
    let payload ← runCompactionTrigger services
    onStream do
      emitResponseStartEvents services.values payload
      let event_plans := compactionEventPlans payload.output 0
      emitGatewayStartEvents services.values event_plans
      emitGatewayCompletedEvents services.values event_plans
    return some payload
  else run services stream_upstream

/-- `ExecuteRequest::run`, once the history is read; `prepareRequestTools` is what the preparation of the declared tools
makes of the context. -/
def execute (prepareRequestTools : RequestContext → ExecutorResult RequestContext) (stream_upstream : Bool) :
    EngineM (Option ResponsePayload) := do
  let s ← get
  if !s.request.enriched_request.input.hasCompactionTrigger then
    ofExcept (validateReasoningForVllm s.request.enriched_request.input)
  let request ← ofExcept (prepareRequestTools s.request)
  onRequest fun _ => request
  runUntilGatewayToolsComplete services stream_upstream

end
end Engine
end AgenticStack
