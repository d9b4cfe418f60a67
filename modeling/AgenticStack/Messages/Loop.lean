import AgenticStack.Messages.Seam
import AgenticStack.Executor.Error

/-!
# The loop over whole messages

Each round sends the request and looks at the assistant turn it gets. A turn that
asks for gateway tools only is executed and added to the request; any other ends
the loop.
-/

namespace AgenticStack.Messages
set_option autoImplicit false
open Library

/-- So many rounds may end in calls of the gateway. -/
def MAX_GATEWAY_TOOL_ROUNDS : Nat := 10

/-- A message the loop ends with, or the content to go on with and its gateway calls. -/
inductive LoopStep where
  | done (message : Json)
  | execute (content gateway_calls : List Json)

/-- A message ends the loop, or has calls to run. -/
def inspectMessage (map : GatewayToolMap) (message : Json) : LoopStep :=
  if (message.at_ "type").asStr = some (utf8 "error") then .done message
  else match (message.at_ "content").asArray with
    | none => .done message
    | some content =>
      let gateway_calls := content.filter (isGatewayToolUse map)
      let has_client_tool_use := content.any (isClientToolUse map)
      if gateway_calls.isEmpty = true ∨ (message.at_ "stop_reason").asStr ≠ some (utf8 "tool_use") then .done message
      else if has_client_tool_use then .done (setField message "content" (.arr (stripGatewayToolUse content map)))
      else .execute content gateway_calls

/-- The call that is dispatched, if one is, and the block for the model. -/
structure ExecutedCall where
  dispatched : Option FunctionToolCall
  result : GatewayToolResult

/-- What is sent upstream in each round, and the calls that are dispatched. -/
structure RoundTrace where
  body : Json
  calls : List FunctionToolCall

/-- The calls that were run. -/
def dispatchedCalls (executed : List ExecutedCall) : List FunctionToolCall := executed.filterMap (·.dispatched)

section
variable (serde : SerdeJson) (tools : MessagesTools)

/-- A call is run, or answered that nothing runs it. -/
def executeCall (round index : Nat) (id name : Text) (input : List (Text × Json)) : ExecutedCall :=
  let call := toolUseToCall id name (.obj input) tools.map
  let (output, is_error) := tools.dispatch round index name call
  ⟨some call, id, output, is_error⟩

/-- A tool use is run, unless it is beyond the bound. -/
def executeGatewayCall (round allowed_searches index : Nat) (block : Json) : ExecutedCall :=
  let id := strField block "id"
  let name := strField block "name"
  if allowed_searches ≤ index then ⟨none, webSearchBudgetExhaustedResult id⟩
  else match block.get "input" with
    | some (.obj input) => executeCall tools round index id name input
    | _ => ⟨none, id, "invalid tool arguments (not a JSON object); tool was not run", true⟩

/-- The tool uses of a message are run one by one. -/
def executeGatewayCalls (round allowed_searches : Nat) (gateway_calls : List Json) : List ExecutedCall :=
  gateway_calls.mapIdx (executeGatewayCall tools round allowed_searches)

/-- The message of a loop that does not come to an end. -/
def roundsExceeded : Json :=
  .obj [("type", .str "error"), ("error", .obj [("type", .str "api_error"),
    ("message", .str (utf8 "gateway tool loop exceeded " ++ decimal MAX_GATEWAY_TOOL_ROUNDS ++ utf8 " rounds"))])]

/-- The rounds that are left, from `round` on. `respond` is what upstream answers in a round. -/
def messagesRounds (respond : Nat → ExecutorResult Text) : Nat → Nat → MessagesRequestContext →
    List RoundTrace × ExecutorResult Json
  | 0, _, _ => ([], .ok roundsExceeded)
  | rounds + 1, round, ctx =>
    match respond round with
    | .error error => ([⟨ctx.upstreamBody, []⟩], .error error)
    | .ok text => match serde.fromStr text with
      | none => ([⟨ctx.upstreamBody, []⟩], .error (.jsonError (serde.errorText text)))
      | some message => match inspectMessage tools.map message with
        | .done message => ([⟨ctx.upstreamBody, []⟩], .ok message)
        | .execute content gateway_calls =>
          let (allowed_searches, reserved) := ctx.reserveSearches gateway_calls.length
          let executed := executeGatewayCalls tools round allowed_searches gateway_calls
          let (later, answer) := messagesRounds respond rounds (round + 1) (reserved.appendRound content (executed.map (·.result)))
          (⟨ctx.upstreamBody, dispatchedCalls executed⟩ :: later, answer)

/-- The loop from its first round on. -/
def runMessagesLoop (respond : Nat → ExecutorResult Text) (ctx : MessagesRequestContext) : List RoundTrace × ExecutorResult Json :=
  messagesRounds serde tools respond MAX_GATEWAY_TOOL_ROUNDS 0 (ctx.forceStream false)

end

end AgenticStack.Messages
