import AgenticStack.Executor.Rehydrate

/-!
# The turns of a chain

A finished turn appends what it stores to the rows of the chain: its own input
and outputs, or the window of a compaction in place of the input. Rows are
never rewritten.
-/

namespace AgenticStack
set_option autoImplicit false
open Library

/-- What a turn knows of its request: the enriched input, and the items to be stored as its input. -/
structure RequestContext where
  enriched_input : List InputItem
  new_input_items : List InputItem

/-- The items a request stores as its input: public types, without unknown items. -/
def ResponsesInput.newInputItems : ResponsesInput → List InputItem
  | .items xs => xs.filter fun item => !item.isUnknown
  | .text t => (ResponsesInput.text t).toItems

/-- `maybe_compact_context` once the threshold is passed. -/
def maybeCompactContext (uuid7 : Nat → Text) (summarize : List InputItem → ExecutorResult Text) (ctx : RequestContext) :
    ExecutorResult RequestContext := do
  let compacted ← compactItems uuid7 summarize (.items ctx.enriched_input)
  return { enriched_input := compacted, new_input_items := compacted }

/-- `run_compaction_trigger`: the window is stored, its compaction item is the turn's output. -/
def runCompactionTrigger (uuid7 : Nat → Text) (summarize : List InputItem → ExecutorResult Text) (ctx : RequestContext) :
    ExecutorResult (RequestContext × List OutputItem) := do
  let compacted ← compactItems uuid7 summarize (.items ctx.enriched_input)
  let output := match compacted.getLast? with
    | some (.compaction c) => [OutputItem.compaction c]
    | _ => []
  return ({ enriched_input := [], new_input_items := compacted.dropLast }, output)

/-- The rows `execute_turn_with_metadata` adds without a session lease. -/
def persistedItems (ctx : RequestContext) (output_items : List OutputItem) : List InOutItem :=
  ctx.new_input_items.map .input ++ output_items.map .output

/-- What becomes of a turn's input: it is stored, or compacted (automatically,
on a trigger, or by `compact_response`, which has no outputs). -/
inductive TurnKind where
  | plain (outputs : List OutputItem)
  | compacted (outputs : List OutputItem)
  | trigger
  | compactResponse

/-- What a turn stores of its round. -/
def finishTurn (uuid7 : Nat → Text) (summarize : List InputItem → ExecutorResult Text) (ctx : RequestContext) :
    TurnKind → ExecutorResult (List InOutItem)
  | .plain outputs => return persistedItems ctx outputs
  | .compacted outputs => return persistedItems (← maybeCompactContext uuid7 summarize ctx) outputs
  | .trigger => do
    let (ctx, outputs) ← runCompactionTrigger uuid7 summarize ctx
    return persistedItems ctx outputs
  | .compactResponse => return persistedItems (← maybeCompactContext uuid7 summarize ctx) []

/-- One turn of a durable chain: the rows after it. -/
def continueChain (uuid7 : Nat → Text) (summarize : List InputItem → ExecutorResult Text) (rows : List InOutItem)
    (input : ResponsesInput) (kind : TurnKind) : ExecutorResult (List InOutItem) := do
  let enriched_input ← fromResponse rows input
  let new ← finishTurn uuid7 summarize { enriched_input, new_input_items := input.newInputItems } kind
  return rows ++ new

/-- **Whether a chain stays continuable**: for every stored history and every
new input, the durable and the session paths agree exactly when the calls that
the latest compaction superseded have no bearing on the calls after it. -/
theorem continuations_agree_iff (rows : List InOutItem) (input : ResponsesInput) :
    PathsAgree rows input ↔ NoObsoleteCalls (intoInputItems rows ++ input.toItems) :=
  pathsAgree_iff

/-- A chain whose only call is answered by the next turn, the input of which is compacted. -/
def answeredChain : ExecutorResult (List InOutItem) := do
  let summarize : List InputItem → ExecutorResult Text := fun _ => .ok "the lookup found 42"
  let rows ← continueChain (fun _ => "1") summarize [] (.text "look it up")
    (.plain [.functionCall { id := "fc_1", call_id := "call_1", name := "lookup", «namespace» := none,
                             arguments := "\x7b\x7d", status := .completed }])
  continueChain (fun _ => "2") summarize rows (.items [.functionCallOutput { call_id := "call_1", output := .text "42" }])
    (.compacted [.message { id := "msg_1", role := "assistant", status := .completed, content := [] }])

/-- The answer was superseded, so the durable path asks for it again; the session path goes on. -/
theorem answeredChain_rejected : ∃ rows, answeredChain = .ok rows ∧
    fromResponse rows (.text "go on") = .error (.missingOutput "call_1") ∧
    (∃ items, fromSessionResponse (restoredHistory rows) (.text "go on") = .ok items) ∧
    ¬ PathsAgree rows (.text "go on") := by
  refine ⟨_, rfl, rfl, ⟨_, rfl⟩, fun agree => ?_⟩
  obtain ⟨items, accepted⟩ := agree.response.2 ⟨_, rfl⟩
  exact absurd accepted (by intro h; cases h)

end AgenticStack
