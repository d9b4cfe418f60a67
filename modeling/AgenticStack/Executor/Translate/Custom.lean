import AgenticStack.Executor.Translate.Calls
import AgenticStack.Library.Transducer
import AgenticStack.Tool.Client

/-!
# The custom tool translator

The translator of a custom call reads the string under `input` while the
arguments of the function call still grow, and emits it in deltas. When the
arguments are complete it emits what the blocking path makes of them.
-/

namespace AgenticStack
set_option autoImplicit false
open Library

/-- What was shown of the input of a call. -/
structure CustomCallState where
  public_item_id : Text
  output_index : Nat
  emitted_input : Text
  input_start : Option Nat
  input_cursor : Nat
  input_done : Bool

/-- The length of the complete escapes and characters before a string's closing quote. -/
def completeJsonStringPrefix (value : Text) : Nat := scanBody value

/-- What follows the opening quote of the string under `input`, when that is the first key. -/
def customInputBody (arguments : Text) : Option Text := do
  let arguments := trimStart arguments
  let arguments := trimStart ((stripPrefix [0x7b, 0x7d] arguments).getD arguments)
  let arguments ← stripPrefix [0x7b] arguments
  let arguments ← stripPrefix "\"input\"" (trimStart arguments)
  let arguments ← stripPrefix ":" (trimStart arguments)
  stripPrefix "\"" (trimStart arguments)

/-- Where the input begins in the arguments. -/
def customInputStart (arguments : Text) : Option Nat :=
  (customInputBody arguments).map fun encoded => arguments.length - encoded.length

section
variable (serde : SerdeJson)

/-- The state once the string under `input` has been found, and where it starts. -/
def locateInput (state : CustomCallState) (arguments : Text) : Option (CustomCallState × Nat) :=
  match state.input_start with
  | some start => some (state, start)
  | none => (customInputStart arguments).map fun start =>
      ({ state with input_start := some start, input_cursor := start }, start)

/-- The part of the input that has become complete. -/
def partialCustomInput (state : CustomCallState) (arguments : Text) :
    ExecutorResult (CustomCallState × Option Text) :=
  match locateInput state arguments with
  | none => .ok (state, none)
  | some (state, start) =>
    if state.input_cursor < start ∨ arguments.length < state.input_cursor then .ok (state, none)
    else
      let encoded := arguments.drop state.input_cursor
      let stop := completeJsonStringPrefix encoded
      if stop = 0 then .ok (state, none)
      else match decodeBody (encoded.take stop) with
        | none => .error (.streamError (utf8 "invalid custom tool input string: " ++
            serde.errorText ([0x22] ++ encoded.take stop ++ [0x22])))
        | some delta => .ok ({ state with input_cursor := state.input_cursor + stop }, if delta = [] then none else some delta)

/-- A part of the input as it is shown. -/
def customDeltaFrame (state : CustomCallState) (delta : Text) : ExecutorResult EventFrame :=
  syntheticEvent .customToolCallInputDelta state.output_index
    [("delta", .str delta), ("item_id", .str state.public_item_id)]

/-- What is shown of the input as it arrives. -/
def incrementalCustomDelta (state : CustomCallState) (arguments : Text) :
    ExecutorResult (CustomCallState × List EventFrame) := do
  ensureFunctionCallSize arguments
  match ← partialCustomInput serde state arguments with
  | (state, none) => return (state, [])
  | (state, some delta) =>
    let frame ← customDeltaFrame state delta
    return ({ state with emitted_input := state.emitted_input ++ delta }, [frame])

/-- The opening of a call of a custom tool. -/
def customAddedFrame (call : AccumulatedFunctionCall) : ExecutorResult EventFrame :=
  syntheticEvent .outputItemAdded call.output_index
    [("item", .obj [("id", .str (publicItemId "ctc_" call.item.id)), ("type", .str "custom_tool_call"),
      ("status", .str "in_progress"), ("call_id", .str call.item.call_id), ("input", .str ""),
      ("name", .str call.item.name)])]

/-- The end of a call of a custom tool. -/
def customDoneFrame (state : CustomCallState) (call : AccumulatedFunctionCall) : ExecutorResult EventFrame :=
  syntheticEvent .outputItemDone state.output_index
    [("item", .obj [("id", .str state.public_item_id), ("type", .str "custom_tool_call"),
      ("status", .str "completed"), ("call_id", .str call.item.call_id), ("input", .str state.emitted_input),
      ("name", .str call.item.name)])]

/-- The rest of the input, and its end; nothing the second time. -/
def finishCustomInput (state : CustomCallState) (arguments : Text) :
    ExecutorResult (CustomCallState × List EventFrame) :=
  if state.input_done then .ok (state, [])
  else do
    ensureFunctionCallSize arguments
    let input := CustomHandler.inputFromArguments serde arguments
    match stripPrefix state.emitted_input input with
    | none => throw (.streamError "authoritative custom tool input contradicts streamed custom tool input")
    | some remaining =>
      let deltas ← if remaining = [] then pure [] else (customDeltaFrame state remaining).map fun frame => [frame]
      let done ← syntheticEvent .customToolCallInputDone state.output_index
        [("input", .str input), ("item_id", .str state.public_item_id)]
      return ({ state with emitted_input := input, input_done := true }, deltas ++ [done])

/-- A step of a call that has started; without the accumulated call it does nothing. -/
def CustomCallState.started (state : Option CustomCallState) (call : Option AccumulatedFunctionCall)
    (step : CustomCallState → AccumulatedFunctionCall → ExecutorResult (CustomCallState × List EventFrame)) :
    ExecutorResult (Option CustomCallState × List EventFrame) :=
  match state, call with
  | none, _ => .error (.streamError "custom translator has no started call")
  | some state, none => .ok (some state, [])
  | some state, some call => (step state call).map fun (state, frames) => (some state, frames)

/-- The events of a call as they are shown to the client. -/
def CustomTranslator.translate (state : Option CustomCallState) (event : ToolEvent)
    (call : Option AccumulatedFunctionCall) : ExecutorResult (Option CustomCallState × List EventFrame) :=
  match event with
  | .added item_id _ output_index _ =>
    let source_id := match call with
      | some call => call.item.id
      | none => item_id
    let state := CustomCallState.mk (publicItemId "ctc_" source_id) output_index [] none 0 false
    match call with
    | some call => (customAddedFrame call).map fun frame => (some state, [frame])
    | none => .ok (some state, [])
  | .delta _ => CustomCallState.started state call fun state call => incrementalCustomDelta serde state call.arguments
  | .argumentsDone _ => CustomCallState.started state call fun state call => finishCustomInput serde state call.arguments
  | .done _ => CustomCallState.started state call fun state call => do
    let (state, frames) ← finishCustomInput serde state call.arguments
    let done ← customDoneFrame state call
    return (state, frames ++ [done])

/-- All events of a call, from a translator that has not started it. -/
def CustomTranslator.run (state : Option CustomCallState) (events : List (ToolEvent × Option AccumulatedFunctionCall)) :
    ExecutorResult (Option CustomCallState × List EventFrame) :=
  transduce (fun state event => CustomTranslator.translate serde state event.1 event.2) state events

end

end AgenticStack
