import AgenticStack.Events.Types
import AgenticStack.Executor.PendingCalls

/-!
# Translating a function call

A translator turns the events of one function call into the events of its
public shape. It sees the call as the round has accumulated it so far.
-/

namespace AgenticStack
set_option autoImplicit false
open Library

/-- A function call of the round: the item as far as it is known, and the deltas of its arguments. -/
structure AccumulatedFunctionCall where
  item : FunctionToolCall
  output_index : Nat
  buffer : Text

/-- The item's own arguments, once it has them. -/
def AccumulatedFunctionCall.arguments (call : AccumulatedFunctionCall) : Text :=
  if call.item.arguments = [] then call.buffer else call.item.arguments

/-- What happens to a call; `original` is the upstream event. -/
inductive ToolEvent where
  | added (item_id name : Text) (output_index : Nat) (original : Option EventFrame)
  | delta (original : EventFrame)
  | argumentsDone (original : EventFrame)
  | done (original : EventFrame)

/-- So many bytes of a call may be held. -/
def maxPendingFunctionBytes : Nat := 256 * 1024

/-- The arguments of a call must not be too long. -/
def ensureFunctionCallSize (arguments : Text) : ExecutorResult Unit :=
  if maxPendingFunctionBytes < arguments.length then
    .error (.streamError (utf8 "function-call SSE exceeded " ++ decimal maxPendingFunctionBytes ++ utf8 " buffered bytes"))
  else .ok ()

/-- Short arguments are not too long. -/
theorem ensureFunctionCallSize_ok {arguments : Text} (size : arguments.length ≤ maxPendingFunctionBytes) :
    ensureFunctionCallSize arguments = .ok () := by
  rw [ensureFunctionCallSize, if_neg (by omega)]

/-- An event of the gateway's own, at `output_index`. -/
def syntheticEvent (type : SSEEventType) (output_index : Nat) (fields : List (Text × Json)) :
    ExecutorResult EventFrame :=
  match EventFrame.synthetic type fields with
  | some frame => .ok { frame with wire := { frame.wire with output_index := some output_index } }
  | none => .error (.streamError "synthetic event has no wire representation")

/-- What an event of the gateway's own is: its type and wire name, the output item it is about, and every field beside
these. -/
structure EventFrame.Tells (frame : EventFrame) (type : SSEEventType) (name : Text) (output_index : Nat)
    (fields : List (Text × Json)) : Prop where
  event_type : frame.event_type = type
  name : frame.wire.event_type = some name
  output_index : frame.wire.output_index = some output_index
  fields : frame.wire.rest = fields

/-- An event of the gateway has the fields it was made with. -/
theorem syntheticEvent_tells {type : SSEEventType} {name : Text} {output_index : Nat} {fields : List (Text × Json)}
    {frame : EventFrame} (named : type.wireName = some name) (made : syntheticEvent type output_index fields = .ok frame) :
    frame.Tells type name output_index fields := by
  unfold syntheticEvent EventFrame.synthetic at made
  rw [named] at made
  cases made
  exact ⟨rfl, rfl, rfl, rfl⟩

/-- The text under a field of an event. -/
def EventFrame.text (frame : EventFrame) (field : Text) : Option Text :=
  ((Json.obj frame.wire.rest).get field).bind Json.asStr

end AgenticStack
