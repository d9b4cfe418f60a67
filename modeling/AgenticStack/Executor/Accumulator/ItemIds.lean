import AgenticStack.Executor.Accumulator.StrictRuns
import AgenticStack.Types.Encode
import AgenticStack.Library.JsonOrder

/-!
# The ids of streamed items

An item has the id its upstream gave it, or one that is made while it is read. An event that streams a
part of an item keeps the id, and a finished copy of a call brings its own, if it has one.
-/

namespace AgenticStack
set_option autoImplicit false
open Library

/-- `semantically_equal`: two items are written as the same value. -/
def semanticallyEqual (left right : OutputItem) : Bool :=
  (Json.obj left.toFields).canonical = (Json.obj right.toFields).canonical

section
variable {newId : NewId} {fields : List (Text × Json)} {x : Text}

/-- What is read of a field that may be missing. -/
theorem optionField_id {id : Option Text} (read : optionField fields "id" Json.asStr = some id) :
    (fields.lookup (utf8 "id")).bind Json.asStr = id := (optionField_eq rfl read).symm

/-- The other fields are there when the tag of the item is taken out. -/
theorem lookup_untyped {key : Text} (other : (key != utf8 "type") = true) :
    (fields.filter fun field => field.1 != utf8 "type").lookup key = fields.lookup key :=
  @lookup_filter_keys Text Json _ _ fields key (fun key => key != utf8 "type") other

/-- The id is there when the tag of the item is taken out. -/
theorem lookup_id_untyped : (fields.filter fun field => field.1 != utf8 "type").lookup (utf8 "id") = fields.lookup (utf8 "id") :=
  lookup_untyped (by decide)

end

namespace ActiveItem

variable {items : ItemSerde} {newId : NewId} {active : ActiveItem} {payload : EventPayload}

/-- What is left of a function call once it is finished. -/
theorem finalize_functionCall {call : FunctionToolCall} {arguments : Text} (settled : call.arguments = [] → arguments = []) :
    finalize (.functionCall call arguments) = some (.functionCall { call with status := .completed }) := by
  have kept : (if arguments ≠ [] ∧ call.arguments = [] then arguments else call.arguments) = call.arguments :=
    if_neg fun both => both.1 (settled both.2)
  show some (OutputItem.functionCall { call with arguments := if arguments ≠ [] ∧ call.arguments = [] then arguments else call.arguments, status := .completed }) = _
  rw [kept]

/-- What a function call and its finished copy make together. -/
def FunctionToolCall.joined (call done : FunctionToolCall) (buffer : Text) : FunctionToolCall where
  id := if done.id = [] then call.id else done.id
  call_id := if done.call_id = [] then call.call_id else done.call_id
  name := if done.name = [] then call.name else done.name
  «namespace» := done.namespace.or call.namespace
  arguments := if done.arguments = [] then if call.arguments = [] then buffer else call.arguments else done.arguments
  status := .completed

/-- A call that was merged with its last event is finished as the event shows it. -/
theorem finalize_mergeDone (call done : FunctionToolCall) (buffer : Text) :
    finalize (.functionCall (call.mergeDone done buffer).1 (call.mergeDone done buffer).2) =
      some (.functionCall (FunctionToolCall.joined call done buffer)) := by
  unfold FunctionToolCall.mergeDone FunctionToolCall.joined
  by_cases bare : done.arguments = []
  · by_cases unset : call.arguments = []
    · simp only [if_pos bare, if_pos unset]
      exact finalize_functionCall fun _ => rfl
    · simp only [if_pos bare, if_neg unset]
      exact finalize_functionCall fun no => absurd no unset
  · simp only [if_neg bare]
    exact finalize_functionCall fun _ => rfl

/-- The id the item has once it is finished. -/
def id (active : ActiveItem) : Option Text := active.finalize.bind OutputItem.id

/-- The commands of a shell call leave its id as it is. -/
theorem id_applyShellCommand (item : ShellCall) (stream : Option (List Bool)) (buffer : Text) (index : Nat) (update : ShellCommandUpdate)
    {pid : Text} {i k : Nat} :
    (applyShellCommand items newId item stream buffer (.shellCallCommand pid i k update) index update).1.id = item.id := by
  cases update with
  | added command =>
    unfold applyShellCommand
    dsimp only
    split <;> rfl
  | delta delta =>
    unfold applyShellCommand
    dsimp only
    split <;> rfl
  | done command =>
    unfold applyShellCommand
    dsimp only
    split
    · rfl
    · unfold ShellCall.applyDone
      dsimp only
      split <;> rfl

/-- An event keeps the id. -/
theorem id_applyEvent : (active.applyEvent items newId payload).1.id = active.id := by
  unfold applyEvent
  split
  · exact id_applyShellCommand ..
  · rfl
  · rename_i r _ _ _ _
    simp only [ReasoningOutput.applyDone]
    split <;> rfl
  · rename_i r _ _ _ _
    simp only [ReasoningOutput.applyDone]
    split <;> rfl
  all_goals rfl

end ActiveItem
end AgenticStack
