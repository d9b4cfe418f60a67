import AgenticStack.Executor.Accumulator.Accumulator

/-!
# A response that comes as a whole

The body of a response that is not streamed. Items that cannot be read are left
out, unless validation is strict.
-/

namespace AgenticStack
set_option autoImplicit false
open Library

section
variable (items : ItemSerde)

/-- One item of a strict response: its id. -/
def strictItemId (newId : NewId) (index : Nat) (item : Json) : ExecutorResult Text :=
  let owner := utf8 "upstream response output[" ++ decimal index ++ utf8 "]"
  let required (field : Text) : ExecutorResult Text :=
    match (item.get field).bind Json.asNonEmptyStr with
    | some s => .ok s
    | none => .error (invalid (missingField owner field))
  do
    let item_id ← required "id"
    let item_type ← required "type"
    if (SSEItemType.parse item_type).isNone then throw (invalid (unsupportedItemType item_type))
    match items.item newId item with
    | .error error => throw (invalid (owner ++ utf8 " is not a valid item: " ++ error))
    | .ok _ => return item_id

/-- Every item of a body must have an id of its own, and the fields of its type. -/
def ensureStrictItems (newIds : Nat → NewId) (index : Nat) (seen : List Text) : List Json → ExecutorResult Unit
  | [] => .ok ()
  | item :: output => do
    let item_id ← strictItemId items (newIds index) index item
    if item_id ∈ seen then throw (invalid (utf8 "upstream response repeats output item '" ++ item_id ++ utf8 "'"))
    ensureStrictItems newIds (index + 1) (item_id :: seen) output

/-- What strict ingestion asks of a whole response. -/
def ensureStrictResponse (newIds : Nat → NewId) (json : Json) : ExecutorResult Unit :=
  match (json.at_ "status").asStr with
  | none => .error (invalid "upstream response has no 'status'")
  | some status =>
    if status ≠ "completed" ∧ status ≠ "failed" ∧ status ≠ "incomplete" then
      .error (invalid (utf8 "upstream response status '" ++ status ++ utf8 "' is not terminal"))
    else match (json.at_ "output").asArray with
      | none => .error (invalid "upstream response has no 'output' array")
      | some output => ensureStrictItems items newIds 0 [] output

/-- The items of a response that can be read, each with the ids that are made for it. -/
def readItemsOpt (newIds : Nat → NewId) (output : List Json) : List OutputItem :=
  output.zipIdx.filterMap fun item => items.itemOpt (newIds item.2) item.1

/-- `ResponseAccumulator::read_json`. -/
def ResponseAccumulator.readJson (serde : SerdeJson) (newIds : Nat → NewId) (body : Text) (conversation_id : Option Text)
    (validation : Validation) : ExecutorResult ResponseAccumulator := do
  let json ← match serde.fromStr body with
    | some json => pure json
    | none => throw (.jsonError (serde.errorText body))
  if validation = .strict then ensureStrictResponse items newIds json
  let response_id ← match (json.at_ "id").asStr with
    | some id => pure id
    | none => throw (.parseError "missing 'id' field in response")
  return {
    validation := validation
    response_id := response_id
    conversation_id := conversation_id
    output := readItemsOpt items newIds ((json.at_ "output").asArray.getD [])
    usage := items.usage (json.at_ "usage")
    status := ((json.at_ "status").asStr.map ResponseStatus.parse).getD .completed
    incomplete_details := items.incompleteDetails (json.at_ "incomplete_details")
    error := match json.at_ "error" with
      | .null => none
      | error => some error
    slots := .empty
    strict_call_ids := []
    stream_lifecycle := .terminal }

end

end AgenticStack
