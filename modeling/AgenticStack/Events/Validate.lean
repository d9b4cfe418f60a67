import AgenticStack.Events.Normalize

/-!
# The shape of an event

What strict validation asks of one event, whatever came before it.
-/

namespace AgenticStack
set_option autoImplicit false
open Library

/-- What the event of an item was found to show. -/
structure ValidatedItem where
  item_id : Text
  output_index : Nat
  item_type : SSEItemType
  done_item : Option OutputItem

/-- What a frame was found to show: an item, or nothing. -/
structure ValidatedFrame where
  item : Option ValidatedItem

/-- The error of a field that is missing or of another type. -/
def missingField (owner field : Text) : Text := owner ++ utf8 " has no valid '" ++ field ++ utf8 "'"

/-- The error of an item of a type that is not handled. -/
def unsupportedItemType (name : Text) : Text := utf8 "upstream output item type '" ++ name ++ utf8 "' is unsupported"

/-- A required field, read by `read`. -/
def requiredField {α : Type} (read : Json → Option α) (value : List (Text × Json)) (field owner : Text) : Except Text α :=
  match (value.lookup field).bind read with
  | some v => .ok v
  | none => .error (missingField owner field)

/-- A text that is not empty. -/
def Json.asNonEmptyStr (v : Json) : Option Text := v.asStr.filter (· ≠ [])

/-- A field that must be a text that is not empty. -/
def requiredStr : List (Text × Json) → Text → Text → Except Text Text := requiredField Json.asNonEmptyStr

/-- A field that must be a text. -/
def requiredString : List (Text × Json) → Text → Text → Except Text Text := requiredField Json.asStr

/-- A field that must be an object. -/
def requiredObject : List (Text × Json) → Text → Text → Except Text (List (Text × Json)) := requiredField Json.asObject

/-- A field that must be a 32-bit number. -/
def requiredU32 : List (Text × Json) → Text → Text → Except Text Nat :=
  requiredField fun v => v.asU64.filter (· < 2 ^ 32)

/-- The kind of item that an event of this type is about. -/
def expectedItemType : SSEEventType → Option SSEItemType
  | .outputTextDelta | .outputTextDone | .contentPartAdded | .contentPartDone => some .message
  | .functionCallArgumentsDelta | .functionCallArgumentsDone => some .functionCall
  | .customToolCallInputDelta | .customToolCallInputDone => some .customToolCall
  | .shellCallCommandAdded | .shellCallCommandDelta | .shellCallCommandDone => some .shellCall
  | .reasoningTextDelta | .reasoningTextDone | .reasoningPartAdded | .reasoningPartDone | .reasoningSummaryTextDelta
  | .reasoningSummaryTextDone => some .reasoning
  | .webSearchCallInProgress | .webSearchCallSearching | .webSearchCallCompleted => some .webSearchCall
  | .mcpCallInProgress | .mcpCallArgumentsDelta | .mcpCallArgumentsDone | .mcpCallCompleted | .mcpCallFailed => some .mcpCall
  | .mcpListToolsInProgress | .mcpListToolsCompleted | .mcpListToolsFailed => some .mcpListTools
  | .responseCreated | .responseInProgress | .responseCompleted | .responseFailed | .responseIncomplete
  | .outputItemAdded | .outputItemDone | .fileSearchCallSearching | .fileSearchCallCompleted | .other => none

/-- The id and the type of an item. -/
def outputItemIdentity (item : List (Text × Json)) (owner : Text) : Except Text (Text × SSEItemType) := do
  let item_id ← match ((item.lookup (utf8 "id")).bind Json.asNonEmptyStr).or ((item.lookup (utf8 "item_id")).bind Json.asNonEmptyStr) with
    | some item_id => pure item_id
    | none => throw (missingField owner "id")
  let name ← requiredStr item "type" owner
  match SSEItemType.parse name with
  | some item_type => return (item_id, item_type)
  | none => throw (unsupportedItemType name)

/-- The status that a response has in an event of this type. -/
def expectedStatus : SSEEventType → Option Text
  | .responseCreated | .responseInProgress => some "in_progress"
  | .responseCompleted => some "completed"
  | .responseFailed => some "failed"
  | .responseIncomplete => some "incomplete"
  | _ => none

/-- The event of a response must have the id and the status that its type asks for. -/
def validateResponseEvent (frame : EventFrame) (event_name : Text) : Except Text Unit := do
  let response ← requiredObject frame.wire.rest "response" event_name
  let _ ← requiredStr response "id" "upstream response"
  let status ← requiredStr response "status" "upstream response"
  match expectedStatus frame.event_type with
  | none => return ()
  | some expected =>
    if status = expected then return ()
    else throw (utf8 "upstream stream event '" ++ event_name ++ utf8 "' has status '" ++ status ++
      utf8 "', expected '" ++ expected ++ utf8 "'")

/-- The index that the event of an item must have. -/
def requiredOutputIndex (frame : EventFrame) (owner : Text) : Except Text Nat :=
  match frame.wire.output_index.filter (· < 2 ^ 32) with
  | some index => .ok index
  | none => .error (missingField owner "output_index")

/-- The item as a value, with the id it is known by. -/
def canonicalFields (item : List (Text × Json)) (item_id : Text) : Json :=
  if ((item.lookup (utf8 "id")).bind Json.asNonEmptyStr).isNone then .obj (insertField item "id" (.str item_id)) else .obj item

section
variable (items : ItemSerde) (newId : NewId)

/-- The item that an event shows, read in full where the event ends it. -/
def validateOutputItem (frame : EventFrame) (event_name : Text) (complete : Bool) : Except Text ValidatedItem := do
  let output_index ← requiredOutputIndex frame event_name
  let item ← requiredObject frame.wire.rest "item" event_name
  let (item_id, item_type) ← outputItemIdentity item "output item"
  if complete = false then return ⟨item_id, output_index, item_type, none⟩
  else match items.item newId (canonicalFields item item_id) with
    | .error error => throw (utf8 "upstream stream output item is invalid: " ++ error)
    | .ok output =>
      if SSEItemType.ofItem output = some item_type then return ⟨item_id, output_index, item_type, some output⟩
      else throw (unsupportedItemType item_type.asStr)

/-- Whether the event is one of a shell command. -/
def SSEEventType.isShellCommand : SSEEventType → Bool
  | .shellCallCommandAdded | .shellCallCommandDelta | .shellCallCommandDone => true
  | _ => false

/-- Only the command events of a native shell call may leave out the id. -/
def validateEventItemId (frame : EventFrame) (event_name : Text) : Except Text Text :=
  if frame.event_type.isShellCommand = true ∧ (frame.wire.rest.lookup (utf8 "item_id")).isNone = true then .ok []
  else requiredStr frame.wire.rest "item_id" event_name

/-- The index of a part that an event of this type must have. -/
def requiredIndexField : SSEEventType → Option Text
  | .shellCallCommandAdded | .shellCallCommandDelta | .shellCallCommandDone => some "command_index"
  | .outputTextDelta | .outputTextDone | .contentPartAdded | .contentPartDone | .reasoningTextDelta | .reasoningTextDone
  | .reasoningPartAdded | .reasoningPartDone => some "content_index"
  | .reasoningSummaryTextDelta | .reasoningSummaryTextDone => some "summary_index"
  | _ => none

/-- The text that an event of this type must have. -/
def requiredTextField : SSEEventType → Option Text
  | .outputTextDelta | .functionCallArgumentsDelta | .customToolCallInputDelta | .shellCallCommandDelta
  | .reasoningTextDelta | .reasoningSummaryTextDelta | .mcpCallArgumentsDelta => some "delta"
  | .outputTextDone | .reasoningTextDone | .reasoningSummaryTextDone => some "text"
  | .functionCallArgumentsDone | .mcpCallArgumentsDone => some "arguments"
  | .customToolCallInputDone => some "input"
  | .shellCallCommandAdded | .shellCallCommandDone => some "command"
  | _ => none

/-- Whether the event carries a part of an item. -/
def SSEEventType.hasPart : SSEEventType → Bool
  | .contentPartAdded | .contentPartDone | .reasoningPartAdded | .reasoningPartDone => true
  | _ => false

/-- The fields that events of this type must have. -/
def validateEventFields (event : List (Text × Json)) (type : SSEEventType) (event_name : Text) : Except Text Unit := do
  match requiredIndexField type with
  | some field => let _ ← requiredU32 event field event_name
  | none => pure ()
  if type.hasPart = true then
    let _ ← requiredObject event "part" event_name
  match requiredTextField type with
  | some field => let _ ← requiredString event field event_name
  | none => pure ()

/-- What a frame must have by itself. -/
def validateFrame (frame : EventFrame) : Except Text ValidatedFrame := do
  let event_name ← match frame.wire.event_type.filter (· ≠ []) with
    | some name => pure name
    | none => throw (utf8 "streaming event has no valid 'type'")
  match frame.event_type with
  | .responseCreated | .responseInProgress | .responseCompleted | .responseFailed | .responseIncomplete => do
    validateResponseEvent frame event_name
    return ⟨none⟩
  | .outputItemAdded => return ⟨some (← validateOutputItem items newId frame event_name false)⟩
  | .outputItemDone => return ⟨some (← validateOutputItem items newId frame event_name true)⟩
  | .other => return ⟨none⟩
  | event_type => do
    let output_index ← requiredOutputIndex frame event_name
    let item_id ← validateEventItemId frame event_name
    validateEventFields frame.wire.rest event_type event_name
    match expectedItemType event_type with
    | none => throw (utf8 "upstream output item type for event '" ++ event_name ++ utf8 "' is unsupported")
    | some item_type => return ⟨some ⟨item_id, output_index, item_type, none⟩⟩

end

end AgenticStack
