import AgenticStack.Library.JsonParse
import AgenticStack.Types.Serde

/-!
# From a line to an event

A data line of the upstream stream is classified, parsed and normalized into an
`EventFrame`. What is missing or has another type reads as empty.
-/

namespace AgenticStack
set_option autoImplicit false
open Library

namespace Library.Json

/-- Indexing: what is not there is null. -/
def at_ (v : Json) (key : Text) : Json := (v.get key).getD .null

/-- The value as an unsigned integer, as serde reads one. -/
def asU64 : Json → Option Nat
  | .num (.posInt n) => some n
  | _ => none

/-- The items of a list. -/
def asArray : Json → Option (List Json)
  | .arr items => some items
  | _ => none

end Library.Json

/-- What a line of the stream stands for: data, the mark of the end, or nothing. -/
inductive ClassifiedSseLine where
  | data (data : Text)
  | done
  | ignore
deriving DecidableEq, Repr

/-- `str::trim` leaves `word`, which has no white space at its ends. -/
def trimsTo (word s : Text) : Bool :=
  match stripPrefix word (trimStart s) with
  | some rest => isBlank rest
  | none => false

/-- `SseLine::parse`: the space after the colon is optional. -/
def SseLine.parse (raw : Text) : ClassifiedSseLine :=
  match stripPrefix "data:" raw with
  | none => .ignore
  | some data =>
    let data := (stripPrefix " " data).getD data
    if isBlank data then .ignore else if trimsTo "[DONE]" data then .done else .data data

/-- An optional field: it may be missing or null. -/
def optionField {α : Type} (fields : List (Text × Json)) (key : Text) (read : Json → Option α) : Option (Option α) :=
  match fields.lookup key with
  | none | some .null => some none
  | some v => (read v).map some

/-- Any integer; what is no `u64` counts as absent. -/
def readSequenceNumber : Json → Option (Option Nat)
  | .num (.posInt n) => some (some n)
  | .num (.negInt _) => some none
  | _ => none

/-- The fields of an event that the reader knows, and the rest as they are. -/
def WireEvent.ofJson (json : Json) : Option WireEvent := do
  let fields ← json.asObject
  let event_type ← optionField fields "type" Json.asStr
  let sequence_number ← optionField fields "sequence_number" readSequenceNumber
  let output_index ← optionField fields "output_index" Json.asU64
  let known : List Text := ["type", "sequence_number", "output_index"]
  return ⟨event_type, sequence_number.join, output_index, fields.filter fun field => !known.contains field.1⟩

/-- The text of a field, empty where there is none. -/
def jsonStr (json : Json) (key : Text) : Text := ((json.at_ key).asStr).getD []

/-- The text of a field, where there is one. -/
def jsonStrOpt (json : Json) (key : Text) : Option Text := (json.at_ key).asStr

/-- The id of an item, under either of the names it may have. -/
def outputItemId (item : Json) : Text :=
  (((item.at_ "id").asStr.filter (· ≠ [])).or ((item.at_ "item_id").asStr.filter (· ≠ []))).getD []

/-- The index of the item an event is about, where it fits 32 bits. -/
def jsonOutputIndex (json : Json) : Option Nat := ((json.get "output_index").bind Json.asU64).filter (· < 2 ^ 32)

/-- An index of a field, 0 where there is none and capped to 32 bits. -/
def jsonU32 (json : Json) (key : Text) : Nat := min (((json.at_ key).asU64).getD 0) (2 ^ 32 - 1)

section
variable (items : ItemSerde) (newId : NewId)

/-- What the event of a response tells: its id, its status and its usage. -/
def extractResponsePayload (json : Json) : EventPayload :=
  let response := json.at_ "response"
  .response (jsonStr response "id") (jsonStr response "status")
    (match response.get "usage" with
      | none | some .null => none
      | some usage => items.usage usage)

/-- What the event that opens an item tells of it. -/
def extractOutputItemAdded (json : Json) : EventPayload :=
  let item := json.at_ "item"
  .outputItemAdded (outputItemId item) (SSEItemType.ofStr (jsonStr item "type")) (jsonOutputIndex json)
    (jsonStrOpt item "name") (jsonStrOpt item "namespace") (jsonStrOpt item "call_id")
    (if (item.at_ "type").asStr = some (utf8 "shell_call") then
      match items.itemOpt newId item with
      | some (.shellCall call) => some call
      | _ => none
    else none)

/-- The item, under `id` the id it has. -/
def canonicalItem (item : Json) (item_id : Text) : Json :=
  match item with
  | .obj fields =>
    if item_id ≠ [] ∧ ((item.at_ "id").asStr.all (· = [])) = true then .obj (insertField fields "id" (.str item_id)) else item
  | _ => item

/-- What the event that ends an item tells of it. -/
def extractOutputItemDone (json : Json) : EventPayload :=
  let item := json.at_ "item"
  let item_id := outputItemId item
  let item := canonicalItem item item_id
  .outputItemDone item_id (SSEItemType.ofStr (jsonStr item "type")) (jsonOutputIndex json) item

/-- What an event of a shell command tells. -/
def extractShellCommand (json : Json) (update : ShellCommandUpdate) : EventPayload :=
  .shellCallCommand (jsonStr json "item_id") (jsonU32 json "output_index") (jsonU32 json "command_index") update

/-- What an event tells, by its type. -/
def extractPayload (type : SSEEventType) (json : Json) : EventPayload :=
  match type with
  | .responseCreated | .responseInProgress | .responseCompleted | .responseFailed | .responseIncomplete =>
    extractResponsePayload items json
  | .outputItemAdded => extractOutputItemAdded items newId json
  | .outputItemDone => extractOutputItemDone json
  | .outputTextDelta => .textDelta (jsonStr json "delta") (jsonStr json "item_id") (jsonOutputIndex json)
      (jsonU32 json "content_index")
  | .outputTextDone => .textDone (jsonStr json "text") (jsonStr json "item_id") (jsonOutputIndex json)
  | .functionCallArgumentsDelta => .functionCallArgsDelta (jsonStr json "delta") (jsonStrOpt json "call_id")
      (jsonStr json "item_id") (jsonOutputIndex json)
  | .functionCallArgumentsDone => .functionCallArgsDone (jsonStr json "arguments") (jsonStrOpt json "call_id")
      (jsonStr json "item_id") (jsonStr json "name") (jsonOutputIndex json)
  | .customToolCallInputDelta => .customToolCallInputDelta (jsonStr json "delta") (jsonStr json "item_id") (jsonOutputIndex json)
  | .customToolCallInputDone => .customToolCallInputDone (jsonStr json "input") (jsonStr json "item_id") (jsonOutputIndex json)
  | .shellCallCommandAdded => extractShellCommand json (.added (jsonStr json "command"))
  | .shellCallCommandDelta => extractShellCommand json (.delta (jsonStr json "delta"))
  | .shellCallCommandDone => extractShellCommand json (.done (jsonStr json "command"))
  | .reasoningTextDelta => .reasoningTextDelta (jsonStr json "delta") (jsonStr json "item_id") (jsonOutputIndex json)
      (jsonU32 json "content_index")
  | .reasoningTextDone => .reasoningTextDone (jsonStr json "text") (jsonStr json "item_id") (jsonOutputIndex json)
      (jsonU32 json "content_index")
  | .reasoningSummaryTextDelta => .reasoningSummaryTextDelta (jsonStr json "delta") (jsonStr json "item_id")
      (jsonOutputIndex json) (jsonU32 json "summary_index")
  | .reasoningSummaryTextDone => .reasoningSummaryTextDone (jsonStr json "text") (jsonStr json "item_id")
      (jsonOutputIndex json) (jsonU32 json "summary_index")
  | _ => .raw json

/-- The error of an event whose index is no 32-bit number. -/
def invalidOutputIndex : Text := "upstream stream has an invalid 'output_index': expected an unsigned 32-bit integer"

/-- A completion event whose response is incomplete is an incomplete event. -/
def reconcileStatus (json : Json) : SSEEventType × Json :=
  let type := ((json.get "type").bind Json.asStr).elim .other SSEEventType.ofStr
  if type = .responseCompleted ∧ ((json.at_ "response").at_ "status").asStr = some (utf8 "incomplete") then
    (.responseIncomplete, match json with
      | .obj fields => .obj (insertField fields "type" (.str "response.incomplete"))
      | json => json)
  else (type, json)

/-- An event of the stream, as its frame. One that names an index must name a 32-bit number. -/
def normalizeSseValue (json : Json) : Except Text (Option EventFrame) :=
  if ((json.get "output_index").all fun index => (index.asU64.any (· < 2 ^ 32))) = true then
    let (type, json) := reconcileStatus json
    .ok ((WireEvent.ofJson json).map fun wire => ⟨type, extractPayload items newId type json, wire⟩)
  else .error invalidOutputIndex

/-- `normalize_sse_data_checked`: a malformed line has no event. -/
def normalizeSseData (serde : SerdeJson) (data : Text) : Except Text (Option EventFrame) :=
  match serde.fromStr data with
  | none => .ok none
  | some json => normalizeSseValue items newId json

end

/-- The index that ingestion has resolved, in the payload and on the wire. -/
def EventFrame.setOutputIndex (frame : EventFrame) (index : Nat) : EventFrame where
  event_type := frame.event_type
  wire := { frame.wire with output_index := some index }
  payload := match frame.payload with
    | .outputItemAdded item_id item_type _ name namespace_ call_id shell_call =>
      .outputItemAdded item_id item_type (some index) name namespace_ call_id shell_call
    | .outputItemDone item_id item_type _ item => .outputItemDone item_id item_type (some index) item
    | .textDelta delta item_id _ content_index => .textDelta delta item_id (some index) content_index
    | .textDone text item_id _ => .textDone text item_id (some index)
    | .functionCallArgsDelta delta call_id item_id _ => .functionCallArgsDelta delta call_id item_id (some index)
    | .functionCallArgsDone arguments call_id item_id name _ =>
      .functionCallArgsDone arguments call_id item_id name (some index)
    | .customToolCallInputDelta delta item_id _ => .customToolCallInputDelta delta item_id (some index)
    | .customToolCallInputDone input item_id _ => .customToolCallInputDone input item_id (some index)
    | .reasoningTextDelta delta item_id _ content_index => .reasoningTextDelta delta item_id (some index) content_index
    | .reasoningTextDone text item_id _ content_index => .reasoningTextDone text item_id (some index) content_index
    | .reasoningSummaryTextDelta delta item_id _ summary_index =>
      .reasoningSummaryTextDelta delta item_id (some index) summary_index
    | .reasoningSummaryTextDone text item_id _ summary_index =>
      .reasoningSummaryTextDone text item_id (some index) summary_index
    | .raw (.obj fields) => .raw (.obj (insertField fields "output_index" (.num (.posInt index))))
    | payload => payload

end AgenticStack
