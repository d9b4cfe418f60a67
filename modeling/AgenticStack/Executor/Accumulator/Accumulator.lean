import AgenticStack.Executor.Accumulator.Slot
import AgenticStack.Events.Validate

/-!
# The response accumulator

Folds the lines of an upstream stream, or a whole JSON body, into a response.
Strict validation rejects what is out of order; lenient validation skips it.
-/

namespace AgenticStack
set_option autoImplicit false
open Library

/-- How far the response has got. -/
inductive ResponseStatus where
  | inProgress | completed | incomplete | error
deriving DecidableEq, Repr

namespace ResponseStatus

/-- The name of the status on the wire. -/
def asStr : ResponseStatus → Text
  | .inProgress => "in_progress"
  | .completed => "completed"
  | .incomplete => "incomplete"
  | .error => "error"

/-- `FromStr`, which never fails. -/
def parse (s : Text) : ResponseStatus :=
  if s = "in_progress" then .inProgress
  else if s = "completed" then .completed
  else if s = "incomplete" then .incomplete
  else .error

end ResponseStatus

/-- Whether the call id of an item has changed. -/
structure CallIdObservation where
  first : Option Text
  changed : Bool

/-- The first id that is seen stays, and another one is noted as a change. -/
def CallIdObservation.observe (self : CallIdObservation) (call_id : Option Text) : CallIdObservation :=
  match call_id.filter (· ≠ []), self.first with
  | none, _ => self
  | some call_id, some first => if first = call_id then self else { self with changed := true }
  | some call_id, none => { self with first := some call_id }

/-- How far the events of a response have got, one after the other. -/
inductive StreamLifecycle where
  | awaitingCreated | created | inProgress | terminal
deriving DecidableEq, Repr

/-- What becomes of an event: it is passed on under an index, or dropped. -/
inductive EventDisposition where
  | emit (index : Option Nat)
  | ignore

namespace EventDisposition

/-- The event of an item is passed on under the index it was given, or dropped. -/
def item : Option Nat → EventDisposition
  | some index => .emit (some index)
  | none => .ignore

/-- The frame that is passed on, at the index it was given. -/
def intoFrame (frame : EventFrame) : EventDisposition → Option EventFrame
  | .emit (some index) => some (frame.setOutputIndex index)
  | .emit none => some frame
  | .ignore => none

end EventDisposition

/-- What was read of a response so far. -/
structure ResponseAccumulator where
  validation : Validation
  response_id : Text
  conversation_id : Option Text
  output : List OutputItem
  usage : Option ResponseUsage
  status : ResponseStatus
  incomplete_details : Option IncompleteDetails
  error : Option Json
  slots : SlotMap
  strict_call_ids : List (Nat × CallIdObservation)
  stream_lifecycle : StreamLifecycle

/-- The assembled response. -/
structure ResponsePayload where
  id : Text
  model : Text
  status : Text
  output : List OutputItem
  usage : Option ResponseUsage
  incomplete_details : Option IncompleteDetails
  error : Option Json
  previous_response_id : Option Text
  conversation_id : Option Text
  instructions : Option Text

/-- The id that the caller must answer under. -/
def OutputItem.callId : OutputItem → Option Text
  | .functionCall call => some call.call_id
  | .toolSearchCall call => some call.call_id
  | .customToolCall call => some call.call_id
  | .shellCall call => some call.call_id
  | _ => none

/-- The item an event is about. -/
def itemIdentity (frame : EventFrame) (validated : Option ValidatedFrame) : Option ItemIdentity :=
  let known (item_id : Text) : Option Text := if item_id = [] then none else some item_id
  match validated.bind ValidatedFrame.item with
  | some item => some ⟨some item.output_index, known item.item_id, item.item_type⟩
  | none =>
    match frame.payload with
    | .outputItemAdded item_id item_type .. | .outputItemDone item_id item_type .. =>
      some ⟨frame.outputIndex, known item_id, item_type⟩
    | payload => (expectedItemType frame.event_type).map fun item_type =>
      let item_id := match payload with
        | .textDelta _ item_id .. | .textDone _ item_id .. | .functionCallArgsDelta _ _ item_id ..
        | .functionCallArgsDone _ _ item_id .. | .customToolCallInputDelta _ item_id ..
        | .customToolCallInputDone _ item_id .. | .reasoningTextDelta _ item_id .. | .reasoningTextDone _ item_id ..
        | .reasoningSummaryTextDelta _ item_id .. | .reasoningSummaryTextDone _ item_id .. => item_id
        | _ => ((frame.wire.rest.lookup (utf8 "item_id")).bind Json.asStr).getD []
      ⟨frame.outputIndex, known item_id, item_type⟩

/-- The error of an event at the wrong place of the stream. -/
def invalidLifecycle (event_name : Text) : ExecutorError :=
  invalid (utf8 "upstream stream event '" ++ event_name ++ utf8 "' is out of lifecycle order")

/-- The error of an event at the wrong place of the stream, or of another response. -/
def invalidLifecycleOrId (event_name : Text) : ExecutorError :=
  invalid (utf8 "upstream stream event '" ++ event_name ++ utf8 "' is out of lifecycle order or changes the response id")

/-- The error of a response that ends with other items than its events had. -/
def terminalMismatch : ExecutorError :=
  invalid "terminal upstream response output does not match completed item events"

namespace ResponseAccumulator

/-- Nothing was read yet. -/
def withValidation (response_id : Text) (conversation_id : Option Text) (validation : Validation) : ResponseAccumulator where
  validation := validation
  response_id := response_id
  conversation_id := conversation_id
  output := []
  usage := none
  status := .inProgress
  incomplete_details := none
  error := none
  slots := .empty
  strict_call_ids := []
  stream_lifecycle := .awaitingCreated

/-- The items that are open become items of the output, in the order of their indexes. -/
def finalizeAll (acc : ResponseAccumulator) : ResponseAccumulator :=
  let (slots, output) := acc.slots.drainOutput
  { acc with slots, output := acc.output ++ output }

/-- The response ends with a status and its usage. -/
def finishResponse (acc : ResponseAccumulator) (status : ResponseStatus) (usage : Option ResponseUsage) : ResponseAccumulator :=
  { acc.finalizeAll with status, usage, stream_lifecycle := .terminal }

/-- The stream ends, as it is. -/
def finishStream (acc : ResponseAccumulator) : ResponseAccumulator :=
  let acc := acc.finalizeAll
  { acc with
    status := if acc.status = .inProgress then .completed else acc.status
    stream_lifecycle := .terminal }

/-- The stream must have ended with its last event. -/
def finishStrictStream (acc : ResponseAccumulator) : ExecutorResult ResponseAccumulator :=
  if acc.stream_lifecycle ≠ .terminal then .error (.invalidRequest "upstream stream ended without a terminal event")
  else .ok acc.finishStream

/-- The response as it is reported. -/
def finalize (acc : ResponseAccumulator) (model : Text) (previous_response_id instructions : Option Text) : ResponsePayload where
  id := acc.response_id
  model := model
  status := acc.status.asStr
  output := acc.output
  usage := acc.usage
  incomplete_details := acc.incomplete_details
  error := acc.error
  previous_response_id := previous_response_id
  conversation_id := acc.conversation_id
  instructions := instructions

/-- The stream ends, and the response is reported. -/
def finish (acc : ResponseAccumulator) (model : Text) (previous_response_id instructions : Option Text) :
    ExecutorResult ResponsePayload :=
  let finished := match acc.validation with
    | .strict => acc.finishStrictStream
    | .lenient => .ok acc.finishStream
  finished.map fun acc => acc.finalize model previous_response_id instructions

/-- The call id that an event shows of the item at an index is noted. -/
def observeStrictCallId (acc : ResponseAccumulator) (output_index : Nat) (call_id : Option Text) : ResponseAccumulator :=
  let known := (acc.strict_call_ids.lookup output_index).getD ⟨none, false⟩
  { acc with strict_call_ids := insertEntry acc.strict_call_ids output_index (known.observe call_id) }

/-- No item may have shown two call ids. -/
def ensureStableStrictCallIds (acc : ResponseAccumulator) : ExecutorResult Unit :=
  match ((acc.strict_call_ids.filter fun seen => seen.2.changed).map Prod.fst).min? with
  | some output_index =>
    .error (invalid (utf8 "upstream stream changes 'call_id' for output[" ++ decimal output_index ++ utf8 "]"))
  | none => .ok ()

section
variable (items : ItemSerde) (newId : NewId)

/-- An item of the terminal response against the slot at its index. -/
def checkTerminalItem (acc : ResponseAccumulator) (output_index : Nat) (seen : List Text) (item : Json) :
    ExecutorResult (Text × OutputItem) :=
  if 2 ^ 32 ≤ output_index then .error (invalid "terminal upstream response has too many output items")
  else match item.asObject with
  | none => .error (invalid "terminal upstream response contains an invalid output item")
  | some fields =>
    match outputItemIdentity fields "terminal output item" with
    | .error error => .error (invalid error)
    | .ok (item_id, item_type) =>
      if item_id ∈ seen then
        .error (invalid (utf8 "terminal upstream response repeats output item '" ++ item_id ++ utf8 "'"))
      else match (acc.slots.get output_index).bind fun slot => slot.state.doneItem with
        | none => .error terminalMismatch
        | some completed =>
          if SSEItemType.ofItem completed ≠ some item_type then .error terminalMismatch
          else match items.item newId (canonicalFields fields item_id) with
            | .error error => .error (invalid (utf8 "terminal upstream response output item is invalid: " ++ error))
            | .ok terminal_item => .ok (item_id, terminal_item)

/-- The call ids of the items are observed up to the first bad one. -/
def checkTerminalItems (acc : ResponseAccumulator) (output_index : Nat) (seen : List Text) :
    List Json → ResponseAccumulator × ExecutorResult Unit
  | [] => (acc, .ok ())
  | item :: output =>
    match checkTerminalItem items newId acc output_index seen item with
    | .error error => (acc, .error error)
    | .ok (item_id, terminal_item) =>
      checkTerminalItems (acc.observeStrictCallId output_index terminal_item.callId) (output_index + 1) (item_id :: seen) output

/-- The items that the last event lists must be the items of the stream. -/
def validateTerminalOutput (acc : ResponseAccumulator) (frame : EventFrame) (enforce_call_id_stability : Bool) :
    ResponseAccumulator × ExecutorResult Unit :=
  let stable (acc : ResponseAccumulator) := if enforce_call_id_stability then acc.ensureStableStrictCallIds else .ok ()
  match stable acc with
  | .error error => (acc, .error error)
  | .ok () =>
    match (frame.wire.rest.lookup (utf8 "response")).bind Json.asObject with
    | none => (acc, .error (invalid "terminal upstream response has no valid 'response'"))
    | some response =>
      match response.lookup (utf8 "output") with
      | none | some .null => (acc, .ok ())
      | some (.arr output) =>
        if output.length ≠ acc.slots.slots.length then (acc, .error terminalMismatch)
        else match checkTerminalItems items newId acc 0 [] output with
          | (acc, .error error) => (acc, .error error)
          | (acc, .ok ()) => (acc, stable acc)
      | some _ => (acc, .error (invalid "terminal upstream response has no valid 'output'"))

/-- An event of an item must come between the first events of the response and its last one. -/
def requireInProgress (acc : ResponseAccumulator) (event_name : Text) : ExecutorResult Unit :=
  if acc.stream_lifecycle = .inProgress then .ok () else .error (invalidLifecycle event_name)

/-- Whether an event may come now. Only call ids are recorded. -/
def validateStrictTransition (acc : ResponseAccumulator) (frame : EventFrame) : ResponseAccumulator × ExecutorResult Unit :=
  let event_name := frame.wire.event_type.getD "streaming event"
  if acc.stream_lifecycle = .terminal then
    (acc, .error (invalid "upstream stream contains an event after its terminal event"))
  else match frame.event_type, frame.payload with
  | .responseCreated, .response .. =>
    (acc, if acc.stream_lifecycle ≠ .awaitingCreated then .error (invalidLifecycle event_name) else .ok ())
  | .responseInProgress, .response id .. =>
    (acc, if acc.stream_lifecycle ≠ .created ∨ id ≠ acc.response_id then .error (invalidLifecycleOrId event_name) else .ok ())
  | .responseCompleted, .response id .. | .responseFailed, .response id .. | .responseIncomplete, .response id .. =>
    if acc.stream_lifecycle ≠ .inProgress ∨ id ≠ acc.response_id then (acc, .error (invalidLifecycleOrId event_name))
    else if acc.slots.hasActive = true then (acc, .error (invalid "upstream stream ended with unfinished output items"))
    else acc.validateTerminalOutput items newId frame (frame.event_type ≠ .responseFailed)
  | _, _ => (acc, acc.requireInProgress event_name)

/-- Whether the event is the last one of a response. -/
def isTerminalEvent : SSEEventType → Bool
  | .responseCompleted | .responseFailed | .responseIncomplete => true
  | _ => false

/-- A terminal event has the details of an incomplete response and the error of a failed one. -/
def captureTerminalDetails (acc : ResponseAccumulator) (frame : EventFrame) : ResponseAccumulator :=
  match frame.wire.rest.lookup (utf8 "response") with
  | none => acc
  | some response => { acc with
    incomplete_details := (response.get "incomplete_details").bind items.incompleteDetails
    error := match response.get "error" with
      | none | some .null => none
      | some error => some error }

/-- The last event tells the usage and why the response stopped short. -/
def captureTerminalDetailsIfNeeded (acc : ResponseAccumulator) (frame : EventFrame) : ResponseAccumulator :=
  if isTerminalEvent frame.event_type then acc.captureTerminalDetails items frame else acc

/-- The call id that an event shows for the item at `index`. -/
def observeEvent (acc : ResponseAccumulator) (index : Nat) (payload : EventPayload) : ResponseAccumulator :=
  match payload with
  | .outputItemAdded _ _ _ _ _ call_id _ | .functionCallArgsDelta _ call_id _ _ | .functionCallArgsDone _ call_id _ _ _ =>
    acc.observeStrictCallId index call_id
  | .outputItemDone .. =>
    acc.observeStrictCallId index (((acc.slots.get index).bind fun slot => slot.state.doneItem).bind OutputItem.callId)
  | _ => acc

/-- An event about an item changes its slot. -/
def applyToSlots (slots : SlotMap) (frame : EventFrame) (identity : ItemIdentity) (validated : Option ValidatedFrame)
    (validation : Validation) : SlotMap × ExecutorResult (Option Nat) :=
  match frame.event_type with
  | .outputItemAdded => slots.open newId identity frame.payload validation
  | .outputItemDone =>
    let done_item := (validated.bind ValidatedFrame.item).bind ValidatedItem.done_item
    slots.complete items newId identity frame.payload done_item validation
  | _ => slots.apply items newId identity frame.payload validation

/-- The event of an item is handed to its slot. -/
def processItemEvent (acc : ResponseAccumulator) (frame : EventFrame) (validated : Option ValidatedFrame) :
    ResponseAccumulator × ExecutorResult EventDisposition :=
  match itemIdentity frame validated with
  | none => (acc, .ok (.emit none))
  | some identity =>
    let (slots, result) := applyToSlots items newId acc.slots frame identity validated acc.validation
    let acc := { acc with slots }
    match result with
    | .error error => (acc, .error error)
    | .ok none => (acc, .ok .ignore)
    | .ok (some index) =>
      (if acc.validation = .strict then acc.observeEvent index frame.payload else acc, .ok (.emit (some index)))

/-- What an event does once it is known to be in its place. -/
def processEventChecked (acc : ResponseAccumulator) (frame : EventFrame) (validated : Option ValidatedFrame) :
    ResponseAccumulator × ExecutorResult EventDisposition :=
  match frame.event_type, frame.payload with
  | .responseCreated, .response id _ _ =>
    if id = [] then acc.processItemEvent items newId frame validated
    else ({ acc with response_id := id, stream_lifecycle := .created }, .ok (.emit none))
  | .responseInProgress, .response .. => ({ acc with stream_lifecycle := .inProgress }, .ok (.emit none))
  | .responseCompleted, .response _ _ usage => (acc.finishResponse .completed usage, .ok (.emit none))
  | .responseFailed, .response _ _ usage => (acc.finishResponse .error usage, .ok (.emit none))
  | .responseIncomplete, .response _ _ usage => (acc.finishResponse .incomplete usage, .ok (.emit none))
  | _, _ => acc.processItemEvent items newId frame validated

/-- What an event does: a strict reader first checks its place and its fields. -/
def processNormalizedEvent (acc : ResponseAccumulator) (frame : EventFrame) : ResponseAccumulator × ExecutorResult EventDisposition :=
  match acc.validation with
  | .lenient => (acc.captureTerminalDetailsIfNeeded items frame).processEventChecked items newId frame none
  | .strict =>
    match validateFrame items newId frame with
    | .error error => (acc, .error (invalid error))
    | .ok validated =>
      match acc.validateStrictTransition items newId frame with
      | (acc, .error error) => (acc, .error error)
      | (acc, .ok ()) => (acc.captureTerminalDetailsIfNeeded items frame).processEventChecked items newId frame (some validated)

/-- One line: the frame to be sent on, if any. The accumulator is left as it is found after an error. -/
def processLine (serde : SerdeJson) (acc : ResponseAccumulator) (line : ClassifiedSseLine) :
    ResponseAccumulator × ExecutorResult (Option EventFrame) :=
  match line with
  | .data data =>
    match normalizeSseData items newId serde data with
    | .error error => (acc, .error (invalid error))
    | .ok none =>
      (acc, if acc.validation = .strict then .error (invalid "upstream stream contains a malformed data frame") else .ok none)
    | .ok (some frame) =>
      let (acc, disposition) := acc.processNormalizedEvent items newId frame
      (acc, disposition.map (EventDisposition.intoFrame frame))
  | _ => (acc, .ok none)

end

end ResponseAccumulator

end AgenticStack
