import AgenticStack.Executor.Error
import AgenticStack.Events.Types
import AgenticStack.Library.JsonParse
import AgenticStack.Library.Triple

/-!
# The numbered event stream of a response

Every event the client is sent takes the next sequence number, whoever made it,
and counts its output index from the first item of the response. The events go
through a channel whose receiver may leave.
-/

namespace AgenticStack
set_option autoImplicit false
open Library

/-- `u64::saturating_add`. -/
def saturatingAdd (a b : Nat) : Nat := min (a + b) (2 ^ 64 - 1)

/-- The number of the next event, and which of the first events were sent. -/
structure GatewayStreamAccumulator where
  next_sequence_number : Nat
  emitted_created : Bool
  emitted_in_progress : Bool
deriving DecidableEq, Repr

/-- `StreamEvent`, an event in the channel: its serialized frame and its number. `source` is the upstream frame it was
made from, if the gateway did not make it itself. -/
structure StreamedEvent where
  source : Option EventFrame
  frame : EventFrame
  sequence_number : Nat

/-- The sending end of the channel: what was sent, and after how many events the receiver leaves. -/
structure Sender where
  sent : List StreamedEvent
  closes_after : Option Nat

/-- An event may be so long. -/
def maxStreamEventBytes : Nat := 1024 * 1024

/-- An event of a type, with nothing else. -/
def WireEvent.new (event_type : Text) : WireEvent := ⟨some event_type, none, none, []⟩

/-- An event as it is written. -/
def WireEvent.toJson (wire : WireEvent) : Json :=
  .obj (((wire.event_type.map fun type => (utf8 "type", Json.str type)).toList
    ++ (wire.sequence_number.map fun number => (utf8 "sequence_number", Json.num (.posInt number))).toList)
    ++ (wire.output_index.map fun index => (utf8 "output_index", Json.num (.posInt index))).toList ++ wire.rest)

/-- A name that would end its line is left out. -/
def serializeSseFrame (frame : EventFrame) : Text :=
  let event_name := frame.wire.event_type.filter fun name => !name.isEmpty && !name.any fun b => b == 0x0d || b == 0x0a
  (match event_name with
    | some name => utf8 "event: " ++ name ++ utf8 "\n"
    | none => []) ++ utf8 "data: " ++ frame.wire.toJson.write ++ utf8 "\n\n"

/-- The text of the event, as the client gets it. -/
def StreamedEvent.content (event : StreamedEvent) : Text := serializeSseFrame event.frame

/-- An event as it is sent, which must not be too long. -/
def checkedStreamEvent (frame : EventFrame) : ExecutorResult Text :=
  let content := serializeSseFrame frame
  if maxStreamEventBytes < content.length then
    .error (.streamError (utf8 "stream event exceeded " ++ decimal maxStreamEventBytes ++ utf8 " bytes"))
  else .ok content

/-- The event under its number. -/
def EventFrame.number (frame : EventFrame) (sequence_number : Nat) : EventFrame :=
  { frame with wire := { frame.wire with sequence_number := some sequence_number } }

/-- The event with the index it has in the whole response. -/
def EventFrame.rebaseOutputIndex (frame : EventFrame) (output_offset : Nat) : EventFrame :=
  if output_offset = 0 then frame
  else { frame with wire := { frame.wire with
    output_index := frame.wire.output_index.map (saturatingAdd · output_offset) } }

namespace GatewayStreamAccumulator

/-- A stream without events. -/
def new : GatewayStreamAccumulator := ⟨0, false, false⟩

/-- A lifecycle event is emitted once. -/
def shouldEmitLifecycle (self : GatewayStreamAccumulator) (type : SSEEventType) : Bool × GatewayStreamAccumulator :=
  match type with
  | .responseCreated => (!self.emitted_created, { self with emitted_created := true })
  | .responseInProgress => (!self.emitted_in_progress, { self with emitted_in_progress := true })
  | _ => (true, self)

/-- An event gets its number and its index. -/
def stampEvent (self : GatewayStreamAccumulator) (frame : EventFrame) (output_offset : Nat) :
    EventFrame × GatewayStreamAccumulator :=
  ((frame.number self.next_sequence_number).rebaseOutputIndex output_offset,
    { self with next_sequence_number := saturatingAdd self.next_sequence_number 1 })

/-- The stamped frame, unless it repeats a lifecycle event. -/
def processEvent (self : GatewayStreamAccumulator) (frame : EventFrame) (output_offset : Nat) :
    Option EventFrame × GatewayStreamAccumulator :=
  match self.shouldEmitLifecycle frame.event_type with
  | (false, self) => (none, self)
  | (true, self) =>
    let (frame, self) := self.stampEvent frame output_offset
    (some frame, self)

end GatewayStreamAccumulator

/-- The event of an error. -/
def executorErrorFrame (error : ExecutorError) : EventFrame where
  event_type := .other
  payload := .none
  wire := { WireEvent.new "error" with
    rest := [("status", .num (.posInt error.httpStatus)), ("error", error.responseError)] }

/-- The event of an error under a number. -/
def errorSseFrame (message : Text) (sequence_number : Nat) : EventFrame where
  event_type := .other
  payload := .none
  wire := { WireEvent.new "error" with
    sequence_number := some sequence_number
    rest := [("status", .num (.posInt 500)),
      ("error", .obj [("message", .str message), ("type", .str "server_error"), ("code", .str "server_error")])] }

/-- The event of an error under a given number; one that is too long gives way to a short one. -/
def executorErrorChunkAt (error : ExecutorError) (sequence_number : Nat) : EventFrame :=
  let frame := (executorErrorFrame error).number sequence_number
  match checkedStreamEvent frame with
  | .ok _ => frame
  | .error _ => errorSseFrame "executor error event exceeded the response size limit" sequence_number

/-- What the events of a streaming request go through; a blocking request has none. -/
structure Outlet where
  accumulator : GatewayStreamAccumulator
  sender : Sender

/-- A step of the stream. -/
abbrev OutletM (α : Type) := EStateM ExecutorError Outlet α

/-- The error of a client that has left. -/
def receiverClosed : ExecutorError := .streamError "stream receiver closed while emitting gateway event"

/-- `Sender::send`. -/
def sendEvent (event : StreamedEvent) : OutletM Unit := do
  let outlet ← get
  if outlet.sender.closes_after.any (· ≤ outlet.sender.sent.length) then throw receiverClosed
  else set { outlet with sender := { outlet.sender with sent := outlet.sender.sent ++ [event] } }

/-- An event is sent with its number. -/
def emitSseFrame (source : Option EventFrame) (frame : EventFrame) : OutletM Unit := do
  match frame.wire.sequence_number with
  | none => throw (.streamError "stream event has no sequence number")
  | some sequence_number =>
    let _ ← ofExcept (checkedStreamEvent frame)
    sendEvent ⟨source, frame, sequence_number⟩

/-- A frame is numbered and sent, unless it repeats a lifecycle event; whether it was sent. -/
def processAndEmit (source : Option EventFrame) (frame : EventFrame) (output_offset : Nat) : OutletM Bool := do
  let outlet ← get
  let (stamped, accumulator) := outlet.accumulator.processEvent frame output_offset
  set { outlet with accumulator }
  match stamped with
  | none => return false
  | some stamped =>
    emitSseFrame source stamped
    return true

namespace Outlet

/-- The events that were sent. -/
def events (outlet : Outlet) : List StreamedEvent := outlet.sender.sent

/-- A new outlet, for a client that leaves after `closes_after` events. -/
def new (closes_after : Option Nat) : Outlet := ⟨.new, [], closes_after⟩

end Outlet

variable {o o' : Outlet} {source : Option EventFrame} {frame : EventFrame} {offset : Nat} {emitted : Bool}
  {event : StreamedEvent} {e : ExecutorError}

/-- What is sent is the last event. -/
theorem sendEvent_ok (h : sendEvent event o = .ok () o') :
    o' = { o with sender := { o.sender with sent := o.sender.sent ++ [event] } } := by
  unfold sendEvent at h
  rw [bind_ok] at h
  obtain ⟨outlet, m, read, rest⟩ := h
  rw [get_run] at read
  cases read
  split at rest
  · cases rest
  · cases rest
    rfl

/-- Sending fails where the client has left. -/
theorem sendEvent_error (h : sendEvent event o = .error e o') : o' = o ∧ e = receiverClosed := by
  unfold sendEvent at h
  rw [bind_error] at h
  rcases h with read | ⟨outlet, m, read, rest⟩
  · cases read
  · cases read
    split at rest
    · cases rest
      exact ⟨rfl, rfl⟩
    · cases rest

/-- An event fails where it is too long. -/
theorem checkedStreamEvent_error (h : checkedStreamEvent frame = .error e) :
    e = .streamError (utf8 "stream event exceeded " ++ decimal maxStreamEventBytes ++ utf8 " bytes") := by
  unfold checkedStreamEvent at h
  dsimp only at h
  split at h
  · cases h
    rfl
  · cases h

namespace GatewayStreamAccumulator

/-- The lifecycle event `type` was emitted before. -/
def repeats (self : GatewayStreamAccumulator) : SSEEventType → Bool
  | .responseCreated => self.emitted_created
  | .responseInProgress => self.emitted_in_progress
  | _ => false

/-- The event was sent. -/
def markEmitted (self : GatewayStreamAccumulator) : SSEEventType → GatewayStreamAccumulator
  | .responseCreated => { self with emitted_created := true }
  | .responseInProgress => { self with emitted_in_progress := true }
  | _ => self

/-- An event that repeats is not sent. -/
theorem processEvent_of_repeats {self : GatewayStreamAccumulator} (h : self.repeats frame.event_type = true) :
    self.processEvent frame offset = (none, self) := by
  obtain ⟨next, created, in_progress⟩ := self
  unfold processEvent
  cases type : frame.event_type <;> simp only [type, repeats, Bool.false_eq_true] at h <;>
    simp [shouldEmitLifecycle, h]

/-- The accumulator after an event of `type`. -/
def next (self : GatewayStreamAccumulator) (type : SSEEventType) : GatewayStreamAccumulator :=
  { self.markEmitted type with next_sequence_number := saturatingAdd self.next_sequence_number 1 }

/-- Another event is sent under the next number. -/
theorem processEvent_of_new {self : GatewayStreamAccumulator} (h : self.repeats frame.event_type = false) :
    self.processEvent frame offset =
      (some ((frame.number self.next_sequence_number).rebaseOutputIndex offset), self.next frame.event_type) := by
  unfold processEvent
  cases type : frame.event_type <;> simp only [type, repeats] at h <;>
    simp [shouldEmitLifecycle, stampEvent, next, markEmitted, h]

end GatewayStreamAccumulator

namespace Outlet

/-- The event that `frame` becomes when it is sent next. -/
def eventOf (o : Outlet) (source : Option EventFrame) (frame : EventFrame) (offset : Nat) : StreamedEvent where
  source := source
  frame := (frame.number o.accumulator.next_sequence_number).rebaseOutputIndex offset
  sequence_number := o.accumulator.next_sequence_number

/-- The outlet after `frame` has taken its number. -/
def spend (o : Outlet) (type : SSEEventType) : Outlet := { o with accumulator := o.accumulator.next type }

/-- The outlet after `frame` was sent. -/
def push (o : Outlet) (source : Option EventFrame) (frame : EventFrame) (offset : Nat) : Outlet where
  accumulator := o.accumulator.next frame.event_type
  sender := { o.sender with sent := o.sender.sent ++ [o.eventOf source frame offset] }

/-- The event that is written is the last one. -/
@[simp] theorem events_push : (o.push source frame offset).events = o.events ++ [o.eventOf source frame offset] := rfl

end Outlet

/-- An event has the number it was given. -/
theorem sequence_number_of_number {n : Nat} :
    ((frame.number n).rebaseOutputIndex offset).wire.sequence_number = some n := by
  unfold EventFrame.rebaseOutputIndex
  split <;> rfl

/-- An event that is sent was written. -/
theorem emitSseFrame_ok (h : emitSseFrame source (o.eventOf source frame offset).frame (o.spend frame.event_type) = .ok () o') :
    o' = o.push source frame offset := by
  unfold emitSseFrame at h
  rw [show (o.eventOf source frame offset).frame.wire.sequence_number = some o.accumulator.next_sequence_number from
    sequence_number_of_number] at h
  dsimp only at h
  rw [bind_ok] at h
  obtain ⟨content, m, checked, rest⟩ := h
  obtain ⟨-, same⟩ := ofExcept_ok.1 checked
  subst same
  exact sendEvent_ok rest

/-- An event that fails uses up its number. -/
theorem emitSseFrame_error
    (h : emitSseFrame source (o.eventOf source frame offset).frame (o.spend frame.event_type) = .error e o') :
    o' = o.spend frame.event_type ∧ ∃ message, e = .streamError message := by
  unfold emitSseFrame at h
  rw [show (o.eventOf source frame offset).frame.wire.sequence_number = some o.accumulator.next_sequence_number from
    sequence_number_of_number] at h
  dsimp only at h
  rw [bind_error] at h
  rcases h with failed | ⟨content, m, checked, rest⟩
  · cases result : checkedStreamEvent (o.eventOf source frame offset).frame with
    | ok content =>
      rw [result] at failed
      cases failed
    | error e =>
      rw [result] at failed
      cases failed
      exact ⟨rfl, _, checkedStreamEvent_error result⟩
  · obtain ⟨-, same⟩ := ofExcept_ok.1 checked
    subst same
    obtain ⟨same, closed⟩ := sendEvent_error rest
    exact ⟨same, _, closed⟩

/-- **What emitting a frame does**: a repeated lifecycle event is dropped; any other is sent under the next number. -/
theorem processAndEmit_ok (h : processAndEmit source frame offset o = .ok emitted o') :
    (emitted = false ∧ o.accumulator.repeats frame.event_type = true ∧ o' = o) ∨
    (emitted = true ∧ o.accumulator.repeats frame.event_type = false ∧ o' = o.push source frame offset) := by
  unfold processAndEmit at h
  rw [bind_ok] at h
  obtain ⟨outlet, m, read, rest⟩ := h
  cases read
  cases again : o.accumulator.repeats frame.event_type with
  | true =>
    rw [GatewayStreamAccumulator.processEvent_of_repeats again] at rest
    cases rest
    exact .inl ⟨rfl, rfl, rfl⟩
  | false =>
    rw [GatewayStreamAccumulator.processEvent_of_new again] at rest
    dsimp only at rest
    rw [bind_ok] at rest
    obtain ⟨_, m, written, rest⟩ := rest
    cases written
    rw [bind_ok] at rest
    obtain ⟨_, m, sent, done⟩ := rest
    obtain ⟨yes, same⟩ := pure_ok.1 done
    subst same
    exact .inr ⟨yes.symm, rfl, emitSseFrame_ok sent⟩

/-- A frame that cannot be sent has taken its number. -/
theorem processAndEmit_error (h : processAndEmit source frame offset o = .error e o') :
    o' = o.spend frame.event_type ∧ ∃ message, e = .streamError message := by
  unfold processAndEmit at h
  rw [bind_error] at h
  rcases h with read | ⟨outlet, m, read, rest⟩
  · cases read
  cases read
  cases again : o.accumulator.repeats frame.event_type with
  | true =>
    rw [GatewayStreamAccumulator.processEvent_of_repeats again] at rest
    cases rest
  | false =>
    rw [GatewayStreamAccumulator.processEvent_of_new again] at rest
    dsimp only at rest
    rw [bind_error] at rest
    rcases rest with written | ⟨_, m, written, rest⟩
    · cases written
    cases written
    rw [bind_error] at rest
    rcases rest with failed | ⟨_, m, sent, done⟩
    · exact emitSseFrame_error failed
    · cases done

end AgenticStack
