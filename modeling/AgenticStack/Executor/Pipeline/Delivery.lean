import AgenticStack.Executor.Gateway

/-!
# Delivery of a round's frames

The frames of a round go to the client as they come, except those at or after
the first item the gateway still hides: they are held back, within a limit, and
released when the hidden items are out of the way.
-/

namespace AgenticStack
set_option autoImplicit false
open Library

/-- What one upstream line is translated into: public frames, and the first index to hold back from. -/
structure Translation where
  frames : List EventFrame
  defer_from_output_index : Option Nat

/-- So many bytes may be held back. -/
def maxDeferredStreamBytes : Nat := 256 * 1024

/-- The stream of a turn, and the frames that are held back. -/
structure StreamDelivery where
  outlet : Option Outlet
  defer_from_output_index : Option Nat
  deferred_events : List EventFrame
  deferred_bytes : Nat

/-- What delivery changes while it handles frames. -/
structure Delivering where
  outlet : Outlet
  deferred_events : List EventFrame
  deferred_bytes : Nat

/-- A step of the delivery. -/
abbrev DeliveringM (α : Type) := EStateM ExecutorError Delivering α

/-- A step on the stream. -/
def onOutlet {α : Type} (x : OutletM α) : DeliveringM α :=
  onPart Delivering.outlet (fun s outlet => { s with outlet }) x

/-- `serialize_to_string(&frame.wire)?.len()`. -/
def EventFrame.bytes (frame : EventFrame) : Nat := frame.wire.toJson.write.length

/-- Whether the event is the last one of a response. -/
def isTerminalResponseEvent : SSEEventType → Bool
  | .responseCompleted | .responseFailed | .responseIncomplete => true
  | _ => false

/-- Whether a frame is to be held back: it is of an item that is hidden still. -/
def shouldDeferStreamEvent (frame : EventFrame) (defer_from_output_index : Option Nat) : Bool :=
  defer_from_output_index.any fun first_hidden_index => frame.wire.output_index.any (first_hidden_index ≤ ·)

/-- The response in an event gets the ids of the gateway's response. -/
def applyContextResponseIds (wire : WireEvent) (ctx : Engine.RequestContext) : WireEvent :=
  match wire.rest.lookup (utf8 "response") with
  | some (.obj response) =>
    let response := insertField response "id" (.str ctx.response_id)
    let response := match ctx.original_request.previous_response_id with
      | some previous_response_id => insertField response "previous_response_id" (.str previous_response_id)
      | none => response
    let response := match ctx.conversation_id with
      | some conversation_id => insertField response "conversation_id" (.str conversation_id)
      | none => response
    { wire with rest := insertField wire.rest "response" (.obj response) }
  | _ => wire

/-- The order of `Option<u64>`. -/
def optionLe : Option Nat → Option Nat → Bool
  | none, _ => true
  | some _, none => false
  | some i, some j => i ≤ j

/-- The error of too many bytes held back. -/
def deferredLimitError : ExecutorError :=
  .streamError (utf8 "deferred stream exceeded " ++ decimal maxDeferredStreamBytes ++ utf8 " buffered bytes")

section
variable (ctx : Engine.RequestContext) (output_offset : Nat)

/-- A frame is passed on with the ids of the request. -/
def emitStreamFrame (frame : EventFrame) : OutletM Bool :=
  processAndEmit (some frame) { frame with wire := applyContextResponseIds frame.wire ctx } output_offset

/-- Whether the frame was sent. -/
def emitOrDeferStreamFrame (defer_from_output_index : Option Nat) (frame : EventFrame) : DeliveringM Bool := do
  if shouldDeferStreamEvent frame defer_from_output_index then
    let s ← get
    let next_bytes := s.deferred_bytes + frame.bytes
    if maxDeferredStreamBytes < next_bytes then throw deferredLimitError
    set { s with deferred_events := s.deferred_events ++ [frame], deferred_bytes := next_bytes }
    return false
  else
    onOutlet (emitStreamFrame ctx output_offset frame)

/-- The frames held back, in the order in which they are released. -/
def sortDeferred (pending : List EventFrame) : List EventFrame :=
  pending.mergeSort fun a b => optionLe a.wire.output_index b.wire.output_index

/-- The held frames are delivered again, in the order of their items. -/
def flushReleasedStreamFrames (defer_from_output_index : Option Nat) : DeliveringM Unit := do
  let s ← get
  set { s with deferred_events := [], deferred_bytes := 0 }
  forM (sortDeferred s.deferred_events) fun frame => do
    let _ ← emitOrDeferStreamFrame ctx output_offset defer_from_output_index frame

/-- `emit_deferred_stream_events`. -/
def emitDeferredStreamEvents (deferred_events : List EventFrame) : OutletM Unit :=
  forM deferred_events fun frame => do
    let _ ← emitStreamFrame ctx output_offset frame

variable (serde : SerdeJson) (values : SerdeValues) (registry : ToolRegistry)

/-- The listings of the servers are shown. -/
def emitMcpDiscoveryLifecycle : OutletM Unit := do
  let public_output ← ofExcept
    (publicOutputItems serde (registry.mcp_list_tool_items.map .mcpListTools) registry [])
  let event_plans := mcpListToolsEventPlans public_output 0
  emitGatewayStartEvents values event_plans
  emitGatewayCompletedEvents values event_plans

/-- One frame of a translation: terminal events wait for the end of the run, and the first sign of progress is
followed by the listings of tools. -/
def acceptFrame (defer_from_output_index : Option Nat) (frame : EventFrame) : DeliveringM Unit := do
  if isTerminalResponseEvent frame.event_type then return ()
  let emitted ← emitOrDeferStreamFrame ctx output_offset defer_from_output_index frame
  if frame.event_type = .responseInProgress ∧ emitted then
    onOutlet (emitMcpDiscoveryLifecycle serde values registry)

namespace StreamDelivery

/-- A stream that holds nothing back. -/
def new (outlet : Option Outlet) : StreamDelivery := ⟨outlet, none, [], 0⟩

/-- The part of `accept` that needs a sender. -/
def deliver (translation : Translation) (previous_defer_from_output_index : Option Nat) : DeliveringM Unit := do
  forM translation.frames (acceptFrame ctx output_offset serde values registry translation.defer_from_output_index)
  if translation.defer_from_output_index ≠ previous_defer_from_output_index then
    flushReleasedStreamFrames ctx output_offset translation.defer_from_output_index

/-- What came of a line is delivered, and then what may be shown of the held frames. -/
def accept (translation : Translation) : EStateM ExecutorError StreamDelivery Unit := fun self =>
  let moved := { self with defer_from_output_index := translation.defer_from_output_index }
  match self.outlet with
  | none => .ok () moved
  | some outlet =>
    let close (s : Delivering) : StreamDelivery :=
      { moved with outlet := some s.outlet, deferred_events := s.deferred_events, deferred_bytes := s.deferred_bytes }
    match deliver ctx output_offset serde values registry translation self.defer_from_output_index
        ⟨outlet, self.deferred_events, self.deferred_bytes⟩ with
    | .ok () s => .ok () (close s)
    | .error e s => .error e (close s)

/-- What is still held back leaves delivery. -/
def takeDeferredEvents (self : StreamDelivery) : List EventFrame × StreamDelivery :=
  (self.deferred_events, { self with defer_from_output_index := none, deferred_events := [], deferred_bytes := 0 })

end StreamDelivery
end
end AgenticStack
