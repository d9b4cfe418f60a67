import AgenticStack.Executor.Pipeline.Delivery
import AgenticStack.Executor.Translate.Calls
import AgenticStack.Library.AssocList
import AgenticStack.Library.Transducer

/-!
# The translation dispatcher

The events of a function call go to the translator of its kind of tool. A call
that is opened without a name has its events buffered, within a limit, until an
event names it. The translators, and the checks of search calls that span a
round, are given.
-/

namespace AgenticStack
set_option autoImplicit false
open Library

/-- `dyn ToolTranslator`, with the states of all translators: a new one for a kind of tool, what it makes of an event,
and the item of a search call that it has not finished. -/
structure ToolTranslators (τ : Type) where
  newTranslator : ToolType → τ
  translate : τ → ToolEvent → Option AccumulatedFunctionCall → ExecutorResult (τ × List EventFrame)
  unfinishedToolSearchItemId : τ → Option Text

/-- The tools of a round, how the fields of its events are restored, and `ToolSearchStreamState`. -/
structure TranslationContext (σ : Type) where
  toolType : Text → ToolType
  isGatewayOwned : Text → Bool
  tool_search_active : Bool
  restoreStreamEventWire : List (Text × Json) → ExecutorResult (List (Text × Json))
  validateFrame : EventFrame → ExecutorResult Unit
  trackNativeToolSearch : σ → EventFrame → ExecutorResult σ
  startSynthetic : σ → Nat → Text → ExecutorResult σ
  hasUnfinishedNative : σ → Bool

/-- How the response ended, where it did. -/
inductive StreamTerminalState where
  | open | completed | aborted
deriving DecidableEq, Repr

/-- A call without a name yet, with the frames that are held back. -/
structure PendingFunctionCall where
  output_index : Nat
  internal_item_id : Option Text
  frames : List EventFrame
  bytes : Nat

/-- A call that has its name; the events of the gateway's own calls are made when they are executed. -/
inductive ActiveCall (τ : Type) where
  | client (translator : τ)
  | gateway

/-- The calls of a round, those that have a name and those that do not. -/
structure TranslationDispatcher (τ σ : Type) where
  active : List (Nat × ActiveCall τ)
  pending_unnamed : List (Nat × PendingFunctionCall)
  pending_bytes : Nat
  first_gateway_output_index : Option Nat
  tool_search : σ
  terminal : StreamTerminalState

/-- An event must be about an index. -/
def resolvedOutputIndex (index : Option Nat) : ExecutorResult Nat :=
  match index with
  | some index => .ok index
  | none => .error (.invalidRequest "translation requires a resolved output_index")

/-- The kinds of tools that the gateway executes. -/
def TranslationContext.executes {σ : Type} (context : TranslationContext σ) (name : Text) : Bool :=
  match context.toolType name with
  | .function | .codexNamespace | .custom | .toolSearch => false
  | .shell => context.isGatewayOwned name
  | .mcp | .webSearch | .fileSearch | .codeInterpreter => true

/-- The event that opens a function call. -/
def EventFrame.isFunctionAdded (frame : EventFrame) : Bool :=
  match frame.payload with
  | .outputItemAdded _ .functionCall _ _ _ _ _ => true
  | _ => false

namespace TranslationDispatcher

section
variable {τ σ : Type} (translators : ToolTranslators τ) (context : TranslationContext σ)

/-- Nothing was translated. -/
def new (tool_search : σ) : TranslationDispatcher τ σ := ⟨[], [], 0, none, tool_search, .open⟩

/-- The first index from which frames are held back. -/
def deferFromOutputIndex (self : TranslationDispatcher τ σ) : Option Nat :=
  (self.first_gateway_output_index.toList ++ self.pending_unnamed.map fun entry => entry.2.output_index).min?

/-- The round has one search call. -/
def startSearch (self : TranslationDispatcher τ σ) (tool_type : ToolType) (output_index : Nat)
    (call : Option AccumulatedFunctionCall) : ExecutorResult σ :=
  if tool_type = .toolSearch then
    match call with
    | none => .error .invalidUpstreamToolSearch
    | some call => context.startSynthetic self.tool_search output_index call.item.call_id
  else .ok self.tool_search

/-- A call that has a name is opened: for its tool, or for the gateway. -/
def startCall (self : TranslationDispatcher τ σ) (item_id name : Text) (output_index : Nat) (original : Option EventFrame)
    (call : Option AccumulatedFunctionCall) : ExecutorResult (TranslationDispatcher τ σ × List EventFrame) :=
  if context.executes name then
    .ok ({ self with
      active := insertEntry self.active output_index .gateway
      first_gateway_output_index :=
        if self.first_gateway_output_index.all (output_index < ·) then some output_index
        else self.first_gateway_output_index }, [])
  else do
    let tool_type := context.toolType name
    let (translator, frames) ←
      translators.translate (translators.newTranslator tool_type) (.added item_id name output_index original) call
    let tool_search ← self.startSearch context tool_type output_index call
    return ({ self with tool_search, active := insertEntry self.active output_index (.client translator) }, frames)

/-- The frame of a call without a name is held back, within bounds. -/
def bufferUnnamed (self : TranslationDispatcher τ σ) (item_id : Text) (output_index : Nat) (frame : EventFrame)
    (call : Option AccumulatedFunctionCall) : ExecutorResult (TranslationDispatcher τ σ × List EventFrame) :=
  if maxPendingFunctionBytes < self.pending_bytes + frame.bytes then
    .error (.streamError (utf8 "unnamed function-call SSE exceeded " ++ decimal maxPendingFunctionBytes ++
      utf8 " buffered bytes"))
  else
    let pending := (self.pending_unnamed.lookup output_index).getD ⟨output_index, none, [], 0⟩
    let internal_item_id := match (call.map (·.item.id)).filter (· ≠ []) with
      | some id => some id
      | none => if pending.internal_item_id = none ∧ item_id ≠ [] then some item_id else pending.internal_item_id
    let pending := { pending with
      internal_item_id, frames := pending.frames ++ [frame], bytes := pending.bytes + frame.bytes }
    .ok ({ self with
      pending_unnamed := insertEntry self.pending_unnamed output_index pending
      pending_bytes := self.pending_bytes + frame.bytes }, [])

/-- The frames of a call are taken, and no longer counted. -/
def takePending (self : TranslationDispatcher τ σ) (output_index : Nat) : List EventFrame × TranslationDispatcher τ σ :=
  match self.pending_unnamed.lookup output_index with
  | none => ([], self)
  | some pending => (pending.frames, { self with
      pending_unnamed := self.pending_unnamed.filter fun entry => entry.1 != output_index
      pending_bytes := self.pending_bytes - pending.bytes })

/-- A delta goes to the translator of its call, or waits with it. -/
def translateDelta (self : TranslationDispatcher τ σ) (item_id : Text) (output_index : Nat) (original : EventFrame)
    (call : Option AccumulatedFunctionCall) : ExecutorResult (TranslationDispatcher τ σ × List EventFrame) :=
  match self.active.lookup output_index with
  | some (.client translator) => do
    let (translator, frames) ← translators.translate translator (.delta original) call
    return ({ self with active := insertEntry self.active output_index (.client translator) }, frames)
  | some .gateway => .ok (self, [])
  | none => self.bufferUnnamed item_id output_index original call

/-- A buffered frame once more, if it is a delta. -/
def replayFrame (item_id : Text) (call : Option AccumulatedFunctionCall) (self : TranslationDispatcher τ σ)
    (frame : EventFrame) : ExecutorResult (TranslationDispatcher τ σ × List EventFrame) :=
  match frame.payload with
  | .functionCallArgsDelta _ _ _ output_index => do
    self.translateDelta translators item_id (← resolvedOutputIndex output_index) frame call
  | _ => .ok (self, [])

/-- A call that gets its name is opened, and its frames are translated as they came. -/
def resolvePending (self : TranslationDispatcher τ σ) (item_id name : Text) (output_index : Nat)
    (call : Option AccumulatedFunctionCall) : ExecutorResult (TranslationDispatcher τ σ × List EventFrame) :=
  if (self.active.lookup output_index).isSome then .ok (self, [])
  else do
    let (pending, self) := self.takePending output_index
    let (self, opened) ← self.startCall translators context item_id name output_index
      (pending.find? EventFrame.isFunctionAdded) call
    let (self, deltas) ← transduce (replayFrame translators item_id call) self pending
    return (self, opened ++ deltas)

/-- The end of the arguments may be the first to name the call. -/
def finishArguments (self : TranslationDispatcher τ σ) (item_id name : Text) (output_index : Nat) (original : EventFrame)
    (call : Option AccumulatedFunctionCall) : ExecutorResult (TranslationDispatcher τ σ × List EventFrame) := do
  let (self, resolved) ← self.resolvePending translators context item_id name output_index call
  match self.active.lookup output_index with
  | some (.client translator) =>
    let (translator, frames) ← translators.translate translator (.argumentsDone original) call
    return ({ self with active := insertEntry self.active output_index (.client translator) }, resolved ++ frames)
  | some .gateway => return (self, resolved)
  | none => return (self, resolved ++ [original])

/-- The end of a call may be the first to name it. -/
def finishCall (self : TranslationDispatcher τ σ) (item_id name : Text) (output_index : Nat) (original : EventFrame)
    (call : Option AccumulatedFunctionCall) : ExecutorResult (TranslationDispatcher τ σ × List EventFrame) := do
  let (self, resolved) ← self.resolvePending translators context item_id name output_index call
  let removed := { self with active := self.active.filter fun entry => entry.1 != output_index }
  match self.active.lookup output_index with
  | some (.client translator) =>
    let (translator, frames) ← translators.translate translator (.done original) call
    let self := if (translators.unfinishedToolSearchItemId translator).isSome then
      { removed with active := insertEntry removed.active output_index (.client translator) } else removed
    return (self, resolved ++ frames)
  | some .gateway => return (removed, resolved)
  | none => return (removed, resolved ++ [original])

/-- One event, by what it says of a function call; all other events go through. -/
def dispatch (self : TranslationDispatcher τ σ) (frame : EventFrame) (call : Option AccumulatedFunctionCall) :
    ExecutorResult (TranslationDispatcher τ σ × List EventFrame) :=
  match frame.payload with
  | .outputItemAdded item_id .functionCall output_index (some name) _ _ _ => do
    self.startCall translators context item_id name (← resolvedOutputIndex output_index) (some frame) call
  | .outputItemAdded item_id .functionCall output_index none _ _ _ => do
    self.bufferUnnamed item_id (← resolvedOutputIndex output_index) frame call
  | .functionCallArgsDelta _ _ item_id output_index => do
    self.translateDelta translators item_id (← resolvedOutputIndex output_index) frame call
  | .functionCallArgsDone _ _ item_id name output_index => do
    self.finishArguments translators context item_id name (← resolvedOutputIndex output_index) frame call
  | .outputItemDone item_id .functionCall output_index item => do
    self.finishCall translators context item_id (((item.get "name").bind Json.asStr).getD [])
      (← resolvedOutputIndex output_index) frame call
  | _ => .ok (self, [frame])

/-- The last event tells how the response ended. -/
def nextTerminal (terminal : StreamTerminalState) : SSEEventType → StreamTerminalState
  | .responseCompleted => .completed
  | .responseFailed | .responseIncomplete => .aborted
  | _ => terminal

/-- `context.restore_stream_event_wire(&mut frame.wire)?`. -/
def restore (frame : EventFrame) : ExecutorResult EventFrame := do
  let rest ← context.restoreStreamEventWire frame.wire.rest
  return { frame with wire := { frame.wire with rest } }

/-- What comes of one frame: the frames that are shown, and from which item on nothing may be. -/
def translate (self : TranslationDispatcher τ σ) (frame : EventFrame) (call : Option AccumulatedFunctionCall) :
    ExecutorResult (TranslationDispatcher τ σ × Translation) := do
  context.validateFrame frame
  let tool_search ← context.trackNativeToolSearch self.tool_search frame
  let self := { self with tool_search, terminal := nextTerminal self.terminal frame.event_type }
  let (self, frames) ← self.dispatch translators context frame call
  let frames ← frames.mapM (restore context)
  return (self, ⟨frames, self.deferFromOutputIndex⟩)

/-- The items of search calls that are not finished, and of calls without a name while tools are searched. -/
def unfinishedToolSearchItemIds (self : TranslationDispatcher τ σ) : List Text :=
  (self.active.filterMap fun
    | (_, .client translator) => translators.unfinishedToolSearchItemId translator
    | (_, .gateway) => none) ++
  if context.tool_search_active then self.pending_unnamed.filterMap (·.2.internal_item_id) else []

/-- The end of the round: the dispatcher is gone, with all that is still buffered. -/
def finish (self : TranslationDispatcher τ σ) : ExecutorResult (List Text) :=
  let unfinished := self.unfinishedToolSearchItemIds translators context
  if self.terminal ≠ .aborted ∧ (unfinished ≠ [] ∨ context.hasUnfinishedNative self.tool_search = true) then
    .error .invalidUpstreamToolSearch
  else .ok unfinished

end
end TranslationDispatcher
end AgenticStack
