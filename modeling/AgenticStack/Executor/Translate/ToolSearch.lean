import AgenticStack.Executor.Translate.Client
import AgenticStack.Tool.Restoring
import AgenticStack.Tool.SearchCalls
import AgenticStack.Types.Encode

/-!
# The translator of search calls

A call of the search function is shown as an item of its own: opened when it has its
name, finished when upstream says that it is complete. What spans a round is checked
beside it: one search call, native or not, and no call of a withheld function.
-/

namespace AgenticStack
set_option autoImplicit false
open Library Tools ToolSearch

/-- `ExecutorError::Tool`. -/
def ExecutorError.ofTool : ToolError → ExecutorError
  | .execution message => .toolExecution message
  | .config message => .toolConfig message
  | .invalidUpstreamToolSearch => .invalidUpstreamToolSearch
  | .upstreamWithheldFunctionCall => .upstreamWithheldFunctionCall
  | .missingOutput call_id => .missingOutput call_id

/-- A tool error as an error of the executor. -/
def liftTool {α : Type} (result : Except ToolError α) : ExecutorResult α := result.mapError ExecutorError.ofTool

/-- The tools of `TranslationContext`. -/
structure RoundTools where
  tool_types : List (Text × ToolType)
  gateway_owned_names : List Text
  withheld_function_names : Finset Text
  tool_search_active : Bool
  namespace_map : Option Tools.NamespaceMap

namespace RoundTools

/-- The type of a name, where searches are on the reserved name is theirs. -/
def toolType (self : RoundTools) (name : Text) : ToolType :=
  if self.tool_search_active ∧ name = TOOL_SEARCH_NAME then .toolSearch
  else (self.tool_types.lookup name).getD .function

/-- Whether the gateway runs the tool of a name. -/
def isGatewayOwned (self : RoundTools) (name : Text) : Bool := self.gateway_owned_names.contains name

/-- Whether a function is withheld. -/
def isWithheldFunction (self : RoundTools) (name : Text) : Bool := decide (name ∈ self.withheld_function_names)

end RoundTools

/-- `translation_context`, of the tools of the registry and the state of the search. -/
def translationContext (registry : ToolRegistry) (namespace_map : Option Tools.NamespaceMap) (state : Option ToolSearchState) :
    RoundTools where
  tool_types := registry.entries.map fun entry => (entry.1, entry.2.tool_type)
  gateway_owned_names := (registry.entries.map Prod.fst).filter registry.isGatewayOwnedName
  withheld_function_names := (state.map ToolSearchState.withheld_function_names).getD ∅
  tool_search_active := state.any ToolSearchState.isActive
  namespace_map

/-- A search that has been opened. -/
structure ToolSearchCallState where
  internal_item_id : Text
  output_index : Nat

/-- An event of a search. -/
def toolSearchFrame (event_type : SSEEventType) (output_index : Nat) (call : ToolSearchCall) : ExecutorResult EventFrame :=
  syntheticEvent event_type output_index [("item", .obj (OutputItem.toolSearchCall call).toFields)]

/-- The opening event, with the name if it came without. -/
def validateToolSearchAdded (serde : SerdeJson) (frame : EventFrame) (name : Text) : ExecutorResult Unit :=
  match frame.wire.rest.lookup (utf8 "item") with
  | none => .error .invalidUpstreamToolSearch
  | some item =>
    match item.get "name", item with
    | none, .obj fields | some .null, .obj fields =>
      (liftTool (strictStartedFunction serde (.obj (insertField fields "name" (.str name))))).map fun _ => ()
    | some (.str _), item => (liftTool (strictStartedFunction serde item)).map fun _ => ()
    | _, _ => .error .invalidUpstreamToolSearch

/-- The call is complete, as upstream says. -/
def isCompletedDone (frame : EventFrame) : Bool :=
  match frame.payload with
  | .outputItemDone _ _ _ item => (item.get "status").bind Json.asStr = utf8 "completed"
  | _ => false

/-- `ToolSearchTranslator::translate`. The state is kept until the call is complete. -/
def ToolSearchTranslator.translate (serde : SerdeJson) (state : Option ToolSearchCallState) (event : ToolEvent)
    (call : Option AccumulatedFunctionCall) : ExecutorResult (Option ToolSearchCallState × List EventFrame) :=
  match event, call with
  | .delta _, none => .ok (state, [])
  | .delta _, some call => do
    ensureFunctionCallSize call.arguments
    return (state, [])
  | _, none => .error .invalidUpstreamToolSearch
  | .added _ name output_index original, some call => do
    match original with
      | some original => validateToolSearchAdded serde original name
      | none => .ok ()
    let started ← liftTool (startedPublicCall call.item)
    let frame ← toolSearchFrame .outputItemAdded output_index started
    return (some ⟨call.item.id, output_index⟩, [frame])
  | .argumentsDone _, some call => do
    ensureFunctionCallSize call.arguments
    let _ ← liftTool (jsonValue serde call.arguments)
    return (state, [])
  | .done original, some call => do
    ensureFunctionCallSize call.arguments
    if isCompletedDone original then
      match state with
      | none => .error .invalidUpstreamToolSearch
      | some state => do
        let completed ← liftTool (completedPublicCall serde call.item)
        let frame ← toolSearchFrame .outputItemDone state.output_index completed
        return (none, [frame])
    else return (state, [])

/-- Whether a search is the model's own or comes of its function. -/
inductive ToolSearchCallSource where
  | synthetic | native
deriving DecidableEq, Repr

/-- The search of a round. -/
structure ToolSearchIdentity where
  source : ToolSearchCallSource
  output_index : Nat
  call_id : Text
deriving DecidableEq, Repr

/-- What is known of the searches of a round. -/
structure ToolSearchStreamState where
  active_native_tool_search : Finset Nat
  tool_search_identity : Option ToolSearchIdentity

namespace ToolSearchStreamState

/-- No search yet. -/
def default : ToolSearchStreamState := ⟨∅, none⟩

/-- Whether a search of the model goes on. -/
def hasUnfinishedNative (self : ToolSearchStreamState) : Bool := !decide (self.active_native_tool_search = ∅)

/-- A search may be started where none was. -/
def startToolSearchCall (self : ToolSearchStreamState) (identity : ToolSearchIdentity) : ExecutorResult ToolSearchStreamState :=
  match self.tool_search_identity with
  | some _ => .error .invalidUpstreamToolSearch
  | none => .ok { self with tool_search_identity := some identity }

/-- The search of a function is started. -/
def startSynthetic (self : ToolSearchStreamState) (output_index : Nat) (call_id : Text) : ExecutorResult ToolSearchStreamState :=
  self.startToolSearchCall ⟨.synthetic, output_index, call_id⟩

/-- A search that goes on must be the one that was started. -/
def observeToolSearchCall (self : ToolSearchStreamState) (identity : ToolSearchIdentity) : ExecutorResult ToolSearchStreamState :=
  match self.tool_search_identity with
  | some known => if known = identity then .ok self else .error .invalidUpstreamToolSearch
  | none => .ok { self with tool_search_identity := some identity }

/-- A search of the model as its event shows it. -/
def validateNativeToolSearchFrame (frame : EventFrame) : ExecutorResult ToolSearchCall :=
  match frame.wire.rest.lookup (utf8 "item") with
  | none => .error .invalidUpstreamToolSearch
  | some item => do
    let call ← liftTool (strictNativeCall item)
    ensureFunctionCallSize call.arguments.write
    if frame.event_type = .outputItemAdded ∧ (call.status ≠ .inProgress ∨ call.arguments.asObject.any (·.isEmpty) = false) then
      throw .invalidUpstreamToolSearch
    return call

/-- A search of the model is started, goes on or ends. -/
def trackNativeToolSearch (self : ToolSearchStreamState) (frame : EventFrame) : ExecutorResult ToolSearchStreamState :=
  match frame.payload with
  | .outputItemAdded _ .toolSearchCall output_index _ _ _ _ => do
    let call ← validateNativeToolSearchFrame frame
    let index ← resolvedOutputIndex output_index
    let self ← self.startToolSearchCall ⟨.native, index, call.call_id⟩
    return { self with active_native_tool_search := insert index self.active_native_tool_search }
  | .outputItemDone _ .toolSearchCall output_index _ => do
    let call ← validateNativeToolSearchFrame frame
    let index ← resolvedOutputIndex output_index
    let self ← self.observeToolSearchCall ⟨.native, index, call.call_id⟩
    return { self with
      active_native_tool_search :=
        if call.status = .completed then self.active_native_tool_search.erase index
        else insert index self.active_native_tool_search }
  | _ => .ok self

end ToolSearchStreamState

section
variable (serde : SerdeJson) (tools : RoundTools)

/-- The name of a call, by the event that opens or ends it. -/
def lifecycleName (frame : EventFrame) : Option Text :=
  match frame.payload with
  | .outputItemAdded _ .functionCall _ (some name) _ _ _ | .functionCallArgsDone _ _ _ name _ => some name
  | .outputItemDone _ .functionCall _ item => itemName item
  | _ => none

/-- No function may be called that is withheld. -/
def terminalGuard (item : Json) : ExecutorResult Unit :=
  if itemType item = utf8 "function_call" then
    liftTool (ensureFunctionIsAvailable (tools.isWithheldFunction ((itemName item).getD [])))
  else .ok ()

/-- Whether an item of the last event is a search. -/
def isTerminalSearch (item : Json) : Bool :=
  itemType item = utf8 "tool_search_call" ||
    (itemType item = utf8 "function_call" && tools.toolType ((itemName item).getD []) = .toolSearch)

/-- A search of the last event, which must be complete where the response is. -/
def readTerminalSearch (completed : Bool) (item : Json) : ExecutorResult (Option Unit) :=
  if itemType item = utf8 "tool_search_call" then do
    let call ← liftTool (strictNativeCall item)
    ensureFunctionCallSize call.arguments.write
    if completed ∧ call.status ≠ .completed then throw .invalidUpstreamToolSearch
    return none
  else if isTerminalSearch tools item then do
    let call ← liftTool (strictFunctionCall serde item)
    ensureFunctionCallSize call.arguments
    if completed ∧ call.status ≠ .completed then throw .invalidUpstreamToolSearch
    return none
  else .ok none

/-- The last event may have one search, and no function that is withheld. -/
def validateTerminalOutput (frame : EventFrame) : ExecutorResult Unit :=
  match ((frame.wire.rest.lookup (utf8 "response")).bind (·.get "output")).bind Json.asArray with
  | none => .ok ()
  | some output =>
    (scanOnce (terminalGuard tools) (isTerminalSearch tools) .invalidUpstreamToolSearch
      (readTerminalSearch serde tools (frame.event_type = .responseCompleted)) false output).map fun _ => ()

/-- `ToolSearchStreamState::validate_frame`. -/
def validateSearchFrame (frame : EventFrame) : ExecutorResult Unit := do
  match lifecycleName frame with
    | some name => liftTool (ensureFunctionIsAvailable (tools.isWithheldFunction name))
    | none => .ok ()
  match frame.payload with
  | .outputItemDone _ .functionCall _ item =>
    if (itemName item).any fun name => tools.toolType name = .toolSearch then
      (liftTool (strictFunctionCall serde item)).map fun _ => ()
    else .ok ()
  | .response _ _ _ =>
    if ResponseAccumulator.isTerminalEvent frame.event_type then validateTerminalOutput serde tools frame else .ok ()
  | _ => .ok ()

/-- `TranslationContext`. How the other fields of an event are restored is given. -/
def RoundTools.context (restoreStreamEventWire : List (Text × Json) → ExecutorResult (List (Text × Json))) :
    TranslationContext ToolSearchStreamState where
  toolType := tools.toolType
  isGatewayOwned := tools.isGatewayOwned
  tool_search_active := tools.tool_search_active
  restoreStreamEventWire
  validateFrame := validateSearchFrame serde tools
  trackNativeToolSearch := ToolSearchStreamState.trackNativeToolSearch
  startSynthetic := ToolSearchStreamState.startSynthetic
  hasUnfinishedNative := ToolSearchStreamState.hasUnfinishedNative

/-- The body is not looked at. -/
def RoundTools.skips (body : Text) : Bool := skipsBody tools.tool_search_active tools.withheld_function_names body

/-- A whole response may have one search, and no function that is withheld. -/
def RoundTools.validateJsonBody (body : Text) : ExecutorResult Unit :=
  liftTool (validateBlockingResponse serde tools.tool_search_active tools.withheld_function_names body)

/-- No function of the output may be withheld. -/
def normalizeGuard : OutputItem → ExecutorResult Unit
  | .functionCall call => liftTool (ensureFunctionIsAvailable (tools.isWithheldFunction call.name))
  | _ => .ok ()

/-- Whether an item of the output is a search. -/
def isSearchOutput : OutputItem → Bool
  | .functionCall call => tools.toolType call.name = .toolSearch
  | .toolSearchCall _ => true
  | _ => false

/-- The public item, if there is one. -/
def normalizeItem (status : ResponseStatus) (unfinished_stream_item_ids : List Text) (item : OutputItem) :
    ExecutorResult (Option OutputItem) :=
  match item with
  | .functionCall call =>
    if tools.toolType call.name = .toolSearch then
      (liftTool (projectSyntheticCall serde call status (unfinished_stream_item_ids.contains call.id))).map
        (·.map .toolSearchCall)
    else if allowsUnfinished status && unfinished_stream_item_ids.contains call.id then .ok none
    else .ok (some (.functionCall call))
  | .toolSearchCall call => (liftTool (projectNativeCall call status)).map (·.map .toolSearchCall)
  | item => .ok (some item)

/-- `normalize_response_output`: search calls become the public item. -/
def normalizeSearches (output : List OutputItem) (status : ResponseStatus) (unfinished_stream_item_ids : List Text) :
    ExecutorResult (List OutputItem) :=
  scanOnce (normalizeGuard tools) (isSearchOutput tools) .invalidUpstreamToolSearch
    (normalizeItem serde tools status unfinished_stream_item_ids) false output

/-- `TranslationContext::normalize_response_output`: and members of namespaces get their names back. -/
def RoundTools.normalizeResponseOutput (output : List OutputItem) (status : ResponseStatus)
    (unfinished_stream_item_ids : List Text) : ExecutorResult (List OutputItem) := do
  let output ← normalizeSearches serde tools output status unfinished_stream_item_ids
  return restoreOutputItems tools.namespace_map output

end
end AgenticStack
