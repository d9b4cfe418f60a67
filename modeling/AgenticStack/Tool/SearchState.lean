import AgenticStack.Tool.SearchDefinitions

/-!
# The state of a tool search

One pass over the history replays the searches and loads what their outputs
defined. It leaves the private view of the request: the tools that the model is
shown, and the names of the functions that are still withheld from it.

`readTool` reads a declaration of a search output.
-/

namespace AgenticStack.Tools
set_option autoImplicit false
open Library

/-- The fields of a request that tool search reads or replaces. -/
structure RequestPayload where
  input : ResponsesInput
  tools : Option (List ResponsesTool)
  tool_choice : Option ToolChoice
  parallel_tool_calls : Option Bool

inductive ToolSearchActivity where
  | inactive | active
deriving DecidableEq

/-- What the request's search leaves for the rest of the turn. -/
structure ToolSearchState where
  activity : ToolSearchActivity
  has_completed_search : Bool
  public_effective_tools : Option (List ResponsesTool)
  private_upstream_tools : Option (List ResponsesTool)
  private_upstream_input : Option ResponsesInput
  loaded_public_tools : List ResponsesTool
  synthetic_tool_search : Option ToolSearchToolParam
  withheld_function_names : Finset Text
  unqualified_call_positions : List (Text × Nat)

def ToolSearchState.default : ToolSearchState := ⟨.inactive, false, none, none, none, [], none, ∅, []⟩

def ToolSearchState.isActive (self : ToolSearchState) : Bool := self.activity = .active

def isSearchItem : InputItem → Bool
  | .toolSearchCall _ | .toolSearchOutput _ => true
  | _ => false

def isSearchOutput : InputItem → Bool
  | .toolSearchOutput _ => true
  | _ => false

def isMcpListTools : InputItem → Bool
  | .mcpListTools _ => true
  | _ => false

def ResponsesTool.isToolSearch : ResponsesTool → Bool
  | .toolSearch _ => true
  | _ => false

def CodexNamespaceMember.isDeferred : CodexNamespaceMember → Bool
  | .function param => param.defer_loading = some true
  | .unknown => false

/-- Whether any part of a tool waits for a search. -/
def ResponsesTool.hasDeferredDefinition : ResponsesTool → Bool
  | .function param => param.defer_loading = some true
  | .namespace param => param.tools.any CodexNamespaceMember.isDeferred
  | .mcp param => param.defer_loading = some true
  | .custom param => param.defer_loading = some true
  | .toolSearch _ | .webSearch _ | .fileSearch _ | .codeInterpreter | .shell _ | .unknown => false

def ResponsesTool.activatesToolSearch (tool : ResponsesTool) : Bool := tool.isToolSearch || tool.hasDeferredDefinition

/-- The model's context, and after it the listing records, which stay for the registry. -/
def activeInput (input : ResponsesInput) : ResponsesInput :=
  match input.modelInput, input with
  | .items active_items, .items public_items => .items (active_items ++ public_items.filter isMcpListTools)
  | active, _ => active

def inputItems : ResponsesInput → List InputItem
  | .text _ => []
  | .items items => items

def RequestPayload.containsToolSearchState (request : RequestPayload) (input : ResponsesInput) : Bool :=
  (inputItems input).any isSearchItem || (request.tools.getD []).any ResponsesTool.activatesToolSearch

def ResponsesTool.hasReservedToolSearchName : ResponsesTool → Bool
  | .function param => param.name.text = TOOL_SEARCH_NAME
  | .custom param => param.name.text = TOOL_SEARCH_NAME
  | .namespace param => param.name = TOOL_SEARCH_NAME
  | .toolSearch _ | .mcp _ | .webSearch _ | .fileSearch _ | .codeInterpreter | .shell _ | .unknown => false

def validateSearchTool (tool : ResponsesTool) : Except ToolError Unit := do
  tool.validate
  if tool.hasReservedToolSearchName then throw reservedToolSearchName

/-- Checks the tools of a request and tells whether its search is active. -/
def validateToolSearchRequest (request : RequestPayload) (input : ResponsesInput) : Except ToolError Bool := do
  if !request.containsToolSearchState input then return false
  let tools := request.tools.getD []
  if 1 < tools.countP ResponsesTool.isToolSearch then
    throw (.config "tool search accepts at most one tool_search declaration")
  if request.parallel_tool_calls = some true then
    throw (.config "parallel_tool_calls must be false when tool search is active")
  tools.forM validateSearchTool
  return true

def restoredDefinitionForLoad (definitions : List DefinitionRecord) (restore_only_declared : Bool) (restored : ResponsesTool) :
    Except ToolError (Option ResponsesTool) := do
  match ← loadedToolIdentity restored with
  | none => throw (.config "stored tool-search availability contains an unsupported definition")
  | some identity =>
    return if restore_only_declared && (definitionIndex definitions identity.name).isNone then none else some restored

def restoreLoadedDefinition (restore_only_declared : Bool) (acc : DefinitionAccumulator) (restored : ResponsesTool) :
    Except ToolError DefinitionAccumulator := do
  match ← restoredDefinitionForLoad acc.definitions restore_only_declared restored with
  | none => return acc
  | some tool => loadDefinition acc tool

/-- What the pass over the history carries. -/
structure HistoryPass where
  definitions : DefinitionAccumulator
  private_items : List InputItem
  unresolved_call : Option Text
  completed_call_ids : Finset Text
  item_ids : Finset Text

/-- A search call of the history, which needs ids that are new. -/
def prepareSearchCall (self : HistoryPass) (call : InputToolSearchCall) : Except ToolError HistoryPass :=
  if Engine.trim call.id = [] then .error (.config "tool_search_call id must not be blank")
  else if Engine.trim call.call_id = [] then .error (.config "tool_search_call call_id must not be blank")
  else if call.id ∈ self.item_ids then .error (.config "duplicate tool_search_call item id")
  else if self.unresolved_call.isSome then
    .error (.config "ambiguous tool-search history contains a call before the preceding call is resolved")
  else if call.call_id ∈ self.completed_call_ids then .error (.config "duplicate tool_search_call call_id")
  else .ok { self with
    private_items := self.private_items ++ [.functionCall
      { id := some call.id, call_id := call.call_id, name := TOOL_SEARCH_NAME, «namespace» := none,
        arguments := call.arguments.write, status := some .completed }]
    unresolved_call := some call.call_id
    item_ids := insert call.id self.item_ids }

/-- A definition as the model is shown it in the output of its search. -/
def modelVisibleLoadedTool : ResponsesTool → Except ToolError Json
  | .function param => .ok (.obj ((utf8 "type", .str "function") :: param.fields))
  | .namespace param => .ok (.obj ([(utf8 "type", Json.str "namespace"), (utf8 "name", Json.str param.name)] ++
      optField "description" (param.description.map .str)))
  | _ => .error (.config "tool_search_output contains an unsupported model-output definition")

section
variable (readTool : Json → ResponsesTool)

/-- A search output, which must answer a call and loads its definitions. -/
def prepareSearchOutput (self : HistoryPass) (output : ToolSearchOutputMessage) : Except ToolError HistoryPass := do
  if Engine.trim output.call_id = [] then throw (.config "tool_search_output call_id must not be blank")
  if output.call_id ∈ self.completed_call_ids then throw (.config "duplicate tool_search_output call_id")
  match self.unresolved_call with
  | none => throw (.config "orphan tool_search_output has no unresolved call")
  | some call_id =>
    if call_id ≠ output.call_id then
      throw (.config "tool_search_output call_id does not match the preceding unresolved call")
    if output.status ≠ .completed then
      throw (.config "tool_search_output must be completed before it may load tool definitions")
    let tools := output.tools.map readTool
    let definitions ← tools.foldlM loadDefinition self.definitions
    let projected_tools ← tools.mapM modelVisibleLoadedTool
    return { self with
      definitions
      private_items := self.private_items ++ [.functionCallOutput
        { call_id := output.call_id, output := .text (Json.obj [(utf8 "tools", Json.arr projected_tools)]).write }]
      unresolved_call := none
      completed_call_ids := insert output.call_id self.completed_call_ids }

end

/-- The member a call names, where its namespace has it. -/
def calledMember (acc : DefinitionAccumulator) («namespace» name : Text) : Option NamespaceMemberRecord := do
  let index ← definitionIndex acc.definitions «namespace»
  let record := acc.definitions.get index
  if record.identity ≠ .namespace record.identity.name then none
  let members ← record.namespace_members
  let member_index ← memberIndex members.ordered name
  return (members.ordered.get member_index)

/-- Refuses a call of a function that is not loaded at its place. -/
def ensureHistoryCallIsAvailable (acc : DefinitionAccumulator) (position : Nat) (call : InputFunctionToolCall) :
    Except ToolError DefinitionAccumulator :=
  match call.namespace with
  | some «namespace» => match calledMember acc «namespace» call.name with
    | some member => if member.loaded then .ok acc else .error withheldFunctionHistoryCall
    | none => .ok { acc with prior_unknown_namespace_calls := insert («namespace», call.name) acc.prior_unknown_namespace_calls }
  | none =>
    if call.name ∈ acc.withheld_function_names then .error withheldFunctionHistoryCall
    else if acc.calledUnqualified call.name then .ok acc
    else .ok { acc with unqualified_call_positions := acc.unqualified_call_positions ++ [(call.name, position)] }

def HistoryPass.keep (self : HistoryPass) (item : InputItem) : HistoryPass :=
  { self with private_items := self.private_items ++ [item] }

/-- One item of the history, by its kind. -/
def prepareItem (readTool : Json → ResponsesTool) (self : HistoryPass) (entry : InputItem × Nat) :
    Except ToolError HistoryPass :=
  match entry.1 with
  | .toolSearchCall call => prepareSearchCall self call
  | .toolSearchOutput output => prepareSearchOutput readTool self output
  | .functionCall call => do
    let definitions ← ensureHistoryCallIsAvailable self.definitions entry.2 call
    return { self with definitions }.keep (.functionCall call)
  | .compactionTrigger => .ok self
  | item => .ok (self.keep item)

/-- The private input, and the definitions after the history. A plain text has no history. -/
def prepareHistory (readTool : Json → ResponsesTool) (input : ResponsesInput) (definitions : DefinitionAccumulator) :
    Except ToolError (ResponsesInput × DefinitionAccumulator) :=
  match input with
  | .text text => .ok (.text text, definitions)
  | .items items => do
    let pass ← items.zipIdx.foldlM (prepareItem readTool) ⟨definitions, [], none, ∅, ∅⟩
    if pass.unresolved_call.isSome then
      throw (.config "unresolved tool_search_call requires a matching completed tool_search_output")
    return (.items pass.private_items, pass.definitions)

/-- `validate_namespace_collisions`. -/
def recordMemberNames («namespace» : Text) (builder : NamespaceMapBuilder) : CodexNamespaceMember →
    Except ToolError NamespaceMapBuilder
  | .function param => builder.validateAndRecordFlatMember ⟨«namespace», param.name.text⟩
  | .unknown => .ok builder

def recordNamespaceNames (builder : NamespaceMapBuilder) : ResponsesTool → Except ToolError NamespaceMapBuilder
  | .namespace param => param.tools.foldlM (recordMemberNames param.name) builder
  | _ => .ok builder

def validateNamespaceCollisions (tools : List ResponsesTool) : Except ToolError NamespaceMapBuilder :=
  tools.foldlM recordNamespaceNames (.new (typedTopLevelRegistryKeys tools))

structure CatalogEntry where
  name : Text
  description : Option Text

def DefinitionRecord.hasWithheldMember (self : DefinitionRecord) : Bool :=
  self.namespace_members.any fun members => members.unloaded_count ≠ 0

def catalogEntry (definitions : List DefinitionRecord) (tool : ResponsesTool) : Option CatalogEntry := do
  let identity ← (loadedToolIdentity tool).toOption.join
  let index ← definitionIndex definitions identity.name
  let record := definitions.get index
  if record.loaded then none
  match tool with
  | .function param => if param.defer_loading = some true then some ⟨param.name.text, param.description⟩ else none
  | .namespace param => if record.hasWithheldMember then some ⟨param.name, param.description⟩ else none
  | _ => none

/-- The catalog of what is still to be searched, in declared order. -/
def buildCatalog (public_tools : List ResponsesTool) (definitions : List DefinitionRecord) : List CatalogEntry :=
  public_tools.filterMap (catalogEntry definitions)

def CatalogEntry.text (entry : CatalogEntry) : Text :=
  match (entry.description.map Engine.trim).filter (· ≠ []) with
  | some description => entry.name ++ utf8 " — " ++ description
  | none => entry.name

def joinEntries : List Text → Text
  | [] => []
  | [entry] => entry
  | entry :: entries => entry ++ utf8 "; " ++ joinEntries entries

/-- Without the dots at the end. -/
def trimEndDots (s : Text) : Text := (s.reverse.dropWhile (· = 0x2e)).reverse

def syntheticDescription (description : Text) (catalog : List CatalogEntry) : Text :=
  if catalog.isEmpty then description
  else trimEndDots (Engine.trim description) ++ utf8 ". Available catalog " ++
    (if catalog.length = 1 then utf8 "entry" else utf8 "entries") ++ utf8 ": " ++
    joinEntries (catalog.map CatalogEntry.text) ++ utf8 "."

def ToolSearchToolParam.normalized (param : ToolSearchToolParam) : ToolSearchToolParam where
  description := some ((param.description.filter fun description => Engine.trim description ≠ []).getD
    "Search the client tool catalog")
  parameters := some (param.parameters.getD defaultParameters)

def syntheticToolSearch (declaration : ToolSearchToolParam) (catalog : List CatalogEntry) : ToolSearchToolParam :=
  let normalized := declaration.normalized
  { normalized with description := some (syntheticDescription (normalized.description.getD []) catalog) }

def FunctionToolParam.makeAvailable (param : FunctionToolParam) : FunctionToolParam := { param with defer_loading := none }

def privateMember (members : NamespaceMemberRecords) : CodexNamespaceMember → Option CodexNamespaceMember
  | .function param =>
    if (memberIndex members.ordered param.name.text).any fun index => (members.ordered.get index).loaded then
      some (.function param.makeAvailable)
    else none
  | .unknown => some .unknown

def privateNamespace (param : CodexNamespaceToolParam) (members : Option NamespaceMemberRecords) :
    Option CodexNamespaceToolParam := do
  let members ← members
  let tools := param.tools.filterMap (privateMember members)
  if tools.isEmpty then none else some { param with tools }

def privateDefinition (definitions : List DefinitionRecord) (tool : ResponsesTool) : Option ResponsesTool := do
  let identity ← (loadedToolIdentity tool).toOption.join
  let index ← definitionIndex definitions identity.name
  let record := definitions.get index
  match tool with
  | .function param =>
    if record.loaded ∨ param.defer_loading ≠ some true then some (.function param.makeAvailable) else none
  | .namespace param => (privateNamespace param record.namespace_members).map .namespace
  | _ => none

def privateTool (definitions : List DefinitionRecord) (synthetic_tool_search : Option ToolSearchToolParam) :
    ResponsesTool → Option ResponsesTool
  | .toolSearch _ => synthetic_tool_search.map .toolSearch
  | .function param => privateDefinition definitions (.function param)
  | .namespace param => privateDefinition definitions (.namespace param)
  | tool => some tool

/-- The tools the model sees. -/
def buildPrivateTools (public_tools : List ResponsesTool) (definitions : List DefinitionRecord)
    (synthetic_tool_search : Option ToolSearchToolParam) : List ResponsesTool :=
  public_tools.filterMap (privateTool definitions synthetic_tool_search)

def declaredSearch (tools : List ResponsesTool) : Option ToolSearchToolParam := tools.findSome? fun
  | .toolSearch declaration => some declaration
  | _ => none

/-- The definitions before anything is loaded. -/
def initialDefinitions (public_tools : List ResponsesTool) : Except ToolError DefinitionAccumulator := do
  let definitions ← indexInitialDefinitions public_tools.zipIdx []
  let withheld_function_names ← initialWithheldFunctionNames public_tools definitions
  return { public_tools, definitions, loaded_public_tools := [], withheld_function_names,
           prior_unknown_namespace_calls := ∅, unqualified_call_positions := [] }

/-- The whole state, built from the declared tools, the restored ones and the history. -/
def buildWithLoadedTools (readTool : Json → ResponsesTool) (request : RequestPayload)
    (restored_loaded_tools : List ResponsesTool) (restore_only_declared : Bool) : Except ToolError ToolSearchState := do
  let active_input := activeInput request.input
  if !(← validateToolSearchRequest request active_input) then return .default
  let items := inputItems active_input
  let declaration := declaredSearch (request.tools.getD [])
  if declaration.isNone && !items.any isSearchItem then
    throw (.config "defer_loading requires a tool_search declaration or replayed tool-search history")
  let acc ← initialDefinitions (request.tools.getD [])
  let acc ← restored_loaded_tools.foldlM (restoreLoadedDefinition restore_only_declared) acc
  let (private_upstream_input, acc) ← prepareHistory readTool active_input acc
  let _ ← validateNamespaceCollisions acc.public_tools
  let synthetic_tool_search := declaration.map fun declaration =>
    syntheticToolSearch declaration (buildCatalog acc.public_tools acc.definitions)
  let private_tools := buildPrivateTools acc.public_tools acc.definitions synthetic_tool_search
  return {
    activity := .active
    has_completed_search := !restored_loaded_tools.isEmpty || items.any isSearchOutput
    public_effective_tools :=
      if request.tools.isSome || !acc.public_tools.isEmpty then some acc.public_tools else none
    private_upstream_tools := if request.tools.isSome || !private_tools.isEmpty then some private_tools else none
    private_upstream_input := some private_upstream_input
    loaded_public_tools := acc.loaded_public_tools
    synthetic_tool_search
    withheld_function_names := acc.withheld_function_names
    unqualified_call_positions := acc.unqualified_call_positions }

end AgenticStack.Tools
