import AgenticStack.Tool.Codex
import AgenticStack.Types.Lowering
import AgenticStack.Library.JsonOrder
import AgenticStack.Library.KeyedList
import Mathlib.Data.Finset.Image

/-!
# Definitions that a search loads

A tool search loads the definitions of deferred functions and of namespaces.
Each definition has a record: what it was declared as, where it stands among the
public tools, and whether it has been loaded.
-/

namespace AgenticStack.Tools
set_option autoImplicit false
open Library

/-- The identity of a definition that a search can load. -/
inductive LoadedToolIdentity where
  | function (name : Text)
  | «namespace» (name : Text)
deriving DecidableEq

namespace LoadedToolIdentity

def name : LoadedToolIdentity → Text
  | .function name | .namespace name => name

def kind : LoadedToolIdentity → Text
  | .function _ => "function"
  | .namespace _ => "namespace"

end LoadedToolIdentity

/-- `name` is the key under which the record is found. -/
structure NamespaceMemberRecord where
  name : Text
  canonical : Json
  public_member_index : Nat
  loaded : Bool

/-- The members of a namespace and how many are not loaded. -/
structure NamespaceMemberRecords where
  ordered : List NamespaceMemberRecord
  unloaded_count : Nat

/-- A declared definition as the search keeps it. -/
structure DefinitionRecord where
  identity : LoadedToolIdentity
  canonical : Json
  public_index : Nat
  loaded : Bool
  namespace_members : Option NamespaceMemberRecords

/-- What the passes over the definitions and the history change. -/
structure DefinitionAccumulator where
  public_tools : List ResponsesTool
  definitions : List DefinitionRecord
  loaded_public_tools : List ResponsesTool
  withheld_function_names : Finset Text
  prior_unknown_namespace_calls : Finset (Text × Text)
  unqualified_call_positions : List (Text × Nat)

def reservedToolSearchName : ToolError :=
  .config "model-visible tool name 'tool_search' is reserved while tool search is active"

def LoadedToolIdentity.check (identity : LoadedToolIdentity) : Except ToolError Unit :=
  if Engine.trim identity.name = [] then
    .error (.config (identity.kind ++ utf8 " definition identity must not be blank"))
  else if identity.name = TOOL_SEARCH_NAME then .error reservedToolSearchName
  else .ok ()

def ResponsesTool.identity : ResponsesTool → Option LoadedToolIdentity
  | .function param => some (.function param.name.text)
  | .namespace param => some (.namespace param.name)
  | .toolSearch _ | .mcp _ | .webSearch _ | .fileSearch _ | .codeInterpreter | .shell _ | .custom _ | .unknown => none

def loadedToolIdentity (tool : ResponsesTool) : Except ToolError (Option LoadedToolIdentity) :=
  match tool.identity with
  | none => .ok none
  | some identity => do
    identity.check
    return some identity

def FunctionToolParam.fields (param : FunctionToolParam) : List (Text × Json) :=
  [(utf8 "name", Json.str param.name.text)] ++ optField "description" (param.description.map .str) ++
    optField "parameters" param.parameters ++ optField "strict" (param.strict.map .bool) ++
    optField "defer_loading" (param.defer_loading.map .bool) ++ param.extra

def canonicalNamespaceMember (param : FunctionToolParam) : Json := (Json.obj param.fields).canonical

/-- A definition as it is compared, a namespace without its members. Other tools are not compared. -/
def ResponsesTool.canonicalDefinition : ResponsesTool → Json
  | .function param => (Json.obj ((utf8 "type", .str "function") :: param.fields)).canonical
  | .namespace param => (Json.obj ([(utf8 "type", Json.str "namespace"), (utf8 "name", Json.str param.name)] ++
      optField "description" (param.description.map .str) ++ [(utf8 "tools", Json.arr [])] ++ param.extra)).canonical
  | .toolSearch _ | .mcp _ | .webSearch _ | .fileSearch _ | .codeInterpreter | .shell _ | .custom _ | .unknown => .null

/-- The lookup in `indexes`. -/
def memberIndex (ordered : List NamespaceMemberRecord) (name : Text) : Option (Fin ordered.length) :=
  keyIndex NamespaceMemberRecord.name ordered name

/-- The lookup in `definition_indexes`. -/
def definitionIndex (definitions : List DefinitionRecord) (name : Text) : Option (Fin definitions.length) :=
  keyIndex (fun record => record.identity.name) definitions name

def NamespaceMemberRecords.push (self : NamespaceMemberRecords) (record : NamespaceMemberRecord) : NamespaceMemberRecords :=
  ⟨self.ordered ++ [record], self.unloaded_count + if record.loaded then 0 else 1⟩

/-- Every member before is a function, so that the next one stands at the number of records. -/
def recordMembers («namespace» : Text) (dynamically_loaded : Bool) : List CodexNamespaceMember → NamespaceMemberRecords →
    Except ToolError NamespaceMemberRecords
  | [], records => .ok records
  | .unknown :: _, _ => .error (.config "tool-search namespaces may contain only function members")
  | .function param :: members, records =>
    if (memberIndex records.ordered param.name.text).isSome then
      .error (.config (utf8 "duplicate namespace member identity '" ++ «namespace» ++ utf8 "." ++ param.name.text ++ utf8 "'"))
    else recordMembers «namespace» dynamically_loaded members (records.push
      { name := param.name.text
        canonical := canonicalNamespaceMember param
        public_member_index := records.ordered.length
        loaded := dynamically_loaded || param.defer_loading ≠ some true })

def namespaceMemberRecords (param : CodexNamespaceToolParam) (dynamically_loaded : Bool) :
    Except ToolError NamespaceMemberRecords :=
  if param.tools.isEmpty then .error (.config "tool-search namespaces must contain at least one function member")
  else recordMembers param.name dynamically_loaded param.tools ⟨[], 0⟩

/-- Given a tool that has an identity. -/
def definitionRecord (tool : ResponsesTool) (identity : LoadedToolIdentity) (public_index : Nat) (dynamically_loaded : Bool) :
    Except ToolError DefinitionRecord :=
  match tool with
  | .namespace param => do
    let members ← namespaceMemberRecords param dynamically_loaded
    return { identity, canonical := tool.canonicalDefinition, public_index, loaded := members.unloaded_count = 0,
             namespace_members := some members }
  | .function _ => .ok { identity, canonical := tool.canonicalDefinition, public_index, loaded := dynamically_loaded,
                         namespace_members := none }
  | _ => .error (.config "tool-search definition record received an unsupported tool")

/-- Indexes the declared definitions, refusing a repeated one. -/
def indexInitialDefinitions : List (ResponsesTool × Nat) → List DefinitionRecord → Except ToolError (List DefinitionRecord)
  | [], definitions => .ok definitions
  | (tool, public_index) :: tools, definitions => do
    match ← loadedToolIdentity tool with
    | none => indexInitialDefinitions tools definitions
    | some identity =>
      if (definitionIndex definitions identity.name).isSome then
        throw (.config (utf8 "duplicate tool-search definition identity '" ++ identity.name ++ utf8 "'"))
      let record ← definitionRecord tool identity public_index false
      indexInitialDefinitions tools (definitions ++ [record])

def namespaceAvailabilityInconsistent : ToolError := .config "namespace availability state is inconsistent"

def withholdMember («namespace» : Text) (members : NamespaceMemberRecords) (withheld : Finset Text) :
    CodexNamespaceMember → Except ToolError (Finset Text)
  | .unknown => .ok withheld
  | .function param => match memberIndex members.ordered param.name.text with
    | none => .error namespaceAvailabilityInconsistent
    | some index => .ok (if (members.ordered.get index).loaded then withheld
        else insert (modelVisibleNamespaceMemberName «namespace» param.name.text) withheld)

def withholdTool (definitions : List DefinitionRecord) (withheld : Finset Text) : ResponsesTool → Except ToolError (Finset Text)
  | .function param => .ok (if param.defer_loading = some true then insert param.name.text withheld else withheld)
  | .namespace param => match (definitionIndex definitions param.name).bind fun index => (definitions.get index).namespace_members with
    | none => .error namespaceAvailabilityInconsistent
    | some members => param.tools.foldlM (withholdMember param.name members) withheld
  | _ => .ok withheld

/-- The names that the request withholds before any search. -/
def initialWithheldFunctionNames (public_tools : List ResponsesTool) (definitions : List DefinitionRecord) :
    Except ToolError (Finset Text) := public_tools.foldlM (withholdTool definitions) ∅

def withheldFunctionHistoryCall : ToolError := .config "request history calls a function before its definition is loaded"

def DefinitionAccumulator.calledUnqualified (self : DefinitionAccumulator) (name : Text) : Bool :=
  (self.unqualified_call_positions.lookup name).isSome

def ensureNamespaceMembersDoNotResolvePriorCalls («namespace» : Text) (acc : DefinitionAccumulator)
    (members : List CodexNamespaceMember) : Except ToolError Unit :=
  members.forM fun
    | .unknown => .ok ()
    | .function param =>
      if («namespace», param.name.text) ∈ acc.prior_unknown_namespace_calls ∨
          acc.calledUnqualified (modelVisibleNamespaceMemberName «namespace» param.name.text) then
        .error withheldFunctionHistoryCall
      else .ok ()

/-- What the loop over the returned members changes. -/
structure MemberLoading where
  public_members : List CodexNamespaceMember
  members : NamespaceMemberRecords
  withheld_function_names : Finset Text
  newly_loaded : List CodexNamespaceMember

/-- One returned member put among the loaded ones. -/
def MemberLoading.load («namespace» : Text) (self : MemberLoading) (member : CodexNamespaceMember) :
    Except ToolError MemberLoading :=
  match member with
  | .unknown => .error (.config "tool_search_output namespaces may contain only function members")
  | .function param => match memberIndex self.members.ordered param.name.text with
    | some index =>
      let record := self.members.ordered.get index
      if record.canonical ≠ canonicalNamespaceMember param then
        .error (.config (utf8 "loaded namespace member '" ++ «namespace» ++ utf8 "." ++ param.name.text ++
          utf8 "' conflicts with its existing schema, description, or configuration"))
      else if record.loaded then .ok self
      else if self.members.unloaded_count = 0 then
        .error (.config "namespace member availability state is inconsistent")
      else .ok
        { self with
          members := ⟨self.members.ordered.set index { record with loaded := true }, self.members.unloaded_count - 1⟩
          withheld_function_names :=
            self.withheld_function_names.erase (modelVisibleNamespaceMemberName «namespace» param.name.text)
          newly_loaded := self.newly_loaded ++ (self.public_members[record.public_member_index]?).toList }
    | none => .ok
      { self with
        public_members := self.public_members ++ [member]
        members := ⟨self.members.ordered ++ [⟨param.name.text, canonicalNamespaceMember param, self.public_members.length, true⟩],
          self.members.unloaded_count⟩
        newly_loaded := self.newly_loaded ++ [member] }

/-- A member the namespace does not have yet. -/
def isNewMember (members : NamespaceMemberRecords) : CodexNamespaceMember → Bool
  | .function param => (memberIndex members.ordered param.name.text).isNone
  | .unknown => true

/-- Loads the returned members of a namespace. -/
def loadNamespaceMembers (returned : CodexNamespaceToolParam) (acc : DefinitionAccumulator)
    (index : Fin acc.definitions.length) : Except ToolError DefinitionAccumulator :=
  let record := acc.definitions.get index
  if returned.tools.isEmpty then
    .error (.config "tool_search_output namespaces must contain at least one function member")
  else match acc.public_tools[record.public_index]?, record.namespace_members with
    | some (.namespace public_namespace), some members => do
      ensureNamespaceMembersDoNotResolvePriorCalls returned.name acc (returned.tools.filter (isNewMember members))
      let loading ← returned.tools.foldlM (MemberLoading.load returned.name)
        ⟨public_namespace.tools, members, acc.withheld_function_names, []⟩
      let public_namespace := { public_namespace with tools := loading.public_members }
      return { acc with
        public_tools := acc.public_tools.set record.public_index (.namespace public_namespace)
        definitions := acc.definitions.set index
          { record with loaded := loading.members.unloaded_count = 0, namespace_members := some loading.members }
        loaded_public_tools := acc.loaded_public_tools ++
          if loading.newly_loaded.isEmpty then [] else [.namespace { public_namespace with tools := loading.newly_loaded }]
        withheld_function_names := loading.withheld_function_names }
    | some (.namespace _), none => .error (.config "namespace definition is missing prepared member state")
    | _, _ => .error (.config "namespace identity conflicts with an existing non-namespace definition")

/-- The checks on a definition that has not been seen before. -/
def ensureNewDefinition (acc : DefinitionAccumulator) : ResponsesTool → Except ToolError Unit
  | .function param => if acc.calledUnqualified param.name.text then .error withheldFunctionHistoryCall else .ok ()
  | .namespace param => ensureNamespaceMembersDoNotResolvePriorCalls param.name acc param.tools
  | _ => .ok ()

def loadFunction (acc : DefinitionAccumulator) (index : Fin acc.definitions.length) : Except ToolError DefinitionAccumulator :=
  let record := acc.definitions.get index
  if record.loaded then .ok acc
  else if record.identity.name ∈ acc.withheld_function_names ∧ acc.calledUnqualified record.identity.name then
    .error withheldFunctionHistoryCall
  else .ok
    { acc with
      definitions := acc.definitions.set index { record with loaded := true }
      withheld_function_names := acc.withheld_function_names.erase record.identity.name
      loaded_public_tools := acc.loaded_public_tools ++ (acc.public_tools[record.public_index]?).toList }

/-- Loads one returned definition. -/
def loadDefinition (acc : DefinitionAccumulator) (tool : ResponsesTool) : Except ToolError DefinitionAccumulator := do
  match ← loadedToolIdentity tool with
  | none => throw (.config "tool_search_output contains an unsupported tool definition")
  | some identity =>
    match definitionIndex acc.definitions identity.name with
    | some index =>
      let record := acc.definitions.get index
      if record.identity ≠ identity ∨ record.canonical ≠ tool.canonicalDefinition then
        throw (.config (utf8 "loaded definition for identity '" ++ identity.name ++
          utf8 "' conflicts with its existing type, schema, description, or configuration"))
      match tool with
      | .namespace returned => loadNamespaceMembers returned acc index
      | _ => loadFunction acc index
    | none =>
      ensureNewDefinition acc tool
      let record ← definitionRecord tool identity acc.public_tools.length true
      return { acc with
        public_tools := acc.public_tools ++ [tool]
        definitions := acc.definitions ++ [record]
        loaded_public_tools := acc.loaded_public_tools ++ [tool] }

end AgenticStack.Tools
