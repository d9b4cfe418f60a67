import AgenticStack.Tool.Declarations
import AgenticStack.Library.AssocList

/-!
# Namespaces of tools

The model knows the members of a namespace under flat names. Two names that
cannot be told apart, or that another tool has, are rejected.
-/

namespace AgenticStack.Tools
set_option autoImplicit false
open Library

def MODEL_VISIBLE_NAMESPACE_MEMBER_PREFIX : Text := "agentic_ns__"

def MAX_MODEL_VISIBLE_TOOL_NAME_LEN : Nat := 64

def HASHED_NAMESPACE_MEMBER_SUFFIX_LEN : Nat := 18

/-- FNV-1a. -/
def stableNameHash (value : Text) : UInt64 :=
  value.foldl (fun hash b => (hash ^^^ b.toUInt64) * 0x100000001b3) 0xcbf29ce484222325

/-- Sixteen hexadecimal digits. -/
def hex16 (n : UInt64) : Text := (List.range 16).map fun i => hexDigit ((n >>> (60 - 4 * i).toUInt64) &&& 0xf).toUInt8

/-- The flat name of a namespace member, cut and hashed where it is too long for the model. -/
def modelVisibleNamespaceMemberName («namespace» member : Text) : Text :=
  let full_name := MODEL_VISIBLE_NAMESPACE_MEMBER_PREFIX ++ «namespace» ++ utf8 "__" ++ member
  if charCount full_name ≤ MAX_MODEL_VISIBLE_TOOL_NAME_LEN then full_name
  else
    let readable_len := MAX_MODEL_VISIBLE_TOOL_NAME_LEN - HASHED_NAMESPACE_MEMBER_SUFFIX_LEN
    takeChars readable_len full_name ++ utf8 "__" ++ hex16 (stableNameHash full_name)

theorem modelVisibleNamespaceMemberName_ne_nil («namespace» member : Text) :
    modelVisibleNamespaceMemberName «namespace» member ≠ [] := by
  unfold modelVisibleNamespaceMemberName
  dsimp only
  split
  · have front : utf8 "agentic_ns__" ≠ [] := by decide
    simp [front, MODEL_VISIBLE_NAMESPACE_MEMBER_PREFIX]
  · simp [hex16]

/-- How the errors call each kind of tool. -/
def toolTypeDescription : ToolType → Text
  | .function => "function tool"
  | .toolSearch => "tool search"
  | .custom => "custom tool"
  | .shell => "shell tool"
  | .codexNamespace => "Codex namespace tool"
  | .mcp => "MCP tool"
  | .webSearch => "web search tool"
  | .fileSearch => "file search tool"
  | .codeInterpreter => "code interpreter tool"

/-- A namespace member by its two names. -/
structure NamespaceMemberName where
  «namespace» : Text
  name : Text
deriving DecidableEq

def NamespaceMemberName.flat (member : NamespaceMemberName) : Text :=
  modelVisibleNamespaceMemberName member.namespace member.name

structure NamespaceCallMapping where
  member : NamespaceMemberName
  upstream_name : Text

/-- The members of the declared namespaces, by their flat names and the other way around. -/
structure NamespaceMap where
  calls : List (Text × NamespaceCallMapping)
  members : List (NamespaceMemberName × Text)

/-- The keys of the other tools and the map built up to here. -/
structure NamespaceMapBuilder where
  top_level_registry_keys : List (Text × ToolType)
  map : NamespaceMap

namespace NamespaceMapBuilder

def new (top_level_registry_keys : List (Text × ToolType)) : NamespaceMapBuilder := ⟨top_level_registry_keys, ⟨[], []⟩⟩

/-- Records a member under its flat name, both ways. -/
def recordFlatMember (self : NamespaceMapBuilder) (member : NamespaceMemberName) : NamespaceMapBuilder :=
  { self with map :=
    { calls := insertEntry self.map.calls member.flat ⟨member, member.flat⟩
      members := insertEntry self.map.members member member.flat } }

/-- Refuses a flat name that a tool or another member already has. -/
def validateAndRecordFlatMember (self : NamespaceMapBuilder) (member : NamespaceMemberName) :
    Except ToolError NamespaceMapBuilder :=
  match self.top_level_registry_keys.lookup member.flat with
  | some tool_kind => .error (.config (utf8 "codex namespace member " ++ member.namespace ++ utf8 "." ++ member.name ++
      utf8 " generates name " ++ member.flat ++ utf8 ", which collides with a declared " ++ toolTypeDescription tool_kind))
  | none => match self.map.calls.lookup member.flat with
    | some existing =>
      if existing.member ≠ member then
        .error (.config (utf8 "codex namespace member " ++ member.namespace ++ utf8 "." ++ member.name ++
          utf8 " collides with " ++ existing.member.namespace ++ utf8 "." ++ existing.member.name ++
          utf8 " at generated name " ++ member.flat))
      else .ok (self.recordFlatMember member)
    | none => .ok (self.recordFlatMember member)

end NamespaceMapBuilder

def FunctionToolParam.flatten («namespace» : Text) (param : FunctionToolParam) : FunctionToolParam :=
  { param with name :=
    ⟨modelVisibleNamespaceMemberName «namespace» param.name.text, modelVisibleNamespaceMemberName_ne_nil _ _⟩ }

/-- The members under their flat names. -/
def renameMembers («namespace» : Text) : List CodexNamespaceMember → NamespaceMapBuilder →
    Except ToolError (List CodexNamespaceMember × NamespaceMapBuilder)
  | [], builder => .ok ([], builder)
  | .unknown :: members, builder => do
    let (members, builder) ← renameMembers «namespace» members builder
    return (.unknown :: members, builder)
  | .function param :: members, builder => do
    let builder ← builder.validateAndRecordFlatMember ⟨«namespace», param.name.text⟩
    let (members, builder) ← renameMembers «namespace» members builder
    return (.function (param.flatten «namespace») :: members, builder)

def renameNamespaceMembers (param : CodexNamespaceToolParam) (builder : NamespaceMapBuilder) :
    Except ToolError (CodexNamespaceToolParam × NamespaceMapBuilder) := do
  let (tools, builder) ← renameMembers param.name param.tools builder
  return ({ param with tools }, builder)

def ResponsesTool.toolType : ResponsesTool → Option ToolType
  | .function _ => some .function
  | .toolSearch _ => some .toolSearch
  | .mcp _ => some .mcp
  | .webSearch _ => some .webSearch
  | .fileSearch _ => some .fileSearch
  | .codeInterpreter => some .codeInterpreter
  | .namespace _ => some .codexNamespace
  | .custom _ => some .custom
  | .shell _ => some .shell
  | .unknown => none

/-- The registry key that a tool takes by its type alone. -/
def ResponsesTool.topLevelRegistryKey : ResponsesTool → Option Text
  | .function param => some param.name.text
  | .webSearch _ => some "web_search"
  | .fileSearch _ => some "file_search"
  | .codeInterpreter => some "code_interpreter"
  | .toolSearch _ | .mcp _ | .shell _ | .namespace _ | .custom _ | .unknown => none

def insertTypedKey (keys : List (Text × ToolType)) (tool : ResponsesTool) : List (Text × ToolType) :=
  match tool.topLevelRegistryKey, tool.toolType with
  | some key, some tool_type => insertEntry keys key tool_type
  | _, _ => keys

def typedTopLevelRegistryKeys (tools : List ResponsesTool) : List (Text × ToolType) := tools.foldl insertTypedKey []

/-- Each tool in turn, and the namespaces under flat names. -/
def renameTools : List ResponsesTool → NamespaceMapBuilder → Except ToolError (List ResponsesTool × NamespaceMapBuilder)
  | [], builder => .ok ([], builder)
  | .namespace param :: tools, builder => do
    let (param, builder) ← renameNamespaceMembers param builder
    let (tools, builder) ← renameTools tools builder
    return (.namespace param :: tools, builder)
  | tool :: tools, builder => do
    let (tools, builder) ← renameTools tools builder
    return (tool :: tools, builder)

/-- Renames every namespace member of the request's tools. -/
def resolveNamespaceMembers (tools : List ResponsesTool) : Except ToolError (List ResponsesTool) := do
  let (tools, _) ← renameTools tools (.new (typedTopLevelRegistryKeys tools))
  return tools

/-- The map between members and flat names, if the request has tools. -/
def buildNamespaceMap (tools : Option (List ResponsesTool)) : Except ToolError (Option NamespaceMap) :=
  match tools with
  | none => .ok none
  | some tools => do
    let (_, builder) ← renameTools tools (.new (typedTopLevelRegistryKeys tools))
    return some builder.map

/-- The flat name a choice of a namespace member is rewritten to. -/
def NamespaceMap.choiceMapping (map : NamespaceMap) («namespace» : Option Text) (name : Text) : Option NamespaceCallMapping :=
  match «namespace» with
  | some «namespace» => (map.members.lookup ⟨«namespace», name⟩).bind fun upstream_name => map.calls.lookup upstream_name
  | none => map.calls.lookup name

/-- The choice with a namespace member replaced by its flat name. -/
def resolveToolChoice (map : Option NamespaceMap) (tool_choice : Option ToolChoice) : ToolChoice :=
  match map, tool_choice.getD .auto with
  | some map, .function «namespace» name =>
    match map.choiceMapping «namespace» name.text with
    | some mapping =>
      if nonEmpty : mapping.upstream_name ≠ [] then .function none ⟨mapping.upstream_name, nonEmpty⟩
      else .function «namespace» name
    | none => .function «namespace» name
  | _, choice => choice

end AgenticStack.Tools
