import AgenticStack.Tool.Flattening
import AgenticStack.Tool.McpNames
import AgenticStack.Types.Lowering

/-!
# Calls of namespace members

A call or a choice that names a namespace and a member goes upstream under the
member's flat name. What comes back under a flat name is given its namespace and
name again.
-/

namespace AgenticStack.Tools
set_option autoImplicit false
open Library

namespace NamespaceMap

def publicMember (self : NamespaceMap) (name : Text) : Option (Text × Text) :=
  (self.calls.lookup name).map fun mapping => (mapping.member.namespace, mapping.member.name)

/-- The recorded mapping of a namespace member. -/
def mappingForMember (self : NamespaceMap) («namespace» name : Text) : Option NamespaceCallMapping :=
  (self.members.lookup ⟨«namespace», name⟩).bind fun upstream_name => self.calls.lookup upstream_name

end NamespaceMap

def isMappedCall (map : NamespaceMap) : InputItem → Bool
  | .functionCall call => call.namespace.any fun «namespace» => (map.mappingForMember «namespace» call.name).isSome
  | _ => false

/-- `rewrite_input_with_map`, for one item. -/
def rewriteItem (map : NamespaceMap) : InputItem → InputItem
  | .functionCall call => match call.namespace.bind fun «namespace» => map.mappingForMember «namespace» call.name with
    | some mapping => .functionCall { call with name := mapping.upstream_name, «namespace» := none }
    | none => .functionCall call
  | item => item

/-- Renames the calls of the input to their flat names. -/
def resolveInput (map : Option NamespaceMap) (input : ResponsesInput) : ResponsesInput :=
  match map, input with
  | some map, .items items => if items.any (isMappedCall map) then .items (items.map (rewriteItem map)) else .items items
  | _, input => input

/-- Gives a call back its namespace and member name. -/
def restoreFunctionCall (map : NamespaceMap) (call : FunctionToolCall) : FunctionToolCall :=
  if call.namespace.isSome then call
  else match map.publicMember call.name with
    | some («namespace», name) => { call with «namespace» := some «namespace», name }
    | none => call

def restoreOutputItem (map : NamespaceMap) : OutputItem → OutputItem
  | .functionCall call => .functionCall (restoreFunctionCall map call)
  | item => item

def restoreOutputItems (map : Option NamespaceMap) (output : List OutputItem) : List OutputItem :=
  match map with
  | some map => output.map (restoreOutputItem map)
  | none => output

/-- The text under a key. -/
def textAt (fields : List (Text × Json)) (key : Text) : Option Text := (fields.lookup key).bind Json.asStr

/-- An object of the given type that has a flat name and no namespace gets both. -/
def restoreNamed (type : Text) (map : NamespaceMap) : Json → Json
  | .obj fields =>
    if textAt fields "type" ≠ some type ∨ (textAt fields "namespace").isSome then .obj fields
    else match (textAt fields "name").bind map.publicMember with
      | some («namespace», name) => .obj (insertField (insertField fields "namespace" (.str «namespace»)) "name" (.str name))
      | none => .obj fields
  | v => v

def restoreCallValue : NamespaceMap → Json → Json := restoreNamed "function_call"

def restoreToolChoice : NamespaceMap → Json → Json := restoreNamed "function"

def restoreOutputValue (map : NamespaceMap) : Json → Json
  | .arr items => .arr (items.map (restoreCallValue map))
  | v => v

mutual

/-- A response, or what a wrapper around one holds. Restoring the object itself changes none of the fields below. -/
def restoreResponseValue (map : NamespaceMap) : Json → Json
  | .obj fields => restoreCallValue map (.obj (restoreResponseFields map fields))
  | .null => .null
  | .bool b => .bool b
  | .num n => .num n
  | .str s => .str s
  | .arr items => .arr items

/-- `restore_response_map_with_map`. -/
def restoreResponseFields (map : NamespaceMap) : List (Text × Json) → List (Text × Json)
  | [] => []
  | (key, v) :: fields =>
    (key, if key = "tool_choice" then restoreToolChoice map v
      else if key = "item" then restoreCallValue map v
      else if key = "response" ∨ key = "payload" then restoreResponseValue map v
      else if key = "output" then restoreOutputValue map v
      else v) :: restoreResponseFields map fields

end

/-- The same for a response event on the wire. -/
def restoreResponseWire (wire : WireEvent) (map : Option NamespaceMap) : WireEvent :=
  match map with
  | some map => { wire with rest := restoreResponseFields map wire.rest }
  | none => wire

variable {builder : NamespaceMapBuilder} {recorded more : List NamespaceMemberName} {member : NamespaceMemberName}
  {tools : List ResponsesTool} {map : NamespaceMap} {name : Text}

/-- `map` knows exactly the members in `recorded`, by their flat names. -/
structure Maps (recorded : List NamespaceMemberName) (map : NamespaceMap) : Prop where
  call : ∀ name mapping, map.calls.lookup name = some mapping →
    mapping.member ∈ recorded ∧ mapping.member.flat = name ∧ mapping.upstream_name = name
  known : ∀ member ∈ recorded, ∃ mapping, map.calls.lookup member.flat = some mapping
  flat : ∀ member, map.members.lookup member = if member ∈ recorded then some member.flat else none

theorem maps_nil : Maps [] ⟨[], []⟩ := ⟨fun _ _ no => (nomatch no), fun _ no => (nomatch no), fun _ => rfl⟩

theorem Maps.record (h : Maps recorded builder.map) : Maps (recorded ++ [member]) (builder.recordFlatMember member).map := by
  refine ⟨fun name mapping found => ?_, fun other mem => ?_, fun other => ?_⟩
  · by_cases same : name = member.flat
    · subst same
      have new : (builder.recordFlatMember member).map.calls.lookup member.flat = some ⟨member, member.flat⟩ :=
        lookup_insertEntry_self
      rw [new] at found
      cases found
      exact ⟨List.mem_append_right _ List.mem_cons_self, rfl, rfl⟩
    · have old : (builder.recordFlatMember member).map.calls.lookup name = builder.map.calls.lookup name :=
        lookup_insertEntry_ne same
      rw [old] at found
      obtain ⟨mem, rest⟩ := h.call name mapping found
      exact ⟨List.mem_append_left _ mem, rest⟩
  · by_cases same : other.flat = member.flat
    · rw [same]
      exact ⟨_, lookup_insertEntry_self⟩
    · have old : (builder.recordFlatMember member).map.calls.lookup other.flat = builder.map.calls.lookup other.flat :=
        lookup_insertEntry_ne same
      rw [old]
      rcases List.mem_append.1 mem with before | here
      · exact h.known other before
      · exact absurd (congrArg NamespaceMemberName.flat (List.mem_singleton.1 here)) same
  · by_cases same : other = member
    · subst same
      rw [if_pos (List.mem_append_right _ List.mem_cons_self)]
      exact lookup_insertEntry_self
    · have old : (builder.recordFlatMember member).map.members.lookup other = builder.map.members.lookup other :=
        lookup_insertEntry_ne same
      have grows : other ∈ recorded ++ [member] ↔ other ∈ recorded := by
        rw [List.mem_append, List.mem_singleton]
        exact or_iff_left same
      rw [old, h.flat]
      by_cases before : other ∈ recorded
      · rw [if_pos before, if_pos (grows.2 before)]
      · rw [if_neg before, if_neg (mt grows.1 before)]

theorem Maps.recordAll (h : Maps recorded builder.map) : Maps (recorded ++ more) (builder.recordAll more).map := by
  induction more generalizing builder recorded with
  | nil =>
    rw [List.append_nil]
    exact h
  | cons member more ih =>
    have next := ih (@Maps.record _ _ member h)
    rw [List.append_assoc, List.singleton_append] at next
    exact next

/-- **The map of the declared tools.** -/
theorem buildNamespaceMap_maps (h : buildNamespaceMap (some tools) = .ok (some map)) : Unambiguous tools ∧ Maps (members tools) map := by
  obtain ⟨⟨renamed, builder⟩, ok, same⟩ := bind_eq_ok.1 h
  obtain ⟨recordable, _, rfl⟩ := (renameTools_ok (records_new _) apart_nil).1 ok
  cases pure_eq_ok.1 same
  have start : Maps [] (NamespaceMapBuilder.new (typedTopLevelRegistryKeys tools)).map := maps_nil
  exact ⟨recordable_iff_unambiguous.1 recordable, start.recordAll⟩

theorem Maps.publicMember (h : Maps (members tools) map) (unambiguous : Unambiguous tools) (mem : member ∈ members tools) :
    map.publicMember member.flat = some (member.namespace, member.name) := by
  obtain ⟨mapping, found⟩ := h.known member mem
  obtain ⟨known, same, _⟩ := h.call _ _ found
  rw [NamespaceMap.publicMember, found, Option.map_some, unambiguous.unique member mem _ known same]

theorem Maps.publicMember_none (h : Maps recorded map) (other : ∀ member ∈ recorded, member.flat ≠ name) :
    map.publicMember name = none := by
  rw [NamespaceMap.publicMember, Option.map_eq_none_iff]
  cases found : map.calls.lookup name with
  | none => rfl
  | some mapping =>
    obtain ⟨known, same, _⟩ := h.call _ _ found
    exact absurd same (other _ known)

theorem Maps.mappingForMember (h : Maps recorded map) (mem : member ∈ recorded) :
    ∃ mapping, map.mappingForMember member.namespace member.name = some mapping ∧ mapping.upstream_name = member.flat := by
  obtain ⟨mapping, found⟩ := h.known member mem
  refine ⟨mapping, ?_, (h.call _ _ found).2.2⟩
  have flat := h.flat member
  rw [if_pos mem] at flat
  rw [NamespaceMap.mappingForMember, flat]
  exact found

theorem Maps.mappingForMember_none {«namespace» : Text} (h : Maps recorded map) (other : ⟨«namespace», name⟩ ∉ recorded) :
    map.mappingForMember «namespace» name = none := by
  rw [NamespaceMap.mappingForMember, h.flat, if_neg other]
  rfl

end AgenticStack.Tools
