import AgenticStack.Tool.Codex
import AgenticStack.Library.Outcome

/-!
# When namespaces can be flattened

The members of all namespaces can be flattened when no tool of another kind has
the flat name of one, and no two of them share it. Nothing of this depends on the
order of the tools.
-/

namespace AgenticStack.Tools
set_option autoImplicit false
open Library

def CodexNamespaceMember.functionName : CodexNamespaceMember → Option Text
  | .function param => some param.name.text
  | .unknown => none

/-- The names of the function members, in their order. -/
def CodexNamespaceToolParam.functionNames (param : CodexNamespaceToolParam) : List Text :=
  param.tools.filterMap CodexNamespaceMember.functionName

def ResponsesTool.members : ResponsesTool → List NamespaceMemberName
  | .namespace param => param.functionNames.map (⟨param.name, ·⟩)
  | _ => []

def members (tools : List ResponsesTool) : List NamespaceMemberName := tools.flatMap ResponsesTool.members

def CodexNamespaceMember.flatten («namespace» : Text) : CodexNamespaceMember → CodexNamespaceMember
  | .function param => .function (param.flatten «namespace»)
  | .unknown => .unknown

def ResponsesTool.flatten : ResponsesTool → ResponsesTool
  | .namespace param => .namespace { param with tools := param.tools.map (·.flatten param.name) }
  | tool => tool

/-- The members can be told apart by their flat names, from each other and from the tools of other kinds. -/
structure Unambiguous (tools : List ResponsesTool) : Prop where
  apart : ∀ member ∈ members tools, ∀ tool ∈ tools, tool.topLevelRegistryKey ≠ some member.flat
  unique : ∀ member ∈ members tools, ∀ other ∈ members tools, other.flat = member.flat → other = member

theorem Unambiguous.perm {tools tools' : List ResponsesTool} (perm : tools'.Perm tools) (h : Unambiguous tools) :
    Unambiguous tools' := by
  have same : ∀ member, member ∈ members tools' ↔ member ∈ members tools := fun member =>
    (perm.flatMap_right ResponsesTool.members).mem_iff
  refine ⟨fun member mem tool tool_mem => ?_, fun member mem other other_mem => ?_⟩
  · exact h.apart member ((same member).1 mem) tool (perm.mem_iff.1 tool_mem)
  · exact h.unique member ((same member).1 mem) other ((same other).1 other_mem)

theorem toolType_of_key {tool : ResponsesTool} {key : Text} (h : tool.topLevelRegistryKey = some key) :
    ∃ tool_type, tool.toolType = some tool_type := by
  cases tool <;> simp [ResponsesTool.topLevelRegistryKey] at h <;> exact ⟨_, rfl⟩

theorem typedKeys_lookup {name : Text} (tools : List ResponsesTool) (keys : List (Text × ToolType)) :
    (tools.foldl insertTypedKey keys).lookup name = none ↔
      keys.lookup name = none ∧ ∀ tool ∈ tools, tool.topLevelRegistryKey ≠ some name := by
  induction tools generalizing keys with
  | nil => simp
  | cons tool tools ih =>
    rw [List.foldl_cons, ih, insertTypedKey]
    cases key : tool.topLevelRegistryKey with
    | none => simp [key]
    | some key' =>
      obtain ⟨tool_type, typed⟩ := toolType_of_key key
      simp only [typed]
      by_cases same : key' = name
      · subst same
        rw [lookup_insertEntry_self]
        simp [key]
      · rw [lookup_insertEntry_ne fun other => same other.symm]
        simp [key, same]

theorem topLevel_lookup {tools : List ResponsesTool} {name : Text} :
    (typedTopLevelRegistryKeys tools).lookup name = none ↔ ∀ tool ∈ tools, tool.topLevelRegistryKey ≠ some name := by
  rw [typedTopLevelRegistryKeys, typedKeys_lookup]
  simp

/-- `builder` has recorded exactly `recorded`. -/
structure Records (builder : NamespaceMapBuilder) (recorded : List NamespaceMemberName) : Prop where
  known : ∀ name mapping, builder.map.calls.lookup name = some mapping → mapping.member ∈ recorded ∧ mapping.member.flat = name
  found : ∀ member ∈ recorded, ∃ mapping, builder.map.calls.lookup member.flat = some mapping

variable {builder builder' : NamespaceMapBuilder} {recorded : List NamespaceMemberName} {member : NamespaceMemberName}
  {tools renamed : List ResponsesTool}

theorem Records.record (h : Records builder recorded) : Records (builder.recordFlatMember member) (recorded ++ [member]) := by
  refine ⟨fun name mapping found => ?_, fun other mem => ?_⟩
  · by_cases same : name = member.flat
    · subst same
      have new : (builder.recordFlatMember member).map.calls.lookup member.flat = some ⟨member, member.flat⟩ :=
        lookup_insertEntry_self
      rw [new] at found
      cases found
      exact ⟨List.mem_append_right _ List.mem_cons_self, rfl⟩
    · have old : (builder.recordFlatMember member).map.calls.lookup name = builder.map.calls.lookup name :=
        lookup_insertEntry_ne same
      rw [old] at found
      exact ⟨List.mem_append_left _ (h.known name mapping found).1, (h.known name mapping found).2⟩
  · by_cases same : other.flat = member.flat
    · rw [same]
      exact ⟨_, lookup_insertEntry_self⟩
    · have old : (builder.recordFlatMember member).map.calls.lookup other.flat = builder.map.calls.lookup other.flat :=
        lookup_insertEntry_ne same
      rw [old]
      rcases List.mem_append.1 mem with before | here
      · exact h.found other before
      · exact absurd (congrArg NamespaceMemberName.flat (List.mem_singleton.1 here)) same

/-- No two of the members share a flat name. -/
def Apart (members : List NamespaceMemberName) : Prop := ∀ member ∈ members, ∀ other ∈ members, other.flat = member.flat → other = member

theorem Apart.of_subset {members members' : List NamespaceMemberName} (apart : Apart members') (within : members ⊆ members') :
    Apart members := fun member mem other other_mem => apart member (within mem) other (within other_mem)

theorem apart_snoc (apart : Apart recorded) :
    Apart (recorded ++ [member]) ↔ ∀ other ∈ recorded, other.flat = member.flat → other = member := by
  constructor
  · intro all other mem
    exact all member (List.mem_append_right _ List.mem_cons_self) other (List.mem_append_left _ mem)
  · intro free a a_mem b b_mem same
    rcases List.mem_append.1 a_mem with a_before | a_here <;> rcases List.mem_append.1 b_mem with b_before | b_here
    · exact apart a a_before b b_before same
    · rw [List.mem_singleton.1 b_here] at same ⊢
      exact (free a a_before same.symm).symm
    · rw [List.mem_singleton.1 a_here] at same ⊢
      exact free b b_before same
    · rw [List.mem_singleton.1 a_here, List.mem_singleton.1 b_here]

/-- **What recording a member takes**: its flat name is free, or it is recorded already. -/
theorem validateAndRecord_ok (h : Records builder recorded) (apart : Apart recorded) :
    builder.validateAndRecordFlatMember member = .ok builder' ↔
      builder.top_level_registry_keys.lookup member.flat = none ∧ Apart (recorded ++ [member]) ∧
        builder' = builder.recordFlatMember member := by
  rw [apart_snoc apart]
  unfold NamespaceMapBuilder.validateAndRecordFlatMember
  cases key : builder.top_level_registry_keys.lookup member.flat with
  | some tool_kind => simp
  | none =>
    cases call : builder.map.calls.lookup member.flat with
    | none =>
      have free : ∀ other ∈ recorded, other.flat = member.flat → other = member := by
        intro other mem same
        obtain ⟨mapping, found⟩ := h.found other mem
        rw [same, call] at found
        cases found
      simp only [Except.ok.injEq, true_and]
      exact ⟨fun same => ⟨free, same.symm⟩, fun ⟨_, same⟩ => same.symm⟩
    | some existing =>
      obtain ⟨mem, flat⟩ := h.known _ existing call
      by_cases same : existing.member = member
      · dsimp only
        rw [if_neg fun distinct => distinct same]
        have free : ∀ other ∈ recorded, other.flat = member.flat → other = member := fun other other_mem equal =>
          (apart _ mem other other_mem (equal.trans flat.symm)).trans same
        simp only [Except.ok.injEq, true_and]
        exact ⟨fun same => ⟨free, same.symm⟩, fun ⟨_, same⟩ => same.symm⟩
      · dsimp only
        rw [if_pos same]
        simp only [reduceCtorEq, false_iff, not_and]
        exact fun _ free => absurd (free _ mem flat) same

def NamespaceMapBuilder.recordAll (builder : NamespaceMapBuilder) (more : List NamespaceMemberName) : NamespaceMapBuilder :=
  more.foldl recordFlatMember builder

theorem keys_recordAll (more : List NamespaceMemberName) :
    (builder.recordAll more).top_level_registry_keys = builder.top_level_registry_keys := by
  induction more generalizing builder with
  | nil => rfl
  | cons member more ih => exact ih

theorem Records.recordAll (more : List NamespaceMemberName) (h : Records builder recorded) :
    Records (builder.recordAll more) (recorded ++ more) := by
  induction more generalizing builder recorded with
  | nil =>
    rw [List.append_nil]
    exact h
  | cons member more ih =>
    have next := ih (@Records.record _ _ member h)
    rw [List.append_assoc, List.singleton_append] at next
    exact next

/-- The members `more` can be recorded behind `recorded`. -/
def Recordable (keys : List (Text × ToolType)) (recorded more : List NamespaceMemberName) : Prop :=
  (∀ member ∈ more, keys.lookup member.flat = none) ∧ Apart (recorded ++ more)

variable {keys : List (Text × ToolType)} {more : List NamespaceMemberName}

theorem recordable_nil (apart : Apart recorded) : Recordable keys recorded [] := by
  refine ⟨fun member mem => absurd mem (List.not_mem_nil), ?_⟩
  rw [List.append_nil]
  exact apart

theorem recordable_append {first : List NamespaceMemberName} :
    Recordable keys recorded (first ++ more) ↔ Recordable keys recorded first ∧ Recordable keys (recorded ++ first) more := by
  unfold Recordable
  rw [List.append_assoc]
  constructor
  · rintro ⟨free, apart⟩
    refine ⟨⟨fun member mem => free member (List.mem_append_left _ mem), apart.of_subset ?_⟩,
      fun member mem => free member (List.mem_append_right _ mem), apart⟩
    rw [← List.append_assoc]
    exact List.subset_append_left _ _
  · rintro ⟨⟨free, _⟩, free', apart⟩
    refine ⟨fun member mem => ?_, apart⟩
    rcases List.mem_append.1 mem with here | later
    · exact free member here
    · exact free' member later

theorem recordable_single :
    Recordable keys recorded [member] ↔ keys.lookup member.flat = none ∧ Apart (recorded ++ [member]) := by
  unfold Recordable
  simp

/-- The names `members` of the namespace. -/
def memberNames («namespace» : Text) (members : List CodexNamespaceMember) : List NamespaceMemberName :=
  (members.filterMap CodexNamespaceMember.functionName).map (⟨«namespace», ·⟩)

theorem renameMembers_ok {«namespace» : Text} {members members' : List CodexNamespaceMember} (h : Records builder recorded)
    (apart : Apart recorded) :
    renameMembers «namespace» members builder = .ok (members', builder') ↔
      Recordable builder.top_level_registry_keys recorded (memberNames «namespace» members) ∧
        members' = members.map (·.flatten «namespace») ∧ builder' = builder.recordAll (memberNames «namespace» members) := by
  induction members generalizing builder builder' recorded members' with
  | nil =>
    simp only [renameMembers, Except.ok.injEq, Prod.mk.injEq]
    constructor
    · rintro ⟨rfl, rfl⟩
      exact ⟨recordable_nil apart, rfl, rfl⟩
    · rintro ⟨_, rfl, rfl⟩
      exact ⟨rfl, rfl⟩
  | cons first members ih =>
    cases first with
    | unknown =>
      rw [renameMembers, bind_eq_ok]
      constructor
      · rintro ⟨⟨later, builder₁⟩, renamed, same⟩
        obtain ⟨recordable, rfl, rfl⟩ := (ih h apart).1 renamed
        cases pure_eq_ok.1 same
        exact ⟨recordable, rfl, rfl⟩
      · rintro ⟨recordable, rfl, rfl⟩
        exact ⟨_, (ih h apart).2 ⟨recordable, rfl, rfl⟩, rfl⟩
    | function param =>
      have names : memberNames «namespace» (.function param :: members) =
          [⟨«namespace», param.name.text⟩] ++ memberNames «namespace» members := rfl
      rw [renameMembers, bind_eq_ok, names, recordable_append, recordable_single]
      constructor
      · rintro ⟨builder₁, first, rest⟩
        obtain ⟨free, apart₁, rfl⟩ := (validateAndRecord_ok h apart).1 first
        obtain ⟨⟨later, builder₂⟩, renamed, same⟩ := bind_eq_ok.1 rest
        obtain ⟨recordable, rfl, rfl⟩ := (ih h.record apart₁).1 renamed
        cases pure_eq_ok.1 same
        exact ⟨⟨⟨free, apart₁⟩, recordable⟩, rfl, rfl⟩
      · rintro ⟨⟨⟨free, apart₁⟩, recordable⟩, rfl, rfl⟩
        refine ⟨_, (validateAndRecord_ok h apart).2 ⟨free, apart₁, rfl⟩, ?_⟩
        exact bind_eq_ok.2 ⟨_, (ih h.record apart₁).2 ⟨recordable, rfl, rfl⟩, rfl⟩

theorem members_cons (tool : ResponsesTool) (tools : List ResponsesTool) : members (tool :: tools) = tool.members ++ members tools := rfl

/-- **What flattening all namespaces takes.** -/
theorem renameTools_ok (h : Records builder recorded) (apart : Apart recorded) :
    renameTools tools builder = .ok (renamed, builder') ↔
      Recordable builder.top_level_registry_keys recorded (members tools) ∧ renamed = tools.map ResponsesTool.flatten ∧
        builder' = builder.recordAll (members tools) := by
  induction tools generalizing builder builder' recorded renamed with
  | nil =>
    simp only [renameTools, Except.ok.injEq, Prod.mk.injEq]
    constructor
    · rintro ⟨rfl, rfl⟩
      exact ⟨recordable_nil apart, rfl, rfl⟩
    · rintro ⟨_, rfl, rfl⟩
      exact ⟨rfl, rfl⟩
  | cons tool tools ih =>
    have other (unnamed : tool.members = []) (flat : tool.flatten = tool)
        (step : renameTools (tool :: tools) builder =
          renameTools tools builder >>= fun later => pure (tool :: later.1, later.2)) :
        renameTools (tool :: tools) builder = .ok (renamed, builder') ↔
          Recordable builder.top_level_registry_keys recorded (members (tool :: tools)) ∧
            renamed = (tool :: tools).map ResponsesTool.flatten ∧ builder' = builder.recordAll (members (tool :: tools)) := by
      rw [step, bind_eq_ok, members_cons, unnamed, List.nil_append, List.map_cons, flat]
      constructor
      · rintro ⟨⟨later, builder₁⟩, rest, same⟩
        obtain ⟨recordable, rfl, rfl⟩ := (ih h apart).1 rest
        cases pure_eq_ok.1 same
        exact ⟨recordable, rfl, rfl⟩
      · rintro ⟨recordable, rfl, rfl⟩
        exact ⟨_, (ih h apart).2 ⟨recordable, rfl, rfl⟩, rfl⟩
    cases tool with
    | «namespace» param =>
      have names : (ResponsesTool.namespace param).members = memberNames param.name param.tools := rfl
      rw [renameTools, bind_eq_ok, members_cons, names, recordable_append]
      constructor
      · rintro ⟨⟨param', builder₁⟩, first, rest⟩
        obtain ⟨⟨tools', builder₁'⟩, inner, same⟩ := bind_eq_ok.1 first
        obtain ⟨recordable, rfl, rfl⟩ := (renameMembers_ok h apart).1 inner
        cases pure_eq_ok.1 same
        obtain ⟨⟨later, builder₂⟩, outer, same⟩ := bind_eq_ok.1 rest
        obtain ⟨recordable', rfl, rfl⟩ := (ih (h.recordAll _) recordable.2).1 outer
        cases pure_eq_ok.1 same
        rw [keys_recordAll] at recordable'
        refine ⟨⟨recordable, recordable'⟩, rfl, ?_⟩
        simp only [NamespaceMapBuilder.recordAll, List.foldl_append]
      · rintro ⟨⟨recordable, recordable'⟩, rfl, rfl⟩
        refine ⟨_, bind_eq_ok.2 ⟨_, (renameMembers_ok h apart).2 ⟨recordable, rfl, rfl⟩, rfl⟩, ?_⟩
        rw [← keys_recordAll (memberNames param.name param.tools)] at recordable'
        have outer : renameTools tools (builder.recordAll (memberNames param.name param.tools)) =
            .ok (_, (builder.recordAll (memberNames param.name param.tools)).recordAll (members tools)) :=
          (ih (h.recordAll _) recordable.2).2 ⟨recordable', rfl, rfl⟩
        refine bind_eq_ok.2 ⟨_, outer, ?_⟩
        simp only [NamespaceMapBuilder.recordAll, List.foldl_append]
        rfl
    | function _ => exact other rfl rfl rfl
    | toolSearch _ => exact other rfl rfl rfl
    | mcp _ => exact other rfl rfl rfl
    | webSearch _ => exact other rfl rfl rfl
    | fileSearch _ => exact other rfl rfl rfl
    | codeInterpreter => exact other rfl rfl rfl
    | shell _ => exact other rfl rfl rfl
    | custom _ => exact other rfl rfl rfl
    | unknown => exact other rfl rfl rfl

theorem recordable_iff_unambiguous : Recordable (typedTopLevelRegistryKeys tools) [] (members tools) ↔ Unambiguous tools := by
  unfold Recordable
  rw [List.nil_append]
  constructor
  · rintro ⟨free, apart⟩
    exact ⟨fun member mem => topLevel_lookup.1 (free member mem), apart⟩
  · intro h
    exact ⟨fun member mem => topLevel_lookup.2 (h.apart member mem), h.unique⟩

theorem records_new (keys : List (Text × ToolType)) : Records (.new keys) [] where
  known _ _ found := nomatch found
  found _ mem := absurd mem List.not_mem_nil

theorem apart_nil : Apart [] := fun _ mem => absurd mem List.not_mem_nil

theorem resolveNamespaceMembers_ok :
    resolveNamespaceMembers tools = .ok renamed ↔ Unambiguous tools ∧ renamed = tools.map ResponsesTool.flatten := by
  rw [resolveNamespaceMembers, bind_eq_ok, ← recordable_iff_unambiguous]
  constructor
  · rintro ⟨⟨renamed', builder⟩, ok, same⟩
    obtain ⟨recordable, rfl, rfl⟩ := (renameTools_ok (records_new _) apart_nil).1 ok
    cases pure_eq_ok.1 same
    exact ⟨recordable, rfl⟩
  · rintro ⟨recordable, rfl⟩
    exact ⟨_, (renameTools_ok (records_new _) apart_nil).2 ⟨recordable, rfl, rfl⟩, rfl⟩

theorem buildNamespaceMap_isOk : (∃ map, buildNamespaceMap (some tools) = .ok (some map)) ↔ Unambiguous tools := by
  rw [← recordable_iff_unambiguous]
  constructor
  · rintro ⟨map, ok⟩
    obtain ⟨⟨renamed', builder⟩, ok, _⟩ := bind_eq_ok.1 ok
    exact ((renameTools_ok (records_new _) apart_nil).1 ok).1
  · intro recordable
    exact ⟨_, bind_eq_ok.2 ⟨_, (renameTools_ok (records_new _) apart_nil).2 ⟨recordable, rfl, rfl⟩, rfl⟩⟩

end AgenticStack.Tools
