import AgenticStack.Tool.SearchReplay

/-!
# The two views of an accepted request

The functions of an accepted request are either shown to the model or withheld
from it, by what its history and the restored definitions have loaded.
-/

namespace AgenticStack.Tools
set_option autoImplicit false
open Library

/-- A function as the model is shown it. -/
def shownFunction (entry : FunctionId × FunctionToolParam) : FunctionId × FunctionToolParam := (entry.1, entry.2.makeAvailable)

section
variable {loaded more tools : List ResponsesTool} {acc acc' : DefinitionAccumulator} {tool : ResponsesTool}
  {entry : FunctionId × FunctionToolParam} {name : Text}

theorem name_of_function (here : entry ∈ functionsOf tools) : entry.1.identity.name ∈ toolNames tools := by
  obtain ⟨home, mem, defined⟩ := mem_functionsOf.1 here
  have identity := identity_of_defines (defines_iff.2 ⟨entry.2, defined⟩)
  exact mem_toolNames.2 ⟨home, mem, _, identity, rfl⟩

/-- A name that is taken is that of a function, or of a namespace that has one. -/
theorem WellFormed.function_of_name (wellFormed : WellFormed tools) (taken : name ∈ toolNames tools) :
    ∃ entry ∈ functionsOf tools, entry.1.identity.name = name := by
  obtain ⟨home, mem, identity, known, rfl⟩ := mem_toolNames.1 taken
  cases home with
  | function param =>
    cases known
    exact ⟨_, mem_functionsOf.2 ⟨_, mem, mem_function_functions.2 ⟨rfl, rfl⟩⟩, rfl⟩
  | «namespace» param =>
    cases known
    obtain ⟨member, members, split⟩ := List.exists_cons_of_ne_nil (wellFormed.nonempty param mem)
    have there : member ∈ param.tools := by rw [split]; exact List.mem_cons_self
    cases member with
    | unknown => exact absurd there (wellFormed.functions param mem)
    | function p => exact ⟨_, mem_functionsOf.2 ⟨_, mem, mem_namespace_functions.2 ⟨there, rfl⟩⟩, rfl⟩
  | _ => cases known

theorem Loads.names (h : Loads loaded more acc acc') (taken : name ∈ toolNames acc'.public_tools) :
    name ∈ toolNames acc.public_tools ∨ name ∈ toolNames more := by
  obtain ⟨entry, here, rfl⟩ := h.tracks.wellFormed.function_of_name taken
  rcases h.new entry here with old | ⟨loads, -⟩
  · exact .inl (name_of_function old)
  · obtain ⟨tool, mem, defined⟩ := List.any_eq_true.1 loads
    exact .inr (mem_toolNames.2 ⟨tool, mem, _, identity_of_defines defined, rfl⟩)

end

section
variable {loaded more restored : List ResponsesTool} {acc acc' : DefinitionAccumulator} {tool : ResponsesTool}
  {restore_only_declared : Bool}

/-- A restored definition is loaded, or left out where its name is not declared. -/
theorem restoreLoadedDefinition_ok (tracks : Tracks loaded acc)
    (h : restoreLoadedDefinition restore_only_declared acc tool = .ok acc') : ∃ identity, tool.identity = some identity ∧
      (restore_only_declared = true ∧ identity.name ∉ toolNames acc.public_tools ∧ acc' = acc ∨
        loadDefinition acc tool = .ok acc' ∧ (restore_only_declared = true → identity.name ∈ toolNames acc.public_tools)) := by
  obtain ⟨choice, chosen, h⟩ := bind_eq_ok.1 h
  obtain ⟨found, known, chosen⟩ := bind_eq_ok.1 chosen
  have identity := (loadedToolIdentity_eq_ok.1 known).1
  cases found with
  | none => cases chosen
  | some id =>
    refine ⟨id, identity, ?_⟩
    dsimp only at chosen
    rw [pure_eq_ok] at chosen
    split at chosen
    · rename_i left
      rw [Bool.and_eq_true, Option.isNone_iff_eq_none, tracks.index_none] at left
      subst chosen
      cases h
      exact .inl ⟨left.1, left.2, rfl⟩
    · rename_i taken
      rw [Bool.and_eq_true, Option.isNone_iff_eq_none, tracks.index_none, not_and, not_not] at taken
      subst chosen
      exact .inr ⟨h, taken⟩

/-- The definitions that were restored: those left out define nothing that is there. -/
theorem restore_loads (tracks : Tracks loaded acc)
    (h : restored.foldlM (restoreLoadedDefinition restore_only_declared) acc = .ok acc') :
    ∃ kept, kept.Sublist restored ∧ Loads loaded kept acc acc' ∧
      (restore_only_declared = true → ∀ name ∈ toolNames acc'.public_tools, name ∈ toolNames acc.public_tools) ∧
      ∀ t ∈ restored, t ∈ kept ∨ ∀ entry ∈ functionsOf acc'.public_tools, t.defines entry.1 = false := by
  induction restored generalizing loaded acc with
  | nil =>
    rw [List.foldlM_nil, pure_eq_ok] at h
    subst h
    exact ⟨[], List.Sublist.refl _, .refl tracks, fun _ _ taken => taken, fun _ mem => (nomatch mem)⟩
  | cons tool restored ih =>
    rw [List.foldlM_cons] at h
    obtain ⟨next, first, rest⟩ := bind_eq_ok.1 h
    obtain ⟨identity, known, ⟨only, free, rfl⟩ | ⟨load, declared⟩⟩ := restoreLoadedDefinition_ok tracks first
    · obtain ⟨kept, sublist, loads, names, left⟩ := ih tracks rest
      refine ⟨kept, sublist.cons _, loads, names, ?_⟩
      intro t mem
      rcases List.mem_cons.1 mem with rfl | mem
      · right
        intro entry here
        by_contra defines
        have mine := identity_of_defines (Bool.not_eq_false _ ▸ defines)
        rw [known, Option.some.injEq] at mine
        apply free
        rw [mine]
        exact names only _ (name_of_function here)
      · exact left t mem
    · have one := loadDefinition_loads tracks load
      obtain ⟨kept, sublist, loads, names, left⟩ := ih one.tracks rest
      refine ⟨tool :: kept, sublist.cons_cons _, one.trans loads, fun only name taken => ?_, ?_⟩
      · rcases one.names (names only name taken) with old | new
        · exact old
        · obtain ⟨t, mem, id, same, rfl⟩ := mem_toolNames.1 new
          cases List.mem_singleton.1 mem
          rw [known, Option.some.injEq] at same
          exact same ▸ declared only
      · intro t mem
        rcases List.mem_cons.1 mem with rfl | mem
        · exact .inl List.mem_cons_self
        · exact (left t mem).imp (List.mem_cons_of_mem _) id

/-- Whatever is loaded later, a restored definition that was left out makes no difference. -/
theorem restored_isLoaded {kept : List ResponsesTool} {final : DefinitionAccumulator} {entry : FunctionId × FunctionToolParam}
    (sublist : kept.Sublist restored)
    (left : ∀ t ∈ restored, t ∈ kept ∨ ∀ entry ∈ functionsOf acc'.public_tools, t.defines entry.1 = false)
    (rest : Loads loaded more acc' final) (here : entry ∈ functionsOf final.public_tools) :
    isLoaded (kept ++ more) entry.1 = isLoaded (restored ++ more) entry.1 := by
  rw [isLoaded_append, isLoaded_append, Bool.eq_iff_iff, Bool.or_eq_true, Bool.or_eq_true]
  constructor
  · rintro (loads | loads)
    · obtain ⟨t, mem, defined⟩ := List.any_eq_true.1 loads
      exact .inl (List.any_eq_true.2 ⟨t, sublist.subset mem, defined⟩)
    · exact .inr loads
  · rintro (loads | loads)
    · obtain ⟨t, mem, defined⟩ := List.any_eq_true.1 loads
      rcases left t mem with mem | nothing
      · exact .inl (List.any_eq_true.2 ⟨t, mem, defined⟩)
      · rcases rest.new entry here with old | ⟨loads, -⟩
        · rw [nothing entry old] at defined
          cases defined
        · exact .inr loads
    · exact .inr loads

end

section
variable {loaded : List ResponsesTool} {acc : DefinitionAccumulator} {tool : ResponsesTool}
  {synthetic_tool_search : Option ToolSearchToolParam}

theorem privateMember_functions {«namespace» : Text} {members : List CodexNamespaceMember}
    (tracks : MembersTrack loaded «namespace» members (.of (memberRecordsFrom loaded «namespace» 0 members)))
    {part : List CodexNamespaceMember} (within : ∀ member ∈ part, member ∈ members) :
    (part.filterMap (privateMember (.of (memberRecordsFrom loaded «namespace» 0 members)))).filterMap (memberFunction «namespace») =
      ((part.filterMap (memberFunction «namespace»)).filter (isAvailable loaded)).map shownFunction := by
  induction part with
  | nil => rfl
  | cons member part ih =>
    have rest := ih fun m mem => within m (List.mem_cons_of_mem _ mem)
    cases member with
    | unknown => exact absurd (within _ List.mem_cons_self) tracks.functions
    | function param =>
      have here := within _ List.mem_cons_self
      have named : param.name.text ∈
          (NamespaceMemberRecords.of (memberRecordsFrom loaded «namespace» 0 members)).ordered.map NamespaceMemberRecord.name := by
        rw [tracks.names]
        exact mem_functionNames.2 ⟨param, here, rfl⟩
      obtain ⟨index, found, _, _⟩ := keyIndex_of_mem named
      obtain ⟨known, position, same, _, settled⟩ := tracks.record_at found
      have only : known = param := member_unique tracks.once (List.mem_of_getElem? position) here same
      subst only
      have available : isAvailable loaded (.member «namespace» known.name.text, known) = memberAvailable loaded «namespace» known := by
        rw [isAvailable, memberAvailable, isDeferred, Bool.or_comm, decide_not]
      have shown : privateMember (.of (memberRecordsFrom loaded «namespace» 0 members)) (.function known) =
          if memberAvailable loaded «namespace» known then some (.function known.makeAvailable) else none := by
        rw [privateMember, memberIndex, found, Option.any_some, settled]
      rw [List.filterMap_cons, shown, List.filterMap_cons, memberFunction, List.filter_cons, available]
      cases memberAvailable loaded «namespace» known with
      | false => exact rest
      | true => exact congrArg (_ :: ·) rest

/-- A tool that has an identity has a record, under its name. -/
theorem Tracks.record_of (tracks : Tracks loaded acc) (mem : tool ∈ acc.public_tools) {identity : LoadedToolIdentity}
    (known : tool.identity = some identity) : loadedToolIdentity tool = .ok (some identity) ∧
      ∃ index, definitionIndex acc.definitions identity.name = some index ∧
        recordOf loaded (acc.definitions.get index).public_index tool = some (acc.definitions.get index) ∧
        acc.public_tools[(acc.definitions.get index).public_index]? = some tool := by
  refine ⟨loadedToolIdentity_eq_ok.2 ⟨known, fun x same => tracks.wellFormed.checked _ mem x (known.trans same)⟩, ?_⟩
  have named : identity.name ∈ acc.definitions.map fun record => record.identity.name := by
    rw [tracks.names]
    exact mem_toolNames.2 ⟨tool, mem, identity, known, rfl⟩
  obtain ⟨index, found, _, _⟩ := keyIndex_of_mem named
  obtain ⟨home, here, record, same⟩ := tracks.record_at found
  have only : home = tool :=
    tool_unique tracks.wellFormed.once (List.mem_of_getElem? here) mem (recordOf_eq_some record).1 known same
  subst only
  exact ⟨index, found, record, here⟩

theorem privateTool_function {param : FunctionToolParam} (tracks : Tracks loaded acc) (mem : .function param ∈ acc.public_tools) :
    privateTool acc.definitions synthetic_tool_search (.function param) =
      if isAvailable loaded (.function param.name.text, param) then some (.function param.makeAvailable) else none := by
  obtain ⟨identity, index, found, record, -⟩ := tracks.record_of mem rfl
  have settled : (acc.definitions.get index).loaded = isLoaded loaded (.function param.name.text) := by
    rw [recordOf, Option.some.injEq] at record
    rw [← record]
  rw [privateTool, privateDefinition, identity, isAvailable, isDeferred, ← settled]
  simp only [Except.toOption, Option.join_some, Option.bind_eq_bind, Option.bind_some, found, Bool.or_eq_true,
    Bool.not_eq_true', decide_eq_false_iff_not, ne_eq, or_comm]

theorem catalogEntry_function {param : FunctionToolParam} (tracks : Tracks loaded acc) (mem : .function param ∈ acc.public_tools) :
    catalogEntry acc.definitions (.function param) =
      if isAvailable loaded (.function param.name.text, param) then none else some ⟨param.name.text, param.description⟩ := by
  obtain ⟨identity, index, found, record, -⟩ := tracks.record_of mem rfl
  have settled : (acc.definitions.get index).loaded = isLoaded loaded (.function param.name.text) := by
    rw [recordOf, Option.some.injEq] at record
    rw [← record]
  rw [catalogEntry, identity, isAvailable, isDeferred, ← settled]
  simp only [Except.toOption, Option.join_some, Option.bind_eq_bind, Option.bind_some, found]
  by_cases deferred : param.defer_loading = some true
  · cases (acc.definitions.get index).loaded <;> simp [deferred]
  · cases (acc.definitions.get index).loaded <;> simp [deferred]

theorem privateTool_namespace {param : CodexNamespaceToolParam} (tracks : Tracks loaded acc)
    (mem : .namespace param ∈ acc.public_tools) : privateTool acc.definitions synthetic_tool_search (.namespace param) =
      (privateNamespace param (some (.of (memberRecordsFrom loaded param.name 0 param.tools)))).map .namespace := by
  obtain ⟨identity, index, found, record, -⟩ := tracks.record_of mem rfl
  have members : (acc.definitions.get index).namespace_members = some (.of (memberRecordsFrom loaded param.name 0 param.tools)) := by
    rw [recordOf, Option.some.injEq] at record
    rw [← record]
  rw [privateTool, privateDefinition, identity, ← members]
  simp only [Except.toOption, Option.join_some, Option.bind_eq_bind, Option.bind_some, found]

theorem catalogEntry_namespace {param : CodexNamespaceToolParam} (tracks : Tracks loaded acc)
    (mem : .namespace param ∈ acc.public_tools) : catalogEntry acc.definitions (.namespace param) =
      if (NamespaceMemberRecords.of (memberRecordsFrom loaded param.name 0 param.tools)).unloaded_count = 0 then none
      else some ⟨param.name, param.description⟩ := by
  obtain ⟨identity, index, found, record, -⟩ := tracks.record_of mem rfl
  rw [catalogEntry, identity]
  simp only [Except.toOption, Option.join_some, Option.bind_eq_bind, Option.bind_some, found]
  rw [recordOf, Option.some.injEq] at record
  rw [← record]
  simp only [DefinitionRecord.hasWithheldMember, Option.any_some, decide_eq_true_eq]
  split <;> rfl

/-- The functions of a definition in the private view. -/
theorem privateTool_functions (tracks : Tracks loaded acc) (mem : tool ∈ acc.public_tools) :
    (privateTool acc.definitions synthetic_tool_search tool).toList.flatMap ResponsesTool.functions =
      (tool.functions.filter (isAvailable loaded)).map shownFunction := by
  cases tool with
  | function param =>
    rw [privateTool_function tracks mem, ResponsesTool.functions, List.filter_cons]
    cases isAvailable loaded (.function param.name.text, param) <;> rfl
  | «namespace» param =>
    have functions := privateMember_functions (tracks.members_track mem) fun member here => here
    rw [privateTool_namespace tracks mem, privateNamespace, Option.bind_eq_bind, Option.bind_some, ResponsesTool.functions,
      ← functions]
    dsimp only
    split
    · rename_i empty
      rw [List.isEmpty_iff] at empty
      rw [empty]
      rfl
    · exact List.append_nil _
  | toolSearch _ => cases synthetic_tool_search <;> rfl
  | _ => rfl

theorem functionsOf_buildPrivateTools (tracks : Tracks loaded acc) :
    functionsOf (buildPrivateTools acc.public_tools acc.definitions synthetic_tool_search) =
      ((functionsOf acc.public_tools).filter (isAvailable loaded)).map shownFunction := by
  have all {tools : List ResponsesTool} (within : ∀ tool ∈ tools, tool ∈ acc.public_tools) :
      functionsOf (tools.filterMap (privateTool acc.definitions synthetic_tool_search)) =
        ((functionsOf tools).filter (isAvailable loaded)).map shownFunction := by
    induction tools with
    | nil => rfl
    | cons tool tools ih =>
      have one : (privateTool acc.definitions synthetic_tool_search tool).toList.flatMap ResponsesTool.functions = _ :=
        privateTool_functions tracks (within tool List.mem_cons_self)
      have rest := ih fun t mem => within t (List.mem_cons_of_mem _ mem)
      rw [functionsOf, functionsOf] at rest ⊢
      rw [List.flatMap_cons, List.filter_append, List.map_append, ← one, ← rest, List.filterMap_cons]
      cases privateTool acc.definitions synthetic_tool_search tool with
      | none => rfl
      | some shown => simp
  exact all fun _ mem => mem

end

end AgenticStack.Tools
