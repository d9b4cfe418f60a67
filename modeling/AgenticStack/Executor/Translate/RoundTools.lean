import AgenticStack.Executor.Translate.ToolSearch
import AgenticStack.Tool.Preparation
import AgenticStack.Tool.Registering
import AgenticStack.Tool.SearchContinuation

/-!
# The tools of an accepted request

A round translates calls by what the registry and the search state of its request say. The
search is registered under its own name alone, and what is withheld has a name.
-/

namespace AgenticStack.Tools
set_option autoImplicit false
open Library

/-- Only a declared search is registered as one, under its own name. -/
def SearchEntries (tools : List ResponsesTool) (entries : List (Text × ToolEntry)) : Prop :=
  ∀ entry ∈ entries, entry.2.tool_type = .toolSearch → entry.1 = TOOL_SEARCH_NAME ∧ ∃ tool ∈ tools, tool.isToolSearch = true

section
variable {services : RegistryServices} {tools declared : List ResponsesTool} {entries more : List (Text × ToolEntry)}
  {self self' : BuildState} {tool : ResponsesTool}

/-- Entries of two lists come of the tools. -/
theorem SearchEntries.append (h : SearchEntries tools entries) (h' : SearchEntries tools more) :
    SearchEntries tools (entries ++ more) := by
  intro entry mem
  rcases List.mem_append.1 mem with mem | mem
  · exact h entry mem
  · exact h' entry mem

/-- The members of a namespace are registered as such. -/
theorem namespaceEntries_kind {members : List CodexNamespaceMember} (kinds : ∀ entry ∈ entries, entry.2.tool_type = .codexNamespace) :
    ∀ entry ∈ members.foldl insertNamespaceEntry entries, entry.2.tool_type = .codexNamespace := by
  induction members generalizing entries with
  | nil => exact kinds
  | cons member members ih =>
    rw [List.foldl_cons]
    apply ih
    intro entry mem
    cases member with
    | function param =>
      rcases mem_insertEntry mem with rfl | there
      · rfl
      · exact kinds entry there
    | unknown => exact kinds entry mem

/-- The entries of a declared tool come of it. -/
theorem entries_search (mem : tool ∈ declared) : SearchEntries declared (tool.entries services) := by
  intro entry here search
  cases tool with
  | toolSearch param =>
    obtain rfl := List.mem_singleton.1 here
    exact ⟨rfl, _, mem, rfl⟩
  | «namespace» param =>
    have kind := @namespaceEntries_kind [] param.tools (by simp) entry here
    rw [kind] at search
    cases search
  | mcp param => cases here
  | unknown => cases here
  | _ =>
    obtain rfl := List.mem_singleton.1 here
    cases search

/-- The entries stay those of the tools when one is added. -/
theorem addTool_search {noted : Option (List McpDiscoveredToolParam)} (mem : tool ∈ declared)
    (once : (self.entries.map Prod.fst).Nodup) (known : SearchEntries declared self.entries)
    (added : self.addTool services tool = .ok (noted, self')) :
    (self'.entries.map Prod.fst).Nodup ∧ SearchEntries declared self'.entries := by
  unfold BuildState.addTool at added
  split at added
  · split at added
    · split at added
      · cases added
      · obtain ⟨state, failed, same⟩ := bind_eq_ok.1 added
        cases pure_eq_ok.1 same
        obtain ⟨-, rfl⟩ := recordFailed_ok.1 failed
        exact ⟨once, known⟩
    · rename_i handlers executors _
      obtain ⟨state, found, same⟩ := bind_eq_ok.1 added
      cases pure_eq_ok.1 same
      obtain ⟨-, -, unique, rfl⟩ := (recordDiscovered_ok (by exact once)).1 found
      refine ⟨unique, known.append ?_⟩
      intro entry here search
      obtain ⟨handler, -, rfl⟩ := List.mem_map.1 here
      cases search
  · obtain ⟨state, inserted, same⟩ := bind_eq_ok.1 added
    cases pure_eq_ok.1 same
    obtain ⟨unique, rfl⟩ := (insertUnique_ok once).1 inserted
    exact ⟨unique, known.append (entries_search mem)⟩

/-- The entries stay those of the tools when all are added. -/
theorem addTools_search {noted : List (Option (List McpDiscoveredToolParam))} (within : ∀ tool ∈ tools, tool ∈ declared)
    (once : (self.entries.map Prod.fst).Nodup) (known : SearchEntries declared self.entries)
    (added : self.addTools services tools = .ok (noted, self')) : SearchEntries declared self'.entries := by
  induction tools generalizing self noted with
  | nil =>
    cases added
    exact known
  | cons tool tools ih =>
    rw [BuildState.addTools] at added
    obtain ⟨⟨first, state⟩, now, added⟩ := bind_eq_ok.1 added
    obtain ⟨⟨rest, last⟩, later, same⟩ := bind_eq_ok.1 added
    cases pure_eq_ok.1 same
    rw [List.forall_mem_cons] at within
    obtain ⟨unique, search⟩ := addTool_search within.1 once known now
    exact ih within.2 unique search later

/-- The registry has the entries of the declared tools. -/
theorem build_search {executors : GatewayExecutors} {budget : Nat} {registry : BuiltRegistry} {annotated : List ResponsesTool}
    (built : buildWithHandlersGuarded services tools executors budget = .ok (registry, annotated)) :
    SearchEntries tools registry.entries := by
  unfold buildWithHandlersGuarded at built
  obtain ⟨resolved, resolves, built⟩ := bind_eq_ok.1 built
  obtain ⟨-, rfl⟩ := resolveNamespaceMembers_ok.1 resolves
  obtain ⟨_, -, built⟩ := bind_eq_ok.1 built
  obtain ⟨_, -, built⟩ := bind_eq_ok.1 built
  obtain ⟨⟨noted, state⟩, added, built⟩ := bind_eq_ok.1 built
  obtain ⟨map, -, same⟩ := bind_eq_ok.1 built
  cases pure_eq_ok.1 same
  intro entry mem search
  have once : (([] : List (Text × ToolEntry)).map Prod.fst).Nodup := List.nodup_nil
  have none : SearchEntries (tools.map ResponsesTool.flatten) [] := fun _ no => absurd no List.not_mem_nil
  obtain ⟨named, flat, there, kind⟩ := addTools_search (fun _ here => here) once none added entry mem search
  obtain ⟨tool, here, rfl⟩ := List.mem_map.1 there
  refine ⟨named, tool, here, ?_⟩
  cases tool <;> exact kind

end

/-- Every declared function has a name. -/
theorem functionsOf_named {tools : List ResponsesTool} : ∀ entry ∈ functionsOf tools, entry.1.visibleName ≠ [] := by
  intro entry mem
  obtain ⟨tool, -, here⟩ := List.mem_flatMap.1 mem
  cases tool with
  | function param =>
    obtain rfl := List.mem_singleton.1 here
    exact param.name.nonEmpty
  | «namespace» param =>
    obtain ⟨member, -, made⟩ := List.mem_filterMap.1 here
    cases member with
    | function inner =>
      cases made
      exact modelVisibleNamespaceMemberName_ne_nil _ _
    | unknown => cases made
  | _ => cases here

/-- What is withheld has a name. -/
theorem withheld_named {readTool : Json → ResponsesTool} {request : RequestPayload} {restored : List ResponsesTool}
    {restore_only_declared : Bool} {state : ToolSearchState}
    (h : buildWithLoadedTools readTool request restored restore_only_declared = .ok state) :
    [] ∉ state.withheld_function_names := by
  cases active : state.isActive with
  | false =>
    rw [buildWithLoadedTools] at h
    obtain ⟨searching, -, h⟩ := bind_eq_ok.1 h
    cases searching with
    | false =>
      cases h
      exact Finset.notMem_empty _
    | true =>
      rw [Bool.not_true, if_neg Bool.false_ne_true] at h
      dsimp only at h
      split at h
      · cases h
      obtain ⟨start, -, h⟩ := bind_eq_ok.1 h
      obtain ⟨acc, -, h⟩ := bind_eq_ok.1 h
      obtain ⟨⟨private_input, final⟩, -, h⟩ := bind_eq_ok.1 h
      obtain ⟨builder, -, h⟩ := bind_eq_ok.1 h
      rw [← pure_eq_ok.1 h] at active
      cases active
  | true =>
    obtain ⟨start, acc, final, private_input, steps⟩ := build_steps h active
    obtain ⟨settled, loads, -⟩ := steps.available
    obtain ⟨-, -, withholds, -⟩ := initialDefinitions_iff.1 steps.initial
    rw [steps.withheld, loads.withholds withholds steps.unambiguous.toldApart]
    rintro ⟨entry, mem, -, -, blank⟩
    exact functionsOf_named entry mem blank

end AgenticStack.Tools

namespace AgenticStack
open Library Tools ToolSearch

/-- The search is called by its name alone, and only while it is active. -/
def RoundTools.Classified (tools : RoundTools) : Prop :=
  ∀ name, tools.toolType name = .toolSearch → tools.tool_search_active = true ∧ name = TOOL_SEARCH_NAME

section
variable {registry : ToolRegistry} {namespace_map : Option Tools.NamespaceMap} {state : Option ToolSearchState}
  {declared : List Tools.ResponsesTool}

/-- The type of a name is the type of its entry. -/
theorem lookup_tool_types {entries : List (Text × ToolEntry)} {name : Text} :
    (entries.map fun entry => (entry.1, entry.2.tool_type)).lookup name = (entries.lookup name).map ToolEntry.tool_type := by
  induction entries with
  | nil => rfl
  | cons entry entries ih =>
    obtain ⟨k, v⟩ := entry
    rw [List.map_cons, List.lookup_cons, List.lookup_cons]
    cases name == k with
    | true => rfl
    | false => exact ih

/-- **A request's round calls the search by its name alone**: its state is active when its tools declare a search. -/
theorem translationContext_classified (search : SearchEntries declared registry.entries)
    (active : (∃ tool ∈ declared, tool.isToolSearch = true) → state.any ToolSearchState.isActive = true) :
    (translationContext registry namespace_map state).Classified := by
  intro name kind
  rw [RoundTools.toolType] at kind
  split at kind
  · assumption
  · rename_i other
    rw [translationContext, lookup_tool_types] at kind
    cases found : registry.entries.lookup name with
    | none =>
      rw [found] at kind
      cases kind
    | some entry =>
      rw [found] at kind
      obtain ⟨before, after, split, -⟩ := List.lookup_eq_some_iff.1 found
      have mem : (name, entry) ∈ registry.entries := by
        rw [split]
        exact List.mem_append_right _ List.mem_cons_self
      obtain ⟨named, there⟩ := search _ mem kind
      exact absurd ⟨active there, named⟩ other

section
variable {readTool : Json → Tools.ResponsesTool} {request prepared : Tools.RequestPayload} {restored : List Tools.ResponsesTool}
  {restore_only_declared : Bool} {services : RegistryServices} {executors : GatewayExecutors} {budget : Nat} {built : BuiltRegistry}
  {sameTools : List McpListTool → List McpListTool → Bool} {input : ResponsesInput}

/-- What the rounds of an accepted request translate by. -/
def roundTools (sameTools : List McpListTool → List McpListTool → Bool) (input : ResponsesInput) (built : BuiltRegistry)
    (state : Option ToolSearchState) : RoundTools :=
  translationContext (built.cacheListedMcpTools sameTools input) built.namespace_map state

/-- The entries of the prepared tools come of them. -/
theorem built_search (builds : buildToolRegistry services prepared state executors budget = .ok built) :
    SearchEntries (prepared.tools.getD []) built.entries := by
  unfold buildToolRegistry at builds
  obtain ⟨registry, made, builds⟩ := bind_eq_ok.1 builds
  obtain ⟨_, -, same⟩ := bind_eq_ok.1 builds
  cases pure_eq_ok.1 same
  unfold registryOf at made
  cases declared : prepared.tools with
  | none =>
    rw [declared] at made
    cases made
    intro entry mem
    cases mem
  | some tools =>
    rw [declared] at made
    obtain ⟨⟨registry, annotated⟩, build, rfl⟩ := map_eq_ok.1 made
    exact build_search build

/-- **The rounds of an accepted request** call the search by its name alone, and withhold no function without a name. -/
theorem roundTools_prepared
    (prepares : prepareRequest readTool request restored restore_only_declared = .ok (prepared, state))
    (builds : buildToolRegistry services prepared state executors budget = .ok built) :
    (roundTools sameTools input built state).Classified ∧ [] ∉ (roundTools sameTools input built state).withheld_function_names := by
  unfold prepareRequest at prepares
  obtain ⟨made, accepted, prepares⟩ := bind_eq_ok.1 prepares
  have named := withheld_named accepted
  cases active : made.isActive with
  | false =>
    rw [active] at prepares
    cases pure_eq_ok.1 prepares
    refine ⟨translationContext_classified (built_search builds) ?_, Finset.notMem_empty _⟩
    intro declared
    rw [isActive_of_declared accepted declared] at active
    cases active
  | true =>
    rw [active, Bool.not_true, if_neg Bool.false_ne_true] at prepares
    obtain ⟨⟨shown, kept⟩, shows, same⟩ := bind_eq_ok.1 prepares
    cases pure_eq_ok.1 same
    unfold ToolSearchState.prepareInferenceRequest at shows
    obtain ⟨_, -, shows⟩ := bind_eq_ok.1 shows
    cases private_input : made.private_upstream_input with
    | none =>
      rw [private_input] at shows
      cases shows
    | some items =>
      rw [private_input] at shows
      cases pure_eq_ok.1 shows
      exact ⟨translationContext_classified (built_search builds) fun _ => active, named⟩

end
end
end AgenticStack
