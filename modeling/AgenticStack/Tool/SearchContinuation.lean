import AgenticStack.Tool.SearchReload

/-!
# Continuing a request

The next request has the public tools of the one before it. What was loaded is
found again in its history, or, where the history was compacted, in the
definitions that were saved. Both ways the model is shown the same tools.
-/

namespace AgenticStack.Tools
set_option autoImplicit false
open Library

section
variable {readTool : Json → ResponsesTool} {loaded tools : List ResponsesTool} {acc acc' : DefinitionAccumulator}
  {pass pass' again : HistoryPass} {items : List InputItem} {start : Nat}

/-- Every call names functions that are available by then. -/
def CallsAvailable (readTool : Json → ResponsesTool) (tools loaded : List ResponsesTool) (items : List InputItem) : Prop :=
  ∀ before call after, items = before ++ .functionCall call :: after → ∀ entry ∈ functionsOf tools,
    namesFunction call entry.1 → isAvailable (loaded ++ loadedBy readTool before) entry = true

theorem Replays.acceptItems (h : Replays tools loaded again.definitions) (apart : ToldApart tools) (same : pass.SameItems again)
    (run : (items.zipIdx start).foldlM (prepareItem readTool) pass = .ok pass')
    (known : ∀ tool ∈ loadedBy readTool items, Known tools tool) (available : CallsAvailable readTool tools loaded items) :
    ∃ again', (items.zipIdx start).foldlM (prepareItem readTool) again = .ok again' ∧ pass'.SameItems again' ∧
      Replays tools (loaded ++ loadedBy readTool items) again'.definitions := by
  induction items generalizing loaded pass again start with
  | nil =>
    rw [List.zipIdx_nil, List.foldlM_nil, pure_eq_ok] at run
    subst run
    exact ⟨again, rfl, same, (List.append_nil loaded).symm ▸ h⟩
  | cons item items ih =>
    rw [List.zipIdx_cons, List.foldlM_cons] at run
    obtain ⟨next, first, rest⟩ := bind_eq_ok.1 run
    have split : loadedBy readTool (item :: items) = returnedTools readTool item ++ loadedBy readTool items := List.flatMap_cons
    rw [split] at known ⊢
    obtain ⟨again₁, step, same₁, h₁⟩ : ∃ again', prepareItem readTool again (item, start) = .ok again' ∧ next.SameItems again' ∧
        Replays tools (loaded ++ returnedTools readTool item) again'.definitions := by
      apply h.acceptItem apart same first
      · exact fun tool mem => known tool (List.mem_append_left _ mem)
      · rintro call rfl entry here named
        have now := available [] call items rfl entry here named
        rwa [loadedBy, List.flatMap_nil, List.append_nil] at now
    have later : CallsAvailable readTool tools (loaded ++ returnedTools readTool item) items := by
      rintro before call after rfl entry here named
      have now := available (item :: before) call after rfl entry here named
      rwa [show loadedBy readTool (item :: before) = returnedTools readTool item ++ loadedBy readTool before from List.flatMap_cons,
        ← List.append_assoc] at now
    obtain ⟨again', rest', same', h'⟩ := ih h₁ same₁ rest (fun tool mem => known tool (List.mem_append_right _ mem)) later
    refine ⟨again', ?_, same', (List.append_assoc loaded _ _) ▸ h'⟩
    rw [List.zipIdx_cons, List.foldlM_cons, step]
    exact rest'

/-- A history that was accepted is accepted over tools that know what it returns. -/
theorem Replays.acceptHistory {input result : ResponsesInput} {first last : DefinitionAccumulator} (h : Replays tools loaded acc)
    (apart : ToldApart tools) (accepted : prepareHistory readTool input first = .ok (result, last))
    (known : ∀ tool ∈ loadedBy readTool (inputItems input), Known tools tool)
    (available : CallsAvailable readTool tools loaded (inputItems input)) :
    ∃ acc', prepareHistory readTool input acc = .ok (result, acc') ∧
      Replays tools (loaded ++ loadedBy readTool (inputItems input)) acc' := by
  cases input with
  | text text =>
    cases accepted
    exact ⟨acc, rfl, (List.append_nil loaded).symm ▸ h⟩
  | items items =>
    obtain ⟨pass, run, accepted⟩ := bind_eq_ok.1 accepted
    have started : HistoryPass.SameItems ⟨first, [], none, ∅, ∅⟩ ⟨acc, [], none, ∅, ∅⟩ := ⟨rfl, rfl, rfl, rfl⟩
    obtain ⟨again, rerun, same, replays⟩ := Replays.acceptItems h apart started run known available
    refine ⟨again.definitions, ?_, replays⟩
    rw [prepareHistory, rerun]
    dsimp only [bind, Except.bind]
    rw [same.unresolved_call, same.private_items]
    split at accepted
    · cases accepted
    · rename_i resolved
      cases accepted
      rw [if_neg resolved]
      rfl

/-- Where nothing is defined, every call is noted. -/
theorem prepareItem_undefined {item : InputItem} {position : Nat} (undefined : pass.definitions.definitions = [])
    (exposed : pass.definitions.withheld_function_names = ∅) (unsearched : isSearchItem item = false) :
    ∃ pass', prepareItem readTool pass (item, position) = .ok pass' ∧ pass'.definitions.definitions = [] ∧
      pass'.definitions.withheld_function_names = ∅ ∧ pass'.unresolved_call = pass.unresolved_call := by
  cases item with
  | toolSearchCall call => cases unsearched
  | toolSearchOutput output => cases unsearched
  | functionCall call =>
    have unknown («namespace» : Text) : calledMember pass.definitions «namespace» call.name = none := by
      have absent : definitionIndex pass.definitions.definitions «namespace» = none := by
        rw [definitionIndex, keyIndex_eq_none, undefined]
        exact List.not_mem_nil
      rw [calledMember, absent]
      rfl
    obtain ⟨acc', ran, same, still⟩ : ∃ acc', ensureHistoryCallIsAvailable pass.definitions position call = .ok acc' ∧
        acc'.definitions = [] ∧ acc'.withheld_function_names = ∅ := by
      rw [ensureHistoryCallIsAvailable]
      split
      · rw [unknown]
        exact ⟨_, rfl, undefined, exposed⟩
      · rw [if_neg (by rw [exposed]; exact Finset.notMem_empty _)]
        split
        · exact ⟨_, rfl, undefined, exposed⟩
        · exact ⟨_, rfl, undefined, exposed⟩
    refine ⟨{ pass with definitions := acc' }.keep (.functionCall call), ?_, same, still, rfl⟩
    dsimp only [prepareItem]
    rw [ran]
    rfl
  | compactionTrigger => exact ⟨pass, rfl, undefined, exposed, rfl⟩
  | _ => exact ⟨pass.keep _, rfl, undefined, exposed, rfl⟩

theorem prepareItems_undefined (undefined : pass.definitions.definitions = [])
    (exposed : pass.definitions.withheld_function_names = ∅) (unsearched : ∀ item ∈ items, isSearchItem item = false) :
    ∃ pass', (items.zipIdx start).foldlM (prepareItem readTool) pass = .ok pass' ∧ pass'.unresolved_call = pass.unresolved_call := by
  induction items generalizing pass start with
  | nil => exact ⟨pass, rfl, rfl⟩
  | cons item items ih =>
    obtain ⟨next, first, undefined', exposed', same⟩ : ∃ pass', prepareItem readTool pass (item, start) = .ok pass' ∧
        pass'.definitions.definitions = [] ∧ pass'.definitions.withheld_function_names = ∅ ∧
        pass'.unresolved_call = pass.unresolved_call :=
      prepareItem_undefined undefined exposed (unsearched item List.mem_cons_self)
    obtain ⟨last, rest, same'⟩ := @ih next (start + 1) undefined' exposed' fun i mem => unsearched i (List.mem_cons_of_mem _ mem)
    refine ⟨last, ?_, same'.trans same⟩
    rw [List.zipIdx_cons, List.foldlM_cons, first]
    exact rest

theorem loadedBy_unsearched (unsearched : ∀ item ∈ items, isSearchItem item = false) : loadedBy readTool items = [] := by
  apply List.flatMap_eq_nil_iff.2
  intro item mem
  cases item with
  | toolSearchOutput output => cases unsearched _ mem
  | _ => rfl

/-- Without searches, a history asks for nothing but its calls. -/
theorem prepareHistory_unsearched {input : ResponsesInput} (unsearched : ∀ item ∈ inputItems input, isSearchItem item = false) :
    ∃ result first last, prepareHistory readTool input first = .ok (result, last) := by
  let empty : DefinitionAccumulator := ⟨[], [], [], ∅, ∅, []⟩
  cases input with
  | text text => exact ⟨.text text, empty, empty, rfl⟩
  | items items =>
    obtain ⟨pass, run, resolved⟩ : ∃ pass', (items.zipIdx 0).foldlM (prepareItem readTool) ⟨empty, [], none, ∅, ∅⟩ = .ok pass' ∧
        pass'.unresolved_call = none := prepareItems_undefined rfl rfl unsearched
    refine ⟨.items pass.private_items, empty, pass.definitions, ?_⟩
    rw [prepareHistory, run]
    dsimp only [bind, Except.bind]
    rw [resolved]
    rfl

end

/-- The two states show the model the same, and withhold the same. -/
structure SameView (state again : ToolSearchState) : Prop where
  public_effective_tools : again.public_effective_tools = state.public_effective_tools
  private_upstream_tools : again.private_upstream_tools = state.private_upstream_tools
  synthetic_tool_search : again.synthetic_tool_search = state.synthetic_tool_search
  withheld_function_names : again.withheld_function_names = state.withheld_function_names

section
variable {loaded loaded' tools : List ResponsesTool} {acc acc' : DefinitionAccumulator} {tool : ResponsesTool}

theorem memberAvailable_of_isAvailable {«namespace» : Text} {param : FunctionToolParam} :
    memberAvailable loaded «namespace» param = isAvailable loaded (.member «namespace» param.name.text, param) := by
  rw [isAvailable, memberAvailable, isDeferred, Bool.or_comm, decide_not]

/-- The catalog and the private tools depend on what is available, not on how it was loaded. -/
theorem views_congr (tracks : Tracks loaded acc) (tracks' : Tracks loaded' acc') (same_tools : acc'.public_tools = acc.public_tools)
    (same : ∀ entry ∈ functionsOf acc.public_tools, isAvailable loaded' entry = isAvailable loaded entry) :
    buildCatalog acc'.public_tools acc'.definitions = buildCatalog acc.public_tools acc.definitions ∧
      ∀ synthetic_tool_search, buildPrivateTools acc'.public_tools acc'.definitions synthetic_tool_search =
        buildPrivateTools acc.public_tools acc.definitions synthetic_tool_search := by
  have of_function {param : FunctionToolParam} (mem : .function param ∈ acc.public_tools) :
      isAvailable loaded' (.function param.name.text, param) = isAvailable loaded (.function param.name.text, param) :=
    same _ (mem_functionsOf.2 ⟨_, mem, mem_function_functions.2 ⟨rfl, rfl⟩⟩)
  have of_namespace {param : CodexNamespaceToolParam} (mem : .namespace param ∈ acc.public_tools) :
      memberRecordsFrom loaded' param.name 0 param.tools = memberRecordsFrom loaded param.name 0 param.tools := by
    apply memberRecordsFrom_congr
    intro p here
    rw [memberAvailable_of_isAvailable, memberAvailable_of_isAvailable]
    exact same _ (mem_functionsOf.2 ⟨_, mem, mem_namespace_functions.2 ⟨here, rfl⟩⟩)
  have here' {t : ResponsesTool} (mem : t ∈ acc.public_tools) : t ∈ acc'.public_tools := same_tools.symm ▸ mem
  rw [same_tools]
  refine ⟨List.filterMap_congr fun tool mem => ?_, fun synthetic_tool_search => List.filterMap_congr fun tool mem => ?_⟩
  · cases tool with
    | function param => rw [catalogEntry_function tracks mem, catalogEntry_function tracks' (here' mem), of_function mem]
    | «namespace» param => rw [catalogEntry_namespace tracks mem, catalogEntry_namespace tracks' (here' mem), of_namespace mem]
    | _ => rfl
  · cases tool with
    | function param => rw [privateTool_function tracks mem, privateTool_function tracks' (here' mem), of_function mem]
    | «namespace» param => rw [privateTool_namespace tracks mem, privateTool_namespace tracks' (here' mem), of_namespace mem]
    | _ => rfl

theorem withheld_congr (withholds : Withholds loaded acc) (withholds' : Withholds loaded' acc') (apart : ToldApart acc.public_tools)
    (same_tools : acc'.public_tools = acc.public_tools)
    (same : ∀ entry ∈ functionsOf acc.public_tools, isAvailable loaded' entry = isAvailable loaded entry) :
    acc'.withheld_function_names = acc.withheld_function_names := by
  apply Finset.ext
  intro x
  rw [withholds apart, withholds' (same_tools.symm ▸ apart), same_tools]
  apply exists_congr
  intro entry
  apply and_congr_right
  intro here
  have equal := same entry here
  rw [isAvailable, isAvailable] at equal
  cases deferred : isDeferred entry.2 with
  | false => simp
  | true =>
    rw [deferred, Bool.not_true, Bool.false_or, Bool.false_or] at equal
    rw [equal]

end

/-- The tools of a request that declares tool search and was accepted. -/
structure SearchTools (tools : List ResponsesTool) : Prop where
  wellFormed : WellFormed tools
  unambiguous : Unambiguous tools
  valid : ∀ tool ∈ tools, validateSearchTool tool = .ok ()
  one : tools.countP ResponsesTool.isToolSearch ≤ 1
  declared : ∃ tool ∈ tools, tool.isToolSearch = true

section
variable {tools more : List ResponsesTool} {tool : ResponsesTool}

theorem isNone_of_isToolSearch (search : tool.isToolSearch = true) : tool.identity.isNone = true := by
  cases tool with
  | toolSearch _ => rfl
  | _ => cases search

theorem countP_isToolSearch :
    (tools.filter (·.identity.isNone)).countP ResponsesTool.isToolSearch = tools.countP ResponsesTool.isToolSearch := by
  rw [List.countP_filter]
  apply List.countP_congr
  intro tool _
  rw [Bool.and_eq_true]
  exact and_iff_left_of_imp isNone_of_isToolSearch

theorem declaredSearch_filter : declaredSearch (tools.filter (·.identity.isNone)) = declaredSearch tools := by
  induction tools with
  | nil => rfl
  | cons tool tools ih =>
    cases tool <;> first | exact ih | rfl

theorem declaredSearch_isSome (declared : ∃ tool ∈ tools, tool.isToolSearch = true) : (declaredSearch tools).isSome = true := by
  obtain ⟨tool, mem, search⟩ := declared
  rw [declaredSearch, List.findSome?_isSome_iff]
  refine ⟨tool, mem, ?_⟩
  cases tool with
  | toolSearch _ => rfl
  | _ => cases search

/-- A definition that has been checked is a valid tool. -/
theorem validateSearchTool_of_check {identity : LoadedToolIdentity} (known : tool.identity = some identity)
    (checked : identity.check = .ok ()) : validateSearchTool tool = .ok () := by
  rw [LoadedToolIdentity.check] at checked
  split at checked
  · cases checked
  split at checked
  · cases checked
  rename_i unreserved
  cases tool with
  | function param =>
    cases known
    have free : (ResponsesTool.function param).hasReservedToolSearchName = false := decide_eq_false unreserved
    rw [validateSearchTool, free]
    rfl
  | «namespace» param =>
    cases known
    have free : (ResponsesTool.namespace param).hasReservedToolSearchName = false := decide_eq_false unreserved
    rw [validateSearchTool, free]
    rfl
  | _ => cases known

/-- The tools stay those of such a request when definitions are loaded. -/
theorem SearchTools.of_others (wellFormed : WellFormed more) (unambiguous : Unambiguous more)
    (others : more.filter (·.identity.isNone) = tools.filter (·.identity.isNone))
    (valid : ∀ tool ∈ tools, validateSearchTool tool = .ok ()) (one : tools.countP ResponsesTool.isToolSearch ≤ 1)
    (declared : ∃ tool ∈ tools, tool.isToolSearch = true) : SearchTools more where
  wellFormed := wellFormed
  unambiguous := unambiguous
  valid tool mem := by
    cases known : tool.identity with
    | some identity => exact validateSearchTool_of_check known (wellFormed.checked tool mem identity known)
    | none =>
      have kept : tool ∈ more.filter (·.identity.isNone) := List.mem_filter.2 ⟨mem, by rw [known]; rfl⟩
      rw [others] at kept
      exact valid tool (List.mem_filter.1 kept).1
  one := by rwa [← countP_isToolSearch, others, countP_isToolSearch]
  declared := by
    obtain ⟨tool, mem, search⟩ := declared
    have kept : tool ∈ tools.filter (·.identity.isNone) := List.mem_filter.2 ⟨mem, isNone_of_isToolSearch search⟩
    rw [← others] at kept
    exact ⟨tool, (List.mem_filter.1 kept).1, search⟩

end

section
variable {readTool : Json → ResponsesTool} {request next : RequestPayload} {restored restored' tools loaded : List ResponsesTool}
  {restore_only_declared restore_only_declared' : Bool} {state : ToolSearchState} {acc : DefinitionAccumulator}
  {input : ResponsesInput}

theorem validateToolSearchRequest_iff : validateToolSearchRequest request input = .ok true ↔
    request.containsToolSearchState input = true ∧ (request.tools.getD []).countP ResponsesTool.isToolSearch ≤ 1 ∧
      request.parallel_tool_calls ≠ some true ∧ ∀ tool ∈ request.tools.getD [], validateSearchTool tool = .ok () := by
  rw [validateToolSearchRequest]
  cases contains : request.containsToolSearchState input with
  | false => exact ⟨(nomatch ·), fun h => nomatch h.1⟩
  | true =>
    rw [Bool.not_true, if_neg Bool.false_ne_true, and_iff_right rfl]
    dsimp only
    by_cases several : 1 < (request.tools.getD []).countP ResponsesTool.isToolSearch
    · rw [if_pos several]
      exact ⟨(nomatch ·), fun h => by omega⟩
    rw [if_neg several]
    by_cases parallel : request.parallel_tool_calls = some true
    · rw [if_pos parallel]
      exact ⟨(nomatch ·), fun h => absurd parallel h.2.1⟩
    rw [if_neg parallel, bind_eq_ok]
    constructor
    · rintro ⟨_, checked, _⟩
      exact ⟨by omega, parallel, forM_eq_ok.1 checked⟩
    · rintro ⟨_, _, checked⟩
      exact ⟨(), forM_eq_ok.2 checked, rfl⟩

theorem containsToolSearchState_of_declared (declared : ∃ tool ∈ request.tools.getD [], tool.isToolSearch = true) :
    request.containsToolSearchState input = true := by
  obtain ⟨tool, mem, search⟩ := declared
  rw [RequestPayload.containsToolSearchState, Bool.or_eq_true]
  right
  apply List.any_eq_true.2
  exact ⟨tool, mem, by rw [ResponsesTool.activatesToolSearch, search, Bool.true_or]⟩

theorem isActive_of_declared (h : buildWithLoadedTools readTool request restored restore_only_declared = .ok state)
    (declared : ∃ tool ∈ request.tools.getD [], tool.isToolSearch = true) : state.isActive = true := by
  rw [buildWithLoadedTools] at h
  obtain ⟨searching, valid, h⟩ := bind_eq_ok.1 h
  have contains := @containsToolSearchState_of_declared request (activeInput request.input) declared
  cases searching with
  | false =>
    rw [validateToolSearchRequest, contains, Bool.not_true, if_neg Bool.false_ne_true] at valid
    dsimp only at valid
    split at valid
    · cases valid
    split at valid
    · cases valid
    obtain ⟨_, _, valid⟩ := bind_eq_ok.1 valid
    cases valid
  | true =>
    rw [Bool.not_true, if_neg Bool.false_ne_true] at h
    dsimp only at h
    split at h
    · cases h
    obtain ⟨_, _, h⟩ := bind_eq_ok.1 h
    obtain ⟨_, _, h⟩ := bind_eq_ok.1 h
    obtain ⟨_, _, h⟩ := bind_eq_ok.1 h
    obtain ⟨_, _, h⟩ := bind_eq_ok.1 h
    rw [pure_eq_ok] at h
    subst h
    rfl

/-- The state that stands for `loaded` over the tools. -/
structure StandsFor (tools loaded : List ResponsesTool) (acc : DefinitionAccumulator) (state : ToolSearchState) : Prop where
  tracks : Tracks loaded acc
  withholds : Withholds loaded acc
  declared_tools : acc.public_tools = tools
  public_effective_tools : state.public_effective_tools = some tools
  synthetic_tool_search : state.synthetic_tool_search = (declaredSearch tools).map fun declaration =>
    syntheticToolSearch declaration (buildCatalog tools acc.definitions)
  private_upstream_tools : state.private_upstream_tools =
    some (buildPrivateTools tools acc.definitions state.synthetic_tool_search)
  withheld_function_names : state.withheld_function_names = acc.withheld_function_names

/-- What is available decides the view. -/
theorem StandsFor.sameView {loaded' : List ResponsesTool} {acc' : DefinitionAccumulator} {again : ToolSearchState}
    (h : StandsFor tools loaded acc state) (h' : StandsFor tools loaded' acc' again) (apart : ToldApart tools)
    (same : ∀ entry ∈ functionsOf tools, isAvailable loaded' entry = isAvailable loaded entry) : SameView state again := by
  have same_tools : acc'.public_tools = acc.public_tools := h'.declared_tools.trans h.declared_tools.symm
  have available : ∀ entry ∈ functionsOf acc.public_tools, isAvailable loaded' entry = isAvailable loaded entry :=
    h.declared_tools.symm ▸ same
  obtain ⟨catalog, tools_same⟩ := views_congr h.tracks h'.tracks same_tools available
  rw [same_tools, h.declared_tools] at catalog tools_same
  have synthetic : again.synthetic_tool_search = state.synthetic_tool_search := by
    rw [h.synthetic_tool_search, h'.synthetic_tool_search, catalog]
  refine ⟨?_, ?_, synthetic, ?_⟩
  · rw [h.public_effective_tools, h'.public_effective_tools]
  · rw [h.private_upstream_tools, h'.private_upstream_tools, synthetic, tools_same]
  · rw [h.withheld_function_names, h'.withheld_function_names]
    exact withheld_congr h.withholds h'.withholds (h.declared_tools.symm ▸ apart) same_tools available

/-- A request over tools that know all that it loads is accepted. -/
theorem rebuild_ok (next : RequestPayload) {first last : DefinitionAccumulator} {result : ResponsesInput} (search : SearchTools tools)
    (same_tools : next.tools = some tools) (sequential : next.parallel_tool_calls ≠ some true)
    (accepted : prepareHistory readTool (activeInput next.input) first = .ok (result, last))
    (restored_known : ∀ tool ∈ restored', Known tools tool)
    (known : ∀ tool ∈ loadedBy readTool (inputItems (activeInput next.input)), Known tools tool)
    (available : CallsAvailable readTool tools restored' (inputItems (activeInput next.input))) :
    ∃ again acc, buildWithLoadedTools readTool next restored' restore_only_declared' = .ok again ∧
      StandsFor tools (loadedInAll readTool next restored') acc again ∧ again.private_upstream_input = some result := by
  have declared : next.tools.getD [] = tools := by rw [same_tools, Option.getD_some]
  have has_search : ∃ tool ∈ next.tools.getD [], tool.isToolSearch = true := declared.symm ▸ search.declared
  have valid : validateToolSearchRequest next (activeInput next.input) = .ok true := by
    apply validateToolSearchRequest_iff.2
    refine ⟨containsToolSearchState_of_declared has_search, ?_, sequential, ?_⟩
    · rw [declared]
      exact search.one
    · rw [declared]
      exact search.valid
  have apart := search.unambiguous.toldApart
  obtain ⟨start, started, opened⟩ : ∃ start, initialDefinitions tools = .ok start ∧ Replays tools [] start := by
    let withheld := (((functionsOf tools).filter fun entry => isDeferred entry.2).map fun entry => entry.1.visibleName).toFinset
    have collected (x : Text) : x ∈ withheld ↔ ∃ entry ∈ functionsOf tools, isDeferred entry.2 = true ∧ entry.1.visibleName = x := by
      simp [withheld, and_assoc]
    let start : DefinitionAccumulator := ⟨tools, recordsFrom [] 0 tools, [], withheld, ∅, []⟩
    have withholds : Withholds [] start := by
      intro _ x
      rw [collected]
      exact ⟨fun ⟨entry, mem, deferred, named⟩ => ⟨entry, mem, deferred, rfl, named⟩,
        fun ⟨entry, mem, deferred, _, named⟩ => ⟨entry, mem, deferred, named⟩⟩
    have tracks : Tracks [] start := ⟨search.wellFormed, rfl⟩
    refine ⟨start, ?_, rfl, tracks, withholds, fun _ _ => rfl⟩
    exact initialDefinitions_iff.2 ⟨search.wellFormed, tracks, withholds, collected, rfl, rfl, rfl, rfl⟩
  obtain ⟨acc₁, restores, replays₁⟩ := opened.restoreAll restore_only_declared' restored_known
  obtain ⟨acc, replayed, replays⟩ := Replays.acceptHistory replays₁ apart accepted known available
  obtain ⟨builder, collisions⟩ := validateNamespaceCollisions_isOk.2 (replays.public_tools.symm ▸ search.unambiguous)
  obtain ⟨declaration, found⟩ := Option.isSome_iff_exists.1 (declaredSearch_isSome search.declared)
  let synthetic := syntheticToolSearch declaration (buildCatalog acc.public_tools acc.definitions)
  let again : ToolSearchState :=
    { activity := .active
      has_completed_search := !restored'.isEmpty || (inputItems (activeInput next.input)).any isSearchOutput
      public_effective_tools := some acc.public_tools
      private_upstream_tools := some (buildPrivateTools acc.public_tools acc.definitions (some synthetic))
      private_upstream_input := some result
      loaded_public_tools := acc.loaded_public_tools
      synthetic_tool_search := some synthetic
      withheld_function_names := acc.withheld_function_names
      unqualified_call_positions := acc.unqualified_call_positions }
  refine ⟨again, acc, ?_, ⟨replays.tracks, replays.withholds, replays.public_tools, ?_, ?_, ?_, rfl⟩, rfl⟩
  · rw [buildWithLoadedTools, valid]
    dsimp only [bind, Except.bind]
    rw [Bool.not_true, if_neg Bool.false_ne_true, declared, found, same_tools]
    rw [Option.isNone_some, Bool.false_and, if_neg Bool.false_ne_true, started]
    dsimp only
    rw [restores]
    dsimp only
    rw [replayed]
    dsimp only
    rw [collisions]
    rfl
  · exact congrArg some replays.public_tools
  · rw [found, ← replays.public_tools]
    rfl
  · rw [← replays.public_tools]

/-- What an accepted request leaves for the next one. -/
theorem accepted_standsFor (h : buildWithLoadedTools readTool request restored restore_only_declared = .ok state)
    (declared : ∃ tool ∈ request.tools.getD [], tool.isToolSearch = true) :
    ∃ tools settled acc, SearchTools tools ∧ StandsFor tools settled acc state ∧
      (∀ tool ∈ state.loaded_public_tools, Known tools tool) ∧
      (∀ entry ∈ functionsOf tools, isLoaded settled entry.1 = isLoaded (loadedInAll readTool request restored) entry.1) ∧
      ∀ entry ∈ functionsOf tools, isAvailable state.loaded_public_tools entry = isAvailable settled entry := by
  obtain ⟨start, middle, final, private_input, steps⟩ := build_steps h (isActive_of_declared h declared)
  obtain ⟨settled, loads, settled_same⟩ := steps.available
  obtain ⟨_, _, withholds, _, start_tools, start_saved, _⟩ := initialDefinitions_iff.1 steps.initial
  obtain ⟨_, one, _, valid⟩ := validateToolSearchRequest_iff.1 steps.valid
  have present : request.tools.isSome = true := by
    obtain ⟨tool, mem, _⟩ := declared
    cases tools : request.tools with
    | none =>
      rw [tools] at mem
      cases mem
    | some _ => rfl
  obtain ⟨public_present, private_present⟩ := steps.present present
  have others : final.public_tools.filter (·.identity.isNone) = (request.tools.getD []).filter (·.identity.isNone) := by
    rw [loads.others, start_tools]
  have search : SearchTools final.public_tools := .of_others loads.tracks.wellFormed steps.unambiguous others valid one declared
  obtain ⟨newly, saved, sound, complete⟩ := loads.saved
  rw [start_saved, List.nil_append] at saved
  rw [List.nil_append] at complete
  refine ⟨final.public_tools, settled, final, search, ⟨?_, ?_, rfl, ?_, ?_, ?_, steps.withheld⟩, ?_, settled_same, ?_⟩
  · exact loads.tracks
  · exact loads.withholds withholds
  · obtain ⟨tools, some_tools⟩ := Option.isSome_iff_exists.1 public_present
    have same := steps.public_tools
    rw [some_tools, Option.getD_some] at same
    rw [some_tools, same]
  · rw [steps.synthetic, ← declaredSearch_filter, ← others, declaredSearch_filter]
  · obtain ⟨tools, some_tools⟩ := Option.isSome_iff_exists.1 private_present
    have same := steps.private_tools
    rw [some_tools, Option.getD_some] at same
    rw [some_tools, same]
  · intro tool mem
    rw [steps.loaded, saved] at mem
    exact (sound tool mem).1
  · intro entry here
    rw [steps.loaded, saved, isAvailable, isAvailable]
    cases deferred : isDeferred entry.2 with
    | false => rfl
    | true =>
      rw [Bool.not_true, Bool.false_or, Bool.false_or, Bool.eq_iff_iff]
      constructor
      · intro loaded
        obtain ⟨tool, mem, defined⟩ := List.any_eq_true.1 loaded
        exact (sound tool mem).2 _ defined
      · intro loaded
        apply complete entry here
        · rw [settled_of_deferred here deferred]
          rfl
        · rw [settled_of_deferred here deferred, loaded]

/-- **The history of an accepted request rebuilds its state**: with the public tools it left, and with the definitions it
saved where it had restored any, the same history is accepted again and the model is shown the same. -/
theorem rebuilt_from_history (h : buildWithLoadedTools readTool request restored restore_only_declared = .ok state)
    (declared : ∃ tool ∈ request.tools.getD [], tool.isToolSearch = true)
    (again_restored : restored' = state.loaded_public_tools ∨ restored = [] ∧ restored' = []) :
    ∃ again, buildWithLoadedTools readTool { request with tools := state.public_effective_tools } restored' restore_only_declared' =
        .ok again ∧ SameView state again ∧ again.private_upstream_input = state.private_upstream_input := by
  obtain ⟨start, middle, final, private_input, steps⟩ := build_steps h (isActive_of_declared h declared)
  obtain ⟨kept, sublist, first, rest, left⟩ := steps.loads
  obtain ⟨_, _, withholds, _⟩ := initialDefinitions_iff.1 steps.initial
  obtain ⟨_, _, sequential, _⟩ := validateToolSearchRequest_iff.1 steps.valid
  obtain ⟨tools, settled, acc, search, stands, saved_known, settled_same, saved_same⟩ := accepted_standsFor h declared
  have tools_eq : tools = final.public_tools := by
    have same := steps.public_tools
    rwa [stands.public_effective_tools, Option.getD_some] at same
  subst tools_eq
  have apart := search.unambiguous.toldApart
  have restored_known : ∀ tool ∈ restored', Known final.public_tools tool := by
    rcases again_restored with rfl | ⟨_, rfl⟩
    · exact saved_known
    · exact fun _ mem => nomatch mem
  have available : CallsAvailable readTool final.public_tools restored' (inputItems (activeInput request.input)) := by
    intro before call after split entry here named
    obtain ⟨acc₁, loads, there, available⟩ := prepareHistory_call first.tracks (first.withholds withholds) steps.history split apart here named
    rw [List.nil_append] at available
    cases deferred : isDeferred entry.2 with
    | false => exact isAvailable_iff.2 (.inl deferred)
    | true =>
      apply isAvailable_iff.2
      right
      have loaded := (isAvailable_iff.1 available).resolve_left (by rw [deferred]; exact Bool.noConfusion)
      rw [isLoaded_append, Bool.or_eq_true] at loaded ⊢
      refine loaded.imp_left fun kept_loaded => ?_
      rcases again_restored with rfl | ⟨rfl, rfl⟩
      · have restored_loaded : isLoaded (loadedInAll readTool request restored) entry.1 = true := by
          obtain ⟨tool, mem, defined⟩ := List.any_eq_true.1 kept_loaded
          exact List.any_eq_true.2 ⟨tool, List.mem_append_left _ (sublist.subset mem), defined⟩
        rw [← settled_same entry here] at restored_loaded
        have saved := saved_same entry here
        rwa [isAvailable, isAvailable, deferred, restored_loaded, Bool.not_true, Bool.false_or, Bool.false_or] at saved
      · rw [List.sublist_nil.1 sublist] at kept_loaded
        cases kept_loaded
  obtain ⟨again, acc', rebuilt, stands', shown⟩ := rebuild_ok { request with tools := state.public_effective_tools } search
    stands.public_effective_tools sequential steps.history restored_known rest.known available
  refine ⟨again, rebuilt, stands.sameView stands' apart fun entry here => ?_, shown.trans steps.shown_input.symm⟩
  have all := settled_same entry here
  rw [loadedInAll, isLoaded_append] at all
  rcases again_restored with rfl | ⟨rfl, rfl⟩
  · have saved := saved_same entry here
    rw [isAvailable, isAvailable, all] at saved
    rw [isAvailable, isAvailable, loadedInAll, isLoaded_append, all]
    cases deferred : isDeferred entry.2 with
    | false => rfl
    | true =>
      rw [deferred, Bool.not_true, Bool.false_or, Bool.false_or] at saved
      rw [saved, Bool.or_assoc, Bool.or_self]
  · rw [isAvailable, isAvailable, loadedInAll, isLoaded_append, all]

theorem weather_rebuilt : ∃ state again, buildWithLoadedTools readDeferred weatherRequest [] false = .ok state ∧
    buildWithLoadedTools readDeferred { weatherRequest with tools := state.public_effective_tools } [] true = .ok again ∧
      SameView state again := by
  obtain ⟨state, built, _⟩ := weather_accepted
  obtain ⟨again, rebuilt, same, _⟩ := rebuilt_from_history built ⟨_, List.mem_cons_self, rfl⟩ (.inr ⟨rfl, rfl⟩)
  exact ⟨state, again, built, rebuilt, same⟩

/-- A request that goes on from a compacted history: no search is left in it, and its calls name nothing withheld. -/
structure Compacted (state : ToolSearchState) (next : RequestPayload) : Prop where
  tools : next.tools = state.public_effective_tools
  sequential : next.parallel_tool_calls ≠ some true
  unsearched : ∀ item ∈ inputItems (activeInput next.input), isSearchItem item = false
  calls : ∀ call, .functionCall call ∈ inputItems (activeInput next.input) →
    ∀ entry ∈ functionsOf (state.public_effective_tools.getD []), namesFunction call entry.1 →
      entry.1.visibleName ∉ state.withheld_function_names

/-- One compacted request after the other, each with the definitions that the one before it saved. -/
def rebuildAll (readTool : Json → ResponsesTool) (state : ToolSearchState) (nexts : List (RequestPayload × Bool)) :
    Except ToolError ToolSearchState :=
  nexts.foldlM (fun state next => buildWithLoadedTools readTool next.1 state.loaded_public_tools next.2) state

theorem SameView.compacted {again : ToolSearchState} (same : SameView state again) (compacted : Compacted state next) :
    Compacted again next where
  tools := compacted.tools.trans same.public_effective_tools.symm
  sequential := compacted.sequential
  unsearched := compacted.unsearched
  calls := by
    rw [same.public_effective_tools, same.withheld_function_names]
    exact compacted.calls

theorem SameView.trans {again last : ToolSearchState} (first : SameView state again) (second : SameView again last) :
    SameView state last where
  public_effective_tools := second.public_effective_tools.trans first.public_effective_tools
  private_upstream_tools := second.private_upstream_tools.trans first.private_upstream_tools
  synthetic_tool_search := second.synthetic_tool_search.trans first.synthetic_tool_search
  withheld_function_names := second.withheld_function_names.trans first.withheld_function_names

/-- One compaction. -/
theorem rebuilt_compacted (restore_only_declared' : Bool) (h : buildWithLoadedTools readTool request restored restore_only_declared = .ok state)
    (declared : ∃ tool ∈ request.tools.getD [], tool.isToolSearch = true) (compacted : Compacted state next) :
    (∃ tool ∈ next.tools.getD [], tool.isToolSearch = true) ∧
      ∃ again, buildWithLoadedTools readTool next state.loaded_public_tools restore_only_declared' = .ok again ∧
        SameView state again := by
  obtain ⟨tools, settled, acc, search, stands, saved_known, -, saved_same⟩ := accepted_standsFor h declared
  have apart := search.unambiguous.toldApart
  have next_tools : next.tools = some tools := compacted.tools.trans stands.public_effective_tools
  have nothing : loadedBy readTool (inputItems (activeInput next.input)) = [] := loadedBy_unsearched compacted.unsearched
  obtain ⟨result, first, last, accepted⟩ : ∃ result first last, prepareHistory readTool (activeInput next.input) first = .ok (result, last) :=
    prepareHistory_unsearched compacted.unsearched
  have available : CallsAvailable readTool tools state.loaded_public_tools (inputItems (activeInput next.input)) := by
    intro before call after split entry here named
    have mem : .functionCall call ∈ inputItems (activeInput next.input) := by
      rw [split]
      exact List.mem_append_right _ List.mem_cons_self
    have calls := compacted.calls call mem entry
    rw [stands.public_effective_tools, Option.getD_some, stands.withheld_function_names] at calls
    have before_nothing : loadedBy readTool before = [] := by
      apply loadedBy_unsearched
      intro item there
      apply compacted.unsearched
      rw [split]
      exact List.mem_append_left _ there
    rw [before_nothing, List.append_nil, saved_same entry here, isAvailable_iff]
    by_contra unavailable
    rw [not_or, Bool.not_eq_false, Bool.not_eq_true] at unavailable
    apply calls here named
    apply (stands.withholds (stands.declared_tools.symm ▸ apart) _).2
    exact ⟨entry, stands.declared_tools.symm ▸ here, unavailable.1, unavailable.2, rfl⟩
  obtain ⟨again, acc', rebuilt, stands', -⟩ := rebuild_ok next search next_tools compacted.sequential accepted saved_known
    (by rw [nothing]; exact fun _ mem => nomatch mem) available
  refine ⟨by rw [next_tools]; exact search.declared, again, rebuilt, stands.sameView stands' apart fun entry here => ?_⟩
  rw [loadedInAll, nothing, List.append_nil, saved_same entry here]

/-- **What was loaded survives compaction**: however often the history is compacted, each next request is accepted with
the definitions that were saved, and the model is shown the same tools and has the same withheld from it. -/
theorem rebuilt_after_compactions {nexts : List (RequestPayload × Bool)}
    (h : buildWithLoadedTools readTool request restored restore_only_declared = .ok state)
    (declared : ∃ tool ∈ request.tools.getD [], tool.isToolSearch = true) (compacted : ∀ next ∈ nexts, Compacted state next.1) :
    ∃ again, rebuildAll readTool state nexts = .ok again ∧ SameView state again := by
  induction nexts generalizing request restored restore_only_declared state with
  | nil => exact ⟨state, rfl, rfl, rfl, rfl, rfl⟩
  | cons next nexts ih =>
    obtain ⟨still, again, rebuilt, same⟩ := rebuilt_compacted next.2 h declared (compacted next List.mem_cons_self)
    obtain ⟨last, rest, same'⟩ := ih rebuilt still fun n mem => same.compacted (compacted n (List.mem_cons_of_mem _ mem))
    refine ⟨last, ?_, same.trans same'⟩
    rw [rebuildAll, List.foldlM_cons, rebuilt]
    exact rest

/-- A history whose search is behind a checkpoint, with the call again; and then one that is compacted once more. -/
def weatherNexts (state : ToolSearchState) : List (RequestPayload × Bool) :=
  let first := weatherSearch ++ [.compaction ⟨some "cmp_1", "The weather was looked up."⟩, .functionCall weatherCall]
  let second := first ++ [.compaction ⟨some "cmp_2", "It was looked up again."⟩, .functionCall weatherCall]
  [(⟨.items first, state.public_effective_tools, none, none⟩, false),
   (⟨.items second, state.public_effective_tools, some .auto, some false⟩, true)]

theorem weather_compacted : ∃ state again, buildWithLoadedTools readDeferred weatherRequest [] false = .ok state ∧
    rebuildAll readDeferred state (weatherNexts state) = .ok again ∧ SameView state again := by
  obtain ⟨state, built, _, withheld, _⟩ := weather_accepted
  have searched : (weatherNexts state).all (fun next =>
      (inputItems (activeInput next.1.input)).all fun item => !isSearchItem item) = true := rfl
  have compacted : ∀ next ∈ weatherNexts state, Compacted state next.1 := by
    intro next mem
    have unsearched := List.all_eq_true.1 (List.all_eq_true.1 searched next mem)
    refine ⟨?_, ?_, fun item here => by simpa using unsearched item here, fun _ _ _ _ _ hidden => ?_⟩
    · rcases List.mem_pair.1 mem with rfl | rfl <;> rfl
    · rcases List.mem_pair.1 mem with rfl | rfl <;> simp
    · rw [withheld] at hidden
      exact Finset.notMem_empty _ hidden
  obtain ⟨again, rebuilt, same⟩ := rebuilt_after_compactions built ⟨_, List.mem_cons_self, rfl⟩ compacted
  exact ⟨state, again, built, rebuilt, same⟩

end

end AgenticStack.Tools
