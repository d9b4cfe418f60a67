import AgenticStack.Tool.SearchPartition

/-!
# Accepted requests

What holds of every request that tool search accepts: of its functions, of the
calls in its history, and of its searches.
-/

namespace AgenticStack.Tools
set_option autoImplicit false
open Library

/-- The definitions that an accepted request has loaded: what was restored, then what its searches returned. -/
def loadedInAll (readTool : Json → ResponsesTool) (request : RequestPayload) (restored : List ResponsesTool) : List ResponsesTool :=
  restored ++ loadedBy readTool (inputItems (activeInput request.input))

section
variable {readTool : Json → ResponsesTool} {request : RequestPayload} {restored loaded : List ResponsesTool}
  {restore_only_declared : Bool} {state : ToolSearchState} {acc acc' final : DefinitionAccumulator} {input result : ResponsesInput}
  {entry : FunctionId × FunctionToolParam} {call : InputFunctionToolCall} {before after : List InputItem}

/-- The steps of an accepted build. -/
structure BuildSteps (readTool : Json → ResponsesTool) (request : RequestPayload) (restored : List ResponsesTool)
    (restore_only_declared : Bool) (state : ToolSearchState) (start acc final : DefinitionAccumulator)
    (private_input : ResponsesInput) : Prop where
  valid : validateToolSearchRequest request (activeInput request.input) = .ok true
  initial : initialDefinitions (request.tools.getD []) = .ok start
  restore : restored.foldlM (restoreLoadedDefinition restore_only_declared) start = .ok acc
  history : prepareHistory readTool (activeInput request.input) acc = .ok (private_input, final)
  unambiguous : Unambiguous final.public_tools
  public_tools : state.public_effective_tools.getD [] = final.public_tools
  private_tools : state.private_upstream_tools.getD [] =
    buildPrivateTools final.public_tools final.definitions state.synthetic_tool_search
  synthetic : state.synthetic_tool_search = (declaredSearch (request.tools.getD [])).map fun declaration =>
    syntheticToolSearch declaration (buildCatalog final.public_tools final.definitions)
  present : request.tools.isSome = true → state.public_effective_tools.isSome = true ∧ state.private_upstream_tools.isSome = true
  shown_input : state.private_upstream_input = some private_input
  loaded : state.loaded_public_tools = final.loaded_public_tools
  withheld : state.withheld_function_names = final.withheld_function_names
  positions : state.unqualified_call_positions = final.unqualified_call_positions

theorem getD_of_present {α : Type} {present : Bool} {l : List α} :
    (if (present || !l.isEmpty) = true then some l else none).getD [] = l := by
  cases l <;> cases present <;> rfl

theorem build_steps (h : buildWithLoadedTools readTool request restored restore_only_declared = .ok state)
    (active : state.isActive = true) :
    ∃ start acc final private_input, BuildSteps readTool request restored restore_only_declared state start acc final private_input := by
  rw [buildWithLoadedTools] at h
  obtain ⟨searching, valid, h⟩ := bind_eq_ok.1 h
  cases searching with
  | false =>
    cases h
    cases active
  | true =>
    rw [Bool.not_true, if_neg Bool.false_ne_true] at h
    dsimp only at h
    split at h
    · cases h
    obtain ⟨start, started, h⟩ := bind_eq_ok.1 h
    obtain ⟨acc, restores, h⟩ := bind_eq_ok.1 h
    obtain ⟨⟨private_input, final⟩, replayed, h⟩ := bind_eq_ok.1 h
    obtain ⟨builder, apart, h⟩ := bind_eq_ok.1 h
    rw [pure_eq_ok] at h
    subst h
    refine ⟨start, acc, final, private_input, valid, started, restores, replayed, ?_, ?_, ?_, rfl, ?_, rfl, rfl, rfl, rfl⟩
    · exact validateNamespaceCollisions_isOk.1 ⟨builder, apart⟩
    · exact getD_of_present
    · exact getD_of_present
    · intro present
      rw [present]
      exact ⟨rfl, rfl⟩

theorem prepareHistory_loads (tracks : Tracks loaded acc) (h : prepareHistory readTool input acc = .ok (result, acc')) :
    Loads loaded (loadedBy readTool (inputItems input)) acc acc' := by
  cases input with
  | text _ =>
    cases h
    exact .refl tracks
  | items items =>
    obtain ⟨pass, run, h⟩ := bind_eq_ok.1 h
    split at h
    · cases h
    · cases h
      exact prepareItems_loads tracks run

/-- A call of the history names what is available by then. -/
theorem prepareHistory_call (tracks : Tracks loaded acc) (withholds : Withholds loaded acc)
    (h : prepareHistory readTool input acc = .ok (result, final)) (split : inputItems input = before ++ .functionCall call :: after)
    (apart : ToldApart final.public_tools) (here : entry ∈ functionsOf final.public_tools) (named : namesFunction call entry.1) :
    ∃ acc₁, Loads loaded (loadedBy readTool before) acc acc₁ ∧ entry ∈ functionsOf acc₁.public_tools ∧
      isAvailable (loaded ++ loadedBy readTool before) entry = true := by
  cases input with
  | text _ => cases before <;> cases split
  | items items =>
    obtain ⟨pass, run, h⟩ := bind_eq_ok.1 h
    rw [show items = before ++ .functionCall call :: after from split, List.zipIdx_append, List.foldlM_append,
      List.zipIdx_cons] at run
    obtain ⟨pass₁, first, run⟩ := bind_eq_ok.1 run
    rw [List.foldlM_cons] at run
    obtain ⟨pass₂, step, rest⟩ := bind_eq_ok.1 run
    obtain ⟨definitions, noted, step⟩ := bind_eq_ok.1 step
    cases step
    have same : pass.definitions = final := by
      split at h <;> cases h
      rfl
    have loads := prepareItems_loads tracks first
    have later := prepareItems_loads (call_loads loads.tracks noted).tracks rest
    rw [List.append_nil, same] at later
    exact ⟨pass₁.definitions, loads, call_available loads.tracks (loads.withholds withholds) noted later apart here named⟩

section
variable {start : DefinitionAccumulator} {private_input : ResponsesInput}

/-- What the whole of a build has loaded. -/
theorem BuildSteps.loads (steps : BuildSteps readTool request restored restore_only_declared state start acc final private_input) :
    ∃ kept, kept.Sublist restored ∧ Loads [] kept start acc ∧
      Loads kept (loadedBy readTool (inputItems (activeInput request.input))) acc final ∧
      ∀ t ∈ restored, t ∈ kept ∨ ∀ entry ∈ functionsOf acc.public_tools, t.defines entry.1 = false := by
  obtain ⟨_, tracks, _⟩ := initialDefinitions_iff.1 steps.initial
  obtain ⟨kept, sublist, loads, _, left⟩ := restore_loads tracks steps.restore
  exact ⟨kept, sublist, loads, prepareHistory_loads loads.tracks steps.history, left⟩

theorem BuildSteps.available (steps : BuildSteps readTool request restored restore_only_declared state start acc final private_input) :
    ∃ settled, Loads [] settled start final ∧ ∀ entry ∈ functionsOf final.public_tools,
      isLoaded settled entry.1 = isLoaded (loadedInAll readTool request restored) entry.1 := by
  obtain ⟨kept, sublist, first, rest, left⟩ := steps.loads
  exact ⟨_, first.trans rest, fun entry here => restored_isLoaded sublist left rest here⟩

end

def weather : FunctionToolParam := ⟨⟨"weather", by decide⟩, none, none, none, some true, []⟩

def clock : FunctionToolParam := ⟨⟨"clock", by decide⟩, none, none, none, none, []⟩

/-- Reads a deferred function that has no more than its name. -/
def readDeferred (v : Json) : ResponsesTool :=
  match (v.get "name").bind Json.asStr with
  | some (b :: name) => .function ⟨⟨b :: name, List.cons_ne_nil b name⟩, none, none, none, some true, []⟩
  | _ => .unknown

def weatherSearch : List InputItem :=
  [.toolSearchCall ⟨"ts_1", "call_1", .client, .obj [], .completed⟩,
   .toolSearchOutput ⟨"call_1", .client, .completed,
     [.obj [("type", .str "function"), ("name", .str "weather"), ("defer_loading", .bool true)]]⟩]

def weatherCall : InputFunctionToolCall := ⟨none, "call_2", "weather", none, "{}", none⟩

/-- A deferred function is searched for, found and called. -/
def weatherRequest : RequestPayload where
  input := .items (weatherSearch ++ [.functionCall weatherCall])
  tools := some [.toolSearch ⟨none, none⟩, .function weather, .function clock]
  tool_choice := none
  parallel_tool_calls := none

theorem weather_accepted : ∃ state, buildWithLoadedTools readDeferred weatherRequest [] false = .ok state ∧
    state.isActive = true ∧ state.withheld_function_names = ∅ ∧
    functionsOf (state.public_effective_tools.getD []) = [(.function "weather", weather), (.function "clock", clock)] := by
  have built : (buildWithLoadedTools readDeferred weatherRequest [] false).map (fun state =>
      (state.isActive, state.withheld_function_names, functionsOf (state.public_effective_tools.getD []))) =
      .ok (true, ∅, [(.function "weather", weather), (.function "clock", clock)]) := by rfl
  obtain ⟨state, built, same⟩ := map_eq_ok.1 built
  rw [Prod.mk.injEq, Prod.mk.injEq] at same
  exact ⟨state, built, same.1, same.2.1, same.2.2⟩

/-- **Every function is shown or withheld, and not both.** It is withheld when it is deferred and neither a restored
definition nor the output of a search has loaded it; all others are shown, in their order. -/
theorem accepted_partition (h : buildWithLoadedTools readTool request restored restore_only_declared = .ok state)
    (active : state.isActive = true) :
    (∀ entry ∈ functionsOf (request.tools.getD []), entry ∈ functionsOf (state.public_effective_tools.getD [])) ∧
    functionsOf (state.private_upstream_tools.getD []) =
      ((functionsOf (state.public_effective_tools.getD [])).filter
        (isAvailable (loadedInAll readTool request restored))).map shownFunction ∧
    (∀ x, x ∈ state.withheld_function_names ↔ ∃ entry ∈ functionsOf (state.public_effective_tools.getD []),
      isDeferred entry.2 = true ∧ isLoaded (loadedInAll readTool request restored) entry.1 = false ∧ entry.1.visibleName = x) ∧
    ∀ entry ∈ functionsOf (state.private_upstream_tools.getD []), entry.1.visibleName ∉ state.withheld_function_names := by
  obtain ⟨start, acc, final, private_input, steps⟩ := build_steps h active
  obtain ⟨settled, loads, same⟩ := steps.available
  obtain ⟨_, _, withholds, _, declared, _⟩ := initialDefinitions_iff.1 steps.initial
  have apart := steps.unambiguous.toldApart
  rw [steps.public_tools, steps.private_tools, steps.withheld]
  have shown : functionsOf (buildPrivateTools final.public_tools final.definitions state.synthetic_tool_search) =
      ((functionsOf final.public_tools).filter (isAvailable (loadedInAll readTool request restored))).map shownFunction := by
    rw [functionsOf_buildPrivateTools loads.tracks, List.nil_append]
    congr 1
    apply List.filter_congr
    intro entry here
    rw [isAvailable, isAvailable, same entry here]
  have withheld (x : Text) : x ∈ final.withheld_function_names ↔ ∃ entry ∈ functionsOf final.public_tools,
      isDeferred entry.2 = true ∧ isLoaded (loadedInAll readTool request restored) entry.1 = false ∧ entry.1.visibleName = x := by
    rw [loads.withholds withholds apart, List.nil_append]
    apply exists_congr
    intro entry
    apply and_congr_right
    intro here
    rw [same entry here]
  refine ⟨fun entry here => loads.kept entry (declared ▸ here), shown, withheld, ?_⟩
  intro entry here hidden
  rw [shown] at here
  obtain ⟨own, mem, rfl⟩ := List.mem_map.1 here
  obtain ⟨mem, available⟩ := List.mem_filter.1 mem
  obtain ⟨other, there, deferred, unloaded, named⟩ := (withheld _).1 hidden
  have equal := apart other there own mem named
  rcases isAvailable_iff.1 available with eager | loads'
  · obtain ⟨id, p⟩ := own
    obtain ⟨id', q⟩ := other
    cases equal
    rw [loads.tracks.unique mem there] at eager
    rw [eager] at deferred
    cases deferred
  · rw [← equal, unloaded] at loads'
    cases loads'

theorem weather_partition : ∃ state, buildWithLoadedTools readDeferred weatherRequest [] false = .ok state ∧
    functionsOf (state.private_upstream_tools.getD []) = [(.function "weather", weather.makeAvailable), (.function "clock", clock)] ∧
    ∀ entry ∈ functionsOf (state.private_upstream_tools.getD []), entry.1.visibleName ∉ state.withheld_function_names := by
  obtain ⟨state, built, active, _, functions⟩ := weather_accepted
  obtain ⟨_, shown, _, apart⟩ := accepted_partition built active
  refine ⟨state, built, ?_, apart⟩
  rw [shown, functions]
  rfl

/-- **A call in the history names nothing that came later**: a function it names was declared and is not deferred, or was
loaded by a restored definition or by the output of a search before the call. -/
theorem accepted_calls_available (h : buildWithLoadedTools readTool request restored restore_only_declared = .ok state)
    (active : state.isActive = true) (split : inputItems (activeInput request.input) = before ++ .functionCall call :: after)
    (here : entry ∈ functionsOf (state.public_effective_tools.getD [])) (named : namesFunction call entry.1) :
    entry ∈ functionsOf (request.tools.getD []) ∧ isDeferred entry.2 = false ∨
      isLoaded (restored ++ loadedBy readTool before) entry.1 = true := by
  obtain ⟨start, acc, final, private_input, steps⟩ := build_steps h active
  obtain ⟨kept, sublist, first, _, left⟩ := steps.loads
  obtain ⟨_, _, withholds, _, declared, _⟩ := initialDefinitions_iff.1 steps.initial
  rw [steps.public_tools] at here
  have apart := steps.unambiguous.toldApart
  obtain ⟨acc₁, loads, there, available⟩ := prepareHistory_call first.tracks (first.withholds withholds) steps.history split apart here named
  rw [List.nil_append] at loads available
  have same := restored_isLoaded sublist left loads there
  have whole : Loads [] (kept ++ loadedBy readTool before) start acc₁ := first.trans loads
  rw [← same]
  rcases isAvailable_iff.1 available with eager | loaded
  · rcases whole.new entry there with old | ⟨loaded, -⟩
    · exact .inl ⟨declared ▸ old, eager⟩
    · exact .inr loaded
  · exact .inr loaded

theorem weather_called : isLoaded ([] ++ loadedBy readDeferred weatherSearch) (.function "weather") = true := by
  obtain ⟨state, built, active, _, functions⟩ := weather_accepted
  have split : inputItems (activeInput weatherRequest.input) = weatherSearch ++ .functionCall weatherCall :: [] := by rfl
  have here : (.function "weather", weather) ∈ functionsOf (state.public_effective_tools.getD []) := by
    rw [functions]
    exact List.mem_cons_self
  have named : namesFunction weatherCall (.function "weather") := by rfl
  rcases accepted_calls_available built active split here named with ⟨_, eager⟩ | loaded
  · cases eager
  · exact loaded

/-- **Every search of an accepted history is resolved**: the search items are calls, each followed by its completed
output, and the private input has both as a call of a function and its output. -/
theorem accepted_searches_resolved (h : buildWithLoadedTools readTool request restored restore_only_declared = .ok state)
    (active : state.isActive = true) :
    ∃ turns : List SearchTurn, (inputItems (activeInput request.input)).filter isSearchItem = turns.flatMap SearchTurn.items ∧
      (∀ turn ∈ turns, turn.Resolved) ∧ (turns.map (·.call.call_id)).Nodup ∧ (turns.map (·.call.id)).Nodup ∧
      (state.private_upstream_input.map inputItems).getD [] =
        (inputItems (activeInput request.input)).flatMap (privateItem readTool) := by
  obtain ⟨start, acc, final, private_input, steps⟩ := build_steps h active
  rw [steps.shown_input]
  have history := steps.history
  cases input : activeInput request.input with
  | text text =>
    rw [input] at history
    cases history
    exact ⟨[], rfl, fun _ mem => (nomatch mem), List.nodup_nil, List.nodup_nil, rfl⟩
  | items items =>
    rw [input] at history
    obtain ⟨turns, paired, resolved, calls, ids⟩ := prepareHistory_searches history
    refine ⟨turns, paired, resolved, calls, ids, ?_⟩
    obtain ⟨pass, run, ended⟩ := bind_eq_ok.1 history
    have projected := prepareItems_private run
    split at ended
    · cases ended
    · cases ended
      exact projected

theorem weather_resolved : ∃ state, ∃ turns : List SearchTurn,
    buildWithLoadedTools readDeferred weatherRequest [] false = .ok state ∧ weatherSearch = turns.flatMap SearchTurn.items ∧
      ∀ turn ∈ turns, turn.Resolved := by
  obtain ⟨state, built, active, _⟩ := weather_accepted
  obtain ⟨turns, paired, resolved, _⟩ := accepted_searches_resolved built active
  exact ⟨state, turns, built, paired, resolved⟩

end

end AgenticStack.Tools
