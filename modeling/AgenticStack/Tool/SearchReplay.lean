import AgenticStack.Tool.SearchHistory

/-!
# The pass over a history

Every item of an accepted history has its place in the private input. A search
is resolved by the next search item, which is its output, and no other search
has its identifiers.
-/

namespace AgenticStack.Tools
set_option autoImplicit false
open Library

/-- A search, and the output that resolved it. -/
structure SearchTurn where
  call : InputToolSearchCall
  output : ToolSearchOutputMessage

def SearchTurn.items (turn : SearchTurn) : List InputItem := [.toolSearchCall turn.call, .toolSearchOutput turn.output]

/-- The output is complete and is of the call. -/
def SearchTurn.Resolved (turn : SearchTurn) : Prop :=
  turn.output.call_id = turn.call.call_id ∧ turn.output.status = .completed

/-- What the model is shown for an item: a search is a call of a function. -/
def privateItem (readTool : Json → ResponsesTool) : InputItem → List InputItem
  | .toolSearchCall call => [.functionCall
      { id := some call.id, call_id := call.call_id, name := TOOL_SEARCH_NAME, «namespace» := none,
        arguments := call.arguments.write, status := some .completed }]
  | .toolSearchOutput output => [.functionCallOutput
      { call_id := output.call_id
        output := .text (Json.obj [(utf8 "tools", Json.arr ((output.tools.map readTool).filterMap fun tool =>
          (modelVisibleLoadedTool tool).toOption))]).write }]
  | .compactionTrigger => []
  | item => [item]

section
variable {readTool : Json → ResponsesTool} {loaded : List ResponsesTool} {acc acc' : DefinitionAccumulator}
  {pass pass' : HistoryPass} {item : InputItem} {items : List InputItem} {position start : Nat}
  {call : InputToolSearchCall} {output : ToolSearchOutputMessage}

theorem filterMap_of_mapM {α β ε : Type} {f : α → Except ε β} {l : List α} {l' : List β} (ran : l.mapM f = .ok l') :
    l' = l.filterMap fun a => (f a).toOption := by
  induction l generalizing l' with
  | nil =>
    obtain rfl := pure_eq_ok.1 ran
    simp
  | cons a l ih =>
    rw [List.mapM_cons] at ran
    obtain ⟨b, now, ran⟩ := bind_eq_ok.1 ran
    obtain ⟨rest, later, ran⟩ := bind_eq_ok.1 ran
    obtain rfl := pure_eq_ok.1 ran
    rw [List.filterMap_cons, now, ← ih later]
    simp [Except.toOption]

/-- What a call of the search needs and does. -/
theorem prepareSearchCall_ok (readTool : Json → ResponsesTool) (h : prepareSearchCall pass call = .ok pass') :
    call.id ∉ pass.item_ids ∧ pass.unresolved_call = none ∧ call.call_id ∉ pass.completed_call_ids ∧
      pass' = { pass with
        private_items := pass.private_items ++ privateItem readTool (.toolSearchCall call)
        unresolved_call := some call.call_id
        item_ids := insert call.id pass.item_ids } := by
  rw [prepareSearchCall] at h
  repeat' (split at h; · cases h)
  rename_i fresh resolved unused
  rw [Except.ok.injEq] at h
  subst h
  exact ⟨fresh, by simpa using resolved, unused, rfl⟩

/-- What an output needs and does. -/
theorem prepareSearchOutput_iff : prepareSearchOutput readTool pass output = .ok pass' ↔
    Engine.trim output.call_id ≠ [] ∧ output.call_id ∉ pass.completed_call_ids ∧ pass.unresolved_call = some output.call_id ∧
      output.status = .completed ∧ ∃ definitions projected_tools,
        (output.tools.map readTool).foldlM loadDefinition pass.definitions = .ok definitions ∧
        (output.tools.map readTool).mapM modelVisibleLoadedTool = .ok projected_tools ∧
        pass' = { pass with
          definitions
          private_items := pass.private_items ++ [.functionCallOutput
            { call_id := output.call_id, output := .text (Json.obj [(utf8 "tools", Json.arr projected_tools)]).write }]
          unresolved_call := none
          completed_call_ids := insert output.call_id pass.completed_call_ids } := by
  rw [prepareSearchOutput]
  by_cases blank : Engine.trim output.call_id = []
  · rw [if_pos blank]
    exact ⟨(nomatch ·), fun h => absurd blank h.1⟩
  rw [if_neg blank, and_iff_right blank]
  by_cases used : output.call_id ∈ pass.completed_call_ids
  · rw [if_pos used]
    exact ⟨(nomatch ·), fun h => absurd used h.1⟩
  rw [if_neg used, and_iff_right used]
  cases opened : pass.unresolved_call with
  | none => exact ⟨(nomatch ·), fun h => nomatch h.1⟩
  | some call_id =>
    rw [Option.some.injEq]
    by_cases matched : call_id ≠ output.call_id
    · dsimp only
      rw [if_pos matched]
      exact ⟨(nomatch ·), fun h => absurd h.1 matched⟩
    dsimp only
    rw [if_neg matched, and_iff_right (not_not.1 matched)]
    by_cases incomplete : output.status ≠ .completed
    · rw [if_pos incomplete]
      exact ⟨(nomatch ·), fun h => absurd h.1 incomplete⟩
    rw [if_neg incomplete, and_iff_right (not_not.1 incomplete)]
    simp only [bind_eq_ok, pure_eq_ok, exists_and_left]
    simp only [eq_comm]

theorem prepareSearchOutput_ok (h : prepareSearchOutput readTool pass output = .ok pass') :
    pass.unresolved_call = some output.call_id ∧ output.status = .completed ∧ output.call_id ∉ pass.completed_call_ids ∧
      ∃ definitions, (output.tools.map readTool).foldlM loadDefinition pass.definitions = .ok definitions ∧
        pass' = { pass with
          definitions
          private_items := pass.private_items ++ privateItem readTool (.toolSearchOutput output)
          unresolved_call := none
          completed_call_ids := insert output.call_id pass.completed_call_ids } := by
  obtain ⟨_, unused, opened, complete, definitions, projected, loads, shown, rfl⟩ := prepareSearchOutput_iff.1 h
  refine ⟨opened, complete, unused, definitions, loads, ?_⟩
  rw [filterMap_of_mapM shown]
  rfl

theorem prepareItem_loads (tracks : Tracks loaded pass.definitions) (h : prepareItem readTool pass (item, position) = .ok pass') :
    Loads loaded (returnedTools readTool item) pass.definitions pass'.definitions := by
  cases item with
  | toolSearchCall call =>
    obtain ⟨-, -, -, rfl⟩ := prepareSearchCall_ok readTool h
    exact .refl tracks
  | toolSearchOutput output =>
    obtain ⟨-, -, -, definitions, loads, rfl⟩ := prepareSearchOutput_ok h
    exact loadDefinitions_loads tracks loads
  | functionCall call =>
    obtain ⟨definitions, noted, h⟩ := bind_eq_ok.1 h
    cases h
    exact call_loads tracks noted
  | _ =>
    cases h
    exact .refl tracks

theorem prepareItem_private (h : prepareItem readTool pass (item, position) = .ok pass') :
    pass'.private_items = pass.private_items ++ privateItem readTool item := by
  cases item with
  | toolSearchCall call =>
    obtain ⟨-, -, -, rfl⟩ := prepareSearchCall_ok readTool h
    rfl
  | toolSearchOutput output =>
    obtain ⟨-, -, -, definitions, loads, rfl⟩ := prepareSearchOutput_ok h
    rfl
  | functionCall call =>
    obtain ⟨definitions, noted, h⟩ := bind_eq_ok.1 h
    cases h
    rfl
  | compactionTrigger =>
    cases h
    exact (List.append_nil _).symm
  | _ =>
    cases h
    rfl

/-- The run over a part of a history. -/
theorem prepareItems_loads (tracks : Tracks loaded pass.definitions)
    (h : (items.zipIdx start).foldlM (prepareItem readTool) pass = .ok pass') :
    Loads loaded (loadedBy readTool items) pass.definitions pass'.definitions := by
  induction items generalizing loaded pass start with
  | nil =>
    rw [List.zipIdx_nil, List.foldlM_nil, pure_eq_ok] at h
    subst h
    exact .refl tracks
  | cons item items ih =>
    rw [List.zipIdx_cons, List.foldlM_cons] at h
    obtain ⟨next, first, rest⟩ := bind_eq_ok.1 h
    have one := prepareItem_loads tracks first
    have all := one.trans (ih one.tracks rest)
    rwa [loadedBy, List.flatMap_cons]

theorem prepareItems_private (h : (items.zipIdx start).foldlM (prepareItem readTool) pass = .ok pass') :
    pass'.private_items = pass.private_items ++ items.flatMap (privateItem readTool) := by
  induction items generalizing pass start with
  | nil =>
    rw [List.zipIdx_nil, List.foldlM_nil, pure_eq_ok] at h
    simp [h]
  | cons item items ih =>
    rw [List.zipIdx_cons, List.foldlM_cons] at h
    obtain ⟨next, first, rest⟩ := bind_eq_ok.1 h
    rw [ih rest, prepareItem_private first, List.append_assoc, List.flatMap_cons]

/-- The searches of the items so far, of which the last may be open. -/
structure Searches (items : List InputItem) (turns : List SearchTurn) (opened : Option InputToolSearchCall)
    (pass : HistoryPass) : Prop where
  items : items.filter isSearchItem = turns.flatMap SearchTurn.items ++ (opened.map InputItem.toolSearchCall).toList
  resolved : ∀ turn ∈ turns, turn.Resolved
  unresolved : pass.unresolved_call = opened.map InputToolSearchCall.call_id
  completed : ∀ call_id, call_id ∈ pass.completed_call_ids ↔ call_id ∈ turns.map (·.call.call_id)
  ids : ∀ id, id ∈ pass.item_ids ↔ id ∈ turns.map (·.call.id) ++ (opened.map InputToolSearchCall.id).toList
  callsOnce : (turns.map (·.call.call_id) ++ (opened.map InputToolSearchCall.call_id).toList).Nodup
  idsOnce : (turns.map (·.call.id) ++ (opened.map InputToolSearchCall.id).toList).Nodup

section
variable {turns : List SearchTurn} {opened : Option InputToolSearchCall}

theorem Searches.withCall (h : Searches items turns none pass) (fresh : call.id ∉ pass.item_ids)
    (unused : call.call_id ∉ pass.completed_call_ids) (unresolved : pass'.unresolved_call = some call.call_id)
    (completed : pass'.completed_call_ids = pass.completed_call_ids) (ids : pass'.item_ids = insert call.id pass.item_ids) :
    Searches (items ++ [.toolSearchCall call]) turns (some call) pass' where
  items := by
    rw [List.filter_append, h.items]
    simp [isSearchItem]
  resolved := h.resolved
  unresolved := unresolved
  completed call_id := by rw [completed, h.completed]
  ids id := by
    rw [ids, Finset.mem_insert, h.ids]
    simp [or_comm]
  callsOnce := by
    rw [h.completed] at unused
    have once := h.callsOnce
    apply List.Nodup.append
    · exact once.of_append_left
    · exact List.nodup_singleton _
    · simpa using unused
  idsOnce := by
    rw [h.ids] at fresh
    have once := h.idsOnce
    apply List.Nodup.append
    · exact once.of_append_left
    · exact List.nodup_singleton _
    · simpa using fresh

theorem Searches.withOutput (h : Searches items turns (some call) pass) (matched : output.call_id = call.call_id)
    (complete : output.status = .completed) (unresolved : pass'.unresolved_call = none)
    (completed : pass'.completed_call_ids = insert output.call_id pass.completed_call_ids)
    (ids : pass'.item_ids = pass.item_ids) :
    Searches (items ++ [.toolSearchOutput output]) (turns ++ [⟨call, output⟩]) none pass' where
  items := by
    rw [List.filter_append, h.items]
    simp [isSearchItem, SearchTurn.items]
  resolved turn mem := by
    rcases List.mem_append.1 mem with mem | mem
    · exact h.resolved turn mem
    · cases List.mem_singleton.1 mem
      exact ⟨matched, complete⟩
  unresolved := unresolved
  completed call_id := by
    rw [completed, Finset.mem_insert, h.completed, matched]
    simp [or_comm]
  ids id := by
    rw [ids, h.ids]
    simp
  callsOnce := by
    have once := h.callsOnce
    simpa using once
  idsOnce := by
    have once := h.idsOnce
    simpa using once

theorem Searches.withOther (h : Searches items turns opened pass) (unsearched : isSearchItem item = false)
    (unresolved : pass'.unresolved_call = pass.unresolved_call)
    (completed : pass'.completed_call_ids = pass.completed_call_ids) (ids : pass'.item_ids = pass.item_ids) :
    Searches (items ++ [item]) turns opened pass' where
  items := by
    rw [List.filter_append, h.items]
    simp [unsearched]
  resolved := h.resolved
  unresolved := by rw [unresolved, h.unresolved]
  completed call_id := by rw [completed, h.completed]
  ids id := by rw [ids, h.ids]
  callsOnce := h.callsOnce
  idsOnce := h.idsOnce

theorem prepareItem_searches (h : Searches items turns opened pass) (step : prepareItem readTool pass (item, position) = .ok pass') :
    ∃ turns' opened', Searches (items ++ [item]) turns' opened' pass' := by
  cases item with
  | toolSearchCall call =>
    obtain ⟨fresh, resolved, unused, rfl⟩ := prepareSearchCall_ok readTool step
    have closed : opened = none := by
      rw [h.unresolved, Option.map_eq_none_iff] at resolved
      exact resolved
    subst closed
    exact ⟨turns, some call, h.withCall fresh unused rfl rfl rfl⟩
  | toolSearchOutput output =>
    obtain ⟨unresolved, complete, -, definitions, -, rfl⟩ := prepareSearchOutput_ok step
    rw [h.unresolved, Option.map_eq_some_iff] at unresolved
    obtain ⟨call, rfl, matched⟩ := unresolved
    refine ⟨turns ++ [⟨call, output⟩], none, ?_⟩
    apply h.withOutput matched.symm complete <;> rfl
  | functionCall call =>
    obtain ⟨definitions, noted, step⟩ := bind_eq_ok.1 step
    cases step
    exact ⟨turns, opened, h.withOther rfl rfl rfl rfl⟩
  | _ =>
    cases step
    exact ⟨turns, opened, h.withOther rfl rfl rfl rfl⟩

theorem prepareItems_searches {later : List InputItem} (h : Searches items turns opened pass)
    (run : (later.zipIdx start).foldlM (prepareItem readTool) pass = .ok pass') :
    ∃ turns' opened', Searches (items ++ later) turns' opened' pass' := by
  induction later generalizing items turns opened pass start with
  | nil =>
    rw [List.zipIdx_nil, List.foldlM_nil, pure_eq_ok] at run
    subst run
    rw [List.append_nil]
    exact ⟨turns, opened, h⟩
  | cons item later ih =>
    rw [List.zipIdx_cons, List.foldlM_cons] at run
    obtain ⟨next, first, rest⟩ := bind_eq_ok.1 run
    obtain ⟨turns', opened', h'⟩ := prepareItem_searches h first
    have all := ih h' rest
    rwa [List.append_assoc, List.singleton_append] at all

end

/-- Nothing is open at the end of an accepted history. -/
theorem prepareHistory_searches {result : ResponsesInput} (h : prepareHistory readTool (.items items) acc = .ok (result, acc')) :
    ∃ turns : List SearchTurn, items.filter isSearchItem = turns.flatMap SearchTurn.items ∧ (∀ turn ∈ turns, turn.Resolved) ∧
      (turns.map (·.call.call_id)).Nodup ∧ (turns.map (·.call.id)).Nodup := by
  obtain ⟨pass, run, h⟩ := bind_eq_ok.1 h
  have nothing : Searches [] [] none ⟨acc, [], none, ∅, ∅⟩ := by
    constructor <;> simp
  obtain ⟨turns, opened, searches⟩ := prepareItems_searches nothing run
  split at h
  · cases h
  rename_i resolved
  have closed : opened = none := by
    rw [searches.unresolved] at resolved
    simpa using resolved
  subst closed
  refine ⟨turns, ?_, searches.resolved, ?_, ?_⟩
  · have items := searches.items
    simpa using items
  · have once := searches.callsOnce
    simpa using once
  · have once := searches.idsOnce
    simpa using once

end

end AgenticStack.Tools
