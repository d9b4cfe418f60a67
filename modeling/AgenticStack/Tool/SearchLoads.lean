import AgenticStack.Tool.SearchMembers

/-!
# Loading a definition

What one loaded definition does to the public tools, to the records, to the
withheld names and to the definitions that are saved as loaded.
-/

namespace AgenticStack.Tools
set_option autoImplicit false
open Library

/-- No identity is declared twice, and a namespace has functions with different names. -/
structure WellFormed (tools : List ResponsesTool) : Prop where
  once : (toolNames tools).Nodup
  checked : ∀ tool ∈ tools, ∀ identity, tool.identity = some identity → identity.check = .ok ()
  nonempty : ∀ param, .namespace param ∈ tools → param.tools ≠ []
  functions : ∀ param, .namespace param ∈ tools → .unknown ∉ param.tools
  members : ∀ param, .namespace param ∈ tools → (functionNames param.tools).Nodup

/-- The records are those of the public tools, with `loaded` loaded. -/
structure Tracks (loaded : List ResponsesTool) (acc : DefinitionAccumulator) : Prop where
  wellFormed : WellFormed acc.public_tools
  definitions : acc.definitions = recordsFrom loaded 0 acc.public_tools

/-- Whether the record of a function says that it is loaded. -/
def isSettled (loaded : List ResponsesTool) : FunctionId × FunctionToolParam → Bool
  | (.function name, _) => isLoaded loaded (.function name)
  | (.member «namespace» _, param) => memberAvailable loaded «namespace» param

/-- The definition agrees with what the tools say of it. -/
def Covered (tools : List ResponsesTool) (tool : ResponsesTool) : Prop :=
  ∃ known ∈ tools, known.identity = tool.identity ∧ known.canonicalDefinition = tool.canonicalDefinition ∧
    ∀ param, tool = .namespace param → param.tools ≠ [] ∧ .unknown ∉ param.tools ∧ ∃ declared, known = .namespace declared ∧
      ∀ p, .function p ∈ param.tools → ∃ q, .function q ∈ declared.tools ∧ q.name.text = p.name.text ∧
        canonicalNamespaceMember q = canonicalNamespaceMember p

/-- No call before names the function. -/
def Uncalled (acc : DefinitionAccumulator) (id : FunctionId) : Prop :=
  acc.calledUnqualified id.visibleName = false ∧
    ∀ «namespace» name, id = .member «namespace» name → («namespace», name) ∉ acc.prior_unknown_namespace_calls

/-- What one loaded definition has done. -/
structure Loaded (loaded : List ResponsesTool) (acc acc' : DefinitionAccumulator) (tool : ResponsesTool) : Prop where
  tracks : Tracks (loaded ++ [tool]) acc'
  prior : acc'.prior_unknown_namespace_calls = acc.prior_unknown_namespace_calls
  unqualified : acc'.unqualified_call_positions = acc.unqualified_call_positions
  others : acc'.public_tools.filter (·.identity.isNone) = acc.public_tools.filter (·.identity.isNone)
  kept : ∀ entry ∈ functionsOf acc.public_tools, entry ∈ functionsOf acc'.public_tools
  new : ∀ entry ∈ functionsOf acc'.public_tools, entry ∈ functionsOf acc.public_tools ∨
    entry ∈ tool.functions ∧ (∀ q, (entry.1, q) ∉ functionsOf acc.public_tools) ∧ Uncalled acc entry.1
  covered : Covered acc'.public_tools tool
  stillCovered : ∀ other, Covered acc.public_tools other → Covered acc'.public_tools other
  withheld : ∀ x, x ∈ acc'.withheld_function_names ↔ x ∈ acc.withheld_function_names ∧
    ¬∃ entry ∈ functionsOf acc.public_tools, isSettled loaded entry = false ∧ isSettled (loaded ++ [tool]) entry = true ∧
      entry.1.visibleName = x
  saved : ∃ newly, acc'.loaded_public_tools = acc.loaded_public_tools ++ newly ∧
    (∀ t ∈ newly, Covered acc'.public_tools t ∧ ∀ id, t.defines id = true → tool.defines id = true) ∧
    ∀ entry ∈ functionsOf acc'.public_tools, isSettled loaded entry = false → isSettled (loaded ++ [tool]) entry = true →
      isLoaded newly entry.1 = true

section
variable {tools : List ResponsesTool} {a b : ResponsesTool} {x y : LoadedToolIdentity} {j k : Nat}

theorem mem_toolNames {name : Text} : name ∈ toolNames tools ↔
    ∃ tool ∈ tools, ∃ identity, tool.identity = some identity ∧ identity.name = name := by
  simp [toolNames]

theorem position_unique (once : (toolNames tools).Nodup) (here : tools[j]? = some a) (there : tools[k]? = some b)
    (first : a.identity = some x) (second : b.identity = some y) (same : x.name = y.name) : j = k := by
  induction tools generalizing j k with
  | nil => cases here
  | cons tool tools ih =>
    have rest : (toolNames tools).Nodup := by
      rw [toolNames, List.filterMap_cons] at once
      cases head : tool.identity with
      | none =>
        rw [head] at once
        exact once
      | some identity =>
        rw [head] at once
        exact (List.nodup_cons.1 once).2
    have fresh {i : Nat} {t : ResponsesTool} {z w : LoadedToolIdentity} (head : tool.identity = some z) (tail : tools[i]? = some t)
        (named : t.identity = some w) : z.name ≠ w.name := by
      intro equal
      rw [toolNames, List.filterMap_cons, head] at once
      exact (List.nodup_cons.1 once).1 (mem_toolNames.2 ⟨t, List.mem_of_getElem? tail, w, named, equal.symm⟩)
    cases j with
    | zero =>
      cases k with
      | zero => rfl
      | succ k =>
        have head : tool = a := by simpa using here
        exact absurd same (fresh (head ▸ first) (by simpa using there) second)
    | succ j =>
      cases k with
      | zero =>
        have head : tool = b := by simpa using there
        exact absurd same.symm (fresh (head ▸ second) (by simpa using here) first)
      | succ k => exact congrArg (· + 1) (ih rest (by simpa using here) (by simpa using there))

theorem tool_unique (once : (toolNames tools).Nodup) (here : a ∈ tools) (there : b ∈ tools)
    (first : a.identity = some x) (second : b.identity = some y) (same : x.name = y.name) : a = b := by
  obtain ⟨j, here⟩ := List.getElem?_of_mem here
  obtain ⟨k, there⟩ := List.getElem?_of_mem there
  obtain rfl : j = k := position_unique once here there first second same
  exact Option.some.inj (here.symm.trans there)

end

section
variable {loaded : List ResponsesTool} {acc acc' : DefinitionAccumulator} {tool known : ResponsesTool} {name : Text}

theorem Tracks.names (tracks : Tracks loaded acc) :
    acc.definitions.map (fun record => record.identity.name) = toolNames acc.public_tools := by
  rw [tracks.definitions]
  exact recordsFrom_names

theorem Tracks.record_at (tracks : Tracks loaded acc) {index : Fin acc.definitions.length}
    (found : definitionIndex acc.definitions name = some index) :
    ∃ known, acc.public_tools[(acc.definitions.get index).public_index]? = some known ∧
      recordOf loaded (acc.definitions.get index).public_index known = some (acc.definitions.get index) ∧
      (acc.definitions.get index).identity.name = name := by
  have named : (acc.definitions.get index).identity.name = name := key_of_keyIndex found
  have mem : acc.definitions.get index ∈ recordsFrom loaded 0 acc.public_tools := by
    have here : acc.definitions.get index ∈ acc.definitions := List.getElem_mem _
    exact tracks.definitions ▸ here
  obtain ⟨j, known, there, record⟩ := mem_recordsFrom.1 mem
  rw [Nat.zero_add] at record
  rw [(recordOf_eq_some record).2.2]
  exact ⟨known, there, record, named⟩

theorem Tracks.index_none (tracks : Tracks loaded acc) :
    definitionIndex acc.definitions name = none ↔ name ∉ toolNames acc.public_tools := by
  rw [definitionIndex, keyIndex_eq_none, tracks.names]

/-- One record changes, and with it the tool it stands for. -/
theorem Tracks.set_definition (tracks : Tracks loaded acc) {index : Fin acc.definitions.length}
    {record' : DefinitionRecord} {tool' : ResponsesTool}
    (here : acc.public_tools[(acc.definitions.get index).public_index]? = some known)
    (found : recordOf loaded (acc.definitions.get index).public_index known = some (acc.definitions.get index))
    (same : tool.identity = known.identity)
    (found' : recordOf (loaded ++ [tool]) (acc.definitions.get index).public_index tool' = some record') :
    acc.definitions.set index record' =
      recordsFrom (loaded ++ [tool]) 0 (acc.public_tools.set (acc.definitions.get index).public_index tool') := by
  have once : (acc.definitions.map fun record => record.identity.name).Nodup := by
    rw [tracks.names]
    exact tracks.wellFormed.once
  have changed : recordsFrom (loaded ++ [tool]) 0 (acc.public_tools.set (acc.definitions.get index).public_index tool') =
      (recordsFrom loaded 0 acc.public_tools).map fun b =>
        if b.identity.name = (acc.definitions.get index).identity.name then record' else b := by
    refine recordsFrom_set tracks.wellFormed.once here (by rwa [Nat.zero_add]) (by rwa [Nat.zero_add])
      fun k other there apart => recordOf_congr fun id p defined => ?_
    have undefined : tool.defines id = false := by
      by_contra defines
      have mine := identity_of_defines (Bool.not_eq_false _ ▸ defines)
      rw [same] at mine
      exact apart (position_unique tracks.wellFormed.once there here
        (identity_of_defines (defines_iff.2 ⟨p, defined⟩)) mine rfl)
    rw [isLoaded_concat, undefined, Bool.or_false]
  rw [changed, ← tracks.definitions, set_eq_map once index]

end

section
variable {loaded tools : List ResponsesTool} {acc acc' : DefinitionAccumulator} {tool known : ResponsesTool}
  {entry : FunctionId × FunctionToolParam}

theorem mem_functionsOf : entry ∈ functionsOf tools ↔ ∃ tool ∈ tools, entry ∈ tool.functions := List.mem_flatMap

/-- The name of a member is that of its parameters. -/
theorem settled_concat (here : entry ∈ functionsOf tools) :
    isSettled (loaded ++ [tool]) entry = true ↔ isSettled loaded entry = true ∨ tool.defines entry.1 = true := by
  obtain ⟨home, _, defined⟩ := mem_functionsOf.1 here
  obtain ⟨id, param⟩ := entry
  cases id with
  | function name => rw [isSettled, isLoaded_concat, Bool.or_eq_true]; rfl
  | member «namespace» name =>
    have named : name = param.name.text := by
      cases home with
      | «namespace» declared =>
        have same := (mem_namespace_functions.1 defined).2
        cases same
        rfl
      | function declared => cases (mem_function_functions.1 defined).2
      | _ => cases defined
    subst named
    show memberAvailable _ «namespace» param = true ↔ memberAvailable _ «namespace» param = true ∨ _
    rw [memberAvailable_iff, memberAvailable_iff, isLoaded_concat, Bool.or_eq_true, or_right_comm]

theorem Covered.of_mem (here : tool ∈ tools) (wellFormed : WellFormed tools) : Covered tools tool := by
  refine ⟨tool, here, rfl, rfl, ?_⟩
  rintro param rfl
  exact ⟨wellFormed.nonempty _ here, wellFormed.functions _ here, param, rfl, fun p there => ⟨p, there, rfl, rfl⟩⟩

theorem function_of_identity {name : Text} (h : known.identity = some (.function name)) :
    ∃ param, known = .function param ∧ param.name.text = name := by
  cases known with
  | function param => exact ⟨param, rfl, by cases h; rfl⟩
  | _ => cases h

theorem namespace_of_identity {name : Text} (h : known.identity = some (.namespace name)) :
    ∃ param, known = .namespace param ∧ param.name = name := by
  cases known with
  | «namespace» param => exact ⟨param, rfl, by cases h; rfl⟩
  | _ => cases h

/-- Nothing changed, as everything the definition has was loaded before. -/
theorem Loaded.unchanged (tracks : Tracks loaded acc) (covered : Covered acc.public_tools tool)
    (settled : ∀ id, tool.defines id = true → isLoaded loaded id = true) : Loaded loaded acc acc tool := by
  have same (id : FunctionId) : isLoaded (loaded ++ [tool]) id = isLoaded loaded id := by
    rw [isLoaded_concat, Bool.eq_iff_iff, Bool.or_eq_true]
    exact ⟨fun h => h.elim (fun h => h) (settled id), .inl⟩
  have settled_same (entry : FunctionId × FunctionToolParam) (before : isSettled loaded entry = false) :
      isSettled (loaded ++ [tool]) entry = false := by
    obtain ⟨id, param⟩ := entry
    cases id with
    | function name =>
      rw [isSettled] at before ⊢
      rw [same, before]
    | member «namespace» name =>
      rw [isSettled] at before ⊢
      rw [memberAvailable_congr same, before]
  refine ⟨⟨tracks.wellFormed, ?_⟩, rfl, rfl, rfl, fun _ here => here, fun _ here => .inl here, covered, fun _ h => h, ?_,
    ⟨[], (List.append_nil _).symm, fun _ h => (nomatch h), ?_⟩⟩
  · rw [tracks.definitions]
    exact (recordsFrom_congr fun k other _ => recordOf_congr fun id _ _ => same id).symm
  · refine fun x => ⟨fun here => ⟨here, ?_⟩, And.left⟩
    rintro ⟨entry, _, before, after, _⟩
    rw [settled_same entry before] at after
    cases after
  · intro entry _ before after
    rw [settled_same entry before] at after
    cases after

/-- A function that was declared. -/
theorem loaded_function {param : FunctionToolParam} (tracks : Tracks loaded acc) {index : Fin acc.definitions.length}
    (found : definitionIndex acc.definitions param.name.text = some index)
    (identity : (acc.definitions.get index).identity = .function param.name.text)
    (canonical : (acc.definitions.get index).canonical = (ResponsesTool.function param).canonicalDefinition)
    (h : loadFunction acc index = .ok acc') : Loaded loaded acc acc' (.function param) := by
  obtain ⟨known, here, record, _⟩ := tracks.record_at found
  obtain ⟨known_identity, known_canonical, _⟩ := recordOf_eq_some record
  obtain ⟨declared, rfl, named⟩ := function_of_identity (known_identity.trans (congrArg some identity))
  have member := List.mem_of_getElem? here
  have loaded_eq : (acc.definitions.get index).loaded = isLoaded loaded (.function param.name.text) := by
    rw [recordOf, Option.some.injEq] at record
    rw [← record, named]
  have defines_iff_name (id : FunctionId) : (ResponsesTool.function param).defines id = true ↔ id = .function param.name.text := by
    rw [defines_iff]
    simp only [mem_function_functions]
    grind
  have covered : Covered acc.public_tools (.function param) := by
    refine ⟨_, member, ?_, by rw [← canonical, known_canonical], fun _ same => (by cases same)⟩
    rw [ResponsesTool.identity, ResponsesTool.identity, named]
  rw [loadFunction] at h
  by_cases already : (acc.definitions.get index).loaded = true
  · rw [if_pos already, Except.ok.injEq] at h
    subst h
    refine .unchanged tracks covered fun id defined => ?_
    rw [(defines_iff_name id).1 defined, ← loaded_eq, already]
  · rw [if_neg already] at h
    split at h
    · cases h
    · rw [Except.ok.injEq] at h
      subst h
      have unloaded : isLoaded loaded (.function param.name.text) = false := by
        rw [← loaded_eq]
        exact Bool.not_eq_true _ ▸ already
      have declared_entry : (FunctionId.function param.name.text, declared) ∈ functionsOf acc.public_tools :=
        mem_functionsOf.2 ⟨_, member, mem_function_functions.2 ⟨rfl, by rw [named]⟩⟩
      refine ⟨⟨tracks.wellFormed, ?_⟩, rfl, rfl, rfl, fun _ here => here, fun _ here => .inl here, covered, fun _ h => h, ?_,
        ⟨[.function declared], ?_, ?_, ?_⟩⟩
      · have kept : acc.public_tools.set (acc.definitions.get index).public_index (.function declared) = acc.public_tools := by
          obtain ⟨within, same⟩ := List.getElem?_eq_some_iff.1 here
          rw [← same]
          exact List.set_getElem_self within
        have next : recordOf (loaded ++ [.function param]) (acc.definitions.get index).public_index (.function declared) =
            some { acc.definitions.get index with loaded := true } := by
          have now : isLoaded (loaded ++ [.function param]) (.function declared.name.text) = true := by
            rw [isLoaded_concat, Bool.or_eq_true]
            exact .inr ((defines_iff_name _).2 (by rw [named]))
          rw [recordOf, Option.some.injEq] at record ⊢
          rw [now, ← record]
        have same : (ResponsesTool.function param).identity = (ResponsesTool.function declared).identity := by
          rw [ResponsesTool.identity, ResponsesTool.identity, named]
        have set := tracks.set_definition here record same next
        rwa [kept] at set
      · intro x
        dsimp only
        rw [Finset.mem_erase, identity, and_comm]
        refine and_congr_right fun _ => ?_
        constructor
        · rintro apart ⟨entry, there, before, after, rfl⟩
          have defined := ((settled_concat there).1 after).resolve_left (by rw [before]; exact Bool.false_ne_true)
          exact apart (by rw [(defines_iff_name _).1 defined]; rfl)
        · rintro kept rfl
          refine kept ⟨_, declared_entry, unloaded, ?_, rfl⟩
          exact (settled_concat declared_entry).2 (.inr ((defines_iff_name _).2 rfl))
      · dsimp only
        rw [here]
        rfl
      · intro t there
        cases List.mem_singleton.1 there
        refine ⟨.of_mem member tracks.wellFormed, fun id defined => (defines_iff_name id).2 ?_⟩
        obtain ⟨_, defined⟩ := defines_iff.1 defined
        rw [(mem_function_functions.1 defined).2, named]
      · intro entry there before after
        have defined := ((settled_concat there).1 after).resolve_left (by rw [before]; exact Bool.false_ne_true)
        have defines : (ResponsesTool.function declared).defines entry.1 = true := by
          rw [(defines_iff_name _).1 defined]
          exact defines_iff.2 ⟨declared, mem_function_functions.2 ⟨rfl, by rw [named]⟩⟩
        rw [isLoaded, List.any_cons, defines]
        rfl

theorem uncalled_of_ensure {«namespace» : Text} {members : List CodexNamespaceMember} {param : FunctionToolParam}
    (h : ensureNamespaceMembersDoNotResolvePriorCalls «namespace» acc members = .ok ()) (here : .function param ∈ members) :
    Uncalled acc (.member «namespace» param.name.text) := by
  rw [ensureNamespaceMembersDoNotResolvePriorCalls, forM_eq_ok] at h
  have passed := h _ here
  dsimp only at passed
  split at passed
  · cases passed
  · rename_i free
    rw [not_or] at free
    refine ⟨Bool.not_eq_true _ ▸ free.2, ?_⟩
    rintro _ _ ⟨⟩
    exact free.1

section
variable {j : Nat} {declared extended : CodexNamespaceToolParam}

theorem mem_set_elsewhere {k : Nat} {t : ResponsesTool} (there : tools[k]? = some t) (apart : k ≠ j) : t ∈ tools.set j tool := by
  have moved : (tools.set j tool)[k]? = some t := by rw [List.getElem?_set_ne (Ne.symm apart), there]
  exact List.mem_of_getElem? moved

theorem mem_set_here (here : tools[j]? = some known) : tool ∈ tools.set j tool := by
  obtain ⟨within, _⟩ := List.getElem?_eq_some_iff.1 here
  exact List.mem_set within tool

theorem WellFormed.set_namespace (wellFormed : WellFormed tools) (here : tools[j]? = some (.namespace declared))
    (named : extended.name = declared.name) (nonempty : extended.tools ≠ []) (functions : .unknown ∉ extended.tools)
    (members : (functionNames extended.tools).Nodup) : WellFormed (tools.set j (.namespace extended)) := by
  have identity : (ResponsesTool.namespace extended).identity = (ResponsesTool.namespace declared).identity := by
    rw [ResponsesTool.identity, ResponsesTool.identity, named]
  have member := List.mem_of_getElem? here
  refine ⟨?_, ?_, ?_, ?_, ?_⟩
  · rw [toolNames, filterMap_set here (by rw [identity])]
    exact wellFormed.once
  · intro t there x found
    rcases List.mem_or_eq_of_mem_set there with there | rfl
    · exact wellFormed.checked t there x found
    · exact wellFormed.checked _ member x (by rw [← identity]; exact found)
  · intro param there
    rcases List.mem_or_eq_of_mem_set there with there | same
    · exact wellFormed.nonempty param there
    · cases same
      exact nonempty
  · intro param there
    rcases List.mem_or_eq_of_mem_set there with there | same
    · exact wellFormed.functions param there
    · cases same
      exact functions
  · intro param there
    rcases List.mem_or_eq_of_mem_set there with there | same
    · exact wellFormed.members param there
    · cases same
      exact members

/-- A function of a namespace is one of the tool that has the namespace's name. -/
theorem functionsOf_namespace (once : (toolNames tools).Nodup) (here : .namespace declared ∈ tools) {name : Text}
    {param : FunctionToolParam} (there : (.member declared.name name, param) ∈ functionsOf tools) :
    .function param ∈ declared.tools ∧ name = param.name.text := by
  obtain ⟨home, mem, defined⟩ := mem_functionsOf.1 there
  have identity := identity_of_defines (defines_iff.2 ⟨param, defined⟩)
  have same : ResponsesTool.namespace declared = home := tool_unique once here mem rfl identity rfl
  subst same
  obtain ⟨member, named⟩ := mem_namespace_functions.1 defined
  cases named
  exact ⟨member, rfl⟩

theorem functionsOf_set_kept (here : tools[j]? = some (.namespace declared)) (named : extended.name = declared.name)
    (grown : ∀ member ∈ declared.tools, member ∈ extended.tools) (there : entry ∈ functionsOf tools) :
    entry ∈ functionsOf (tools.set j (.namespace extended)) := by
  obtain ⟨home, mem, defined⟩ := mem_functionsOf.1 there
  obtain ⟨k, position⟩ := List.getElem?_of_mem mem
  by_cases same : k = j
  · subst same
    rw [here, Option.some.injEq] at position
    subst position
    refine mem_functionsOf.2 ⟨_, mem_set_here here, ?_⟩
    obtain ⟨id, param⟩ := entry
    obtain ⟨member, identity⟩ := mem_namespace_functions.1 defined
    exact mem_namespace_functions.2 ⟨grown _ member, by rw [identity, named]⟩
  · exact mem_functionsOf.2 ⟨home, mem_set_elsewhere position same, defined⟩

theorem Covered.set_namespace (here : tools[j]? = some (.namespace declared)) (named : extended.name = declared.name)
    (canonical : (ResponsesTool.namespace extended).canonicalDefinition = (ResponsesTool.namespace declared).canonicalDefinition)
    (grown : ∀ member ∈ declared.tools, member ∈ extended.tools) {other : ResponsesTool} (covered : Covered tools other) :
    Covered (tools.set j (.namespace extended)) other := by
  obtain ⟨home, mem, identity, same, members⟩ := covered
  obtain ⟨k, position⟩ := List.getElem?_of_mem mem
  by_cases equal : k = j
  · subst equal
    rw [here, Option.some.injEq] at position
    subst position
    refine ⟨_, mem_set_here here, ?_, canonical.trans same, fun param there => ?_⟩
    · rw [← identity, ResponsesTool.identity, ResponsesTool.identity, named]
    · obtain ⟨nonempty, functions, found, home_eq, agrees⟩ := members param there
      cases home_eq
      refine ⟨nonempty, functions, extended, rfl, fun p mem => ?_⟩
      obtain ⟨q, there, agree⟩ := agrees p mem
      exact ⟨q, grown _ there, agree⟩
  · exact ⟨home, mem_set_elsewhere position equal, identity, same, members⟩

end

/-- The members of a namespace and the records they have. -/
theorem Tracks.members_track (tracks : Tracks loaded acc) {declared : CodexNamespaceToolParam}
    (here : .namespace declared ∈ acc.public_tools) : MembersTrack loaded declared.name declared.tools
      (.of (memberRecordsFrom loaded declared.name 0 declared.tools)) :=
  ⟨rfl, tracks.wellFormed.functions _ here, tracks.wellFormed.members _ here⟩

/-- A namespace that was declared. -/
theorem loaded_namespace {param : CodexNamespaceToolParam} (tracks : Tracks loaded acc) {index : Fin acc.definitions.length}
    (found : definitionIndex acc.definitions param.name = some index)
    (identity : (acc.definitions.get index).identity = .namespace param.name)
    (canonical : (acc.definitions.get index).canonical = (ResponsesTool.namespace param).canonicalDefinition)
    (h : loadNamespaceMembers param acc index = .ok acc') : Loaded loaded acc acc' (.namespace param) := by
  obtain ⟨known, here, record, _⟩ := tracks.record_at found
  obtain ⟨known_identity, known_canonical, _⟩ := recordOf_eq_some record
  obtain ⟨declared, rfl, named⟩ := namespace_of_identity (known_identity.trans (congrArg some identity))
  have member := List.mem_of_getElem? here
  have record_members : (acc.definitions.get index).namespace_members =
      some (.of (memberRecordsFrom loaded declared.name 0 declared.tools)) := by
    rw [recordOf, Option.some.injEq] at record
    rw [← record]
  rw [loadNamespaceMembers] at h
  dsimp only at h
  split at h
  · cases h
  rename_i nonempty
  rw [here, record_members] at h
  dsimp only at h
  rw [bind_eq_ok] at h
  obtain ⟨_, uncalled, h⟩ := h
  rw [bind_eq_ok] at h
  obtain ⟨loading, run, h⟩ := h
  rw [pure_eq_ok] at h
  have start : MembersTrack loaded param.name declared.tools (.of (memberRecordsFrom loaded declared.name 0 declared.tools)) := by
    have track := tracks.members_track member
    rwa [named] at track ⊢
  have result : MembersLoaded loaded (loaded ++ [.namespace param]) param.name
      ⟨declared.tools, .of (memberRecordsFrom loaded declared.name 0 declared.tools), acc.withheld_function_names, []⟩
      loading param.tools := members_loaded start run fun id => isLoaded_namespace
  have result_tracks := result.tracks
  obtain ⟨added, extended, added_new⟩ := result.extended
  obtain ⟨newly, appended, newly_sound, newly_complete⟩ := result.newly
  dsimp only at extended appended
  rw [List.nil_append] at appended
  have grown (m : CodexNamespaceMember) (there : m ∈ declared.tools) : m ∈ loading.public_members := by
    rw [extended]
    exact List.mem_append_left _ there
  have param_nonempty : param.tools ≠ [] := by simpa using nonempty
  have public_nonempty : loading.public_members ≠ [] := by
    intro empty
    have none : declared.tools = [] := by
      rw [empty] at extended
      exact (List.append_eq_nil_iff.1 extended.symm).1
    exact tracks.wellFormed.nonempty _ member none
  let public_namespace : CodexNamespaceToolParam := { declared with tools := loading.public_members }
  have same_canonical : (ResponsesTool.namespace public_namespace).canonicalDefinition =
      (ResponsesTool.namespace declared).canonicalDefinition := rfl
  have tool_canonical : (ResponsesTool.namespace declared).canonicalDefinition = (ResponsesTool.namespace param).canonicalDefinition := by
    rw [← canonical, known_canonical]
  have well_formed : WellFormed (acc.public_tools.set (acc.definitions.get index).public_index (.namespace public_namespace)) :=
    tracks.wellFormed.set_namespace here rfl public_nonempty result_tracks.functions result_tracks.once
  have definitions : acc.definitions.set index
      { acc.definitions.get index with loaded := loading.members.unloaded_count = 0, namespace_members := some loading.members } =
      recordsFrom (loaded ++ [.namespace param]) 0
        (acc.public_tools.set (acc.definitions.get index).public_index (.namespace public_namespace)) := by
    refine tracks.set_definition here record (by rw [ResponsesTool.identity, ResponsesTool.identity, named]) ?_
    have members : loading.members = .of (memberRecordsFrom (loaded ++ [.namespace param]) declared.name 0 loading.public_members) := by
      rw [named]
      exact result_tracks.members
    rw [recordOf, Option.some.injEq, ← members, DefinitionRecord.mk.injEq]
    exact ⟨by rw [identity, ← named], known_canonical.symm, rfl, rfl, rfl⟩
  have public_member : .namespace public_namespace ∈
      acc.public_tools.set (acc.definitions.get index).public_index (.namespace public_namespace) := mem_set_here here
  -- An entry that is settled by the load is a returned member of the namespace.
  have returned {tools : List ResponsesTool} {home : CodexNamespaceToolParam} (once : (toolNames tools).Nodup)
      (has : .namespace home ∈ tools) (same : home.name = declared.name) {entry : FunctionId × FunctionToolParam}
      (there : entry ∈ functionsOf tools) (before : isSettled loaded entry = false)
      (after : isSettled (loaded ++ [.namespace param]) entry = true) :
      .function entry.2 ∈ home.tools ∧ entry.1 = .member param.name entry.2.name.text := by
    have defined := ((settled_concat there).1 after).resolve_left (by rw [before]; exact Bool.false_ne_true)
    obtain ⟨_, defined⟩ := defines_iff.1 defined
    obtain ⟨_, is_member⟩ := mem_namespace_functions.1 defined
    obtain ⟨id, p⟩ := entry
    dsimp only at is_member
    subst is_member
    rw [← named, ← same] at there ⊢
    obtain ⟨mem, name⟩ := functionsOf_namespace once has there
    exact ⟨mem, by rw [name]⟩
  subst h
  refine ⟨⟨well_formed, definitions⟩, rfl, rfl, ?_, ?_, ?_, ?_, ?_, ?_, ⟨_, rfl, ?_, ?_⟩⟩
  · rw [← List.filterMap_eq_filter]
    exact filterMap_set here rfl
  · exact fun entry there => functionsOf_set_kept here rfl grown there
  · rintro ⟨id, p⟩ there
    obtain ⟨home, mem, defined⟩ := mem_functionsOf.1 there
    rcases List.mem_or_eq_of_mem_set mem with mem | rfl
    · exact .inl (mem_functionsOf.2 ⟨home, mem, defined⟩)
    · obtain ⟨mem, rfl⟩ := mem_namespace_functions.1 defined
      have mem : .function p ∈ declared.tools ++ added := by rw [← extended]; exact mem
      rcases List.mem_append.1 mem with mem | mem
      · exact .inl (mem_functionsOf.2 ⟨_, member, mem_namespace_functions.2 ⟨mem, rfl⟩⟩)
      · obtain ⟨in_returned, fresh⟩ := added_new _ mem
        have fresh := fresh p rfl
        refine .inr ⟨mem_namespace_functions.2 ⟨in_returned, ?_⟩, fun q there => ?_, ?_⟩
        · show FunctionId.member declared.name _ = _
          rw [named]
        · obtain ⟨known, name⟩ := functionsOf_namespace tracks.wellFormed.once member there
          exact fresh (mem_functionNames.2 ⟨q, known, name.symm⟩)
        · show Uncalled acc (.member declared.name _)
          rw [named]
          refine uncalled_of_ensure uncalled (List.mem_filter.2 ⟨in_returned, ?_⟩)
          rw [isNewMember, Option.isNone_iff_eq_none, memberIndex, keyIndex_eq_none]
          rw [NamespaceMemberRecords.of, memberRecordsFrom_names]
          exact fresh
  · refine ⟨_, public_member, ?_, same_canonical.trans tool_canonical, ?_⟩
    · show some (LoadedToolIdentity.namespace declared.name) = _
      rw [named]
      rfl
    · rintro other ⟨⟩
      exact ⟨param_nonempty, result.functions, public_namespace, rfl, fun p there => result.agrees p there⟩
  · intro other covered
    have same_name : public_namespace.name = declared.name := rfl
    exact covered.set_namespace here same_name same_canonical grown
  · intro x
    dsimp only
    rw [result.withheld]
    refine and_congr_right fun _ => not_congr ?_
    constructor
    · rintro ⟨p, there, before, after, rfl⟩
      refine ⟨(.member param.name p.name.text, p), mem_functionsOf.2 ⟨_, member, mem_namespace_functions.2 ⟨there, ?_⟩⟩,
        before, after, rfl⟩
      rw [named]
    · rintro ⟨⟨id, p⟩, there, before, after, rfl⟩
      obtain ⟨mem, is_member⟩ := returned tracks.wellFormed.once member rfl there before after
      dsimp only at is_member mem
      subst is_member
      exact ⟨p, mem, before, after, rfl⟩
  · rw [appended]
    intro t there
    split at there
    · cases there
    · rename_i some_new
      cases List.mem_singleton.1 there
      refine ⟨⟨_, public_member, rfl, rfl, ?_⟩, fun id defined => ?_⟩
      · rintro other ⟨⟩
        refine ⟨by simpa using some_new, fun unknown => result_tracks.functions (newly_sound _ unknown).1, public_namespace, rfl,
          fun p mem => ⟨p, (newly_sound _ mem).1, rfl, rfl⟩⟩
      · obtain ⟨p, defined⟩ := defines_iff.1 defined
        obtain ⟨mem, rfl⟩ := mem_namespace_functions.1 defined
        obtain ⟨q, there, name⟩ := mem_functionNames.1 ((newly_sound _ mem).2 p rfl)
        refine defines_iff.2 ⟨q, mem_namespace_functions.2 ⟨there, ?_⟩⟩
        show FunctionId.member declared.name _ = _
        rw [named, name]
  · rintro ⟨id, p⟩ there before after
    obtain ⟨mem, is_member⟩ := returned well_formed.once public_member rfl there before after
    dsimp only at is_member mem
    subst is_member
    have new_member : .function p ∈ newly := newly_complete p mem before after
    have some_new : newly.isEmpty = false := by simpa using List.ne_nil_of_mem new_member
    rw [appended, some_new]
    have defines : (ResponsesTool.namespace { declared with tools := newly }).defines (.member param.name p.name.text) = true :=
      defines_iff.2 ⟨p, mem_namespace_functions.2 ⟨new_member, by rw [← named]⟩⟩
    exact List.any_eq_true.2 ⟨_, List.mem_singleton.2 rfl, defines⟩

/-- The records of a namespace's members, when they are made. -/
theorem recordMembers_iff {«namespace» : Text} {dynamically_loaded : Bool} {members : List CodexNamespaceMember}
    {ordered : List NamespaceMemberRecord} {result : NamespaceMemberRecords}
    (starts : ∀ param, .function param ∈ members → isLoaded loaded (.member «namespace» param.name.text) = dynamically_loaded) :
    recordMembers «namespace» dynamically_loaded members (.of ordered) = .ok result ↔
      .unknown ∉ members ∧ (functionNames members).Nodup ∧
        (∀ name ∈ functionNames members, name ∉ ordered.map NamespaceMemberRecord.name) ∧
        result = .of (ordered ++ memberRecordsFrom loaded «namespace» ordered.length members) := by
  induction members generalizing ordered with
  | nil =>
    rw [recordMembers, Except.ok.injEq, memberRecordsFrom, List.append_nil]
    simp [functionNames, eq_comm]
  | cons member members ih =>
    cases member with
    | unknown =>
      rw [recordMembers]
      exact ⟨fun h => (by cases h), fun h => absurd List.mem_cons_self h.1⟩
    | function param =>
      have names : functionNames (.function param :: members) = param.name.text :: functionNames members := rfl
      have indexed : (memberIndex ordered param.name.text).isSome = true ↔
          param.name.text ∈ ordered.map NamespaceMemberRecord.name := keyIndex_isSome
      have available : (dynamically_loaded || decide (param.defer_loading ≠ some true)) =
          memberAvailable loaded «namespace» param := by
        rw [memberAvailable, starts param List.mem_cons_self]
      rw [recordMembers, names]
      by_cases known : (memberIndex ordered param.name.text).isSome = true
      · rw [if_pos (show (memberIndex (NamespaceMemberRecords.of ordered).ordered param.name.text).isSome = true from known)]
        exact ⟨fun h => (by cases h), fun h => absurd (indexed.1 known) (h.2.2.1 _ List.mem_cons_self)⟩
      · rw [if_neg (show ¬(memberIndex (NamespaceMemberRecords.of ordered).ordered param.name.text).isSome = true from known)]
        have pushed : (NamespaceMemberRecords.of ordered).push
            { name := param.name.text
              canonical := canonicalNamespaceMember param
              public_member_index := (NamespaceMemberRecords.of ordered).ordered.length
              loaded := dynamically_loaded || decide (param.defer_loading ≠ some true) } =
            .of (ordered ++ [⟨param.name.text, canonicalNamespaceMember param, ordered.length,
              memberAvailable loaded «namespace» param⟩]) := by
          rw [available, NamespaceMemberRecords.push, NamespaceMemberRecords.of, NamespaceMemberRecords.of]
          rw [NamespaceMemberRecords.mk.injEq, List.countP_append, List.countP_singleton, isUnloaded]
          refine ⟨rfl, ?_⟩
          cases memberAvailable loaded «namespace» param <;> rfl
        rw [pushed, ih fun p here => starts p (List.mem_cons_of_mem _ here)]
        rw [indexed] at known
        simp only [List.mem_cons, List.nodup_cons, memberRecordsFrom, List.map_append, List.map_cons, List.map_nil,
          List.mem_append, List.length_append, List.length_cons, List.length_nil, List.append_assoc, List.cons_append,
          List.nil_append, List.mem_nil_iff, or_false, not_or, reduceCtorEq, not_false_eq_true, true_and, Nat.zero_add]
        constructor
        · rintro ⟨functions, once, apart, same⟩
          refine ⟨functions, ⟨fun here => (apart _ here).2 rfl, once⟩, ?_, same⟩
          rintro name (rfl | here)
          · exact known
          · exact (apart name here).1
        · rintro ⟨functions, ⟨fresh, once⟩, apart, same⟩
          exact ⟨functions, once, fun name here => ⟨apart name (.inr here), fun same => fresh (same ▸ here)⟩, same⟩

/-- A namespace whose members can be recorded. -/
def HasMembers (tool : ResponsesTool) : Prop :=
  ∀ param, tool = .namespace param → param.tools ≠ [] ∧ .unknown ∉ param.tools ∧ (functionNames param.tools).Nodup

theorem definitionRecord_iff {identity : LoadedToolIdentity} {public_index : Nat} {dynamically_loaded : Bool}
    {record : DefinitionRecord} (known : tool.identity = some identity)
    (starts : ∀ entry ∈ tool.functions, isLoaded loaded entry.1 = dynamically_loaded) :
    definitionRecord tool identity public_index dynamically_loaded = .ok record ↔
      HasMembers tool ∧ recordOf loaded public_index tool = some record := by
  cases tool with
  | function param =>
    cases known
    have loaded_eq := starts _ (mem_function_functions.2 ⟨rfl, rfl⟩)
    rw [definitionRecord, recordOf, Except.ok.injEq, Option.some.injEq, loaded_eq]
    exact ⟨fun h => ⟨fun _ same => (by cases same), h⟩, And.right⟩
  | «namespace» param =>
    cases known
    have members_starts (p : FunctionToolParam) (here : .function p ∈ param.tools) :
        isLoaded loaded (.member param.name p.name.text) = dynamically_loaded :=
      starts _ (mem_namespace_functions.2 ⟨here, rfl⟩)
    have from_nil : (⟨[], 0⟩ : NamespaceMemberRecords) = .of [] := rfl
    rw [definitionRecord, recordOf, bind_eq_ok]
    constructor
    · rintro ⟨members, recorded, same⟩
      rw [namespaceMemberRecords] at recorded
      split at recorded
      · cases recorded
      rename_i nonempty
      rw [from_nil, recordMembers_iff members_starts] at recorded
      obtain ⟨functions, once, _, rfl⟩ := recorded
      rw [pure_eq_ok] at same
      subst same
      refine ⟨?_, rfl⟩
      rintro other ⟨⟩
      exact ⟨by simpa using nonempty, functions, once⟩
    · rintro ⟨recordable, same⟩
      obtain ⟨nonempty, functions, once⟩ := recordable param rfl
      refine ⟨.of (memberRecordsFrom loaded param.name 0 param.tools), ?_, ?_⟩
      · rw [namespaceMemberRecords, if_neg (by simpa using nonempty), from_nil, recordMembers_iff members_starts]
        exact ⟨functions, once, fun _ _ => List.not_mem_nil, rfl⟩
      · rw [Option.some.injEq] at same
        subst same
        rfl
  | _ => cases known

theorem uncalled_of_new (h : ensureNewDefinition acc tool = .ok ()) (here : entry ∈ tool.functions) : Uncalled acc entry.1 := by
  obtain ⟨id, p⟩ := entry
  cases tool with
  | function param =>
    obtain ⟨rfl, rfl⟩ := mem_function_functions.1 here
    rw [ensureNewDefinition] at h
    split at h
    · cases h
    · rename_i free
      exact ⟨Bool.not_eq_true _ ▸ free, fun _ _ same => nomatch same⟩
  | «namespace» param =>
    obtain ⟨mem, rfl⟩ := mem_namespace_functions.1 here
    exact uncalled_of_ensure h mem
  | _ => cases here

/-- A definition that was not declared. -/
theorem loaded_new {identity : LoadedToolIdentity} {record : DefinitionRecord} (tracks : Tracks loaded acc)
    (known : tool.identity = some identity) (checked : identity.check = .ok ())
    (fresh : identity.name ∉ toolNames acc.public_tools) (uncalled : ensureNewDefinition acc tool = .ok ())
    (recorded : definitionRecord tool identity acc.public_tools.length true = .ok record) :
    Loaded loaded acc
      { acc with
        public_tools := acc.public_tools ++ [tool]
        definitions := acc.definitions ++ [record]
        loaded_public_tools := acc.loaded_public_tools ++ [tool] } tool := by
  have made : HasMembers tool ∧ recordOf (loaded ++ [tool]) acc.public_tools.length tool = some record := by
    refine (definitionRecord_iff known fun entry here => ?_).1 recorded
    rw [isLoaded_concat, defines_iff.2 ⟨entry.2, here⟩, Bool.or_true]
  obtain ⟨recordable, recorded⟩ := made
  have unknown {id : FunctionId} (defined : tool.defines id = true) (q : FunctionToolParam) : (id, q) ∉ functionsOf acc.public_tools := by
    intro there
    obtain ⟨home, mem, has⟩ := mem_functionsOf.1 there
    have mine := identity_of_defines defined
    rw [known, Option.some.injEq] at mine
    exact fresh (mem_toolNames.2 ⟨home, mem, _, identity_of_defines (defines_iff.2 ⟨q, has⟩), by rw [mine]⟩)
  have old {other : ResponsesTool} (mem : other ∈ acc.public_tools) {id : FunctionId} {p : FunctionToolParam}
      (has : (id, p) ∈ other.functions) : isLoaded (loaded ++ [tool]) id = isLoaded loaded id := by
    rw [isLoaded_concat, Bool.eq_iff_iff, Bool.or_eq_true]
    exact ⟨fun h => h.resolve_right fun defined => unknown defined p (mem_functionsOf.2 ⟨other, mem, has⟩), .inl⟩
  have well_formed : WellFormed (acc.public_tools ++ [tool]) := by
    have cases_of {t : ResponsesTool} (mem : t ∈ acc.public_tools ++ [tool]) : t ∈ acc.public_tools ∨ t = tool := by
      simpa using mem
    refine ⟨?_, ?_, ?_, ?_, ?_⟩
    · rw [toolNames, List.filterMap_append]
      refine List.Nodup.append tracks.wellFormed.once ?_ ?_
      · rw [List.filterMap_cons, known]
        exact List.nodup_singleton _
      · intro name here there
        rw [List.filterMap_cons, known] at there
        cases List.mem_singleton.1 there
        exact fresh here
    · intro t mem x found
      rcases cases_of mem with mem | rfl
      · exact tracks.wellFormed.checked t mem x found
      · rw [known, Option.some.injEq] at found
        exact found ▸ checked
    · intro param mem
      rcases cases_of mem with mem | same
      · exact tracks.wellFormed.nonempty param mem
      · exact (recordable param same.symm).1
    · intro param mem
      rcases cases_of mem with mem | same
      · exact tracks.wellFormed.functions param mem
      · exact (recordable param same.symm).2.1
    · intro param mem
      rcases cases_of mem with mem | same
      · exact tracks.wellFormed.members param mem
      · exact (recordable param same.symm).2.2
  have functions : functionsOf (acc.public_tools ++ [tool]) = functionsOf acc.public_tools ++ tool.functions := by
    rw [functionsOf, List.flatMap_append, List.flatMap_singleton]
    rfl
  refine ⟨⟨well_formed, ?_⟩, rfl, rfl, ?_, ?_, ?_, ?_, ?_, ?_, ⟨[tool], rfl, ?_, ?_⟩⟩
  · dsimp only
    rw [recordsFrom_append, Nat.zero_add, recordsFrom, recordsFrom, recorded, tracks.definitions]
    congr 1
    refine (recordsFrom_congr fun k other there => recordOf_congr fun id p has => ?_).symm
    exact old (List.mem_of_getElem? there) has
  · rw [List.filter_append, List.filter_cons_of_neg (by rw [known]; exact Bool.false_ne_true), List.filter_nil, List.append_nil]
  · intro entry there
    rw [functions]
    exact List.mem_append_left _ there
  · intro entry there
    rw [functions] at there
    rcases List.mem_append.1 there with there | there
    · exact .inl there
    · have defined : tool.defines entry.1 = true := defines_iff.2 ⟨entry.2, there⟩
      exact .inr ⟨there, unknown defined, uncalled_of_new uncalled there⟩
  · exact .of_mem (List.mem_append_right _ (List.mem_singleton.2 rfl)) well_formed
  · rintro other ⟨home, mem, covered⟩
    exact ⟨home, List.mem_append_left _ mem, covered⟩
  · refine fun x => ⟨fun here => ⟨here, ?_⟩, And.left⟩
    rintro ⟨entry, there, before, after, _⟩
    have defined := ((settled_concat there).1 after).resolve_left (by rw [before]; exact Bool.false_ne_true)
    exact unknown defined entry.2 there
  · intro t mem
    cases List.mem_singleton.1 mem
    exact ⟨.of_mem (List.mem_append_right _ (List.mem_singleton.2 rfl)) well_formed, fun _ defined => defined⟩
  · intro entry there before after
    have defined := ((settled_concat there).1 after).resolve_left (by rw [before]; exact Bool.false_ne_true)
    exact List.any_eq_true.2 ⟨tool, List.mem_singleton.2 rfl, defined⟩

theorem loadedToolIdentity_eq_ok {identity : Option LoadedToolIdentity} : loadedToolIdentity tool = .ok identity ↔
    tool.identity = identity ∧ ∀ x, identity = some x → x.check = .ok () := by
  rw [loadedToolIdentity]
  cases found : tool.identity with
  | none =>
    dsimp only
    rw [Except.ok.injEq]
    constructor
    · rintro rfl
      exact ⟨rfl, fun _ h => nomatch h⟩
    · exact fun h => h.1
  | some x =>
    dsimp only
    rw [bind_eq_ok]
    constructor
    · rintro ⟨_, checked, same⟩
      rw [pure_eq_ok] at same
      subst same
      exact ⟨rfl, fun _ h => Option.some.inj h ▸ checked⟩
    · rintro ⟨rfl, checked⟩
      exact ⟨(), checked x rfl, rfl⟩

/-- What loading a definition does. -/
theorem loadDefinition_loaded (tracks : Tracks loaded acc) (h : loadDefinition acc tool = .ok acc') :
    Loaded loaded acc acc' tool := by
  rw [loadDefinition, bind_eq_ok] at h
  obtain ⟨identity, found, h⟩ := h
  obtain ⟨known, checked⟩ := loadedToolIdentity_eq_ok.1 found
  cases identity with
  | none => cases h
  | some identity =>
    dsimp only at h
    cases position : definitionIndex acc.definitions identity.name with
    | some index =>
      rw [position] at h
      dsimp only at h
      split at h
      · cases h
      rename_i agrees
      rw [not_or, not_not, not_not] at agrees
      cases tool with
      | function param =>
        cases known
        exact loaded_function tracks position agrees.1 agrees.2 h
      | «namespace» param =>
        cases known
        exact loaded_namespace tracks position agrees.1 agrees.2 h
      | _ => cases known
    | none =>
      rw [position] at h
      dsimp only at h
      rw [bind_eq_ok] at h
      obtain ⟨_, uncalled, h⟩ := h
      rw [bind_eq_ok] at h
      obtain ⟨record, recorded, h⟩ := h
      rw [pure_eq_ok] at h
      subst h
      exact loaded_new tracks known (checked _ rfl) (tracks.index_none.1 position) uncalled recorded

end

end AgenticStack.Tools
