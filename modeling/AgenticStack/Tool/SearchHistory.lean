import AgenticStack.Tool.SearchStart

/-!
# Replaying the searches of a history

The pass over a history loads what the outputs of its searches return. What is
loaded after a part of the history is what was returned in it; what is withheld
is what was deferred and has not been returned; and a call names nothing that is
still withheld, nor anything that only comes later.
-/

namespace AgenticStack.Tools
set_option autoImplicit false
open Library

/-- The definitions that an item returns. -/
def returnedTools (readTool : Json → ResponsesTool) : InputItem → List ResponsesTool
  | .toolSearchOutput output => output.tools.map readTool
  | _ => []

def loadedBy (readTool : Json → ResponsesTool) (items : List InputItem) : List ResponsesTool :=
  items.flatMap (returnedTools readTool)

/-- A call names a function by its namespace and its name there, or by the name the model knows it under. -/
def namesFunction (call : InputFunctionToolCall) (id : FunctionId) : Prop :=
  match call.namespace with
  | some «namespace» => id = .member «namespace» call.name
  | none => id.visibleName = call.name

/-- The function can be called when `loaded` has been loaded. -/
def isAvailable (loaded : List ResponsesTool) (entry : FunctionId × FunctionToolParam) : Bool :=
  !isDeferred entry.2 || isLoaded loaded entry.1

section
variable {loaded more later tools : List ResponsesTool} {acc acc₁ acc' : DefinitionAccumulator} {tool : ResponsesTool}
  {entry : FunctionId × FunctionToolParam}

theorem member_named {«namespace» name : Text} {param : FunctionToolParam}
    (here : (.member «namespace» name, param) ∈ functionsOf tools) : name = param.name.text := by
  obtain ⟨home, _, defined⟩ := mem_functionsOf.1 here
  cases home with
  | «namespace» declared =>
    cases (mem_namespace_functions.1 defined).2
    rfl
  | function declared => cases (mem_function_functions.1 defined).2
  | _ => cases defined

theorem settled_of_deferred (here : entry ∈ functionsOf tools) (deferred : isDeferred entry.2 = true) :
    isSettled loaded entry = isLoaded loaded entry.1 := by
  obtain ⟨id, param⟩ := entry
  cases id with
  | function name => rfl
  | member «namespace» name =>
    have named := member_named here
    subst named
    rw [isDeferred, decide_eq_true_eq] at deferred
    rw [isSettled, memberAvailable, deferred]
    simp

theorem available_of_settled (here : entry ∈ functionsOf tools) (settled : isSettled loaded entry = true) :
    isAvailable loaded entry = true := by
  rw [isAvailable]
  cases deferred : isDeferred entry.2 with
  | false => rfl
  | true =>
    rw [settled_of_deferred here deferred] at settled
    rw [settled]
    rfl

theorem isAvailable_iff : isAvailable loaded entry = true ↔ isDeferred entry.2 = false ∨ isLoaded loaded entry.1 = true := by
  rw [isAvailable, Bool.or_eq_true, Bool.not_eq_true']

/-- What a definition defines is defined by the tools that say the same of it. -/
theorem Covered.defines {id : FunctionId} (covered : Covered tools tool) (defined : tool.defines id = true) :
    ∃ q, (id, q) ∈ functionsOf tools := by
  obtain ⟨known, mem, identity, _, members⟩ := covered
  obtain ⟨p, here⟩ := defines_iff.1 defined
  cases tool with
  | function param =>
    obtain ⟨rfl, rfl⟩ := mem_function_functions.1 here
    obtain ⟨declared, rfl, named⟩ := function_of_identity identity
    exact ⟨declared, mem_functionsOf.2 ⟨_, mem, mem_function_functions.2 ⟨rfl, by rw [named]⟩⟩⟩
  | «namespace» param =>
    obtain ⟨there, rfl⟩ := mem_namespace_functions.1 here
    obtain ⟨_, _, declared, rfl, agrees⟩ := members param rfl
    obtain ⟨q, member, named, _⟩ := agrees p there
    have same : declared.name = param.name := by
      rw [ResponsesTool.identity, ResponsesTool.identity, Option.some.injEq] at identity
      exact LoadedToolIdentity.namespace.inj identity
    exact ⟨q, mem_functionsOf.2 ⟨_, mem, mem_namespace_functions.2 ⟨member, by rw [same, named]⟩⟩⟩
  | _ => cases here

/-- A definition that the tools have, and that can be loaded. -/
def Known (tools : List ResponsesTool) (tool : ResponsesTool) : Prop := Covered tools tool ∧ tool.identity.isSome = true

/-- What loading the definitions `more` has come to, where `loaded` was loaded before. -/
structure Loads (loaded more : List ResponsesTool) (acc acc' : DefinitionAccumulator) : Prop where
  tracks : Tracks (loaded ++ more) acc'
  uncalled : ∀ id, Uncalled acc' id → Uncalled acc id
  others : acc'.public_tools.filter (·.identity.isNone) = acc.public_tools.filter (·.identity.isNone)
  kept : ∀ entry ∈ functionsOf acc.public_tools, entry ∈ functionsOf acc'.public_tools
  new : ∀ entry ∈ functionsOf acc'.public_tools, entry ∈ functionsOf acc.public_tools ∨
    isLoaded more entry.1 = true ∧ (∀ q, (entry.1, q) ∉ functionsOf acc.public_tools) ∧ Uncalled acc entry.1
  known : ∀ tool ∈ more, Known acc'.public_tools tool
  stillCovered : ∀ other, Covered acc.public_tools other → Covered acc'.public_tools other
  withholds : Withholds loaded acc → Withholds (loaded ++ more) acc'
  saved : ∃ newly, acc'.loaded_public_tools = acc.loaded_public_tools ++ newly ∧
    (∀ t ∈ newly, Known acc'.public_tools t ∧ ∀ id, t.defines id = true → isLoaded more id = true) ∧
    ∀ entry ∈ functionsOf acc'.public_tools, isSettled loaded entry = false → isSettled (loaded ++ more) entry = true →
      isLoaded newly entry.1 = true

theorem settled_append (here : entry ∈ functionsOf tools) :
    isSettled (loaded ++ more) entry = true ↔ isSettled loaded entry = true ∨ isLoaded more entry.1 = true := by
  induction more generalizing loaded with
  | nil =>
    rw [List.append_nil, isLoaded, List.any_nil]
    simp
  | cons tool more ih =>
    have split : loaded ++ tool :: more = (loaded ++ [tool]) ++ more := by simp
    rw [split, ih, settled_concat here, isLoaded, isLoaded, List.any_cons, Bool.or_eq_true, or_assoc]

theorem Loaded.withholds (h : Loaded loaded acc acc' tool) (before : Withholds loaded acc) :
    Withholds (loaded ++ [tool]) acc' := by
  intro apart x
  have apart₀ : ToldApart acc.public_tools := fun entry here other there =>
    apart entry (h.kept entry here) other (h.kept other there)
  rw [h.withheld, before apart₀]
  constructor
  · rintro ⟨⟨entry, here, deferred, unloaded, rfl⟩, still⟩
    refine ⟨entry, h.kept _ here, deferred, ?_, rfl⟩
    by_contra now
    apply still
    refine ⟨entry, here, ?_, ?_, rfl⟩
    · rw [settled_of_deferred here deferred, unloaded]
    · rw [settled_of_deferred here deferred]
      exact Bool.not_eq_false _ ▸ now
  · rintro ⟨entry, here, deferred, unloaded, rfl⟩
    rw [isLoaded_concat, Bool.or_eq_false_iff] at unloaded
    have old : entry ∈ functionsOf acc.public_tools := by
      rcases h.new entry here with old | ⟨defined, -⟩
      · exact old
      · have defines := defines_iff.2 ⟨_, defined⟩
        rw [unloaded.2] at defines
        cases defines
    refine ⟨⟨entry, old, deferred, unloaded.1, rfl⟩, ?_⟩
    rintro ⟨other, there, unsettled, settled, same⟩
    have equal := apart₀ other there entry old same
    have defines := ((settled_concat there).1 settled).resolve_left (by rw [unsettled]; exact Bool.false_ne_true)
    rw [equal, unloaded.2] at defines
    cases defines

theorem loadDefinition_identity (h : loadDefinition acc tool = .ok acc') : tool.identity.isSome = true := by
  obtain ⟨identity, found, h⟩ := bind_eq_ok.1 h
  cases identity with
  | none => cases h
  | some identity =>
    rw [(loadedToolIdentity_eq_ok.1 found).1]
    rfl

/-- What is saved as loaded can be loaded. -/
theorem loadDefinition_saved (tracks : Tracks loaded acc) (h : loadDefinition acc tool = .ok acc') :
    ∃ newly, acc'.loaded_public_tools = acc.loaded_public_tools ++ newly ∧ ∀ t ∈ newly, t.identity.isSome = true := by
  have identified := loadDefinition_identity h
  obtain ⟨identity, found, h⟩ := bind_eq_ok.1 h
  cases identity with
  | none => cases h
  | some identity =>
    dsimp only at h
    cases position : definitionIndex acc.definitions identity.name with
    | none =>
      rw [position] at h
      dsimp only at h
      obtain ⟨_, _, h⟩ := bind_eq_ok.1 h
      obtain ⟨record, _, h⟩ := bind_eq_ok.1 h
      rw [pure_eq_ok] at h
      subst h
      refine ⟨[tool], rfl, fun t mem => ?_⟩
      cases List.mem_singleton.1 mem
      exact identified
    | some index =>
      rw [position] at h
      dsimp only at h
      split at h
      · cases h
      obtain ⟨home, here, record, -⟩ := tracks.record_at position
      have of_function {index : Fin acc.definitions.length} {home : ResponsesTool}
          (here : acc.public_tools[(acc.definitions.get index).public_index]? = some home) (identified : home.identity.isSome = true)
          (h : loadFunction acc index = .ok acc') :
          ∃ newly, acc'.loaded_public_tools = acc.loaded_public_tools ++ newly ∧ ∀ t ∈ newly, t.identity.isSome = true := by
        rw [loadFunction] at h
        split at h
        · cases h
          exact ⟨[], (List.append_nil _).symm, fun _ mem => absurd mem List.not_mem_nil⟩
        · split at h
          · cases h
          · cases h
            refine ⟨_, rfl, fun t mem => ?_⟩
            rw [here] at mem
            cases List.mem_singleton.1 mem
            exact identified
      have home_identified : home.identity.isSome = true := by
        rw [(recordOf_eq_some record).1]
        rfl
      cases tool with
      | «namespace» returned =>
        dsimp only at h
        rw [loadNamespaceMembers] at h
        dsimp only at h
        split at h
        · cases h
        split at h
        · obtain ⟨_, _, h⟩ := bind_eq_ok.1 h
          obtain ⟨loading, _, h⟩ := bind_eq_ok.1 h
          rw [pure_eq_ok] at h
          subst h
          refine ⟨_, rfl, fun t mem => ?_⟩
          split at mem
          · cases mem
          · cases List.mem_singleton.1 mem
            rfl
        · cases h
        · cases h
      | _ => exact of_function here home_identified h

theorem loadDefinition_loads (tracks : Tracks loaded acc) (ran : loadDefinition acc tool = .ok acc') :
    Loads loaded [tool] acc acc' := by
  have h := loadDefinition_loaded tracks ran
  refine ⟨h.tracks, ?_, h.others, h.kept, ?_, ?_, h.stillCovered, h.withholds, ?_⟩
  · rintro id ⟨free, apart⟩
    refine ⟨?_, ?_⟩
    · rw [← free, DefinitionAccumulator.calledUnqualified, DefinitionAccumulator.calledUnqualified, h.unqualified]
    · rw [← h.prior]
      exact apart
  · intro entry here
    rcases h.new entry here with old | ⟨defined, fresh, uncalled⟩
    · exact .inl old
    · refine .inr ⟨?_, fresh, uncalled⟩
      exact List.any_eq_true.2 ⟨tool, List.mem_singleton.2 rfl, defines_iff.2 ⟨_, defined⟩⟩
  · intro t mem
    cases List.mem_singleton.1 mem
    exact ⟨h.covered, loadDefinition_identity ran⟩
  · obtain ⟨newly, appended, sound, complete⟩ := h.saved
    obtain ⟨newly', appended', identified⟩ := loadDefinition_saved tracks ran
    rw [appended, List.append_cancel_left_eq] at appended'
    subst appended'
    refine ⟨newly, appended, fun t mem => ⟨⟨(sound t mem).1, identified t mem⟩, fun id defined => ?_⟩, complete⟩
    exact List.any_eq_true.2 ⟨tool, List.mem_singleton.2 rfl, (sound t mem).2 id defined⟩

/-- Nothing is loaded; a call may have been noted. -/
theorem Loads.noted (tracks : Tracks loaded acc) (public_tools : acc'.public_tools = acc.public_tools)
    (definitions : acc'.definitions = acc.definitions) (saved : acc'.loaded_public_tools = acc.loaded_public_tools)
    (withheld : acc'.withheld_function_names = acc.withheld_function_names)
    (uncalled : ∀ id, Uncalled acc' id → Uncalled acc id) : Loads loaded [] acc acc' where
  tracks := by
    rw [List.append_nil]
    exact ⟨public_tools ▸ tracks.wellFormed, by rw [definitions, public_tools, tracks.definitions]⟩
  uncalled := uncalled
  others := by rw [public_tools]
  kept entry here := public_tools ▸ here
  new entry here := .inl (public_tools ▸ here)
  known _ mem := nomatch mem
  stillCovered other covered := public_tools ▸ covered
  withholds before := by
    rw [List.append_nil, Withholds, withheld, public_tools]
    exact before
  saved := by
    refine ⟨[], by rw [saved, List.append_nil], fun _ mem => (nomatch mem), fun entry _ unsettled settled => ?_⟩
    rw [List.append_nil, unsettled] at settled
    cases settled

theorem Loads.refl (tracks : Tracks loaded acc) : Loads loaded [] acc acc :=
  .noted tracks rfl rfl rfl rfl fun _ uncalled => uncalled

theorem Loads.trans (first : Loads loaded more acc acc₁) (last : Loads (loaded ++ more) later acc₁ acc') :
    Loads loaded (more ++ later) acc acc' where
  tracks := List.append_assoc loaded more later ▸ last.tracks
  uncalled id uncalled := first.uncalled id (last.uncalled id uncalled)
  others := last.others.trans first.others
  kept entry here := last.kept entry (first.kept entry here)
  new entry here := by
    rcases last.new entry here with old | ⟨loads, fresh, uncalled⟩
    · rcases first.new entry old with old | ⟨loads, fresh, uncalled⟩
      · exact .inl old
      · exact .inr ⟨by rw [isLoaded_append, loads, Bool.true_or], fresh, uncalled⟩
    · refine .inr ⟨by rw [isLoaded_append, loads, Bool.or_true], ?_, first.uncalled _ uncalled⟩
      exact fun q there => fresh q (first.kept _ there)
  known tool mem := by
    rcases List.mem_append.1 mem with mem | mem
    · exact (first.known tool mem).imp_left (last.stillCovered tool)
    · exact last.known tool mem
  stillCovered other covered := last.stillCovered other (first.stillCovered other covered)
  withholds before := List.append_assoc loaded more later ▸ last.withholds (first.withholds before)
  saved := by
    obtain ⟨newly, appended, sound, complete⟩ := first.saved
    obtain ⟨newly', appended', sound', complete'⟩ := last.saved
    refine ⟨newly ++ newly', by rw [appended', appended, List.append_assoc], ?_, ?_⟩
    · intro t mem
      rcases List.mem_append.1 mem with mem | mem
      · refine ⟨(sound t mem).1.imp_left (last.stillCovered t), fun id defined => ?_⟩
        rw [isLoaded_append, (sound t mem).2 id defined, Bool.true_or]
      · refine ⟨(sound' t mem).1, fun id defined => ?_⟩
        rw [isLoaded_append, (sound' t mem).2 id defined, Bool.or_true]
    · intro entry here unsettled settled
      rw [isLoaded_append, Bool.or_eq_true]
      cases between : isSettled (loaded ++ more) entry with
      | false =>
        rw [← List.append_assoc] at settled
        exact .inr (complete' entry here between settled)
      | true =>
        left
        rcases last.new entry here with old | ⟨-, fresh, -⟩
        · exact complete entry old unsettled between
        · -- what was loaded by then has been there since
          have loads := ((settled_append here).1 between).resolve_left (by rw [unsettled]; exact Bool.false_ne_true)
          obtain ⟨tool, mem, defined⟩ := List.any_eq_true.1 loads
          obtain ⟨q, there⟩ := (first.known tool mem).1.defines defined
          exact absurd there (fresh q)

theorem loadDefinitions_loads (tracks : Tracks loaded acc) (h : more.foldlM loadDefinition acc = .ok acc') :
    Loads loaded more acc acc' := by
  induction more generalizing loaded acc with
  | nil =>
    rw [List.foldlM_nil, pure_eq_ok] at h
    subst h
    exact .refl tracks
  | cons tool more ih =>
    rw [List.foldlM_cons, bind_eq_ok] at h
    obtain ⟨next, first, rest⟩ := h
    have one := loadDefinition_loads tracks first
    exact one.trans (ih one.tracks rest)

end

section
variable {readTool : Json → ResponsesTool} {loaded : List ResponsesTool} {acc acc' final : DefinitionAccumulator}
  {pass pass' : HistoryPass} {item : InputItem} {items later : List InputItem} {position : Nat}
  {call : InputFunctionToolCall} {entry : FunctionId × FunctionToolParam}

theorem Tracks.unique (tracks : Tracks loaded acc) {id : FunctionId} {p q : FunctionToolParam}
    (here : (id, p) ∈ functionsOf acc.public_tools) (there : (id, q) ∈ functionsOf acc.public_tools) : p = q := by
  obtain ⟨home, mem, defined⟩ := mem_functionsOf.1 here
  obtain ⟨other, mem', defined'⟩ := mem_functionsOf.1 there
  have same : home = other := tool_unique tracks.wellFormed.once mem mem'
    (identity_of_defines (defines_iff.2 ⟨p, defined⟩)) (identity_of_defines (defines_iff.2 ⟨q, defined'⟩)) rfl
  subst same
  cases home with
  | function param => rw [(mem_function_functions.1 defined).1, (mem_function_functions.1 defined').1]
  | «namespace» param =>
    obtain ⟨member, rfl⟩ := mem_namespace_functions.1 defined
    obtain ⟨member', named⟩ := mem_namespace_functions.1 defined'
    have named : p.name.text = q.name.text := (FunctionId.member.inj named).2
    exact member_unique (tracks.wellFormed.members _ mem) member member' named
  | _ => cases defined

theorem calledMember_iff (tracks : Tracks loaded acc) {«namespace» name : Text} {record : NamespaceMemberRecord}
    (found : calledMember acc «namespace» name = some record) : ∃ param,
      (.member «namespace» name, param) ∈ functionsOf acc.public_tools ∧
        record.loaded = isSettled loaded (.member «namespace» name, param) := by
  rw [calledMember, Option.bind_eq_bind, Option.bind_eq_some_iff] at found
  obtain ⟨index, known, found⟩ := found
  obtain ⟨home, here, recorded, named⟩ := tracks.record_at known
  dsimp only at found
  split at found
  · cases found
  rename_i identity
  rw [not_not] at identity
  obtain ⟨declared, rfl, same⟩ := namespace_of_identity ((recordOf_eq_some recorded).1.trans (congrArg some identity))
  have member := List.mem_of_getElem? here
  have members : (acc.definitions.get index).namespace_members =
      some (.of (memberRecordsFrom loaded declared.name 0 declared.tools)) := by
    rw [recordOf, Option.some.injEq] at recorded
    rw [← recorded]
  rw [members, Option.bind_eq_bind, Option.bind_some, Option.bind_eq_bind, Option.bind_eq_some_iff] at found
  obtain ⟨member_index, known_member, found⟩ := found
  obtain ⟨param, position, named_member, -, available⟩ := (tracks.members_track member).record_at known_member
  have space : declared.name = «namespace» := same.trans named
  subst space named_member
  refine ⟨param, mem_functionsOf.2 ⟨_, member, mem_namespace_functions.2 ⟨List.mem_of_getElem? position, rfl⟩⟩, ?_⟩
  rw [← Option.some.inj found]
  exact available

theorem calledMember_none (tracks : Tracks loaded acc) {«namespace» name : Text}
    (none : calledMember acc «namespace» name = none) (param : FunctionToolParam) :
    (.member «namespace» name, param) ∉ functionsOf acc.public_tools := by
  intro here
  obtain ⟨home, mem, defined⟩ := mem_functionsOf.1 here
  cases home with
  | «namespace» declared =>
    obtain ⟨member, same⟩ := mem_namespace_functions.1 defined
    cases same
    have named : declared.name ∈ acc.definitions.map fun record => record.identity.name := by
      rw [tracks.names]
      exact mem_toolNames.2 ⟨_, mem, _, rfl, rfl⟩
    obtain ⟨index, found, _, _⟩ := keyIndex_of_mem named
    obtain ⟨known, position, recorded, same⟩ := tracks.record_at found
    have only : known = .namespace declared :=
      tool_unique tracks.wellFormed.once (List.mem_of_getElem? position) mem (recordOf_eq_some recorded).1 rfl same
    subst only
    rw [recordOf, Option.some.injEq] at recorded
    have member_named : param.name.text ∈ (NamespaceMemberRecords.of
        (memberRecordsFrom loaded declared.name 0 declared.tools)).ordered.map NamespaceMemberRecord.name := by
      rw [(tracks.members_track mem).names]
      exact mem_functionNames.2 ⟨param, member, rfl⟩
    obtain ⟨member_index, known_member, _, _⟩ := keyIndex_of_mem member_named
    have identity : (acc.definitions.get index).identity = .namespace declared.name := by rw [← recorded]
    have members : (acc.definitions.get index).namespace_members =
        some (.of (memberRecordsFrom loaded declared.name 0 declared.tools)) := by rw [← recorded]
    rw [calledMember, definitionIndex, found] at none
    simp only [Option.bind_eq_bind, Option.bind_some, identity, members, memberIndex, known_member, LoadedToolIdentity.name,
      ne_eq, not_true_eq_false, if_false, reduceCtorEq] at none
  | function declared => cases (mem_function_functions.1 defined).2
  | _ => cases defined

/-- A call is noted, unless it names a function that is there. -/
theorem call_loads (tracks : Tracks loaded acc) (h : ensureHistoryCallIsAvailable acc position call = .ok acc') :
    Loads loaded [] acc acc' := by
  rw [ensureHistoryCallIsAvailable] at h
  split at h
  · split at h
    · split at h
      · cases h
        exact .refl tracks
      · cases h
    · cases h
      refine .noted tracks rfl rfl rfl rfl fun id uncalled => ⟨uncalled.1, fun «namespace» name same there => ?_⟩
      exact uncalled.2 «namespace» name same (Finset.mem_insert_of_mem there)
  · split at h
    · cases h
    split at h
    · cases h
      exact .refl tracks
    · cases h
      refine .noted tracks rfl rfl rfl rfl fun id uncalled => ⟨?_, uncalled.2⟩
      have free := uncalled.1
      rw [DefinitionAccumulator.calledUnqualified, Option.isSome_eq_false_iff, Option.isNone_iff_eq_none] at free ⊢
      rw [List.lookup_append, Option.or_eq_none_iff] at free
      exact free.1

/-- **A call names only what is there**: whatever is loaded later, a function that the call names was there by then, and
could be called. -/
theorem call_available {more : List ResponsesTool} (tracks : Tracks loaded acc) (withholds : Withholds loaded acc)
    (h : ensureHistoryCallIsAvailable acc position call = .ok acc') (rest : Loads loaded more acc' final)
    (apart : ToldApart final.public_tools) (here : entry ∈ functionsOf final.public_tools) (named : namesFunction call entry.1) :
    entry ∈ functionsOf acc.public_tools ∧ isAvailable loaded entry = true := by
  have step := call_loads tracks h
  have whole : Loads loaded more acc final := by
    have rest' : Loads (loaded ++ []) more acc' final := (List.append_nil loaded).symm ▸ rest
    exact step.trans rest'
  have apart₀ : ToldApart acc.public_tools := fun entry here other there =>
    apart entry (whole.kept entry here) other (whole.kept other there)
  have old (noted : ¬Uncalled acc' entry.1) : entry ∈ functionsOf acc.public_tools := by
    rcases rest.new entry here with old | ⟨-, -, uncalled⟩
    · rcases step.new entry old with old | ⟨loads, -⟩
      · exact old
      · cases loads
    · exact absurd uncalled noted
  obtain ⟨id, param⟩ := entry
  rw [namesFunction] at named
  rw [ensureHistoryCallIsAvailable] at h
  split at h
  · rename_i «namespace» qualified
    rw [qualified] at named
    dsimp only at named
    subst named
    split at h
    · rename_i record found
      obtain ⟨known, there, settled⟩ := calledMember_iff tracks found
      have same : known = param := whole.tracks.unique (whole.kept _ there) here
      subst same
      split at h
      · rename_i now
        refine ⟨there, available_of_settled there ?_⟩
        rw [← settled, now]
      · cases h
    · rename_i none
      cases h
      have there := old fun uncalled => uncalled.2 _ _ rfl (Finset.mem_insert_self _ _)
      exact absurd there (calledMember_none tracks none param)
  · rename_i unqualified
    rw [unqualified] at named
    dsimp only at named
    split at h
    · cases h
    rename_i free
    have there : (id, param) ∈ functionsOf acc.public_tools := by
      refine old fun uncalled => ?_
      have unnoted := uncalled.1
      rw [show FunctionId.visibleName id = call.name from named] at unnoted
      split at h
      · rename_i noted
        cases h
        rw [noted] at unnoted
        cases unnoted
      · cases h
        rw [DefinitionAccumulator.calledUnqualified, List.lookup_append, List.lookup_cons_self, Option.isSome_or,
          Option.isSome_some, Bool.or_true] at unnoted
        cases unnoted
    refine ⟨there, ?_⟩
    rw [isAvailable_iff]
    by_contra unavailable
    rw [not_or, Bool.not_eq_false, Bool.not_eq_true] at unavailable
    exact free ((withholds apart₀ _).2 ⟨_, there, unavailable.1, unavailable.2, named⟩)

end

end AgenticStack.Tools
