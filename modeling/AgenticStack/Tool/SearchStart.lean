import AgenticStack.Tool.SearchLoads

/-!
# The definitions at the start

The declared tools are indexed when they are well formed, and what is withheld
then are the deferred functions. The check for collisions at the end tells the
functions apart by the names the model sees.
-/

namespace AgenticStack.Tools
set_option autoImplicit false
open Library

def isDeferred (param : FunctionToolParam) : Bool := param.defer_loading = some true

section
variable {builder builder' : NamespaceMapBuilder} {recorded : List NamespaceMemberName} {tools : List ResponsesTool}

theorem recordMemberNames_ok {«namespace» : Text} {members : List CodexNamespaceMember} (h : Records builder recorded)
    (apart : Apart recorded) : members.foldlM (recordMemberNames «namespace») builder = .ok builder' ↔
      Recordable builder.top_level_registry_keys recorded (memberNames «namespace» members) ∧
        builder' = builder.recordAll (memberNames «namespace» members) := by
  induction members generalizing builder recorded with
  | nil =>
    rw [List.foldlM_nil, pure_eq_ok, eq_comm]
    exact ⟨fun same => ⟨recordable_nil apart, same⟩, And.right⟩
  | cons first members ih =>
    rw [List.foldlM_cons, bind_eq_ok]
    cases first with
    | unknown =>
      have names : memberNames «namespace» (.unknown :: members) = memberNames «namespace» members := rfl
      rw [names, ← ih h apart]
      constructor
      · rintro ⟨_, ⟨⟩, rest⟩
        exact rest
      · exact fun rest => ⟨builder, rfl, rest⟩
    | function param =>
      have names : memberNames «namespace» (.function param :: members) =
          [⟨«namespace», param.name.text⟩] ++ memberNames «namespace» members := rfl
      rw [names, recordable_append, recordable_single]
      constructor
      · rintro ⟨builder₁, first, rest⟩
        obtain ⟨free, apart₁, rfl⟩ := (validateAndRecord_ok h apart).1 first
        obtain ⟨recordable, rfl⟩ := (ih h.record apart₁).1 rest
        exact ⟨⟨⟨free, apart₁⟩, recordable⟩, rfl⟩
      · rintro ⟨⟨⟨free, apart₁⟩, recordable⟩, rfl⟩
        exact ⟨_, (validateAndRecord_ok h apart).2 ⟨free, apart₁, rfl⟩, (ih h.record apart₁).2 ⟨recordable, rfl⟩⟩

theorem recordNamespaceNames_ok (h : Records builder recorded) (apart : Apart recorded) :
    tools.foldlM recordNamespaceNames builder = .ok builder' ↔
      Recordable builder.top_level_registry_keys recorded (members tools) ∧ builder' = builder.recordAll (members tools) := by
  induction tools generalizing builder recorded with
  | nil =>
    rw [List.foldlM_nil, pure_eq_ok, eq_comm]
    exact ⟨fun same => ⟨recordable_nil apart, same⟩, And.right⟩
  | cons tool tools ih =>
    have other (unnamed : tool.members = []) (step : recordNamespaceNames builder tool = .ok builder) :
        (tool :: tools).foldlM recordNamespaceNames builder = .ok builder' ↔
          Recordable builder.top_level_registry_keys recorded (members (tool :: tools)) ∧
            builder' = builder.recordAll (members (tool :: tools)) := by
      rw [List.foldlM_cons, step, members_cons, unnamed, List.nil_append, ← ih h apart]
      rfl
    cases tool with
    | «namespace» param =>
      have names : (ResponsesTool.namespace param).members = memberNames param.name param.tools := rfl
      rw [List.foldlM_cons, bind_eq_ok, members_cons, names, recordable_append]
      constructor
      · rintro ⟨builder₁, inner, rest⟩
        obtain ⟨recordable, rfl⟩ := (recordMemberNames_ok h apart).1 inner
        obtain ⟨recordable', rfl⟩ := (ih (h.recordAll _) recordable.2).1 rest
        rw [keys_recordAll] at recordable'
        refine ⟨⟨recordable, recordable'⟩, ?_⟩
        rw [NamespaceMapBuilder.recordAll, NamespaceMapBuilder.recordAll, NamespaceMapBuilder.recordAll, List.foldl_append]
      · rintro ⟨⟨recordable, recordable'⟩, rfl⟩
        refine ⟨_, (recordMemberNames_ok h apart).2 ⟨recordable, rfl⟩, ?_⟩
        rw [← keys_recordAll (memberNames param.name param.tools)] at recordable'
        refine (ih (h.recordAll _) recordable.2).2 ⟨recordable', ?_⟩
        rw [NamespaceMapBuilder.recordAll, NamespaceMapBuilder.recordAll, NamespaceMapBuilder.recordAll, List.foldl_append]
    | function _ => exact other rfl rfl
    | toolSearch _ => exact other rfl rfl
    | mcp _ => exact other rfl rfl
    | webSearch _ => exact other rfl rfl
    | fileSearch _ => exact other rfl rfl
    | codeInterpreter => exact other rfl rfl
    | shell _ => exact other rfl rfl
    | custom _ => exact other rfl rfl
    | unknown => exact other rfl rfl

theorem validateNamespaceCollisions_isOk : (∃ builder, validateNamespaceCollisions tools = .ok builder) ↔ Unambiguous tools := by
  rw [← recordable_iff_unambiguous]
  constructor
  · rintro ⟨builder, ok⟩
    exact ((recordNamespaceNames_ok (records_new _) apart_nil).1 ok).1
  · exact fun recordable => ⟨_, (recordNamespaceNames_ok (records_new _) apart_nil).2 ⟨recordable, rfl⟩⟩

/-- Functions that the model cannot tell apart are the same. -/
def ToldApart (tools : List ResponsesTool) : Prop :=
  ∀ entry ∈ functionsOf tools, ∀ other ∈ functionsOf tools, entry.1.visibleName = other.1.visibleName → entry.1 = other.1

theorem mem_members {«namespace» name : Text} {param : FunctionToolParam}
    (here : (.member «namespace» name, param) ∈ functionsOf tools) : ⟨«namespace», name⟩ ∈ members tools := by
  obtain ⟨home, mem, defined⟩ := mem_functionsOf.1 here
  refine List.mem_flatMap.2 ⟨home, mem, ?_⟩
  cases home with
  | «namespace» declared =>
    obtain ⟨there, same⟩ := mem_namespace_functions.1 defined
    cases same
    exact List.mem_map.2 ⟨_, mem_functionNames.2 ⟨param, there, rfl⟩, rfl⟩
  | function declared => cases (mem_function_functions.1 defined).2
  | _ => cases defined

theorem key_of_function {name : Text} {param : FunctionToolParam} (here : (.function name, param) ∈ functionsOf tools) :
    ∃ tool ∈ tools, tool.topLevelRegistryKey = some name := by
  obtain ⟨home, mem, defined⟩ := mem_functionsOf.1 here
  refine ⟨home, mem, ?_⟩
  cases home with
  | function declared =>
    obtain ⟨_, same⟩ := mem_function_functions.1 defined
    cases same
    rfl
  | «namespace» declared => cases (mem_namespace_functions.1 defined).2
  | _ => cases defined

theorem Unambiguous.toldApart (unambiguous : Unambiguous tools) : ToldApart tools := by
  rintro ⟨id, p⟩ here ⟨other, q⟩ there same
  dsimp only at same ⊢
  cases id with
  | function name =>
    cases other with
    | function name' =>
      show FunctionId.function name = .function name'
      rw [show name = name' from same]
    | member ns member =>
      obtain ⟨tool, mem, key⟩ := key_of_function here
      exact absurd (key.trans (congrArg some same)) (unambiguous.apart _ (mem_members there) tool mem)
  | member ns member =>
    cases other with
    | function name =>
      obtain ⟨tool, mem, key⟩ := key_of_function there
      exact absurd (key.trans (congrArg some same.symm)) (unambiguous.apart _ (mem_members here) tool mem)
    | member ns' member' =>
      have equal := unambiguous.unique _ (mem_members there) _ (mem_members here) same
      rw [NamespaceMemberName.mk.injEq] at equal
      rw [equal.1, equal.2]

end

section
variable {loaded tools done rest : List ResponsesTool} {acc acc' : DefinitionAccumulator} {tool : ResponsesTool}

def Declarable (tool : ResponsesTool) : Prop :=
  (∀ identity, tool.identity = some identity → identity.check = .ok ()) ∧ HasMembers tool

theorem wellFormed_iff : WellFormed tools ↔ (toolNames tools).Nodup ∧ ∀ tool ∈ tools, Declarable tool := by
  constructor
  · intro h
    refine ⟨h.once, fun tool mem => ⟨h.checked tool mem, ?_⟩⟩
    rintro param rfl
    exact ⟨h.nonempty param mem, h.functions param mem, h.members param mem⟩
  · rintro ⟨once, declarable⟩
    exact ⟨once, fun tool mem => (declarable tool mem).1, fun param mem => ((declarable _ mem).2 param rfl).1,
      fun param mem => ((declarable _ mem).2 param rfl).2.1, fun param mem => ((declarable _ mem).2 param rfl).2.2⟩

theorem declarable_of_unknown (unknown : tool.identity = none) : Declarable tool := by
  constructor
  · intro identity known
    rw [unknown] at known
    cases known
  · rintro param rfl
    cases unknown

theorem indexInitialDefinitions_iff {result : List DefinitionRecord} (once : (toolNames done).Nodup) :
    indexInitialDefinitions (rest.zipIdx done.length) (recordsFrom [] 0 done) = .ok result ↔
      (toolNames (done ++ rest)).Nodup ∧ (∀ tool ∈ rest, Declarable tool) ∧ result = recordsFrom [] 0 (done ++ rest) := by
  induction rest generalizing done with
  | nil =>
    rw [List.zipIdx_nil, indexInitialDefinitions, Except.ok.injEq, List.append_nil, eq_comm]
    exact ⟨fun same => ⟨once, fun _ h => absurd h List.not_mem_nil, same⟩, fun h => h.2.2⟩
  | cons tool rest ih =>
    have snoc : done ++ tool :: rest = (done ++ [tool]) ++ rest := by rw [List.append_assoc, List.singleton_append]
    have length : (done ++ [tool]).length = done.length + 1 := by rw [List.length_append, List.length_singleton]
    have names (other : List ResponsesTool) : toolNames (done ++ tool :: other) =
        toolNames done ++ toolNames (tool :: other) := List.filterMap_append
    have step : recordsFrom [] 0 (done ++ [tool]) = recordsFrom [] 0 done ++ (recordOf [] done.length tool).toList := by
      rw [recordsFrom_append, Nat.zero_add, recordsFrom, recordsFrom, List.append_nil]
    have indexed (name : Text) : (definitionIndex (recordsFrom [] 0 done) name).isSome = true ↔ name ∈ toolNames done := by
      rw [definitionIndex, keyIndex_isSome, recordsFrom_names]
    rw [List.zipIdx_cons, indexInitialDefinitions, bind_eq_ok]
    cases known : tool.identity with
    | none =>
      have same_names : toolNames (done ++ [tool]) = toolNames done := by
        rw [names, toolNames, toolNames, List.filterMap_cons, known]
        exact List.append_nil _
      have unrecorded : recordOf [] done.length tool = none := by
        cases tool <;> first | rfl | cases known
      rw [unrecorded, Option.toList_none, List.append_nil] at step
      have later := @ih (done ++ [tool]) (by rwa [same_names])
      rw [length, step] at later
      rw [snoc]
      constructor
      · rintro ⟨identity, found, next⟩
        obtain ⟨same, _⟩ := loadedToolIdentity_eq_ok.1 found
        rw [known] at same
        subst same
        obtain ⟨once, declarable, rfl⟩ := later.1 next
        refine ⟨once, fun t mem => ?_, rfl⟩
        rcases List.mem_cons.1 mem with rfl | mem
        · exact declarable_of_unknown known
        · exact declarable t mem
      · rintro ⟨once, declarable, rfl⟩
        exact ⟨none, loadedToolIdentity_eq_ok.2 ⟨known, fun _ h => by cases h⟩,
          later.2 ⟨once, fun t mem => declarable t (List.mem_cons_of_mem _ mem), rfl⟩⟩
    | some identity =>
      have own : toolNames [tool] = [identity.name] := by
        rw [toolNames, List.filterMap_cons, known]
        rfl
      have unloaded (entry : FunctionId × FunctionToolParam) (_ : entry ∈ tool.functions) : isLoaded [] entry.1 = false := rfl
      have fresh_of (h : (toolNames (done ++ tool :: rest)).Nodup) : identity.name ∉ toolNames done := by
        intro here
        rw [snoc, toolNames, List.filterMap_append] at h
        have front := h.of_append_left
        rw [List.filterMap_append] at front
        have apart := List.disjoint_of_nodup_append front here
        exact apart (by rw [← toolNames, own]; exact List.mem_singleton.2 rfl)
      constructor
      · rintro ⟨identity', found, next⟩
        obtain ⟨same, checked⟩ := loadedToolIdentity_eq_ok.1 found
        rw [known] at same
        subst same
        dsimp only at next
        split at next
        · cases next
        rename_i fresh
        rw [indexed] at fresh
        rw [bind_eq_ok] at next
        obtain ⟨record, recorded, next⟩ := next
        obtain ⟨members, recorded⟩ := (definitionRecord_iff known unloaded).1 recorded
        have nodup : (toolNames (done ++ [tool])).Nodup := by
          rw [names, own]
          refine List.Nodup.append once (List.nodup_singleton _) fun name here there => ?_
          cases List.mem_singleton.1 there
          exact fresh here
        have later := @ih (done ++ [tool]) nodup
        rw [length, step, recorded] at later
        rw [snoc]
        obtain ⟨once, declarable, rfl⟩ := later.1 next
        refine ⟨once, fun t mem => ?_, rfl⟩
        rcases List.mem_cons.1 mem with rfl | mem
        · exact ⟨fun x h => by rw [known] at h; exact checked x h, members⟩
        · exact declarable t mem
      · rintro ⟨nodup, declarable, rfl⟩
        have here := declarable tool List.mem_cons_self
        obtain ⟨record, recorded⟩ : ∃ record, recordOf [] done.length tool = some record := by
          cases tool <;> first | exact ⟨_, rfl⟩ | cases known
        have later := @ih (done ++ [tool]) (by
          rw [snoc, toolNames, List.filterMap_append] at nodup
          exact nodup.of_append_left)
        rw [length, step, recorded] at later
        refine ⟨some identity, loadedToolIdentity_eq_ok.2 ⟨known, fun x h => here.1 x (by rw [known]; exact h)⟩, ?_⟩
        dsimp only
        have fresh : ¬(definitionIndex (recordsFrom [] 0 done) identity.name).isSome = true := by
          rw [indexed]
          exact fresh_of nodup
        rw [if_neg fresh, bind_eq_ok]
        refine ⟨record, (definitionRecord_iff known unloaded).2 ⟨here.2, recorded⟩, ?_⟩
        exact later.2 ⟨by rwa [← snoc], fun t mem => declarable t (List.mem_cons_of_mem _ mem), by rw [snoc]⟩

theorem withholdMember_adds {«namespace» : Text} {members : List CodexNamespaceMember}
    (tracks : MembersTrack [] «namespace» members (.of (memberRecordsFrom [] «namespace» 0 members)))
    (member : CodexNamespaceMember) (mem : member ∈ members) (withheld : Finset Text) :
    ∃ withheld', withholdMember «namespace» (.of (memberRecordsFrom [] «namespace» 0 members)) withheld member = .ok withheld' ∧
      ∀ x, x ∈ withheld' ↔ x ∈ withheld ∨
        ∃ param, member = .function param ∧ isDeferred param = true ∧ modelVisibleNamespaceMemberName «namespace» param.name.text = x := by
  cases member with
  | unknown => exact absurd mem tracks.functions
  | function param =>
    have named : param.name.text ∈
        (NamespaceMemberRecords.of (memberRecordsFrom [] «namespace» 0 members)).ordered.map NamespaceMemberRecord.name := by
      rw [tracks.names]
      exact mem_functionNames.2 ⟨param, mem, rfl⟩
    obtain ⟨index, found, _, _⟩ := keyIndex_of_mem named
    obtain ⟨known, here, same, _, loaded⟩ := tracks.record_at found
    have only : known = param := member_unique tracks.once (List.mem_of_getElem? here) mem same
    subst only
    rw [withholdMember, memberIndex, found]
    refine ⟨_, rfl, fun x => ?_⟩
    rw [loaded]
    by_cases deferred : isDeferred known = true
    · have unavailable : memberAvailable [] «namespace» known = false := by
        rw [isDeferred, decide_eq_true_eq] at deferred
        rw [memberAvailable, deferred]
        rfl
      rw [unavailable, if_neg Bool.false_ne_true, Finset.mem_insert, or_comm]
      refine or_congr_right ⟨fun same => ⟨known, rfl, deferred, same.symm⟩, ?_⟩
      rintro ⟨_, ⟨⟩, _, rfl⟩
      rfl
    · have available : memberAvailable [] «namespace» known = true := by
        rw [isDeferred, decide_eq_true_eq] at deferred
        exact memberAvailable_iff.2 (.inr deferred)
      rw [available, if_pos rfl]
      refine (or_iff_left ?_).symm
      rintro ⟨_, ⟨⟩, now, _⟩
      exact deferred now

theorem withholdTool_adds (tracks : Tracks [] acc) (mem : tool ∈ acc.public_tools) (withheld : Finset Text) :
    ∃ withheld', withholdTool acc.definitions withheld tool = .ok withheld' ∧
      ∀ x, x ∈ withheld' ↔ x ∈ withheld ∨ ∃ entry ∈ tool.functions, isDeferred entry.2 = true ∧ entry.1.visibleName = x := by
  have nothing (none : tool.functions = []) (x : Text) :
      x ∈ withheld ↔ x ∈ withheld ∨ ∃ entry ∈ tool.functions, isDeferred entry.2 = true ∧ entry.1.visibleName = x := by
    rw [none]
    exact (or_iff_left fun ⟨_, h, _⟩ => nomatch h).symm
  cases tool with
  | function param =>
    refine ⟨_, rfl, fun x => ?_⟩
    have one : (∃ entry ∈ (ResponsesTool.function param).functions, isDeferred entry.2 = true ∧ entry.1.visibleName = x) ↔
        param.defer_loading = some true ∧ param.name.text = x := by
      simp only [ResponsesTool.functions, List.mem_singleton, exists_eq_left, isDeferred, decide_eq_true_eq]
      rfl
    rw [one]
    by_cases deferred : param.defer_loading = some true
    · rw [if_pos deferred, Finset.mem_insert, or_comm, eq_comm]
      exact or_congr_right ⟨fun same => ⟨deferred, same⟩, And.right⟩
    · rw [if_neg deferred]
      exact (or_iff_left fun h => deferred h.1).symm
  | «namespace» param =>
    have named : param.name ∈ acc.definitions.map fun record => record.identity.name := by
      rw [tracks.names]
      exact mem_toolNames.2 ⟨_, mem, _, rfl, rfl⟩
    obtain ⟨index, found, _, _⟩ := keyIndex_of_mem named
    obtain ⟨known, here, record, same⟩ := tracks.record_at found
    have only : known = .namespace param :=
      tool_unique tracks.wellFormed.once (List.mem_of_getElem? here) mem (recordOf_eq_some record).1 rfl same
    subst only
    have members : (acc.definitions.get index).namespace_members = some (.of (memberRecordsFrom [] param.name 0 param.tools)) := by
      rw [recordOf, Option.some.injEq] at record
      rw [← record]
    have looked : (definitionIndex acc.definitions param.name).bind (fun index => (acc.definitions.get index).namespace_members) =
        some (.of (memberRecordsFrom [] param.name 0 param.tools)) := by
      rw [definitionIndex, found]
      exact members
    rw [withholdTool, looked]
    obtain ⟨withheld', run, collected⟩ := foldlM_collects (withholdMember_adds (tracks.members_track mem)) withheld
    refine ⟨withheld', run, fun x => ?_⟩
    rw [collected]
    refine or_congr_right ⟨?_, ?_⟩
    · rintro ⟨_, there, p, rfl, deferred, rfl⟩
      exact ⟨_, mem_namespace_functions.2 ⟨there, rfl⟩, deferred, rfl⟩
    · rintro ⟨⟨id, p⟩, there, deferred, rfl⟩
      obtain ⟨mem', rfl⟩ := mem_namespace_functions.1 there
      exact ⟨_, mem', p, rfl, deferred, rfl⟩
  | _ => exact ⟨withheld, rfl, nothing rfl⟩

/-- The withheld names are those of the deferred functions that are not loaded, where functions are told apart. -/
def Withholds (loaded : List ResponsesTool) (acc : DefinitionAccumulator) : Prop :=
  ToldApart acc.public_tools → ∀ x, x ∈ acc.withheld_function_names ↔
    ∃ entry ∈ functionsOf acc.public_tools, isDeferred entry.2 = true ∧ isLoaded loaded entry.1 = false ∧ entry.1.visibleName = x

/-- The state before anything is loaded: it is reached exactly from well-formed tools. -/
theorem initialDefinitions_iff : initialDefinitions tools = .ok acc ↔ WellFormed tools ∧ Tracks [] acc ∧ Withholds [] acc ∧
    (∀ x, x ∈ acc.withheld_function_names ↔ ∃ entry ∈ functionsOf tools, isDeferred entry.2 = true ∧ entry.1.visibleName = x) ∧
    acc.public_tools = tools ∧ acc.loaded_public_tools = [] ∧ acc.prior_unknown_namespace_calls = ∅ ∧
    acc.unqualified_call_positions = [] := by
  have indexed {result : List DefinitionRecord} : indexInitialDefinitions tools.zipIdx [] = .ok result ↔
      (toolNames tools).Nodup ∧ (∀ tool ∈ tools, Declarable tool) ∧ result = recordsFrom [] 0 tools :=
    @indexInitialDefinitions_iff [] tools result List.nodup_nil
  have withheld_of (wellFormed : WellFormed tools) (start : DefinitionAccumulator) (declared : start.public_tools = tools)
      (records : start.definitions = recordsFrom [] 0 tools) :
      ∃ withheld, initialWithheldFunctionNames tools start.definitions = .ok withheld ∧
        ∀ x, x ∈ withheld ↔ ∃ entry ∈ functionsOf tools, isDeferred entry.2 = true ∧ entry.1.visibleName = x := by
    have tracks : Tracks [] start := ⟨declared ▸ wellFormed, by rw [records, declared]⟩
    have steps (tool : ResponsesTool) (mem : tool ∈ tools) (w : Finset Text) :
        ∃ w', withholdTool start.definitions w tool = .ok w' ∧ ∀ x, x ∈ w' ↔
          x ∈ w ∨ ∃ entry ∈ tool.functions, isDeferred entry.2 = true ∧ entry.1.visibleName = x :=
      withholdTool_adds tracks (declared ▸ mem) w
    obtain ⟨withheld, run, collected⟩ := foldlM_collects steps (∅ : Finset Text)
    refine ⟨withheld, run, fun x => ?_⟩
    rw [collected]
    constructor
    · rintro (none | ⟨tool, mem, entry, there, deferred, named⟩)
      · exact absurd none (Finset.notMem_empty x)
      · exact ⟨entry, mem_functionsOf.2 ⟨tool, mem, there⟩, deferred, named⟩
    · rintro ⟨entry, there, deferred, named⟩
      obtain ⟨tool, mem, there⟩ := mem_functionsOf.1 there
      exact .inr ⟨tool, mem, entry, there, deferred, named⟩
  rw [initialDefinitions, bind_eq_ok]
  constructor
  · rintro ⟨definitions, run, h⟩
    obtain ⟨once, declarable, rfl⟩ := indexed.1 run
    have wellFormed : WellFormed tools := wellFormed_iff.2 ⟨once, declarable⟩
    obtain ⟨withheld, run, collected⟩ := withheld_of wellFormed ⟨tools, recordsFrom [] 0 tools, [], ∅, ∅, []⟩ rfl rfl
    rw [bind_eq_ok] at h
    obtain ⟨withheld', run', h⟩ := h
    rw [run, Except.ok.injEq] at run'
    subst run'
    rw [pure_eq_ok] at h
    subst h
    refine ⟨wellFormed, ⟨wellFormed, rfl⟩, fun _ x => ?_, collected, rfl, rfl, rfl, rfl⟩
    rw [collected]
    exact ⟨fun ⟨entry, mem, deferred, named⟩ => ⟨entry, mem, deferred, rfl, named⟩,
      fun ⟨entry, mem, deferred, _, named⟩ => ⟨entry, mem, deferred, named⟩⟩
  · rintro ⟨wellFormed, tracks, _, collected, declared, saved, prior, unqualified⟩
    obtain ⟨once, declarable⟩ := wellFormed_iff.1 wellFormed
    have records : acc.definitions = recordsFrom [] 0 tools := by rw [tracks.definitions, declared]
    refine ⟨_, indexed.2 ⟨once, declarable, records⟩, ?_⟩
    obtain ⟨withheld, run, collected'⟩ := withheld_of wellFormed acc declared records
    rw [bind_eq_ok]
    refine ⟨withheld, run, ?_⟩
    have same : withheld = acc.withheld_function_names := Finset.ext fun x => by rw [collected, collected']
    rw [pure_eq_ok, same]
    obtain ⟨public_tools, definitions, loaded_public_tools, withheld_function_names, prior_calls, positions⟩ := acc
    dsimp only at declared saved prior unqualified
    rw [declared, saved, prior, unqualified]

end

end AgenticStack.Tools
