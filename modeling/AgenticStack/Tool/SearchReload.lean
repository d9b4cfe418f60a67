import AgenticStack.Tool.SearchAccepted

/-!
# Loading definitions again

Over tools that already agree with them, definitions can be loaded in any order
and any number of times: the tools stay as they are. A history whose outputs are
of that kind is accepted again.
-/

namespace AgenticStack.Tools
set_option autoImplicit false
open Library

/-- Over fixed tools, `loaded` has been loaded, and no call names what is still withheld. -/
structure Replays (tools loaded : List ResponsesTool) (acc : DefinitionAccumulator) : Prop where
  public_tools : acc.public_tools = tools
  tracks : Tracks loaded acc
  withholds : Withholds loaded acc
  uncalled : ∀ x ∈ acc.withheld_function_names, acc.calledUnqualified x = false

section
variable {loaded more tools : List ResponsesTool} {acc acc' : DefinitionAccumulator} {tool : ResponsesTool}

/-- Every member the namespace is given is one that it has. -/
theorem load_known_members {parameters : CodexNamespaceToolParam} {self : MemberLoading} {returned : List CodexNamespaceMember}
    (tracks : MembersTrack loaded parameters.name self.public_members self.members)
    (known : ∀ member ∈ returned, ∃ p q, member = .function p ∧ .function q ∈ self.public_members ∧ q.name.text = p.name.text ∧
      canonicalNamespaceMember q = canonicalNamespaceMember p) :
    ∃ final, returned.foldlM (MemberLoading.load parameters.name) self = .ok final ∧ final.public_members = self.public_members := by
  induction returned generalizing loaded self with
  | nil => exact ⟨self, rfl, rfl⟩
  | cons member returned ih =>
    obtain ⟨p, q, rfl, here, named, same⟩ := known _ List.mem_cons_self
    obtain ⟨next, step, kept⟩ : ∃ next, MemberStep loaded parameters.name self p next ∧ next.public_members = self.public_members := by
      cases available : memberAvailable loaded parameters.name q with
      | true => exact ⟨_, .available q here named same available, rfl⟩
      | false => exact ⟨_, .load q here named same available, rfl⟩
    have one : MembersLoaded loaded (loaded ++ [.namespace { parameters with tools := [.function p] }]) parameters.name
        self next [.function p] := by
      refine .single tracks step fun id => ?_
      rw [isLoaded_namespace]
      simp [functionNames, CodexNamespaceMember.functionName]
    obtain ⟨final, rest, same⟩ := ih one.tracks (kept ▸ fun m mem => known m (List.mem_cons_of_mem _ mem))
    refine ⟨final, ?_, same.trans kept⟩
    rw [List.foldlM_cons, (MemberLoading.load_iff tracks).2 step]
    exact rest

/-- A known namespace has the members of the returned one, so that none of them is new. -/
theorem loadNamespaceMembers_known {param declared : CodexNamespaceToolParam} (tracks : Tracks loaded acc)
    {index : Fin acc.definitions.length}
    (here : acc.public_tools[(acc.definitions.get index).public_index]? = some (.namespace declared))
    (members : (acc.definitions.get index).namespace_members = some (.of (memberRecordsFrom loaded declared.name 0 declared.tools)))
    (named : declared.name = param.name) (nonempty : param.tools ≠ []) (functions : .unknown ∉ param.tools)
    (agrees : ∀ p, .function p ∈ param.tools → ∃ q, .function q ∈ declared.tools ∧ q.name.text = p.name.text ∧
      canonicalNamespaceMember q = canonicalNamespaceMember p) :
    ∃ acc', loadNamespaceMembers param acc index = .ok acc' ∧ acc'.public_tools = acc.public_tools := by
  have track := tracks.members_track (List.mem_of_getElem? here)
  have known (member : CodexNamespaceMember) (mem : member ∈ param.tools) : ∃ p q, member = .function p ∧
      .function q ∈ declared.tools ∧ q.name.text = p.name.text ∧ canonicalNamespaceMember q = canonicalNamespaceMember p := by
    cases member with
    | unknown => exact absurd mem functions
    | function p =>
      obtain ⟨q, there, agree⟩ := agrees p mem
      exact ⟨p, q, rfl, there, agree⟩
  have old : param.tools.filter (isNewMember (.of (memberRecordsFrom loaded declared.name 0 declared.tools))) = [] := by
    apply List.filter_eq_nil_iff.2
    intro member mem
    obtain ⟨p, q, rfl, there, named, _⟩ := known member mem
    rw [isNewMember, Option.isNone_iff_eq_none, memberIndex, keyIndex_eq_none, not_not, track.names]
    exact mem_functionNames.2 ⟨q, there, named⟩
  let start : MemberLoading :=
    ⟨declared.tools, .of (memberRecordsFrom loaded declared.name 0 declared.tools), acc.withheld_function_names, []⟩
  have started : MembersTrack loaded param.name start.public_members start.members := named ▸ track
  obtain ⟨final, run, kept⟩ := load_known_members started known
  have unchanged : acc.public_tools.set (acc.definitions.get index).public_index (.namespace { declared with tools := final.public_members }) =
      acc.public_tools := by
    obtain ⟨within, same⟩ := List.getElem?_eq_some_iff.1 here
    rw [kept, ← same]
    exact List.set_getElem_self within
  have ran : (loadNamespaceMembers param acc index).map DefinitionAccumulator.public_tools =
      .ok (acc.public_tools.set (acc.definitions.get index).public_index (.namespace { declared with tools := final.public_members })) := by
    rw [loadNamespaceMembers]
    dsimp only
    rw [if_neg (by simpa using nonempty), here, members]
    dsimp only
    rw [old, run]
    rfl
  rw [unchanged] at ran
  exact map_eq_ok.1 ran

/-- A function that is withheld is not one that a call names. -/
theorem loadFunction_known {index : Fin acc.definitions.length}
    (uncalled : ∀ x ∈ acc.withheld_function_names, acc.calledUnqualified x = false) :
    ∃ acc', loadFunction acc index = .ok acc' ∧ acc'.public_tools = acc.public_tools := by
  rw [loadFunction]
  split
  · exact ⟨acc, rfl, rfl⟩
  · have open_ : ¬((acc.definitions.get index).identity.name ∈ acc.withheld_function_names ∧
        acc.calledUnqualified (acc.definitions.get index).identity.name = true) := by
      rintro ⟨withheld, called⟩
      rw [uncalled _ withheld] at called
      cases called
    rw [if_neg open_]
    exact ⟨_, rfl, rfl⟩

theorem loadDefinition_known (tracks : Tracks loaded acc) (known : Known acc.public_tools tool)
    (uncalled : ∀ x ∈ acc.withheld_function_names, acc.calledUnqualified x = false) :
    ∃ acc', loadDefinition acc tool = .ok acc' ∧ acc'.public_tools = acc.public_tools := by
  obtain ⟨⟨home, mem, identity, canonical, members⟩, identified⟩ := known
  obtain ⟨id, tool_identity⟩ := Option.isSome_iff_exists.1 identified
  have home_identity : home.identity = some id := identity.trans tool_identity
  have checked : loadedToolIdentity tool = .ok (some id) := by
    apply loadedToolIdentity_eq_ok.2
    exact ⟨tool_identity, fun x same => tracks.wellFormed.checked _ mem x (home_identity.trans same)⟩
  obtain ⟨-, index, located, record, here⟩ := tracks.record_of mem home_identity
  obtain ⟨known_identity, known_canonical, _⟩ := recordOf_eq_some record
  have same_identity : (acc.definitions.get index).identity = id :=
    Option.some.inj (known_identity.symm.trans home_identity)
  have agrees : ¬((acc.definitions.get index).identity ≠ id ∨ (acc.definitions.get index).canonical ≠ tool.canonicalDefinition) := by
    rw [not_or, not_not, not_not]
    exact ⟨same_identity, known_canonical.trans canonical⟩
  rw [loadDefinition, checked]
  dsimp only [bind, Except.bind]
  rw [located]
  dsimp only
  rw [if_neg agrees]
  cases tool with
  | «namespace» param =>
    obtain ⟨nonempty, functions, declared, rfl, agree⟩ := members param rfl
    have record_members : (acc.definitions.get index).namespace_members =
        some (.of (memberRecordsFrom loaded declared.name 0 declared.tools)) := by
      rw [recordOf, Option.some.injEq] at record
      rw [← record]
    have same_name : declared.name = param.name := by
      rw [ResponsesTool.identity, ResponsesTool.identity, Option.some.injEq] at identity
      exact LoadedToolIdentity.namespace.inj identity
    exact loadNamespaceMembers_known tracks here record_members same_name nonempty functions agree
  | function param => exact loadFunction_known uncalled
  | _ => cases tool_identity

end

section
variable {readTool : Json → ResponsesTool} {loaded more tools : List ResponsesTool} {acc acc' : DefinitionAccumulator}
  {tool : ResponsesTool} {pass pass' again : HistoryPass} {item : InputItem} {items : List InputItem} {position start : Nat}
  {call : InputFunctionToolCall}

theorem Replays.load (h : Replays tools loaded acc) (known : Known tools tool) :
    ∃ acc', loadDefinition acc tool = .ok acc' ∧ Replays tools (loaded ++ [tool]) acc' := by
  obtain ⟨acc', ran, same⟩ := loadDefinition_known h.tracks (h.public_tools ▸ known) h.uncalled
  have one := loadDefinition_loaded h.tracks ran
  refine ⟨acc', ran, same.trans h.public_tools, one.tracks, one.withholds h.withholds, ?_⟩
  intro x withheld
  rw [DefinitionAccumulator.calledUnqualified, one.unqualified]
  exact h.uncalled x ((one.withheld x).1 withheld).1

theorem Replays.loadAll (h : Replays tools loaded acc) (known : ∀ tool ∈ more, Known tools tool) :
    ∃ acc', more.foldlM loadDefinition acc = .ok acc' ∧ Replays tools (loaded ++ more) acc' := by
  induction more generalizing loaded acc with
  | nil => exact ⟨acc, rfl, (List.append_nil loaded).symm ▸ h⟩
  | cons tool more ih =>
    obtain ⟨next, first, h₁⟩ := h.load (known tool List.mem_cons_self)
    obtain ⟨acc', rest, h'⟩ := ih h₁ fun t mem => known t (List.mem_cons_of_mem _ mem)
    refine ⟨acc', ?_, ?_⟩
    · rw [List.foldlM_cons, first]
      exact rest
    · rwa [List.append_assoc, List.singleton_append] at h'

/-- What the tools have is declared, so that none of it is left out. -/
theorem Replays.restoreAll (h : Replays tools loaded acc) (restore_only_declared : Bool) (known : ∀ tool ∈ more, Known tools tool) :
    ∃ acc', more.foldlM (restoreLoadedDefinition restore_only_declared) acc = .ok acc' ∧ Replays tools (loaded ++ more) acc' := by
  induction more generalizing loaded acc with
  | nil => exact ⟨acc, rfl, (List.append_nil loaded).symm ▸ h⟩
  | cons tool more ih =>
    have here := known tool List.mem_cons_self
    obtain ⟨next, first, h₁⟩ := h.load here
    obtain ⟨⟨home, mem, identity, _, _⟩, identified⟩ := here
    obtain ⟨id, tool_identity⟩ := Option.isSome_iff_exists.1 identified
    have checked : loadedToolIdentity tool = .ok (some id) := by
      apply loadedToolIdentity_eq_ok.2
      refine ⟨tool_identity, fun x same => h.tracks.wellFormed.checked home (h.public_tools.symm ▸ mem) x ?_⟩
      rw [identity, tool_identity, same]
    have declared : definitionIndex acc.definitions id.name ≠ none := by
      rw [ne_eq, h.tracks.index_none, not_not, h.public_tools]
      exact mem_toolNames.2 ⟨home, mem, id, identity.trans tool_identity, rfl⟩
    have step : restoreLoadedDefinition restore_only_declared acc tool = .ok next := by
      have chosen : restoredDefinitionForLoad acc.definitions restore_only_declared tool = .ok (some tool) := by
        rw [restoredDefinitionForLoad, checked]
        dsimp only [bind, Except.bind]
        rw [Option.isNone_eq_false_iff.2 (Option.isSome_iff_ne_none.2 declared), Bool.and_false]
        rfl
      rw [restoreLoadedDefinition, chosen]
      exact first
    obtain ⟨acc', rest, h'⟩ := ih h₁ fun t mem => known t (List.mem_cons_of_mem _ mem)
    refine ⟨acc', ?_, ?_⟩
    · rw [List.foldlM_cons, step]
      exact rest
    · rwa [List.append_assoc, List.singleton_append] at h'

/-- A call that names nothing withheld is accepted. -/
theorem Replays.acceptCall (h : Replays tools loaded acc) (apart : ToldApart tools)
    (available : ∀ entry ∈ functionsOf tools, namesFunction call entry.1 → isAvailable loaded entry = true) :
    ∃ acc', ensureHistoryCallIsAvailable acc position call = .ok acc' ∧ Replays tools loaded acc' := by
  obtain ⟨rfl, tracks, withholds, uncalled⟩ := h
  rw [ensureHistoryCallIsAvailable]
  split
  · rename_i «namespace» qualified
    split
    · rename_i record found
      obtain ⟨param, here, settled⟩ := calledMember_iff tracks found
      have now := available _ here (by rw [namesFunction, qualified])
      have same : isSettled loaded (.member «namespace» call.name, param) =
          isAvailable loaded (.member «namespace» call.name, param) := by
        have named := member_named here
        rw [isSettled, memberAvailable, isAvailable, isDeferred, Bool.or_comm, decide_not, ← named]
      rw [if_pos (by rw [settled, same, now])]
      exact ⟨acc, rfl, rfl, tracks, withholds, uncalled⟩
    · exact ⟨_, rfl, rfl, ⟨tracks.wellFormed, tracks.definitions⟩, withholds, uncalled⟩
  · rename_i unqualified
    have open_ : call.name ∉ acc.withheld_function_names := by
      intro withheld
      obtain ⟨entry, here, deferred, unloaded, named⟩ := (withholds apart _).1 withheld
      have now := available entry here (by rw [namesFunction, unqualified]; exact named)
      rw [isAvailable, deferred, unloaded] at now
      cases now
    rw [if_neg open_]
    split
    · exact ⟨acc, rfl, rfl, tracks, withholds, uncalled⟩
    · refine ⟨_, rfl, rfl, ⟨tracks.wellFormed, tracks.definitions⟩, withholds, ?_⟩
      intro x withheld
      have other : x ≠ call.name := fun same => open_ (same ▸ withheld)
      have free := uncalled x withheld
      rw [DefinitionAccumulator.calledUnqualified, Option.isSome_eq_false_iff, Option.isNone_iff_eq_none] at free ⊢
      rw [List.lookup_append, free, List.lookup_cons, beq_false_of_ne other]
      rfl

/-- The two passes differ in their definitions only. -/
structure HistoryPass.SameItems (pass again : HistoryPass) : Prop where
  private_items : again.private_items = pass.private_items
  unresolved_call : again.unresolved_call = pass.unresolved_call
  completed_call_ids : again.completed_call_ids = pass.completed_call_ids
  item_ids : again.item_ids = pass.item_ids

/-- An item that one pass accepts is accepted by the other. -/
theorem Replays.acceptItem (h : Replays tools loaded again.definitions) (apart : ToldApart tools)
    (same : pass.SameItems again) (step : prepareItem readTool pass (item, position) = .ok pass')
    (known : ∀ tool ∈ returnedTools readTool item, Known tools tool)
    (available : ∀ call, item = .functionCall call → ∀ entry ∈ functionsOf tools, namesFunction call entry.1 →
      isAvailable loaded entry = true) :
    ∃ again', prepareItem readTool again (item, position) = .ok again' ∧ pass'.SameItems again' ∧
      Replays tools (loaded ++ returnedTools readTool item) again'.definitions := by
  obtain ⟨items, unresolved, completed, ids⟩ := same
  have kept : Replays tools (loaded ++ []) again.definitions := (List.append_nil loaded).symm ▸ h
  cases item with
  | toolSearchCall call =>
    dsimp only [prepareItem, prepareSearchCall] at step ⊢
    rw [ids, unresolved, completed, items]
    repeat' (split at step; · cases step)
    rename_i named called fresh resolved unused
    rw [if_neg named, if_neg called, if_neg fresh, if_neg resolved, if_neg unused]
    cases step
    exact ⟨_, rfl, ⟨rfl, rfl, rfl, rfl⟩, kept⟩
  | toolSearchOutput output =>
    obtain ⟨acc', loads, replays⟩ := h.loadAll known
    dsimp only [prepareItem] at step ⊢
    obtain ⟨named, unused, opened, complete, definitions, projected, -, shown, rfl⟩ := prepareSearchOutput_iff.1 step
    refine ⟨{ again with
      definitions := acc'
      private_items := again.private_items ++ [.functionCallOutput
        { call_id := output.call_id, output := .text (Json.obj [(utf8 "tools", Json.arr projected)]).write }]
      unresolved_call := none
      completed_call_ids := insert output.call_id again.completed_call_ids }, ?_, ⟨?_, rfl, ?_, ids⟩, replays⟩
    · apply prepareSearchOutput_iff.2
      exact ⟨named, completed ▸ unused, unresolved.trans opened, complete, acc', projected, loads, shown, rfl⟩
    · dsimp only
      rw [items]
    · dsimp only
      rw [completed]
  | functionCall call =>
    obtain ⟨definitions, noted, step⟩ := bind_eq_ok.1 step
    cases step
    obtain ⟨acc', ran, replays⟩ := h.acceptCall apart (available call rfl)
    refine ⟨{ again with definitions := acc' }.keep (.functionCall call), ?_, ⟨?_, unresolved, completed, ids⟩, ?_⟩
    · dsimp only [prepareItem]
      rw [ran]
      rfl
    · dsimp only [HistoryPass.keep]
      rw [items]
    · exact (List.append_nil loaded).symm ▸ replays
  | compactionTrigger =>
    cases step
    exact ⟨again, rfl, ⟨items, unresolved, completed, ids⟩, kept⟩
  | _ =>
    cases step
    refine ⟨again.keep _, rfl, ⟨?_, unresolved, completed, ids⟩, kept⟩
    dsimp only [HistoryPass.keep]
    rw [items]

end

end AgenticStack.Tools
