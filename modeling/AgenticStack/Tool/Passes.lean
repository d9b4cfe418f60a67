import AgenticStack.Tool.Flattening
import AgenticStack.Tool.Registering

/-!
# Both passes

The registry is built from the declared tools, the upstream request from the same
tools with what was discovered. What each takes, and the names it comes to, tool
by tool.
-/

namespace AgenticStack.Tools
set_option autoImplicit false
open Library

section
variable (services : RegistryServices) (init : GatewayExecutors)

/-- No label is declared twice while one of its servers is the request's own, and connects. -/
def OwnLabels (tools : List ResponsesTool) : Prop := tools.Pairwise fun a b => ¬ Shares services init a b

def ResponsesTool.annotate (tool : ResponsesTool) : ResponsesTool := tool.noteDiscovered (tool.noted services init)

/-- The names under which the tool is sent. -/
def ResponsesTool.sent (tool : ResponsesTool) : List Text :=
  (tool.annotate services init).flatten.toFunctionTools.map (·.name)

/-- The names under which the tool is registered. -/
def ResponsesTool.keys (tool : ResponsesTool) : List Text := (tool.flatten.registered services init).map Prod.fst

end

section
variable {services : RegistryServices} {init : GatewayExecutors} {budget : Nat} {choice : Option ToolChoice}
  {tools tools' : List ResponsesTool} {tool : ResponsesTool} {keys names : List Text}

theorem noted_other (plain : ∀ param, tool ≠ .mcp param) : tool.annotate services init = tool := by
  rw [ResponsesTool.annotate, ResponsesTool.noted, (discovered_other plain init).1]
  cases tool <;> rfl

theorem flatten_other (plain : ∀ param, tool ≠ .namespace param) : tool.flatten = tool := by
  cases tool with
  | «namespace» param => exact absurd rfl (plain param)
  | _ => rfl

theorem annotate_mcp (param : McpToolParam) : ∃ discovered_tools,
    (ResponsesTool.mcp param).annotate services init = .mcp { param with discovered_tools } := by
  unfold ResponsesTool.annotate
  cases (ResponsesTool.mcp param).noted services init with
  | none => exact ⟨param.discovered_tools, rfl⟩
  | some discovered_tools => exact ⟨discovered_tools, rfl⟩

/-- Nothing but what an MCP server offers is noted. -/
theorem annotate_cases (tool : ResponsesTool) :
    (∃ param discovered_tools, tool = .mcp param ∧ tool.annotate services init = .mcp { param with discovered_tools }) ∨
      (∀ param, tool ≠ .mcp param) ∧ tool.annotate services init = tool := by
  cases tool with
  | mcp param =>
    obtain ⟨discovered_tools, same⟩ := @annotate_mcp services init param
    exact .inl ⟨param, discovered_tools, rfl, same⟩
  | _ => exact .inr ⟨(fun _ no => nomatch no), noted_other (fun _ no => nomatch no)⟩

theorem members_annotate : (tool.annotate services init).members = tool.members := by
  rcases @annotate_cases services init tool with ⟨param, _, rfl, same⟩ | ⟨_, same⟩
  · rw [same]
    rfl
  · rw [same]

theorem key_annotate : (tool.annotate services init).topLevelRegistryKey = tool.topLevelRegistryKey := by
  rcases @annotate_cases services init tool with ⟨param, _, rfl, same⟩ | ⟨_, same⟩
  · rw [same]
    rfl
  · rw [same]

theorem validate_annotate : (tool.annotate services init).flatten.validate = tool.validate := by
  rcases @annotate_cases services init tool with ⟨param, _, rfl, same⟩ | ⟨_, same⟩
  · rw [same]
    rfl
  · rw [same]
    cases tool <;> rfl

theorem unambiguous_annotate : Unambiguous (tools.map (·.annotate services init)) ↔ Unambiguous tools := by
  have same : members (tools.map (·.annotate services init)) = members tools := by
    unfold members
    rw [List.flatMap_map]
    exact congrArg (tools.flatMap ·) (funext fun tool => members_annotate)
  constructor
  · rintro ⟨apart, unique⟩
    rw [same] at apart unique
    refine ⟨fun member mem tool tool_mem => ?_, unique⟩
    rw [← @key_annotate services init tool]
    exact apart member mem _ (List.mem_map_of_mem tool_mem)
  · rintro ⟨apart, unique⟩
    rw [← same] at apart unique
    refine ⟨fun member mem annotated annotated_mem => ?_, unique⟩
    obtain ⟨tool, tool_mem, rfl⟩ := List.mem_map.1 annotated_mem
    rw [key_annotate]
    exact apart member mem tool tool_mem

theorem discovered_flatten : tool.flatten.discovered services init = tool.discovered services init := by cases tool <;> rfl

theorem noted_flatten : tool.flatten.noted services init = tool.noted services init := by
  rw [ResponsesTool.noted, ResponsesTool.noted, discovered_flatten]

theorem serverLabel_flatten : tool.flatten.serverLabel = tool.serverLabel := by cases tool <;> rfl

theorem shares_flatten {tool' : ResponsesTool} : Shares services init tool.flatten tool'.flatten ↔ Shares services init tool tool' := by
  have mcp {tool : ResponsesTool} {param : McpToolParam} : tool.flatten = .mcp param ↔ tool = .mcp param := by
    cases tool <;> simp [ResponsesTool.flatten]
  unfold Shares
  simp only [mcp]

theorem ownLabels_flatten : OwnLabels services init (tools.map ResponsesTool.flatten) ↔ OwnLabels services init tools := by
  unfold OwnLabels
  rw [List.pairwise_map]
  simp only [shares_flatten]

theorem OwnLabels.perm (h : OwnLabels services init tools) (perm : tools'.Perm tools) : OwnLabels services init tools' :=
  (perm.pairwise_iff fun apart shares => apart shares.symm).2 h

theorem labelsAfter_ok {seen : List Text} : validateLabelsAfter seen tools = .ok () ↔
    (∀ label ∈ tools.filterMap ResponsesTool.serverLabel, label ∉ seen) ∧ (tools.filterMap ResponsesTool.serverLabel).Nodup := by
  induction tools generalizing seen with
  | nil => simp [validateLabelsAfter]
  | cons tool tools ih =>
    rw [validateLabelsAfter]
    cases declared : tool.serverLabel with
    | none =>
      rw [List.filterMap_cons_none declared]
      exact ih
    | some label =>
      rw [List.filterMap_cons_some declared]
      by_cases known : seen.contains label = true
      · simp only [known, if_true, reduceCtorEq, false_iff, not_and]
        intro fresh
        exact absurd (List.contains_iff_mem.1 known) (fresh label List.mem_cons_self)
      · dsimp only
        rw [if_neg known, ih, List.nodup_cons]
        rw [List.contains_iff_mem] at known
        constructor
        · rintro ⟨fresh, once⟩
          refine ⟨fun other mem => ?_, fun again => fresh label again List.mem_cons_self, once⟩
          rcases List.mem_cons.1 mem with rfl | later
          · exact known
          · exact fun seen => fresh other later (List.mem_cons_of_mem _ seen)
        · rintro ⟨fresh, apart, once⟩
          refine ⟨fun other mem seen => ?_, once⟩
          rcases List.mem_cons.1 seen with rfl | before
          · exact apart mem
          · exact fresh other (List.mem_cons_of_mem _ mem) before

theorem validateServerLabels_ok :
    validateServerLabels tools = .ok () ↔ (tools.filterMap ResponsesTool.serverLabel).Nodup := by
  rw [validateServerLabels, labelsAfter_ok]
  simp

theorem validateMcpServerCount_ok : validateMcpServerCount tools = .ok () ↔
    tools.countP (·.serverLabel.isSome) ≤ MAX_MCP_SERVERS_PER_REQUEST := by
  unfold validateMcpServerCount
  dsimp only
  split
  · rename_i many
    simp only [reduceCtorEq, false_iff]
    omega
  · rename_i few
    simp only [true_iff]
    omega

/-- The state before the first tool. -/
def BuildState.empty (init : GatewayExecutors) (budget : Nat) : BuildState := ⟨[], [], 0, budget, init⟩

variable (services init budget) in
/-- What a registry takes. -/
structure Registrable (tools : List ResponsesTool) : Prop where
  unambiguous : Unambiguous tools
  labelled : (tools.filterMap ResponsesTool.serverLabel).Nodup
  counted : tools.countP (·.serverLabel.isSome) ≤ MAX_MCP_SERVERS_PER_REQUEST
  fits : (BuildState.empty init budget).Fits services init (tools.map ResponsesTool.flatten)

theorem Registrable.perm (h : Registrable services init budget tools) (perm : tools'.Perm tools) :
    Registrable services init budget tools' := by
  refine ⟨h.unambiguous.perm perm, ?_, ?_, fits_perm h.fits (perm.map _)⟩
  · exact ((perm.filterMap _).nodup_iff).2 h.labelled
  · rw [perm.countP_eq]
    exact h.counted

theorem filterMap_flatten :
    (tools.map ResponsesTool.flatten).filterMap ResponsesTool.serverLabel = tools.filterMap ResponsesTool.serverLabel := by
  rw [List.filterMap_map]
  exact congrArg (List.filterMap · tools) (funext fun tool => serverLabel_flatten)

theorem countP_flatten :
    (tools.map ResponsesTool.flatten).countP (·.serverLabel.isSome) = tools.countP (·.serverLabel.isSome) := by
  rw [List.countP_map]
  refine List.countP_congr fun tool mem => ?_
  rw [Function.comp_apply, serverLabel_flatten]

theorem zipWith_noted (f : ResponsesTool → Option (List McpDiscoveredToolParam)) :
    tools.zipWith ResponsesTool.noteDiscovered (tools.map f) = tools.map fun tool => tool.noteDiscovered (f tool) := by
  induction tools with
  | nil => rfl
  | cons tool tools ih => rw [List.map_cons, List.zipWith_cons_cons, ih, List.map_cons]

theorem namespaceMap_isOk (tools : List ResponsesTool) (h : Unambiguous tools) :
    ∃ map, buildNamespaceMap (if tools.isEmpty then none else some tools) = .ok map := by
  cases tools with
  | nil => exact ⟨none, rfl⟩
  | cons tool tools =>
    obtain ⟨map, built⟩ := buildNamespaceMap_isOk.2 h
    exact ⟨some map, built⟩

/-- **When a registry is built**, and of what. -/
theorem build_ok (own : OwnLabels services init tools) {annotated : List ResponsesTool} :
    (∃ registry, buildWithHandlersGuarded services tools init budget = .ok (registry, annotated) ∧ keys = registry.entries.map Prod.fst) ↔
      Registrable services init budget tools ∧ annotated = tools.map (·.annotate services init) ∧
        keys = tools.flatMap (·.keys services init) := by
  have serves : ∀ tool ∈ tools.map ResponsesTool.flatten, Serves services init (BuildState.empty init budget).executors tool := by
    intro tool _
    cases tool with
    | mcp param => exact AgreesAt.refl _ _ _
    | _ => trivial
  have added {ns state} := @addTools_ok services init (BuildState.empty init budget) state (tools.map ResponsesTool.flatten) ns serves
    (ownLabels_flatten.2 own) List.nodup_nil (Nat.zero_le _)
  have noted : tools.zipWith ResponsesTool.noteDiscovered ((tools.map ResponsesTool.flatten).map (·.noted services init)) =
      tools.map (·.annotate services init) := by
    rw [List.map_map, zipWith_noted]
    refine List.map_congr_left fun tool _ => ?_
    rw [Function.comp_apply, noted_flatten, ResponsesTool.annotate]
  have registered : (((tools.map ResponsesTool.flatten).foldl (·.added services init ·) (BuildState.empty init budget)).entries).map
      Prod.fst = tools.flatMap (·.keys services init) := by
    rw [entries_added, List.flatMap_map]
    simp only [BuildState.empty, List.nil_append, List.map_flatMap]
    rfl
  unfold buildWithHandlersGuarded
  constructor
  · rintro ⟨registry, built, rfl⟩
    obtain ⟨resolved, resolves, built⟩ := bind_eq_ok.1 built
    obtain ⟨unambiguous, rfl⟩ := resolveNamespaceMembers_ok.1 resolves
    obtain ⟨_, labels, built⟩ := bind_eq_ok.1 built
    obtain ⟨_, count, built⟩ := bind_eq_ok.1 built
    rw [validateServerLabels_ok, filterMap_flatten] at labels
    rw [validateMcpServerCount_ok, countP_flatten] at count
    obtain ⟨⟨ns, state⟩, adds, built⟩ := bind_eq_ok.1 built
    obtain ⟨fits, rfl, rfl⟩ := added.1 adds
    obtain ⟨map, _, same⟩ := bind_eq_ok.1 built
    rw [pure_eq_ok, Prod.mk.injEq] at same
    obtain ⟨rfl, rfl⟩ := same
    exact ⟨⟨unambiguous, labels, count, fits⟩, noted, registered⟩
  · rintro ⟨⟨unambiguous, labels, count, fits⟩, rfl, rfl⟩
    rw [← filterMap_flatten, ← validateServerLabels_ok] at labels
    rw [← countP_flatten, ← validateMcpServerCount_ok] at count
    obtain ⟨map, mapped⟩ := namespaceMap_isOk _ (unambiguous_annotate.2 unambiguous)
    refine ⟨⟨_, map, customToolMap (tools.map (·.annotate services init)),
      ((tools.map ResponsesTool.flatten).foldl (BuildState.added services init) (BuildState.empty init budget)).mcp_list_tools_items⟩,
      bind_eq_ok.2 ⟨_, resolveNamespaceMembers_ok.2 ⟨unambiguous, rfl⟩, bind_eq_ok.2 ⟨_, labels, bind_eq_ok.2 ⟨_, count,
      bind_eq_ok.2 ⟨_, added.2 ⟨fits, rfl, rfl⟩, ?_⟩⟩⟩⟩, registered.symm⟩
    dsimp only
    rw [noted]
    exact bind_eq_ok.2 ⟨map, mapped, rfl⟩

/-- A custom tool that is chosen is declared. -/
def ChoiceDeclared (tools : List ResponsesTool) (choice : ToolChoice) : Prop :=
  ∀ name, (choice = .custom name ∨ ∃ required allowed, choice = .allowedTools required allowed ∧
    ∃ tool ∈ allowed, tool.type_.text = utf8 "custom" ∧ tool.name = name) →
    ∃ param, ResponsesTool.custom param ∈ tools ∧ param.name.text = name.text

theorem ChoiceDeclared.perm {choice : ToolChoice} (h : ChoiceDeclared tools choice) (perm : tools'.Perm tools) :
    ChoiceDeclared tools' choice := by
  intro name chosen
  obtain ⟨param, mem, named⟩ := h name chosen
  exact ⟨param, perm.mem_iff.2 mem, named⟩

theorem noteCustom_lookup {name : Text} (declarations : List (Text × CustomToolParam)) :
    (∃ param, (tools.foldl noteCustom declarations).lookup name = some param) ↔
      (∃ param, declarations.lookup name = some param) ∨ ∃ param, ResponsesTool.custom param ∈ tools ∧ param.name.text = name := by
  induction tools generalizing declarations with
  | nil => simp
  | cons tool tools ih =>
    have other (plain : ∀ param, tool ≠ .custom param) (same : noteCustom declarations tool = declarations) :
        (∃ param, ((tool :: tools).foldl noteCustom declarations).lookup name = some param) ↔
          (∃ param, declarations.lookup name = some param) ∨
            ∃ param, ResponsesTool.custom param ∈ tool :: tools ∧ param.name.text = name := by
      rw [List.foldl_cons, same, ih]
      simp only [List.mem_cons]
      refine or_congr_right (exists_congr fun param => and_congr_left fun _ => ?_)
      exact ⟨.inr, fun h => h.resolve_left fun here => plain param here.symm⟩
    cases tool with
    | custom param =>
      rw [List.foldl_cons, ih, noteCustom]
      by_cases same : param.name.text = name
      · constructor
        · exact fun _ => .inr ⟨param, List.mem_cons_self, same⟩
        · intro _
          rw [← same]
          exact .inl ⟨param, lookup_insertEntry_self⟩
      · rw [lookup_insertEntry_ne fun here => same here.symm]
        simp only [List.mem_cons]
        refine or_congr_right (exists_congr fun param' => ⟨fun h => ⟨.inr h.1, h.2⟩, ?_⟩)
        rintro ⟨here | later, named⟩
        · cases here
          exact absurd named same
        · exact ⟨later, named⟩
    | _ => exact other (fun _ no => nomatch no) rfl

theorem validateCustomSelector_ok {name : Text} :
    validateCustomSelector (customToolMap tools) name = .ok () ↔ ∃ param, ResponsesTool.custom param ∈ tools ∧ param.name.text = name := by
  have known := @noteCustom_lookup tools name []
  simp only [List.lookup_nil, reduceCtorEq, exists_false, false_or] at known
  rw [← known, validateCustomSelector, customToolMap]
  cases (tools.foldl noteCustom []).lookup name <;> simp

theorem validateToolChoice_ok {choice : ToolChoice} : validateToolChoice tools choice = .ok () ↔ ChoiceDeclared tools choice := by
  cases choice with
  | custom name =>
    rw [validateToolChoice, validateCustomSelector_ok]
    constructor
    · rintro declared name' (same | ⟨_, _, no, _⟩)
      · cases same
        exact declared
      · cases no
    · exact fun h => h name (.inl rfl)
  | allowedTools required allowed =>
    rw [validateToolChoice, forM_eq_ok]
    constructor
    · rintro declared name (no | ⟨_, _, same, tool, mem, custom, rfl⟩)
      · cases no
      · cases same
        have ok := declared tool mem
        rw [if_pos custom] at ok
        exact validateCustomSelector_ok.1 ok
    · intro h tool mem
      by_cases custom : tool.type_.text = utf8 "custom"
      · rw [if_pos custom]
        exact validateCustomSelector_ok.2 (h tool.name (.inr ⟨required, allowed, rfl, tool, mem, custom, rfl⟩))
      · rw [if_neg custom]
  | _ =>
    simp only [validateToolChoice, true_iff]
    rintro name (no | ⟨_, _, no, _⟩) <;> cases no

/-- Resolving a choice rewrites a namespace member only. -/
theorem choiceDeclared_resolve {map : Option NamespaceMap} {choice : Option ToolChoice} :
    ChoiceDeclared tools (resolveToolChoice map choice) ↔ ChoiceDeclared tools (choice.getD .auto) := by
  have free («namespace» : Option Text) (name : NonEmptyToolName) : ChoiceDeclared tools (.function «namespace» name) := by
    rintro _ (no | ⟨_, _, no, _⟩) <;> cases no
  unfold resolveToolChoice
  split
  · rename_i map' «namespace» name chosen
    rw [chosen]
    refine ⟨fun _ => free _ _, fun _ => ?_⟩
    split
    · split
      · exact free _ _
      · exact free _ _
    · exact free _ _
  · exact Iff.rfl

theorem custom_annotate {param : CustomToolParam} :
    ResponsesTool.custom param ∈ tools.map (·.annotate services init) ↔ ResponsesTool.custom param ∈ tools := by
  rw [List.mem_map]
  constructor
  · rintro ⟨tool, mem, same⟩
    rcases @annotate_cases services init tool with ⟨_, _, _, noted⟩ | ⟨_, noted⟩
    · rw [noted] at same
      cases same
    · rw [← same, noted]
      exact mem
  · exact fun mem => ⟨_, mem, noted_other (fun _ no => nomatch no)⟩

/-- **When the upstream request is built**, and with which names. -/
theorem upstream_ok :
    (∃ upstream, toUpstreamTools (tools.map (·.annotate services init)) choice = .ok upstream ∧
      names = (upstream.tools.getD []).map (·.name)) ↔
      Unambiguous tools ∧ (∀ tool ∈ tools, tool.validate = .ok ()) ∧ ChoiceDeclared tools (choice.getD .auto) ∧
        names = tools.flatMap (·.sent services init) := by
  have valid : ((tools.map (·.annotate services init)).map ResponsesTool.flatten).forM ResponsesTool.validate = .ok () ↔
      ∀ tool ∈ tools, tool.validate = .ok () := by
    rw [forM_eq_ok, List.map_map, List.forall_mem_map]
    simp only [Function.comp_apply, validate_annotate]
  have declared (choice : ToolChoice) : ChoiceDeclared (tools.map (·.annotate services init)) choice ↔ ChoiceDeclared tools choice := by
    unfold ChoiceDeclared
    simp only [custom_annotate]
  have sent (functions : List FunctionTool) : ((if functions.isEmpty then none else some functions).getD []) = functions := by
    cases functions <;> rfl
  have named : (((tools.map (·.annotate services init)).map ResponsesTool.flatten).flatMap ResponsesTool.toFunctionTools).map (·.name) =
      tools.flatMap (·.sent services init) := by
    rw [List.map_map, List.flatMap_map, List.map_flatMap]
    rfl
  unfold toUpstreamTools
  constructor
  · rintro ⟨upstream, ok, rfl⟩
    obtain ⟨renamed, resolves, ok⟩ := bind_eq_ok.1 ok
    obtain ⟨unambiguous, rfl⟩ := resolveNamespaceMembers_ok.1 resolves
    obtain ⟨_, checks, ok⟩ := bind_eq_ok.1 ok
    obtain ⟨map, _, ok⟩ := bind_eq_ok.1 ok
    obtain ⟨_, chosen, same⟩ := bind_eq_ok.1 ok
    rw [validateToolChoice_ok, declared, choiceDeclared_resolve] at chosen
    cases pure_eq_ok.1 same
    refine ⟨unambiguous_annotate.1 unambiguous, valid.1 checks, chosen, ?_⟩
    rw [sent, named]
  · rintro ⟨unambiguous, checks, chosen, rfl⟩
    have unambiguous' : Unambiguous (tools.map (·.annotate services init)) := unambiguous_annotate.2 unambiguous
    obtain ⟨map, mapped⟩ := buildNamespaceMap_isOk.2 unambiguous'
    have chosen' : validateToolChoice (tools.map (·.annotate services init)) (resolveToolChoice (some map) choice) = .ok () := by
      rw [validateToolChoice_ok, declared, choiceDeclared_resolve]
      exact chosen
    refine ⟨_, bind_eq_ok.2 ⟨_, resolveNamespaceMembers_ok.2 ⟨unambiguous', rfl⟩, bind_eq_ok.2 ⟨_, valid.2 checks,
      bind_eq_ok.2 ⟨_, mapped, bind_eq_ok.2 ⟨_, chosen', rfl⟩⟩⟩⟩, ?_⟩
    dsimp only
    rw [sent, named]

end
end AgenticStack.Tools
