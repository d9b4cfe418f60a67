import AgenticStack.Executor.Session
import AgenticStack.Tool.McpListings
import AgenticStack.Tool.Passes
import AgenticStack.Tool.SearchAccepted

/-!
# Preparing the tools of a turn

Tool search replaces the history and the tools of a request by what the model is
shown of them, and the registry is built from these tools. The listing records
of the history are left where they are, and every declared server adds the
listing of this turn under its label.
-/

namespace AgenticStack.Tools
set_option autoImplicit false
open Library

/-- The name a function is called by, which may be a member of a namespace. -/
def chosenName («namespace» : Option Text) (name : Text) : Text :=
  («namespace».map fun «namespace» => modelVisibleNamespaceMemberName «namespace» name).getD name

/-- Whether a choice names a function that is not loaded yet. -/
def targetsWithheld (withheld_function_names : Finset Text) : Option ToolChoice → Bool
  | some (.function «namespace» name) => chosenName «namespace» name.text ∈ withheld_function_names
  | some (.allowedTools _ tools) => tools.any fun tool =>
    tool.type_.text = utf8 "function" ∧ tool.name.text ∈ withheld_function_names
  | _ => false

/-- Refuses such a choice. -/
def validateEffectiveToolChoice (tool_choice : Option ToolChoice) (withheld_function_names : Finset Text) : Except ToolError Unit :=
  if targetsWithheld withheld_function_names tool_choice then
    .error (.config "tool_choice targets a function before its definition is loaded")
  else .ok ()

/-- The request as the model is shown it, and what is kept of the state. -/
def ToolSearchState.prepareInferenceRequest (self : ToolSearchState) (request : RequestPayload) :
    Except ToolError (RequestPayload × ToolSearchState) := do
  validateEffectiveToolChoice request.tool_choice self.withheld_function_names
  match self.private_upstream_input with
  | none => throw (.config "tool-search private inference input has already been consumed")
  | some input =>
    return ({ request with input, tools := self.private_upstream_tools },
      { self with private_upstream_input := none, private_upstream_tools := none })

/-- `ToolSearchHandler::prepare_request`. -/
def prepareRequest (readTool : Json → ResponsesTool) (request : RequestPayload) (restored_loaded_tools : List ResponsesTool)
    (restore_only_declared : Bool) : Except ToolError (RequestPayload × Option ToolSearchState) := do
  let state ← buildWithLoadedTools readTool request restored_loaded_tools restore_only_declared
  if !state.isActive then return (request, none)
  let (request, state) ← state.prepareInferenceRequest request
  return (request, some state)

def BuiltRegistry.default : BuiltRegistry := ⟨[], none, [], []⟩

/-- Refuses a registry that holds a withheld name, or a search the request cannot make. -/
def BuiltRegistry.validateToolAvailability (self : BuiltRegistry) (withheld_function_names : Finset Text)
    (requires_tool_search : Bool) : Except ToolError Unit :=
  if self.entries.any fun entry => entry.1 ∈ withheld_function_names then
    .error (.config "a loaded tool collides with a withheld function name")
  else if !requires_tool_search then .ok ()
  else match self.entries.lookup TOOL_SEARCH_NAME with
    | none => .error (.config "prepared tool-search declaration is missing from the private registry")
    | some entry =>
      if entry.tool_type ≠ .toolSearch ∨ entry.ownership.isGateway then
        .error (.config "prepared tool-search declaration has invalid private registry ownership")
      else .ok ()

/-- The registry built from the effective tools. -/
def registryOf (services : RegistryServices) (executors : GatewayExecutors) (budget : Nat) : Option (List ResponsesTool) →
    Except ToolError BuiltRegistry
  | some tools => (buildWithHandlersGuarded services tools executors budget).map Prod.fst
  | none => .ok .default

def BuiltRegistry.checkState (self : BuiltRegistry) : Option ToolSearchState → Except ToolError Unit
  | some state => self.validateToolAvailability state.withheld_function_names state.synthetic_tool_search.isSome
  | none => .ok ()

/-- `build_tool_registry`, up to the listings of the history. -/
def buildToolRegistry (services : RegistryServices) (request : RequestPayload) (state : Option ToolSearchState)
    (executors : GatewayExecutors) (budget : Nat) : Except ToolError BuiltRegistry := do
  let registry ← registryOf services executors budget request.tools
  registry.checkState (state.filter ToolSearchState.isActive)
  return registry

/-- The listing of each declared server. -/
def BuiltRegistry.listings (self : BuiltRegistry) : AgenticStack.McpListings :=
  self.mcp_list_tools_items.foldl (fun entries server => entries.push server.1 server.2) []

/-- The registry, once it knows the listings of the history. -/
def BuiltRegistry.cacheListedMcpTools (sameTools : List McpListTool → List McpListTool → Bool) (self : BuiltRegistry)
    (input : ResponsesInput) : ToolRegistry :=
  ⟨self.entries, mcpListToolItems sameTools (AgenticStack.cacheListedMcpTools self.listings input)⟩

section
variable {readTool : Json → ResponsesTool} {request prepared : RequestPayload} {restored : List ResponsesTool}
  {restore_only_declared : Bool} {state : Option ToolSearchState} {items more : List InputItem} {list : McpListTools}

theorem listings_append : listings (items ++ more) = listings items ++ listings more := List.filterMap_append

theorem listings_of_unlisted (unlisted : ∀ item ∈ items, isMcpListTools item = false) : listings items = [] := by
  unfold listings
  rw [List.filterMap_eq_nil_iff]
  intro item mem
  have other := unlisted item mem
  cases item with
  | mcpListTools list => cases other
  | _ => rfl

theorem listings_filter : listings (items.filter isMcpListTools) = listings items := by
  induction items with
  | nil => rfl
  | cons item items ih =>
    cases item with
    | mcpListTools list =>
      show list :: listings (items.filter isMcpListTools) = list :: listings items
      rw [ih]
    | _ => exact ih

/-- The model is shown no listing record. -/
theorem listings_modelInput : listings (inputItems (ResponsesInput.modelInput (.items items))) = [] := by
  refine listings_of_unlisted ?_
  intro item mem
  obtain ⟨shown, visible, rfl⟩ := List.mem_map.1 mem
  obtain ⟨entry, kept, rfl⟩ := List.mem_map.1 visible
  have seen := (Bool.and_eq_true_iff.1 (List.mem_filter.1 kept).2).1
  cases item : entry.1 with
  | mcpListTools list =>
    rw [item] at seen
    cases seen
  | _ => rfl

theorem listings_activeInput {input : ResponsesInput} : listings (inputItems (activeInput input)) = listings (inputItems input) := by
  cases input with
  | text text => rfl
  | items items =>
    show listings (_ ++ items.filter isMcpListTools) = listings items
    rw [listings_append, listings_filter]
    have none := @listings_modelInput items
    exact congrArg (· ++ listings items) none

theorem listings_private : listings (items.flatMap (privateItem readTool)) = listings items := by
  induction items with
  | nil => rfl
  | cons item items ih =>
    rw [List.flatMap_cons, listings_append, ih]
    cases item <;> rfl

/-- **Preparing the tools leaves the listing records** of the history as they are. -/
theorem prepareRequest_listings (ran : prepareRequest readTool request restored restore_only_declared = .ok (prepared, state)) :
    listings (inputItems prepared.input) = listings (inputItems request.input) := by
  unfold prepareRequest at ran
  obtain ⟨searching, built, ran⟩ := bind_eq_ok.1 ran
  by_cases active : searching.isActive = true
  · rw [active, Bool.not_true, if_neg Bool.false_ne_true] at ran
    obtain ⟨next, replaced, ran⟩ := bind_eq_ok.1 ran
    cases ran
    unfold ToolSearchState.prepareInferenceRequest at replaced
    obtain ⟨_, -, replaced⟩ := bind_eq_ok.1 replaced
    obtain ⟨start, acc, final, private_input, steps⟩ := build_steps built active
    rw [steps.shown_input] at replaced
    cases replaced
    have history := steps.history
    show listings (inputItems private_input) = _
    rw [← @listings_activeInput request.input]
    cases input : activeInput request.input with
    | text text =>
      rw [input] at history
      cases history
      rfl
    | items items =>
      rw [input] at history
      obtain ⟨pass, run, ended⟩ := bind_eq_ok.1 history
      have projected := prepareItems_private run
      split at ended
      · cases ended
      · cases ended
        show listings pass.private_items = listings items
        rw [projected, List.nil_append, listings_private]
  · rw [Bool.not_eq_true] at active
    rw [active] at ran
    cases ran
    rfl

end

/-- The listings of servers declared under these labels; where discovery succeeded, a listing has the label without the
white space at its ends. -/
structure Lists (labels : List Text) (discovered : List (Text × McpListTools)) : Prop where
  labels : discovered.map Prod.fst = labels
  trimmed : ∀ server ∈ discovered, server.2.error = none → server.2.server_label = Engine.trim server.1

section
variable {services : RegistryServices} {self self' : BuildState} {tool : ResponsesTool} {tools annotated : List ResponsesTool}
  {noted : Option (List McpDiscoveredToolParam)} {ns : List (Option (List McpDiscoveredToolParam))} {bytes : Nat}
  {resolved : List (Text × ToolEntry)} {executors : GatewayExecutors} {budget : Nat} {built : BuiltRegistry}
  {request : RequestPayload} {state : Option ToolSearchState}

theorem Lists.nil : Lists [] [] := ⟨rfl, fun _ mem => absurd mem List.not_mem_nil⟩

theorem Lists.append {labels labels' : List Text} {discovered discovered' : List (Text × McpListTools)}
    (first : Lists labels discovered) (later : Lists labels' discovered') : Lists (labels ++ labels') (discovered ++ discovered') := by
  refine ⟨by rw [List.map_append, first.labels, later.labels], ?_⟩
  intro server mem
  rcases List.mem_append.1 mem with mem | mem
  · exact first.trimmed server mem
  · exact later.trimmed server mem

theorem consume_listings (ran : self.consume bytes = .ok self') : self'.mcp_list_tools_items = self.mcp_list_tools_items := by
  unfold BuildState.consume at ran
  split at ran
  · cases ran
    rfl
  · cases ran

theorem insertUnique_listings (ran : self.insertUnique resolved = .ok self') :
    self'.mcp_list_tools_items = self.mcp_list_tools_items := by
  obtain ⟨entries, -, ran⟩ := bind_eq_ok.1 ran
  cases ran
  rfl

theorem foldlM_listings {α : Type} {step : BuildState → α → Except ToolError BuildState} {xs : List α}
    (keeps : ∀ s x s', step s x = .ok s' → s'.mcp_list_tools_items = s.mcp_list_tools_items)
    (ran : xs.foldlM step self = .ok self') : self'.mcp_list_tools_items = self.mcp_list_tools_items := by
  induction xs generalizing self with
  | nil =>
    cases ran
    rfl
  | cons x xs ih =>
    rw [List.foldlM_cons] at ran
    obtain ⟨next, first, rest⟩ := bind_eq_ok.1 ran
    exact (ih rest).trans (keeps _ _ _ first)

/-- What one tool adds to the listings. -/
theorem addTool_lists (ran : self.addTool services tool = .ok (noted, self')) :
    ∃ added, self'.mcp_list_tools_items = self.mcp_list_tools_items ++ added ∧ Lists tool.serverLabel.toList added := by
  have other {label : Option Text} (unlabelled : label = none) (kept : self'.mcp_list_tools_items = self.mcp_list_tools_items) :
      ∃ added, self'.mcp_list_tools_items = self.mcp_list_tools_items ++ added ∧ Lists label.toList added :=
    ⟨[], by rw [kept, List.append_nil], unlabelled ▸ .nil⟩
  cases tool with
  | mcp param =>
    unfold BuildState.addTool at ran
    dsimp only at ran
    split at ran
    · rename_i error executors answer
      split at ran
      · cases ran
      · obtain ⟨recorded, failed, ran⟩ := bind_eq_ok.1 ran
        cases ran
        obtain ⟨consumed, ate, failed⟩ := bind_eq_ok.1 failed
        cases failed
        have before := consume_listings ate
        refine ⟨[(param.server_label, failedListToolsItem services param.server_label error)], ?_, rfl, ?_⟩
        · exact congrArg (· ++ _) before
        · intro server mem succeeded
          obtain rfl := List.mem_singleton.1 mem
          cases succeeded
    · rename_i handlers executors answer
      obtain ⟨recorded, done, ran⟩ := bind_eq_ok.1 ran
      cases ran
      unfold BuildState.recordDiscovered at done
      dsimp only at done
      split at done
      · obtain ⟨_, failed, -⟩ := bind_eq_ok.1 done
        exact absurd failed throw_ne_ok
      · obtain ⟨params, ate, done⟩ := bind_eq_ok.1 done
        obtain ⟨consumed, ate', done⟩ := bind_eq_ok.1 done
        have inserted := foldlM_listings (fun s handler s' ran => insertUnique_listings ran) done
        have before := (consume_listings ate').trans (foldlM_listings (fun s handler s' ran => consume_listings ran) ate)
        refine ⟨[(param.server_label, listToolsItem services param.server_label handlers)], ?_, rfl, ?_⟩
        · exact inserted.trans (congrArg (· ++ _) before)
        · intro server mem succeeded
          obtain rfl := List.mem_singleton.1 mem
          rfl
  | _ =>
    obtain ⟨inserted, here, ran⟩ := bind_eq_ok.1 ran
    cases ran
    exact other rfl (insertUnique_listings here)

theorem addTools_lists (ran : self.addTools services tools = .ok (ns, self')) :
    ∃ added, self'.mcp_list_tools_items = self.mcp_list_tools_items ++ added ∧
      Lists (tools.filterMap ResponsesTool.serverLabel) added := by
  induction tools generalizing self ns with
  | nil =>
    cases ran
    exact ⟨[], (List.append_nil _).symm, .nil⟩
  | cons tool tools ih =>
    rw [BuildState.addTools] at ran
    obtain ⟨⟨noted, next⟩, first, ran⟩ := bind_eq_ok.1 ran
    obtain ⟨⟨later, last⟩, rest, ran⟩ := bind_eq_ok.1 ran
    cases ran
    obtain ⟨added, kept, lists⟩ := addTool_lists first
    obtain ⟨added', kept', lists'⟩ := ih rest
    refine ⟨added ++ added', by rw [kept', kept, List.append_assoc], ?_⟩
    have labels : (tool :: tools).filterMap ResponsesTool.serverLabel =
        tool.serverLabel.toList ++ tools.filterMap ResponsesTool.serverLabel := by
      rw [List.filterMap_cons]
      cases tool.serverLabel <;> rfl
    rw [labels]
    exact lists.append lists'

/-- The registry has the listing of every declared server, and no label is declared twice. -/
theorem build_lists (ran : buildWithHandlersGuarded services tools executors budget = .ok (built, annotated)) :
    Lists (tools.filterMap ResponsesTool.serverLabel) built.mcp_list_tools_items ∧
      (tools.filterMap ResponsesTool.serverLabel).Nodup := by
  unfold buildWithHandlersGuarded at ran
  obtain ⟨resolved, resolves, ran⟩ := bind_eq_ok.1 ran
  obtain ⟨-, rfl⟩ := resolveNamespaceMembers_ok.1 resolves
  obtain ⟨_, labels, ran⟩ := bind_eq_ok.1 ran
  obtain ⟨_, -, ran⟩ := bind_eq_ok.1 ran
  obtain ⟨⟨ns, state⟩, adds, ran⟩ := bind_eq_ok.1 ran
  obtain ⟨map, -, same⟩ := bind_eq_ok.1 ran
  rw [pure_eq_ok, Prod.mk.injEq] at same
  obtain ⟨rfl, -⟩ := same
  obtain ⟨added, kept, lists⟩ := addTools_lists adds
  rw [filterMap_flatten] at lists
  rw [validateServerLabels_ok, filterMap_flatten] at labels
  refine ⟨?_, labels⟩
  have shown : state.mcp_list_tools_items = added := kept
  rw [← shown] at lists
  exact lists

def RequestPayload.serverLabels (request : RequestPayload) : List Text :=
  (request.tools.getD []).filterMap ResponsesTool.serverLabel

theorem buildToolRegistry_lists (ran : buildToolRegistry services request state executors budget = .ok built) :
    Lists request.serverLabels built.mcp_list_tools_items ∧ request.serverLabels.Nodup := by
  unfold buildToolRegistry at ran
  obtain ⟨registry, made, ran⟩ := bind_eq_ok.1 ran
  have same : registry = built := by
    obtain ⟨_, -, ran⟩ := bind_eq_ok.1 ran
    exact pure_eq_ok.1 ran
  subst same
  unfold RequestPayload.serverLabels
  cases declared : request.tools with
  | none =>
    rw [declared] at made
    cases made
    exact ⟨.nil, List.nodup_nil⟩
  | some tools =>
    rw [declared] at made
    obtain ⟨⟨made', annotated⟩, build, rfl⟩ := map_eq_ok.1 made
    exact build_lists build

/-- **The listings a turn shows**: of each declared server, unless the history has an equal successful one. -/
theorem cached_listings {sameTools : List McpListTool → List McpListTool → Bool} {input : ResponsesInput}
    (once : (built.mcp_list_tools_items.map Prod.fst).Nodup) :
    (built.cacheListedMcpTools sameTools input).mcp_list_tool_items =
      (built.mcp_list_tools_items.filter fun server => !listedBefore sameTools (inputItems input) server.1 server.2).map Prod.snd := by
  have records : AgenticStack.cacheListedMcpTools built.listings input =
      AgenticStack.cacheListedMcpTools built.listings (.items (inputItems input)) := by
    cases input <;> rfl
  unfold BuiltRegistry.cacheListedMcpTools
  rw [records]
  refine mcpListToolItems_eq ?_
  unfold discoverListings
  have valid : AgenticStack.validateServerLabels [] (built.mcp_list_tools_items.map Prod.fst) = .ok () :=
    AgenticStack.validateServerLabels_ok.2 ⟨once, fun label _ => List.not_mem_nil⟩
  rw [valid]
  rfl

end

end AgenticStack.Tools
