import AgenticStack.Tool.McpDiscovery
import AgenticStack.Tool.UpstreamNames

/-!
# The MCP tools of an accepted request

When the registry of a request is built, the name of every discovered tool leads
to that tool, no two tools share one, and the tools are those that the servers
list, the operator allows and the declarations want.
-/

namespace AgenticStack.Tools
set_option autoImplicit false
open Library

/-- The declaration of a server that is looked up. -/
def ResponsesTool.asked (listings : McpListings) : ResponsesTool → Option McpGateway.Call
  | .mcp param => some ⟨param, listings⟩
  | _ => none

/-- The tools of a request are added one after another, each with what the servers answer at its time, and before each
of them other requests have looked up what they want. `asked` are the lookups of the request, `calls` those of all. -/
inductive McpGateway.Adds (gateway : McpGateway) (services : RegistryServices) : BuildState → List ResponsesTool →
    List (Option (List McpDiscoveredToolParam)) → BuildState → List McpGateway.Call → List McpGateway.Call → Prop where
  | nil {self} : Adds gateway services self [] [] self [] []
  | cons {self self₁ self' tool tools n ns kept others asked calls} (listings : McpListings) :
      gateway.Meanwhile self.executors.mcp_discovered others kept →
      BuildState.addTool { services with servers := gateway.servers listings }
        { self with executors := { self.executors with mcp_discovered := kept } } tool = .ok (n, self₁) →
      Adds gateway services self₁ tools ns self' asked calls →
      Adds gateway services self (tool :: tools) (n :: ns) self' ((tool.asked listings).toList ++ asked)
        (others ++ (tool.asked listings).toList ++ calls)

/-- `build_with_handlers_guarded` with other requests beside it. -/
def McpGateway.Builds (gateway : McpGateway) (services : RegistryServices) (tools : List ResponsesTool) (executors : GatewayExecutors)
    (budget : Nat) (asked calls : List McpGateway.Call) (registry : BuiltRegistry) (annotated : List ResponsesTool) : Prop :=
  ∃ resolved ns state namespace_map, resolveNamespaceMembers tools = .ok resolved ∧ validateServerLabels resolved = .ok () ∧
    validateMcpServerCount resolved = .ok () ∧
    gateway.Adds services ⟨[], [], 0, budget, executors⟩ resolved ns state asked calls ∧
    annotated = tools.zipWith ResponsesTool.noteDiscovered ns ∧
    buildNamespaceMap (if annotated.isEmpty then none else some annotated) = .ok namespace_map ∧
    registry = ⟨state.entries, namespace_map, customToolMap annotated, state.mcp_list_tools_items⟩

/-- What is noted on the declarations. -/
def allNoted (ns : List (Option (List McpDiscoveredToolParam))) : List McpDiscoveredToolParam := ns.flatMap (·.getD [])

section
variable {gateway : McpGateway} {listings : McpListings} {services : RegistryServices} {self self' : BuildState}
  {request all asked calls : List McpGateway.Call} {tool : ResponsesTool} {tools : List ResponsesTool}
  {ns : List (Option (List McpDiscoveredToolParam))} {n : Option (List McpDiscoveredToolParam)}

/-- What one tool adds, and where what is noted on it comes from. -/
structure Exposes (gateway : McpGateway) (start state : BuildState) (request all : List McpGateway.Call)
    (noted : List (ResponsesTool × Option (List McpDiscoveredToolParam))) (handlers : List McpDiscoveredHandler) : Prop where
  once : (state.entries.map Prod.fst).Nodup
  keeps : gateway.Keeps state.executors request all
  added : ∃ more, state.entries = start.entries ++ more ∧ (handlers.map discoveredMcpEntry).Sublist more
  params : handlers.map (·.param) = allNoted (noted.map Prod.snd)
  given : ∀ entry ∈ noted, ∀ params, entry.2 = some params → ∃ param, entry.1 = .mcp param ∧
    ∀ d ∈ params, ∃ handler ∈ handlers, handler.param = d ∧ gateway.Given request all param handler

theorem insertUnique_adds {resolved : List (Text × ToolEntry)} (once : (self.entries.map Prod.fst).Nodup)
    (h : self.insertUnique resolved = .ok self') :
    (self'.entries.map Prod.fst).Nodup ∧ self'.entries = self.entries ++ resolved ∧ self'.executors = self.executors := by
  obtain ⟨nodup, rfl⟩ := (insertUnique_ok once).1 h
  exact ⟨nodup, rfl, rfl⟩

theorem addTool_exposes (h : self.addTool services tool = .ok (n, self')) (servers : services.servers = gateway.servers listings)
    (keeps : gateway.Keeps self.executors request all) (once : (self.entries.map Prod.fst).Nodup) :
    ∃ handlers, Exposes gateway self self' (request ++ (tool.asked listings).toList) (all ++ (tool.asked listings).toList)
      [(tool, n)] handlers := by
  have plain (unasked : tool.asked listings = none) (entries : List (Text × ToolEntry))
      (step : self.addTool services tool = (do
        let self ← self.insertUnique entries
        return (none, self))) :
      ∃ handlers, Exposes gateway self self' (request ++ (tool.asked listings).toList) (all ++ (tool.asked listings).toList)
        [(tool, n)] handlers := by
    rw [step, bind_eq_ok] at h
    obtain ⟨self₁, inserted, same⟩ := h
    rw [pure_eq_ok, Prod.mk.injEq] at same
    obtain ⟨rfl, rfl⟩ := same
    obtain ⟨nodup, entries_eq, executors_eq⟩ := insertUnique_adds once inserted
    rw [unasked, Option.toList_none, List.append_nil, List.append_nil]
    refine ⟨[], nodup, executors_eq ▸ keeps, ⟨entries, entries_eq, List.nil_sublist _⟩, rfl, ?_⟩
    intro entry mem params some_params
    cases List.mem_singleton.1 mem
    cases some_params
  cases tool with
  | mcp param =>
    have asked : ((ResponsesTool.mcp param).asked listings).toList = [⟨param, listings⟩] := rfl
    obtain ⟨keeps', given⟩ := keeps.call ⟨param, listings⟩
    rw [← servers] at keeps' given
    rw [asked]
    rw [BuildState.addTool] at h
    cases looked : self.executors.mcpServerTools services.servers param with
    | mk result executors =>
      rw [looked] at h keeps' given
      cases result with
      | error error =>
        dsimp only at h
        split at h
        · cases h
        · rw [bind_eq_ok] at h
          obtain ⟨self₁, failed, same⟩ := h
          rw [pure_eq_ok, Prod.mk.injEq] at same
          obtain ⟨rfl, rfl⟩ := same
          obtain ⟨_, rfl⟩ := recordFailed_ok.1 failed
          refine ⟨[], once, keeps', ⟨[], (List.append_nil _).symm, List.nil_sublist _⟩, rfl, ?_⟩
          intro entry mem params some_params
          cases List.mem_singleton.1 mem
          cases some_params
      | ok handlers =>
        dsimp only at h
        rw [bind_eq_ok] at h
        obtain ⟨self₁, recorded, same⟩ := h
        rw [pure_eq_ok, Prod.mk.injEq] at same
        obtain ⟨rfl, rfl⟩ := same
        have discovered := @recordDiscovered_ok services { self with executors } self₁ param handlers once
        obtain ⟨_, _, nodup, rfl⟩ := discovered.1 recorded
        refine ⟨handlers, nodup, keeps', ⟨_, rfl, List.Sublist.refl _⟩, ?_, ?_⟩
        · rw [allNoted, List.map_singleton, List.flatMap_singleton, Option.getD_some]
        · intro entry mem params some_params
          cases List.mem_singleton.1 mem
          cases some_params
          refine ⟨param, rfl, fun d mem => ?_⟩
          obtain ⟨handler, here, rfl⟩ := List.mem_map.1 mem
          exact ⟨handler, here, rfl, given handlers rfl handler here⟩
  | _ => exact plain rfl _ rfl

/-- Without other requests the tools are added by `add_tools`. -/
theorem addTools_adds (servers : services.servers = gateway.servers listings)
    (h : self.addTools services tools = .ok (ns, self')) :
    gateway.Adds services self tools ns self' (tools.filterMap (·.asked listings)) (tools.filterMap (·.asked listings)) := by
  induction tools generalizing self ns with
  | nil =>
    rw [BuildState.addTools, Except.ok.injEq, Prod.mk.injEq] at h
    obtain ⟨rfl, rfl⟩ := h
    exact .nil
  | cons tool tools ih =>
    rw [BuildState.addTools, bind_eq_ok] at h
    obtain ⟨⟨n, self₁⟩, first, h⟩ := h
    rw [bind_eq_ok] at h
    obtain ⟨⟨later, self₂⟩, rest, same⟩ := h
    rw [pure_eq_ok, Prod.mk.injEq] at same
    obtain ⟨rfl, rfl⟩ := same
    have asked : (tool :: tools).filterMap (·.asked listings) = (tool.asked listings).toList ++ tools.filterMap (·.asked listings) := by
      rw [List.filterMap_cons]
      cases tool.asked listings <;> rfl
    have same : { services with servers := gateway.servers listings } = services := by rw [← servers]
    rw [asked]
    exact .cons listings .none (same ▸ first) (ih rest)

/-- **What the tools add**, one after another, whatever other requests look up meanwhile. -/
theorem adds_exposes (adds : gateway.Adds services self tools ns self' asked calls)
    (keeps : gateway.Keeps self.executors request all) (once : (self.entries.map Prod.fst).Nodup) :
    ∃ handlers, Exposes gateway self self' (request ++ asked) (all ++ calls) (tools.zip ns) handlers := by
  induction adds generalizing request all with
  | nil =>
    rw [List.append_nil, List.append_nil]
    exact ⟨[], once, keeps, ⟨[], (List.append_nil _).symm, List.nil_sublist _⟩, rfl, fun _ no => absurd no List.not_mem_nil⟩
  | @cons self self₁ self' tool tools n ns kept others asked calls listings meanwhile first _ ih =>
    obtain ⟨handlers, one⟩ := addTool_exposes first rfl (meanwhile.keeps keeps rfl) once
    obtain ⟨handlers', others⟩ := ih one.keeps one.once
    rw [← List.append_assoc, ← List.append_assoc, ← List.append_assoc]
    refine ⟨handlers ++ handlers', others.once, others.keeps, ?_, ?_, ?_⟩
    · obtain ⟨more, entries, within⟩ := one.added
      obtain ⟨more', entries', within'⟩ := others.added
      refine ⟨more ++ more', by rw [entries', entries, List.append_assoc], ?_⟩
      rw [List.map_append]
      exact within.append within'
    · have first_noted : allNoted ([(tool, n)].map Prod.snd) = n.getD [] := List.flatMap_singleton ..
      rw [List.map_append, one.params, others.params, first_noted]
      rfl
    · intro entry mem params some_params
      rcases List.mem_cons.1 mem with rfl | mem
      · obtain ⟨param, same, given⟩ := one.given (tool, n) List.mem_cons_self params some_params
        refine ⟨param, same, fun d here => ?_⟩
        obtain ⟨handler, there, named, from_server⟩ := given d here
        refine ⟨handler, List.mem_append_left _ there, named, ⟨from_server.toHandles.mono ?_ ?_, from_server.wanted⟩⟩
        · exact List.subset_append_left _ _
        · exact List.subset_append_left _ _
      · obtain ⟨param, same, given⟩ := others.given entry mem params some_params
        refine ⟨param, same, fun d here => ?_⟩
        obtain ⟨handler, there, rest⟩ := given d here
        exact ⟨handler, List.mem_append_right _ there, rest⟩

/-- The names of all handlers tell them apart. -/
theorem Exposes.apart {noted : List (ResponsesTool × Option (List McpDiscoveredToolParam))} {handlers : List McpDiscoveredHandler}
    (h : Exposes gateway self self' request all noted handlers) {first second : McpDiscoveredHandler} (mem : first ∈ handlers)
    (mem' : second ∈ handlers) (same : first.param.internal_name = second.param.internal_name) : first = second := by
  obtain ⟨more, entries, within⟩ := h.added
  have keys : (handlers.map fun handler => handler.param.internal_name).Nodup := by
    have once := h.once
    rw [entries, List.map_append] at once
    have inner : ((handlers.map discoveredMcpEntry).map Prod.fst).Nodup := (within.map Prod.fst).nodup once.of_append_right
    rwa [List.map_map] at inner
  exact List.inj_on_of_nodup_map keys mem mem' same

theorem Exposes.lookup {noted : List (ResponsesTool × Option (List McpDiscoveredToolParam))} {handlers : List McpDiscoveredHandler}
    (h : Exposes gateway self self' request all noted handlers) {handler : McpDiscoveredHandler} (mem : handler ∈ handlers) :
    self'.entries.lookup handler.param.internal_name = some (gatewayEntry .mcp rfl (some handler.binding)) := by
  obtain ⟨more, entries, within⟩ := h.added
  refine (mem_iff_lookup h.once).1 ?_
  rw [entries]
  exact List.mem_append_right _ (within.subset (List.mem_map_of_mem mem))

end

section
variable {gateway : McpGateway} {listings : McpListings} {services : RegistryServices} {executors : GatewayExecutors}
  {all asked calls : List McpGateway.Call} {tools annotated : List ResponsesTool} {registry : BuiltRegistry} {budget : Nat}

/-- A tool as an accepted request exposes it: under a name that the model interface takes and that leads to it, from
where it may come from, and wanted by its declaration. -/
structure ExposedTool (gateway : McpGateway) (registry : BuiltRegistry) (request all : List McpGateway.Call) (param : McpToolParam)
    (d : McpDiscoveredToolParam) : Prop where
  internal : IsInternalName d.internal_name
  leads : registry.entries.lookup d.internal_name = some (gatewayEntry .mcp rfl (some (gateway.binding d)))
  server : d.server_label = param.label
  provided : gateway.Provided request all param.label d
  wanted : ∀ allowed, param.allowed_tools = some allowed → d.tool_name ∈ allowed

theorem mem_zipWith_noted {param : McpToolParam} {ns : List (Option (List McpDiscoveredToolParam))}
    (mem : ResponsesTool.mcp param ∈ tools.zipWith ResponsesTool.noteDiscovered ns) :
    ∃ declared, ∃ n, (ResponsesTool.mcp declared, n) ∈ tools.zip ns ∧ param = { declared with
      discovered_tools := n.getD declared.discovered_tools } := by
  rw [← List.map_uncurry_zip_eq_zipWith] at mem
  obtain ⟨⟨tool, n⟩, here, same⟩ := List.mem_map.1 mem
  cases tool with
  | mcp declared =>
    refine ⟨declared, n, here, ?_⟩
    cases n <;> (cases same; rfl)
  | _ => cases same

/-- Without other requests the registry is built by `build_with_handlers_guarded`. -/
theorem built_builds (servers : services.servers = gateway.servers listings)
    (built : buildWithHandlersGuarded services tools executors budget = .ok (registry, annotated)) :
    gateway.Builds services tools executors budget (tools.filterMap (·.asked listings)) (tools.filterMap (·.asked listings))
      registry annotated := by
  unfold buildWithHandlersGuarded at built
  obtain ⟨resolved, resolves, built⟩ := bind_eq_ok.1 built
  obtain ⟨_, labels, built⟩ := bind_eq_ok.1 built
  obtain ⟨_, count, built⟩ := bind_eq_ok.1 built
  obtain ⟨⟨ns, state⟩, adds, built⟩ := bind_eq_ok.1 built
  obtain ⟨map, maps, same⟩ := bind_eq_ok.1 built
  rw [pure_eq_ok, Prod.mk.injEq] at same
  obtain ⟨rfl, rfl⟩ := same
  have asked : resolved.filterMap (·.asked listings) = tools.filterMap (·.asked listings) := by
    obtain ⟨_, rfl⟩ := resolveNamespaceMembers_ok.1 resolves
    rw [List.filterMap_map]
    refine congrArg (List.filterMap · tools) (funext fun tool => ?_)
    cases tool <;> rfl
  rw [← asked]
  exact ⟨resolved, ns, state, map, resolves, labels, count, addTools_adds servers adds, rfl, maps, rfl⟩

/-- What is exposed, whatever other requests look up meanwhile. -/
theorem builds_exposes (reaches : gateway.Reaches executors [] all)
    (undiscovered : ∀ param, .mcp param ∈ tools → param.discovered_tools = [])
    (builds : gateway.Builds services tools executors budget asked calls registry annotated) :
    (∀ param, .mcp param ∈ annotated → ∀ d ∈ param.discovered_tools, ExposedTool gateway registry asked (all ++ calls) param d) ∧
    ∀ param param', .mcp param ∈ annotated → .mcp param' ∈ annotated → ∀ d ∈ param.discovered_tools, ∀ d' ∈ param'.discovered_tools,
      d.internal_name = d'.internal_name → d = d' := by
  obtain ⟨resolved, ns, state, map, resolves, _, _, adds, rfl, _, rfl⟩ := builds
  obtain ⟨_, rfl⟩ := resolveNamespaceMembers_ok.1 resolves
  have once : (([] : List (Text × ToolEntry)).map Prod.fst).Nodup := List.nodup_nil
  obtain ⟨handlers, exposes⟩ := adds_exposes adds reaches.keeps once
  rw [List.nil_append] at exposes
  have from_handler {param : McpToolParam}
      (mem : .mcp param ∈ tools.zipWith ResponsesTool.noteDiscovered ns) {d : McpDiscoveredToolParam} (here : d ∈ param.discovered_tools) :
      ∃ handler ∈ handlers, handler.param = d ∧ gateway.Given asked (all ++ calls) param handler := by
    obtain ⟨declared, n, zipped, rfl⟩ := mem_zipWith_noted mem
    have flat : (ResponsesTool.mcp declared, n) ∈ (tools.map ResponsesTool.flatten).zip ns := by
      rw [List.zip_map_left]
      exact List.mem_map.2 ⟨_, zipped, rfl⟩
    cases n with
    | none =>
      rw [Option.getD_none, undiscovered declared (List.of_mem_zip zipped).1] at here
      cases here
    | some params =>
      obtain ⟨other, same, given⟩ := exposes.given _ flat params rfl
      cases same
      obtain ⟨handler, there, named, from_server⟩ := given d here
      exact ⟨handler, there, named, ⟨⟨from_server.server, from_server.binding, from_server.provided⟩, from_server.wanted⟩⟩
  refine ⟨fun param mem d here => ?_, fun param param' mem mem' d here d' here' same => ?_⟩
  · obtain ⟨handler, there, rfl, given⟩ := from_handler mem here
    refine ⟨?_, ?_, given.server, given.provided, given.wanted⟩
    · rcases given.provided with ⟨_, _, _, _, _, offers⟩ | ⟨_, _, _, _, _, _, offers⟩
      · exact offers.internal
      · exact offers.internal
    · rw [← given.binding]
      exact exposes.lookup there
  · obtain ⟨handler, there, rfl, _⟩ := from_handler mem here
    obtain ⟨handler', there', rfl, _⟩ := from_handler mem' here'
    rw [exposes.apart there there' same]

/-- **The MCP tools of a request**, whatever other requests look up before and meanwhile. -/
theorem mcpTools_exposed (reaches : gateway.Reaches executors [] all)
    (undiscovered : ∀ param, .mcp param ∈ tools → param.discovered_tools = []) :
    (∀ listings registry annotated, services.servers = gateway.servers listings →
      buildWithHandlersGuarded services tools executors budget = .ok (registry, annotated) →
      gateway.Builds services tools executors budget (tools.filterMap (·.asked listings)) (tools.filterMap (·.asked listings))
        registry annotated) ∧
    (∀ asked calls registry annotated, gateway.Builds services tools executors budget asked calls registry annotated →
      (∀ param, .mcp param ∈ annotated → ∀ d ∈ param.discovered_tools, ExposedTool gateway registry asked (all ++ calls) param d) ∧
      ∀ param param', .mcp param ∈ annotated → .mcp param' ∈ annotated → ∀ d ∈ param.discovered_tools, ∀ d' ∈ param'.discovered_tools,
        d.internal_name = d'.internal_name → d = d') ∧
    ∀ server_label allowed_tools listed params, discoveredTools server_label allowed_tools listed = some params →
      ∀ p ∈ params, IsInternalName p.internal_name ∧ ∀ q ∈ params, p.internal_name = q.internal_name → p.tool_name = q.tool_name := by
  refine ⟨fun listings registry annotated => built_builds, fun asked calls registry annotated => builds_exposes reaches undiscovered, ?_⟩
  intro server_label allowed_tools listed params found p mem
  exact ⟨(discoveredTools_offers found mem).2.internal, fun q mem' => discoveredTools_apart found mem mem'⟩

end

/-- Tools of two servers under one name: a registry takes only one of them. -/
theorem mcpNames_shared : ∃ p q : McpDiscoveredToolParam, discoveredTools "a" none [⟨"b__c", none, [], none⟩] = some [p] ∧
    discoveredTools "a__b" none [⟨"c", none, [], none⟩] = some [q] ∧ p.internal_name = q.internal_name ∧
    (p.server_label, p.tool_name) ≠ (q.server_label, q.tool_name) := ⟨_, _, rfl, rfl, by decide +kernel, by decide⟩

/-- Both servers answer. -/
def searchListings : McpListings :=
  ⟨fun _ => .ok [⟨"search", none, [], none⟩, ⟨"delete", none, [], none⟩, ⟨"read page", none, [], none⟩],
    fun _ => .ok [⟨"read page", none, [], none⟩, ⟨"read_page", none, [], none⟩]⟩

/-- The operator allows two of the three tools of its server. -/
def docsGateway : McpGateway :=
  ⟨["docs"], fun label => if label = utf8 "docs" then some ["search", "read page"] else none, fun _ => unreachable⟩

/-- The request wants one of these two, and one that the operator does not allow. -/
def docsParam : McpToolParam := ⟨"docs", none, none, none, none, some ["search", "delete"], none, none, []⟩

def wikiParam : McpToolParam := ⟨"wiki", some "http://localhost", none, none, none, none, some "never", none, []⟩

def docsServices : RegistryServices := { oneToolServices with servers := docsGateway.servers searchListings }

/-- An earlier request has looked up the server of the operator. -/
def docsExecutors : GatewayExecutors :=
  { (GatewayExecutors.mcpServerTools docsServices.servers ⟨[], ["docs"], []⟩ docsParam).2 with mcp := [] }

/-- The tools a declaration was given. -/
def toolsGiven : ResponsesTool → List Text
  | .mcp param => param.discovered_tools.map (·.tool_name)
  | _ => []

/-- Meanwhile another request finds only one tool there. -/
def otherCall : McpGateway.Call := ⟨docsParam, ⟨fun _ => .ok [⟨"search", none, [], none⟩], fun _ => .error namesExhausted⟩⟩

set_option maxRecDepth 2000 in
theorem mcpTools_exposed_docs : ∃ registry annotated,
    docsGateway.Builds docsServices [.mcp docsParam, .mcp wikiParam] docsExecutors 1048576
      [⟨docsParam, searchListings⟩, ⟨wikiParam, searchListings⟩] [⟨docsParam, searchListings⟩, ⟨wikiParam, searchListings⟩]
      registry annotated ∧
    docsGateway.Builds docsServices [.mcp docsParam, .mcp wikiParam] docsExecutors 1048576
      [⟨docsParam, searchListings⟩, ⟨wikiParam, searchListings⟩]
      [⟨docsParam, searchListings⟩, otherCall, ⟨wikiParam, searchListings⟩] registry annotated ∧
    annotated.map toolsGiven = [[utf8 "search"], [utf8 "read page", utf8 "read_page"]] ∧
    (∀ param, .mcp param ∈ annotated → ∀ d ∈ param.discovered_tools,
      ExposedTool docsGateway registry [⟨docsParam, searchListings⟩, ⟨wikiParam, searchListings⟩]
        [⟨docsParam, searchListings⟩, ⟨docsParam, searchListings⟩, otherCall, ⟨wikiParam, searchListings⟩] param d) ∧
    (∀ param param', .mcp param ∈ annotated → .mcp param' ∈ annotated → ∀ d ∈ param.discovered_tools, ∀ d' ∈ param'.discovered_tools,
      d.internal_name = d'.internal_name → d = d') ∧
    ∀ server_label allowed_tools listed params, discoveredTools server_label allowed_tools listed = some params →
      ∀ p ∈ params, IsInternalName p.internal_name ∧ ∀ q ∈ params, p.internal_name = q.internal_name → p.tool_name = q.tool_name := by
  have undiscovered (param : McpToolParam) (mem : .mcp param ∈ [ResponsesTool.mcp docsParam, .mcp wikiParam]) :
      param.discovered_tools = [] := by
    simp only [List.mem_cons, ResponsesTool.mcp.injEq, List.not_mem_nil, or_false] at mem
    rcases mem with rfl | rfl <;> rfl
  have earlier : docsGateway.Reaches docsExecutors [] [⟨docsParam, searchListings⟩] :=
    .next (.call ⟨docsParam, searchListings⟩ .start)
  obtain ⟨alone, exposed, names⟩ := @mcpTools_exposed docsGateway docsServices docsExecutors [⟨docsParam, searchListings⟩]
    [.mcp docsParam, .mcp wikiParam] 1048576 earlier undiscovered
  have beside : docsGateway.Builds docsServices [.mcp docsParam, .mcp wikiParam] docsExecutors 1048576
      [⟨docsParam, searchListings⟩, ⟨wikiParam, searchListings⟩]
      [⟨docsParam, searchListings⟩, otherCall, ⟨wikiParam, searchListings⟩] _ _ :=
    ⟨_, _, _, _, rfl, rfl, rfl, .cons searchListings .none rfl
      (.cons searchListings (.late otherCall .none (by decide) rfl) rfl .nil), rfl, rfl, rfl⟩
  obtain ⟨tools, apart⟩ := exposed _ _ _ _ beside
  exact ⟨_, _, alone searchListings _ _ rfl rfl, beside, by decide +kernel, tools, apart, names⟩

end AgenticStack.Tools
