import AgenticStack.Tool.McpNames
import AgenticStack.Tool.Registering

/-!
# The tools of MCP servers that a request gets

Servers list their tools, the operator allows some of a configured server's, and
a request allows some of those. What is discovered of a configured server is kept
for all requests, what is discovered of a declared one for its request.
-/

namespace AgenticStack.Tools
set_option autoImplicit false
open Library

/-- What the servers answer at one time: whether they connect, and the tools they list. -/
structure McpListings where
  configured (server_label : Text) : Except ToolError (List McpTool)
  declared (param : McpToolParam) : Except ToolError (List McpTool)

/-- What the gateway is set up with: the labels of its servers, the tools it allows of them, and what a tool is
called through. -/
structure McpGateway where
  mcp_configs : List Text
  allowed_tools : Text → Option (List Text)
  binding : McpDiscoveredToolParam → GatewayBinding

def namesExhausted : ToolError := .execution "no name is left for an MCP tool"

namespace McpGateway
variable (gateway : McpGateway)

/-- Where the search for a name does not end nothing is discovered. -/
def discoveredToolHandlers (server_label : Text) (tools : List McpTool) (allowed_tools : Option (List Text)) :
    Except ToolError (List McpDiscoveredHandler) :=
  match discoveredTools server_label allowed_tools tools with
  | some params => .ok (params.map fun param => ⟨param, gateway.binding param⟩)
  | none => .error namesExhausted

def servers (listings : McpListings) : McpServers where
  configured server_label := (listings.configured server_label).bind fun tools =>
    gateway.discoveredToolHandlers server_label tools (gateway.allowed_tools server_label)
  declared param := (listings.declared param).bind fun tools =>
    gateway.discoveredToolHandlers param.label tools param.allowed_tools

/-- A declaration that is looked up, and what the servers answer then. -/
structure Call where
  param : McpToolParam
  listings : McpListings

/-- What other requests make of what is kept for all of them, and their lookups. Each has its own servers; one that
found nothing kept writes what it was answered, however late. -/
inductive Meanwhile (kept : List (Text × List McpDiscoveredHandler)) : List Call → List (Text × List McpDiscoveredHandler) → Prop where
  | none : Meanwhile kept [] kept
  | lookup {calls kept'} (mcp : List (Text × List McpDiscoveredHandler)) (call : Call) : Meanwhile kept calls kept' →
      Meanwhile kept (calls ++ [call]) (GatewayExecutors.mcpServerTools (gateway.servers call.listings)
        ⟨mcp, gateway.mcp_configs, kept'⟩ call.param).2.mcp_discovered
  | late {calls kept' discovered} (call : Call) : Meanwhile kept calls kept' → call.param.label ∈ gateway.mcp_configs →
      ((gateway.servers call.listings).configured call.param.label).bind (requireNonEmptyMcpHandlers call.param.label) =
        .ok discovered →
      Meanwhile kept (calls ++ [call]) (insertEntry kept' call.param.label discovered)

/-- The executors of a request, with the lookups of the request and those of all requests so far. -/
inductive Reaches : GatewayExecutors → List Call → List Call → Prop where
  | start : Reaches ⟨[], gateway.mcp_configs, []⟩ [] []
  | call {executors request all} (call : Call) : Reaches executors request all →
      Reaches (executors.mcpServerTools (gateway.servers call.listings) call.param).2 (request ++ [call]) (all ++ [call])
  /-- The next request. -/
  | next {executors request all} : Reaches executors request all → Reaches { executors with mcp := [] } [] all
  /-- Other requests look something up at the same time. -/
  | others {executors request all calls kept} : Reaches executors request all →
      gateway.Meanwhile executors.mcp_discovered calls kept →
      Reaches { executors with mcp_discovered := kept } request (all ++ calls)

/-- The tool is one that a list has and that `allowed_tools` allows. -/
structure Offers (tools : List McpTool) (allowed_tools : Option (List Text)) (d : McpDiscoveredToolParam) : Prop where
  listed : d.tool ∈ tools
  named : d.tool_name = d.tool.name
  allowed : ∀ allowed, allowed_tools = some allowed → d.tool_name ∈ allowed
  internal : IsInternalName d.internal_name

/-- Where a tool of a label comes from: the operator's server, within what the operator allows, or a server that the
request declares, within what that declaration allows. -/
def Provided (request all : List Call) (label : Text) (d : McpDiscoveredToolParam) : Prop :=
  (label ∈ gateway.mcp_configs ∧ ∃ call ∈ all, ∃ tools, call.listings.configured label = .ok tools ∧
    Offers tools (gateway.allowed_tools label) d) ∨
  (label ∉ gateway.mcp_configs ∧ ∃ call ∈ request, call.param.label = label ∧ ∃ tools,
    call.listings.declared call.param = .ok tools ∧ Offers tools call.param.allowed_tools d)

/-- A handler of the label, called as its tool is. -/
structure Handles (request all : List Call) (label : Text) (handler : McpDiscoveredHandler) : Prop where
  server : handler.param.server_label = label
  binding : handler.binding = gateway.binding handler.param
  provided : gateway.Provided request all label handler.param

/-- What the executors keep. -/
structure Keeps (executors : GatewayExecutors) (request all : List Call) : Prop where
  configs : executors.mcp_configs = gateway.mcp_configs
  declared : ∀ label handlers, executors.mcp.lookup label = some handlers →
    label ∉ gateway.mcp_configs ∧ ∀ handler ∈ handlers, gateway.Handles request all label handler
  discovered : ∀ label handlers, executors.mcp_discovered.lookup label = some handlers →
    label ∈ gateway.mcp_configs ∧ ∀ handler ∈ handlers, gateway.Handles request all label handler

end McpGateway

variable {gateway : McpGateway} {request request' all all' : List McpGateway.Call} {label server_label : Text}
  {d : McpDiscoveredToolParam} {handler : McpDiscoveredHandler} {handlers : List McpDiscoveredHandler}
  {executors : GatewayExecutors} {allowed_tools : Option (List Text)} {tools : List McpTool} {params : List McpDiscoveredToolParam}

theorem discoveredTools_offers (h : discoveredTools server_label allowed_tools tools = some params) (mem : d ∈ params) :
    d.server_label = server_label ∧ McpGateway.Offers tools allowed_tools d := by
  rw [discoveredTools, Option.map_eq_some_iff] at h
  obtain ⟨⟨named, used⟩, run, rfl⟩ := h
  have good (used : UsedNames) (tool : McpTool) (name : Text) (used' : UsedNames)
      (step : nameMcpTool server_label used tool = some (name, used')) : IsInternalName name := (internalMcpToolName_spec step).1
  obtain ⟨same, internal⟩ := nameAll_all good run
  obtain ⟨entry, here, rfl⟩ := List.mem_map.1 mem
  have kept : entry.1 ∈ named.map Prod.fst := List.mem_map_of_mem here
  rw [same, List.mem_filter] at kept
  refine ⟨rfl, kept.1, rfl, ?_, internal entry here⟩
  rintro allowed rfl
  exact List.contains_iff_mem.1 kept.2

/-- **The names of one server's tools** tell them apart. -/
theorem discoveredTools_apart (h : discoveredTools server_label allowed_tools tools = some params)
    {p q : McpDiscoveredToolParam} (mem : p ∈ params) (mem' : q ∈ params) (same : p.internal_name = q.internal_name) :
    p.tool_name = q.tool_name := by
  rw [discoveredTools, Option.map_eq_some_iff] at h
  obtain ⟨⟨named, used⟩, run, rfl⟩ := h
  obtain ⟨first, here, rfl⟩ := List.mem_map.1 mem
  obtain ⟨second, there, rfl⟩ := List.mem_map.1 mem'
  have owners := nameAll_apart nameMcpTool_gives run here there same
  exact congrArg Prod.snd owners

theorem discoveredToolHandlers_handles (h : gateway.discoveredToolHandlers server_label tools allowed_tools = .ok handlers)
    (mem : handler ∈ handlers) : handler.param.server_label = server_label ∧ handler.binding = gateway.binding handler.param ∧
      McpGateway.Offers tools allowed_tools handler.param := by
  rw [McpGateway.discoveredToolHandlers] at h
  cases found : discoveredTools server_label allowed_tools tools with
  | none =>
    rw [found] at h
    cases h
  | some params =>
    rw [found, Except.ok.injEq] at h
    subst h
    obtain ⟨param, here, rfl⟩ := List.mem_map.1 mem
    obtain ⟨server, offers⟩ := discoveredTools_offers found here
    exact ⟨server, rfl, offers⟩

namespace McpGateway

theorem Provided.mono (h : gateway.Provided request all label d) (more : request ⊆ request') (more' : all ⊆ all') :
    gateway.Provided request' all' label d := by
  rcases h with ⟨configured, call, mem, rest⟩ | ⟨unconfigured, call, mem, rest⟩
  · exact .inl ⟨configured, call, more' mem, rest⟩
  · exact .inr ⟨unconfigured, call, more mem, rest⟩

theorem Handles.mono (h : gateway.Handles request all label handler) (more : request ⊆ request') (more' : all ⊆ all') :
    gateway.Handles request' all' label handler := ⟨h.server, h.binding, h.provided.mono more more'⟩

/-- What a request is given for a declaration. -/
structure Given (gateway : McpGateway) (request all : List Call) (param : McpToolParam) (handler : McpDiscoveredHandler) : Prop
    extends gateway.Handles request all param.label handler where
  wanted : ∀ allowed, param.allowed_tools = some allowed → handler.param.tool_name ∈ allowed

theorem filterAllowed_given {param : McpToolParam} (handles : ∀ handler ∈ handlers, gateway.Handles request all param.label handler)
    (mem : handler ∈ filterAllowedMcpHandlers handlers param.allowed_tools) : gateway.Given request all param handler := by
  obtain ⟨here, wanted⟩ := List.mem_filter.1 mem
  refine ⟨handles handler here, fun allowed same => ?_⟩
  rw [same] at wanted
  exact List.contains_iff_mem.1 wanted

/-- What a server of the operator answers. -/
theorem answered_handles {call : Call} (configured : label ∈ gateway.mcp_configs) (mem : call ∈ all)
    (connects : ((gateway.servers call.listings).configured label).bind (requireNonEmptyMcpHandlers label) = .ok handlers) :
    ∀ handler ∈ handlers, gateway.Handles request all label handler := by
  intro handler here
  obtain ⟨answered, _⟩ := connects_ok.1 connects
  obtain ⟨tools, listed, made⟩ := bind_eq_ok.1 answered
  obtain ⟨server, binding, offers⟩ := discoveredToolHandlers_handles made here
  exact ⟨server, binding, .inl ⟨configured, call, mem, tools, listed, offers⟩⟩

/-- What is kept for all requests takes what a server of the operator answers. -/
theorem Keeps.insert {call : Call} {kept : List (Text × List McpDiscoveredHandler)}
    (h : gateway.Keeps executors request all) (configured : label ∈ gateway.mcp_configs)
    (mem : call ∈ all)
    (connects : ((gateway.servers call.listings).configured label).bind (requireNonEmptyMcpHandlers label) = .ok handlers)
    (inserted : kept = insertEntry executors.mcp_discovered label handlers) :
    gateway.Keeps { executors with mcp_discovered := kept } request all := by
  refine ⟨h.configs, h.declared, fun label' handlers' found => ?_⟩
  dsimp only at found
  rw [inserted] at found
  by_cases same : label' = label
  · subst same
    rw [lookup_insertEntry_self, Option.some.injEq] at found
    subst found
    exact ⟨configured, answered_handles configured mem connects⟩
  · rw [lookup_insertEntry_ne same] at found
    exact h.discovered label' handlers' found

theorem Keeps.mono (h : gateway.Keeps executors request all) (more : request ⊆ request') (more' : all ⊆ all') :
    gateway.Keeps executors request' all' := by
  refine ⟨h.configs, fun label handlers found => ?_, fun label handlers found => ?_⟩
  · obtain ⟨unconfigured, handles⟩ := h.declared label handlers found
    exact ⟨unconfigured, fun handler mem => (handles handler mem).mono more more'⟩
  · obtain ⟨configured, handles⟩ := h.discovered label handlers found
    exact ⟨configured, fun handler mem => (handles handler mem).mono more more'⟩

/-- **One lookup**: what it gives, and what the executors keep behind it. -/
theorem Keeps.call (h : gateway.Keeps executors request all) (call : Call) :
    gateway.Keeps (executors.mcpServerTools (gateway.servers call.listings) call.param).2 (request ++ [call]) (all ++ [call]) ∧
    ∀ handlers, (executors.mcpServerTools (gateway.servers call.listings) call.param).1 = .ok handlers →
      ∀ handler ∈ handlers, gateway.Given (request ++ [call]) (all ++ [call]) call.param handler := by
  have old : gateway.Keeps executors (request ++ [call]) (all ++ [call]) :=
    h.mono (List.subset_append_left _ _) (List.subset_append_left _ _)
  have last : call ∈ request ++ [call] := List.mem_append_right _ List.mem_cons_self
  have last' : call ∈ all ++ [call] := List.mem_append_right _ List.mem_cons_self
  have failed (error : ToolError) : gateway.Keeps executors (request ++ [call]) (all ++ [call]) ∧
      ∀ handlers, (Except.error error : Except ToolError (List McpDiscoveredHandler)) = .ok handlers →
        ∀ handler ∈ handlers, gateway.Given (request ++ [call]) (all ++ [call]) call.param handler :=
    ⟨old, fun _ no => nomatch no⟩
  unfold GatewayExecutors.mcpServerTools
  dsimp only
  split
  · exact failed _
  split
  · exact failed _
  split
  · exact failed _
  cases known : executors.mcp.lookup (Engine.trim call.param.server_label) with
  | some configured_handlers =>
    refine ⟨old, fun handlers given handler mem => ?_⟩
    obtain ⟨_, rfl⟩ := requireNonEmpty_ok.1 given
    exact filterAllowed_given (old.declared _ _ known).2 mem
  | none =>
    dsimp only
    split
    · rename_i configured
      rw [List.contains_iff_mem, h.configs] at configured
      unfold GatewayExecutors.configuredTools
      cases cached : executors.mcp_discovered.lookup (Engine.trim call.param.server_label) with
      | some discovered =>
        refine ⟨old, fun handlers given handler mem => ?_⟩
        obtain ⟨_, rfl⟩ := requireNonEmpty_ok.1 given
        exact filterAllowed_given (old.discovered _ _ cached).2 mem
      | none =>
        dsimp only
        cases connects : ((gateway.servers call.listings).configured (Engine.trim call.param.server_label)).bind
            (requireNonEmptyMcpHandlers (Engine.trim call.param.server_label)) with
        | error error => exact failed error
        | ok discovered =>
          refine ⟨old.insert configured last' connects rfl, fun handlers given handler mem => ?_⟩
          obtain ⟨_, rfl⟩ := requireNonEmpty_ok.1 given
          exact filterAllowed_given (answered_handles configured last' connects) mem
    · rename_i unconfigured
      rw [List.contains_iff_mem, h.configs] at unconfigured
      unfold GatewayExecutors.declaredTools
      cases connects : ((gateway.servers call.listings).declared call.param).bind
          (requireNonEmptyMcpHandlers (Engine.trim call.param.server_label)) with
      | error error => exact failed error
      | ok discovered =>
        obtain ⟨answered, _⟩ := connects_ok.1 connects
        obtain ⟨tools, listed, made⟩ := bind_eq_ok.1 answered
        have offered (handler : McpDiscoveredHandler) (mem : handler ∈ discovered) :
            gateway.Handles (request ++ [call]) (all ++ [call]) (Engine.trim call.param.server_label) handler ∧
              ∀ allowed, call.param.allowed_tools = some allowed → handler.param.tool_name ∈ allowed := by
          obtain ⟨server, binding, offers⟩ := discoveredToolHandlers_handles made mem
          exact ⟨⟨server, binding, .inr ⟨unconfigured, call, last, rfl, tools, listed, offers⟩⟩, offers.allowed⟩
        refine ⟨⟨old.configs, fun label handlers found => ?_, old.discovered⟩, fun handlers given handler mem => ?_⟩
        · dsimp only at found
          by_cases same : label = Engine.trim call.param.server_label
          · subst same
            rw [lookup_insertEntry_self, Option.some.injEq] at found
            subst found
            exact ⟨unconfigured, fun handler mem => (offered handler mem).1⟩
          · rw [lookup_insertEntry_ne same] at found
            exact old.declared label handlers found
        · cases given
          exact ⟨(offered handler mem).1, (offered handler mem).2⟩

/-- What is kept for all requests does not depend on what a request has declared, unless it has the label. -/
theorem discovered_of_mcp (servers : McpServers) (executors : GatewayExecutors) (mcp : List (Text × List McpDiscoveredHandler))
    (param : McpToolParam) :
    (GatewayExecutors.mcpServerTools servers { executors with mcp } param).2.mcp_discovered = executors.mcp_discovered ∨
    (GatewayExecutors.mcpServerTools servers { executors with mcp } param).2.mcp_discovered =
      (GatewayExecutors.mcpServerTools servers { executors with mcp := [] } param).2.mcp_discovered := by
  unfold GatewayExecutors.mcpServerTools
  dsimp only
  cases known : mcp.lookup (Engine.trim param.server_label) with
  | some configured_handlers =>
    left
    split
    · rfl
    split
    · rfl
    split
    · rfl
    · rfl
  | none =>
    right
    rw [List.lookup_nil]
    dsimp only
    split
    · rfl
    split
    · rfl
    split
    · rfl
    split
    · unfold GatewayExecutors.configuredTools
      dsimp only
      cases executors.mcp_discovered.lookup (Engine.trim param.server_label) with
      | some discovered => rfl
      | none =>
        dsimp only
        cases (servers.configured (Engine.trim param.server_label)).bind (requireNonEmptyMcpHandlers (Engine.trim param.server_label)) <;>
          rfl
    · unfold GatewayExecutors.declaredTools
      cases (servers.declared param).bind (requireNonEmptyMcpHandlers (Engine.trim param.server_label)) <;> rfl

/-- What is kept for all requests comes from servers of the operator. -/
theorem Keeps.operator (h : gateway.Keeps executors request all) (found : executors.mcp_discovered.lookup label = some handlers)
    (request' : List Call) : label ∈ gateway.mcp_configs ∧ ∀ handler ∈ handlers, gateway.Handles request' all label handler := by
  obtain ⟨configured, handles⟩ := h.discovered label handlers found
  refine ⟨configured, fun handler mem => ?_⟩
  obtain ⟨server, binding, operator | ⟨unconfigured, _⟩⟩ := handles handler mem
  · exact ⟨server, binding, .inl operator⟩
  · exact absurd configured unconfigured

theorem Keeps.next (h : gateway.Keeps executors request all) : gateway.Keeps { executors with mcp := [] } [] all :=
  ⟨h.configs, fun _ _ no => (nomatch no), fun _ _ found => h.operator found []⟩

/-- **Whatever other requests look up**, only what may be is kept for all of them. -/
theorem Meanwhile.keeps {kept kept' : List (Text × List McpDiscoveredHandler)} {calls : List Call}
    (meanwhile : gateway.Meanwhile kept calls kept') (h : gateway.Keeps executors request all)
    (same : executors.mcp_discovered = kept) :
    gateway.Keeps { executors with mcp_discovered := kept' } request (all ++ calls) := by
  induction meanwhile with
  | none =>
    rw [List.append_nil, ← same]
    exact h
  | @lookup calls kept' mcp call _ ih =>
    have more' : all ++ calls ⊆ all ++ (calls ++ [call]) := by
      rw [← List.append_assoc]
      exact List.subset_append_left _ _
    refine ⟨h.configs, (ih.mono (List.Subset.refl _) more').declared, fun label handlers found => ?_⟩
    have looked := discovered_of_mcp (gateway.servers call.listings) ⟨[], gateway.mcp_configs, kept'⟩ mcp call.param
    dsimp only at found looked
    rcases looked with unchanged | looked
    · rw [unchanged] at found
      exact (ih.mono (List.Subset.refl _) more').discovered label handlers found
    · rw [looked] at found
      have fresh : gateway.Keeps ⟨[], gateway.mcp_configs, kept'⟩ [] (all ++ calls) := by
        have next := ih.next
        rwa [h.configs] at next
      rw [← List.append_assoc]
      exact (fresh.call call).1.operator found request
  | @late calls kept' discovered call _ configured connects ih =>
    have more' : all ++ calls ⊆ all ++ (calls ++ [call]) := by
      rw [← List.append_assoc]
      exact List.subset_append_left _ _
    have last : call ∈ all ++ (calls ++ [call]) := by
      rw [← List.append_assoc]
      exact List.mem_append_right _ List.mem_cons_self
    exact (ih.mono (List.Subset.refl _) more').insert configured last connects rfl

/-- **Every state of the executors** keeps only what it may. -/
theorem Reaches.keeps (reaches : gateway.Reaches executors request all) : gateway.Keeps executors request all := by
  induction reaches with
  | start => exact ⟨rfl, fun _ _ no => (nomatch no), fun _ _ no => (nomatch no)⟩
  | call call _ ih => exact (ih.call call).1
  | next _ ih => exact ih.next
  | others _ meanwhile ih => exact meanwhile.keeps ih rfl

end McpGateway

end AgenticStack.Tools
