import AgenticStack.Tool.Servers

/-!
# What a registry is built of

What each tool adds to the registry, told by the tool and the executors the
request began with. A list of tools can be registered when the tools fit
together, and this does not ask for their order.
-/

namespace AgenticStack.Tools
set_option autoImplicit false
open Library

section
variable {entries entries' resolved : List (Text × ToolEntry)}

/-- **What inserting takes**: names that nothing has, each once. -/
theorem insertUniqueToolEntries_ok (once : (entries.map Prod.fst).Nodup) :
    insertUniqueToolEntries entries resolved = .ok entries' ↔
      ((entries ++ resolved).map Prod.fst).Nodup ∧ entries' = entries ++ resolved := by
  induction resolved generalizing entries with
  | nil =>
    rw [insertUniqueToolEntries, List.append_nil, Except.ok.injEq]
    exact ⟨fun same => ⟨once, same.symm⟩, fun h => h.2.symm⟩
  | cons entry resolved ih =>
    obtain ⟨name, entry⟩ := entry
    rw [insertUniqueToolEntries]
    cases known : entries.lookup name with
    | some existing =>
      have taken : name ∈ entries.map Prod.fst := by
        by_contra absent
        rw [lookup_eq_none_iff_key.2 absent] at known
        cases known
      simp only [reduceCtorEq, false_iff, not_and]
      intro nodup
      rw [List.map_append, List.map_cons] at nodup
      exact absurd (List.mem_cons_self) ((List.disjoint_of_nodup_append nodup) taken)
    | none =>
      have absent : name ∉ entries.map Prod.fst := lookup_eq_none_iff_key.1 known
      have appended : insertEntry entries name entry = entries ++ [(name, entry)] := insertEntry_of_absent absent
      have once' : ((entries ++ [(name, entry)]).map Prod.fst).Nodup := by
        rw [← appended]
        exact nodup_insertEntry once
      dsimp only
      rw [appended, ih once', List.append_assoc, List.singleton_append]

end

section
variable {self self' : BuildState}

theorem insertUnique_ok (once : (self.entries.map Prod.fst).Nodup) {resolved : List (Text × ToolEntry)} :
    self.insertUnique resolved = .ok self' ↔
      ((self.entries ++ resolved).map Prod.fst).Nodup ∧ self' = { self with entries := self.entries ++ resolved } := by
  rw [BuildState.insertUnique, bind_eq_ok]
  constructor
  · rintro ⟨entries, ok, same⟩
    obtain ⟨nodup, rfl⟩ := (insertUniqueToolEntries_ok once).1 ok
    exact ⟨nodup, (pure_eq_ok.1 same).symm⟩
  · rintro ⟨nodup, rfl⟩
    exact ⟨_, (insertUniqueToolEntries_ok once).2 ⟨nodup, rfl⟩, rfl⟩

theorem consume_ok {bytes : Nat} :
    self.consume bytes = .ok self' ↔ bytes ≤ self.remaining ∧ self' = { self with remaining := self.remaining - bytes } := by
  unfold BuildState.consume
  split
  · rename_i within
    simp [within, eq_comm]
  · rename_i exceeds
    simp [exceeds]

theorem consumeAll_ok {services : RegistryServices} {handlers : List McpDiscoveredHandler} :
    handlers.foldlM (fun (self : BuildState) handler => self.consume (services.paramBytes handler.param)) self = .ok self' ↔
      (handlers.map fun handler => services.paramBytes handler.param).sum ≤ self.remaining ∧
        self' = { self with remaining := self.remaining - (handlers.map fun handler => services.paramBytes handler.param).sum } := by
  induction handlers generalizing self with
  | nil =>
    rw [List.foldlM_nil, pure_eq_ok, List.map_nil, List.sum_nil, Nat.sub_zero]
    exact ⟨fun same => ⟨Nat.zero_le _, same.symm⟩, fun h => h.2.symm⟩
  | cons handler handlers ih =>
    rw [List.foldlM_cons, bind_eq_ok, List.map_cons, List.sum_cons]
    constructor
    · rintro ⟨self₁, first, rest⟩
      obtain ⟨within, rfl⟩ := consume_ok.1 first
      obtain ⟨within', rfl⟩ := ih.1 rest
      dsimp only at within' ⊢
      refine ⟨by omega, ?_⟩
      rw [Nat.sub_sub]
    · rintro ⟨within, rfl⟩
      refine ⟨_, consume_ok.2 ⟨by omega, rfl⟩, ih.2 ⟨?_, ?_⟩⟩
      · dsimp only
        omega
      · rw [← Nat.sub_sub]

theorem insertAll_ok {handlers : List McpDiscoveredHandler} (once : (self.entries.map Prod.fst).Nodup) :
    handlers.foldlM (fun (self : BuildState) handler => self.insertUnique [discoveredMcpEntry handler]) self = .ok self' ↔
      ((self.entries ++ handlers.map discoveredMcpEntry).map Prod.fst).Nodup ∧
        self' = { self with entries := self.entries ++ handlers.map discoveredMcpEntry } := by
  induction handlers generalizing self with
  | nil =>
    rw [List.foldlM_nil, pure_eq_ok, List.map_nil, List.append_nil]
    exact ⟨fun same => ⟨once, same.symm⟩, fun h => h.2.symm⟩
  | cons handler handlers ih =>
    rw [List.foldlM_cons, bind_eq_ok, List.map_cons]
    constructor
    · rintro ⟨self₁, first, rest⟩
      obtain ⟨once₁, rfl⟩ := (insertUnique_ok once).1 first
      obtain ⟨nodup, rfl⟩ := (ih once₁).1 rest
      rw [List.append_assoc, List.singleton_append] at nodup
      refine ⟨nodup, ?_⟩
      rw [List.append_assoc, List.singleton_append]
    · rintro ⟨nodup, rfl⟩
      rw [← List.singleton_append, ← List.append_assoc] at nodup
      have once₁ : ((self.entries ++ [discoveredMcpEntry handler]).map Prod.fst).Nodup := by
        rw [List.map_append] at nodup
        exact nodup.of_append_left
      refine ⟨_, (insertUnique_ok once).2 ⟨once₁, rfl⟩, (ih once₁).2 ⟨nodup, ?_⟩⟩
      rw [List.append_assoc, List.singleton_append]

end

section
variable (services : RegistryServices) (init : GatewayExecutors)

/-- What the server of the declaration offers, if it is one and connects. -/
def ResponsesTool.discovered : ResponsesTool → Option (List McpDiscoveredHandler)
  | .mcp param => (init.mcpServerTools services.servers param).1.toOption
  | _ => none

def ResponsesTool.registered (tool : ResponsesTool) : List (Text × ToolEntry) :=
  match tool.discovered services init with
  | some handlers => handlers.map discoveredMcpEntry
  | none => tool.entries services

def ResponsesTool.noted (tool : ResponsesTool) : Option (List McpDiscoveredToolParam) :=
  (tool.discovered services init).map fun handlers => handlers.map (·.param)

def ResponsesTool.discoveredCount (tool : ResponsesTool) : Nat := ((tool.discovered services init).getD []).length

def ResponsesTool.listing : ResponsesTool → Option (Text × McpListTools)
  | .mcp param => match (init.mcpServerTools services.servers param).1 with
    | .ok handlers => some (param.server_label, listToolsItem services param.server_label handlers)
    | .error error => some (param.server_label, failedListToolsItem services param.server_label error)
  | _ => none

/-- What is read of MCP servers. -/
def ResponsesTool.bytes (tool : ResponsesTool) : Nat :=
  (((tool.discovered services init).getD []).map fun handler => services.paramBytes handler.param).sum +
    ((tool.listing services init).map fun item => services.listingBytes item.2).getD 0

/-- A server that cannot be reached is not a mistake of the request. -/
def ResponsesTool.Servable : ResponsesTool → Prop
  | .mcp param => ∀ error, (init.mcpServerTools services.servers param).1 = .error error → isConfig error = false
  | _ => True

/-- The executors behind a tool. -/
def GatewayExecutors.after (executors : GatewayExecutors) : ResponsesTool → GatewayExecutors
  | .mcp param => (executors.mcpServerTools services.servers param).2
  | _ => executors

/-- The state with what the tool adds. -/
def BuildState.added (self : BuildState) (tool : ResponsesTool) : BuildState where
  entries := self.entries ++ tool.registered services init
  mcp_list_tools_items := self.mcp_list_tools_items ++ (tool.listing services init).toList
  discovered_mcp_tools := self.discovered_mcp_tools + tool.discoveredCount services init
  remaining := self.remaining - tool.bytes services init
  executors := self.executors.after services tool

/-- The tools fit together, behind what is there. -/
structure BuildState.Fits (state : BuildState) (tools : List ResponsesTool) : Prop where
  servable : ∀ tool ∈ tools, tool.Servable services init
  few : state.discovered_mcp_tools + (tools.map (·.discoveredCount services init)).sum ≤ MAX_DISCOVERED_MCP_TOOLS_PER_REQUEST
  short : (tools.map (·.bytes services init)).sum ≤ state.remaining
  unique : ((state.entries ++ tools.flatMap (·.registered services init)).map Prod.fst).Nodup

/-- The executors give the tool what they gave at first. -/
def Serves (executors : GatewayExecutors) : ResponsesTool → Prop
  | .mcp param => AgreesAt services.servers init executors param.label
  | _ => True

/-- Two declarations of a label, of which one takes it. -/
def Shares (tool tool' : ResponsesTool) : Prop :=
  ∃ param param', tool = .mcp param ∧ tool' = .mcp param' ∧ param.label = param'.label ∧
    (Takes services.servers init param ∨ Takes services.servers init param')

end

section
variable {services : RegistryServices} {init : GatewayExecutors} {self self' : BuildState} {tool : ResponsesTool}
  {tools : List ResponsesTool} {n : Option (List McpDiscoveredToolParam)}

theorem Shares.symm {tool' : ResponsesTool} (h : Shares services init tool tool') : Shares services init tool' tool := by
  obtain ⟨param, param', rfl, rfl, same, takes⟩ := h
  exact ⟨param', param, rfl, rfl, same.symm, takes.symm⟩

theorem recordFailed_ok {param : McpToolParam} {error : ToolError} :
    self.recordFailed services param error = .ok self' ↔
      services.listingBytes (failedListToolsItem services param.server_label error) ≤ self.remaining ∧
      self' = { self with
        remaining := self.remaining - services.listingBytes (failedListToolsItem services param.server_label error)
        mcp_list_tools_items := self.mcp_list_tools_items ++
          [(param.server_label, failedListToolsItem services param.server_label error)] } := by
  rw [BuildState.recordFailed, bind_eq_ok]
  constructor
  · rintro ⟨self₁, ok, same⟩
    obtain ⟨within, rfl⟩ := consume_ok.1 ok
    exact ⟨within, (pure_eq_ok.1 same).symm⟩
  · rintro ⟨within, rfl⟩
    exact ⟨_, consume_ok.2 ⟨within, rfl⟩, rfl⟩

theorem recordDiscovered_ok {param : McpToolParam} {handlers : List McpDiscoveredHandler} (once : (self.entries.map Prod.fst).Nodup) :
    self.recordDiscovered services param handlers = .ok self' ↔
      self.discovered_mcp_tools + handlers.length ≤ MAX_DISCOVERED_MCP_TOOLS_PER_REQUEST ∧
      (handlers.map fun handler => services.paramBytes handler.param).sum +
        services.listingBytes (listToolsItem services param.server_label handlers) ≤ self.remaining ∧
      ((self.entries ++ handlers.map discoveredMcpEntry).map Prod.fst).Nodup ∧
      self' = { self with
        entries := self.entries ++ handlers.map discoveredMcpEntry
        discovered_mcp_tools := self.discovered_mcp_tools + handlers.length
        remaining := self.remaining - ((handlers.map fun handler => services.paramBytes handler.param).sum +
          services.listingBytes (listToolsItem services param.server_label handlers))
        mcp_list_tools_items := self.mcp_list_tools_items ++
          [(param.server_label, listToolsItem services param.server_label handlers)] } := by
  unfold BuildState.recordDiscovered
  dsimp only
  split
  · rename_i many
    constructor
    · intro ok
      obtain ⟨_, failed, _⟩ := bind_eq_ok.1 ok
      exact absurd failed throw_ne_ok
    · rintro ⟨few, _⟩
      omega
  · rename_i few
    rw [bind_eq_ok]
    constructor
    · rintro ⟨self₁, params, ok⟩
      obtain ⟨self₂, listing, ok⟩ := bind_eq_ok.1 ok
      obtain ⟨within, rfl⟩ := consumeAll_ok.1 params
      obtain ⟨within', rfl⟩ := consume_ok.1 listing
      obtain ⟨nodup, rfl⟩ := (insertAll_ok (by exact once)).1 ok
      dsimp only at within' nodup
      refine ⟨by omega, by omega, nodup, ?_⟩
      rw [← Nat.sub_sub]
    · rintro ⟨_, within, nodup, rfl⟩
      refine ⟨_, consumeAll_ok.2 ⟨by omega, rfl⟩, bind_eq_ok.2 ⟨_, consume_ok.2 ⟨?_, rfl⟩, ?_⟩⟩
      · dsimp only
        omega
      · refine (insertAll_ok (by exact once)).2 ⟨nodup, ?_⟩
        rw [← Nat.sub_sub]

/-- Only an MCP declaration asks a server for tools. -/
theorem discovered_other (plain : ∀ param, tool ≠ .mcp param) (executors : GatewayExecutors) :
    tool.discovered services init = none ∧ tool.listing services init = none ∧ tool.Servable services init ∧
      executors.after services tool = executors := by
  cases tool with
  | mcp param => exact absurd rfl (plain param)
  | _ => exact ⟨rfl, rfl, trivial, rfl⟩

theorem fits_single :
    self.Fits services init [tool] ↔ tool.Servable services init ∧
      self.discovered_mcp_tools + tool.discoveredCount services init ≤ MAX_DISCOVERED_MCP_TOOLS_PER_REQUEST ∧
      tool.bytes services init ≤ self.remaining ∧ ((self.entries ++ tool.registered services init).map Prod.fst).Nodup := by
  constructor
  · rintro ⟨servable, few', short, unique⟩
    simp only [List.map_cons, List.map_nil, List.sum_cons, List.sum_nil, Nat.add_zero] at few' short
    simp only [List.flatMap_cons, List.flatMap_nil, List.append_nil] at unique
    exact ⟨servable tool List.mem_cons_self, few', short, unique⟩
  · rintro ⟨servable, few', short, unique⟩
    refine ⟨fun other mem => ?_, ?_, ?_, ?_⟩
    · rw [List.mem_singleton.1 mem]
      exact servable
    · simpa using few'
    · simpa using short
    · simpa using unique

/-- **What registering a tool takes.** -/
theorem addTool_ok (serves : Serves services init self.executors tool) (once : (self.entries.map Prod.fst).Nodup)
    (few : self.discovered_mcp_tools ≤ MAX_DISCOVERED_MCP_TOOLS_PER_REQUEST) :
    self.addTool services tool = .ok (n, self') ↔
      self.Fits services init [tool] ∧ n = tool.noted services init ∧ self' = self.added services init tool := by
  rw [fits_single]
  unfold BuildState.addTool
  split
  · rename_i param
    have result : (self.executors.mcpServerTools services.servers param).1 = (init.mcpServerTools services.servers param).1 :=
      AgreesAt.result serves
    cases answer : self.executors.mcpServerTools services.servers param with
    | mk found executors =>
      rw [answer] at result
      cases found with
      | error error =>
        have discovered : (ResponsesTool.mcp param).discovered services init = none := by
          rw [ResponsesTool.discovered, ← result]
          rfl
        have listing : (ResponsesTool.mcp param).listing services init =
            some (param.server_label, failedListToolsItem services param.server_label error) := by
          rw [ResponsesTool.listing, ← result]
        have after : self.executors.after services (.mcp param) = executors := by
          rw [GatewayExecutors.after, answer]
        have servable : (ResponsesTool.mcp param).Servable services init ↔ isConfig error = false := by
          rw [ResponsesTool.Servable, ← result]
          simp
        simp only [ResponsesTool.noted, BuildState.added, ResponsesTool.registered, ResponsesTool.discoveredCount, ResponsesTool.bytes,
          discovered, listing, after, servable, ResponsesTool.entries, Option.getD_none, List.length_nil, List.map_nil, List.sum_nil,
          Option.map_none, Option.map_some, Option.getD_some, Nat.add_zero, Nat.zero_add, List.append_nil, Option.toList_some]
        cases config : isConfig error with
        | true => simp
        | false =>
          rw [if_neg Bool.false_ne_true, bind_eq_ok]
          constructor
          · rintro ⟨self₁, ok, same⟩
            obtain ⟨within, rfl⟩ := recordFailed_ok.1 ok
            cases pure_eq_ok.1 same
            exact ⟨⟨rfl, few, within, once⟩, rfl, rfl⟩
          · rintro ⟨⟨_, _, within, _⟩, rfl, rfl⟩
            exact ⟨_, recordFailed_ok.2 ⟨within, rfl⟩, rfl⟩
      | ok handlers =>
        have discovered : (ResponsesTool.mcp param).discovered services init = some handlers := by
          rw [ResponsesTool.discovered, ← result]
          rfl
        have listing : (ResponsesTool.mcp param).listing services init =
            some (param.server_label, listToolsItem services param.server_label handlers) := by
          rw [ResponsesTool.listing, ← result]
        have after : self.executors.after services (.mcp param) = executors := by
          rw [GatewayExecutors.after, answer]
        have servable : (ResponsesTool.mcp param).Servable services init := by
          rw [ResponsesTool.Servable, ← result]
          simp
        simp only [ResponsesTool.noted, BuildState.added, ResponsesTool.registered, ResponsesTool.discoveredCount, ResponsesTool.bytes,
          discovered, listing, after, servable, Option.getD_some, Option.map_some, true_and, Option.toList_some]
        rw [bind_eq_ok]
        constructor
        · rintro ⟨self₁, ok, same⟩
          obtain ⟨few', within, nodup, rfl⟩ := (recordDiscovered_ok (by exact once)).1 ok
          cases pure_eq_ok.1 same
          exact ⟨⟨few', within, nodup⟩, rfl, rfl⟩
        · rintro ⟨⟨few', within, nodup⟩, rfl, rfl⟩
          exact ⟨_, (recordDiscovered_ok (by exact once)).2 ⟨few', within, nodup, rfl⟩, rfl⟩
  · rename_i plain
    obtain ⟨discovered, listing, servable, after⟩ := @discovered_other services init tool plain self.executors
    simp only [ResponsesTool.noted, BuildState.added, ResponsesTool.registered, ResponsesTool.discoveredCount, ResponsesTool.bytes,
      discovered, listing, after, servable, Option.getD_none, List.length_nil, List.map_nil, List.sum_nil, Option.map_none,
      Nat.add_zero, true_and, Option.toList_none, List.append_nil, Nat.sub_zero, Nat.zero_le]
    rw [bind_eq_ok]
    constructor
    · rintro ⟨self₁, ok, same⟩
      obtain ⟨nodup, rfl⟩ := (insertUnique_ok once).1 ok
      cases pure_eq_ok.1 same
      exact ⟨⟨few, nodup⟩, rfl, rfl⟩
    · rintro ⟨⟨_, nodup⟩, rfl, rfl⟩
      exact ⟨_, (insertUnique_ok once).2 ⟨nodup, rfl⟩, rfl⟩

theorem fits_cons :
    self.Fits services init (tool :: tools) ↔
      self.Fits services init [tool] ∧ (self.added services init tool).Fits services init tools := by
  rw [fits_single]
  constructor
  · rintro ⟨servable, few, short, unique⟩
    simp only [List.map_cons, List.sum_cons] at few short
    simp only [List.flatMap_cons, ← List.append_assoc] at unique
    have first : ((self.entries ++ tool.registered services init).map Prod.fst).Nodup := by
      rw [List.map_append] at unique
      exact unique.of_append_left
    refine ⟨⟨servable tool List.mem_cons_self, by omega, by omega, first⟩,
      fun other mem => servable other (List.mem_cons_of_mem _ mem), ?_, ?_, unique⟩
    · simp only [BuildState.added]
      omega
    · simp only [BuildState.added]
      omega
  · rintro ⟨⟨servable, few, short, unique⟩, servable', few', short', unique'⟩
    simp only [BuildState.added] at few' short' unique'
    refine ⟨fun other mem => ?_, ?_, ?_, ?_⟩
    · rcases List.mem_cons.1 mem with rfl | later
      · exact servable
      · exact servable' other later
    · simp only [List.map_cons, List.sum_cons]
      omega
    · simp only [List.map_cons, List.sum_cons]
      omega
    · simp only [List.flatMap_cons, ← List.append_assoc]
      exact unique'

theorem serves_added {tool' : ResponsesTool} (serves : Serves services init self.executors tool')
    (apart : ¬ Shares services init tool tool') : Serves services init (self.added services init tool).executors tool' := by
  cases tool' with
  | mcp param' =>
    cases tool with
    | mcp param => exact AgreesAt.step serves fun same takes => apart ⟨param, param', rfl, rfl, same, .inl takes⟩
    | _ => exact serves
  | _ => trivial

/-- **What registering all tools takes**, where no declaration takes a label that another has. -/
theorem addTools_ok {ns : List (Option (List McpDiscoveredToolParam))}
    (serves : ∀ tool ∈ tools, Serves services init self.executors tool) (apart : tools.Pairwise fun a b => ¬ Shares services init a b)
    (once : (self.entries.map Prod.fst).Nodup) (few : self.discovered_mcp_tools ≤ MAX_DISCOVERED_MCP_TOOLS_PER_REQUEST) :
    self.addTools services tools = .ok (ns, self') ↔
      self.Fits services init tools ∧ ns = tools.map (·.noted services init) ∧ self' = tools.foldl (·.added services init ·) self := by
  induction tools generalizing self ns self' with
  | nil =>
    rw [BuildState.addTools, Except.ok.injEq, Prod.mk.injEq]
    constructor
    · rintro ⟨rfl, rfl⟩
      refine ⟨⟨fun tool mem => absurd mem List.not_mem_nil, by simpa using few, by simp, by simpa using once⟩, rfl, rfl⟩
    · rintro ⟨_, rfl, rfl⟩
      exact ⟨rfl, rfl⟩
  | cons tool tools ih =>
    obtain ⟨apart_first, apart_rest⟩ := List.pairwise_cons.1 apart
    have served : ∀ tool' ∈ tools, Serves services init (self.added services init tool).executors tool' := fun tool' mem =>
      serves_added (serves tool' (List.mem_cons_of_mem _ mem)) (apart_first tool' mem)
    rw [BuildState.addTools, bind_eq_ok, fits_cons]
    constructor
    · rintro ⟨⟨n, self₁⟩, ok, later⟩
      obtain ⟨fits, rfl, rfl⟩ := (addTool_ok (serves tool List.mem_cons_self) once few).1 ok
      obtain ⟨⟨later, self₂⟩, ok', same⟩ := bind_eq_ok.1 later
      obtain ⟨fits', rfl, rfl⟩ := (ih served apart_rest (fits_single.1 fits).2.2.2 (fits_single.1 fits).2.1).1 ok'
      cases pure_eq_ok.1 same
      exact ⟨⟨fits, fits'⟩, rfl, rfl⟩
    · rintro ⟨⟨fits, fits'⟩, rfl, rfl⟩
      refine ⟨_, (addTool_ok (serves tool List.mem_cons_self) once few).2 ⟨fits, rfl, rfl⟩, ?_⟩
      refine bind_eq_ok.2 ⟨(tools.map (·.noted services init), tools.foldl (·.added services init ·) _), ?_, rfl⟩
      exact (ih served apart_rest (fits_single.1 fits).2.2.2 (fits_single.1 fits).2.1).2 ⟨fits', rfl, rfl⟩

theorem fits_perm {tools' : List ResponsesTool} (h : self.Fits services init tools) (perm : tools'.Perm tools) :
    self.Fits services init tools' := by
  refine ⟨fun tool mem => h.servable tool (perm.mem_iff.1 mem), ?_, ?_, ?_⟩
  · rw [(perm.map _).sum_nat]
    exact h.few
  · rw [(perm.map _).sum_nat]
    exact h.short
  · have same : ((self.entries ++ tools'.flatMap (·.registered services init)).map Prod.fst).Perm
        ((self.entries ++ tools.flatMap (·.registered services init)).map Prod.fst) :=
      ((perm.flatMap_right _).append_left _).map _
    exact same.nodup_iff.2 h.unique

theorem entries_added : (tools.foldl (·.added services init ·) self).entries = self.entries ++ tools.flatMap (·.registered services init) := by
  induction tools generalizing self with
  | nil => simp
  | cons tool tools ih =>
    rw [List.foldl_cons, ih, BuildState.added, List.flatMap_cons, List.append_assoc]

end
end AgenticStack.Tools
