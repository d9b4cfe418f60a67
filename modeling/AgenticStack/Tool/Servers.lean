import AgenticStack.Tool.Build
import AgenticStack.Library.Outcome

/-!
# MCP declarations beside one another

What one declaration leaves behind in the executors, and which other
declarations notice it. A configured server leaves only what is discovered again.
A declared one takes its label.
-/

namespace AgenticStack.Tools
set_option autoImplicit false
open Library

/-- The label of the declaration, as the executors know it. -/
def McpToolParam.label (param : McpToolParam) : Text := Engine.trim param.server_label

/-- The declaration brings a server of its own, and it connects. -/
structure Takes (servers : McpServers) (executors : GatewayExecutors) (param : McpToolParam) : Prop where
  labelled : param.label ≠ []
  unknown : executors.mcp.lookup param.label = none
  unconfigured : executors.mcp_configs.contains param.label = false
  options : validateMcpExecutionOptions param false = .ok ()
  connects : ∃ handlers, servers.declared param = .ok handlers ∧ handlers ≠ []

section
variable {servers : McpServers} {init executors : GatewayExecutors} {param : McpToolParam} {label : Text}
  {handlers : List McpDiscoveredHandler}

theorem requireNonEmpty_ok {handlers' : List McpDiscoveredHandler} :
    requireNonEmptyMcpHandlers label handlers = .ok handlers' ↔ handlers ≠ [] ∧ handlers' = handlers := by
  unfold requireNonEmptyMcpHandlers
  cases handlers with
  | nil => simp
  | cons handler handlers => simp [eq_comm]

theorem connects_ok {discovered : Except ToolError (List McpDiscoveredHandler)} :
    discovered.bind (requireNonEmptyMcpHandlers label) = .ok handlers ↔ discovered = .ok handlers ∧ handlers ≠ [] := by
  cases discovered with
  | error error => simp [Except.bind]
  | ok discovered =>
    rw [Except.bind, requireNonEmpty_ok, Except.ok.injEq]
    constructor
    · rintro ⟨nonempty, rfl⟩
      exact ⟨rfl, nonempty⟩
    · rintro ⟨rfl, nonempty⟩
      exact ⟨nonempty, rfl⟩

/-- **What a declaration can leave behind.** -/
theorem mcpServerTools_executors (servers : McpServers) (executors : GatewayExecutors) (param : McpToolParam) :
    (executors.mcpServerTools servers param).2 = executors ∨
    (∃ discovered, executors.mcp_discovered.lookup param.label = none ∧
      (servers.configured param.label).bind (requireNonEmptyMcpHandlers param.label) = .ok discovered ∧
      (executors.mcpServerTools servers param).2 =
        { executors with mcp_discovered := insertEntry executors.mcp_discovered param.label discovered }) ∨
    ∃ handlers, Takes servers executors param ∧
      executors.mcpServerTools servers param =
        (.ok handlers, { executors with mcp := insertEntry executors.mcp param.label handlers }) := by
  unfold GatewayExecutors.mcpServerTools
  by_cases labelled : Engine.trim param.server_label = []
  · simp [labelled]
  dsimp only
  rw [if_neg labelled]
  cases options : validateMcpExecutionOptions param (executors.mcp_configs.contains (Engine.trim param.server_label) ||
      (executors.mcp.lookup (Engine.trim param.server_label)).isSome) with
  | error error => exact .inl rfl
  | ok done =>
    dsimp only
    split
    · exact .inl rfl
    cases known : executors.mcp.lookup (Engine.trim param.server_label) with
    | some configured_handlers => exact .inl rfl
    | none =>
      dsimp only
      cases configured : executors.mcp_configs.contains (Engine.trim param.server_label) with
      | true =>
        rw [if_pos rfl]
        unfold GatewayExecutors.configuredTools
        cases cached : executors.mcp_discovered.lookup (Engine.trim param.server_label) with
        | some discovered => exact .inl rfl
        | none =>
          cases answer : (servers.configured (Engine.trim param.server_label)).bind
              (requireNonEmptyMcpHandlers (Engine.trim param.server_label)) with
          | error error => exact .inl rfl
          | ok discovered => exact .inr (.inl ⟨discovered, cached, answer, rfl⟩)
      | false =>
        rw [if_neg Bool.false_ne_true]
        unfold GatewayExecutors.declaredTools
        cases answer : (servers.declared param).bind (requireNonEmptyMcpHandlers (Engine.trim param.server_label)) with
        | error error => exact .inl rfl
        | ok handlers =>
          rw [known, configured] at options
          refine .inr (.inr ⟨handlers, ⟨labelled, known, configured, options, handlers, ?_⟩, rfl⟩)
          exact connects_ok.1 answer

/-- Nothing that a declaration of `label` would notice has changed since `init`. -/
structure AgreesAt (servers : McpServers) (init executors : GatewayExecutors) (label : Text) : Prop where
  configs : executors.mcp_configs = init.mcp_configs
  known : executors.mcp.lookup label = init.mcp.lookup label
  cached : executors.mcp_discovered.lookup label = init.mcp_discovered.lookup label ∨
    init.mcp_discovered.lookup label = none ∧ ∃ discovered,
      (servers.configured label).bind (requireNonEmptyMcpHandlers label) = .ok discovered ∧
        executors.mcp_discovered.lookup label = some discovered

theorem AgreesAt.refl (servers : McpServers) (init : GatewayExecutors) (label : Text) : AgreesAt servers init init label :=
  ⟨rfl, rfl, .inl rfl⟩

theorem AgreesAt.configured_result (h : AgreesAt servers init executors label) (allowed_tools : Option (List Text)) :
    (executors.configuredTools servers label allowed_tools).1 = (init.configuredTools servers label allowed_tools).1 := by
  unfold GatewayExecutors.configuredTools
  rcases h.cached with same | ⟨fresh, discovered, answer, found⟩
  · rw [same]
    cases init.mcp_discovered.lookup label with
    | some discovered => rfl
    | none => cases (servers.configured label).bind (requireNonEmptyMcpHandlers label) <;> rfl
  · rw [fresh, found, answer]

/-- A declaration of `label` comes to what it comes to by itself. -/
theorem AgreesAt.result (h : AgreesAt servers init executors param.label) :
    (executors.mcpServerTools servers param).1 = (init.mcpServerTools servers param).1 := by
  have known : executors.mcp.lookup (Engine.trim param.server_label) = init.mcp.lookup (Engine.trim param.server_label) := h.known
  unfold GatewayExecutors.mcpServerTools
  dsimp only
  rw [h.configs, known]
  by_cases labelled : Engine.trim param.server_label = []
  · rw [if_pos labelled, if_pos labelled]
  rw [if_neg labelled, if_neg labelled]
  cases validateMcpExecutionOptions param (init.mcp_configs.contains (Engine.trim param.server_label) ||
      (init.mcp.lookup (Engine.trim param.server_label)).isSome) with
  | error error => rfl
  | ok done =>
    dsimp only
    split
    · rfl
    cases init.mcp.lookup (Engine.trim param.server_label) with
    | some configured_handlers => rfl
    | none =>
      dsimp only
      split
      · exact h.configured_result param.allowed_tools
      · unfold GatewayExecutors.declaredTools
        cases (servers.declared param).bind (requireNonEmptyMcpHandlers (Engine.trim param.server_label)) <;> rfl

theorem Takes.of_agrees (h : AgreesAt servers init executors param.label) (takes : Takes servers executors param) :
    Takes servers init param := by
  refine ⟨takes.labelled, ?_, ?_, takes.options, takes.connects⟩
  · rw [← h.known]
    exact takes.unknown
  · rw [← h.configs]
    exact takes.unconfigured

/-- Only a declaration that takes `label` can be noticed there. -/
theorem AgreesAt.step (h : AgreesAt servers init executors label) (free : param.label = label → ¬ Takes servers init param) :
    AgreesAt servers init (executors.mcpServerTools servers param).2 label := by
  rcases mcpServerTools_executors servers executors param with same | ⟨discovered, fresh, answer, left⟩ | ⟨handlers, takes, left⟩
  · rw [same]
    exact h
  · rw [left]
    refine ⟨h.configs, h.known, ?_⟩
    by_cases here : param.label = label
    · subst here
      rcases h.cached with same | ⟨_, _, _, found⟩
      · exact .inr ⟨same.symm.trans fresh, discovered, answer, lookup_insertEntry_self⟩
      · rw [fresh] at found
        cases found
    · dsimp only
      rw [lookup_insertEntry_ne fun same => here same.symm]
      exact h.cached
  · rw [left]
    by_cases here : param.label = label
    · subst here
      exact absurd (takes.of_agrees h) (free rfl)
    · refine ⟨h.configs, ?_, h.cached⟩
      dsimp only
      rw [lookup_insertEntry_ne fun same => here same.symm]
      exact h.known

/-- What a declaration that takes its label comes to. -/
theorem Takes.result (takes : Takes servers executors param) : ∃ handlers, handlers ≠ [] ∧
    executors.mcpServerTools servers param = (.ok handlers, { executors with mcp := insertEntry executors.mcp param.label handlers }) := by
  obtain ⟨handlers, connected, nonempty⟩ := takes.connects
  refine ⟨handlers, nonempty, ?_⟩
  have known : executors.mcp.lookup (Engine.trim param.server_label) = none := takes.unknown
  have configured : executors.mcp_configs.contains (Engine.trim param.server_label) = false := takes.unconfigured
  have labelled : Engine.trim param.server_label ≠ [] := takes.labelled
  have answer : (servers.declared param).bind (requireNonEmptyMcpHandlers (Engine.trim param.server_label)) = .ok handlers :=
    connects_ok.2 ⟨connected, nonempty⟩
  unfold GatewayExecutors.mcpServerTools
  dsimp only
  rw [if_neg labelled, known, configured]
  simp only [Option.isSome_none, Bool.or_self, Bool.false_and, Bool.false_eq_true, if_false]
  rw [takes.options, GatewayExecutors.declaredTools, answer]
  rfl

/-- A label that was taken: another declaration of it is rejected, or finds some of the same tools. -/
theorem mcpServerTools_taken (known : executors.mcp.lookup param.label = some handlers) :
    (∃ error, isConfig error = true ∧ executors.mcpServerTools servers param = (.error error, executors)) ∨
      ∃ allowed, allowed ≠ [] ∧ allowed ⊆ handlers ∧ executors.mcpServerTools servers param = (.ok allowed, executors) := by
  have known' : executors.mcp.lookup (Engine.trim param.server_label) = some handlers := known
  unfold GatewayExecutors.mcpServerTools
  by_cases labelled : Engine.trim param.server_label = []
  · simp only [labelled, if_true]
    exact .inl ⟨_, rfl, rfl⟩
  dsimp only
  rw [if_neg labelled, known', Option.isSome_some, Bool.or_true]
  cases options : validateMcpExecutionOptions param true with
  | error error =>
    refine .inl ⟨error, ?_, rfl⟩
    unfold validateMcpExecutionOptions at options
    split at options
    · cases options
      rfl
    split at options
    · cases options
      rfl
    split at options
    · cases options
      rfl
    · cases options
  | ok done =>
    dsimp only
    split
    · exact .inl ⟨_, rfl, rfl⟩
    cases rest : filterAllowedMcpHandlers handlers param.allowed_tools with
    | nil => exact .inl ⟨_, rfl, rfl⟩
    | cons handler allowed =>
      refine .inr ⟨handler :: allowed, List.cons_ne_nil _ _, ?_, rfl⟩
      rw [← rest]
      exact fun found mem => List.mem_of_mem_filter mem

end
end AgenticStack.Tools
