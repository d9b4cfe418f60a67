import AgenticStack.Tool.Passes

/-!
# The names the model is told and the names the registry knows

Both passes come to the same names, each once when no namespace repeats a member.
Where no two declarations have a label in common, the order of the tools has no
part in it.
-/

namespace AgenticStack.Tools
set_option autoImplicit false
open Library

/-- A tool as a request can declare it, other than those without an executor. -/
def ResponsesTool.Declared : ResponsesTool → Prop
  | .fileSearch _ | .codeInterpreter => False
  | .mcp param => param.discovered_tools = []
  | _ => True

section
variable (services : RegistryServices) (init : GatewayExecutors) (budget : Nat) (choice : Option ToolChoice)

/-- Both passes succeed, with these keys of the registry and these names of the functions sent upstream. -/
def Accepted (tools : List ResponsesTool) (keys names : List Text) : Prop :=
  ∃ registry annotated upstream, buildWithHandlersGuarded services tools init budget = .ok (registry, annotated) ∧
    toUpstreamTools annotated choice = .ok upstream ∧ keys = registry.entries.map Prod.fst ∧
    names = (upstream.tools.getD []).map (·.name)

/-- `tools'` are accepted when `tools` are, with the same names. -/
def Follows (tools tools' : List ResponsesTool) : Prop :=
  ∀ keys names, Accepted services init budget choice tools keys names →
    ∃ keys' names', Accepted services init budget choice tools' keys' names' ∧ (∀ name, name ∈ names' ↔ name ∈ names)

/-- Every function sent is in the registry, and the other way around, each is sent once, and another order of the tools
changes nothing. -/
structure Resolvable (tools : List ResponsesTool) : Prop where
  exact : ∀ keys names, Accepted services init budget choice tools keys names → names.Nodup ∧ ∀ name, name ∈ names ↔ name ∈ keys
  orderless : ∀ tools', tools'.Perm tools →
    Follows services init budget choice tools tools' ∧ Follows services init budget choice tools' tools

/-- No namespace declares a function twice. -/
def MembersOnce (tools : List ResponsesTool) : Prop := ∀ param, ResponsesTool.namespace param ∈ tools → param.functionNames.Nodup

end

section
variable {services : RegistryServices} {init : GatewayExecutors} {budget : Nat} {choice : Option ToolChoice}
  {tools tools' : List ResponsesTool} {tool : ResponsesTool} {keys names : List Text}

theorem accepted_iff (own : OwnLabels services init tools) :
    Accepted services init budget choice tools keys names ↔
      Registrable services init budget tools ∧ (∀ tool ∈ tools, tool.validate = .ok ()) ∧ ChoiceDeclared tools (choice.getD .auto) ∧
        keys = tools.flatMap (·.keys services init) ∧ names = tools.flatMap (·.sent services init) := by
  constructor
  · rintro ⟨registry, annotated, upstream, built, lowered, keyed, named⟩
    obtain ⟨registrable, rfl, keyed⟩ := (build_ok own).1 ⟨registry, built, keyed⟩
    obtain ⟨_, checks, chosen, named⟩ := upstream_ok.1 ⟨upstream, lowered, named⟩
    exact ⟨registrable, checks, chosen, keyed, named⟩
  · rintro ⟨registrable, checks, chosen, keyed, named⟩
    obtain ⟨registry, built, keyed⟩ := (build_ok own).2 ⟨registrable, rfl, keyed⟩
    obtain ⟨upstream, lowered, named⟩ := (@upstream_ok services init choice tools names).2
      ⟨registrable.unambiguous, checks, chosen, named⟩
    exact ⟨registry, _, upstream, built, lowered, keyed, named⟩

theorem mem_namespaceEntries {name : Text} (members : List CodexNamespaceMember) (entries : List (Text × ToolEntry)) :
    name ∈ (members.foldl insertNamespaceEntry entries).map Prod.fst ↔
      name ∈ entries.map Prod.fst ∨ name ∈ members.filterMap CodexNamespaceMember.functionName := by
  induction members generalizing entries with
  | nil => simp
  | cons member members ih =>
    rw [List.foldl_cons, ih]
    cases member with
    | unknown => rfl
    | function param =>
      have first : (CodexNamespaceMember.function param :: members).filterMap CodexNamespaceMember.functionName =
          param.name.text :: members.filterMap CodexNamespaceMember.functionName := rfl
      rw [insertNamespaceEntry, mem_keys_insertEntry, first, List.mem_cons, or_assoc]
      exact or_left_comm

theorem nodup_namespaceEntries (members : List CodexNamespaceMember) (entries : List (Text × ToolEntry))
    (once : (entries.map Prod.fst).Nodup) : ((members.foldl insertNamespaceEntry entries).map Prod.fst).Nodup := by
  induction members generalizing entries with
  | nil => exact once
  | cons member members ih =>
    rw [List.foldl_cons]
    cases member with
    | unknown => exact ih entries once
    | function param => exact ih _ (nodup_insertEntry once)

/-- The flat names of the members. -/
def CodexNamespaceToolParam.flatNames (param : CodexNamespaceToolParam) : List Text :=
  param.functionNames.map (modelVisibleNamespaceMemberName param.name)

theorem flatNames_flatten (param : CodexNamespaceToolParam) :
    (param.tools.map (·.flatten param.name)).filterMap CodexNamespaceMember.functionName = param.flatNames := by
  unfold CodexNamespaceToolParam.flatNames CodexNamespaceToolParam.functionNames
  induction param.tools with
  | nil => rfl
  | cons member members ih =>
    cases member with
    | unknown => exact ih
    | function function => exact congrArg (_ :: ·) ih

theorem sent_namespace (param : CodexNamespaceToolParam) : (ResponsesTool.namespace param).sent services init = param.flatNames := by
  have annotated : (ResponsesTool.namespace param).annotate services init = .namespace param := noted_other (fun _ no => nomatch no)
  rw [ResponsesTool.sent, annotated, ← flatNames_flatten]
  change ((param.tools.map (·.flatten param.name)).filterMap CodexNamespaceMember.toFunctionTool).map (·.name) = _
  induction param.tools with
  | nil => rfl
  | cons member members ih =>
    cases member with
    | unknown => exact ih
    | function function => exact congrArg (_ :: ·) ih

theorem mem_keys_namespace {name : Text} (param : CodexNamespaceToolParam) :
    name ∈ (ResponsesTool.namespace param).keys services init ↔ name ∈ param.flatNames := by
  have found := @mem_namespaceEntries name (param.tools.map (·.flatten param.name)) []
  rw [flatNames_flatten] at found
  exact found.trans (or_iff_right List.not_mem_nil)

/-- Any other tool is sent under the names it is registered under. -/
theorem sent_other (declared : tool.Declared) (plain : ∀ param, tool ≠ .namespace param) :
    tool.sent services init = tool.keys services init := by
  have flat : tool.flatten = tool := flatten_other plain
  cases tool with
  | «namespace» param => exact absurd rfl (plain param)
  | fileSearch _ => exact declared.elim
  | codeInterpreter => exact declared.elim
  | mcp param =>
    have none_noted : param.discovered_tools = [] := declared
    have annotated : (ResponsesTool.mcp param).annotate services init =
        (ResponsesTool.mcp param).noteDiscovered (((ResponsesTool.mcp param).discovered services init).map fun handlers =>
          handlers.map (·.param)) := rfl
    rw [ResponsesTool.sent, annotated, ResponsesTool.keys, flat, ResponsesTool.registered]
    cases (ResponsesTool.mcp param).discovered services init with
    | none =>
      change (param.discovered_tools.map McpDiscoveredToolParam.toFunctionTool).map (·.name) = []
      rw [none_noted]
      rfl
    | some handlers =>
      change ((handlers.map (·.param)).map McpDiscoveredToolParam.toFunctionTool).map (·.name) = _
      rw [List.map_map, List.map_map, List.map_map]
      rfl
  | _ => rfl

theorem mem_sent (declared : tool.Declared) {name : Text} : name ∈ tool.sent services init ↔ name ∈ tool.keys services init := by
  by_cases named : ∃ param, tool = .namespace param
  · obtain ⟨param, rfl⟩ := named
    rw [sent_namespace, mem_keys_namespace]
  · rw [sent_other declared fun param same => named ⟨param, same⟩]

theorem mem_names (declared : ∀ tool ∈ tools, tool.Declared) {name : Text} :
    name ∈ tools.flatMap (·.sent services init) ↔ name ∈ tools.flatMap (·.keys services init) := by
  rw [List.mem_flatMap, List.mem_flatMap]
  exact exists_congr fun tool => and_congr_right fun mem => mem_sent (declared tool mem)

/-- **Each name is sent once** just when no namespace repeats a member. -/
theorem names_nodup (declared : ∀ tool ∈ tools, tool.Declared) (registrable : Registrable services init budget tools) :
    (tools.flatMap (·.sent services init)).Nodup ↔ MembersOnce tools := by
  have once : (tools.flatMap (·.keys services init)).Nodup := by
    have unique := registrable.fits.unique
    rw [List.flatMap_map] at unique
    simp only [BuildState.empty, List.nil_append, List.map_flatMap] at unique
    exact unique
  constructor
  · intro nodup param mem
    have here := (List.nodup_flatMap.1 nodup).1 _ mem
    rw [sent_namespace] at here
    exact here.of_map
  · intro members_once
    have perm : (tools.flatMap (·.sent services init)).Perm (tools.flatMap (·.keys services init)) := by
      refine List.Perm.flatMap_left tools fun tool mem => ?_
      by_cases named : ∃ param, tool = .namespace param
      · obtain ⟨param, rfl⟩ := named
        have flat : param.flatNames.Nodup := by
          refine List.Nodup.map_on (fun a a_mem b b_mem same => ?_) (members_once param mem)
          have member {name : Text} (within : name ∈ param.functionNames) : ⟨param.name, name⟩ ∈ members tools :=
            List.mem_flatMap.2 ⟨_, mem, List.mem_map_of_mem within⟩
          exact (NamespaceMemberName.mk.inj (registrable.unambiguous.unique _ (member b_mem) _ (member a_mem) same)).2
        rw [sent_namespace]
        refine (List.perm_ext_iff_of_nodup flat ?_).2 fun name => (mem_keys_namespace param).symm
        exact nodup_namespaceEntries _ [] List.nodup_nil
      · rw [sent_other (declared tool mem) fun param same => named ⟨param, same⟩]
    exact perm.nodup_iff.2 once

/-- Two elements that are related stand first in some order. -/
theorem exists_perm_of_not_pairwise {α : Type} {R : α → α → Prop} {l : List α} (h : ¬ l.Pairwise R) :
    ∃ a b rest, l.Perm (a :: b :: rest) ∧ ¬ R a b := by
  induction l with
  | nil => exact absurd .nil h
  | cons a l ih =>
    by_cases first : ∀ b ∈ l, R a b
    · obtain ⟨b, c, rest, perm, apart⟩ := ih fun pairwise => h (.cons first pairwise)
      exact ⟨b, c, a :: rest, (perm.cons a).trans ((List.Perm.swap b a _).trans ((List.Perm.swap c a _).cons b)), apart⟩
    · obtain ⟨b, later⟩ := not_forall.1 first
      obtain ⟨mem, apart⟩ := Classical.not_imp.1 later
      obtain ⟨before, behind, rfl⟩ := List.append_of_mem mem
      exact ⟨a, b, before ++ behind, List.perm_middle.cons a, apart⟩

/-- Behind a declaration that took the label and registered its tools, another of the label is rejected. -/
theorem addTool_taken {self : BuildState} {param : McpToolParam} {handlers : List McpDiscoveredHandler}
    (known : self.executors.mcp.lookup param.label = some handlers)
    (registered : ∀ handler ∈ handlers, handler.param.internal_name ∈ self.entries.map Prod.fst)
    (once : (self.entries.map Prod.fst).Nodup) {outcome} : self.addTool services (.mcp param) ≠ .ok outcome := by
  rw [BuildState.addTool]
  rcases mcpServerTools_taken known with ⟨error, config, answer⟩ | ⟨allowed, nonempty, within, answer⟩
  · rw [answer]
    simp [config]
  · rw [answer]
    intro ok
    obtain ⟨state, recorded, _⟩ := bind_eq_ok.1 ok
    obtain ⟨_, _, nodup, _⟩ := (recordDiscovered_ok (by exact once)).1 recorded
    obtain ⟨handler, mem⟩ := List.exists_mem_of_ne_nil _ nonempty
    rw [List.map_append] at nodup
    refine (List.disjoint_of_nodup_append nodup) (registered handler (within mem)) ?_
    rw [List.map_map]
    exact List.mem_map_of_mem mem

/-- The declaration that takes the label first, the other second: this order is rejected. -/
theorem takes_rejected {param param' : McpToolParam} {rest : List ResponsesTool} (same : param.label = param'.label)
    (takes : Takes services.servers init param) :
    ¬ Accepted services init budget choice (.mcp param :: .mcp param' :: rest) keys names := by
  rintro ⟨registry, annotated, _, built, _⟩
  obtain ⟨resolved, resolves, built⟩ := bind_eq_ok.1 built
  obtain ⟨_, rfl⟩ := resolveNamespaceMembers_ok.1 resolves
  obtain ⟨_, _, built⟩ := bind_eq_ok.1 built
  obtain ⟨_, _, built⟩ := bind_eq_ok.1 built
  obtain ⟨_, adds, _⟩ := bind_eq_ok.1 built
  obtain ⟨⟨n, state⟩, first, adds⟩ := bind_eq_ok.1 adds
  obtain ⟨_, second, _⟩ := bind_eq_ok.1 adds
  obtain ⟨handlers, nonempty, answer⟩ := takes.result
  have first : (BuildState.empty init budget).addTool services (.mcp param) = .ok (n, state) := first
  have serves : Serves services init (BuildState.empty init budget).executors (.mcp param) := AgreesAt.refl _ _ _
  obtain ⟨fits, rfl, rfl⟩ := (addTool_ok serves List.nodup_nil (Nat.zero_le _)).1 first
  have discovered : (ResponsesTool.mcp param).discovered services init = some handlers := by
    rw [ResponsesTool.discovered, answer]
    rfl
  have known : ((BuildState.empty init budget).added services init (.mcp param)).executors.mcp.lookup param'.label = some handlers := by
    simp only [BuildState.added, GatewayExecutors.after, BuildState.empty, answer]
    rw [← same]
    exact lookup_insertEntry_self
  have registered : ∀ handler ∈ handlers, handler.param.internal_name ∈
      ((BuildState.empty init budget).added services init (.mcp param)).entries.map Prod.fst := by
    intro handler mem
    simp only [BuildState.added, BuildState.empty, ResponsesTool.registered, discovered, List.nil_append, List.map_map]
    exact List.mem_map_of_mem (f := Prod.fst ∘ discoveredMcpEntry) mem
  obtain ⟨_, second, _⟩ := bind_eq_ok.1 second
  exact addTool_taken known registered (fits_single.1 fits).2.2.2 second

/-- **When the registry can resolve what is sent**: for tools that are accepted in some order, just when no namespace repeats a
member and no label that one declaration takes is another's. -/
theorem resolvable_iff (declared : ∀ tool ∈ tools, tool.Declared)
    (accepted : ∃ tools', tools'.Perm tools ∧ ∃ keys names, Accepted services init budget choice tools' keys names) :
    Resolvable services init budget choice tools ↔ MembersOnce tools ∧ OwnLabels services init tools := by
  constructor
  · intro h
    obtain ⟨tools', perm, keys', names', ok'⟩ := accepted
    obtain ⟨keys, names, ok, _⟩ := (h.orderless tools' perm).2 keys' names' ok'
    have own : OwnLabels services init tools := by
      by_contra shared
      obtain ⟨a, b, rest, perm, shares⟩ := exists_perm_of_not_pairwise shared
      obtain ⟨param, param', rfl, rfl, same, takes⟩ := Classical.not_not.1 shares
      rcases takes with takes | takes
      · obtain ⟨_, _, ok, _⟩ := (h.orderless _ perm.symm).1 keys names ok
        exact takes_rejected same takes ok
      · obtain ⟨_, _, ok, _⟩ := (h.orderless _ ((List.Perm.swap _ _ _).trans perm.symm)).1 keys names ok
        exact takes_rejected same.symm takes ok
    refine ⟨?_, own⟩
    obtain ⟨registrable, _, _, _, rfl⟩ := (accepted_iff own).1 ok
    exact (names_nodup declared registrable).1 (h.exact keys _ ok).1
  · rintro ⟨members_once, own⟩
    have follows {first second : List ResponsesTool} (perm : second.Perm first) (own : OwnLabels services init first) :
        Follows services init budget choice first second := by
      intro keys names ok
      obtain ⟨registrable, checks, chosen, _, rfl⟩ := (accepted_iff own).1 ok
      refine ⟨_, _, (accepted_iff (own.perm perm)).2 ⟨registrable.perm perm, fun tool mem => checks tool (perm.mem_iff.1 mem),
        chosen.perm perm, rfl, rfl⟩, fun name => ?_⟩
      exact (perm.flatMap_right _).mem_iff
    refine ⟨fun keys names ok => ?_, fun tools' perm => ⟨follows perm own, follows perm.symm (own.perm perm)⟩⟩
    obtain ⟨registrable, _, _, rfl, rfl⟩ := (accepted_iff own).1 ok
    exact ⟨(names_nodup declared registrable).2 members_once, fun name => mem_names declared⟩

end

def unreachable : GatewayBinding where
  execute _ _ _ _ _ := .error (.execution "unreachable")
  answers_call _ _ _ _ _ _ no := nomatch no
  startedOutput _ := none
  publicOutput _ _ _ := none

/-- A server that lists one tool, `search`. -/
def oneToolServer (param : McpToolParam) : Except ToolError (List McpDiscoveredHandler) :=
  .ok [⟨⟨param.server_label, "search", utf8 "mcp__" ++ param.server_label ++ utf8 "__search", ⟨"search", none, [], none⟩⟩, unreachable⟩]

def oneToolServices : RegistryServices where
  servers := ⟨fun _ => .error (.execution "unreachable"), oneToolServer⟩
  webSearchBinding _ := unreachable
  listingId label := utf8 "mcpl_" ++ label
  paramBytes _ := 100
  listingBytes _ := 100

def noExecutors : GatewayExecutors := ⟨[], [], []⟩

def readFunction : FunctionToolParam := ⟨⟨"read", by decide⟩, none, none, none, none, []⟩

def docsServer : McpToolParam := ⟨"docs", some "http://localhost", none, none, none, none, some "never", none, []⟩

/-- The same function twice in a namespace. -/
def repeatedMember : List ResponsesTool := [.namespace ⟨"files", none, [.function readFunction, .function readFunction], []⟩]

/-- It is sent twice, and is one entry of the registry. -/
theorem repeatedMember_unresolvable :
    Accepted oneToolServices noExecutors 1048576 none repeatedMember ["agentic_ns__files__read"]
      ["agentic_ns__files__read", "agentic_ns__files__read"] ∧
    ¬ Resolvable oneToolServices noExecutors 1048576 none repeatedMember := by
  have accepted : Accepted oneToolServices noExecutors 1048576 none repeatedMember ["agentic_ns__files__read"]
      ["agentic_ns__files__read", "agentic_ns__files__read"] := by
    refine ⟨_, _, _, rfl, rfl, ?_, ?_⟩
    · decide +kernel
    · decide +kernel
  refine ⟨accepted, fun h => ?_⟩
  have once := (h.exact _ _ accepted).1
  rw [List.nodup_cons] at once
  exact once.1 List.mem_cons_self

theorem resolvable_iff_server :
    Resolvable oneToolServices noExecutors 1048576 none
        [.mcp docsServer, .function readFunction, .namespace ⟨"files", none, [.function readFunction], []⟩] ↔
      MembersOnce [.mcp docsServer, .function readFunction, .namespace ⟨"files", none, [.function readFunction], []⟩] ∧
        OwnLabels oneToolServices noExecutors
          [.mcp docsServer, .function readFunction, .namespace ⟨"files", none, [.function readFunction], []⟩] := by
  refine resolvable_iff (fun tool mem => ?_) ⟨_, .refl _, _, _, _, _, _, rfl, rfl, rfl, rfl⟩
  simp only [List.mem_cons, List.not_mem_nil, or_false] at mem
  rcases mem with rfl | rfl | rfl
  · exact rfl
  · trivial
  · trivial

end AgenticStack.Tools
