import AgenticStack.Tool.McpDiscovery
import AgenticStack.Tool.Restoring

/-!
# Namespaces come back

A member that the model is told of under a flat name is told apart from every other
function by it. What names the member goes upstream under the flat name, and what
comes back under the flat name names the member again. All else stays as it is.
-/

namespace AgenticStack.Tools
set_option autoImplicit false
open Library

/-- A name of a tool that is neither a namespace nor a custom tool: its key in the registry, or what the model is told. -/
def ResponsesTool.HasName (tool : ResponsesTool) (name : Text) : Prop :=
  match tool with
  | .namespace _ | .custom _ => False
  | .mcp param => ∃ allowed_tools listed found, discoveredTools (Engine.trim param.server_label) allowed_tools listed = some found ∧
      ∃ d ∈ found, d.internal_name = name
  | tool => tool.topLevelRegistryKey = some name ∨ ∃ function ∈ tool.toFunctionTools, function.name = name

/-- `«namespace»` and `name` name the member. -/
def NamespaceMemberName.Named (member : NamespaceMemberName) («namespace» : Option Text) (name : Text) : Prop :=
  «namespace» = some member.namespace ∧ name = member.name

variable {tools : List ResponsesTool} {map : NamespaceMap} {member : NamespaceMemberName} {name : Text}

theorem head_flat (member : NamespaceMemberName) : member.flat.head? = some 0x61 := by
  have front : ∃ rest, MODEL_VISIBLE_NAMESPACE_MEMBER_PREFIX = 0x61 :: rest := ⟨_, rfl⟩
  obtain ⟨rest, front⟩ := front
  rw [NamespaceMemberName.flat, modelVisibleNamespaceMemberName, front]
  split
  · rfl
  · rfl

theorem ne_flat_of_head {b : UInt8} (head : name.head? = some b) (other : b ≠ 0x61) : member.flat ≠ name := by
  rintro rfl
  rw [head_flat, Option.some.injEq] at head
  exact other head.symm

theorem IsInternalName.ne_flat (internal : IsInternalName name) : member.flat ≠ name := by
  obtain ⟨rest, rfl⟩ := internal.prefixed
  have front : (INTERNAL_MCP_PREFIX ++ rest).head? = some 0x6d := rfl
  exact ne_flat_of_head front (by decide)

/-- No other tool has the flat name of a member. -/
theorem Unambiguous.not_hasName (unambiguous : Unambiguous tools) (mem : member ∈ members tools) {tool : ResponsesTool}
    (declared : tool ∈ tools) : ¬ tool.HasName member.flat := by
  have apart := unambiguous.apart member mem tool declared
  intro has
  cases tool with
  | «namespace» _ => exact has
  | custom _ => exact has
  | mcp param =>
    obtain ⟨allowed_tools, listed, found, discovered, d, here, same⟩ := has
    exact (discoveredTools_offers discovered here).2.internal.ne_flat same.symm
  | function param =>
    rcases has with key | ⟨function, told, same⟩
    · exact apart key
    · cases List.mem_singleton.1 told
      exact apart (congrArg some same)
  | toolSearch param =>
    rcases has with key | ⟨function, told, same⟩
    · cases key
    · cases List.mem_singleton.1 told
      exact @ne_flat_of_head member TOOL_SEARCH_NAME 0x74 rfl (by decide) same.symm
  | webSearch _ =>
    rcases has with key | ⟨function, told, same⟩
    · exact apart key
    · cases List.mem_singleton.1 told
      exact apart (congrArg some same)
  | shell _ =>
    rcases has with key | ⟨function, told, same⟩
    · cases key
    · cases List.mem_singleton.1 told
      exact @ne_flat_of_head member SHELL_FUNCTION_NAME 0x73 rfl (by decide) same.symm
  | fileSearch _ =>
    rcases has with key | ⟨function, told, same⟩
    · exact apart key
    · cases told
  | codeInterpreter =>
    rcases has with key | ⟨function, told, same⟩
    · exact apart key
    · cases told
  | unknown =>
    rcases has with key | ⟨function, told, same⟩
    · cases key
    · cases told

theorem rewriteItem_named {call : InputFunctionToolCall} (h : Maps (members tools) map) (mem : member ∈ members tools)
    (named : member.Named call.namespace call.name) :
    rewriteItem map (.functionCall call) = .functionCall { call with name := member.flat, «namespace» := none } := by
  obtain ⟨mapping, found, upstream⟩ := h.mappingForMember mem
  rw [rewriteItem, named.1, named.2, Option.bind_some, found]
  dsimp only
  rw [upstream]

theorem rewriteItem_other {call : InputFunctionToolCall} (h : Maps (members tools) map)
    (other : ∀ member ∈ members tools, ¬ member.Named call.namespace call.name) :
    rewriteItem map (.functionCall call) = .functionCall call := by
  rw [rewriteItem]
  cases space : call.namespace with
  | none => rfl
  | some «namespace» =>
    have unknown : ⟨«namespace», call.name⟩ ∉ members tools := fun mem => other _ mem ⟨space, rfl⟩
    rw [Option.bind_some, h.mappingForMember_none unknown]

/-- Where no call is to be rewritten, rewriting changes nothing. -/
theorem resolveInput_items (items : List InputItem) :
    resolveInput (some map) (.items items) = .items (items.map (rewriteItem map)) := by
  rw [resolveInput]
  split
  · rfl
  · rename_i none_mapped
    have same : items.map (rewriteItem map) = items := by
      refine (List.map_congr_left fun item mem => ?_).trans (List.map_id items)
      cases item with
      | functionCall call =>
        have plain : isMappedCall map (.functionCall call) ≠ true := fun mapped =>
          none_mapped (List.any_eq_true.2 ⟨_, mem, mapped⟩)
        rw [rewriteItem]
        cases space : call.namespace with
        | none => rfl
        | some «namespace» =>
          rw [isMappedCall, space, Option.any_some] at plain
          rw [Option.bind_some, Option.not_isSome_iff_eq_none.1 plain]
          rfl
      | _ => rfl
    rw [same]

theorem restoreFunctionCall_flat {call : FunctionToolCall} (h : Maps (members tools) map) (unambiguous : Unambiguous tools)
    (mem : member ∈ members tools) (bare : call.namespace = none) (flat : call.name = member.flat) :
    restoreFunctionCall map call = { call with «namespace» := some member.namespace, name := member.name } := by
  rw [restoreFunctionCall, bare, if_neg (by simp), flat, h.publicMember unambiguous mem]

theorem restoreFunctionCall_other {call : FunctionToolCall} (h : Maps (members tools) map)
    (other : call.namespace ≠ none ∨ ∀ member ∈ members tools, member.flat ≠ call.name) : restoreFunctionCall map call = call := by
  rw [restoreFunctionCall]
  rcases other with qualified | unknown
  · rw [if_pos (Option.isSome_iff_ne_none.2 qualified)]
  · rw [h.publicMember_none unknown, ite_self]

theorem restoreNamed_flat {type : Text} {fields : List (Text × Json)} (h : Maps (members tools) map) (unambiguous : Unambiguous tools)
    (mem : member ∈ members tools) (typed : textAt fields "type" = some type) (bare : textAt fields "namespace" = none)
    (flat : textAt fields "name" = some member.flat) :
    restoreNamed type map (.obj fields) =
      .obj (insertField (insertField fields "namespace" (.str member.namespace)) "name" (.str member.name)) := by
  have restores : ¬ (textAt fields "type" ≠ some type ∨ (textAt fields "namespace").isSome) := by
    rw [typed, bare]
    simp
  rw [restoreNamed, if_neg restores, flat, Option.bind_some, h.publicMember unambiguous mem]

theorem restoreNamed_other {type : Text} {fields : List (Text × Json)} (h : Maps (members tools) map)
    (other : textAt fields "type" = some type → textAt fields "namespace" = none →
      ∀ member ∈ members tools, textAt fields "name" ≠ some member.flat) :
    restoreNamed type map (.obj fields) = .obj fields := by
  rw [restoreNamed]
  split
  · rfl
  · rename_i restores
    have typed : textAt fields "type" = some type := by
      by_contra no
      exact restores (.inl no)
    have bare : textAt fields "namespace" = none := by
      by_contra some_space
      exact restores (.inr (Option.isSome_iff_ne_none.2 some_space))
    cases named : textAt fields "name" with
    | none => rfl
    | some name =>
      have unknown : map.publicMember name = none := h.publicMember_none fun member mem same =>
        other typed bare member mem (named.trans (congrArg some same.symm))
      rw [Option.bind_some, unknown]

/-- What a response holds under a key is restored by its kind. -/
theorem lookup_restoreResponseFields (fields : List (Text × Json)) (key : Text) :
    (restoreResponseFields map fields).lookup key = (fields.lookup key).map fun v =>
      if key = "tool_choice" then restoreToolChoice map v
      else if key = "item" then restoreCallValue map v
      else if key = "response" ∨ key = "payload" then restoreResponseValue map v
      else if key = "output" then restoreOutputValue map v
      else v := by
  induction fields with
  | nil => rfl
  | cons field fields ih =>
    obtain ⟨key', v⟩ := field
    rw [restoreResponseFields]
    by_cases same : key = key'
    · subst same
      rw [lookup_cons_self, lookup_cons_self, Option.map_some]
    · have other : key' ≠ key := fun equal => same equal.symm
      rw [lookup_cons_ne other, lookup_cons_ne other]
      exact ih

theorem choiceMapping_named {«namespace» : Option Text} (h : Maps (members tools) map) (mem : member ∈ members tools)
    (named : member.Named «namespace» name) :
    ∃ mapping, map.choiceMapping «namespace» name = some mapping ∧ mapping.upstream_name = member.flat := by
  obtain ⟨rfl, rfl⟩ := named
  exact h.mappingForMember mem

/-- A name without a namespace stays the name it is. -/
theorem choiceMapping_other {«namespace» : Option Text} {mapping : NamespaceCallMapping} (h : Maps (members tools) map)
    (other : ∀ member ∈ members tools, ¬ member.Named «namespace» name) (found : map.choiceMapping «namespace» name = some mapping) :
    «namespace» = none ∧ mapping.upstream_name = name := by
  cases «namespace» with
  | none => exact ⟨rfl, (h.call _ _ found).2.2⟩
  | some «namespace» =>
    have unknown : ⟨«namespace», name⟩ ∉ members tools := fun mem => other _ mem ⟨rfl, rfl⟩
    have none_found := h.mappingForMember_none unknown
    have same : map.choiceMapping (some «namespace») name = map.mappingForMember «namespace» name := rfl
    rw [same, none_found] at found
    cases found

theorem resolveToolChoice_named {«namespace» : Option Text} {chosen : NonEmptyToolName} (h : Maps (members tools) map)
    (mem : member ∈ members tools) (named : member.Named «namespace» chosen.text) :
    resolveToolChoice (some map) (some (.function «namespace» chosen)) =
      .function none ⟨member.flat, modelVisibleNamespaceMemberName_ne_nil _ _⟩ := by
  obtain ⟨mapping, found, upstream⟩ := choiceMapping_named h mem named
  have nonEmpty : member.flat ≠ [] := modelVisibleNamespaceMemberName_ne_nil _ _
  simp only [resolveToolChoice, Option.getD_some, found, upstream]
  exact dif_pos nonEmpty

theorem resolveToolChoice_other {choice : ToolChoice} (h : Maps (members tools) map)
    (other : ∀ «namespace» chosen, choice = .function «namespace» chosen →
      ∀ member ∈ members tools, ¬ member.Named «namespace» chosen.text) :
    resolveToolChoice (some map) (some choice) = choice := by
  cases choice with
  | function «namespace» chosen =>
    simp only [resolveToolChoice, Option.getD_some]
    cases found : map.choiceMapping «namespace» chosen.text with
    | none => rfl
    | some mapping =>
      obtain ⟨rfl, same⟩ := choiceMapping_other h (other _ _ rfl) found
      dsimp only
      split
      · simp only [same]
      · rfl
  | _ => rfl

/-- The flat names of the declared members tell them from everything else, and lead back to them. -/
structure Reversible (tools : List ResponsesTool) (map : NamespaceMap) : Prop where
  distinct : ∀ member ∈ members tools, ∀ other ∈ members tools, other.flat = member.flat → other = member
  apart : ∀ member ∈ members tools, ∀ tool ∈ tools, ¬ tool.HasName member.flat
  input : ∀ items, resolveInput (some map) (.items items) = .items (items.map (rewriteItem map))
  call : ∀ member ∈ members tools, ∀ call : InputFunctionToolCall, member.Named call.namespace call.name →
    rewriteItem map (.functionCall call) = .functionCall { call with name := member.flat, «namespace» := none }
  otherCall : ∀ call : InputFunctionToolCall, (∀ member ∈ members tools, ¬ member.Named call.namespace call.name) →
    rewriteItem map (.functionCall call) = .functionCall call
  choice : ∀ member ∈ members tools, ∀ «namespace» chosen, member.Named «namespace» chosen.text →
    resolveToolChoice (some map) (some (.function «namespace» chosen)) =
      .function none ⟨member.flat, modelVisibleNamespaceMemberName_ne_nil _ _⟩
  otherChoice : ∀ choice, (∀ «namespace» chosen, choice = .function «namespace» chosen →
    ∀ member ∈ members tools, ¬ member.Named «namespace» chosen.text) → resolveToolChoice (some map) (some choice) = choice
  answer : ∀ member ∈ members tools, ∀ call : FunctionToolCall, call.namespace = none → call.name = member.flat →
    restoreFunctionCall map call = { call with «namespace» := some member.namespace, name := member.name }
  otherAnswer : ∀ call : FunctionToolCall, call.namespace ≠ none ∨ (∀ member ∈ members tools, member.flat ≠ call.name) →
    restoreFunctionCall map call = call
  object : ∀ type, ∀ member ∈ members tools, ∀ fields, textAt fields "type" = some type → textAt fields "namespace" = none →
    textAt fields "name" = some member.flat → restoreNamed type map (.obj fields) =
      .obj (insertField (insertField fields "namespace" (.str member.namespace)) "name" (.str member.name))
  item : ∀ fields, (restoreResponseFields map fields).lookup (utf8 "item") = (fields.lookup (utf8 "item")).map (restoreNamed "function_call" map)
  output : ∀ fields, (restoreResponseFields map fields).lookup (utf8 "output") = (fields.lookup (utf8 "output")).map (restoreOutputValue map)
  chosen : ∀ fields, (restoreResponseFields map fields).lookup (utf8 "tool_choice") =
    (fields.lookup (utf8 "tool_choice")).map (restoreNamed "function" map)
  nested : ∀ fields, ∀ key ∈ [utf8 "response", utf8 "payload"],
    (restoreResponseFields map fields).lookup key = (fields.lookup key).map (restoreResponseValue map)
  otherObject : ∀ type fields, (textAt fields "type" = some type → textAt fields "namespace" = none →
    ∀ member ∈ members tools, textAt fields "name" ≠ some member.flat) → restoreNamed type map (.obj fields) = .obj fields

/-- **Namespaces are reversible** wherever their map can be built. -/
theorem buildNamespaceMap_reversible :
    ∀ (tools : List ResponsesTool) (map : NamespaceMap), buildNamespaceMap (some tools) = .ok (some map) → Reversible tools map := by
  intro tools map built
  obtain ⟨unambiguous, maps⟩ := buildNamespaceMap_maps built
  exact {
    distinct := unambiguous.unique
    apart := fun member mem tool declared => unambiguous.not_hasName mem declared
    input := resolveInput_items
    call := fun member mem call named => rewriteItem_named maps mem named
    otherCall := fun call other => rewriteItem_other maps other
    choice := fun member mem «namespace» chosen named => resolveToolChoice_named maps mem named
    otherChoice := fun choice other => resolveToolChoice_other maps other
    answer := fun member mem call bare flat => restoreFunctionCall_flat maps unambiguous mem bare flat
    otherAnswer := fun call other => restoreFunctionCall_other maps other
    object := fun type member mem fields typed bare flat => restoreNamed_flat maps unambiguous mem typed bare flat
    item := fun fields => lookup_restoreResponseFields fields "item"
    output := fun fields => lookup_restoreResponseFields fields "output"
    chosen := fun fields => lookup_restoreResponseFields fields "tool_choice"
    nested := fun fields key nests => by
      simp only [List.mem_cons, List.not_mem_nil, or_false] at nests
      rcases nests with rfl | rfl
      · exact lookup_restoreResponseFields fields "response"
      · exact lookup_restoreResponseFields fields "payload"
    otherObject := fun type fields other => restoreNamed_other maps other }

def shellRun : ResponsesTool := .namespace ⟨"shell", none, [.function ⟨⟨"run", by decide⟩, none, none, none, none, []⟩], []⟩

/-- The flat name of the member `run` of `shell`, as a custom tool. -/
def customRun : CustomToolParam := ⟨⟨"agentic_ns__shell__run", by decide⟩, none, none, none, []⟩

/-- Two members of one name in two namespaces, one with a name that does not fit, beside a function and a server. -/
def mixedTools : List ResponsesTool :=
  [shellRun,
    .namespace ⟨"browser", none, [.function ⟨⟨"run", by decide⟩, none, none, none, none, []⟩,
      .function ⟨⟨"open_the_page_that_was_shown_before_the_last_one_was_opened", by decide⟩, none, none, none, none, []⟩], []⟩,
    .function ⟨⟨"run", by decide⟩, none, none, none, none, []⟩,
    .mcp ⟨" docs ", some "http://localhost", none, none, none, none, some "never", none, []⟩]

theorem buildNamespaceMap_reversible_shell : ∃ map, buildNamespaceMap (some mixedTools) = .ok (some map) ∧
    (members mixedTools).length = 3 ∧ Reversible mixedTools map :=
  ⟨_, rfl, by decide, buildNamespaceMap_reversible mixedTools _ rfl⟩

/-- The map is built though a custom tool has the flat name of a member. -/
theorem customTool_shares_flat : ∃ map, buildNamespaceMap (some [shellRun, .custom customRun]) = .ok (some map) ∧
    ∃ member ∈ members [shellRun, .custom customRun], ∃ function ∈ (ResponsesTool.custom customRun).toFunctionTools,
      function.name = member.flat :=
  ⟨_, rfl, ⟨"shell", "run"⟩, List.mem_cons_self, _, List.mem_cons_self, by decide⟩

end AgenticStack.Tools
