import AgenticStack.Messages.Seam
import AgenticStack.Tool.Declarations
import AgenticStack.Library.Outcome

/-!
# A request before its first round

The native declarations of the web search are checked and replaced by the function
that upstream knows. The smallest of the bounds they set is the request's budget.
-/

namespace AgenticStack.Messages
set_option autoImplicit false
open Library

/-- The type of a search that the model declares natively. -/
def NATIVE_WEB_SEARCH_TYPE : Text := "web_search_20250305"

/-- `str::contains`. -/
def containsText (part s : Text) : Bool := s.tails.any part.isPrefixOf

/-- A white-space character stands somewhere in the text. -/
def hasSpace (s : Text) : Bool := s.tails.any fun rest => (dropSpace rest).isSome

/-- Whether a domain has no scheme, no path and no space. -/
def validDomain (domain : Json) : Bool :=
  domain.asStr.any fun domain =>
    let domain := Engine.trim domain
    decide (domain ≠ []) && !containsText "://" domain && !(utf8 "/").isPrefixOf domain && !hasSpace domain

/-- A list of domains must be a list of domains. -/
def validateDomainList (tool : Json) (field : Text) : ExecutorResult PUnit :=
  match tool.get field with
  | none => .ok ()
  | some value =>
    if value.asArray.any (·.all validDomain) then .ok ()
    else .error (.invalidRequest (utf8 "web_search " ++ field ++ utf8 " must be an array of non-empty strings"))

/-- The callers must be a list with the model in it. -/
def validateAllowedCallers (tool : Json) : ExecutorResult PUnit :=
  match tool.get "allowed_callers" with
  | none => .ok ()
  | some value => match value.asArray with
    | none => .error (.invalidRequest "web_search allowed_callers must be an array of strings")
    | some callers =>
      if !callers.all (·.asStr.isSome) then .error (.invalidRequest "web_search allowed_callers must be an array of strings")
      else if !callers.any fun caller => caller.asStr == some (utf8 "direct") then
        .error (.invalidRequest "web_search allowed_callers must permit direct invocation")
      else .ok ()

/-- Whether one more part of the location is there. -/
def locationStep (location : List (Text × Json)) (has_location : Bool) (field : Text) : ExecutorResult Bool :=
  match location.lookup field with
  | none => .ok has_location
  | some value =>
    if value.asStr.any fun value => Engine.trim value ≠ [] then .ok true
    else .error (.invalidRequest (utf8 "web_search user_location." ++ field ++ utf8 " must be a non-empty string"))

/-- The location must be an approximate one that names a place. -/
def validateUserLocation (tool : Json) : ExecutorResult PUnit :=
  match tool.get "user_location" with
  | none => .ok ()
  | some value => match value.asObject with
    | none => .error (.invalidRequest "web_search user_location must be an object")
    | some location =>
      if (location.lookup (utf8 "type")).bind Json.asStr ≠ some (utf8 "approximate") then
        .error (.invalidRequest "web_search user_location.type must be approximate")
      else do
        let has_location ← ["city", "region", "country", "timezone"].foldlM (locationStep location) false
        if !has_location then
          throw (.invalidRequest "web_search user_location must include city, region, country, or timezone")

/-- The type of a tool. -/
def toolType (tool : Json) : Option Text := (tool.get "type").bind Json.asStr

/-- Whether the tool is the search. -/
def isWebSearch (tool : Json) : Bool := decide ((tool.get "name").bind Json.asStr = some WEB_SEARCH_EXECUTOR)

/-- Whether the tool is the native search. -/
def isNativeWebSearch (tool : Json) : Bool := decide (toolType tool = some NATIVE_WEB_SEARCH_TYPE) && isWebSearch tool

/-- Another version of the search than the one that is supported. -/
def isOtherVersion (tool_type : Text) : Bool := (utf8 "web_search_").isPrefixOf tool_type && decide (tool_type ≠ NATIVE_WEB_SEARCH_TYPE)

/-- Whether the tool names domains. -/
def namesDomains (tool : Json) (field : Text) : Bool := ((tool.get field).bind Json.asArray).any fun domains => !domains.isEmpty

/-- The bound of one declaration, where it sets one. -/
def parseMaxUses (tool : Json) : ExecutorResult (Option Nat) :=
  match tool.get "max_uses" with
  | none => .ok none
  | some value => match value.asU64.filter (0 < ·) with
    | none => .error (.invalidRequest "web_search max_uses must be a positive integer")
    | some parsed => .ok (some parsed)

/-- The fields of a native search must be in order. -/
def validateNativeWebSearch (tool : Json) : ExecutorResult PUnit := do
  validateDomainList tool "allowed_domains"
  validateDomainList tool "blocked_domains"
  if namesDomains tool "allowed_domains" && namesDomains tool "blocked_domains" then
    throw (.invalidRequest "web_search allowed_domains and blocked_domains cannot be used together")
  validateUserLocation tool
  validateAllowedCallers tool

/-- The smaller of two bounds that may be missing. -/
def smallerBound (max_uses : Option Nat) (parsed : Nat) : Nat := max_uses.elim parsed fun current => min current parsed

/-- The smallest bound of the declared searches so far. -/
def maxUsesStep (max_uses : Option Nat) (tool : Json) : ExecutorResult (Option Nat) :=
  if isWebSearch tool && (toolType tool).any isOtherVersion then
    .error (.invalidRequest (utf8 "unsupported web_search tool type '" ++ (toolType tool).getD [] ++ utf8 "'"))
  else if !isNativeWebSearch tool then .ok max_uses
  else do
    validateNativeWebSearch tool
    match ← parseMaxUses tool with
    | some parsed => return some (smallerBound max_uses parsed)
    | none => return max_uses

/-- The tools of a request. -/
def requestTools (raw : List (Text × Json)) : Option (List Json) := (raw.lookup (utf8 "tools")).bind Json.asArray

/-- The bound on the searches of a request. -/
def nativeWebSearchMaxUses (raw : List (Text × Json)) : ExecutorResult (Option Nat) :=
  match requestTools raw with
  | none => .ok none
  | some tools => tools.foldlM maxUsesStep none

/-- A text, or null. -/
def optionalText (value : Option Text) : Json := value.elim .null .str

/-- The function in place of a native declaration. -/
def normalizeTool (tool : Json) : Json :=
  if isNativeWebSearch tool then
    .obj [("name", .str Tools.webSearchFunctionTool.name), ("description", optionalText Tools.webSearchFunctionTool.description),
      ("input_schema", Tools.webSearchFunctionTool.parameters.getD .null)]
  else tool

/-- The upstream body and its searches. -/
def normalizeNativeWebSearch (raw : List (Text × Json)) : ExecutorResult (List (Text × Json) × WebSearchBudget) := do
  let max_uses ← nativeWebSearchMaxUses raw
  match requestTools raw with
  | none => return (raw, ⟨none⟩)
  | some tools => return (insertField raw "tools" (.arr (tools.map normalizeTool)), ⟨max_uses⟩)

/-- Reading the declarations leaves the other fields as they are. -/
theorem lookup_normalized {raw raw' : List (Text × Json)} {budget : WebSearchBudget} {key : Text}
    (normalized : normalizeNativeWebSearch raw = .ok (raw', budget)) (apart : key ≠ utf8 "tools") : raw'.lookup key = raw.lookup key := by
  obtain ⟨max_uses, _, done⟩ := bind_eq_ok.1 normalized
  cases found : requestTools raw with
  | none =>
    rw [found] at done
    cases done
    rfl
  | some tools =>
    rw [found] at done
    cases done
    exact lookup_insertField_ne apart

/-- A request that was parsed as one of Messages, and so has messages. -/
def MessagesRequestContext.fromParts (raw : List (Text × Json)) (messages : List Json)
    (has_messages : raw.lookup (utf8 "messages") = some (.arr messages)) : ExecutorResult MessagesRequestContext :=
  match normalized : normalizeNativeWebSearch raw with
  | .error error => .error error
  | .ok (raw', web_search_budget) =>
    .ok ⟨raw', messages, (lookup_normalized normalized (by decide)).trans has_messages, web_search_budget⟩

/-- The bounds the native declarations of a request set. -/
def declaredMaxUses (raw : List (Text × Json)) : List Nat :=
  (((requestTools raw).getD []).filter isNativeWebSearch).filterMap fun tool => (tool.get "max_uses").bind Json.asU64

/-- The smaller bound is no larger than any. -/
theorem smallerBound_le {max_uses : Option Nat} {parsed bound : Nat} (member : bound ∈ max_uses ∨ bound = parsed) :
    smallerBound max_uses parsed ≤ bound := by
  cases max_uses with
  | none =>
    rcases member with absent | rfl
    · cases absent
    · exact Nat.le_refl _
  | some current =>
    rcases member with here | rfl
    · cases here
      exact Nat.min_le_left _ _
    · exact Nat.min_le_right _ _

/-- The smaller bound is one of them. -/
theorem smallerBound_mem (max_uses : Option Nat) (parsed : Nat) :
    smallerBound max_uses parsed ∈ max_uses ∨ smallerBound max_uses parsed = parsed := by
  cases max_uses with
  | none => exact .inr rfl
  | some current =>
    rcases Nat.le_total current parsed with below | above
    · exact .inl (congrArg some (Nat.min_eq_left below).symm)
    · exact .inr (Nat.min_eq_right above)

/-- What one declaration adds. -/
def maxUsesOf (tool : Json) : Option Nat := if isNativeWebSearch tool then (tool.get "max_uses").bind Json.asU64 else none

/-- One declaration keeps the bound or makes it smaller. -/
theorem maxUsesStep_eq_ok {max_uses max_uses' : Option Nat} {tool : Json} (step : maxUsesStep max_uses tool = .ok max_uses') :
    (maxUsesOf tool = none ∧ max_uses' = max_uses) ∨
      ∃ parsed, maxUsesOf tool = some parsed ∧ max_uses' = some (smallerBound max_uses parsed) := by
  unfold maxUsesStep at step
  split at step
  · cases step
  · by_cases native : isNativeWebSearch tool = true
    · rw [native] at step
      obtain ⟨_, _, parses⟩ := bind_eq_ok.1 step
      obtain ⟨parsed, found, done⟩ := bind_eq_ok.1 parses
      rw [maxUsesOf, if_pos native]
      unfold parseMaxUses at found
      cases here : tool.get "max_uses" with
      | none =>
        rw [here] at found
        cases found
        cases done
        exact .inl ⟨rfl, rfl⟩
      | some value =>
        rw [here] at found
        dsimp only at found
        cases kept : value.asU64.filter (0 < ·) with
        | none =>
          rw [kept] at found
          cases found
        | some bound =>
          rw [kept] at found
          cases found
          cases done
          exact .inr ⟨bound, (Option.filter_eq_some_iff.1 kept).1, rfl⟩
    · rw [Bool.not_eq_true] at native
      rw [native] at step
      cases step
      rw [maxUsesOf, native]
      exact .inl ⟨rfl, rfl⟩

/-- Behind the declarations the bound is one that was set, and none is smaller. -/
theorem foldlM_maxUsesStep {tools : List Json} {max_uses max_uses' : Option Nat} (run : tools.foldlM maxUsesStep max_uses = .ok max_uses') :
    (∀ bound ∈ max_uses', bound ∈ max_uses ∨ bound ∈ tools.filterMap maxUsesOf) ∧
      ∀ bound, bound ∈ max_uses ∨ bound ∈ tools.filterMap maxUsesOf → ∃ least ∈ max_uses', least ≤ bound := by
  induction tools generalizing max_uses with
  | nil =>
    cases run
    refine ⟨fun bound member => .inl member, fun bound member => ?_⟩
    rcases member with here | absent
    · exact ⟨bound, here, Nat.le_refl _⟩
    · cases absent
  | cons tool tools ih =>
    rw [List.foldlM_cons] at run
    obtain ⟨between, step, rest⟩ := bind_eq_ok.1 run
    obtain ⟨from_set, below⟩ := ih rest
    rcases maxUsesStep_eq_ok step with ⟨unset, rfl⟩ | ⟨parsed, set, rfl⟩
    · rw [List.filterMap_cons_none unset]
      exact ⟨from_set, below⟩
    · rw [List.filterMap_cons_some set]
      constructor
      · intro bound member
        rcases from_set bound member with here | later
        · cases here
          rcases smallerBound_mem max_uses parsed with before | this
          · exact .inl before
          · rw [this]
            exact .inr List.mem_cons_self
        · exact .inr (List.mem_cons_of_mem _ later)
      · intro bound member
        have step_below (this : bound ∈ max_uses ∨ bound = parsed) : ∃ least ∈ max_uses', least ≤ bound := by
          obtain ⟨least, found, le⟩ := below _ (.inl rfl)
          exact ⟨least, found, Nat.le_trans le (smallerBound_le this)⟩
        rcases member with before | added
        · exact step_below (.inl before)
        · rcases List.mem_cons.1 added with same | later
          · exact step_below (.inr same)
          · exact below bound (.inr later)

/-- The bounds are those of the native searches. -/
theorem filterMap_maxUsesOf (tools : List Json) :
    tools.filterMap maxUsesOf = (tools.filter isNativeWebSearch).filterMap fun tool => (tool.get "max_uses").bind Json.asU64 := by
  rw [List.filterMap_filter]
  rfl

/-- **A request that is accepted** keeps its messages, and the searches it may run are bounded by the least of the bounds it sets. -/
theorem MessagesRequestContext.fromParts_eq_ok {raw : List (Text × Json)} {messages : List Json}
    {has_messages : raw.lookup (utf8 "messages") = some (.arr messages)} {ctx : MessagesRequestContext}
    (accepted : fromParts raw messages has_messages = .ok ctx) :
    ctx.messages = messages ∧ (∀ bound ∈ ctx.web_search_budget.remaining, bound ∈ declaredMaxUses raw) ∧
      ∀ bound ∈ declaredMaxUses raw, ∃ least ∈ ctx.web_search_budget.remaining, least ≤ bound := by
  unfold fromParts at accepted
  split at accepted
  · cases accepted
  · rename_i raw' budget normalized
    cases accepted
    refine ⟨rfl, ?_⟩
    obtain ⟨max_uses, counted, done⟩ := bind_eq_ok.1 normalized
    unfold nativeWebSearchMaxUses at counted
    unfold declaredMaxUses
    cases found : requestTools raw with
    | none =>
      rw [found] at done
      cases done
      exact ⟨fun bound absent => (nomatch absent), fun bound absent => (nomatch absent)⟩
    | some tools =>
      rw [found] at done counted
      cases done
      obtain ⟨from_set, below⟩ := foldlM_maxUsesStep counted
      rw [Option.getD_some, ← filterMap_maxUsesOf]
      constructor
      · intro bound member
        rcases from_set bound member with absent | set
        · cases absent
        · exact set
      · intro bound member
        exact below bound (.inr member)

end AgenticStack.Messages
