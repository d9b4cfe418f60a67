import AgenticStack.Types.WrittenMessages

/-!
# Items are read as they were written

An item is well formed if it is in the form that the readers give: its kept fields have none of
the names its struct knows, ids that may not be blank are not, and no optional value is null.
What a well formed item is written as is read as that item.
-/

namespace AgenticStack
set_option autoImplicit false
open Library

theorem InputFunctionToolCall.ofFields_fields (call : InputFunctionToolCall) :
    InputFunctionToolCall.ofFields (present call.fields) = some call := by
  have once : ([utf8 "id", utf8 "call_id", utf8 "name", utf8 "namespace", utf8 "arguments", utf8 "status"] :
    List Text).Nodup := by decide
  have at_ (key : Text) := @lookup_present _ _ call.fields key _ _ once
  have id := optionField_skipped (at_ "id") text_reads
  have call_id : requiredOf _ _ Json.asStr = some call.call_id := requiredOf_written (at_ "call_id") rfl
  have name : requiredOf _ _ Json.asStr = some call.name := requiredOf_written (at_ "name") rfl
  have namespace_ := optionField_skipped (at_ "namespace") text_reads
  have arguments : requiredOf _ _ Json.asStr = some call.arguments := requiredOf_written (at_ "arguments") rfl
  have status := optionField_skipped (at_ "status") messageStatus_reads
  simp only [InputFunctionToolCall.ofFields, id, call_id, name, namespace_, arguments, status]
  rfl

/-- An empty id would be replaced by a new one. -/
theorem FunctionToolCall.ofFields_fields {newId : NewId} {call : FunctionToolCall} (named : call.id ≠ []) :
    FunctionToolCall.ofFields newId (present call.fields) = some call := by
  have once : ([utf8 "id", utf8 "call_id", utf8 "name", utf8 "namespace", utf8 "arguments", utf8 "status"] :
    List Text).Nodup := by decide
  have at_ (key : Text) := @lookup_present _ _ call.fields key _ _ once
  have id : optionField _ _ Json.asStr = some (some call.id) := optionField_skipped (at_ "id") text_reads
  have call_id : defaultOf _ _ Json.asStr [] = some call.call_id := defaultOf_written (at_ "call_id") rfl
  have name : defaultOf _ _ Json.asStr [] = some call.name := defaultOf_written (at_ "name") rfl
  have namespace_ := optionField_skipped (at_ "namespace") text_reads
  have arguments : defaultOf _ _ Json.asStr [] = some call.arguments := defaultOf_written (at_ "arguments") rfl
  have status : nullableOf _ _ _ .completed = some call.status :=
    nullableOf_written (at_ "status") (fun no => nomatch no) (messageStatus_written call.status)
  simp only [FunctionToolCall.ofFields, id, call_id, name, namespace_, arguments, status, Option.bind_eq_bind,
    Option.bind_some, Option.filter_some, decide_eq_true named, if_true, Option.getD_some]
  rfl

theorem InputToolSearchCall.ofFields_fields {call : InputToolSearchCall} (id : isBlank call.id = false)
    (call_id : isBlank call.call_id = false) : InputToolSearchCall.ofFields (present call.fields) = some call := by
  have once : ([utf8 "id", utf8 "call_id", utf8 "execution", utf8 "arguments", utf8 "status"] : List Text).Nodup := by
    decide
  have at_ (key : Text) := @lookup_present _ _ call.fields key _ _ once
  have id := requiredOf_written (at_ "id") (asNonBlank_str id)
  have call_id := requiredOf_written (at_ "call_id") (asNonBlank_str call_id)
  have execution : defaultOf _ _ _ ToolSearchExecution.client = _ :=
    defaultOf_written (at_ "execution") (searchExecution_written call.execution)
  have arguments := requiredOf_value (at_ "arguments")
  have status : defaultOf _ _ _ ToolSearchStatus.completed = _ :=
    defaultOf_written (at_ "status") (searchStatus_written call.status)
  simp only [InputToolSearchCall.ofFields, id, call_id, execution, arguments, status]
  rfl

theorem ToolSearchCall.ofFields_fields {call : ToolSearchCall} (id : isBlank call.id = false)
    (call_id : isBlank call.call_id = false) : ToolSearchCall.ofFields (present call.fields) = some call := by
  have once : ([utf8 "id", utf8 "call_id", utf8 "execution", utf8 "arguments", utf8 "status"] : List Text).Nodup := by
    decide
  have at_ (key : Text) := @lookup_present _ _ call.fields key _ _ once
  have id := requiredOf_written (at_ "id") (asNonBlank_str id)
  have call_id := requiredOf_written (at_ "call_id") (asNonBlank_str call_id)
  have execution := requiredOf_written (at_ "execution") (searchExecution_written call.execution)
  have arguments := requiredOf_value (at_ "arguments")
  have status := requiredOf_written (at_ "status") (searchStatus_written call.status)
  simp only [ToolSearchCall.ofFields, id, call_id, execution, arguments, status]
  rfl

theorem asList_kept {α : Type} {read : α → Option α} {items : List α} (kept : ∀ a ∈ items, read a = some a) :
    items.mapM read = some items := by
  induction items with
  | nil => rfl
  | cons a items ih =>
    have later := ih fun b mem => kept b (List.mem_cons_of_mem _ mem)
    rw [List.mapM_cons, kept a List.mem_cons_self, later]
    rfl

theorem ToolSearchOutputMessage.ofFields_fields {output : ToolSearchOutputMessage} (call_id : isBlank output.call_id = false)
    (tools : ∀ tool ∈ output.tools, ResponsesTool.read tool = some tool) :
    ToolSearchOutputMessage.ofFields (present output.fields) = some output := by
  have once : ([utf8 "call_id", utf8 "execution", utf8 "status", utf8 "tools"] : List Text).Nodup := by decide
  have at_ (key : Text) := @lookup_present _ _ output.fields key _ _ once
  have call_id := requiredOf_written (at_ "call_id") (asNonBlank_str call_id)
  have execution : defaultOf _ _ _ ToolSearchExecution.client = _ :=
    defaultOf_written (at_ "execution") (searchExecution_written output.execution)
  have status : defaultOf _ _ _ ToolSearchStatus.completed = _ :=
    defaultOf_written (at_ "status") (searchStatus_written output.status)
  have tools : requiredOf _ _ (Json.asList ResponsesTool.read) = some output.tools :=
    requiredOf_written (at_ "tools") (asList_kept tools)
  simp only [ToolSearchOutputMessage.ofFields, call_id, execution, status, tools]
  rfl

theorem CustomToolCall.ofFields_fields (call : CustomToolCall) : CustomToolCall.ofFields (present call.fields) = some call := by
  have once : ([utf8 "id", utf8 "status", utf8 "call_id", utf8 "name", utf8 "input"] : List Text).Nodup := by decide
  have at_ (key : Text) := @lookup_present _ _ call.fields key _ _ once
  have id : defaultOf _ _ Json.asStr [] = some call.id := defaultOf_written (at_ "id") rfl
  have status := optionField_skipped (at_ "status") messageStatus_reads
  have call_id : defaultOf _ _ Json.asStr [] = some call.call_id := defaultOf_written (at_ "call_id") rfl
  have name : defaultOf _ _ Json.asStr [] = some call.name := defaultOf_written (at_ "name") rfl
  have input : defaultOf _ _ Json.asStr [] = some call.input := defaultOf_written (at_ "input") rfl
  simp only [CustomToolCall.ofFields, id, status, call_id, name, input]
  rfl

theorem uniqueField_eq {α : Type} {key : Text} {read : Json → Option α} {missing : Option α}
    {fields : List (Text × Json)} (once : (fields.map Prod.fst).Nodup) :
    uniqueField key read missing fields = ((fields.lookup key).map read).getD missing := by
  unfold uniqueField
  have same : fields.filter (fun field => field.1 == key) = ((fields.lookup key).map fun v => (key, v)).toList := by
    induction fields with
    | nil => rfl
    | cons field fields ih =>
      obtain ⟨other, v⟩ := field
      obtain ⟨new, later⟩ := List.nodup_cons.1 once
      by_cases here : other = key
      · subst here
        rw [List.filter_cons_of_pos (by simp), ih later, lookup_eq_none_iff_key.2 new, lookup_cons_self]
        rfl
      · rw [List.filter_cons_of_neg (by simpa using here), ih later, lookup_cons_ne here]
  rw [same]
  cases fields.lookup key <;> rfl

def ShellCallAction.known : List Text := ["commands", "timeout_ms", "max_output_length"]

def ShellCallAction.WellFormed (action : ShellCallAction) : Prop := Flattened ShellCallAction.known action.extra

theorem asOptionU64_ofNat {o : Option Nat} : ((o.map Json.ofNat).map Json.asOptionU64).getD (some none) = some o := by
  cases o <;> rfl

theorem ShellCallAction.ofFields_fields {action : ShellCallAction} (wf : action.WellFormed) :
    ShellCallAction.ofFields (present action.fields ++ action.extra) = some action := by
  have once : (action.fields.map Prod.fst).Nodup := by
    show ([utf8 "commands", utf8 "timeout_ms", utf8 "max_output_length"] : List Text).Nodup
    decide
  have own : ∀ key ∈ (present action.fields).map Prod.fst, key ∈ ShellCallAction.known :=
    fun key mem => mem_keys_of_present mem
  have all : ((present action.fields ++ action.extra).map Prod.fst).Nodup := by
    rw [List.map_append]
    refine List.nodup_append.2 ⟨nodup_present once, wf.once, ?_⟩
    rintro key mine _ other rfl
    exact wf.apart key other (own key mine)
  have at_ (key : Text) (mine : key ∈ ShellCallAction.known) :
      (present action.fields ++ action.extra).lookup key = (action.fields.lookup key).join :=
    (wf.lookup_append mine).trans (lookup_present once)
  have commands : uniqueField "commands" Json.asStrings none (present action.fields ++ action.extra) =
      some action.commands := by
    rw [uniqueField_eq all, at_ _ (by decide)]
    exact asStrings_written action.commands
  have timeout_ms : uniqueField "timeout_ms" Json.asOptionU64 (some none) (present action.fields ++ action.extra) =
      some action.timeout_ms := by
    rw [uniqueField_eq all, at_ _ (by decide)]
    exact asOptionU64_ofNat
  have max_output_length : uniqueField "max_output_length" Json.asOptionU64 (some none)
      (present action.fields ++ action.extra) = some action.max_output_length := by
    rw [uniqueField_eq all, at_ _ (by decide)]
    exact asOptionU64_ofNat
  have extra : insertFields ((present action.fields ++ action.extra).filter fun field =>
      !([utf8 "commands", "timeout_ms", "max_output_length"] : List Text).contains field.1) = action.extra := by
    have left := wf.filter_append own
    unfold ShellCallAction.known at left
    rw [left, insertFields_of_nodup wf.once]
  simp only [ShellCallAction.ofFields, commands, timeout_ms, max_output_length, Option.bind_eq_bind, Option.bind_some, extra]
  rfl

theorem ShellCallAction.toValue_eq {action : ShellCallAction} (wf : action.WellFormed) :
    action.toValue = .obj (present action.fields ++ action.extra) := by
  have once : (action.fields.map Prod.fst).Nodup := by
    show ([utf8 "commands", utf8 "timeout_ms", utf8 "max_output_length"] : List Text).Nodup
    decide
  rw [ShellCallAction.toValue, withExtra_eq wf (nodup_present once) fun key mem => mem_keys_of_present mem]

def ShellCall.known : List Text := ["id", "call_id", "action", "status"]

structure ShellCall.WellFormed (call : ShellCall) : Prop where
  action : call.action.WellFormed
  extra : Flattened ("type" :: ShellCall.known) call.extra

theorem ShellCall.ofFields_fields {call : ShellCall} (wf : call.WellFormed) :
    ShellCall.ofFields (present call.fields ++ call.extra) = some call := by
  have once : ([utf8 "id", utf8 "call_id", utf8 "action", utf8 "status"] : List Text).Nodup := by decide
  have flat : Flattened ShellCall.known call.extra := wf.extra.mono fun key mem => List.mem_cons_of_mem _ mem
  have at_ (key : Text) (mine : key ∈ ShellCall.known) :
      (present call.fields ++ call.extra).lookup key = (call.fields.lookup key).join :=
    (flat.lookup_append mine).trans (lookup_present once)
  have id := optionField_skipped (at_ "id" (by decide)) text_reads
  have call_id : requiredOf _ _ Json.asStr = some call.call_id := requiredOf_written (at_ "call_id" (by decide)) rfl
  have reads : (call.action.toValue.asObject.bind ShellCallAction.ofFields) = some call.action := by
    rw [ShellCallAction.toValue_eq wf.action]
    exact ShellCallAction.ofFields_fields wf.action
  have action := @requiredOf_written _ _ _ (fun v => v.asObject.bind ShellCallAction.ofFields) ShellCallAction.toValue _
    (at_ "action" (by decide)) reads
  have status := optionField_skipped (at_ "status" (by decide)) shellStatus_reads
  have extra : (present call.fields ++ call.extra).filter (fun field =>
      !([utf8 "id", "call_id", "action", "status"] : List Text).contains field.1) = call.extra :=
    flat.filter_append fun key mem => mem_keys_of_present mem
  simp only [ShellCall.ofFields, id, call_id, action, status, Option.bind_eq_bind, Option.bind_some, extra]
  rfl

def ShellCallOutcome.WellFormed : ShellCallOutcome → Prop
  | .exit exit_code => -2 ^ 31 ≤ exit_code ∧ exit_code < 2 ^ 31
  | _ => True

theorem asI32_ofInt {n : Int} (fits : -2 ^ 31 ≤ n ∧ n < 2 ^ 31) : Json.asI32 (Json.ofInt n) = some n := by
  have number : Json.asI64 (Json.ofInt n) = some n := by
    unfold Json.ofInt
    by_cases negative : n < 0
    · rw [if_pos negative, Json.asI64, if_pos (by omega)]
      congr 1
      omega
    · rw [if_neg negative, Json.asI64, if_pos (by omega)]
      congr 1
      omega
  rw [Json.asI32, number, Option.filter_some, if_pos (decide_eq_true fits)]

theorem ShellCallOutcome.ofJson_toValue {outcome : ShellCallOutcome} (wf : outcome.WellFormed) :
    ShellCallOutcome.ofJson outcome.toValue = some outcome := by
  cases outcome with
  | exit exit_code =>
    have code : requiredOf (present [(utf8 "exit_code", some (Json.ofInt exit_code))]) "exit_code" Json.asI32 =
        some exit_code := requiredOf_written lookup_cons_self (asI32_ofInt wf)
    rw [ShellCallOutcome.toValue, ShellCallOutcome.ofJson, readTag_taggedValue [utf8 "exit_code"] rfl (by decide)]
    simp only [Json.asStruct, Option.bind_eq_bind, Option.bind_some, code]
    rfl
  | timeout | unknown =>
    rw [ShellCallOutcome.toValue, ShellCallOutcome.ofJson, readTag_taggedValue [] rfl (by decide)]
    rfl

structure ShellCallOutputContent.WellFormed (content : ShellCallOutputContent) : Prop where
  outcome : content.outcome.WellFormed
  extra : Flattened ShellCallOutputContent.known content.extra

theorem ShellCallOutputContent.ofJson_toValue {content : ShellCallOutputContent} (wf : content.WellFormed) :
    ShellCallOutputContent.ofJson content.toValue = some content := by
  have once : (content.fields.map Prod.fst).Nodup := by
    show ([utf8 "stdout", utf8 "stderr", utf8 "outcome"] : List Text).Nodup
    decide
  have at_ (key : Text) (mine : key ∈ ShellCallOutputContent.known) :
      (present content.fields ++ content.extra).lookup key = (content.fields.lookup key).join :=
    (wf.extra.lookup_append mine).trans (lookup_present once)
  have stdout : defaultOf _ _ Json.asStr [] = some content.stdout := defaultOf_written (at_ "stdout" (by decide)) rfl
  have stderr : defaultOf _ _ Json.asStr [] = some content.stderr := defaultOf_written (at_ "stderr" (by decide)) rfl
  have outcome := requiredOf_written (at_ "outcome" (by decide)) (ShellCallOutcome.ofJson_toValue wf.outcome)
  have extra := @Flattened.filter_append _ (present content.fields) _ wf.extra fun key mem => mem_keys_of_present mem
  have whole := withExtra_eq wf.extra (nodup_present once) fun key mem => mem_keys_of_present mem
  simp only [ShellCallOutputContent.ofJson, ShellCallOutputContent.toValue, whole, Json.asObject, Option.bind_eq_bind,
    Option.bind_some, stdout, stderr, outcome, extra]
  rfl

structure ShellCallOutputMessage.WellFormed (output : ShellCallOutputMessage) : Prop where
  contents : ∀ content ∈ output.output, content.WellFormed
  extra : Flattened ("type" :: ShellCallOutputMessage.known) output.extra

theorem ShellCallOutputMessage.ofFields_fields {output : ShellCallOutputMessage} (wf : output.WellFormed) :
    ShellCallOutputMessage.ofFields (present output.fields ++ output.extra) = some output := by
  have once : ([utf8 "id", utf8 "call_id", utf8 "max_output_length", utf8 "output", utf8 "status"] : List Text).Nodup := by
    decide
  have flat : Flattened ShellCallOutputMessage.known output.extra :=
    wf.extra.mono fun key mem => List.mem_cons_of_mem _ mem
  have at_ (key : Text) (mine : key ∈ ShellCallOutputMessage.known) :
      (present output.fields ++ output.extra).lookup key = (output.fields.lookup key).join :=
    (flat.lookup_append mine).trans (lookup_present once)
  have id := optionField_skipped (at_ "id" (by decide)) text_reads
  have call_id : requiredOf _ _ Json.asStr = some output.call_id := requiredOf_written (at_ "call_id" (by decide)) rfl
  have max_output_length : optionField _ _ Json.asU64 = some output.max_output_length :=
    optionField_skipped (at_ "max_output_length" (by decide)) fun _ _ => ⟨(fun no => nomatch no), rfl⟩
  have contents : Json.asList ShellCallOutputContent.ofJson (.arr (output.output.map ShellCallOutputContent.toValue)) =
      some output.output := asList_written fun content mem => ShellCallOutputContent.ofJson_toValue (wf.contents content mem)
  have result := @requiredOf_written _ _ _ _ (fun xs : List ShellCallOutputContent =>
    .arr (xs.map ShellCallOutputContent.toValue)) _ (at_ "output" (by decide)) contents
  have status := optionField_skipped (at_ "status" (by decide)) shellStatus_reads
  have extra := @Flattened.filter_append _ (present output.fields) _ flat fun key mem => mem_keys_of_present mem
  simp only [ShellCallOutputMessage.ofFields, id, call_id, max_output_length, result, status, Option.bind_eq_bind,
    Option.bind_some, extra]
  rfl

theorem WebSearchSource.ofJson_toValue (source : WebSearchSource) : WebSearchSource.ofJson source.toValue = some source := by
  have once : ([utf8 "url", utf8 "title"] : List Text).Nodup := by decide
  have at_ (key : Text) := @lookup_present _ _ [(utf8 "url", some (Json.str source.url)),
    ("title", source.title.map .str)] key _ _ once
  have url : requiredOf _ _ Json.asStr = some source.url := requiredOf_written (at_ "url") rfl
  have title := optionField_skipped (at_ "title") text_reads
  simp only [WebSearchSource.ofJson, WebSearchSource.toValue, structValue, Json.asStruct, Option.bind_eq_bind,
    Option.bind_some, url, title]
  rfl

theorem readSearch_written (query : Text) (queries : List Text) (sources : List WebSearchSource) :
    WebSearchAction.ofJson (WebSearchAction.search query queries sources).toValue =
      some (.search query queries sources) := by
  have once : ([utf8 "query", utf8 "queries", utf8 "sources"] : List Text).Nodup := by decide
  have at_ (key : Text) := @lookup_present _ _ [(utf8 "query", some (Json.str query)),
    ("queries", some (.arr (queries.map .str))),
    ("sources", if sources.isEmpty then none else some (.arr (sources.map WebSearchSource.toValue)))] key _ _ once
  have query' : requiredOf _ _ Json.asStr = some query := requiredOf_written (at_ "query") rfl
  have queries' : defaultOf _ _ (Json.asList Json.asStr) [] = some queries :=
    @defaultOf_written _ _ _ _ (fun xs : List Text => .arr (xs.map .str)) _ _ (at_ "queries") (asList_written fun _ _ => rfl)
  have items : Json.asList WebSearchSource.ofJson (.arr (sources.map WebSearchSource.toValue)) = some sources :=
    asList_written fun source _ => source.ofJson_toValue
  have sources' := at_ "sources"
  have read : defaultOf (present [(utf8 "query", some (Json.str query)), ("queries", some (.arr (queries.map .str))),
      ("sources", if sources.isEmpty then none else some (.arr (sources.map WebSearchSource.toValue)))]) "sources"
      (Json.asList WebSearchSource.ofJson) [] = some sources := by
    unfold defaultOf
    rw [sources']
    cases sources with
    | nil => rfl
    | cons source sources => exact items
  rw [WebSearchAction.toValue, WebSearchAction.ofJson, readTag_taggedValue [utf8 "query", "queries", "sources"] rfl (by decide)]
  simp only [Json.asStruct, Option.bind_eq_bind, Option.bind_some, query', queries', read]
  rfl

theorem WebSearchAction.ofJson_toValue (action : WebSearchAction) : WebSearchAction.ofJson action.toValue = some action := by
  cases action with
  | search query queries sources => exact readSearch_written query queries sources
  | openPage url =>
    have once : ([utf8 "url"] : List Text).Nodup := by decide
    have at_ (key : Text) := @lookup_present _ _ [(utf8 "url", url.map Json.str)] key _ _ once
    have url' := optionField_skipped (at_ "url") text_reads
    rw [WebSearchAction.toValue, WebSearchAction.ofJson, readTag_taggedValue [utf8 "url"] rfl (by decide)]
    simp only [Json.asStruct, Option.bind_eq_bind, Option.bind_some, url']
    rfl
  | findInPage pattern url =>
    have once : ([utf8 "pattern", utf8 "url"] : List Text).Nodup := by decide
    have at_ (key : Text) := @lookup_present _ _ [(utf8 "pattern", some (Json.str pattern)), ("url", some (.str url))]
      key _ _ once
    have pattern' : requiredOf _ _ Json.asStr = some pattern := requiredOf_written (at_ "pattern") rfl
    have url' : requiredOf _ _ Json.asStr = some url := requiredOf_written (at_ "url") rfl
    rw [WebSearchAction.toValue, WebSearchAction.ofJson, readTag_taggedValue [utf8 "pattern", "url"] rfl (by decide)]
    simp only [Json.asStruct, Option.bind_eq_bind, Option.bind_some, pattern', url']
    rfl

theorem WebSearchCall.ofFields_fields (call : WebSearchCall) : WebSearchCall.ofFields (present call.fields) = some call := by
  have once : ([utf8 "id", utf8 "status", utf8 "action"] : List Text).Nodup := by decide
  have at_ (key : Text) := @lookup_present _ _ call.fields key _ _ once
  have id : requiredOf _ _ Json.asStr = some call.id := requiredOf_written (at_ "id") rfl
  have status := requiredOf_written (at_ "status") (gatewayStatus_written call.status)
  have action := requiredOf_written (at_ "action") call.action.ofJson_toValue
  simp only [WebSearchCall.ofFields, id, status, action]
  rfl

/-- An optional value is not a null that is there. -/
def NotNull (v : Option Json) : Prop := v ≠ some .null

theorem value_reads {v : Option Json} (there : NotNull v) : ∀ a ∈ v, a ≠ .null ∧ Json.asValue a = some a := by
  rintro a same
  cases same
  exact ⟨fun null => there (congrArg some null), rfl⟩

theorem optionValue_skipped {fields : List (Text × Json)} {key : Text} {v : Option Json} (there : NotNull v)
    (here : fields.lookup key = v) : optionField fields key Json.asValue = some v := by
  refine @optionField_skipped _ _ _ _ (fun v : Json => v) _ ?_ (value_reads there)
  rw [here, Option.map_id']

theorem optionValue_nulled {fields : List (Text × Json)} {key : Text} {v : Option Json} (there : NotNull v)
    (here : fields.lookup key = Json.orNull v) : optionField fields key Json.asValue = some v := by
  refine @optionField_nulled _ _ _ _ (fun v : Json => v) _ ?_ (value_reads there)
  rw [here, Option.map_id']

structure McpToolExecutionErrorContent.WellFormed (content : McpToolExecutionErrorContent) : Prop where
  annotations : NotNull content.annotations
  «meta» : NotNull content.meta

theorem McpToolExecutionErrorContent.ofJson_toValue {content : McpToolExecutionErrorContent} (wf : content.WellFormed) :
    McpToolExecutionErrorContent.ofJson content.toValue = some content := by
  have once : ([utf8 "type", utf8 "text", utf8 "annotations", utf8 "meta"] : List Text).Nodup := by decide
  have at_ (key : Text) := @lookup_present _ _ [(utf8 "type", some (Json.str content.type_)),
    ("text", some (.str content.text)), ("annotations", Json.orNull content.annotations),
    ("meta", Json.orNull content.meta)] key _ _ once
  have type_ : requiredOf _ _ Json.asStr = some content.type_ := requiredOf_written (at_ "type") rfl
  have text : requiredOf _ _ Json.asStr = some content.text := requiredOf_written (at_ "text") rfl
  have annotations := optionValue_nulled wf.annotations (at_ "annotations")
  have meta_ := optionValue_nulled wf.meta (at_ "meta")
  simp only [McpToolExecutionErrorContent.ofJson, McpToolExecutionErrorContent.toValue, structValue, Json.asStruct,
    Option.bind_eq_bind, Option.bind_some, type_, text, annotations, meta_]
  rfl

/-- A value of no known form is none of a known form. -/
def McpCallError.WellFormed : McpCallError → Prop
  | .text _ => True
  | .toolExecution _ content => ∀ c ∈ content, c.WellFormed
  | .unknown v => v ≠ .null ∧ v.asStr = none ∧ McpCallError.ofToolExecution v = none

theorem McpCallError.ofJson_toValue {error : McpCallError} (wf : error.WellFormed) :
    error.toValue ≠ .null ∧ McpCallError.ofJson error.toValue = some error := by
  cases error with
  | text t => exact ⟨(fun no => nomatch no), rfl⟩
  | toolExecution type_ content =>
    refine ⟨(fun no => nomatch no), ?_⟩
    have once : ([utf8 "type", utf8 "content"] : List Text).Nodup := by decide
    have at_ (key : Text) := @lookup_present _ _ [(utf8 "type", some (Json.str type_)),
      ("content", some (.arr (content.map McpToolExecutionErrorContent.toValue)))] key _ _ once
    have type' : requiredOf _ _ Json.asStr = some type_ := requiredOf_written (at_ "type") rfl
    have items : Json.asList McpToolExecutionErrorContent.ofJson (.arr (content.map McpToolExecutionErrorContent.toValue)) =
        some content := asList_written fun c mem => McpToolExecutionErrorContent.ofJson_toValue (wf c mem)
    have content' := @requiredOf_written _ _ _ _ (fun xs : List McpToolExecutionErrorContent =>
      .arr (xs.map McpToolExecutionErrorContent.toValue)) _ (at_ "content") items
    have read : McpCallError.ofToolExecution (McpCallError.toolExecution type_ content).toValue =
        some (.toolExecution type_ content) := by
      simp only [McpCallError.ofToolExecution, McpCallError.toValue, structValue, Json.asStruct, Option.bind_eq_bind,
        Option.bind_some, type', content']
      rfl
    show some ((McpCallError.ofToolExecution (McpCallError.toolExecution type_ content).toValue).getD _) = _
    rw [read]
    rfl
  | unknown v =>
    obtain ⟨some_, text, form⟩ := wf
    refine ⟨some_, ?_⟩
    cases v with
    | str t => cases text
    | _ => simp only [McpCallError.toValue, McpCallError.ofJson, form, Option.getD_none]

def McpCall.WellFormed (call : McpCall) : Prop := ∀ error ∈ call.error, error.WellFormed

theorem McpCall.ofFields_fields {call : McpCall} (wf : call.WellFormed) :
    McpCall.ofFields (present call.fields) = some call := by
  have once : ([utf8 "id", utf8 "server_label", utf8 "name", utf8 "arguments", utf8 "status", utf8 "approval_request_id",
    utf8 "output", utf8 "error"] : List Text).Nodup := by decide
  have at_ (key : Text) := @lookup_present _ _ call.fields key _ _ once
  have id : requiredOf _ _ Json.asStr = some call.id := requiredOf_written (at_ "id") rfl
  have server_label : requiredOf _ _ Json.asStr = some call.server_label := requiredOf_written (at_ "server_label") rfl
  have name : requiredOf _ _ Json.asStr = some call.name := requiredOf_written (at_ "name") rfl
  have arguments : requiredOf _ _ Json.asStr = some call.arguments := requiredOf_written (at_ "arguments") rfl
  have status := optionField_skipped (at_ "status") mcpStatus_reads
  have approval_request_id := optionField_nulled (at_ "approval_request_id") text_reads
  have output := optionField_nulled (at_ "output") text_reads
  have error := optionField_nulled (at_ "error") fun e mem => McpCallError.ofJson_toValue (wf e mem)
  simp only [McpCall.ofFields, id, server_label, name, arguments, status, approval_request_id, output, error]
  rfl

theorem McpListTool.ofJson_toValue {tool : McpListTool} (wf : NotNull tool.annotations) :
    McpListTool.ofJson tool.toValue = some tool := by
  have once : ([utf8 "name", utf8 "description", utf8 "input_schema", utf8 "annotations"] : List Text).Nodup := by decide
  have at_ (key : Text) := @lookup_present _ _ [(utf8 "name", some (Json.str tool.name)),
    ("description", tool.description.map .str), ("input_schema", some tool.input_schema),
    ("annotations", tool.annotations)] key _ _ once
  have name : requiredOf _ _ Json.asStr = some tool.name := requiredOf_written (at_ "name") rfl
  have description := optionField_skipped (at_ "description") text_reads
  have input_schema := requiredOf_value (at_ "input_schema")
  have annotations := optionValue_skipped wf (at_ "annotations")
  simp only [McpListTool.ofJson, McpListTool.toValue, structValue, Json.asStruct, Option.bind_eq_bind, Option.bind_some,
    name, description, input_schema, annotations]
  rfl

def McpListTools.WellFormed (list : McpListTools) : Prop := ∀ tool ∈ list.tools, NotNull tool.annotations

theorem McpListTools.ofFields_fields {list : McpListTools} (wf : list.WellFormed) :
    McpListTools.ofFields (present list.fields) = some list := by
  have once : ([utf8 "id", utf8 "server_label", utf8 "tools", utf8 "error"] : List Text).Nodup := by decide
  have at_ (key : Text) := @lookup_present _ _ list.fields key _ _ once
  have id : requiredOf _ _ Json.asStr = some list.id := requiredOf_written (at_ "id") rfl
  have server_label : requiredOf _ _ Json.asStr = some list.server_label := requiredOf_written (at_ "server_label") rfl
  have items : Json.asList McpListTool.ofJson (.arr (list.tools.map McpListTool.toValue)) = some list.tools :=
    asList_written fun tool mem => McpListTool.ofJson_toValue (wf tool mem)
  have tools := @requiredOf_written _ _ _ _ (fun xs : List McpListTool => .arr (xs.map McpListTool.toValue)) _
    (at_ "tools") items
  have error := optionField_skipped (at_ "error") text_reads
  simp only [McpListTools.ofFields, id, server_label, tools, error]
  rfl

theorem ReasoningTextContent.ofJson_toValue (content : ReasoningTextContent) :
    ReasoningTextContent.ofJson content.toValue = some content := by
  have once : ([utf8 "type", utf8 "text"] : List Text).Nodup := by decide
  have at_ (key : Text) := @lookup_present _ _ [(utf8 "type", some (Json.str content.type_)),
    ("text", some (.str content.text))] key _ _ once
  have type_ : requiredOf _ _ Json.asStr = some content.type_ := requiredOf_written (at_ "type") rfl
  have text : requiredOf _ _ Json.asStr = some content.text := requiredOf_written (at_ "text") rfl
  simp only [ReasoningTextContent.ofJson, ReasoningTextContent.toValue, structValue, Json.asStruct, Option.bind_eq_bind,
    Option.bind_some, type_, text]
  rfl

theorem ReasoningOutput.ofFields_fields {reasoning : ReasoningOutput} (wf : NotNull reasoning.encrypted_content) :
    ReasoningOutput.ofFields (present reasoning.fields) = some reasoning := by
  have once : ([utf8 "id", utf8 "content", utf8 "summary", utf8 "encrypted_content", utf8 "status"] : List Text).Nodup := by
    decide
  have at_ (key : Text) := @lookup_present _ _ reasoning.fields key _ _ once
  have id : defaultOf _ _ Json.asStr [] = some reasoning.id := defaultOf_written (at_ "id") rfl
  have items : Json.asList ReasoningTextContent.ofJson (.arr (reasoning.content.map ReasoningTextContent.toValue)) =
      some reasoning.content := asList_written fun content _ => content.ofJson_toValue
  have content : nullableOf _ _ (Json.asList ReasoningTextContent.ofJson) [] = some reasoning.content :=
    @nullableOf_written _ _ _ _ (fun xs : List ReasoningTextContent => .arr (xs.map ReasoningTextContent.toValue)) _ _
      (at_ "content") (fun no => nomatch no) items
  have summary : nullableOf _ _ Json.asArray [] = some reasoning.summary :=
    nullableOf_written (at_ "summary") (fun no => nomatch no) rfl
  have encrypted_content := optionValue_nulled wf (at_ "encrypted_content")
  have status := optionField_nulled (at_ "status") text_reads
  simp only [ReasoningOutput.ofFields, id, content, summary, encrypted_content, status]
  rfl

theorem CompactionItem.ofFields_fields (item : CompactionItem) : CompactionItem.ofFields (present item.fields) = some item := by
  have once : ([utf8 "id", utf8 "encrypted_content"] : List Text).Nodup := by decide
  have at_ (key : Text) := @lookup_present _ _ item.fields key _ _ once
  have id := optionField_skipped (at_ "id") text_reads
  have encrypted_content : requiredOf _ _ Json.asStr = some item.encrypted_content :=
    requiredOf_written (at_ "encrypted_content") rfl
  simp only [CompactionItem.ofFields, id, encrypted_content]
  rfl

/-- An input item in the form the reader gives. -/
def InputItem.WellFormed : InputItem → Prop
  | .toolSearchCall call => isBlank call.id = false ∧ isBlank call.call_id = false
  | .toolSearchOutput output => isBlank output.call_id = false ∧ ∀ tool ∈ output.tools, ResponsesTool.read tool = some tool
  | .shellCall call => call.WellFormed
  | .shellCallOutput output => output.WellFormed
  | .reasoning r => NotNull r.encrypted_content
  | .mcpListTools list => list.WellFormed
  | .unknown => False
  | _ => True

/-- An output item in the form the reader gives. -/
def OutputItem.WellFormed : OutputItem → Prop
  | .functionCall call => call.id ≠ []
  | .toolSearchCall call => isBlank call.id = false ∧ isBlank call.call_id = false
  | .shellCall call => call.WellFormed
  | .mcpCall call => call.WellFormed
  | .mcpListTools list => list.WellFormed
  | .reasoning r => NotNull r.encrypted_content
  | .unknown => False
  | _ => True

section
variable {type : Text} {fields : List (Text × Option Json)} {extra : List (Text × Json)}

/-- The type of an item stands before its fields, and what it keeps behind them. -/
theorem taggedFields_eq (keys : List Text) (same : fields.map Prod.fst = keys) (once : (utf8 "type" :: keys).Nodup)
    (flat : Flattened ("type" :: keys) extra) :
    taggedFields type fields extra = (utf8 "type", .str type) :: (present fields ++ extra) := by
  subst same
  obtain ⟨apart, once⟩ := List.nodup_cons.1 once
  unfold taggedFields
  rw [withExtra_eq flat]
  · rfl
  · exact List.nodup_cons.2 ⟨fun there => apart (mem_keys_of_present there), nodup_present once⟩
  · intro key mem
    rcases List.mem_cons.1 mem with rfl | mine
    · exact List.mem_cons_self
    · exact List.mem_cons_of_mem _ (mem_keys_of_present mine)

theorem lookup_taggedFields (keys : List Text) (same : fields.map Prod.fst = keys) (once : (utf8 "type" :: keys).Nodup)
    (flat : Flattened ("type" :: keys) extra) :
    (taggedFields type fields extra).lookup (utf8 "type") = some (.str type) := by
  rw [taggedFields_eq keys same once flat]
  exact lookup_cons_self

theorem filter_taggedFields (keys : List Text) (same : fields.map Prod.fst = keys) (once : (utf8 "type" :: keys).Nodup)
    (flat : Flattened ("type" :: keys) extra) :
    (taggedFields type fields extra).filter (fun field => field.1 != utf8 "type") = present fields ++ extra := by
  rw [taggedFields_eq keys same once flat]
  apply filter_tagged
  rw [List.map_append, List.mem_append]
  rintro (mine | other)
  · subst same
    exact (List.nodup_cons.1 once).1 (mem_keys_of_present mine)
  · exact flat.apart _ other List.mem_cons_self

theorem InputItem.ofJson_tagged (keys : List Text) (same : fields.map Prod.fst = keys) (once : (utf8 "type" :: keys).Nodup)
    (flat : Flattened ("type" :: keys) extra) :
    InputItem.ofJson (.obj (taggedFields type fields extra)) = InputItem.ofFields (some type) (present fields ++ extra) := by
  rw [InputItem.ofJson, lookup_taggedFields keys same once flat, filter_taggedFields keys same once flat]
  rfl

theorem OutputItem.ofJson_tagged {newId : NewId} (keys : List Text) (same : fields.map Prod.fst = keys)
    (once : (utf8 "type" :: keys).Nodup) (flat : Flattened ("type" :: keys) extra) :
    OutputItem.ofJson newId (.obj (taggedFields type fields extra)) =
      OutputItem.ofFields newId type (present fields ++ extra) := by
  have tag : requiredOf (taggedFields type fields extra) "type" Json.asStr = some type :=
    requiredOf_written (lookup_taggedFields keys same once flat) rfl
  rw [OutputItem.ofJson_obj, tag, Option.bind_some, filter_taggedFields keys same once flat]

end

/-- **An input item is read as it was written.** -/
theorem InputItem.ofJson_toFields {item : InputItem} (wf : item.WellFormed) :
    InputItem.ofJson (.obj item.toFields) = some item := by
  cases item with
  | message m =>
    rw [toFields, ofJson_tagged [utf8 "id", "role", "status", "content"] rfl (by decide) .nil, List.append_nil]
    show (InputMessage.ofFields _).map _ = _
    rw [InputMessage.ofFields_fields]
    rfl
  | functionCall call =>
    rw [toFields, ofJson_tagged [utf8 "id", "call_id", "name", "namespace", "arguments", "status"] rfl (by decide) .nil,
      List.append_nil]
    show (InputFunctionToolCall.ofFields _).map _ = _
    rw [InputFunctionToolCall.ofFields_fields]
    rfl
  | functionCallOutput output =>
    rw [toFields, ofJson_tagged [utf8 "call_id", "output"] rfl (by decide) .nil, List.append_nil]
    show (FunctionToolResultMessage.ofFields _).map _ = _
    rw [FunctionToolResultMessage.ofFields_fields]
    rfl
  | toolSearchCall call =>
    rw [toFields, ofJson_tagged [utf8 "id", "call_id", "execution", "arguments", "status"] rfl (by decide) .nil,
      List.append_nil]
    show (InputToolSearchCall.ofFields _).map _ = _
    rw [InputToolSearchCall.ofFields_fields wf.1 wf.2]
    rfl
  | toolSearchOutput output =>
    rw [toFields, ofJson_tagged [utf8 "call_id", "execution", "status", "tools"] rfl (by decide) .nil,
      List.append_nil]
    show (ToolSearchOutputMessage.ofFields _).map _ = _
    rw [ToolSearchOutputMessage.ofFields_fields wf.1 wf.2]
    rfl
  | customToolCall call =>
    rw [toFields, ofJson_tagged [utf8 "id", "status", "call_id", "name", "input"] rfl (by decide) .nil,
      List.append_nil]
    show (CustomToolCall.ofFields _).map _ = _
    rw [CustomToolCall.ofFields_fields]
    rfl
  | customToolCallOutput output =>
    rw [toFields, ofJson_tagged [utf8 "call_id", "name", "output"] rfl (by decide) .nil, List.append_nil]
    show (CustomToolCallOutputMessage.ofFields _).map _ = _
    rw [CustomToolCallOutputMessage.ofFields_fields]
    rfl
  | shellCall call =>
    rw [toFields, ofJson_tagged ShellCall.known rfl (by decide) wf.extra]
    show (ShellCall.ofFields _).map _ = _
    rw [ShellCall.ofFields_fields wf]
    rfl
  | shellCallOutput output =>
    rw [toFields, ofJson_tagged ShellCallOutputMessage.known rfl (by decide) wf.extra]
    show (ShellCallOutputMessage.ofFields _).map _ = _
    rw [ShellCallOutputMessage.ofFields_fields wf]
    rfl
  | reasoning r =>
    rw [toFields, ofJson_tagged [utf8 "id", "content", "summary", "encrypted_content", "status"] rfl (by decide) .nil,
      List.append_nil]
    show (ReasoningOutput.ofFields _).map _ = _
    rw [ReasoningOutput.ofFields_fields wf]
    rfl
  | mcpListTools list =>
    rw [toFields, ofJson_tagged [utf8 "id", "server_label", "tools", "error"] rfl (by decide) .nil, List.append_nil]
    show (McpListTools.ofFields _).map _ = _
    rw [McpListTools.ofFields_fields wf]
    rfl
  | compaction c =>
    rw [toFields, ofJson_tagged [utf8 "id", "encrypted_content"] rfl (by decide) .nil, List.append_nil]
    show (CompactionItem.ofFields _).map _ = _
    rw [CompactionItem.ofFields_fields]
    rfl
  | compactionTrigger =>
    rw [toFields, ofJson_tagged [] rfl (by decide) .nil]
    rfl
  | unknown => exact wf.elim

/-- **An output item is read as it was written.** -/
theorem OutputItem.ofJson_toFields {newId : NewId} {item : OutputItem} (wf : item.WellFormed) :
    OutputItem.ofJson newId (.obj item.toFields) = some item := by
  cases item with
  | message m =>
    rw [toFields, ofJson_tagged [utf8 "id", "role", "status", "content"] rfl (by decide) .nil, List.append_nil]
    show (OutputMessage.ofFields _).map _ = _
    rw [OutputMessage.ofFields_fields]
    rfl
  | functionCall call =>
    rw [toFields, ofJson_tagged [utf8 "id", "call_id", "name", "namespace", "arguments", "status"] rfl (by decide) .nil,
      List.append_nil]
    show (FunctionToolCall.ofFields newId _).map _ = _
    rw [FunctionToolCall.ofFields_fields wf]
    rfl
  | toolSearchCall call =>
    rw [toFields, ofJson_tagged [utf8 "id", "call_id", "execution", "arguments", "status"] rfl (by decide) .nil,
      List.append_nil]
    show (ToolSearchCall.ofFields _).map _ = _
    rw [ToolSearchCall.ofFields_fields wf.1 wf.2]
    rfl
  | customToolCall call =>
    rw [toFields, ofJson_tagged [utf8 "id", "status", "call_id", "name", "input"] rfl (by decide) .nil,
      List.append_nil]
    show (CustomToolCall.ofFields _).map _ = _
    rw [CustomToolCall.ofFields_fields]
    rfl
  | shellCall call =>
    rw [toFields, ofJson_tagged ShellCall.known rfl (by decide) wf.extra]
    show (ShellCall.ofFields _).map _ = _
    rw [ShellCall.ofFields_fields wf]
    rfl
  | webSearchCall call =>
    rw [toFields, ofJson_tagged [utf8 "id", "status", "action"] rfl (by decide) .nil, List.append_nil]
    show (WebSearchCall.ofFields _).map _ = _
    rw [WebSearchCall.ofFields_fields]
    rfl
  | mcpCall call =>
    rw [toFields, ofJson_tagged [utf8 "id", "server_label", "name", "arguments", "status", "approval_request_id", "output", "error"] rfl (by decide) .nil,
      List.append_nil]
    show (McpCall.ofFields _).map _ = _
    rw [McpCall.ofFields_fields wf]
    rfl
  | mcpListTools list =>
    rw [toFields, ofJson_tagged [utf8 "id", "server_label", "tools", "error"] rfl (by decide) .nil, List.append_nil]
    show (McpListTools.ofFields _).map _ = _
    rw [McpListTools.ofFields_fields wf]
    rfl
  | reasoning r =>
    rw [toFields, ofJson_tagged [utf8 "id", "content", "summary", "encrypted_content", "status"] rfl (by decide) .nil,
      List.append_nil]
    show (ReasoningOutput.ofFields _).map _ = _
    rw [ReasoningOutput.ofFields_fields wf]
    rfl
  | compaction c =>
    rw [toFields, ofJson_tagged [utf8 "id", "encrypted_content"] rfl (by decide) .nil, List.append_nil]
    show (CompactionItem.ofFields _).map _ = _
    rw [CompactionItem.ofFields_fields]
    rfl
  | unknown => exact wf.elim

end AgenticStack
