import AgenticStack.Executor.Accumulator.CallIds
import AgenticStack.Executor.Accumulator.ReadJson
import AgenticStack.Executor.Translate.SearchChecks

/-!
# Search calls are shown

The body of a response is checked before its output is read. What the check accepts is shown
without an error: the search call becomes the public item, or is left out where the response
failed before the call was finished, and nothing else of the output changes.
-/

namespace AgenticStack
set_option autoImplicit false
open Library Tools ToolSearch

/-- What a client is shown of a call of the search. -/
def shownCall (serde : SerdeJson) (status : ResponseStatus) (call : FunctionToolCall) : Option ToolSearchCall :=
  if call.status = .completed then
    some ⟨ToolSearch.publicItemId call.id, call.call_id, .client, (serde.fromStr call.arguments).getD .null, .completed⟩
  else if status = .incomplete then
    some ⟨ToolSearch.publicItemId call.id, call.call_id, .client, .obj [], .incomplete⟩
  else none

/-- What a client is shown of a search item of the upstream's own. -/
def shownNative (status : ResponseStatus) (call : ToolSearchCall) : Option ToolSearchCall :=
  if call.status = .completed then some call
  else if status = .incomplete then some { call with status := .incomplete }
  else none

/-- What a client is shown of an item. -/
def RoundTools.shownItem (serde : SerdeJson) (tools : RoundTools) (status : ResponseStatus) : OutputItem → Option OutputItem
  | .functionCall call =>
    if tools.toolType call.name = .toolSearch then (shownCall serde status call).map .toolSearchCall
    else some (.functionCall call)
  | .toolSearchCall call => (shownNative status call).map .toolSearchCall
  | item => some item

section
variable {fields : List (Text × Json)} {key : Text} {α : Type} {read : Json → Option α} {v d : α}

/-- A field that must be there is the field, whatever it would be without. -/
theorem defaultOf_of_required (found : requiredOf fields key read = some v) : defaultOf fields key read d = some v := by
  obtain ⟨value, here, made⟩ := Option.bind_eq_some_iff.1 found
  unfold defaultOf
  rw [here]
  exact made

/-- A field that is read where it is required is read where it may be missing. -/
theorem optionField_of_required (null : read .null = none) (found : requiredOf fields key read = some v) :
    optionField fields key read = some (some v) := by
  obtain ⟨value, here, made⟩ := Option.bind_eq_some_iff.1 found
  unfold optionField
  rw [here]
  cases value with
  | null =>
    rw [null] at made
    cases made
  | _ => exact congrArg (Option.map some) made

/-- A field that must be there is the field, where null stands for none. -/
theorem nullableOf_of_required (null : read .null = none) (found : requiredOf fields key read = some v) :
    nullableOf fields key read d = some v := by
  rw [nullableOf, optionField_of_required null found]
  rfl

/-- A field that is absent for a reader of any value is absent for every reader. -/
theorem optionField_absent (absent : optionField fields key Json.asValue = some none) : optionField fields key read = some none := by
  unfold optionField at absent ⊢
  split at absent
  · rfl
  · rfl
  · cases absent

/-- The tag of an item is no field of a call. -/
theorem FunctionToolCall.ofFields_untyped {newId : NewId} :
    FunctionToolCall.ofFields newId (fields.filter fun field => field.1 != utf8 "type") = FunctionToolCall.ofFields newId fields := by
  unfold FunctionToolCall.ofFields optionField defaultOf nullableOf optionField
  simp (disch := decide) only [lookup_untyped]

/-- The tag of an item is no field of a search. -/
theorem ToolSearchCall.ofFields_untyped :
    ToolSearchCall.ofFields (fields.filter fun field => field.1 != utf8 "type") = ToolSearchCall.ofFields fields := by
  unfold ToolSearchCall.ofFields requiredOf
  simp (disch := decide) only [lookup_untyped]

end

section
variable {serde : SerdeJson} {fields : List (Text × Json)} {newId : NewId} {call : FunctionToolCall} {native : ToolSearchCall}

/-- What the strict reader of a call asks. -/
theorem strictFunctionCall_ok (read : strictFunctionCall serde (.obj fields) = .ok call) :
    (∃ strict, StrictFunctionToolCall.ofFields fields = some strict ∧ strict.namespace = none ∧
      call = ⟨strict.id, strict.call_id, strict.name, none, strict.arguments, strict.status⟩) ∧
    startedPublicCall call = .ok ⟨ToolSearch.publicItemId call.id, call.call_id, .client, .obj [], .inProgress⟩ ∧
    call.id ≠ [] ∧ (call.status = .completed → ∃ value, serde.fromStr call.arguments = some value) := by
  unfold strictFunctionCall at read
  cases found : (Json.asStruct StrictFunctionToolCall.order (.obj fields)).bind StrictFunctionToolCall.ofFields with
  | none =>
    rw [found] at read
    cases read
  | some strict =>
    rw [found] at read
    dsimp only at read
    cases bare : strict.namespace with
    | some value =>
      rw [bare, if_pos Option.isSome_some] at read
      cases read
    | none =>
      rw [bare, if_neg (by simp)] at read
      obtain ⟨started, starts, read⟩ := bind_eq_ok.1 read
      have finished : call = ⟨strict.id, strict.call_id, strict.name, none, strict.arguments, strict.status⟩ ∧
          (strict.status = .completed → ∃ value, serde.fromStr strict.arguments = some value) := by
        split at read
        · obtain ⟨value, parsed, same⟩ := bind_eq_ok.1 read
          refine ⟨(pure_eq_ok.1 same).symm, fun _ => ⟨value, ?_⟩⟩
          unfold jsonValue at parsed
          split at parsed
          · cases parsed
            assumption
          · cases parsed
        · rename_i unfinished
          exact ⟨(pure_eq_ok.1 read).symm, fun completed => absurd completed unfinished⟩
      obtain ⟨rfl, parsed⟩ := finished
      have again := starts
      unfold startedPublicCall at again
      split at again
      · cases again
      · rename_i whole
        cases again
        refine ⟨⟨strict, found, bare, rfl⟩, starts, ?_, parsed⟩
        rintro (empty : strict.id = [])
        exact whole (.inl (by rw [empty]; rfl))

/-- What the strict reader accepts is read as an item with the same fields. -/
theorem ofFields_strict (read : strictFunctionCall serde (.obj fields) = .ok call) :
    FunctionToolCall.ofFields newId fields = some call := by
  obtain ⟨⟨strict, made, bare, rfl⟩, -, named, -⟩ := strictFunctionCall_ok read
  simp only [StrictFunctionToolCall.ofFields, Option.bind_eq_bind, Option.bind_eq_some_iff, Option.pure_def, Option.some.injEq] at made
  obtain ⟨id, id_, call_id, call_id_, name, name_, absent, absent_, arguments, arguments_, status, status_, rfl⟩ := made
  cases bare
  unfold FunctionToolCall.ofFields
  rw [optionField_of_required rfl id_, defaultOf_of_required call_id_, defaultOf_of_required name_, optionField_absent absent_,
    defaultOf_of_required arguments_, nullableOf_of_required rfl status_]
  have kept : (some id).filter (fun id => decide (id ≠ [])) = some id := by simp [Option.filter, named]
  show some (FunctionToolCall.mk (((some id).filter _).getD _) _ _ _ _ _) = _
  rw [kept]
  rfl

/-- A search that is read strictly is read. -/
theorem strictNativeCall_ok (read : strictNativeCall (.obj fields) = .ok native) : ToolSearchCall.ofFields fields = some native := by
  unfold strictNativeCall at read
  split at read
  · split at read
    · cases read
      assumption
    · cases read
  · split at read
    · cases read
      assumption
    · cases read
  · cases read

variable {raw : Json} {item : OutputItem} {tools : RoundTools} {status : ResponseStatus} {name : Text}

/-- An object is read as an item of the kind its type names. -/
theorem ofJson_kind (read : OutputItem.ofJson newId (.obj fields) = some item) :
    (∃ call, item = .functionCall call ∧ itemType (.obj fields) = utf8 "function_call" ∧
      FunctionToolCall.ofFields newId fields = some call) ∨
    (∃ call, item = .toolSearchCall call ∧ itemType (.obj fields) = utf8 "tool_search_call" ∧
      ToolSearchCall.ofFields fields = some call) ∨
    ((∀ call, item ≠ .functionCall call) ∧ (∀ call, item ≠ .toolSearchCall call)) := by
  rw [OutputItem.ofJson_obj] at read
  obtain ⟨type, typed, read⟩ := Option.bind_eq_some_iff.1 read
  have of_kind {kind : SSEItemType} (parsed : SSEItemType.parse type = some kind) : itemType (.obj fields) = some kind.asStr := by
    have same := List.find?_some (p := fun kind : SSEItemType => kind.asStr == type) parsed
    exact typed.trans (congrArg some (eq_of_beq same).symm)
  unfold OutputItem.ofFields at read
  split at read
  case h_2 kind =>
    obtain ⟨call, made, rfl⟩ := Option.map_eq_some_iff.1 read
    rw [FunctionToolCall.ofFields_untyped] at made
    exact .inl ⟨call, rfl, of_kind kind, made⟩
  case h_3 kind =>
    obtain ⟨call, made, rfl⟩ := Option.map_eq_some_iff.1 read
    rw [ToolSearchCall.ofFields_untyped] at made
    exact .inr (.inl ⟨call, rfl, of_kind kind, made⟩)
  case h_11 =>
    cases read
    exact .inr (.inr ⟨fun _ no => OutputItem.noConfusion no, fun _ no => OutputItem.noConfusion no⟩)
  all_goals
    obtain ⟨_, -, rfl⟩ := Option.map_eq_some_iff.1 read
    exact .inr (.inr ⟨fun _ no => OutputItem.noConfusion no, fun _ no => OutputItem.noConfusion no⟩)

/-- A call is read by its fields. -/
theorem ofJson_call (typed : itemType (.obj fields) = utf8 "function_call") :
    OutputItem.ofJson newId (.obj fields) = (FunctionToolCall.ofFields newId fields).map .functionCall := by
  have named : requiredOf fields "type" Json.asStr = some (utf8 "function_call") := typed
  rw [OutputItem.ofJson_obj, named]
  show (FunctionToolCall.ofFields newId (fields.filter fun field => field.1 != utf8 "type")).map OutputItem.functionCall = _
  rw [FunctionToolCall.ofFields_untyped]

/-- The item of a search is read as a search. -/
theorem ofJson_native (typed : itemType (.obj fields) = utf8 "tool_search_call") :
    OutputItem.ofJson newId (.obj fields) = (ToolSearchCall.ofFields fields).map .toolSearchCall := by
  have named : requiredOf fields "type" Json.asStr = some (utf8 "tool_search_call") := typed
  rw [OutputItem.ofJson_obj, named]
  show (ToolSearchCall.ofFields (fields.filter fun field => field.1 != utf8 "type")).map OutputItem.toolSearchCall = _
  rw [ToolSearchCall.ofFields_untyped]

/-- The name of a call is that of its object, or the object has none. -/
theorem itemName_ofFields (read : FunctionToolCall.ofFields newId fields = some call) :
    itemName (.obj fields) = some call.name ∨ (itemName (.obj fields) = none ∧ call.name = []) := by
  simp only [FunctionToolCall.ofFields, Option.bind_eq_bind, Option.bind_eq_some_iff, Option.pure_def, Option.some.injEq] at read
  obtain ⟨_, -, _, -, name, found, _, -, _, -, _, -, rfl⟩ := read
  unfold defaultOf at found
  have named : itemName (.obj fields) = (fields.lookup (utf8 "name")).bind Json.asStr := rfl
  cases here : fields.lookup (utf8 "name") with
  | none =>
    rw [here] at found named
    cases found
    exact .inr ⟨named, rfl⟩
  | some v =>
    rw [here] at found named
    exact .inl (named.trans found)

/-- A search may be unfinished where the response is. -/
theorem projectUnfinished_allowed {started : ToolSearchCall} (allowed : allowsUnfinished status = true) :
    projectUnfinished (.ok started) status = .ok (if status = .incomplete then some { started with status := .incomplete } else none) := by
  cases status with
  | incomplete => rfl
  | error => rfl
  | inProgress => cases allowed
  | completed => cases allowed

/-- A call that is finished, or may be left unfinished, becomes the item that is shown. -/
theorem projectSyntheticCall_accepted (read : strictFunctionCall serde (.obj fields) = .ok call)
    (finished : allowsUnfinished status = true ∨ call.status = .completed) :
    projectSyntheticCall serde call status false = .ok (shownCall serde status call) := by
  obtain ⟨-, starts, -, parsed⟩ := strictFunctionCall_ok read
  unfold projectSyntheticCall shownCall
  by_cases completed : call.status = .completed
  · obtain ⟨value, parses⟩ := parsed completed
    rw [if_pos ⟨rfl, completed⟩, if_pos completed]
    unfold completedPublicCall jsonValue
    rw [if_neg (not_not_intro completed), starts, parses]
    rfl
  · rw [if_neg fun both => completed both.2, if_neg completed, starts, projectUnfinished_allowed (finished.resolve_right completed)]

/-- A search that may be as it is is shown. -/
theorem projectNativeCall_accepted (finished : allowsUnfinished status = true ∨ native.status = .completed) :
    projectNativeCall native status = .ok (shownNative status native) := by
  unfold projectNativeCall shownNative
  by_cases completed : native.status = .completed
  · rw [if_pos completed, if_pos completed]
  · rw [if_neg completed, if_neg completed, projectUnfinished_allowed (finished.resolve_right completed)]

/-- What may be left unfinished is left out of a failed response only. -/
theorem error_of_left_out (allowed : allowsUnfinished status = true) (shown : status ≠ .incomplete) : status = .error := by
  cases status with
  | incomplete => exact absurd rfl shown
  | error => rfl
  | inProgress => cases allowed
  | completed => cases allowed

/-- Nothing is shown of a search only where the response has failed. -/
theorem shownCall_none (finished : allowsUnfinished status = true ∨ call.status = .completed)
    (out : shownCall serde status call = none) : status = .error := by
  unfold shownCall at out
  split at out
  · cases out
  · rename_i unfinished
    split at out
    · cases out
    · exact error_of_left_out (finished.resolve_right unfinished) ‹_›

/-- Nothing is shown of a search only where the response has failed. -/
theorem shownNative_none (finished : allowsUnfinished status = true ∨ native.status = .completed)
    (out : shownNative status native = none) : status = .error := by
  unfold shownNative at out
  split at out
  · cases out
  · rename_i unfinished
    split at out
    · cases out
    · exact error_of_left_out (finished.resolve_right unfinished) ‹_›

theorem or_of_unfinished {allowed : Bool} {completed : Prop} (h : ¬(allowed = false ∧ ¬completed)) : allowed = true ∨ completed := by
  cases allowed <;> tauto

/-- What the check reads of a call of the search. -/
theorem readBlockingSearch_call {made : Option Unit} {active allowed : Bool} (typed : itemType raw = utf8 "function_call")
    (search : isBlockingSearch active raw = true) (readable : readBlockingSearch serde active allowed raw = .ok made) :
    ∃ call, strictFunctionCall serde raw = .ok call ∧ (allowed = true ∨ call.status = .completed) := by
  unfold readBlockingSearch at readable
  rw [if_neg (by rw [typed]; decide), if_pos search] at readable
  obtain ⟨call, read, readable⟩ := bind_eq_ok.1 readable
  split at readable
  · cases readable
  · exact ⟨call, read, or_of_unfinished ‹_›⟩

/-- The search of a whole response is read and shown. -/
theorem readBlockingSearch_native {made : Option Unit} {active allowed : Bool} (typed : itemType raw = utf8 "tool_search_call")
    (readable : readBlockingSearch serde active allowed raw = .ok made) :
    ∃ call, strictNativeCall raw = .ok call ∧ (allowed = true ∨ call.status = .completed) := by
  unfold readBlockingSearch at readable
  rw [if_pos typed] at readable
  obtain ⟨call, read, readable⟩ := bind_eq_ok.1 readable
  split at readable
  · cases readable
  · exact ⟨call, read, or_of_unfinished ‹_›⟩

/-- What has a type is an object. -/
theorem obj_of_itemType (typed : itemType raw = some name) : ∃ fields, raw = .obj fields := by
  cases raw with
  | obj fields => exact ⟨fields, rfl⟩
  | _ => cases typed

/-- Only a call or a native item is a search. -/
theorem isBlockingSearch_iff {active : Bool} : isBlockingSearch active raw = true ↔ itemType raw = utf8 "tool_search_call" ∨
    (itemType raw = utf8 "function_call" ∧ active = true ∧ itemName raw = TOOL_SEARCH_NAME) := by
  unfold isBlockingSearch
  simp only [Bool.or_eq_true, Bool.and_eq_true, decide_eq_true_eq, and_assoc]

/-- **A search that the check lets through is read**: as a call of the search, or as an item of the upstream's own. -/
theorem isSearchOutput_accepted {made : Option Unit} {allowed : Bool} (search : isBlockingSearch tools.tool_search_active raw = true)
    (readable : readBlockingSearch serde tools.tool_search_active allowed raw = .ok made) :
    ((OutputItem.ofJson newId raw).map (isSearchOutput tools)).getD false = true := by
  rcases isBlockingSearch_iff.1 search with typed | ⟨typed, active, named⟩
  · obtain ⟨call, read, -⟩ := readBlockingSearch_native typed readable
    obtain ⟨fields, rfl⟩ := obj_of_itemType typed
    rw [ofJson_native typed, strictNativeCall_ok read]
    rfl
  · obtain ⟨call, read, -⟩ := readBlockingSearch_call typed search readable
    obtain ⟨fields, rfl⟩ := obj_of_itemType typed
    have known : call.name = TOOL_SEARCH_NAME := by
      rcases itemName_ofFields (@ofFields_strict serde fields newId call read) with same | ⟨none, -⟩
      · exact Option.some.inj (same.symm.trans named)
      · rw [named] at none
        cases none
    rw [ofJson_call typed, ofFields_strict read]
    show decide (tools.toolType call.name = .toolSearch) = true
    rw [known, toolType_search active]
    rfl

/-- **One item**: what the check of the body lets through is shown without an error, and left out of a failed response only. -/
theorem normalizeItem_accepted {made : Option Unit} (classified : tools.Classified) (unnamed : [] ∉ tools.withheld_function_names)
    (guarded : blockingGuard tools.withheld_function_names (.obj fields) = .ok ())
    (readable : readBlockingSearch serde tools.tool_search_active (allowsUnfinished status) (.obj fields) = .ok made)
    (read : OutputItem.ofJson newId (.obj fields) = some item) :
    normalizeGuard tools item = .ok () ∧
      (isSearchOutput tools item = true → isBlockingSearch tools.tool_search_active (.obj fields) = true) ∧
      normalizeItem serde tools status [] item = .ok (tools.shownItem serde status item) ∧
      (tools.shownItem serde status item = none → status = .error) := by
  obtain ⟨call, rfl, typed, decoded⟩ | ⟨call, rfl, typed, decoded⟩ | ⟨other, foreign⟩ := ofJson_kind read
  · have available : call.name ∉ tools.withheld_function_names := by
      rcases itemName_ofFields decoded with named | ⟨-, empty⟩
      · unfold blockingGuard ensureFunctionIsAvailable at guarded
        rw [typed, named] at guarded
        simpa using guarded
      · rw [empty]
        exact unnamed
    have passes : normalizeGuard tools (.functionCall call) = .ok () := by
      unfold normalizeGuard RoundTools.isWithheldFunction
      simp [available, ensureFunctionIsAvailable, liftTool, Except.mapError]
    refine ⟨passes, ?_⟩
    unfold isSearchOutput normalizeItem RoundTools.shownItem
    by_cases search : tools.toolType call.name = .toolSearch
    · obtain ⟨active, known⟩ := classified _ search
      have named : itemName (.obj fields) = some TOOL_SEARCH_NAME := by
        rcases itemName_ofFields decoded with named | ⟨-, empty⟩
        · exact named.trans (congrArg some known)
        · rw [known] at empty
          exact absurd empty (by decide)
      have searched := isBlockingSearch_iff.2 (.inr ⟨typed, active, named⟩)
      obtain ⟨strict, strictly, finished⟩ := readBlockingSearch_call typed searched readable
      obtain rfl : strict = call := Option.some.inj ((ofFields_strict strictly).symm.trans decoded)
      refine ⟨fun _ => searched, ?_, fun out => ?_⟩
      · dsimp only
        rw [if_pos search, if_pos search, List.contains_nil, projectSyntheticCall_accepted strictly finished]
        rfl
      · dsimp only at out
        rw [if_pos search, Option.map_eq_none_iff] at out
        exact shownCall_none finished out
    · refine ⟨fun no => absurd (of_decide_eq_true no) search, ?_, fun out => ?_⟩
      · dsimp only
        rw [if_neg search, if_neg search, List.contains_nil, Bool.and_false, if_neg Bool.false_ne_true]
      · dsimp only at out
        rw [if_neg search] at out
        cases out
  · obtain ⟨strict, strictly, finished⟩ := readBlockingSearch_native typed readable
    obtain rfl : strict = call := Option.some.inj ((strictNativeCall_ok strictly).symm.trans decoded)
    refine ⟨rfl, fun _ => isBlockingSearch_iff.2 (.inl typed), ?_, fun out => ?_⟩
    · show (liftTool (projectNativeCall strict status)).map (·.map OutputItem.toolSearchCall) = _
      rw [projectNativeCall_accepted finished]
      rfl
    · exact shownNative_none finished (Option.map_eq_none_iff.1 out)
  · cases item with
    | functionCall call => exact absurd rfl (other call)
    | toolSearchCall call => exact absurd rfl (foreign call)
    | _ => exact ⟨rfl, fun no => absurd no Bool.false_ne_true, rfl, fun out => absurd out (Option.some_ne_none _)⟩

/-- `ResponseIngest::load_json_body`, before anything else is read. -/
def RoundTools.loadJsonBody (items : ItemSerde) (serde : SerdeJson) (tools : RoundTools) (newIds : Nat → NewId) (body : Text)
    (conversation_id : Option Text) (validation : Validation) : ExecutorResult ResponseAccumulator := do
  tools.validateJsonBody serde body
  ResponseAccumulator.readJson items serde newIds body conversation_id validation

variable {newIds : Nat → NewId} {body : Text} {conversation_id : Option Text} {validation : Validation} {acc : ResponseAccumulator}
  {errorText : Json → Text} {sameValue : OutputItem → OutputItem → Bool} {output : List Json}

/-- What is read of a body: its status and the items of its output. -/
theorem readJson_ok {items : ItemSerde} (read : ResponseAccumulator.readJson items serde newIds body conversation_id validation = .ok acc) :
    ∃ json, serde.fromStr body = some json ∧ acc.status = blockingStatus json ∧
      acc.output = readItemsOpt items newIds (outputOf json) := by
  have status {json : Json} : ((json.at_ "status").asStr.map ResponseStatus.parse).getD .completed = blockingStatus json := by
    unfold blockingStatus Json.at_
    cases json.get (utf8 "status") with
    | none => rfl
    | some value => cases value <;> rfl
  have output {json : Json} : (json.at_ "output").asArray.getD [] = outputOf json := by
    unfold outputOf Json.at_
    cases json.get (utf8 "output") with
    | none => rfl
    | some value => cases value <;> rfl
  unfold ResponseAccumulator.readJson at read
  cases parsed : serde.fromStr body with
  | none =>
    rw [parsed] at read
    cases read
  | some json =>
    rw [parsed] at read
    refine ⟨json, rfl, ?_⟩
    cases named : (json.at_ "id").asStr with
    | none =>
      simp only [pure_bind, named] at read
      split at read
      · obtain ⟨_, -, read⟩ := bind_eq_ok.1 read
        cases read
      · cases read
    | some response_id =>
      simp only [pure_bind, named] at read
      split at read
      · obtain ⟨_, -, read⟩ := bind_eq_ok.1 read
        cases pure_eq_ok.1 read
        exact ⟨status, congrArg (readItemsOpt items newIds) output⟩
      · cases pure_eq_ok.1 read
        exact ⟨status, congrArg (readItemsOpt items newIds) output⟩

/-- The searches of an output are read, all of them and nothing else. -/
theorem countP_readItemsOpt (searches : ∀ raw ∈ output, ∀ newId,
      ((OutputItem.ofJson newId raw).map (isSearchOutput tools)).getD false = isBlockingSearch tools.tool_search_active raw) :
    (readItemsOpt (ItemSerde.derived errorText sameValue) newIds output).countP (isSearchOutput tools) =
      output.countP (isBlockingSearch tools.tool_search_active) := by
  unfold readItemsOpt
  rw [List.countP_filterMap]
  calc output.zipIdx.countP _
      = output.zipIdx.countP (isBlockingSearch tools.tool_search_active ∘ Prod.fst) := by
        apply List.countP_congr
        intro entry mem
        rw [SlotMap.derived_itemOpt, searches entry.1 (List.fst_mem_of_mem_zipIdx mem)]
        rfl
    _ = (output.zipIdx.map Prod.fst).countP (isBlockingSearch tools.tool_search_active) := List.countP_map.symm
    _ = output.countP (isBlockingSearch tools.tool_search_active) := by rw [List.zipIdx_map_fst]

/-- A list is mapped where each member is. -/
theorem mapM_eq_ok_map {α β ε : Type} {f : α → Except ε β} {g : α → β} {l : List α} (same : ∀ a ∈ l, f a = .ok (g a)) :
    l.mapM f = .ok (l.map g) := by
  induction l with
  | nil => rfl
  | cons a l ih =>
    rw [List.forall_mem_cons] at same
    exact mapM_cons_eq_ok.2 ⟨g a, l.map g, same.1, ih same.2, rfl⟩

/-- A checked output of objects is shown. -/
theorem normalizeSearches_accepted (classified : tools.Classified) (unnamed : [] ∉ tools.withheld_function_names)
    (objects : ∀ raw ∈ output, ∃ fields, raw = .obj fields)
    (valid : validateBlockingItems serde tools.tool_search_active tools.withheld_function_names status output = .ok ()) {items : List OutputItem}
    (read : items = readItemsOpt (ItemSerde.derived errorText sameValue) newIds output) :
    normalizeSearches serde tools items status [] = .ok (items.filterMap (tools.shownItem serde status)) ∧
      items.countP (isSearchOutput tools) = output.countP (isBlockingSearch tools.tool_search_active) ∧
      output.countP (isBlockingSearch tools.tool_search_active) ≤ 1 ∧
      ∀ item ∈ items, normalizeGuard tools item = .ok () ∧ (tools.shownItem serde status item = none → status = .error) := by
  obtain ⟨_, scanned, -⟩ := map_eq_ok.1 valid
  obtain ⟨guards, once, made, reads, -⟩ := scanOnce_eq_ok.1 scanned
  have readable : ∀ raw ∈ output, ∃ made, readBlockingSearch serde tools.tool_search_active (allowsUnfinished status) raw = .ok made := by
    intro raw mem
    obtain ⟨i, here, rfl⟩ := List.getElem_of_mem mem
    exact ⟨_, (forall₂_of_mapM reads).get here ((forall₂_of_mapM reads).length_eq ▸ here)⟩
  have searches : ∀ raw ∈ output, ∀ newId,
      ((OutputItem.ofJson newId raw).map (isSearchOutput tools)).getD false = isBlockingSearch tools.tool_search_active raw := by
    intro raw mem newId
    obtain ⟨made, reads⟩ := readable raw mem
    obtain ⟨fields, rfl⟩ := objects raw mem
    rw [Bool.eq_iff_iff]
    refine ⟨fun shown => ?_, fun search => isSearchOutput_accepted search reads⟩
    cases decoded : OutputItem.ofJson newId (.obj fields) with
    | none =>
      rw [decoded] at shown
      cases shown
    | some item =>
      rw [decoded] at shown
      exact (normalizeItem_accepted classified unnamed (guards _ mem) reads decoded).2.1 shown
  have counted : items.countP (isSearchOutput tools) = output.countP (isBlockingSearch tools.tool_search_active) := by
    rw [read]
    exact countP_readItemsOpt searches
  have from_raw : ∀ item ∈ items, normalizeGuard tools item = .ok () ∧
      normalizeItem serde tools status [] item = .ok (tools.shownItem serde status item) ∧
      (tools.shownItem serde status item = none → status = .error) := by
    intro item mem
    rw [read] at mem
    obtain ⟨entry, here, decoded⟩ := List.mem_filterMap.1 mem
    have listed := List.fst_mem_of_mem_zipIdx here
    obtain ⟨made, reads⟩ := readable entry.1 listed
    have guarded := guards entry.1 listed
    obtain ⟨fields, is_object⟩ := objects entry.1 listed
    rw [SlotMap.derived_itemOpt, is_object] at decoded
    rw [is_object] at reads guarded
    obtain ⟨passes, -, shown⟩ := normalizeItem_accepted classified unnamed guarded reads decoded
    exact ⟨passes, shown⟩
  have few : output.countP (isBlockingSearch tools.tool_search_active) ≤ 1 := by
    simpa using once
  refine ⟨?_, counted, few, fun item mem => ⟨(from_raw item mem).1, (from_raw item mem).2.2⟩⟩
  refine scanOnce_eq_ok.2 ⟨fun item mem => (from_raw item mem).1, counted ▸ once, _,
    mapM_eq_ok_map fun item mem => (from_raw item mem).2.1, ?_⟩
  rw [List.filterMap_map]
  rfl

/-- A body that is looked at is loaded only when its items are valid. -/
theorem loadJsonBody_ok {items : ItemSerde} (checked : tools.skips body = false)
    (loads : tools.loadJsonBody items serde newIds body conversation_id validation = .ok acc) :
    ∃ json, serde.fromStr body = some json ∧
      validateBlockingItems serde tools.tool_search_active tools.withheld_function_names acc.status (outputOf json) = .ok () ∧
      acc.output = readItemsOpt items newIds (outputOf json) := by
  unfold RoundTools.loadJsonBody RoundTools.validateJsonBody validateBlockingResponse at loads
  obtain ⟨_, valid, read⟩ := bind_eq_ok.1 loads
  obtain ⟨json, parsed, status, output⟩ := readJson_ok read
  have looked : skipsBody tools.tool_search_active tools.withheld_function_names body = false := checked
  rw [looked, if_neg Bool.false_ne_true, parsed] at valid
  exact ⟨json, parsed, status ▸ mapError_eq_ok.1 valid, output⟩

end

/-- **What is loaded is shown**: in the rounds of every accepted request the output of a body that was checked is normalised
without an error. It has the searches of the body, one at most, and calls no function that is withheld; a search is shown as its public
item, or left out of a failed response, and nothing else of the output changes but the names of namespace members. -/
theorem searches_shown {serde : SerdeJson} {readTool : Json → Tools.ResponsesTool} {request prepared : Tools.RequestPayload}
    {restored : List Tools.ResponsesTool} {restore_only_declared : Bool} {state : Option ToolSearchState}
    {services : RegistryServices} {executors : GatewayExecutors} {budget : Nat} {built : BuiltRegistry}
    (sameTools : List McpListTool → List McpListTool → Bool) (input : ResponsesInput)
    (prepares : prepareRequest readTool request restored restore_only_declared = .ok (prepared, state))
    (builds : buildToolRegistry services prepared state executors budget = .ok built)
    {errorText : Json → Text} {sameValue : OutputItem → OutputItem → Bool} {newIds : Nat → NewId} {body : Text}
    {conversation_id : Option Text} {validation : Validation} {acc : ResponseAccumulator}
    (checked : (roundTools sameTools input built state).skips body = false)
    (loads : (roundTools sameTools input built state).loadJsonBody (.derived errorText sameValue) serde newIds body conversation_id
      validation = .ok acc)
    (objects : ∀ json, serde.fromStr body = some json → ∀ raw ∈ outputOf json, ∃ fields, raw = .obj fields) :
    (roundTools sameTools input built state).normalizeResponseOutput serde acc.output acc.status [] =
        .ok (restoreOutputItems built.namespace_map
          (acc.output.filterMap ((roundTools sameTools input built state).shownItem serde acc.status))) ∧
      (∃ json, serde.fromStr body = some json ∧ acc.output.countP (isSearchOutput (roundTools sameTools input built state)) =
        (outputOf json).countP (isBlockingSearch (roundTools sameTools input built state).tool_search_active)) ∧
      acc.output.countP (isSearchOutput (roundTools sameTools input built state)) ≤ 1 ∧
      (∀ call, .functionCall call ∈ acc.output → call.name ∉ (roundTools sameTools input built state).withheld_function_names) ∧
      ∀ item ∈ acc.output, (roundTools sameTools input built state).shownItem serde acc.status item = none → acc.status = .error := by
  obtain ⟨classified, unnamed⟩ := @roundTools_prepared state readTool request prepared restored restore_only_declared services
    executors budget built sameTools input prepares builds
  obtain ⟨json, parsed, valid, read⟩ := loadJsonBody_ok checked loads
  obtain ⟨shown, counted, few, guarded⟩ := normalizeSearches_accepted classified unnamed (objects json parsed) valid read
  refine ⟨?_, ⟨json, parsed, counted⟩, counted.trans_le few, ?_, fun item mem => (guarded item mem).2⟩
  · unfold RoundTools.normalizeResponseOutput
    rw [shown]
    rfl
  · intro call mem withheld
    have passes := mapError_eq_ok.1 (guarded _ mem).1
    unfold RoundTools.isWithheldFunction ensureFunctionIsAvailable at passes
    rw [if_pos (decide_eq_true withheld)] at passes
    cases passes

/-- A call in an array has no type for the check, while the reader of the items takes it for the call of a function. -/
example : blockingGuard {utf8 "weather"} (.arr [.str "function_call", .null, .str "call_1", .str "weather"]) = .ok () ∧
    OutputItem.ofJson id (.arr [.str "function_call", .null, .str "call_1", .str "weather"]) =
      some (.functionCall ⟨utf8 "fc_", "call_1", "weather", none, [], .completed⟩) := ⟨rfl, rfl⟩

set_option maxRecDepth 8000 in
/-- The body of the forecast is loaded. -/
theorem loadJsonBody_forecast {tools : RoundTools} (active : tools.tool_search_active = true)
    (withheld : tools.withheld_function_names = {utf8 "weather"}) : ∃ acc,
    tools.loadJsonBody (.derived (fun _ => []) fun _ _ => true) plainFloats (fun _ _ => []) (forecastResponse "clock").write none .lenient =
      .ok acc ∧ acc.status = .completed ∧
    acc.output = [.functionCall ⟨"fc_1", "call_fc_1", "tool_search", none, "\x7b\x7d", .completed⟩,
      .functionCall ⟨"fc_2", "call_fc_2", "clock", none, "\x7b\x7d", .completed⟩] := by
  have valid : tools.validateJsonBody plainFloats (forecastResponse "clock").write = .ok () := by
    unfold RoundTools.validateJsonBody
    rw [active, withheld]
    rfl
  unfold RoundTools.loadJsonBody
  rw [valid]
  exact ⟨_, rfl, rfl, rfl⟩

set_option maxRecDepth 8000 in
/-- The output of the forecast holds objects. -/
theorem objects_forecast (json : Json) (parsed : plainFloats.fromStr (forecastResponse "clock").write = some json) (raw : Json)
    (listed : raw ∈ outputOf json) : ∃ fields, raw = .obj fields := by
  have read : plainFloats.fromStr (forecastResponse "clock").write = some (forecastResponse "clock") := rfl
  cases parsed.symm.trans read
  rcases List.mem_cons.1 listed with rfl | later
  · exact ⟨_, rfl⟩
  · cases List.mem_singleton.1 later
    exact ⟨_, rfl⟩

/-- The search is shown as its item, and the function that was never withheld as it is. -/
theorem searches_shown_forecast : ∃ prepared state built,
    prepareRequest readDeferred forecastRequest [] false = .ok (prepared, state) ∧
    buildToolRegistry forecastServices prepared state ⟨[], [], []⟩ 1048576 = .ok built ∧ ∃ acc,
    (roundTools (fun _ _ => false) (.text "hi") built state).loadJsonBody (.derived (fun _ => []) fun _ _ => true) plainFloats
      (fun _ _ => []) (forecastResponse "clock").write none .lenient = .ok acc ∧
    (roundTools (fun _ _ => false) (.text "hi") built state).normalizeResponseOutput plainFloats acc.output acc.status [] =
      .ok [.toolSearchCall ⟨"tsc_1", "call_fc_1", .client, .obj [], .completed⟩,
        .functionCall ⟨"fc_2", "call_fc_2", "clock", none, "\x7b\x7d", .completed⟩] := by
  obtain ⟨prepared, state, built, prepares, builds, active, withheld, kinds, map⟩ := forecast_prepared
  obtain ⟨acc, loads, status, output⟩ := loadJsonBody_forecast active withheld
  refine ⟨prepared, state, built, prepares, builds, acc, loads, ?_⟩
  have checked : (roundTools (fun _ _ => false) (.text "hi") built state).skips (forecastResponse "clock").write = false := by
    unfold RoundTools.skips skipsBody
    rw [active]
    rfl
  have search : (roundTools (fun _ _ => false) (.text "hi") built state).shownItem plainFloats .completed
      (.functionCall ⟨"fc_1", "call_fc_1", "tool_search", none, "\x7b\x7d", .completed⟩) =
        some (.toolSearchCall ⟨"tsc_1", "call_fc_1", .client, .obj [], .completed⟩) := (if_pos (toolType_search active)).trans rfl
  have function : (roundTools (fun _ _ => false) (.text "hi") built state).shownItem plainFloats .completed
      (.functionCall ⟨"fc_2", "call_fc_2", "clock", none, "\x7b\x7d", .completed⟩) =
        some (.functionCall ⟨"fc_2", "call_fc_2", "clock", none, "\x7b\x7d", .completed⟩) := if_neg (by rw [kinds]; decide)
  rw [(searches_shown (fun _ _ => false) (.text "hi") prepares builds checked loads objects_forecast).1, output, status, map,
    List.filterMap_cons_some search, List.filterMap_cons_some function]
  rfl

end AgenticStack
