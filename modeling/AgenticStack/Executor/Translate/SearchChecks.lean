import AgenticStack.Executor.Translate.RoundTools
import AgenticStack.Tool.Handlers

/-!
# What is checked of search calls

A response comes as a body or in the terminal event of a stream, and its search calls are
checked by different code. The checks agree, in their errors too.
-/

namespace AgenticStack
set_option autoImplicit false
open Library Tools ToolSearch

/-- The output of a response, as far as it is an array. -/
def outputOf (response : Json) : List Json := ((response.get "output").bind Json.asArray).getD []

/-- The arguments of the call are within the limit of a stream. -/
def SmallSearch (serde : SerdeJson) (item : Json) : Prop :=
  (∀ call, strictFunctionCall serde item = .ok call → call.arguments.length ≤ maxPendingFunctionBytes) ∧
    ∀ call, strictNativeCall item = .ok call → call.arguments.write.length ≤ maxPendingFunctionBytes

section
variable {serde : SerdeJson} {tools : RoundTools} {item : Json} {name : Text}

/-- The reserved name is the name of the searches. -/
theorem toolType_search (active : tools.tool_search_active = true) : tools.toolType TOOL_SEARCH_NAME = .toolSearch := by
  rw [RoundTools.toolType, if_pos ⟨active, rfl⟩]

/-- Named or not, an item calls the search when the body's check says so. -/
theorem isTerminalSearch_eq (classified : tools.Classified) :
    isTerminalSearch tools item = isBlockingSearch tools.tool_search_active item := by
  unfold isTerminalSearch isBlockingSearch
  have same : (decide (tools.toolType ((itemName item).getD []) = .toolSearch)) =
      (tools.tool_search_active && decide (itemName item = some TOOL_SEARCH_NAME)) := by
    rw [Bool.eq_iff_iff, Bool.and_eq_true, decide_eq_true_eq, decide_eq_true_eq]
    constructor
    · intro search
      obtain ⟨active, known⟩ := classified _ search
      refine ⟨active, ?_⟩
      cases named : itemName item with
      | none =>
        rw [named] at known
        cases known
      | some name =>
        rw [named] at known
        exact congrArg some known
    · rintro ⟨active, named⟩
      rw [named]
      exact toolType_search active
  rw [same, Bool.and_assoc]

/-- The terminal check of an item is the check of a whole response. -/
theorem terminalGuard_eq (named : [] ∉ tools.withheld_function_names) :
    terminalGuard tools item = (blockingGuard tools.withheld_function_names item).mapError ExecutorError.ofTool := by
  unfold terminalGuard blockingGuard RoundTools.isWithheldFunction
  by_cases call : itemType item = some (utf8 "function_call")
  · rw [if_pos call]
    cases found : itemName item with
    | none => simp [call, named, liftTool]
    | some name => simp [call, liftTool]
  · rw [if_neg call]
    simp [call, ensureFunctionIsAvailable, Except.mapError]

/-- A search at the end of a stream is read as one of a whole response. -/
theorem readTerminalSearch_eq {completed allow_unfinished : Bool} (classified : tools.Classified) (small : SmallSearch serde item)
    (status : completed = !allow_unfinished) : readTerminalSearch serde tools completed item =
      (readBlockingSearch serde tools.tool_search_active allow_unfinished item).mapError ExecutorError.ofTool := by
  subst status
  unfold readTerminalSearch readBlockingSearch
  rw [isTerminalSearch_eq classified]
  by_cases native : itemType item = some (utf8 "tool_search_call")
  · rw [if_pos native, if_pos native]
    cases read : strictNativeCall item with
    | error e => rfl
    | ok call =>
      have fits := ensureFunctionCallSize_ok (small.2 call read)
      cases allow_unfinished <;> cases status : call.status <;> simp [liftTool, fits, status, bind, Except.bind,
        Except.mapError, throw, throwThe, MonadExceptOf.throw, pure, Except.pure, ExecutorError.ofTool]
  · rw [if_neg native, if_neg native]
    cases search : isBlockingSearch tools.tool_search_active item with
    | false => rfl
    | true =>
      rw [if_pos rfl, if_pos rfl]
      cases read : strictFunctionCall serde item with
      | error e => rfl
      | ok call =>
        have fits := ensureFunctionCallSize_ok (small.1 call read)
        cases allow_unfinished <;> cases status : call.status <;> simp [liftTool, fits, status, bind, Except.bind,
          Except.mapError, throw, throwThe, MonadExceptOf.throw, pure, Except.pure, ExecutorError.ofTool]

/-- Over a whole output. -/
theorem terminalScan_eq {completed allow_unfinished seen : Bool} {output : List Json} (classified : tools.Classified)
    (named : [] ∉ tools.withheld_function_names) (small : ∀ item ∈ output, SmallSearch serde item)
    (status : completed = !allow_unfinished) :
    scanOnce (terminalGuard tools) (isTerminalSearch tools) .invalidUpstreamToolSearch
        (readTerminalSearch serde tools completed) seen output =
      (scanOnce (blockingGuard tools.withheld_function_names) (isBlockingSearch tools.tool_search_active)
        .invalidUpstreamToolSearch (readBlockingSearch serde tools.tool_search_active allow_unfinished) seen output).mapError
          ExecutorError.ofTool := by
  rw [scanOnce_mapError]
  apply scanOnce_congr
  · exact fun item _ => terminalGuard_eq named
  · exact fun item _ => isTerminalSearch_eq classified
  · exact fun item mem => readTerminalSearch_eq classified (small item mem) status

/-- A response is checked alike by tools that call the search by its name alone. -/
theorem checked_alike {frame : EventFrame} {body : Text} {response : Json} {id status : Text}
    {usage : Option ResponseUsage} (classified : tools.Classified) (named : [] ∉ tools.withheld_function_names)
    (checked : skipsBody tools.tool_search_active tools.withheld_function_names body = false)
    (read : serde.fromStr body = some response) (carries : frame.wire.rest.lookup (utf8 "response") = some response)
    (payload : frame.payload = .response id status usage)
    (terminal : ResponseAccumulator.isTerminalEvent frame.event_type = true)
    (agrees : frame.event_type = .responseCompleted ↔ allowsUnfinished (blockingStatus response) = false)
    (small : ∀ item ∈ outputOf response, SmallSearch serde item) :
    validateSearchFrame serde tools frame = tools.validateJsonBody serde body := by
  have unnamed : lifecycleName frame = none := by rw [lifecycleName, payload]
  have whole : validateSearchFrame serde tools frame = validateTerminalOutput serde tools frame := by
    unfold validateSearchFrame
    rw [unnamed, payload]
    exact if_pos terminal
  have completed : decide (frame.event_type = .responseCompleted) = !allowsUnfinished (blockingStatus response) := by
    rw [Bool.eq_iff_iff, decide_eq_true_eq, Bool.not_eq_true', agrees]
  rw [whole, RoundTools.validateJsonBody, validateBlockingResponse, checked, if_neg Bool.false_ne_true, read]
  dsimp only
  unfold validateTerminalOutput validateBlockingItems liftTool
  rw [carries, Option.bind_some]
  cases found : (response.get "output").bind Json.asArray with
  | none => rfl
  | some output =>
    rw [outputOf, found, Option.getD_some] at small
    dsimp only [Option.getD_some]
    rw [terminalScan_eq classified named small completed]
    cases scanOnce (blockingGuard tools.withheld_function_names) (isBlockingSearch tools.tool_search_active)
      ToolError.invalidUpstreamToolSearch
      (readBlockingSearch serde tools.tool_search_active (allowsUnfinished (blockingStatus response))) false output <;> rfl

end

/-- **A response is checked alike** whether it comes as a body or in a stream's terminal event, to the same error: in the
rounds of every accepted request, with a status that the event agrees with, and arguments within the limit of a stream. -/
theorem searches_checked_alike {serde : SerdeJson} {readTool : Json → Tools.ResponsesTool} {request prepared : Tools.RequestPayload}
    {restored : List Tools.ResponsesTool} {restore_only_declared : Bool} {state : Option ToolSearchState}
    {services : RegistryServices} {executors : GatewayExecutors} {budget : Nat} {built : BuiltRegistry}
    (sameTools : List McpListTool → List McpListTool → Bool) (input : ResponsesInput)
    (prepares : prepareRequest readTool request restored restore_only_declared = .ok (prepared, state))
    (builds : buildToolRegistry services prepared state executors budget = .ok built)
    {frame : EventFrame} {body : Text} {response : Json} {id status : Text} {usage : Option ResponseUsage}
    (checked : (roundTools sameTools input built state).skips body = false)
    (read : serde.fromStr body = some response) (carries : frame.wire.rest.lookup (utf8 "response") = some response)
    (payload : frame.payload = .response id status usage)
    (terminal : ResponseAccumulator.isTerminalEvent frame.event_type = true)
    (agrees : frame.event_type = .responseCompleted ↔ allowsUnfinished (blockingStatus response) = false)
    (small : ∀ item ∈ outputOf response, SmallSearch serde item) :
    validateSearchFrame serde (roundTools sameTools input built state) frame =
      (roundTools sameTools input built state).validateJsonBody serde body := by
  obtain ⟨classified, named⟩ := @roundTools_prepared state readTool request prepared restored restore_only_declared services
    executors budget built sameTools input prepares builds
  exact checked_alike classified named checked read carries payload terminal agrees small

/-- The weather is found by a search only. -/
def forecastRequest : Tools.RequestPayload := { Tools.weatherRequest with input := .text "Will it rain?" }

/-- The services of the forecast. -/
def forecastServices : RegistryServices where
  servers := ⟨fun _ => .error (.execution "unreachable"), fun _ => .error (.execution "unreachable")⟩
  webSearchBinding _ := Tools.WebSearchHandler.binding ⟨fun _ => none, fun _ => []⟩ (fun _ => []) fun _ _ _ => .ok "nothing"
  listingId label := utf8 "mcpl_" ++ label
  paramBytes _ := 100
  listingBytes _ := 100

/-- Floats that are written as they are. -/
def plainFloats : SerdeJson := ⟨some, fun _ => []⟩

/-- A finished call without arguments. -/
def callItem (id name : Text) : Json :=
  .obj [("type", .str "function_call"), ("id", .str id), ("call_id", .str (utf8 "call_" ++ id)), ("name", .str name),
    ("arguments", .str "\x7b\x7d"), ("status", .str "completed")]

/-- A response that calls the search and then a function. -/
def forecastResponse (name : Text) : Json :=
  .obj [("id", .str "resp_1"), ("status", .str "completed"),
    ("output", .arr [callItem "fc_1" "tool_search", callItem "fc_2" name])]

/-- The last event of the forecast. -/
def forecastFrame (name : Text) : EventFrame :=
  ⟨.responseCompleted, .response "resp_1" "completed" none,
    ⟨SSEEventType.responseCompleted.wireName, none, none, [("response", forecastResponse name)]⟩⟩

/-- The call of a forecast is a small one. -/
theorem smallSearch_callItem (id name : Text) : SmallSearch plainFloats (callItem id name) := by
  constructor
  · intro call read
    have fields : (Json.asStruct StrictFunctionToolCall.order (callItem id name)).bind StrictFunctionToolCall.ofFields =
        some ⟨id, utf8 "call_" ++ id, name, none, "\x7b\x7d", .completed⟩ := rfl
    unfold strictFunctionCall at read
    rw [fields] at read
    obtain ⟨_, -, read⟩ := bind_eq_ok.1 read
    obtain ⟨_, -, read⟩ := bind_eq_ok.1 read
    cases pure_eq_ok.1 read
    show (utf8 "\x7b\x7d").length ≤ maxPendingFunctionBytes
    decide
  · intro call read
    have unread : (Json.asStruct ToolSearchCall.order (callItem id name)).bind ToolSearchCall.ofFields = none := by
      show ToolSearchCall.ofFields _ = none
      unfold ToolSearchCall.ofFields
      cases requiredOf _ (utf8 "id") Json.asNonBlank <;> cases requiredOf _ (utf8 "call_id") Json.asNonBlank <;> rfl
    have none_ : strictNativeCall (callItem id name) = .error .invalidUpstreamToolSearch := by
      unfold strictNativeCall
      rw [unread]
      rfl
    rw [none_] at read
    cases read

/-- The request of a forecast is prepared and its registry built. -/
theorem forecast_prepared : ∃ prepared state built,
    prepareRequest readDeferred forecastRequest [] false = .ok (prepared, state) ∧
    buildToolRegistry forecastServices prepared state ⟨[], [], []⟩ 1048576 = .ok built ∧
    (roundTools (fun _ _ => false) (.text "hi") built state).tool_search_active = true ∧
    (roundTools (fun _ _ => false) (.text "hi") built state).withheld_function_names = {utf8 "weather"} ∧
    (roundTools (fun _ _ => false) (.text "hi") built state).toolType (utf8 "clock") = .function ∧ built.namespace_map = some ⟨[], []⟩ :=
  ⟨_, _, _, rfl, rfl, rfl, rfl, rfl, rfl⟩

set_option maxRecDepth 8000 in
/-- The function is called before its definition was loaded. -/
theorem searches_checked_alike_forecast : ∃ prepared state built,
    prepareRequest readDeferred forecastRequest [] false = .ok (prepared, state) ∧
    buildToolRegistry forecastServices prepared state ⟨[], [], []⟩ 1048576 = .ok built ∧
    validateSearchFrame plainFloats (roundTools (fun _ _ => false) (.text "hi") built state) (forecastFrame "weather") =
      (roundTools (fun _ _ => false) (.text "hi") built state).validateJsonBody plainFloats (forecastResponse "weather").write ∧
    (roundTools (fun _ _ => false) (.text "hi") built state).validateJsonBody plainFloats (forecastResponse "weather").write =
      .error .upstreamWithheldFunctionCall := by
  obtain ⟨prepared, state, built, prepares, builds, active, withheld, -⟩ := forecast_prepared
  refine ⟨prepared, state, built, prepares, builds, ?_, ?_⟩
  · refine searches_checked_alike (fun _ _ => false) (.text "hi") prepares builds ?_ rfl rfl rfl rfl ?_ ?_
    · unfold RoundTools.skips skipsBody
      rw [active]
      rfl
    · exact ⟨fun _ => rfl, fun _ => rfl⟩
    · intro item mem
      change item ∈ [callItem _ _, callItem _ _] at mem
      simp only [List.mem_cons, List.not_mem_nil, or_false] at mem
      rcases mem with rfl | rfl
      · exact smallSearch_callItem _ _
      · exact smallSearch_callItem _ _
  · unfold RoundTools.validateJsonBody
    rw [active, withheld]
    rfl

end AgenticStack
