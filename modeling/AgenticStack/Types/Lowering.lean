import AgenticStack.Types.Items

/-!
# Lowering items for the model

The model only knows function calls: custom and shell calls, and their outputs,
are lowered to function calls and function call outputs, both in a new input and
in the history read back from storage.
-/

namespace AgenticStack
set_option autoImplicit false
open Library

/-- The function call id of a custom (`ctc_`) or shell (`sh_`) item id. -/
def functionCallItemId (item_id : Text) : Option Text :=
  if item_id = [] then none
  else match stripPrefix "ctc_" item_id |>.or (stripPrefix "sh_" item_id) |>.filter (· ≠ []) with
    | some suffix => some (utf8 "fc_" ++ suffix)
    | none => some item_id
where
  stripPrefix (pre s : Text) : Option Text := if pre.isPrefixOf s then some (s.drop pre.length) else none

def FunctionToolCall.toInput (call : FunctionToolCall) : InputFunctionToolCall where
  id := some call.id
  call_id := call.call_id
  name := call.name
  «namespace» := call.namespace
  arguments := call.arguments
  status := some call.status

/-- The arguments a freeform input stands for: the object `{"input": …}`. -/
def CustomToolCall.toInput (call : CustomToolCall) : InputFunctionToolCall where
  id := functionCallItemId call.id
  call_id := call.call_id
  name := call.name
  «namespace» := none
  arguments := (Json.obj [("input", .str call.input)]).write
  status := call.status

/-- An optional field that is left out when absent. -/
def optField (key : Text) : Option Json → List (Text × Json)
  | some v => [(key, v)]
  | none => []

def optNum (key : Text) (n : Option Nat) : List (Text × Json) :=
  optField key (n.map fun n => .num (.posInt n))

def ShellCallAction.toJson (action : ShellCallAction) : Json :=
  .obj (((utf8 "commands", .arr (action.commands.map .str)) :: optNum "timeout_ms" action.timeout_ms)
    ++ optNum "max_output_length" action.max_output_length ++ action.extra)

def ShellCall.toInput (call : ShellCall) : InputFunctionToolCall where
  id := call.id.bind functionCallItemId
  call_id := call.call_id
  name := "shell"
  «namespace» := none
  arguments := call.action.toJson.write
  status := match call.status with
    | some .completed => some .completed
    | some .inProgress => some .inProgress
    | some .incomplete | none => none

def ShellCallOutcome.toJson : ShellCallOutcome → Json
  | .exit code => .obj [("type", .str "exit"), ("exit_code",
      .num (if code < 0 then .negInt code.natAbs else .posInt code.natAbs))]
  | .timeout => .obj [("type", .str "timeout")]
  | .unknown => .obj [("type", .str "unknown")]

def ShellCallOutputContent.toJson (content : ShellCallOutputContent) : Json :=
  .obj ([(utf8 "stdout", .str content.stdout), (utf8 "stderr", .str content.stderr),
    (utf8 "outcome", content.outcome.toJson)] ++ content.extra)

def CustomToolCallOutputMessage.toResult (output : CustomToolCallOutputMessage) : FunctionToolResultMessage where
  call_id := output.call_id
  output := output.output

def ShellCallOutputMessage.toResult (output : ShellCallOutputMessage) : FunctionToolResultMessage where
  call_id := output.call_id
  output := .text (Json.arr (output.output.map ShellCallOutputContent.toJson)).write

/-- One item lowered for inference; unknown items are dropped. -/
def InputItem.lower : InputItem → Option InputItem
  | .unknown => none
  | .shellCall call => some (.functionCall call.toInput)
  | .shellCallOutput output => some (.functionCallOutput output.toResult)
  | .customToolCall call => some (.functionCall call.toInput)
  | .customToolCallOutput output => some (.functionCallOutput output.toResult)
  | item => some item

/-- `Vec::<InputItem>::from(input)`. -/
def ResponsesInput.toItems : ResponsesInput → List InputItem
  | .text t => [.message { id := none, role := "user", status := none, content := .text t }]
  | .items xs => xs.filterMap InputItem.lower

def OutputMessage.toInput (msg : OutputMessage) : InputMessage where
  id := some msg.id
  role := msg.role
  status := some msg.status
  content := .parts (msg.content.map fun c => .outputText c.text)

/-- Only a completed tool search is replayable. -/
def ToolSearchCall.toInput (call : ToolSearchCall) : Option InputToolSearchCall :=
  if call.status ≠ .completed then none
  else some { id := call.id, call_id := call.call_id, execution := call.execution, arguments := call.arguments,
              status := .completed }

/-- A stored output item as continuation input. The public items of gateway
calls are dropped: their call and output are stored as input items. -/
def OutputItem.toInputItem : OutputItem → Option InputItem
  | .message m => some (.message m.toInput)
  | .reasoning r => some (.reasoning r)
  | .functionCall call => some (.functionCall call.toInput)
  | .toolSearchCall call => call.toInput.map .toolSearchCall
  | .customToolCall call => some (.functionCall call.toInput)
  | .shellCall call => some (.functionCall call.toInput)
  | .mcpListTools list => some (.mcpListTools list)
  | .compaction c => some (.compaction c)
  | .webSearchCall _ | .mcpCall _ | .unknown => none

/-- One stored item as history, before lowering. -/
def InOutItem.toHistory : InOutItem → Option InputItem
  | .input i => if i.isUnknown then none else some i
  | .output o => o.toInputItem

/-- `InOutItem::into_input_items`: stored history as input items. -/
def intoInputItems (history : List InOutItem) : List InputItem :=
  (ResponsesInput.items (history.filterMap InOutItem.toHistory)).toItems

theorem intoInputItems_append (a b : List InOutItem) :
    intoInputItems (a ++ b) = intoInputItems a ++ intoInputItems b := by
  simp only [intoInputItems, ResponsesInput.toItems, List.filterMap_append]

end AgenticStack
