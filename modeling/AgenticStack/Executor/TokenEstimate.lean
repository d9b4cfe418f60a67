import AgenticStack.Executor.Compaction
import AgenticStack.Library.Saturating

/-!
# The estimate of a context's tokens

The texts of a context are counted in bytes, four to a token, and its framing in
fixed allowances; both in 64-bit counters that saturate. An image counts as a
fixed number of tokens, whatever its bytes.
-/

namespace AgenticStack
set_option autoImplicit false
open Library

/-- The largest 64-bit number. -/
def u64Max : Nat := 2 ^ 64 - 1

/-- So many bytes stand for a token. -/
def estimatedBytesPerToken : Nat := 4
/-- What an input costs by itself. -/
def estimatedInputOverheadTokens : Nat := 1
/-- What an item costs by itself. -/
def estimatedItemOverheadTokens : Nat := 12
/-- What a part costs by itself. -/
def estimatedContentPartOverheadTokens : Nat := 7
/-- What a value costs by itself. -/
def estimatedJsonValueOverheadTokens : Nat := 1
/-- What an image costs. -/
def estimatedImageTokens : Nat := 1024

/-- `text_bytes` and `fixed_tokens`, the bytes and the units of the meter. -/
abbrev InputTokenEstimate := Meter u64Max

/-- `serialize_to_value` of a declaration and of an item: none when it cannot be represented. -/
structure ItemWriter where
  tool : Json → Option Json
  item : InputItem → Option Json

namespace InputTokenEstimate

/-- The bytes of a text are counted. -/
def addText (estimate : InputTokenEstimate) (text : Text) : InputTokenEstimate :=
  { estimate with bytes := estimate.bytes.add (min text.length u64Max) }

/-- The bytes of a text are counted, where there is one. -/
def addOptionalText (estimate : InputTokenEstimate) (text : Option Text) : InputTokenEstimate :=
  match text with
  | some text => addText estimate text
  | none => estimate

/-- Tokens are counted. -/
def addTokens (estimate : InputTokenEstimate) (tokens : Nat) : InputTokenEstimate :=
  { estimate with units := estimate.units.add tokens }

mutual

/-- The bytes of a value are counted, and the value itself. -/
def addJsonValue (estimate : InputTokenEstimate) (value : Json) : InputTokenEstimate :=
  let estimate := addTokens estimate estimatedJsonValueOverheadTokens
  match value with
  | .str text => addText estimate text
  | .num number => addText estimate number.write
  | .arr values => addJsonValues estimate values
  | .obj values => addJsonFields estimate values
  | .null | .bool _ => estimate

/-- Values are counted one by one. -/
def addJsonValues (estimate : InputTokenEstimate) (values : List Json) : InputTokenEstimate :=
  match values with
  | [] => estimate
  | value :: values => addJsonValues (addJsonValue estimate value) values

/-- Fields are counted one by one, with their keys. -/
def addJsonFields (estimate : InputTokenEstimate) (values : List (Text × Json)) : InputTokenEstimate :=
  match values with
  | [] => estimate
  | (key, value) :: values => addJsonFields (addJsonValue (addText estimate key) value) values

end

/-- What was counted, in tokens. -/
def totalTokens (estimate : InputTokenEstimate) : Nat := (estimate.reading estimatedBytesPerToken).value

end InputTokenEstimate

open InputTokenEstimate

/-- The texts of a file are counted. -/
def addFileContent (estimate : InputTokenEstimate) (file_data file_id file_url filename detail : Option Text) :
    InputTokenEstimate :=
  let estimate := addTokens estimate estimatedContentPartOverheadTokens
  [file_data, file_id, file_url, filename, detail].foldl addOptionalText estimate

/-- The text or the file of a part is counted. -/
def addContentPart (estimate : InputTokenEstimate) : InputContent → InputTokenEstimate
  | .inputText text | .outputText text | .reasoningText text =>
    addText (addTokens estimate estimatedContentPartOverheadTokens) text
  | .inputImage .. => addTokens estimate estimatedImageTokens
  | .inputFile file_data file_id file_url filename detail =>
    addFileContent estimate file_data file_id file_url filename detail
  | .unknown => addTokens estimate estimatedContentPartOverheadTokens

/-- The content of a message is counted. -/
def addMessageContent (estimate : InputTokenEstimate) : InputMessageContent → InputTokenEstimate
  | .text text => addText estimate text
  | .parts parts => parts.foldl addContentPart estimate

/-- The text or the file of a part of an answer is counted. -/
def addOutputPart (estimate : InputTokenEstimate) : ToolOutputContent → InputTokenEstimate
  | .inputText text => addText (addTokens estimate estimatedContentPartOverheadTokens) text
  | .inputImage .. => addTokens estimate estimatedImageTokens
  | .inputFile file_data file_id file_url filename detail =>
    addFileContent estimate file_data file_id file_url filename detail

/-- An answer is counted. -/
def addToolCallOutput (estimate : InputTokenEstimate) : ToolCallOutput → InputTokenEstimate
  | .text text => addText estimate text
  | .content parts => parts.foldl addOutputPart estimate

/-- What cannot be represented must not be undercounted. -/
def addSerialized (estimate : InputTokenEstimate) : Option Json → InputTokenEstimate
  | some value => addJsonValue estimate value
  | none => addTokens estimate u64Max

/-- The text of a thought is counted. -/
def addReasoningContent (estimate : InputTokenEstimate) (content : ReasoningTextContent) : InputTokenEstimate :=
  addText (addTokens estimate estimatedContentPartOverheadTokens) content.text

section
variable (writer : ItemWriter)

/-- A declaration is counted as it is written. -/
def addToolDefinition (estimate : InputTokenEstimate) (tool : Json) : InputTokenEstimate :=
  addSerialized estimate (writer.tool tool)

/-- What `add_input_item` adds for the fields of an item. -/
def addItemFields (estimate : InputTokenEstimate) (item : InputItem) : InputTokenEstimate :=
  match item with
  | .message message =>
    let estimate := addOptionalText estimate message.id
    let estimate := addText estimate message.role
    addMessageContent estimate message.content
  | .functionCall call =>
    let estimate := addOptionalText estimate call.id
    let estimate := addText estimate call.call_id
    let estimate := addText estimate call.name
    let estimate := addOptionalText estimate call.namespace
    addText estimate call.arguments
  | .functionCallOutput output => addToolCallOutput (addText estimate output.call_id) output.output
  | .toolSearchCall call => addJsonValue (addText (addText estimate call.id) call.call_id) call.arguments
  | .toolSearchOutput output => output.tools.foldl (addToolDefinition writer) (addText estimate output.call_id)
  | .customToolCall call =>
    let estimate := addText estimate call.id
    let estimate := addText estimate call.call_id
    let estimate := addText estimate call.name
    addText estimate call.input
  | .customToolCallOutput output =>
    addToolCallOutput (addOptionalText (addText estimate output.call_id) output.name) output.output
  | .shellCall _ | .shellCallOutput _ => addSerialized estimate (writer.item item)
  | .reasoning reasoning =>
    let estimate := addText estimate reasoning.id
    let estimate := addOptionalText estimate reasoning.status
    let estimate := reasoning.content.foldl addReasoningContent estimate
    let estimate := reasoning.summary.foldl addJsonValue estimate
    match reasoning.encrypted_content with
    | some encrypted_content => addJsonValue estimate encrypted_content
    | none => estimate
  | .compaction compaction =>
    let estimate := addText estimate "assistant"
    let estimate := addTokens estimate estimatedContentPartOverheadTokens
    addText estimate compaction.encrypted_content
  | .unknown | .mcpListTools _ | .compactionTrigger => estimate

/-- An item that the model sees is counted. -/
def addInputItem (estimate : InputTokenEstimate) (item : InputItem) : InputTokenEstimate :=
  if !item.isModelVisible then estimate
  else addItemFields writer (addTokens estimate estimatedItemOverheadTokens) item

/-- The tokens that an input is estimated at. -/
def estimateInputTokens (input : ResponsesInput) : Nat :=
  let estimate := addTokens (Meter.zero u64Max) estimatedInputOverheadTokens
  totalTokens (match input with
    | .text text => addText estimate text
    | .items _ => input.modelItems.foldl (addInputItem writer) estimate)

end

/-- What a text costs. -/
def textCost (text : Text) : Cost := .ofBytes text.length

/-- What a text costs, where there is one. -/
def optionalTextCost (text : Option Text) : Cost := .ofBytes (text.getD []).length

mutual

/-- What a value costs. -/
def jsonCost : Json → Cost
  | .str text => (Cost.ofUnits estimatedJsonValueOverheadTokens).plus (textCost text)
  | .num number => (Cost.ofUnits estimatedJsonValueOverheadTokens).plus (textCost number.write)
  | .arr values => (Cost.ofUnits estimatedJsonValueOverheadTokens).plus (jsonValuesCost values)
  | .obj values => (Cost.ofUnits estimatedJsonValueOverheadTokens).plus (jsonFieldsCost values)
  | .null | .bool _ => .ofUnits estimatedJsonValueOverheadTokens

/-- What values cost. -/
def jsonValuesCost : List Json → Cost
  | [] => .none
  | value :: values => (jsonCost value).plus (jsonValuesCost values)

/-- What fields cost. -/
def jsonFieldsCost : List (Text × Json) → Cost
  | [] => .none
  | (key, value) :: values => (textCost key).plus ((jsonCost value).plus (jsonFieldsCost values))

end

/-- A text inside its framing. -/
def partCost (text : Text) : Cost := (Cost.ofUnits estimatedContentPartOverheadTokens).plus (textCost text)

/-- What the texts of a file cost. -/
def fileCost (fields : List (Option Text)) : Cost :=
  (Cost.ofUnits estimatedContentPartOverheadTokens).plus (Cost.total optionalTextCost fields)

/-- What a part costs. -/
def InputContent.cost : InputContent → Cost
  | .inputText text | .outputText text | .reasoningText text => partCost text
  | .inputImage .. => .ofUnits estimatedImageTokens
  | .inputFile file_data file_id file_url filename detail => fileCost [file_data, file_id, file_url, filename, detail]
  | .unknown => .ofUnits estimatedContentPartOverheadTokens

/-- What the content of a message costs. -/
def InputMessageContent.cost : InputMessageContent → Cost
  | .text t => textCost t
  | .parts xs => Cost.total InputContent.cost xs

/-- What a part of an answer costs. -/
def ToolOutputContent.cost : ToolOutputContent → Cost
  | .inputText text => partCost text
  | .inputImage .. => .ofUnits estimatedImageTokens
  | .inputFile file_data file_id file_url filename detail => fileCost [file_data, file_id, file_url, filename, detail]

/-- What an answer costs. -/
def ToolCallOutput.cost : ToolCallOutput → Cost
  | .text t => textCost t
  | .content xs => Cost.total ToolOutputContent.cost xs

/-- What a value costs that could be written, and the most where it could not. -/
def serializedCost : Option Json → Cost
  | some value => jsonCost value
  | none => .ofUnits u64Max

/-- What the fields of an item cost, without its own framing. -/
def InputItem.fieldsCost (writer : ItemWriter) (item : InputItem) : Cost :=
  match item with
  | .message m => (Cost.total optionalTextCost [m.id, some m.role]).plus m.content.cost
  | .functionCall call =>
    Cost.total optionalTextCost [call.id, some call.call_id, some call.name, call.namespace, some call.arguments]
  | .functionCallOutput output => (textCost output.call_id).plus output.output.cost
  | .toolSearchCall call => (Cost.total textCost [call.id, call.call_id]).plus (jsonCost call.arguments)
  | .toolSearchOutput output =>
    (textCost output.call_id).plus (Cost.total (fun tool => serializedCost (writer.tool tool)) output.tools)
  | .customToolCall call => Cost.total textCost [call.id, call.call_id, call.name, call.input]
  | .customToolCallOutput output =>
    (Cost.total optionalTextCost [some output.call_id, output.name]).plus output.output.cost
  | .shellCall _ | .shellCallOutput _ => serializedCost (writer.item item)
  | .reasoning r =>
    (Cost.total optionalTextCost [some r.id, r.status]).plus
      ((Cost.total (fun content => partCost content.text) r.content).plus
        ((Cost.total jsonCost r.summary).plus (Cost.total jsonCost r.encrypted_content.toList)))
  | .compaction c => (textCost "assistant").plus (partCost c.encrypted_content)
  | .unknown | .mcpListTools _ | .compactionTrigger => .none

/-- What an item costs: nothing, when the model does not see it. -/
def InputItem.cost (writer : ItemWriter) (item : InputItem) : Cost :=
  if item.isModelVisible then (Cost.ofUnits estimatedItemOverheadTokens).plus (item.fieldsCost writer) else .none

/-- What items cost as a whole context. -/
def contextCost (writer : ItemWriter) (items : List InputItem) : Cost :=
  (Cost.ofUnits estimatedInputOverheadTokens).plus (Cost.total (InputItem.cost writer) items)

variable {estimate : InputTokenEstimate}

/-- A text adds what it costs. -/
theorem addText_eq (estimate : InputTokenEstimate) (text : Text) : addText estimate text = estimate.charge (textCost text) := by
  unfold addText Meter.charge textCost Cost.ofBytes
  rw [Counter.add_min, Counter.add_zero]

/-- Tokens are added. -/
theorem addTokens_eq (estimate : InputTokenEstimate) (tokens : Nat) :
    addTokens estimate tokens = estimate.charge (.ofUnits tokens) := by
  unfold addTokens Meter.charge Cost.ofUnits
  rw [Counter.add_zero]

/-- A text that is there adds what it costs. -/
theorem addOptionalText_eq (estimate : InputTokenEstimate) (text : Option Text) :
    addOptionalText estimate text = estimate.charge (optionalTextCost text) := by
  cases text with
  | none => exact (Meter.charge_none estimate).symm
  | some text => exact addText_eq estimate text

mutual

/-- A value adds what it costs. -/
theorem addJsonValue_eq (estimate : InputTokenEstimate) (value : Json) :
    addJsonValue estimate value = estimate.charge (jsonCost value) := by
  cases value with
  | null => rw [addJsonValue, jsonCost, addTokens_eq]
  | bool b => rw [addJsonValue, jsonCost, addTokens_eq]
  | num number => rw [addJsonValue, jsonCost, addText_eq, addTokens_eq, Meter.charge_charge]
  | str text => rw [addJsonValue, jsonCost, addText_eq, addTokens_eq, Meter.charge_charge]
  | arr values => rw [addJsonValue, jsonCost, addJsonValues_eq _ values, addTokens_eq, Meter.charge_charge]
  | obj values => rw [addJsonValue, jsonCost, addJsonFields_eq _ values, addTokens_eq, Meter.charge_charge]

theorem addJsonValues_eq (estimate : InputTokenEstimate) (values : List Json) :
    addJsonValues estimate values = estimate.charge (jsonValuesCost values) := by
  cases values with
  | nil => rw [addJsonValues, jsonValuesCost, Meter.charge_none]
  | cons value values =>
    rw [addJsonValues, jsonValuesCost, addJsonValues_eq _ values, addJsonValue_eq _ value, Meter.charge_charge]

theorem addJsonFields_eq (estimate : InputTokenEstimate) (values : List (Text × Json)) :
    addJsonFields estimate values = estimate.charge (jsonFieldsCost values) := by
  cases values with
  | nil => rw [addJsonFields, jsonFieldsCost, Meter.charge_none]
  | cons field values =>
    obtain ⟨key, value⟩ := field
    rw [addJsonFields, jsonFieldsCost, addJsonFields_eq _ values, addJsonValue_eq _ value, addText_eq,
      Meter.charge_charge, Meter.charge_charge]

end

/-- A file adds what it costs. -/
theorem addFileContent_eq (estimate : InputTokenEstimate) (file_data file_id file_url filename detail : Option Text) :
    addFileContent estimate file_data file_id file_url filename detail =
      estimate.charge (fileCost [file_data, file_id, file_url, filename, detail]) := by
  unfold addFileContent fileCost
  rw [Meter.foldl_charge fun m text _ => addOptionalText_eq m text, addTokens_eq, Meter.charge_charge]

/-- A text of a part adds what it costs. -/
theorem addFramedText_eq (estimate : InputTokenEstimate) (text : Text) :
    addText (addTokens estimate estimatedContentPartOverheadTokens) text = estimate.charge (partCost text) := by
  rw [addText_eq, addTokens_eq, Meter.charge_charge]
  rfl

/-- A part adds what it costs. -/
theorem addContentPart_eq (estimate : InputTokenEstimate) (part : InputContent) :
    addContentPart estimate part = estimate.charge part.cost := by
  cases part with
  | inputText text => rw [addContentPart, InputContent.cost, addFramedText_eq]
  | outputText text => rw [addContentPart, InputContent.cost, addFramedText_eq]
  | reasoningText text => rw [addContentPart, InputContent.cost, addFramedText_eq]
  | inputImage => rw [addContentPart, InputContent.cost, addTokens_eq]
  | inputFile => rw [addContentPart, InputContent.cost, addFileContent_eq]
  | unknown => rw [addContentPart, InputContent.cost, addTokens_eq]

/-- The content of a message adds what it costs. -/
theorem addMessageContent_eq (estimate : InputTokenEstimate) (content : InputMessageContent) :
    addMessageContent estimate content = estimate.charge content.cost := by
  cases content with
  | text text => rw [addMessageContent, InputMessageContent.cost, addText_eq]
  | parts parts =>
    rw [addMessageContent, InputMessageContent.cost, Meter.foldl_charge fun m part _ => addContentPart_eq m part]

/-- A part of an answer adds what it costs. -/
theorem addOutputPart_eq (estimate : InputTokenEstimate) (part : ToolOutputContent) :
    addOutputPart estimate part = estimate.charge part.cost := by
  cases part with
  | inputText text => rw [addOutputPart, ToolOutputContent.cost, addFramedText_eq]
  | inputImage => rw [addOutputPart, ToolOutputContent.cost, addTokens_eq]
  | inputFile => rw [addOutputPart, ToolOutputContent.cost, addFileContent_eq]

/-- An answer adds what it costs. -/
theorem addToolCallOutput_eq (estimate : InputTokenEstimate) (output : ToolCallOutput) :
    addToolCallOutput estimate output = estimate.charge output.cost := by
  cases output with
  | text text => rw [addToolCallOutput, ToolCallOutput.cost, addText_eq]
  | content parts =>
    rw [addToolCallOutput, ToolCallOutput.cost, Meter.foldl_charge fun m part _ => addOutputPart_eq m part]

/-- A value adds what it costs. -/
theorem addSerialized_eq (estimate : InputTokenEstimate) (value : Option Json) :
    addSerialized estimate value = estimate.charge (serializedCost value) := by
  cases value with
  | some value => rw [addSerialized, serializedCost, addJsonValue_eq]
  | none => rw [addSerialized, serializedCost, addTokens_eq]

variable {writer : ItemWriter}

/-- Declarations add what they cost. -/
theorem addSerialized_foldl_eq (tools : List Json) (estimate : InputTokenEstimate) :
    tools.foldl (addToolDefinition writer) estimate =
      estimate.charge (Cost.total (fun tool => serializedCost (writer.tool tool)) tools) :=
  Meter.foldl_charge (fun m tool _ => addSerialized_eq m (writer.tool tool)) estimate

/-- Reasoning adds what it costs. -/
theorem addReasoning_eq (reasoning : ReasoningOutput) (estimate : InputTokenEstimate) :
    (match reasoning.encrypted_content with
      | some encrypted_content =>
        addJsonValue (reasoning.summary.foldl addJsonValue (reasoning.content.foldl addReasoningContent estimate))
          encrypted_content
      | none => reasoning.summary.foldl addJsonValue (reasoning.content.foldl addReasoningContent estimate)) =
    estimate.charge ((Cost.total (fun content => partCost content.text) reasoning.content).plus
      ((Cost.total jsonCost reasoning.summary).plus (Cost.total jsonCost reasoning.encrypted_content.toList))) := by
  rw [Meter.foldl_charge fun m value _ => addJsonValue_eq m value,
    Meter.foldl_charge fun m content _ => addFramedText_eq m content.text]
  cases reasoning.encrypted_content with
  | some value =>
    simp only [addJsonValue_eq, Meter.charge_charge, Option.toList_some, Cost.total, Cost.plus_none, Cost.plus_assoc]
  | none => simp only [Meter.charge_charge, Option.toList_none, Cost.total, Cost.plus_none]

/-- The fields of an item add what they cost. -/
theorem addItemFields_eq (estimate : InputTokenEstimate) (item : InputItem) :
    addItemFields writer estimate item = estimate.charge (item.fieldsCost writer) := by
  cases item with
  | message message =>
    rw [addItemFields, addMessageContent_eq, addText_eq, addOptionalText_eq, Meter.charge_charge, Meter.charge_charge,
      ← Cost.plus_assoc]
    rfl
  | functionCall call =>
    rw [addItemFields, addText_eq, addOptionalText_eq, addText_eq, addText_eq, addOptionalText_eq]
    simp only [Meter.charge_charge, Cost.plus_assoc]
    rfl
  | functionCallOutput output =>
    rw [addItemFields, addToolCallOutput_eq, addText_eq, Meter.charge_charge]
    rfl
  | toolSearchCall call =>
    rw [addItemFields, addJsonValue_eq, addText_eq, addText_eq, Meter.charge_charge, Meter.charge_charge,
      ← Cost.plus_assoc]
    rfl
  | toolSearchOutput output =>
    rw [addItemFields, addSerialized_foldl_eq, addText_eq, Meter.charge_charge]
    rfl
  | customToolCall call =>
    rw [addItemFields, addText_eq, addText_eq, addText_eq, addText_eq]
    simp only [Meter.charge_charge, Cost.plus_assoc]
    rfl
  | customToolCallOutput output =>
    rw [addItemFields, addToolCallOutput_eq, addOptionalText_eq, addText_eq, Meter.charge_charge, Meter.charge_charge,
      ← Cost.plus_assoc]
    rfl
  | shellCall call => exact addSerialized_eq estimate (writer.item (.shellCall call))
  | shellCallOutput output => exact addSerialized_eq estimate (writer.item (.shellCallOutput output))
  | reasoning reasoning =>
    rw [addItemFields, addReasoning_eq, addOptionalText_eq, addText_eq, Meter.charge_charge, Meter.charge_charge,
      ← Cost.plus_assoc]
    rfl
  | compaction compaction =>
    rw [addItemFields, addFramedText_eq, addText_eq, Meter.charge_charge]
    rfl
  | mcpListTools list => exact (Meter.charge_none estimate).symm
  | compactionTrigger => exact (Meter.charge_none estimate).symm
  | unknown => exact (Meter.charge_none estimate).symm

/-- **Each item adds its cost**, whatever was counted before it. -/
theorem addInputItem_eq (estimate : InputTokenEstimate) (item : InputItem) :
    addInputItem writer estimate item = estimate.charge (item.cost writer) := by
  unfold addInputItem InputItem.cost
  cases item.isModelVisible with
  | true =>
    show addItemFields writer (addTokens estimate estimatedItemOverheadTokens) item = _
    rw [addItemFields_eq, addTokens_eq, Meter.charge_charge, if_pos rfl]
  | false => exact (Meter.charge_none estimate).symm

end AgenticStack
