import AgenticStack.Messages.Stream

/-!
# A turn and its events

How an assistant turn is split into events: each block begins with what is known
of it and goes on in deltas, and the events of one block may lie between those of
others. The accumulator puts together the blocks that were split.
-/

namespace AgenticStack.Messages
set_option autoImplicit false
open Library

/-- The pieces of a string, one in each delta. -/
def Pieces (type field : Text) (pieces : List Text) (deltas : List Json) : Prop :=
  List.Forall₂ (fun piece delta => (delta.at_ "type").asStr = some type ∧ delta.get field = some (.str piece)) pieces deltas

/-- A string field with the pieces behind it. -/
def extendField (fields : List (Text × Json)) (key : Text) (pieces : List Text) : List (Text × Json) :=
  if pieces = [] then fields else insertField fields key (.str (strField (.obj fields) key ++ pieces.flatten))

/-- The deltas of a text: pieces of it, and citations of what it is taken from. -/
inductive TextDeltas : List Json → List Text → List Json → Prop where
  | nil : TextDeltas [] [] []
  | piece {deltas citations : List Json} {pieces : List Text} {delta : Json} {piece : Text}
      (type : (delta.at_ "type").asStr = some (utf8 "text_delta")) (text : delta.get "text" = some (.str piece))
      (rest : TextDeltas deltas pieces citations) : TextDeltas (delta :: deltas) (piece :: pieces) citations
  | citation {deltas citations : List Json} {pieces : List Text} {delta citation : Json}
      (type : (delta.at_ "type").asStr = some (utf8 "citations_delta")) (cited : delta.get "citation" = some citation)
      (rest : TextDeltas deltas pieces citations) : TextDeltas (delta :: deltas) pieces (citation :: citations)

/-- The citations a block has. -/
def blockCitations (fields : List (Text × Json)) : List Json :=
  ((fields.lookup (utf8 "citations")).bind Json.asArray).getD []

/-- A block with the citations behind those it has. -/
def extendCitations (fields : List (Text × Json)) (citations : List Json) : List (Text × Json) :=
  if citations = [] then fields else insertField fields "citations" (.arr (blockCitations fields ++ citations))

/-- The text of an input. Nothing at all stands for the empty object. -/
def Spells (serde : SerdeJson) (text : Text) (input : List (Text × Json)) : Prop :=
  serde.fromStr text = some (.obj input) ∨ text = [] ∧ input = []

/-- The fields a block begins with, its deltas, and the fields it has in the end. -/
inductive Completes (serde : SerdeJson) : List (Text × Json) → List Json → List (Text × Json) → Prop where
  | whole {fields : List (Text × Json)} (other : isToolUse (.obj fields) = false) : Completes serde fields [] fields
  | text {fields : List (Text × Json)} {pieces : List Text} {citations deltas : List Json}
      (type : ((Json.obj fields).at_ "type").asStr = some (utf8 "text")) (split : TextDeltas deltas pieces citations) :
      Completes serde fields deltas (extendCitations (extendField fields "text" pieces) citations)
  | thinking {fields : List (Text × Json)} {pieces signature : List Text} {deltas signed : List Json}
      (type : ((Json.obj fields).at_ "type").asStr = some (utf8 "thinking"))
      (split : Pieces "thinking_delta" "thinking" pieces deltas) (sign : Pieces "signature_delta" "signature" signature signed) :
      Completes serde fields (deltas ++ signed) (extendField (extendField fields "thinking" pieces) "signature" signature)
  | toolUse {fields input : List (Text × Json)} {pieces : List Text} {deltas : List Json} (type : isToolUse (.obj fields) = true)
      (placeholder : fields.lookup (utf8 "input") = none ∨ fields.lookup (utf8 "input") = some (.obj []))
      (split : Pieces "input_json_delta" "partial_json" pieces deltas) (spelled : Spells serde pieces.flatten input) :
      Completes serde fields deltas (insertField fields "input" (.obj input))

/-- Whether the event opens a block. -/
def isStart (event : Json) : Bool := eventType event = some (utf8 "content_block_start")

/-- Whether the event is a part of a block. -/
def isDelta (event : Json) : Bool := eventType event = some (utf8 "content_block_delta")

/-- Whether the event ends a block. -/
def isStop (event : Json) : Bool := eventType event = some (utf8 "content_block_stop")

/-- Whether the part is a citation. -/
def isCitation (delta : Json) : Bool := (delta.at_ "type").asStr = some (utf8 "citations_delta")

/-- One of the block's deltas is a citation. -/
def cites (events : List Json) : Bool := (events.filter isDelta).any fun event => isCitation (event.at_ "delta")

/-- An event of the block at `index`. -/
def about (index : Nat) (event : Json) : Bool := (isStart event || isDelta event || isStop event) && blockIndex event = index

/-- The events of one block. -/
def SplitsBlock (serde : SerdeJson) (block : Json) (events : List Json) : Prop :=
  ∃ start deltas stop fields fields', events = start :: deltas ++ [stop] ∧ isStart start = true ∧ (∀ delta ∈ deltas, isDelta delta = true) ∧
    isStop stop = true ∧ start.at_ "content_block" = .obj fields ∧ block = .obj fields' ∧
    Completes serde fields (deltas.map (·.at_ "delta")) fields'

/-- An assistant turn, and the events it is split into, without the last. -/
structure AssistantTurn where
  content : List Json
  stop_reason : Option Text
  events : List Json

/-- The message upstream answers with is the turn. -/
def AnswersWhole (serde : SerdeJson) (answer : ExecutorResult Text) (turn : AssistantTurn) : Prop :=
  ∃ text message, answer = .ok text ∧ serde.fromStr text = some message ∧ (message.at_ "type").asStr ≠ some (utf8 "error") ∧
    message.get "content" = some (.arr turn.content) ∧ (message.at_ "stop_reason").asStr = turn.stop_reason

/-- Whether the event tells the stop reason. -/
def isMessageDelta (event : Json) : Bool := eventType event = some (utf8 "message_delta")

/-- The turn's events are those of a stream in which nothing fails. -/
structure AssistantTurn.Streamed (serde : SerdeJson) (turn : AssistantTurn) : Prop where
  quiet : ∀ event ∈ turn.events, eventType event ≠ some (utf8 "error") ∧ eventType event ≠ some (utf8 "message_stop")
  begins : ∀ event ∈ turn.events, eventType event = some (utf8 "message_start") → (event.at_ "message").get "content" = some (.arr [])
  blocks : ∀ index block, turn.content[index]? = some block → SplitsBlock serde block (turn.events.filter (about index))
  others : ∀ index, turn.content.length ≤ index → turn.events.filter (about index) = []
  stops : ((turn.events.filter isMessageDelta).getLast?.bind fun event => ((event.at_ "delta").at_ "stop_reason").asStr) =
    turn.stop_reason

/-- The lines upstream answers with: those with the turn's events, up to the end or to the event of the end. -/
def AnswersStreamed (serde : SerdeJson) (answer : ExecutorResult (List (Except Text Text))) (turn : AssistantTurn) : Prop :=
  turn.Streamed serde ∧ ∃ (body : List Text) (tail : List (Except Text Text)), answer = .ok (body.map .ok ++ tail) ∧ turn.events = body.filterMap (lineEvent serde) ∧
    (tail = [] ∨ ∃ line event rest, tail = .ok line :: rest ∧ lineEvent serde line = some event ∧
      eventType event = some (utf8 "message_stop"))

section
variable {serde : SerdeJson} {fields fields' : List (Text × Json)} {deltas : List Json} {pieces : List Text} {buffered : BufferedBlock}

/-- The other fields stay when a text is extended. -/
theorem lookup_extendField_ne {key other : Text} (apart : other ≠ key) :
    (extendField fields key pieces).lookup other = fields.lookup other := by
  unfold extendField
  split
  · rfl
  · exact lookup_insertField_ne apart

/-- A text is extended piece by piece. -/
theorem extendField_cons {key piece : Text} :
    extendField (insertField fields key (.str (strField (.obj fields) key ++ piece))) key pieces = extendField fields key (piece :: pieces) := by
  have found : strField (.obj (insertField fields key (.str (strField (.obj fields) key ++ piece)))) key =
      strField (.obj fields) key ++ piece := by
    rw [strField, Json.at_, Json.get, lookup_insertField_self]
    rfl
  unfold extendField
  rw [if_neg (List.cons_ne_nil _ _), List.flatten_cons]
  by_cases last : pieces = []
  · rw [if_pos last, last, List.flatten_nil, List.append_nil]
  · rw [if_neg last, found, insertField_insertField, List.append_assoc]

/-- Deltas that go to a string field of the block. -/
theorem foldl_applyDelta_field {type key : Text} (split : Pieces type key pieces deltas)
    (applies : ∀ (buffered : BufferedBlock) (delta : Json), (delta.at_ "type").asStr = some type →
      buffered.applyDelta delta = { buffered with block := appendStr buffered.block key (delta.get key) })
    (starts : buffered.block = .obj fields) :
    deltas.foldl BufferedBlock.applyDelta buffered = { buffered with block := .obj (extendField fields key pieces) } := by
  unfold Pieces at split
  induction split generalizing buffered fields with
  | nil =>
    rw [List.foldl_nil, extendField, if_pos rfl, ← starts]
  | @cons piece delta pieces deltas first rest ih =>
    have appended : appendStr buffered.block key (delta.get key) =
        .obj (insertField fields key (.str (strField (.obj fields) key ++ piece))) := by
      rw [first.2, starts]
      rfl
    rw [List.foldl_cons, applies buffered delta first.1, appended, ih rfl, extendField_cons]

/-- A part of another type is no citation. -/
theorem not_citation {delta : Json} {type : Text} (typed : (delta.at_ "type").asStr = some type)
    (other : type ≠ utf8 "citations_delta") : isCitation delta = false := by
  rw [isCitation, typed, decide_eq_false_iff_not, Option.some.injEq]
  exact other

/-- The pieces of another field have no citation. -/
theorem Pieces.uncited {type field : Text} (split : Pieces type field pieces deltas) (other : type ≠ utf8 "citations_delta") :
    deltas.any isCitation = false := by
  unfold Pieces at split
  induction split with
  | nil => rfl
  | cons first rest ih => rw [List.any_cons, ih, Bool.or_false, not_citation first.1 other]

/-- Of the deltas of a text the pieces are put together; the citations are passed over. -/
theorem foldl_applyDelta_text {citations : List Json} (split : TextDeltas deltas pieces citations)
    (starts : buffered.block = .obj fields) :
    deltas.foldl BufferedBlock.applyDelta buffered = { buffered with block := .obj (extendField fields "text" pieces) } := by
  induction split generalizing buffered fields with
  | nil =>
    rw [List.foldl_nil, extendField, if_pos rfl, ← starts]
  | @piece deltas citations pieces delta piece type text rest ih =>
    have applied : buffered.applyDelta delta =
        { buffered with block := .obj (insertField fields "text" (.str (strField (.obj fields) "text" ++ piece))) } := by
      unfold BufferedBlock.applyDelta
      rw [type, text, starts]
      rfl
    rw [List.foldl_cons, applied, ih rfl, extendField_cons]
  | @citation deltas citations pieces delta citation type cited rest ih =>
    have passed : buffered.applyDelta delta = buffered := by
      unfold BufferedBlock.applyDelta
      rw [type]
      rfl
    rw [List.foldl_cons, passed, ih starts]

/-- Citations are there where parts carry them. -/
theorem TextDeltas.cited {citations : List Json} (split : TextDeltas deltas pieces citations) :
    deltas.any isCitation = !citations.isEmpty := by
  induction split with
  | nil => rfl
  | piece type text rest ih => rw [List.any_cons, ih, not_citation type (by decide), Bool.false_or]
  | @citation deltas citations pieces delta citation type cited rest ih =>
    have here : isCitation delta = true := by rw [isCitation, type, decide_eq_true_eq]
    rw [List.any_cons, here, Bool.true_or, List.isEmpty_cons, Bool.not_false]

/-- The other fields stay when citations are added. -/
theorem lookup_extendCitations_ne {citations : List Json} {other : Text} (apart : other ≠ utf8 "citations") :
    (extendCitations fields citations).lookup other = fields.lookup other := by
  unfold extendCitations
  split
  · rfl
  · exact lookup_insertField_ne apart

/-- A block with more citations is another block. -/
theorem extendCitations_ne {citations : List Json} (some_cited : citations ≠ []) : extendCitations fields citations ≠ fields := by
  intro same
  have found : fields.lookup (utf8 "citations") = some (.arr (blockCitations fields ++ citations)) := by
    conv_lhs => rw [← same, extendCitations, if_neg some_cited]
    exact lookup_insertField_self
  have longer : blockCitations fields = blockCitations fields ++ citations := by
    conv_lhs => rw [blockCitations, found]
    rfl
  exact some_cited (List.append_right_eq_self.1 longer.symm)

/-- The parts of an input are gathered. -/
theorem foldl_applyDelta_input (split : Pieces "input_json_delta" "partial_json" pieces deltas) :
    deltas.foldl BufferedBlock.applyDelta buffered = { buffered with input_json := buffered.input_json ++ pieces.flatten } := by
  unfold Pieces at split
  induction split generalizing buffered with
  | nil => rw [List.foldl_nil, List.flatten_nil, List.append_nil]
  | @cons piece delta pieces deltas first rest ih =>
    have applied : buffered.applyDelta delta = { buffered with input_json := buffered.input_json ++ piece } := by
      unfold BufferedBlock.applyDelta
      rw [first.1, first.2]
      rfl
    rw [List.foldl_cons, applied, ih, List.flatten_cons, List.append_assoc]

theorem at_congr {key : Text} (same : fields'.lookup key = fields.lookup key) :
    (Json.obj fields').at_ key = (Json.obj fields).at_ key := congrArg (Option.getD · Json.null) same

theorem isToolUse_congr (same : fields'.lookup (utf8 "type") = fields.lookup (utf8 "type")) :
    isToolUse (.obj fields') = isToolUse (.obj fields) := by
  rw [isToolUse, isToolUse, at_congr same]

theorem strField_congr {key : Text} (same : fields'.lookup key = fields.lookup key) :
    strField (.obj fields') key = strField (.obj fields) key := by
  rw [strField, strField, at_congr same]

theorem not_toolUse {type : Text} (typed : ((Json.obj fields).at_ "type").asStr = some type) (other : type ≠ utf8 "tool_use") :
    isToolUse (.obj fields) = false := by
  unfold isToolUse
  rw [typed, decide_eq_false_iff_not, Option.some.injEq]
  exact other

theorem fromStr_nil (serde : SerdeJson) : serde.fromStr [] = none := rfl

end

/-- The block, its input and what its deltas spelled of it. Its citations are lost. -/
structure PutTogether (serde : SerdeJson) (buffered : BufferedBlock) (block : Json) (cited : Bool) : Prop where
  whole : buffered.toBlock serde = block ↔ cited = false
  id : strField buffered.block "id" = strField block "id"
  name : strField buffered.block "name" = strField block "name"
  input : isToolUse block = true → ∃ input, block.get "input" = some (.obj input) ∧ Spells serde buffered.input_json input

section
variable {serde : SerdeJson} {fields fields' : List (Text × Json)} {deltas : List Json}

/-- A block that is no tool use stays as it is. -/
theorem toBlock_other {buffered : BufferedBlock} (holds : buffered.block = .obj fields) (other : isToolUse (.obj fields) = false) :
    buffered.toBlock serde = .obj fields := by
  rw [BufferedBlock.toBlock, holds, other]
  rfl

/-- A block that is no tool use is put together from its opening. -/
theorem putTogether_other {buffered : BufferedBlock} (holds : buffered.block = .obj fields) (other : isToolUse (.obj fields) = false) :
    PutTogether serde buffered (.obj fields) false :=
  ⟨iff_of_true (toBlock_other holds other) rfl, by rw [holds], by rw [holds], fun use => absurd use (by simp [other])⟩

/-- **The block that was split is put together again**, but for its citations. -/
theorem Completes.putTogether (h : Completes serde fields deltas fields') (is_gateway_tool : Bool) :
    PutTogether serde (deltas.foldl BufferedBlock.applyDelta ⟨.obj fields, [], is_gateway_tool⟩) (.obj fields')
      (deltas.any isCitation) := by
  cases h with
  | whole other => exact putTogether_other rfl other
  | @text pieces citations _ type split =>
    have other : isToolUse (.obj (extendField fields "text" pieces)) = false := by
      rw [isToolUse_congr (lookup_extendField_ne (by decide))]
      exact not_toolUse type (by decide)
    rw [foldl_applyDelta_text split rfl, split.cited]
    refine ⟨?_, ?_, ?_, fun use => ?_⟩
    · rw [toBlock_other rfl other, Json.obj.injEq, Bool.not_eq_false', List.isEmpty_iff]
      constructor
      · intro same
        by_contra some_cited
        exact extendCitations_ne some_cited same.symm
      · intro none
        rw [extendCitations, if_pos none]
    · exact (strField_congr (lookup_extendCitations_ne (by decide))).symm
    · exact (strField_congr (lookup_extendCitations_ne (by decide))).symm
    · rw [isToolUse_congr (lookup_extendCitations_ne (by decide)), other] at use
      cases use
  | @thinking pieces signature deltas signed type split sign =>
    have thinks (buffered : BufferedBlock) (delta : Json) (typed : (delta.at_ "type").asStr = some (utf8 "thinking_delta")) :
        buffered.applyDelta delta = { buffered with block := appendStr buffered.block "thinking" (delta.get "thinking") } := by
      unfold BufferedBlock.applyDelta
      rw [typed]
      rfl
    have signs (buffered : BufferedBlock) (delta : Json) (typed : (delta.at_ "type").asStr = some (utf8 "signature_delta")) :
        buffered.applyDelta delta = { buffered with block := appendStr buffered.block "signature" (delta.get "signature") } := by
      unfold BufferedBlock.applyDelta
      rw [typed]
      rfl
    rw [List.foldl_append, foldl_applyDelta_field split thinks rfl, foldl_applyDelta_field sign signs rfl, List.any_append,
      split.uncited (by decide), sign.uncited (by decide)]
    refine putTogether_other rfl ?_
    rw [isToolUse_congr (lookup_extendField_ne (by decide)), isToolUse_congr (lookup_extendField_ne (by decide))]
    exact not_toolUse type (by decide)
  | @toolUse input pieces deltas type placeholder split spelled =>
    rw [foldl_applyDelta_input split, split.uncited (by decide)]
    have kept {key : Text} (apart : key ≠ utf8 "input") :
        (insertField fields "input" (.obj input)).lookup key = fields.lookup key := lookup_insertField_ne apart
    refine ⟨iff_of_true ?_ rfl, ?_, ?_, fun _ => ⟨input, lookup_insertField_self, spelled⟩⟩
    · rw [BufferedBlock.toBlock, if_pos type, List.nil_append]
      rcases spelled with parsed | ⟨empty, rfl⟩
      · have read : parseToolInput serde pieces.flatten = .ok input := by rw [parseToolInput, parsed]
        rw [read]
        rfl
      · rw [empty, parseToolInput, fromStr_nil]
        rfl
    · exact (strField_congr (kept (by decide))).symm
    · exact (strField_congr (kept (by decide))).symm

/-- A block is of the kind it begins as. -/
theorem Completes.same_kind (h : Completes serde fields deltas fields') (map : GatewayToolMap) :
    isToolUse (.obj fields) = isToolUse (.obj fields') ∧ isGatewayToolUse map (.obj fields) = isGatewayToolUse map (.obj fields') := by
  have other {fields fields' : List (Text × Json)} (before : isToolUse (.obj fields) = false) (behind : isToolUse (.obj fields') = false) :
      isToolUse (.obj fields) = isToolUse (.obj fields') ∧ isGatewayToolUse map (.obj fields) = isGatewayToolUse map (.obj fields') := by
    rw [isGatewayToolUse, isGatewayToolUse, before, behind]
    exact ⟨rfl, rfl⟩
  cases h with
  | whole _ => exact ⟨rfl, rfl⟩
  | text type split =>
    refine other (not_toolUse type (by decide)) ?_
    rw [isToolUse_congr (lookup_extendCitations_ne (by decide)), isToolUse_congr (lookup_extendField_ne (by decide))]
    exact not_toolUse type (by decide)
  | thinking type split sign =>
    refine other (not_toolUse type (by decide)) ?_
    rw [isToolUse_congr (lookup_extendField_ne (by decide)), isToolUse_congr (lookup_extendField_ne (by decide))]
    exact not_toolUse type (by decide)
  | @toolUse input pieces deltas type placeholder split spelled =>
    have kept {key : Text} (apart : key ≠ utf8 "input") :
        (insertField fields "input" (.obj input)).lookup key = fields.lookup key := lookup_insertField_ne apart
    rw [isGatewayToolUse, isGatewayToolUse, isToolUse_congr (kept (by decide)), strField_congr (kept (by decide))]
    exact ⟨rfl, rfl⟩

end
end AgenticStack.Messages
