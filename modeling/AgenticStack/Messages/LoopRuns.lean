import AgenticStack.Messages.LoopAgreement

/-!
# Whole runs of the two loops

Round by round, from requests with the same history and the same searches left.
-/

namespace AgenticStack.Messages
set_option autoImplicit false
open Library

variable {serde : SerdeJson} {tools : MessagesTools} {respond : Nat → ExecutorResult Text}
  {lines : Nat → ExecutorResult (List (Except Text Text))} {turns : Nat → AssistantTurn}

/-- The messages of the request are those that are sent. -/
theorem get_upstreamBody (ctx : MessagesRequestContext) : ctx.upstreamBody.get "messages" = some (.arr ctx.messages) := ctx.has_messages

/-- The event that opens a block. -/
def startEvent (skeleton : Json) : Json :=
  .obj [("type", .str "content_block_start"), ("index", .num (.posInt 0)), ("content_block", skeleton)]

/-- The event of a part of a block. -/
def deltaEvent (delta : Json) : Json :=
  .obj [("type", .str "content_block_delta"), ("index", .num (.posInt 0)), ("delta", delta)]

/-- The event that ends a block. -/
def stopEvent : Json := .obj [("type", .str "content_block_stop"), ("index", .num (.posInt 0))]

/-- The event with the stop reason. -/
def messageDelta (stop_reason : Text) : Json :=
  .obj [("type", .str "message_delta"), ("delta", .obj [("stop_reason", .str stop_reason)])]

/-- The events of a block. -/
def blockEvents (skeleton : Json) (deltas : List Json) : List Json := startEvent skeleton :: deltas.map deltaEvent ++ [stopEvent]

/-- A turn with one block. -/
def oneBlockTurn (skeleton block : Json) (deltas : List Json) (stop_reason : Text) : AssistantTurn :=
  ⟨[block], some stop_reason, blockEvents skeleton deltas ++ [messageDelta stop_reason]⟩

section
variable {skeleton event : Json} {deltas : List Json} {fields fields' : List (Text × Json)}

/-- The events of a block are its opening, its parts and its end. -/
theorem type_of_blockEvents (member : event ∈ blockEvents skeleton deltas) : blockIndex event = 0 ∧
    (eventType event = some (utf8 "content_block_start") ∨ eventType event = some (utf8 "content_block_delta") ∨
      eventType event = some (utf8 "content_block_stop")) := by
  rcases List.mem_append.1 member with block | last
  · rcases List.mem_cons.1 block with rfl | delta
    · exact ⟨rfl, .inl rfl⟩
    · obtain ⟨_, _, rfl⟩ := List.mem_map.1 delta
      exact ⟨rfl, .inr (.inl rfl)⟩
  · rw [List.mem_singleton.1 last]
    exact ⟨rfl, .inr (.inr rfl)⟩

/-- The events of a block are about it. -/
theorem about_blockEvents (member : event ∈ blockEvents skeleton deltas) (index : Nat) : about index event = decide (0 = index) := by
  obtain ⟨here, type | type | type⟩ := type_of_blockEvents member
  · simp [about, isStart, type, here]
  · simp [about, isDelta, type, here]
  · simp [about, isStop, type, here]

/-- The events of a block that is streamed whole, and the turn's end. -/
theorem oneBlockTurn_streamed (completes : Completes serde fields deltas fields') (stop_reason : Text) :
    (oneBlockTurn (.obj fields) (.obj fields') deltas stop_reason).Streamed serde := by
  have of_block (index : Nat) : (oneBlockTurn (.obj fields) (.obj fields') deltas stop_reason).events.filter (about index) =
      if index = 0 then blockEvents (.obj fields) deltas else [] := by
    have ending : [messageDelta stop_reason].filter (about index) = [] := rfl
    rw [oneBlockTurn, List.filter_append, ending, List.append_nil]
    by_cases first : index = 0
    · rw [if_pos first, List.filter_eq_self]
      intro event member
      rw [about_blockEvents member, decide_eq_true_eq, first]
    · rw [if_neg first, List.filter_eq_nil_iff]
      intro event member
      rw [about_blockEvents member, decide_eq_true_eq]
      exact fun same => first same.symm
  have kinds {event : Json} (member : event ∈ (oneBlockTurn (.obj fields) (.obj fields') deltas stop_reason).events) :
      Quiet event ∧ eventType event ≠ some (utf8 "message_start") := by
    have all {type : Text} (typed : eventType event = some type) (quiet : (type ≠ utf8 "error" ∧ type ≠ utf8 "message_stop") ∧
        type ≠ utf8 "message_start") : Quiet event ∧ eventType event ≠ some (utf8 "message_start") := by
      unfold Quiet
      simpa [typed] using quiet
    rcases List.mem_append.1 member with block | last
    · rcases (type_of_blockEvents block).2 with type | type | type
      · exact all type (by decide)
      · exact all type (by decide)
      · exact all type (by decide)
    · rw [List.mem_singleton.1 last] at all ⊢
      exact all rfl (by decide)
  refine ⟨fun event member => (kinds member).1, fun event member first => absurd first (kinds member).2, fun index block found => ?_,
    fun index above => ?_, ?_⟩
  · cases index with
    | zero =>
      cases found
      rw [of_block, if_pos rfl]
      refine ⟨_, _, _, fields, fields', rfl, rfl, fun delta member => ?_, rfl, rfl, rfl, ?_⟩
      · obtain ⟨_, _, rfl⟩ := List.mem_map.1 member
        rfl
      · have back : (deltas.map deltaEvent).map (·.at_ "delta") = deltas := by
          rw [List.map_map]
          exact List.map_id deltas
        rw [back]
        exact completes
    | succ index => cases found
  · have later : index ≠ 0 := Nat.ne_of_gt above
    rw [of_block, if_neg later]
  · have before : (blockEvents (.obj fields) deltas).filter isMessageDelta = [] := by
      rw [List.filter_eq_nil_iff]
      intro event member
      rcases (type_of_blockEvents member).2 with type | type | type
      · simp +decide [isMessageDelta, type]
      · simp +decide [isMessageDelta, type]
      · simp +decide [isMessageDelta, type]
    rw [oneBlockTurn, List.filter_append, before]
    rfl

end

/-- Numbers are not read as floats here. -/
def plainSerde : SerdeJson := ⟨fun _ => none, id⟩

/-- The turn as a whole message. -/
def messageText (turn : AssistantTurn) : Text :=
  (Json.obj [("type", .str "message"), ("content", .arr turn.content), ("stop_reason", .str (turn.stop_reason.getD []))]).write

/-- An event as a line. -/
def eventLine (event : Json) : Text := utf8 "data: " ++ event.write

/-- The turn as lines. -/
def turnLines (turn : AssistantTurn) : List (Except Text Text) :=
  (turn.events.map eventLine).map .ok ++ [.ok (eventLine (.obj [("type", .str "message_stop")]))]

/-- The opening of a search. -/
def searchFields : List (Text × Json) :=
  [("type", .str "tool_use"), ("id", .str "call"), ("name", .str "web_search"), ("input", .obj [])]

/-- What is searched for. -/
def rustQuery : List (Text × Json) := [("query", .str "rust")]

/-- A part of the input. -/
def inputDelta (piece : Text) : Json := .obj [("type", .str "input_json_delta"), ("partial_json", .str piece)]

/-- The model searches. -/
def searchTurn (stop_reason : Text) : AssistantTurn :=
  oneBlockTurn (.obj searchFields) (.obj (insertField searchFields "input" (.obj rustQuery))) [inputDelta (Json.obj rustQuery).write] stop_reason

/-- The search is streamed as it is. -/
theorem searchTurn_streamed (stop_reason : Text) : (searchTurn stop_reason).Streamed plainSerde := by
  have split : Pieces "input_json_delta" "partial_json" [(Json.obj rustQuery).write] [inputDelta (Json.obj rustQuery).write] :=
    .cons ⟨rfl, rfl⟩ .nil
  exact oneBlockTurn_streamed (.toolUse rfl (.inr rfl) split (.inl rfl)) stop_reason

/-- The opening of the answer. -/
def answerFields : List (Text × Json) := [("type", .str "text"), ("text", .str "1.89.0")]

/-- The answer cites what was found, between two pieces of it. -/
def answerDeltas : List Json :=
  [.obj [("type", .str "text_delta"), ("text", .str " is")],
    .obj [("type", .str "citations_delta"), ("citation", .obj [("url", .str "https://example.com")])],
    .obj [("type", .str "text_delta"), ("text", .str " out")]]

/-- The model answers. -/
def answerTurn : AssistantTurn :=
  oneBlockTurn (.obj answerFields)
    (.obj (extendCitations (extendField answerFields "text" [" is", " out"]) [.obj [("url", .str "https://example.com")]]))
    answerDeltas "end_turn"

/-- The answer is streamed as it is. -/
theorem answerTurn_streamed : answerTurn.Streamed plainSerde := by
  have split : TextDeltas answerDeltas [" is", " out"] [.obj [("url", .str "https://example.com")]] :=
    .piece rfl rfl (.citation rfl rfl (.piece rfl rfl .nil))
  exact oneBlockTurn_streamed (.text rfl split) _

/-- A tool that finds something. -/
def found : GatewayBinding where
  execute _ _ call_id _ _ := .ok ⟨call_id, "Rust 1.89.0"⟩
  answers_call _ _ _ _ _ _ ok := by
    cases ok
    rfl
  startedOutput _ := none
  publicOutput _ _ _ := none

/-- The search is run by the gateway. -/
theorem isGatewayOwned_webSearch : ToolType.isGatewayOwned .webSearch = true := rfl

/-- The tools of the run. -/
def searchTools : MessagesTools :=
  ⟨⟨[("web_search", Tools.gatewayEntry .webSearch isGatewayOwned_webSearch (some found))], []⟩, ⟨[]⟩, fun _ _ _ => false⟩

/-- The request of the run. -/
def rustRequest : MessagesRequestContext where
  raw := [("messages", .arr [.obj [("role", .str "user"), ("content", .str "Which Rust?")]])]
  messages := [.obj [("role", .str "user"), ("content", .str "Which Rust?")]]
  has_messages := rfl
  web_search_budget := ⟨none⟩

set_option maxRecDepth 20000 in
/-- The answer as a whole and as a stream. -/
theorem answers_answerTurn : AnswersWhole plainSerde (.ok (messageText answerTurn)) answerTurn ∧
    AnswersStreamed plainSerde (.ok (turnLines answerTurn)) answerTurn :=
  ⟨⟨_, _, rfl, rfl, by decide, rfl, rfl⟩, answerTurn_streamed, _, _, rfl, rfl, .inr ⟨_, _, [], rfl, rfl, rfl⟩⟩

/-- The model searches and then answers. -/
def searchThenAnswer (round : Nat) : AssistantTurn := if round = 0 then searchTurn "tool_use" else answerTurn

end AgenticStack.Messages
