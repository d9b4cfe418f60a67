import AgenticStack.Executor.Translate.Custom

/-!
# What a custom call streams

While the arguments grow, the deltas emitted so far are the decoded complete
part of the string under `input`. The stream therefore ends well exactly when
that part of the arguments it saw last decodes, and starts what the blocking
path makes of the final arguments.
-/

namespace AgenticStack
set_option autoImplicit false
open Library

variable {p q a : Text} {k : Nat}

/-- The input goes on as the arguments do. -/
theorem customInputBody_append {encoded : Text} (h : customInputBody p = some encoded) (q : Text) :
    customInputBody (p ++ q) = some (encoded ++ q) := by
  simp only [customInputBody, Option.bind_eq_bind, Option.bind_eq_some_iff] at h ⊢
  obtain ⟨s₁, brace, s₂, key, s₃, colon, quote⟩ := h
  have key' := @stripPrefix_trimStart_append _ q _ _ _ (by decide) key
  have colon' := @stripPrefix_trimStart_append _ q _ _ _ (by decide) colon
  have quote' := @stripPrefix_trimStart_append _ q _ _ _ (by decide) quote
  refine ⟨s₁ ++ q, ?_, s₂ ++ q, key', s₃ ++ q, colon', quote'⟩
  cases pair : stripPrefix [0x7b, 0x7d] (trimStart p) with
  | some rest =>
    rw [pair, Option.getD_some] at brace
    rw [@stripPrefix_trimStart_append _ q _ _ _ (by decide) pair, Option.getD_some]
    exact @stripPrefix_trimStart_append _ q _ _ _ (by decide) brace
  | none =>
    rw [pair, Option.getD_none, trimStart_trimStart] at brace
    have braced := @stripPrefix_trimStart_append _ q _ _ _ (by decide) brace
    have unpaired : stripPrefix [0x7b, 0x7d] (trimStart (p ++ q)) = none := by
      rw [stripPrefix_eq_some_iff] at brace braced
      rw [brace] at pair
      rw [braced]
      cases s₁ with
      | nil =>
        have nothing : stripPrefix (utf8 "\"input\"") (trimStart []) = none := by decide
        rw [nothing] at key
        simp at key
      | cons b s₁ => simpa [stripPrefix] using pair
    rw [unpaired, Option.getD_none, trimStart_trimStart]
    exact braced

/-- A text is no longer without its front. -/
theorem stripPrefix_length {front s r : Text} (h : stripPrefix front s = some r) : r.length ≤ s.length := by
  rw [stripPrefix_eq_some_iff] at h
  rw [h, List.length_append]
  omega

/-- The input is no longer than the arguments. -/
theorem customInputBody_length {encoded : Text} (h : customInputBody p = some encoded) : encoded.length ≤ p.length := by
  simp only [customInputBody, Option.bind_eq_bind, Option.bind_eq_some_iff] at h
  obtain ⟨s₁, brace, s₂, key, s₃, colon, quote⟩ := h
  have pair : ((stripPrefix [0x7b, 0x7d] (trimStart p)).getD (trimStart p)).length ≤ p.length := by
    cases pair : stripPrefix [0x7b, 0x7d] (trimStart p) with
    | none => exact trimStart_length
    | some rest => exact Nat.le_trans (stripPrefix_length pair) trimStart_length
  have l₁ := Nat.le_trans (stripPrefix_length brace) trimStart_length
  have l₂ := Nat.le_trans (stripPrefix_length key) trimStart_length
  have l₃ := Nat.le_trans (stripPrefix_length colon) trimStart_length
  have l₄ := Nat.le_trans (stripPrefix_length quote) trimStart_length
  omega

/-- The input begins within the arguments. -/
theorem customInputStart_le (h : customInputStart p = some k) : k ≤ p.length := by
  simp only [customInputStart, Option.map_eq_some_iff] at h
  obtain ⟨encoded, -, rfl⟩ := h
  omega

/-- The start of the input stays where it was found. -/
theorem customInputStart_append (h : customInputStart p = some k) (q : Text) : customInputStart (p ++ q) = some k := by
  simp only [customInputStart, Option.map_eq_some_iff] at h ⊢
  obtain ⟨encoded, body, rfl⟩ := h
  have len := customInputBody_length body
  refine ⟨encoded ++ q, customInputBody_append body q, ?_⟩
  rw [List.length_append, List.length_append]
  omega

/-- What the stream has emitted once it has seen the arguments `p`; nothing when it fails on them. -/
def streamedInput (p : Text) : Option Text :=
  match customInputStart p with
  | none => some []
  | some start =>
    let encoded := p.drop start
    decodeBody (encoded.take (completeJsonStringPrefix encoded))

/-- Nothing is streamed of nothing. -/
@[simp] theorem streamedInput_nil : streamedInput [] = some [] := by decide

/-- The complete part of a longer text is the old complete part and what became complete. -/
theorem completePrefix_append (s t : Text) :
    (s ++ t).take (completeJsonStringPrefix (s ++ t)) =
      s.take (completeJsonStringPrefix s) ++
        (s.drop (completeJsonStringPrefix s) ++ t).take (completeJsonStringPrefix (s.drop (completeJsonStringPrefix s) ++ t)) := by
  unfold completeJsonStringPrefix
  have le := @scanBody_le s
  rw [scanBody_append, List.take_add, List.take_append_of_le_length le, List.drop_append_of_le_length le]

/-- Once the stream fails, more arguments do not help. -/
theorem streamedInput_none_append (h : streamedInput p = none) (q : Text) : streamedInput (p ++ q) = none := by
  unfold streamedInput at h ⊢
  cases start : customInputStart p with
  | none => simp [start] at h
  | some k =>
    have le := customInputStart_le start
    simp only [start] at h
    simp only [customInputStart_append start, List.drop_append_of_le_length le]
    cases whole : decodeBody _ with
    | none => rfl
    | some d =>
      rw [decodeBody_eq_some_iff, completePrefix_append] at whole
      obtain ⟨x, y, -, front, -⟩ := whole.split complete_take
      have read : decodeBody ((p.drop k).take (completeJsonStringPrefix (p.drop k))) = some x :=
        decodeBody_eq_some_iff.2 front
      rw [read] at h
      simp at h

/-- The state of a call whose stream has seen the arguments `p`. -/
structure Streams (p : Text) (state : CustomCallState) : Prop where
  unfinished : state.input_done = false
  emitted : streamedInput p = some state.emitted_input
  position : match customInputStart p with
    | none => state.input_start = none ∧ state.emitted_input = []
    | some start => state.input_start = some start ∧
        state.input_cursor = start + completeJsonStringPrefix (p.drop start)

/-- The deltas of the input that the frames carry. -/
def inputDeltas (frames : List EventFrame) : List Text :=
  frames.filterMap fun frame => if frame.event_type = .customToolCallInputDelta then frame.text "delta" else none

/-- The inputs that `custom_tool_call_input.done` frames announce. -/
def inputsDone (frames : List EventFrame) : List Text :=
  frames.filterMap fun frame => if frame.event_type = .customToolCallInputDone then frame.text "input" else none

/-- The inputs of the items that `output_item.done` frames carry. -/
def itemInputs (frames : List EventFrame) : List Text :=
  frames.filterMap fun frame =>
    if frame.event_type = .outputItemDone then
      (((Json.obj frame.wire.rest).get "item").bind fun item => item.get "input").bind Json.asStr
    else none

/-- The deltas of two lists are those of both. -/
@[simp] theorem inputDeltas_append (fs gs : List EventFrame) : inputDeltas (fs ++ gs) = inputDeltas fs ++ inputDeltas gs :=
  List.filterMap_append

/-- The inputs of two lists are those of both. -/
@[simp] theorem inputsDone_append (fs gs : List EventFrame) : inputsDone (fs ++ gs) = inputsDone fs ++ inputsDone gs :=
  List.filterMap_append

/-- The item inputs of two lists are those of both. -/
@[simp] theorem itemInputs_append (fs gs : List EventFrame) : itemInputs (fs ++ gs) = itemInputs fs ++ itemInputs gs :=
  List.filterMap_append

/-- Frames that stream a text and announce nothing. -/
structure StreamsText (d : Text) (frames : List EventFrame) : Prop where
  deltas : (inputDeltas frames).flatten = d
  done : inputsDone frames = []
  items : itemInputs frames = []

/-- Nothing streams nothing. -/
theorem StreamsText.nil : StreamsText [] [] := ⟨rfl, rfl, rfl⟩

/-- Frames that stream a text, one list after the other. -/
theorem StreamsText.append {d e : Text} {fs gs : List EventFrame} (left : StreamsText d fs) (right : StreamsText e gs) :
    StreamsText (d ++ e) (fs ++ gs) where
  deltas := by rw [inputDeltas_append, List.flatten_append, left.deltas, right.deltas]
  done := by rw [inputsDone_append, left.done, right.done, List.append_nil]
  items := by rw [itemInputs_append, left.items, right.items, List.append_nil]

/-- A delta streams its text. -/
theorem customDeltaFrame_streams (state : CustomCallState) (d : Text) :
    ∃ frame, customDeltaFrame state d = .ok frame ∧ StreamsText d [frame] := by
  refine ⟨_, rfl, ?_, rfl, rfl⟩
  show [d].flatten = d
  simp

/-- The opening streams nothing. -/
theorem customAddedFrame_streams (call : AccumulatedFunctionCall) :
    ∃ frame, customAddedFrame call = .ok frame ∧ StreamsText [] [frame] :=
  ⟨_, rfl, rfl, rfl, rfl⟩

/-- The end of a call has its input. -/
theorem customDoneFrame_input (state : CustomCallState) (call : AccumulatedFunctionCall) :
    ∃ frame, customDoneFrame state call = .ok frame ∧
      inputDeltas [frame] = [] ∧ inputsDone [frame] = [] ∧ itemInputs [frame] = [state.emitted_input] :=
  ⟨_, rfl, rfl, rfl, rfl⟩

section
variable {serde : SerdeJson} {state : CustomCallState}

/-- The input is not there yet. -/
theorem locateInput_none (stream : Streams p state) (start : customInputStart (p ++ q) = none) :
    locateInput state (p ++ q) = none := by
  have before : customInputStart p = none := by
    cases found : customInputStart p with
    | none => rfl
    | some k => rw [customInputStart_append found q] at start; simp at start
  have position := stream.position
  rw [before] at position
  rw [locateInput, position.1, start]
  rfl

/-- The string under `input` is found where it was, or for the first time. -/
theorem locateInput_some (stream : Streams p state) (start : customInputStart (p ++ q) = some k) :
    ∃ s t, (p ++ q).drop k = s ++ t ∧ Decodes (s.take (completeJsonStringPrefix s)) state.emitted_input ∧
      locateInput state (p ++ q) =
        some ({ state with input_start := some k, input_cursor := k + completeJsonStringPrefix s }, k) := by
  have position := stream.position
  have emitted := stream.emitted
  unfold streamedInput at emitted
  cases found : customInputStart p with
  | none =>
    rw [found] at position
    refine ⟨[], (p ++ q).drop k, rfl, ?_, ?_⟩
    · rw [position.2]
      exact .nil
    · rw [locateInput, position.1, start]
      rfl
  | some k' =>
    have same := customInputStart_append found q
    rw [start, Option.some.injEq] at same
    subst same
    rw [found] at position
    simp only [found] at emitted
    refine ⟨p.drop k, q, List.drop_append_of_le_length (customInputStart_le found), decodeBody_eq_some_iff.1 emitted, ?_⟩
    have settled : { state with input_start := some k, input_cursor := k + completeJsonStringPrefix (p.drop k) } = state := by
      rw [← position.1, ← position.2]
    rw [settled, locateInput, position.1]

/-- One delta reads what has become complete: the stream fails exactly when that does not decode. -/
theorem partialCustomInput_of_start (stream : Streams p state) (start : customInputStart (p ++ q) = some k) :
    ∃ piece, streamedInput (p ++ q) = (decodeBody piece).map (state.emitted_input ++ ·) ∧
      match decodeBody piece with
      | none => ∃ message, partialCustomInput serde state (p ++ q) = .error (.streamError message)
      | some delta => partialCustomInput serde state (p ++ q) =
          .ok ({ state with
            input_start := some k
            input_cursor := k + completeJsonStringPrefix ((p ++ q).drop k) }, if delta = [] then none else some delta) := by
  obtain ⟨s, t, cut, decoded, located⟩ := locateInput_some stream start
  have le : completeJsonStringPrefix s ≤ s.length := scanBody_le
  have within := customInputStart_le start
  have long : ((p ++ q).drop k).length = s.length + t.length := by rw [cut, List.length_append]
  rw [List.length_drop] at long
  have cursor : ¬ (k + completeJsonStringPrefix s < k ∨ (p ++ q).length < k + completeJsonStringPrefix s) := by
    omega
  have encoded : (p ++ q).drop (k + completeJsonStringPrefix s) = s.drop (completeJsonStringPrefix s) ++ t := by
    rw [← List.drop_drop, cut, List.drop_append_of_le_length le]
  have total : completeJsonStringPrefix (s ++ t) = completeJsonStringPrefix s +
      completeJsonStringPrefix (s.drop (completeJsonStringPrefix s) ++ t) := scanBody_append
  generalize rest : s.drop (completeJsonStringPrefix s) ++ t = r at encoded total
  refine ⟨r.take (completeJsonStringPrefix r), ?_, ?_⟩
  · unfold streamedInput
    rw [start]
    simp only [cut, completePrefix_append, rest]
    exact decoded.decodeBody_append _
  · unfold partialCustomInput
    simp only [located, if_neg cursor, encoded]
    by_cases stop : completeJsonStringPrefix r = 0
    · simp only [stop, List.take_zero, decodeBody_nil, if_true]
      rw [cut, total, stop, Nat.add_zero]
    · rw [if_neg stop]
      cases decodeBody (r.take (completeJsonStringPrefix r)) with
      | none => exact ⟨_, rfl⟩
      | some delta => simp only [cut, total, Nat.add_assoc]

/-- What has arrived of the input is shown. -/
theorem incrementalCustomDelta_ok {d : Text} (stream : Streams p state) (reads : streamedInput (p ++ q) = some d)
    (size : (p ++ q).length ≤ maxPendingFunctionBytes) :
    ∃ e state' frames, d = state.emitted_input ++ e ∧ incrementalCustomDelta serde state (p ++ q) = .ok (state', frames) ∧
      Streams (p ++ q) state' ∧ StreamsText e frames := by
  have fits := ensureFunctionCallSize_ok size
  cases start : customInputStart (p ++ q) with
  | none =>
    have located := locateInput_none stream start
    have emitted : state.emitted_input = [] := by
      have position := stream.position
      cases found : customInputStart p with
      | none => rw [found] at position; exact position.2
      | some k => rw [customInputStart_append found q] at start; simp at start
    have unstarted : state.input_start = none := by
      cases known : state.input_start with
      | none => rfl
      | some k => simp [locateInput, known] at located
    have nothing : streamedInput (p ++ q) = some [] := by rw [streamedInput, start]
    rw [nothing, Option.some.injEq] at reads
    refine ⟨[], state, [], ?_, ?_, ?_, .nil⟩
    · rw [← reads, emitted]
      rfl
    · unfold incrementalCustomDelta partialCustomInput
      rw [fits, located]
      rfl
    · refine ⟨stream.unfinished, ?_, ?_⟩
      · rw [nothing, emitted]
      · rw [start]
        exact ⟨unstarted, emitted⟩
  | some k =>
    obtain ⟨piece, whole, step⟩ := @partialCustomInput_of_start p q k serde state stream start
    cases part : decodeBody piece with
    | none =>
      rw [part, Option.map_none, reads] at whole
      simp at whole
    | some delta =>
      rw [part, Option.map_some, reads, Option.some.injEq] at whole
      rw [part] at step
      simp only at step
      have extended : Streams (p ++ q) { state with
          input_start := some k
          input_cursor := k + completeJsonStringPrefix ((p ++ q).drop k)
          emitted_input := state.emitted_input ++ delta } := by
        refine ⟨stream.unfinished, ?_, ?_⟩
        · rw [reads, whole]
        · rw [start]
          exact ⟨rfl, rfl⟩
      by_cases empty : delta = []
      · subst empty
        refine ⟨[], _, [], whole, ?_, by simpa using extended, .nil⟩
        unfold incrementalCustomDelta
        rw [fits, step]
        rfl
      · obtain ⟨frame, made, text⟩ := customDeltaFrame_streams
          { state with input_start := some k, input_cursor := k + completeJsonStringPrefix ((p ++ q).drop k) } delta
        refine ⟨delta, _, [frame], whole, ?_, extended, text⟩
        unfold incrementalCustomDelta
        rw [fits, step]
        simp only [if_neg empty, bind, Except.bind, made]
        rfl

/-- Arguments that do not go on as an input fail. -/
theorem incrementalCustomDelta_error (stream : Streams p state) (fails : streamedInput (p ++ q) = none)
    (size : (p ++ q).length ≤ maxPendingFunctionBytes) :
    ∃ message, incrementalCustomDelta serde state (p ++ q) = .error (.streamError message) := by
  have fits := ensureFunctionCallSize_ok size
  cases start : customInputStart (p ++ q) with
  | none => simp [streamedInput, start] at fails
  | some k =>
    obtain ⟨piece, whole, step⟩ := @partialCustomInput_of_start p q k serde state stream start
    cases part : decodeBody piece with
    | some delta =>
      rw [part, fails] at whole
      simp at whole
    | none =>
      rw [part] at step
      obtain ⟨message, step⟩ := step
      refine ⟨message, ?_⟩
      unfold incrementalCustomDelta
      rw [fits, step]
      rfl

end

/-- The call after some of its arguments have arrived. -/
def callSoFar (item : FunctionToolCall) (output_index : Nat) (seen : Text) : AccumulatedFunctionCall :=
  ⟨{ item with arguments := [] }, output_index, seen⟩

/-- The call once its arguments are complete. -/
def callComplete (item : FunctionToolCall) (output_index : Nat) (arguments : Text) : AccumulatedFunctionCall :=
  ⟨{ item with arguments }, output_index, []⟩

/-- The call as far as it has come has the arguments that were seen. -/
@[simp] theorem callSoFar_arguments (item : FunctionToolCall) (i : Nat) (seen : Text) :
    (callSoFar item i seen).arguments = seen := rfl

/-- The call at its end has all its arguments. -/
@[simp] theorem callComplete_arguments (item : FunctionToolCall) (i : Nat) (arguments : Text) :
    (callComplete item i arguments).arguments = arguments := by
  unfold AccumulatedFunctionCall.arguments callComplete
  by_cases empty : arguments = [] <;> simp [empty]

/-- The delta events of a call; each shows the arguments up to and including its own part. -/
def deltaEvents (item : FunctionToolCall) (output_index : Nat) :
    Text → List (EventFrame × Text) → List (ToolEvent × Option AccumulatedFunctionCall)
  | _, [] => []
  | seen, (frame, part) :: parts =>
    (.delta frame, some (callSoFar item output_index (seen ++ part))) :: deltaEvents item output_index (seen ++ part) parts

/-- What the deltas show in all. -/
def shown (parts : List (EventFrame × Text)) : Text := (parts.map Prod.snd).flatten

/-- The events of one call with the final arguments `a`. A call that is named late is started
with the arguments known by then: its first delta shows all of them, the others nothing. -/
def callEvents (item : FunctionToolCall) (started : AccumulatedFunctionCall) (added : Option EventFrame)
    (parts : List (EventFrame × Text)) (a : Text) (argumentsDone : Option EventFrame) (done : EventFrame) :
    List (ToolEvent × Option AccumulatedFunctionCall) :=
  (.added item.id item.name started.output_index added, some started) ::
    (deltaEvents item started.output_index [] parts ++
      (argumentsDone.toList.map fun frame =>
        (ToolEvent.argumentsDone frame, some (callComplete item started.output_index a))) ++
      [(.done done, some (callComplete item started.output_index a))])

section
variable {serde : SerdeJson} {state : CustomCallState} {item : FunctionToolCall} {i : Nat} {d : Text}

/-- Deltas whose arguments can be streamed are streamed. -/
theorem run_deltaEvents_ok {parts : List (EventFrame × Text)} (stream : Streams p state)
    (reads : streamedInput (p ++ shown parts) = some d) (size : (p ++ shown parts).length ≤ maxPendingFunctionBytes) :
    ∃ e state' frames, d = state.emitted_input ++ e ∧
      CustomTranslator.run serde (some state) (deltaEvents item i p parts) = .ok (some state', frames) ∧
      Streams (p ++ shown parts) state' ∧ StreamsText e frames := by
  induction parts generalizing p state with
  | nil =>
    have same : p ++ shown [] = p := List.append_nil p
    rw [same] at reads ⊢
    rw [stream.emitted, Option.some.injEq] at reads
    exact ⟨[], state, [], by rw [reads, List.append_nil], rfl, stream, .nil⟩
  | cons part parts ih =>
    obtain ⟨frame, part⟩ := part
    have assoc : p ++ shown ((frame, part) :: parts) = (p ++ part) ++ shown parts := (List.append_assoc ..).symm
    rw [assoc] at reads size ⊢
    cases first : streamedInput (p ++ part) with
    | none =>
      rw [streamedInput_none_append first] at reads
      simp at reads
    | some d₁ =>
      have size₁ : (p ++ part).length ≤ maxPendingFunctionBytes := by
        rw [List.length_append] at size
        omega
      obtain ⟨e₁, state₁, frames₁, rfl, step, stream₁, text₁⟩ := @incrementalCustomDelta_ok _ _ serde _ _ stream first size₁
      obtain ⟨e₂, state₂, frames₂, rfl, rest, stream₂, text₂⟩ := ih stream₁ reads size
      have emitted : state₁.emitted_input = state.emitted_input ++ e₁ := by
        have both := stream₁.emitted
        rw [first, Option.some.injEq] at both
        exact both.symm
      refine ⟨e₁ ++ e₂, state₂, frames₁ ++ frames₂, ?_, ?_, stream₂, text₁.append text₂⟩
      · rw [emitted, List.append_assoc]
      · have now : CustomTranslator.translate serde (some state) (.delta frame) (some (callSoFar item i (p ++ part))) =
            .ok (some state₁, frames₁) := by
          rw [CustomTranslator.translate, CustomCallState.started, callSoFar_arguments, step]
          rfl
        unfold CustomTranslator.run at rest ⊢
        rw [deltaEvents, transduce_cons_ok now, rest]
        rfl

/-- A delta that does not go on as the input fails. -/
theorem run_deltaEvents_error {parts : List (EventFrame × Text)} (stream : Streams p state)
    (fails : streamedInput (p ++ shown parts) = none) (size : (p ++ shown parts).length ≤ maxPendingFunctionBytes) :
    ∃ message, CustomTranslator.run serde (some state) (deltaEvents item i p parts) = .error (.streamError message) := by
  induction parts generalizing p state with
  | nil =>
    have same : p ++ shown [] = p := List.append_nil p
    rw [same, stream.emitted] at fails
    simp at fails
  | cons part parts ih =>
    obtain ⟨frame, part⟩ := part
    have assoc : p ++ shown ((frame, part) :: parts) = (p ++ part) ++ shown parts := (List.append_assoc ..).symm
    rw [assoc] at fails size
    have size₁ : (p ++ part).length ≤ maxPendingFunctionBytes := by
      rw [List.length_append] at size
      omega
    have now : CustomTranslator.translate serde (some state) (.delta frame) (some (callSoFar item i (p ++ part))) =
        (incrementalCustomDelta serde state (p ++ part)).map fun now => (some now.1, now.2) := rfl
    unfold CustomTranslator.run at ih ⊢
    rw [deltaEvents]
    cases first : streamedInput (p ++ part) with
    | none =>
      obtain ⟨message, step⟩ := @incrementalCustomDelta_error _ _ serde _ stream first size₁
      rw [step] at now
      exact ⟨message, transduce_cons_error now⟩
    | some d₁ =>
      obtain ⟨e₁, state₁, frames₁, -, step, stream₁, -⟩ := @incrementalCustomDelta_ok _ _ serde _ _ stream first size₁
      obtain ⟨message, rest⟩ := ih stream₁ fails size
      rw [step] at now
      refine ⟨message, ?_⟩
      rw [transduce_cons_ok now, rest]
      rfl

/-- At the end the rest of the input is shown. -/
theorem finishCustomInput_ok {e : Text} (unfinished : state.input_done = false)
    (fits : CustomHandler.inputFromArguments serde a = state.emitted_input ++ e)
    (size : a.length ≤ maxPendingFunctionBytes) :
    ∃ frames, finishCustomInput serde state a = .ok ({ state with
        emitted_input := CustomHandler.inputFromArguments serde a
        input_done := true }, frames) ∧
      (inputDeltas frames).flatten = e ∧ inputsDone frames = [CustomHandler.inputFromArguments serde a] ∧
      itemInputs frames = [] := by
  have remaining : stripPrefix state.emitted_input (CustomHandler.inputFromArguments serde a) = some e := by
    rw [stripPrefix_eq_some_iff, fits]
  unfold finishCustomInput
  rw [unfinished]
  simp only [Bool.false_eq_true, if_false, ensureFunctionCallSize_ok size, remaining]
  by_cases empty : e = []
  · subst empty
    exact ⟨_, rfl, rfl, rfl, rfl⟩
  · obtain ⟨frame, made, text⟩ := customDeltaFrame_streams state e
    simp only [if_neg empty, made]
    refine ⟨_, rfl, ?_, ?_, ?_⟩
    · rw [inputDeltas_append, List.flatten_append, text.deltas]
      exact List.append_nil e
    · rw [inputsDone_append, text.done]
      rfl
    · rw [itemInputs_append, text.items]
      rfl

/-- An end that contradicts what was shown fails. -/
theorem finishCustomInput_error (unfinished : state.input_done = false)
    (apart : ¬ state.emitted_input <+: CustomHandler.inputFromArguments serde a)
    (size : a.length ≤ maxPendingFunctionBytes) : ∃ message, finishCustomInput serde state a = .error (.streamError message) := by
  have contradicts : stripPrefix state.emitted_input (CustomHandler.inputFromArguments serde a) = none := by
    unfold stripPrefix
    rw [if_neg]
    rwa [List.isPrefixOf_iff_prefix]
  unfold finishCustomInput
  rw [unfinished]
  simp only [Bool.false_eq_true, if_false, ensureFunctionCallSize_ok size, contradicts]
  exact ⟨_, rfl⟩

/-- The last events of a call whose arguments are complete. -/
def endEvents (item : FunctionToolCall) (i : Nat) (a : Text) (argumentsDone : Option EventFrame) (done : EventFrame) :
    List (ToolEvent × Option AccumulatedFunctionCall) :=
  (argumentsDone.toList.map fun frame => (ToolEvent.argumentsDone frame, some (callComplete item i a))) ++
    [(.done done, some (callComplete item i a))]

/-- At the end of the call its input is shown. -/
theorem run_done {finished : CustomCallState} {frames : List EventFrame} (done : EventFrame)
    (finish : finishCustomInput serde state a = .ok (finished, frames)) :
    ∃ last, CustomTranslator.run serde (some state) [(.done done, some (callComplete item i a))] =
        .ok (some finished, frames ++ [last]) ∧
      inputDeltas [last] = [] ∧ inputsDone [last] = [] ∧ itemInputs [last] = [finished.emitted_input] := by
  obtain ⟨last, made, quiet⟩ := customDoneFrame_input finished (callComplete item i a)
  have now : CustomTranslator.translate serde (some state) (.done done) (some (callComplete item i a)) =
      .ok (some finished, frames ++ [last]) := by
    rw [CustomTranslator.translate, CustomCallState.started, callComplete_arguments, finish]
    simp only [bind, Except.bind, made]
    rfl
  refine ⟨last, ?_, quiet⟩
  rw [CustomTranslator.run, transduce_cons_ok now]
  simp only [transduce_nil, Except.map, List.append_nil]

/-- The events that end a call show the rest of its input. -/
theorem run_endEvents_ok {e : Text} {argumentsDone : Option EventFrame} {done : EventFrame}
    (unfinished : state.input_done = false)
    (fits : CustomHandler.inputFromArguments serde a = state.emitted_input ++ e)
    (size : a.length ≤ maxPendingFunctionBytes) :
    ∃ state' frames, CustomTranslator.run serde (some state) (endEvents item i a argumentsDone done) = .ok (state', frames) ∧
      (inputDeltas frames).flatten = e ∧ inputsDone frames = [CustomHandler.inputFromArguments serde a] ∧
      itemInputs frames = [CustomHandler.inputFromArguments serde a] := by
  obtain ⟨frames, finish, deltas, announced, items⟩ := finishCustomInput_ok unfinished fits size
  cases argumentsDone with
  | none =>
    obtain ⟨last, ran, d, n, m⟩ := @run_done _ serde state item i _ _ done finish
    refine ⟨_, _, ran, ?_, ?_, ?_⟩
    · rw [inputDeltas_append, d, List.append_nil, deltas]
    · rw [inputsDone_append, n, List.append_nil, announced]
    · rw [itemInputs_append, m, items]
      rfl
  | some frame =>
    generalize state_eq : ({ state with
      emitted_input := CustomHandler.inputFromArguments serde a
      input_done := true } : CustomCallState) = finished at finish
    -- the item's own done event finds the input already finished
    have again : finishCustomInput serde finished a = .ok (finished, []) := by rw [finishCustomInput, ← state_eq]; rfl
    obtain ⟨last, ran, d, n, m⟩ := @run_done _ serde finished item i _ _ done again
    have now : CustomTranslator.translate serde (some state) (.argumentsDone frame) (some (callComplete item i a)) =
        .ok (some finished, frames) := by
      rw [CustomTranslator.translate, CustomCallState.started, callComplete_arguments, finish]
      rfl
    refine ⟨some finished, frames ++ [last], ?_, ?_, ?_, ?_⟩
    · unfold CustomTranslator.run at ran ⊢
      simp only [endEvents, Option.toList_some, List.map_cons, List.map_nil, List.cons_append, List.nil_append]
      rw [transduce_cons_ok now, ran]
      rfl
    · rw [inputDeltas_append, d, List.append_nil, deltas]
    · rw [inputsDone_append, n, List.append_nil, announced]
    · rw [itemInputs_append, m, items, ← state_eq]
      rfl

/-- The events that end a call fail where they contradict what was shown. -/
theorem run_endEvents_error {argumentsDone : Option EventFrame} {done : EventFrame} (unfinished : state.input_done = false)
    (apart : ¬ state.emitted_input <+: CustomHandler.inputFromArguments serde a)
    (size : a.length ≤ maxPendingFunctionBytes) :
    ∃ message, CustomTranslator.run serde (some state) (endEvents item i a argumentsDone done) = .error (.streamError message) := by
  obtain ⟨message, contradicts⟩ := finishCustomInput_error unfinished apart size
  refine ⟨message, ?_⟩
  cases argumentsDone with
  | none =>
    refine transduce_cons_error ?_
    show CustomTranslator.translate _ _ _ _ = _
    rw [CustomTranslator.translate, CustomCallState.started, callComplete_arguments, contradicts]
    rfl
  | some frame =>
    refine transduce_cons_error ?_
    show CustomTranslator.translate _ _ _ _ = _
    rw [CustomTranslator.translate, CustomCallState.started, callComplete_arguments, contradicts]
    rfl

end

/-- The call streams `input`: its deltas, the input announced as done and the input of the finished item. -/
def StreamsAs (serde : SerdeJson) (events : List (ToolEvent × Option AccumulatedFunctionCall)) (input : Text) : Prop :=
  ∃ state frames, CustomTranslator.run serde none events = .ok (state, frames) ∧
    (inputDeltas frames).flatten = input ∧ inputsDone frames = [input] ∧ itemInputs frames = [input]

/-- The complete part of the string under `input`, in the arguments the deltas have shown, decodes
to a start of `input`. -/
def StartOf (seen input : Text) : Prop := ∃ d, streamedInput seen = some d ∧ d <+: input

section
variable {serde : SerdeJson} (item : FunctionToolCall) (started : AccumulatedFunctionCall)
  (added argumentsDone : Option EventFrame) (done : EventFrame) {parts : List (EventFrame × Text)}

/-- The events of a call are its opening, its deltas and its end. -/
theorem callEvents_eq : callEvents item started added parts a argumentsDone done =
    (.added item.id item.name started.output_index added, some started) ::
      (deltaEvents item started.output_index [] parts ++ endEvents item started.output_index a argumentsDone done) := by
  rw [callEvents, endEvents, List.append_assoc]

/-- The opening of a call is shown. -/
theorem translate_added : ∃ state frame,
    CustomTranslator.translate serde none (.added item.id item.name started.output_index added) (some started) =
      .ok (some state, [frame]) ∧ state.emitted_input = [] ∧ Streams [] state ∧ StreamsText [] [frame] := by
  obtain ⟨frame, made, text⟩ := customAddedFrame_streams started
  refine ⟨⟨publicItemId "ctc_" started.item.id, started.output_index, [], none, 0, false⟩, frame, ?_, rfl,
    ⟨rfl, streamedInput_nil, rfl, rfl⟩, text⟩
  rw [CustomTranslator.translate]
  simp only [made]
  rfl

/-- A call whose deltas begin its input is shown as that input. -/
theorem callEvents_ok (size : a.length ≤ maxPendingFunctionBytes) (split : shown parts <+: a)
    (start : StartOf (shown parts) (CustomHandler.inputFromArguments serde a)) :
    StreamsAs serde (callEvents item started added parts a argumentsDone done) (CustomHandler.inputFromArguments serde a) := by
  obtain ⟨d, reads, rest, fits⟩ := start
  obtain ⟨state₀, frame₀, opened, fresh, stream₀, text₀⟩ := @translate_added serde item started added
  obtain ⟨e, state₁, frames₁, rfl, ran, stream₁, text₁⟩ := @run_deltaEvents_ok _ serde _ item started.output_index _ parts
    stream₀ reads (Nat.le_trans split.length_le size)
  have emitted : state₁.emitted_input = e := by
    have both := stream₁.emitted
    rw [List.nil_append, reads, fresh, Option.some.injEq] at both
    exact both.symm
  rw [fresh, List.nil_append, ← emitted] at fits
  obtain ⟨state₂, frames₂, ends, deltas, announced, items⟩ := @run_endEvents_ok _ serde _ item started.output_index rest
    argumentsDone done stream₁.unfinished fits.symm size
  refine ⟨state₂, [frame₀] ++ (frames₁ ++ frames₂), ?_, ?_, ?_, ?_⟩
  · unfold CustomTranslator.run at ran ends ⊢
    rw [callEvents_eq, transduce_cons_ok opened, transduce_append_ok ran, ends]
    rfl
  · rw [inputDeltas_append, inputDeltas_append, List.flatten_append, List.flatten_append, text₀.deltas, text₁.deltas,
      deltas, ← fits, emitted]
    rfl
  · rw [inputsDone_append, inputsDone_append, text₀.done, text₁.done, announced]
    rfl
  · rw [itemInputs_append, itemInputs_append, text₀.items, text₁.items, items]
    rfl

/-- A call whose deltas contradict its input fails. -/
theorem callEvents_error (size : a.length ≤ maxPendingFunctionBytes) (split : shown parts <+: a)
    (apart : ¬ StartOf (shown parts) (CustomHandler.inputFromArguments serde a)) :
    ∃ message, CustomTranslator.run serde none (callEvents item started added parts a argumentsDone done) = .error (.streamError message) := by
  obtain ⟨state₀, frame₀, opened, fresh, stream₀, -⟩ := @translate_added serde item started added
  have shorter : ([] ++ shown parts).length ≤ maxPendingFunctionBytes := Nat.le_trans split.length_le size
  rw [callEvents_eq]
  unfold CustomTranslator.run
  rw [transduce_cons_ok opened]
  cases reads : streamedInput (shown parts) with
  | none =>
    obtain ⟨message, ran⟩ := @run_deltaEvents_error _ serde _ item started.output_index parts stream₀ reads shorter
    unfold CustomTranslator.run at ran
    exact ⟨message, by rw [transduce_append_error ran]; rfl⟩
  | some d =>
    obtain ⟨e, state₁, frames₁, rfl, ran, stream₁, -⟩ :=
      @run_deltaEvents_ok _ serde _ item started.output_index _ parts stream₀ reads shorter
    have emitted : state₁.emitted_input = state₀.emitted_input ++ e := by
      have both := stream₁.emitted
      rw [List.nil_append, reads, Option.some.injEq] at both
      exact both.symm
    have contradicts : ¬ state₁.emitted_input <+: CustomHandler.inputFromArguments serde a := by
      rw [emitted]
      exact fun fits => apart ⟨_, reads, fits⟩
    obtain ⟨message, ends⟩ :=
      @run_endEvents_error _ serde _ item started.output_index argumentsDone done stream₁.unfinished contradicts size
    unfold CustomTranslator.run at ran ends
    exact ⟨message, by rw [transduce_append_ok ran, ends]; rfl⟩

end

/-- **A custom call streams what the blocking path makes of its arguments, or fails** with a stream error: it fails exactly
when the complete part of the string under `input`, in the arguments the deltas have shown, does not
decode, or is no start of the blocking path's input. -/
theorem customStream_agrees (serde : SerdeJson) (item : FunctionToolCall) (started : AccumulatedFunctionCall)
    (added argumentsDone : Option EventFrame) (done : EventFrame) (parts : List (EventFrame × Text)) (a : Text)
    (split : shown parts <+: a) (size : a.length ≤ maxPendingFunctionBytes) :
    (StreamsAs serde (callEvents item started added parts a argumentsDone done) (CustomHandler.inputFromArguments serde a) ↔
        StartOf (shown parts) (CustomHandler.inputFromArguments serde a)) ∧
      ((∃ message, CustomTranslator.run serde none (callEvents item started added parts a argumentsDone done) = .error (.streamError message)) ↔
        ¬ StartOf (shown parts) (CustomHandler.inputFromArguments serde a)) := by
  by_cases start : StartOf (shown parts) (CustomHandler.inputFromArguments serde a)
  · have streams := callEvents_ok item started added argumentsDone done size split start
    refine ⟨iff_of_true streams start, iff_of_false ?_ (not_not_intro start)⟩
    rintro ⟨message, failed⟩
    obtain ⟨_, _, ran, -⟩ := streams
    rw [failed] at ran
    simp at ran
  · have fails := callEvents_error item started added argumentsDone done size split start
    refine ⟨iff_of_false ?_ start, iff_of_true fails start⟩
    rintro ⟨_, _, ran, -⟩
    obtain ⟨message, failed⟩ := fails
    rw [failed] at ran
    simp at ran

/-- A reader for texts without floats, for runs on fixed inputs. -/
def plainSerde : SerdeJson := ⟨fun _ => none, fun _ => []⟩

/-- A frame with nothing in it. -/
def blankFrame : EventFrame := ⟨.other, .none, ⟨none, none, none, []⟩⟩

/-- A call of a custom tool. -/
def echoCall : FunctionToolCall := ⟨"fc_1", "call_1", "raw_echo", none, [], .completed⟩

/-- Cuts inside the key and inside the value leave no trace. -/
theorem customStream_agrees_cut : StreamsAs plainSerde
    (callEvents echoCall (callSoFar echoCall 0 []) none
      [(blankFrame, "\x7b\"inp"), (blankFrame, "ut\":\"h\\u00e"), (blankFrame, "9i\"\x7d")]
      "\x7b\"input\":\"h\\u00e9i\"\x7d" (some blankFrame) blankFrame)
    (CustomHandler.inputFromArguments plainSerde "\x7b\"input\":\"h\\u00e9i\"\x7d") :=
  (customStream_agrees plainSerde echoCall _ none (some blankFrame) blankFrame _ _ (by decide) (by decide)).1.2
    ⟨"h\u00e9i", by decide, by decide⟩

/-- The arguments end inside the string: its part has been streamed as the input when the blocking
path falls back to the arguments themselves, and the call fails. -/
theorem truncatedArguments_contradict : ¬ StreamsAs plainSerde
    (callEvents echoCall (callSoFar echoCall 0 []) none [(blankFrame, "\x7b\"input\":\"hel")]
      "\x7b\"input\":\"hel" none blankFrame)
    (CustomHandler.inputFromArguments plainSerde "\x7b\"input\":\"hel") := by
  rintro ⟨state, frames, ran, -⟩
  have failed : CustomTranslator.run plainSerde none
      (callEvents echoCall (callSoFar echoCall 0 []) none [(blankFrame, "\x7b\"input\":\"hel")]
        "\x7b\"input\":\"hel" none blankFrame) =
      .error (.streamError "authoritative custom tool input contradicts streamed custom tool input") := rfl
  rw [failed] at ran
  simp at ran

end AgenticStack
