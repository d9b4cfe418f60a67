import AgenticStack.Executor.Translate.CustomRuns

/-!
# The cut of a growing string

`completeJsonStringPrefix` says how much of a string that is still arriving can
be decoded. The cut falls between two units of the body, it only moves on as
more arrives, and what is decoded between two cuts makes up the string.
-/

namespace AgenticStack
set_option autoImplicit false
open Library

variable {s t e d b z after : Text}

/-- The text `s` arrives of the body `e` of a string literal and of what follows its closing quote. -/
def Arrives (s e : Text) : Prop := ∃ after, s <+: e ++ 0x22 :: after

/-- The cut of `s` lies between two units of the body `e`: what stands before it is a literal of its own, and
so is what follows. -/
structure CutsBetween (s e d : Text) : Prop where
  units : ∃ d₁ d₂ e₂, e = s.take (completeJsonStringPrefix s) ++ e₂ ∧ d = d₁ ++ d₂ ∧
    Decodes (s.take (completeJsonStringPrefix s)) d₁ ∧ Decodes e₂ d₂
  literal : ∃ d₁, readString (s.take (completeJsonStringPrefix s) ++ [0x22]) = some (d₁, []) ∧ d₁ <+: d

/-- More of a text completes what comes after the complete part. -/
theorem completeJsonStringPrefix_append (s t : Text) : completeJsonStringPrefix (s ++ t) =
    completeJsonStringPrefix s + completeJsonStringPrefix (s.drop (completeJsonStringPrefix s) ++ t) :=
  scanBody_append

/-- A decoded text is cut between its characters. -/
theorem cutsBetween (body : Decodes e d) (arrives : Arrives s e) : CutsBetween s e d := by
  obtain ⟨after, front⟩ := arrives
  obtain ⟨d₁, d₂, e₂, parts, text, left, right, -⟩ := body.arrived front
  refine ⟨⟨d₁, d₂, e₂, parts, text, left, right⟩, d₁, ?_, ?_⟩
  · exact readString_eq_some_iff.2 ⟨_, rfl, left⟩
  · rw [text]
    exact List.prefix_append d₁ d₂

/-- When more arrives, the decoded text goes on where it was. -/
theorem decoded_goes_on (body : Decodes e d) (arrives : Arrives (s ++ t) e) :
    ∃ x y, decodeBody (s.take (completeJsonStringPrefix s)) = some x ∧
      decodeBody ((s ++ t).take (completeJsonStringPrefix (s ++ t))) = some (x ++ y) := by
  obtain ⟨after, front⟩ := arrives
  obtain ⟨w, -, -, -, -, whole, -, -⟩ := body.arrived front
  change Decodes ((s ++ t).take (completeJsonStringPrefix (s ++ t))) w at whole
  have read := whole
  rw [completePrefix_append] at read
  obtain ⟨x, y, rfl, left, -⟩ := read.split complete_take
  exact ⟨x, y, decodeBody_eq_some_iff.2 left, decodeBody_eq_some_iff.2 whole⟩

/-- All of a body that has arrived with its closing quote, or to its end, is decoded. -/
theorem decoded_whole (body : Decodes e d) (ends : after = [] ∨ after.head? = some 0x22) :
    decodeBody ((e ++ after).take (completeJsonStringPrefix (e ++ after))) = some d := by
  have cut : completeJsonStringPrefix (e ++ after) = e.length := by
    rcases ends with rfl | quote
    · rw [List.append_nil]
      exact body.complete
    · obtain ⟨rest, rfl⟩ := List.head?_eq_some_iff.1 quote
      exact body.scanBody_quote rest
  rw [cut, List.take_left]
  exact decodeBody_eq_some_iff.2 body

section
variable (serde : SerdeJson)

/-- The deltas of a call whose arguments grow piece by piece. -/
def partialCustomInputs (state : CustomCallState) (arguments : Text) (pieces : List Text) :
    ExecutorResult ((CustomCallState × Text) × List Text) :=
  transduce (fun now piece => (partialCustomInput serde now.1 (now.2 ++ piece)).map fun step =>
    ((step.1, now.2 ++ piece), step.2.toList)) (state, arguments) pieces

variable {serde} {state : CustomCallState} {arguments : Text} {start : Nat}

/-- The state of a call whose string starts at `start`, everything complete before the cursor emitted. -/
structure CaughtUp (state : CustomCallState) (arguments : Text) (start : Nat) : Prop where
  located : state.input_start = some start
  after : start ≤ state.input_cursor
  within : state.input_cursor ≤ arguments.length
  emitted : completeJsonStringPrefix (arguments.drop state.input_cursor) = 0

/-- One delta decodes what lies between the cursor and the next cut. -/
theorem partialCustomInput_cut {piece U : Text} (caught : CaughtUp state arguments start)
    (pending : arguments.drop state.input_cursor ++ piece = U) (body : Decodes b z) (arrives : Arrives U b) :
    ∃ x z' b', z = x ++ z' ∧ b = U.take (completeJsonStringPrefix U) ++ b' ∧ Decodes b' z' ∧
      Decodes (U.take (completeJsonStringPrefix U)) x ∧
      partialCustomInput serde state (arguments ++ piece) =
        .ok ({ state with input_cursor := state.input_cursor + completeJsonStringPrefix U },
          if x = [] then none else some x) := by
  obtain ⟨after, front⟩ := arrives
  obtain ⟨x, z', b', parts, text, left, right, -⟩ := body.arrived front
  refine ⟨x, z', b', text, parts, right, left, ?_⟩
  have within := caught.within
  have cursor : ¬ (state.input_cursor < start ∨ (arguments ++ piece).length < state.input_cursor) := by
    have behind := caught.after
    rw [List.length_append]
    omega
  have encoded : (arguments ++ piece).drop state.input_cursor = U := by
    rw [List.drop_append_of_le_length within, pending]
  have located : locateInput state (arguments ++ piece) = some (state, start) := by
    rw [locateInput, caught.located]
  unfold partialCustomInput
  simp only [located, if_neg cursor, encoded]
  by_cases stop : completeJsonStringPrefix U = 0
  · change Decodes (U.take (completeJsonStringPrefix U)) x at left
    rw [stop, List.take_zero] at left
    have nothing : x = [] := left.unique .nil
    rw [if_pos stop, stop, nothing]
    rfl
  · have read : decodeBody (U.take (completeJsonStringPrefix U)) = some x := decodeBody_eq_some_iff.2 left
    rw [if_neg stop, read]

/-- The first piece is read, then the others. -/
theorem partialCustomInputs_cons {state' : CustomCallState} {piece : Text} {pieces : List Text} {delta : Option Text}
    (step : partialCustomInput serde state (arguments ++ piece) = .ok (state', delta)) :
    partialCustomInputs serde state arguments (piece :: pieces) =
      (partialCustomInputs serde state' (arguments ++ piece) pieces).map fun run => (run.1, delta.toList ++ run.2) := by
  unfold partialCustomInputs
  rw [transduce, step]
  rfl

/-- **The deltas of all pieces make up the decoded part of the string.** -/
theorem partialCustomInputs_cut {V : Text} {pieces : List Text} (caught : CaughtUp state arguments start)
    (pending : arguments.drop state.input_cursor = V) (body : Decodes b z) (arrives : Arrives (V ++ pieces.flatten) b) :
    ∃ state' deltas, partialCustomInputs serde state arguments pieces =
        .ok ((state', arguments ++ pieces.flatten), deltas) ∧
      decodeBody ((V ++ pieces.flatten).take (completeJsonStringPrefix (V ++ pieces.flatten))) = some deltas.flatten := by
  induction pieces generalizing state arguments V b z with
  | nil =>
    refine ⟨state, [], ?_, ?_⟩
    · rw [List.flatten_nil, List.append_nil]
      rfl
    · have stop := caught.emitted
      rw [pending] at stop
      rw [List.flatten_nil, List.append_nil, stop, List.take_zero]
      exact decodeBody_nil
  | cons piece pieces ih =>
    obtain ⟨after, front⟩ := arrives
    rw [List.flatten_cons, ← List.append_assoc] at front
    have now : Arrives (V ++ piece) b := ⟨after, (List.prefix_append _ _).trans front⟩
    obtain ⟨x, z', b', rfl, parts, right, left, step⟩ := @partialCustomInput_cut b z serde state arguments start piece
      (V ++ piece) caught (by rw [pending]) body now
    generalize text : V ++ piece = U at *
    generalize cut : completeJsonStringPrefix U = n at *
    have le : n ≤ U.length := cut ▸ scanBody_le
    have len : U.length = arguments.length - state.input_cursor + piece.length := by
      rw [← text, ← pending, List.length_append, List.length_drop]
    have within := caught.within
    have pending' : (arguments ++ piece).drop (state.input_cursor + n) = U.drop n := by
      rw [← List.drop_drop, List.drop_append_of_le_length within, pending, text]
    have caught' : CaughtUp { state with input_cursor := state.input_cursor + n } (arguments ++ piece) start := by
      refine ⟨caught.located, Nat.le_trans caught.after (Nat.le_add_right _ n), ?_, ?_⟩
      · show state.input_cursor + n ≤ (arguments ++ piece).length
        rw [List.length_append]
        omega
      · show completeJsonStringPrefix ((arguments ++ piece).drop (state.input_cursor + n)) = 0
        rw [pending', ← cut]
        exact scanBody_drop
    have arrives' : Arrives (U.drop n ++ pieces.flatten) b' := by
      refine ⟨after, ?_⟩
      rw [parts, List.append_assoc] at front
      conv at front => lhs; rw [← List.take_append_drop n U]
      rw [List.append_assoc] at front
      exact (List.prefix_append_right_inj _).1 front
    obtain ⟨state', deltas, run, rest⟩ := ih caught' pending' right arrives'
    refine ⟨state', (if x = [] then none else some x).toList ++ deltas, ?_, ?_⟩
    · rw [partialCustomInputs_cons step, run, List.flatten_cons, List.append_assoc]
      rfl
    · have first : (if x = [] then none else some x).toList.flatten = x := by
        by_cases empty : x = []
        · rw [if_pos empty, empty]
          rfl
        · rw [if_neg empty]
          exact List.flatten_singleton
      have front' : Decodes (U.take n) x := left
      rw [List.flatten_cons, ← List.append_assoc, text, completePrefix_append, cut, front'.decodeBody_append, rest,
        List.flatten_append, first]
      rfl

/-- For every text the cut is a character boundary in it, and it only moves on as the text grows. Where the text
arrives of a valid string literal, what stands before the cut is a valid literal of units of that string; its
decoded text goes on as more arrives; and the deltas of any pieces the string arrives in make up its decoded
part, in the end all of it. -/
theorem completeJsonStringPrefix_exact (serde : SerdeJson) (s : Text) :
    completeJsonStringPrefix s ≤ s.length ∧ isCharBoundary s (completeJsonStringPrefix s) = true ∧
      (∀ t, completeJsonStringPrefix s ≤ completeJsonStringPrefix (s ++ t)) ∧
      ∀ e d, Decodes e d → Arrives s e →
        CutsBetween s e d ∧
        (∀ t, Arrives (s ++ t) e → ∃ x y, decodeBody (s.take (completeJsonStringPrefix s)) = some x ∧
          decodeBody ((s ++ t).take (completeJsonStringPrefix (s ++ t))) = some (x ++ y)) ∧
        (∀ (state : CustomCallState) (arguments : Text) (start : Nat) (pieces : List Text),
          CaughtUp state arguments start → arguments.length = state.input_cursor → pieces.flatten = s →
            ∃ state' deltas, partialCustomInputs serde state arguments pieces = .ok ((state', arguments ++ s), deltas) ∧
              decodeBody (s.take (completeJsonStringPrefix s)) = some deltas.flatten ∧
              (e <+: s → deltas.flatten = d)) := by
  refine ⟨scanBody_le, isCharBoundary_scanBody, ?_, ?_⟩
  · intro t
    rw [completeJsonStringPrefix_append]
    omega
  · intro e d body arrives
    refine ⟨cutsBetween body arrives, fun t longer => decoded_goes_on body longer, ?_⟩
    rintro state arguments start pieces caught fresh rfl
    have nothing : arguments.drop state.input_cursor = [] := List.drop_of_length_le (by omega)
    obtain ⟨state', deltas, run, read⟩ := @partialCustomInputs_cut e d serde state arguments start [] pieces caught
      nothing body (by rwa [List.nil_append])
    rw [List.nil_append] at read
    refine ⟨state', deltas, run, read, ?_⟩
    rintro ⟨after, whole⟩
    have ends : after = [] ∨ after.head? = some 0x22 := by
      obtain ⟨rest, front⟩ := arrives
      rw [← whole, List.prefix_append_right_inj] at front
      cases after with
      | nil => exact .inl rfl
      | cons c after =>
        obtain ⟨rfl, -⟩ := List.cons_prefix_cons.1 front
        exact .inr rfl
    rw [← whole, decoded_whole body ends, Option.some.injEq] at read
    exact read.symm

/-- An escape and a surrogate pair, each cut by a piece. -/
theorem completeJsonStringPrefix_exact_pair :
    CutsBetween "a\\n\\ud83d\\ude0" "a\\n\\ud83d\\ude00" "a\n😀" ∧
      ∃ state' deltas, partialCustomInputs plainSerde ⟨[], 0, [], some 10, 10, false⟩ "\x7b\"input\":\""
          ["a\\", "n\\ud83d", "\\ude00"] = .ok ((state', "\x7b\"input\":\"" ++ utf8 "a\\n\\ud83d\\ude00"), deltas) ∧
        deltas.flatten = "a\n😀" := by
  have body : Decodes "a\\n\\ud83d\\ude00" "a\n😀" := decodeBody_eq_some_iff.1 (by decide)
  constructor
  · obtain ⟨-, -, -, cut⟩ := completeJsonStringPrefix_exact plainSerde "a\\n\\ud83d\\ude0"
    exact (cut _ _ body ⟨[], List.isPrefixOf_iff_prefix.1 (by decide)⟩).1
  · obtain ⟨-, -, -, cut⟩ := completeJsonStringPrefix_exact plainSerde "a\\n\\ud83d\\ude00"
    obtain ⟨state', deltas, run, -, whole⟩ := (cut _ _ body ⟨[], List.prefix_append _ _⟩).2.2
      ⟨[], 0, [], some 10, 10, false⟩ "\x7b\"input\":\"" 10 ["a\\", "n\\ud83d", "\\ude00"] ⟨rfl, by decide, by decide, by decide⟩
      (by decide) (by decide)
    exact ⟨state', deltas, run, whole (List.prefix_refl _)⟩

end

end AgenticStack
