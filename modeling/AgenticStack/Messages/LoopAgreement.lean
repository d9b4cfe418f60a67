import AgenticStack.Messages.TurnBlocks

/-!
# The two loops

The loop over whole messages and the loop over streams are given the same turns.
They keep together as long as every input that is executed was spelled out and no text
that is sent back was streamed with citations, and the client is shown no gateway call
unless the last turn breaks off with one.
-/

namespace AgenticStack.Messages
set_option autoImplicit false
open Library

/-- The turn asks for gateway tools and nothing else. -/
def AssistantTurn.Continues (map : GatewayToolMap) (turn : AssistantTurn) : Prop :=
  turn.stop_reason = some (utf8 "tool_use") ∧ turn.content.any (isGatewayToolUse map) = true ∧
    turn.content.any (isClientToolUse map) = false

section
variable {map : GatewayToolMap} {whole : List RoundTrace} {streamed : List RoundTrace} {answer : ExecutorResult Json}
  {sent sent' : List ClientEvent} {round round' : RoundTrace}

end

/-- The two ways of executing a call: they differ where an input was not spelled out and the call may run. -/
structure Executes (allowed : Nat) (inputs : List (Json × Text)) (whole streamed : Nat → Json × Text → ExecutedCall) : Prop where
  same : ∀ index, ∀ call ∈ inputs, allowed ≤ index ∨ call.2 ≠ [] → streamed index call = whole index call
  made : ∀ index, ∀ call ∈ inputs, index < allowed → (whole index call).dispatched.isSome = true
  lost : ∀ index, ∀ call ∈ inputs, index < allowed → call.2 = [] → (streamed index call).dispatched = none

section
variable {allowed : Nat} {inputs : List (Json × Text)} {whole streamed : Nat → Json × Text → ExecutedCall}

/-- What is run of the rest. -/
theorem Executes.tail {call : Json × Text} (h : Executes allowed (call :: inputs) whole streamed) :
    Executes (allowed - 1) inputs (fun index => whole (index + 1)) (fun index => streamed (index + 1)) := by
  refine ⟨fun index call mem other => ?_, fun index call mem below => ?_, fun index call mem below empty => ?_⟩
  · exact h.same _ call (List.mem_cons_of_mem _ mem) (other.imp_left fun above => by omega)
  · exact h.made _ call (List.mem_cons_of_mem _ mem) (by omega)
  · exact h.lost _ call (List.mem_cons_of_mem _ mem) (by omega) empty

/-- Both loops run the same calls where the inputs are spelled alike. -/
theorem Executes.eq (h : Executes allowed inputs whole streamed) (spelled : ∀ call ∈ inputs.take allowed, call.2 ≠ []) :
    inputs.mapIdx streamed = inputs.mapIdx whole := by
  induction inputs generalizing allowed whole streamed with
  | nil => rfl
  | cons call inputs ih =>
    rw [List.mapIdx_cons, List.mapIdx_cons]
    have first : streamed 0 call = whole 0 call := by
      refine h.same 0 call List.mem_cons_self ?_
      cases allowed with
      | zero => exact .inl (Nat.le_refl 0)
      | succ allowed => exact .inr (spelled call List.mem_cons_self)
    have later : ∀ call' ∈ inputs.take (allowed - 1), call'.2 ≠ [] := by
      intro call' mem
      cases allowed with
      | zero => simp at mem
      | succ allowed => exact spelled call' (List.mem_cons_of_mem _ mem)
    rw [first, ih h.tail later]

/-- The calls of a list are those of its first member and the rest. -/
theorem dispatchedCalls_cons (executed : ExecutedCall) (rest : List ExecutedCall) :
    dispatchedCalls (executed :: rest) = executed.dispatched.toList ++ dispatchedCalls rest := by
  cases call : executed.dispatched with
  | none => exact List.filterMap_cons_none call
  | some call' => exact List.filterMap_cons_some call

/-- The stream runs no more calls than the other loop, and as many only when every input was spelled out. -/
theorem Executes.length (h : Executes allowed inputs whole streamed) :
    (dispatchedCalls (inputs.mapIdx streamed)).length ≤ (dispatchedCalls (inputs.mapIdx whole)).length ∧
      ((dispatchedCalls (inputs.mapIdx streamed)).length = (dispatchedCalls (inputs.mapIdx whole)).length →
        ∀ call ∈ inputs.take allowed, call.2 ≠ []) := by
  induction inputs generalizing allowed whole streamed with
  | nil => exact ⟨Nat.le_refl _, fun _ call mem => by simp at mem⟩
  | cons call inputs ih =>
    obtain ⟨fewer, all⟩ := ih h.tail
    rw [List.mapIdx_cons, List.mapIdx_cons, dispatchedCalls_cons, dispatchedCalls_cons, List.length_append, List.length_append]
    by_cases silent : 0 < allowed ∧ call.2 = []
    · have made := h.made 0 call List.mem_cons_self silent.1
      have one : (whole 0 call).dispatched.toList.length = 1 := by
        cases made_call : (whole 0 call).dispatched with
        | none =>
          rw [made_call] at made
          cases made
        | some _ => rfl
      rw [h.lost 0 call List.mem_cons_self silent.1 silent.2, one]
      refine ⟨?_, fun same => ?_⟩
      · simp only [Option.toList_none, List.length_nil]
        omega
      · simp only [Option.toList_none, List.length_nil] at same
        omega
    · have first : streamed 0 call = whole 0 call := by
        refine h.same 0 call List.mem_cons_self ?_
        by_cases none_allowed : 0 < allowed
        · exact .inr fun empty => silent ⟨none_allowed, empty⟩
        · exact .inl (Nat.le_of_not_lt none_allowed)
      rw [first]
      refine ⟨by omega, fun same call' mem => ?_⟩
      cases allowed with
      | zero => simp at mem
      | succ allowed =>
        rcases List.mem_cons.1 mem with rfl | later
        · exact fun empty => silent ⟨Nat.succ_pos _, empty⟩
        · exact all (by omega) call' later

end

section
variable {serde : SerdeJson} {tools : MessagesTools} {turn : AssistantTurn}

end
end AgenticStack.Messages
