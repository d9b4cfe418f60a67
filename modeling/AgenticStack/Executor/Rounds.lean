import AgenticStack.Executor.EngineSteps

/-!
# The rounds of a run

A run is a chain of rounds that each ask for another, and one round that ends
it. What holds in every round is proved along the chain.
-/

namespace AgenticStack.Engine
set_option autoImplicit false
open Library

section
variable (services : Services) (stream_upstream : Bool) (round : Nat) (combined_output : List OutputItem)
  (combined_usage : Option ResponseUsage) (s : State) (roundEnd : RoundEnd) (s' : State)

/-- The parts of a round that ended well: compaction, preparation, the answer of the model, and what followed it. -/
inductive Round : Prop where
  | intro {compaction_usage : Option ResponseUsage} {compacted prepared answered : State} {payload : ResponsePayload}
      {deferred_events : List EventFrame}
      (compaction : maybeCompactContext services s = .ok compaction_usage compacted)
      (preparation : prepareInitialReasoningForVllm round compaction_usage.isSome compacted = .ok () prepared)
      (answer : fetchPayload services stream_upstream round combined_output.length prepared
        = .ok (payload, deferred_events) answered)
      (settled : Settles services round { payload with usage := none, output := [] } payload.output
        combined_output.length deferred_events combined_output
        (accumulateUsage (accumulateUsage combined_usage compaction_usage) payload.usage) answered roundEnd s') : Round

variable {services stream_upstream round combined_output combined_usage s roundEnd s'}

/-- A round that runs is a round. -/
theorem runRound_ok (h : runRound services stream_upstream round combined_output combined_usage s = .ok roundEnd s') :
    Round services stream_upstream round combined_output combined_usage s roundEnd s' := by
  unfold runRound at h
  obtain ⟨usage, compacted, compaction, h⟩ := bind_ok.1 h
  obtain ⟨_, prepared, preparation, h⟩ := bind_ok.1 h
  obtain ⟨⟨payload, deferred_events⟩, answered, answer, h⟩ := bind_ok.1 h
  exact ⟨compaction, preparation, answer, settleRound_ok h⟩

/-- A round asks for another one only before the last. -/
theorem Round.more {output : List OutputItem} {usage : Option ResponseUsage}
    (h : Round services stream_upstream round combined_output combined_usage s (.continue output usage) s') :
    round + 1 < maxGatewayToolRounds := by
  obtain ⟨-, -, -, settled⟩ := h
  cases settled with
  | executed status ran shown ends =>
    cases ends with
    | «continue» status owned some more => exact more

end

section
variable (services : Services) (stream_upstream : Bool) (start : State)

/-- The loop is about to play a round, with the output and the usage of the rounds before it. -/
inductive Reaches : Nat → List OutputItem → Option ResponseUsage → State → Prop where
  | first : Reaches 0 (start.registry.mcp_list_tool_items.map .mcpListTools) none start
  | next {round : Nat} {combined_output output : List OutputItem} {combined_usage usage : Option ResponseUsage}
      {s s' : State} (before : Reaches round combined_output combined_usage s)
      (played : runRound services stream_upstream round combined_output combined_usage s = .ok (.continue output usage) s') :
      Reaches (round + 1) output usage s'

variable {services stream_upstream start} {round left : Nat} {combined_output : List OutputItem}
  {combined_usage : Option ResponseUsage} {s s' : State} {result : Option ResponsePayload} {e : ExecutorError}

/-- A turn has no more rounds than allowed. -/
theorem Reaches.round_lt (h : Reaches services stream_upstream start round combined_output combined_usage s) :
    round < maxGatewayToolRounds := by
  cases h with
  | first => decide
  | next before played => exact (runRound_ok played).more

/-- The rounds run until one of them ends the turn. -/
theorem runRounds_ok (rounds : maxGatewayToolRounds = round + left)
    (reached : Reaches services stream_upstream start round combined_output combined_usage s)
    (h : runRounds services stream_upstream left combined_output combined_usage s = .ok result s') :
    ∃ round output usage m payload, result = some payload ∧
      Reaches services stream_upstream start round output usage m ∧
      runRound services stream_upstream round output usage m = .ok (.finished payload) s' := by
  induction left generalizing round combined_output combined_usage s with
  | zero =>
    have before := reached.round_lt
    omega
  | succ left ih =>
    unfold runRounds at h
    rw [show maxGatewayToolRounds - (left + 1) = round by omega] at h
    obtain ⟨roundEnd, m, played, h⟩ := bind_ok.1 h
    cases roundEnd with
    | finished payload =>
      obtain ⟨same, last⟩ := pure_ok.1 h
      subst same last
      exact ⟨round, _, _, s, payload, rfl, reached, played⟩
    | «continue» output usage =>
      exact ih (by omega) (.next reached played) h

/-- A turn that fails does so in one of its rounds. -/
theorem runRounds_error (rounds : maxGatewayToolRounds = round + left)
    (reached : Reaches services stream_upstream start round combined_output combined_usage s)
    (h : runRounds services stream_upstream left combined_output combined_usage s = .error e s') :
    ∃ round output usage m, Reaches services stream_upstream start round output usage m ∧
      runRound services stream_upstream round output usage m = .error e s' := by
  induction left generalizing round combined_output combined_usage s with
  | zero =>
    have before := reached.round_lt
    omega
  | succ left ih =>
    unfold runRounds at h
    rw [show maxGatewayToolRounds - (left + 1) = round by omega] at h
    rcases bind_error.1 h with failed | ⟨roundEnd, m, played, h⟩
    · exact ⟨round, _, _, s, reached, failed⟩
    · cases roundEnd with
      | finished payload => cases h
      | «continue» output usage => exact ih (by omega) (.next reached played) h

/-- **A run that ends well** ends with the response of a round; the loop is never left without one. -/
theorem run_ok (h : run services stream_upstream start = .ok result s') :
    ∃ round output usage m payload, result = some payload ∧
      Reaches services stream_upstream start round output usage m ∧
      runRound services stream_upstream round output usage m = .ok (.finished payload) s' := by
  unfold run at h
  obtain ⟨_, _, read, h⟩ := bind_ok.1 h
  cases read
  exact runRounds_ok (Nat.zero_add _).symm .first h

/-- A run that fails fails in a round. -/
theorem run_error (h : run services stream_upstream start = .error e s') :
    ∃ round output usage m, Reaches services stream_upstream start round output usage m ∧
      runRound services stream_upstream round output usage m = .error e s' := by
  unfold run at h
  rcases bind_error.1 h with read | ⟨_, _, read, h⟩
  · cases read
  · cases read
    exact runRounds_error (Nat.zero_add _).symm .first h

end
end AgenticStack.Engine
