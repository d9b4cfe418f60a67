import AgenticStack.Executor.Rounds

/-!
# What goes upstream

Most parts of a round send nothing, however they end. The others send at most
one request, so a run sends one inference request a round.
-/

namespace AgenticStack.Engine
set_option autoImplicit false
open Library

section
variable {α β : Type}

/-- Nothing goes upstream, however the program ends. -/
def Quiet (x : EngineM α) : Prop :=
  ∀ known, Triple (fun s => s.sent = known) x (fun _ s => s.sent = known) (fun _ s => s.sent = known)

/-- A step that does nothing asks nothing. -/
theorem Quiet.pure (a : α) : Quiet (Pure.pure a) := fun _ => Triple.pure fun _ kept => kept

/-- Quiet steps are quiet together. -/
theorem Quiet.bind {x : EngineM α} {f : α → EngineM β} (first : Quiet x) (rest : ∀ a, Quiet (f a)) : Quiet (x >>= f) :=
  fun known => (first known).bind fun a => rest a known

theorem Quiet.get : Quiet (MonadState.get : EngineM State) := fun _ _ kept => kept

theorem Quiet.ofExcept (r : ExecutorResult α) : Quiet (MonadExcept.ofExcept r) :=
  fun _ => Triple.ofExcept (fun _ _ _ kept => kept) fun _ _ _ kept => kept

theorem Quiet.onRequest (f : RequestContext → RequestContext) : Quiet (onRequest f) :=
  fun _ => Triple.modify fun _ kept => kept

theorem Quiet.onBudget (x : EStateM ExecutorError Nat α) : Quiet (onBudget x) := by
  intro known s kept
  unfold Engine.onBudget onPart
  cases x s.budget <;> exact kept

theorem Quiet.onDelivery (x : EStateM ExecutorError StreamDelivery α) : Quiet (onDelivery x) := by
  intro known s kept
  unfold Engine.onDelivery onPart
  cases x s.delivery <;> exact kept

theorem Quiet.onStream (x : OutletM Unit) : Quiet (onStream x) := by
  intro known s kept
  unfold Engine.onStream
  cases opened : s.delivery.outlet with
  | none => exact kept
  | some o =>
    dsimp only
    cases x o <;> exact kept

theorem Quiet.forM {items : List α} {body : α → EngineM PUnit} (h : ∀ a, Quiet (body a)) : Quiet (forM items body) :=
  fun known => Triple.forM fun a _ => h a known

theorem Quiet.ite {c : Prop} [Decidable c] {x y : EngineM α} (yes : Quiet x) (no : Quiet y) :
    Quiet (if c then x else y) := by
  split
  · exact yes
  · exact no

/-- A quiet step that fails asks nothing. -/
theorem Quiet.error {x : EngineM α} {s s' : State} {e : ExecutorError} (quiet : Quiet x) (h : x s = .error e s') :
    s'.sent = s.sent := by
  have kept := quiet s.sent s rfl
  rwa [h] at kept

/-- A quiet step asks nothing however it ends. -/
theorem Quiet.leaves {x : EngineM α} {s s' : State} (quiet : Quiet x) (h : Leaves x s s') : s'.sent = s.sent := by
  rcases h with ⟨a, ok⟩ | ⟨e, failed⟩
  · have kept := quiet s.sent s rfl
    rwa [ok] at kept
  · exact quiet.error failed

end

section
variable {services : Services} {round output_offset : Nat} {output_items : List OutputItem}
  {deferred_events : List EventFrame}

/-- The events of the items ask nothing. -/
theorem quiet_emitItemEvents {ctx : RequestContext} {calls : List GatewayCallPlan} {plans : List GatewayEventPlan}
    {initial index : Nat} :
    Quiet (emitItemEvents services ctx output_offset calls plans initial deferred_events index) := by
  unfold emitItemEvents
  cases GatewayScheduler.callIndexForItem calls index with
  | none => exact Quiet.onStream _
  | some call_index =>
    dsimp only
    split
    · exact (Quiet.onStream _).bind fun _ => (Quiet.onStream _).bind fun _ => Quiet.onStream _
    · exact (Quiet.onStream _).bind fun _ => Quiet.onStream _

/-- The output of a round asks nothing of the model. -/
theorem quiet_executeRoundOutput :
    Quiet (executeRoundOutput services output_items output_offset round deferred_events) := by
  apply Quiet.get.bind
  intro s
  apply Quiet.ite
  · apply (Quiet.onStream _).bind
    intro _
    apply (Quiet.onBudget _).bind
    intro results
    exact (Quiet.onStream _).bind fun _ => Quiet.pure results
  · apply (Quiet.onStream _).bind
    intro _
    apply (Quiet.onBudget _).bind
    intro results
    apply (Quiet.forM fun index => quiet_emitItemEvents).bind
    intro _
    exact (Quiet.onStream _).bind fun _ => Quiet.pure results

/-- Preparing the reasoning asks nothing. -/
theorem quiet_prepareInitialReasoning {was_compacted : Bool} :
    Quiet (prepareInitialReasoningForVllm round was_compacted) := by
  apply Quiet.ite
  · exact Quiet.get.bind fun _ => (Quiet.onRequest _).bind fun _ => Quiet.ofExcept _
  · exact Quiet.pure _

/-- The end of a round asks nothing of the model. -/
theorem quiet_settleRound {payload : ResponsePayload} {combined_output : List OutputItem}
    {combined_usage : Option ResponseUsage} :
    Quiet (settleRound services round payload output_items output_offset deferred_events combined_output
      combined_usage) := by
  have finish : ∀ (output : List OutputItem) (close : ResponsePayload → RoundEnd),
      Quiet ((do return finalizeLoop payload output combined_usage (← MonadState.get).request : EngineM ResponsePayload)
        >>= fun payload => Pure.pure (close payload)) :=
    fun _ _ => (Quiet.get.bind fun _ => Quiet.pure _).bind fun _ => Quiet.pure _
  unfold settleRound
  apply Quiet.ite
  · exact finish _ _
  · apply Quiet.get.bind
    intro s
    apply quiet_executeRoundOutput.bind
    intro results
    apply (Quiet.ofExcept _).bind
    intro public_output
    apply (Quiet.onRequest _).bind
    intro _
    apply Quiet.ite
    · exact (Quiet.onRequest _).bind fun _ => finish _ _
    · split
      · exact (Quiet.onRequest _).bind fun _ => finish _ _
      · exact finish _ _
      · exact (Quiet.onRequest _).bind fun _ => finish _ _
      · exact (Quiet.onRequest _).bind fun _ => (Quiet.onRequest _).bind fun _ => Quiet.pure _

end

section
variable {services : Services} {stream_upstream : Bool} {round output_offset : Nat} {s s' : State} {e : ExecutorError}

/-- Asking the model does not fail by itself. -/
theorem send_not_error {purpose : RequestPurpose} {body : UpstreamRequest}
    (h : send services purpose body s = .error e s') : False := by
  cases h

/-- A request that is made but not answered well. -/
theorem request_error {α : Type} {purpose : RequestPurpose} {prepared : ExecutorResult UpstreamRequest}
    {rest : UpstreamReply → EngineM α} (quiet : ∀ reply, Quiet (rest reply))
    (h : (do
      let body ← ofExcept prepared
      let reply ← send services purpose body
      rest reply) s = .error e s') :
    s'.sent = s.sent ∨ ∃ body, prepared = .ok body ∧ s'.sent = s.sent ++ [⟨purpose, body⟩] := by
  rcases bind_error.1 h with failed | ⟨body, m, given, h⟩
  · exact .inl ((Quiet.ofExcept _).error failed)
  obtain ⟨made, same⟩ := ofExcept_ok.1 given
  subst same
  rcases bind_error.1 h with failed | ⟨reply, m, sent, h⟩
  · exact (send_not_error failed).elim
  obtain ⟨-, same⟩ := send_ok sent
  subst same
  exact .inr ⟨body, made, (quiet reply).error h⟩

/-- A request that fails was asked or could not be written. -/
theorem fetchPayload_error (h : fetchPayload services stream_upstream round output_offset s = .error e s') :
    s'.sent = s.sent ∨ ∃ body, s.request.upstreamRequest services.toolsResolved services.namespaces stream_upstream
      = .ok body ∧ s'.sent = s.sent ++ [⟨.inference, body⟩] := by
  unfold fetchPayload at h
  cases stream_upstream with
  | false =>
    rcases bind_error.1 h with h | ⟨_, _, _, done⟩
    · unfold fetchBlockingPayload at h
      rcases bind_error.1 h with read | ⟨_, _, read, h⟩
      · cases read
      cases read
      apply request_error (fun reply => ?_) h
      exact (Quiet.onBudget _).bind fun _ => (Quiet.ofExcept _).bind fun _ => Quiet.pure _
    · cases done
  | true =>
    rcases bind_error.1 h with h | ⟨⟨_, _⟩, m, _, done⟩
    · unfold fetchStreamPayload at h
      rcases bind_error.1 h with read | ⟨_, _, read, h⟩
      · cases read
      cases read
      apply request_error (fun reply => ?_) h
      apply (Quiet.forM fun line => (Quiet.onBudget _).bind fun _ => Quiet.onDelivery _).bind
      intro _
      exact (Quiet.ofExcept _).bind fun _ => (Quiet.onDelivery _).bind fun _ => Quiet.pure _
    · dsimp only at done
      split at done
      · cases done
      · cases done

/-- A compaction that fails was asked or could not be written. -/
theorem compactItems_error {model : Text} {input : ResponsesInput} {instructions : Option Text}
    (h : compactItems services model input instructions s = .error e s') :
    s'.sent = s.sent ∨ ∃ body, (summaryRequest services model input instructions s.sent.length).upstreamRequest
      (fun _ => .ok ()) none false = .ok body ∧ s'.sent = s.sent ++ [⟨.summarization, body⟩] := by
  unfold compactItems at h
  dsimp only at h
  split at h
  · rcases bind_error.1 h with thrown | ⟨_, _, thrown, -⟩
    · cases thrown
      exact .inl rfl
    · cases thrown
  · rcases bind_error.1 h with read | ⟨_, _, read, h⟩
    · cases read
    cases read
    apply request_error (fun reply => ?_) h
    exact (Quiet.ofExcept _).bind fun _ => (Quiet.ofExcept _).bind fun _ => Quiet.pure _

/-- A compaction before a round that fails was asked or could not be written. -/
theorem maybeCompactContext_error (h : maybeCompactContext services s = .error e s') :
    s'.sent = s.sent ∨ ∃ body, (summaryRequest services s.request.enriched_request.model
      s.request.enriched_request.input s.request.enriched_request.instructions s.sent.length).upstreamRequest
      (fun _ => .ok ()) none false = .ok body ∧ s'.sent = s.sent ++ [⟨.summarization, body⟩] := by
  unfold maybeCompactContext at h
  rcases bind_error.1 h with read | ⟨_, _, read, h⟩
  · cases read
  cases read
  cases limit : compactThreshold s.request.enriched_request.context_management with
  | none =>
    rw [limit] at h
    cases h
  | some threshold =>
    rw [limit] at h
    dsimp only at h
    split at h
    · cases h
    · rcases bind_error.1 h with failed | ⟨⟨items, spent⟩, m, ran, h⟩
      · exact compactItems_error failed
      · cases h

end

section
variable (services : Services) (stream_upstream : Bool) (round : Nat) (combined_output : List OutputItem)
  (s : State) (e : ExecutorError) (s' : State)

/-- The part of a round that fails. -/
inductive RoundFails : Prop where
  | compaction (failed : maybeCompactContext services s = .error e s')
  | preparation {usage : Option ResponseUsage} {compacted : State}
      (compaction : maybeCompactContext services s = .ok usage compacted)
      (failed : prepareInitialReasoningForVllm round usage.isSome compacted = .error e s')
  | answer {usage : Option ResponseUsage} {compacted prepared : State}
      (compaction : maybeCompactContext services s = .ok usage compacted)
      (preparation : prepareInitialReasoningForVllm round usage.isSome compacted = .ok () prepared)
      (failed : fetchPayload services stream_upstream round combined_output.length prepared = .error e s')
  | settling {usage : Option ResponseUsage} {compacted prepared answered : State} {payload : ResponsePayload}
      {deferred_events : List EventFrame} (compaction : maybeCompactContext services s = .ok usage compacted)
      (preparation : prepareInitialReasoningForVllm round usage.isSome compacted = .ok () prepared)
      (answer : fetchPayload services stream_upstream round combined_output.length prepared
        = .ok (payload, deferred_events) answered)
      (sent : s'.sent = answered.sent)

variable {services stream_upstream round combined_output s e s'} {combined_usage : Option ResponseUsage}

/-- A round that fails did so in one of its steps. -/
theorem runRound_error (h : runRound services stream_upstream round combined_output combined_usage s = .error e s') :
    RoundFails services stream_upstream round combined_output s e s' := by
  unfold runRound at h
  rcases bind_error.1 h with failed | ⟨usage, compacted, compaction, h⟩
  · exact .compaction failed
  rcases bind_error.1 h with failed | ⟨_, prepared, preparation, h⟩
  · exact .preparation compaction failed
  rcases bind_error.1 h with failed | ⟨⟨payload, deferred_events⟩, answered, answer, h⟩
  · exact .answer compaction preparation failed
  exact .settling compaction preparation answer (quiet_settleRound.error h)

end
end AgenticStack.Engine
