import AgenticStack.Executor.EngineSteps

/-!
# What every event keeps

A run sends events at many points: as upstream frames come, before and after
calls are executed, and when frames are released. Each goes through
`process_and_emit`. What that keeps of the outlet, a whole run keeps, whether it
ends well or fails.
-/

namespace AgenticStack
set_option autoImplicit false
open Library

/-- Emitting keeps `I`, and fails in `E`; other failures are in `E` too. -/
structure Emission (I : Outlet → Prop) (E : ExecutorError → Outlet → Prop) : Prop where
  emit (source : Option EventFrame) (frame : EventFrame) (offset : Nat) :
    Triple I (processAndEmit source frame offset) (fun _ => I) E
  fail (e : ExecutorError) (o : Outlet) : I o → E e o

section
variable {I : Outlet → Prop} {E : ExecutorError → Outlet → Prop} (h : Emission I E) {ctx : Engine.RequestContext}
  {output_offset : Nat} {serde : SerdeJson} {values : SerdeValues} {registry : ToolRegistry} {frame : EventFrame}
  {barrier : Option Nat}
include h

/-- Events that are written one by one keep what each of them keeps. -/
theorem Emission.gatewayEvents {events : List (SSEEventType × List (Text × Json))} :
    Triple I (emitGatewayEvents events) (fun _ => I) E := by
  apply Triple.forM
  intro event _
  apply Triple.bind (Q := fun _ => I)
  · exact Triple.ofExcept (fun _ _ _ kept => kept) fun e _ o kept => h.fail e o kept
  · intro frame
    exact (h.emit none frame 0).bind fun _ => Triple.pure fun _ kept => kept

/-- The events that open the calls keep it. -/
theorem Emission.startEvents {plans : List GatewayEventPlan} :
    Triple I (emitGatewayStartEvents values plans) (fun _ => I) E :=
  Triple.forM fun _ _ => h.gatewayEvents

/-- The events that end the calls keep it. -/
theorem Emission.completedEvents {plans : List GatewayEventPlan} :
    Triple I (emitGatewayCompletedEvents values plans) (fun _ => I) E :=
  Triple.forM fun _ _ => h.gatewayEvents

/-- The listings keep it. -/
theorem Emission.discovery : Triple I (emitMcpDiscoveryLifecycle serde values registry) (fun _ => I) E := by
  apply Triple.bind (Q := fun _ => I)
  · exact Triple.ofExcept (fun _ _ _ kept => kept) fun e _ o kept => h.fail e o kept
  · intro public_output
    exact h.startEvents.bind fun _ => h.completedEvents

/-- Frames that are let go keep it. -/
theorem Emission.deferredEvents {frames : List EventFrame} :
    Triple I (emitDeferredStreamEvents ctx output_offset frames) (fun _ => I) E := by
  apply Triple.forM
  intro frame _
  exact (h.emit _ _ _).bind fun _ => Triple.pure fun _ kept => kept

/-- A frame that is passed on or held back keeps it. -/
theorem Emission.emitOrDefer : Triple (fun s : Delivering => I s.outlet)
    (emitOrDeferStreamFrame ctx output_offset barrier frame) (fun _ s => I s.outlet) fun e s => E e s.outlet := by
  unfold emitOrDeferStreamFrame
  split
  · apply Triple.reading
    intro s kept
    dsimp only
    split
    · exact fun s' kept' => h.fail _ _ kept'
    · intro s' _
      exact kept
  · exact (h.emit _ _ _).onPart (fun _ kept => kept) (fun _ _ _ _ kept => kept) fun _ _ _ _ failed => failed

/-- The held frames keep it. -/
theorem Emission.flush : Triple (fun s : Delivering => I s.outlet)
    (flushReleasedStreamFrames ctx output_offset barrier) (fun _ s => I s.outlet) fun e s => E e s.outlet := by
  apply Triple.reading
  intro s kept
  apply Triple.bind (Q := fun _ s => I s.outlet)
  · exact fun _ _ => kept
  · intro _
    apply Triple.forM
    intro frame _
    exact h.emitOrDefer.bind fun _ => Triple.pure fun _ kept => kept

/-- A frame that is accepted keeps it. -/
theorem Emission.acceptFrame : Triple (fun s : Delivering => I s.outlet)
    (AgenticStack.acceptFrame ctx output_offset serde values registry barrier frame) (fun _ s => I s.outlet)
    fun e s => E e s.outlet := by
  unfold AgenticStack.acceptFrame
  split
  · exact Triple.pure fun _ kept => kept
  · apply Triple.bind h.emitOrDefer
    intro emitted
    split
    · exact h.discovery.onPart (fun _ kept => kept) (fun _ _ _ _ kept => kept) fun _ _ _ _ failed => failed
    · exact Triple.pure fun _ kept => kept

/-- What a round shows keeps it. -/
theorem Emission.deliver {translation : Translation} : Triple (fun s : Delivering => I s.outlet)
    (StreamDelivery.deliver ctx output_offset serde values registry translation barrier) (fun _ s => I s.outlet)
    fun e s => E e s.outlet := by
  apply Triple.bind (Triple.forM fun _ _ => h.acceptFrame)
  intro _
  split
  · exact h.flush
  · exact Triple.pure fun _ kept => kept

/-- What holds of the outlet of a streaming client. -/
def StreamDelivery.Opens (P : Outlet → Prop) (d : StreamDelivery) : Prop := ∃ o, d.outlet = some o ∧ P o

/-- What an open stream keeps, one that has failed keeps. -/
theorem Emission.opens {d : StreamDelivery} (e : ExecutorError) (kept : d.Opens I) : d.Opens (E e) := by
  obtain ⟨o, opened, kept⟩ := kept
  exact ⟨o, opened, h.fail e o kept⟩

/-- What a round shows keeps it, where the stream is open. -/
theorem Emission.accept {translation : Translation} : Triple (StreamDelivery.Opens I)
    (StreamDelivery.accept ctx output_offset serde values registry translation) (fun _ => StreamDelivery.Opens I)
    fun e => StreamDelivery.Opens (E e) := by
  rintro d ⟨o, opened, kept⟩
  unfold StreamDelivery.accept
  rw [opened]
  dsimp only
  have delivered := @Emission.deliver I E h ctx output_offset serde values registry d.defer_from_output_index translation
    ⟨o, d.deferred_events, d.deferred_bytes⟩ kept
  split
  · rename_i s run
    rw [run] at delivered
    exact ⟨s.outlet, rfl, delivered⟩
  · rename_i e s run
    rw [run] at delivered
    exact ⟨s.outlet, rfl, delivered⟩

end

namespace Engine

/-- The run is a streaming one, and `P` holds of its outlet. -/
abbrev Opened (P : Outlet → Prop) (s : State) : Prop := s.delivery.Opens P

section
variable {I : Outlet → Prop} {E : ExecutorError → Outlet → Prop} (h : Emission I E) (services : Services)
  {α : Type} {x : EngineM α} {ctx : RequestContext} {output_offset round : Nat} {output_items : List OutputItem}
  {calls : List GatewayCallPlan} {plans : List GatewayEventPlan} {deferred_events : List EventFrame} {stream_upstream : Bool}

/-- A part of a run keeps the outlet as it is to be. -/
abbrev Keeps (I : Outlet → Prop) (E : ExecutorError → Outlet → Prop) (x : EngineM α) : Prop :=
  Triple (Opened I) x (fun _ => Opened I) fun e => Opened (E e)

include h

omit h in
/-- What the stream keeps the turn keeps. -/
theorem onStream_keeps {x : OutletM Unit} (keeps : Triple I x (fun _ => I) E) : Keeps I E (onStream x) := by
  rintro s ⟨o, opened, kept⟩
  unfold Engine.onStream
  rw [opened]
  dsimp only
  have met := keeps o kept
  split
  · rename_i o' run
    rw [run] at met
    exact ⟨o', rfl, met⟩
  · rename_i e o' run
    rw [run] at met
    exact ⟨o', rfl, met⟩

/-- A step that fails or does nothing keeps it. -/
theorem ofExcept_keeps {r : ExecutorResult α} : Keeps I E (MonadExcept.ofExcept r : EngineM α) :=
  Triple.ofExcept (fun _ _ _ kept => kept) fun e _ _ kept => h.opens e kept

/-- Spending the budget writes nothing. -/
theorem onBudget_keeps {x : EStateM ExecutorError Nat α} : Keeps I E (Engine.onBudget x) := by
  intro s kept
  unfold Engine.onBudget onPart
  split
  · exact kept
  · exact h.opens _ kept

omit h in
/-- Changing the request writes nothing. -/
theorem onRequest_keeps {f : RequestContext → RequestContext} : Keeps I E (Engine.onRequest f) :=
  Triple.modify fun _ kept => kept

omit h in
/-- Asking the model writes nothing. -/
theorem send_keeps {purpose : RequestPurpose} {body : UpstreamRequest} : Keeps I E (send services purpose body) := by
  intro s kept
  exact kept

/-- A whole response writes nothing. -/
theorem blocking_keeps : Keeps I E (fetchBlockingPayload services) := by
  apply Triple.reading
  intro s _
  apply (ofExcept_keeps h).bind
  intro body
  apply (send_keeps services).bind
  intro reply
  apply (onBudget_keeps h).bind
  intro _
  apply (ofExcept_keeps h).bind
  intro payload
  exact Triple.pure fun _ kept => kept

/-- The lines of a response keep it. -/
theorem lines_keep {registry : ToolRegistry} {lines : List (Nat × Translation)} :
    Keeps I E (forM lines fun line => do
      Engine.onBudget (consumeBudget line.1)
      onDelivery (StreamDelivery.accept ctx output_offset services.serde services.values registry line.2)) := by
  apply Triple.forM
  intro line _
  apply (onBudget_keeps h).bind
  intro _
  exact h.accept.onPart (fun _ kept => kept) (fun _ _ _ _ kept => kept) fun _ _ _ _ failed => failed

/-- A streamed response keeps it. -/
theorem stream_keeps : Keeps I E (fetchStreamPayload services output_offset) := by
  apply Triple.reading
  intro s _
  apply (ofExcept_keeps h).bind
  intro body
  apply (send_keeps services).bind
  intro reply
  apply (lines_keep h services).bind
  intro _
  apply (ofExcept_keeps h).bind
  intro payload
  apply Triple.bind (Q := fun _ => Opened I)
  · exact fun _ kept => kept
  · intro deferred_events
    exact Triple.pure fun _ kept => kept

/-- A response keeps it, streamed or not. -/
theorem fetch_keeps : Keeps I E (fetchPayload services stream_upstream round output_offset) := by
  unfold fetchPayload
  split
  · apply (stream_keeps h services).bind
    intro fetched
    split
    · apply Triple.bind (Q := fun _ => Opened I)
      · exact Triple.modify fun _ kept => kept
      · exact fun _ => Triple.pure fun _ kept => kept
    · exact Triple.pure fun _ kept => kept
  · apply (blocking_keeps h services).bind
    exact fun payload => Triple.pure fun _ kept => kept

/-- A compaction writes nothing. -/
theorem compactItems_keeps {model : Text} {input : ResponsesInput} {instructions : Option Text} :
    Keeps I E (Engine.compactItems services model input instructions) := by
  unfold Engine.compactItems
  dsimp only
  split
  · apply Triple.bind (Q := fun _ _ => False)
    · exact Triple.throw fun _ kept => h.opens _ kept
    · exact fun _ _ impossible => impossible.elim
  · apply Triple.reading
    intro s _
    apply (ofExcept_keeps h).bind
    intro body
    apply (send_keeps services).bind
    intro reply
    apply (ofExcept_keeps h).bind
    intro response
    apply (ofExcept_keeps h).bind
    intro summary
    exact Triple.pure fun _ kept => kept

/-- The compaction before a round writes its events. -/
theorem compact_keeps : Keeps I E (maybeCompactContext services) := by
  apply Triple.reading
  intro s _
  split
  · exact Triple.pure fun _ kept => kept
  · split
    · exact Triple.pure fun _ kept => kept
    · apply (compactItems_keeps h services).bind
      intro compacted
      apply onRequest_keeps.bind
      exact fun _ => Triple.pure fun _ kept => kept

/-- Preparing the reasoning writes nothing. -/
theorem prepare_keeps {compacted : Bool} : Keeps I E (prepareInitialReasoningForVllm round compacted) := by
  unfold prepareInitialReasoningForVllm
  split
  · apply Triple.reading
    intro s _
    apply onRequest_keeps.bind
    exact fun _ => ofExcept_keeps h
  · exact Triple.pure fun _ kept => kept

/-- The calls of a round keep it. -/
theorem executeAndEmit_keeps : Keeps I E (executeAndEmitOutputCalls services calls round) := by
  apply (onStream_keeps h.startEvents).bind
  intro _
  apply (onBudget_keeps h).bind
  intro results
  apply (onStream_keeps h.completedEvents).bind
  exact fun _ => Triple.pure fun _ kept => kept

/-- The items of a round keep it. -/
theorem itemEvents_keep {initial_event_run_len index : Nat} :
    Keeps I E (emitItemEvents services ctx output_offset calls plans initial_event_run_len deferred_events index) := by
  unfold emitItemEvents
  dsimp only
  split
  · exact onStream_keeps h.deferredEvents
  · split
    · apply (onStream_keeps h.startEvents).bind
      intro _
      apply (onStream_keeps h.completedEvents).bind
      exact fun _ => onStream_keeps h.deferredEvents
    · apply (onStream_keeps h.completedEvents).bind
      exact fun _ => onStream_keeps h.deferredEvents

/-- The output of a round keeps it. -/
theorem executeRoundOutput_keeps :
    Keeps I E (executeRoundOutput services output_items output_offset round deferred_events) := by
  apply Triple.reading
  intro s _
  dsimp only
  split
  · exact executeAndEmit_keeps h services
  · apply (onStream_keeps h.startEvents).bind
    intro _
    apply (onBudget_keeps h).bind
    intro results
    apply (Triple.forM fun _ _ => itemEvents_keep h services).bind
    intro _
    apply (onStream_keeps h.deferredEvents).bind
    exact fun _ => Triple.pure fun _ kept => kept

/-- The end of a round keeps it. -/
theorem settleRound_keeps {payload : ResponsePayload} {combined_output : List OutputItem}
    {combined_usage : Option ResponseUsage} : Keeps I E (settleRound services round payload output_items output_offset
      deferred_events combined_output combined_usage) := by
  have finish (combined_output : List OutputItem) : Keeps I E (do
      return .finished (finalizeLoop payload combined_output combined_usage (← get).request) : EngineM RoundEnd) := by
    apply Triple.reading
    exact fun s _ => Triple.pure fun _ kept => kept
  unfold settleRound
  dsimp only
  split
  · exact finish _
  apply Triple.reading
  intro s _
  apply (executeRoundOutput_keeps h services).bind
  intro results
  apply (ofExcept_keeps h).bind
  intro public_output
  apply onRequest_keeps.bind
  intro _
  split
  · apply onRequest_keeps.bind
    exact fun _ => finish _
  · split
    · apply onRequest_keeps.bind
      exact fun _ => finish _
    · exact finish _
    · apply onRequest_keeps.bind
      intro _
      apply Triple.reading
      exact fun s _ => Triple.pure fun _ kept => kept
    · apply onRequest_keeps.bind
      intro _
      apply onRequest_keeps.bind
      exact fun _ => Triple.pure fun _ kept => kept

/-- A round keeps it. -/
theorem runRound_keeps {combined_output : List OutputItem} {combined_usage : Option ResponseUsage} :
    Keeps I E (runRound services stream_upstream round combined_output combined_usage) := by
  apply (compact_keeps h services).bind
  intro usage
  apply (prepare_keeps h).bind
  intro _
  apply (fetch_keeps h services).bind
  intro fetched
  exact settleRound_keeps h services

/-- The rounds keep it. -/
theorem runRounds_keep {left : Nat} {combined_output : List OutputItem} {combined_usage : Option ResponseUsage} :
    Keeps I E (runRounds services stream_upstream left combined_output combined_usage) := by
  induction left generalizing combined_output combined_usage with
  | zero => exact Triple.pure fun _ kept => kept
  | succ left ih =>
    apply (runRound_keeps h services).bind
    intro roundEnd
    cases roundEnd with
    | finished payload => exact Triple.pure fun _ kept => kept
    | «continue» combined_output combined_usage => exact ih

/-- A requested compaction keeps it. -/
theorem compactionTrigger_keeps : Keeps I E (runCompactionTrigger services) := by
  apply Triple.reading
  intro s _
  apply (compactItems_keeps h services).bind
  intro compacted
  apply onRequest_keeps.bind
  exact fun _ => Triple.pure fun _ kept => kept

/-- **What every event keeps, a run keeps**, whether it ends well or fails. -/
theorem runUntilGatewayToolsComplete_keeps : Keeps I E (runUntilGatewayToolsComplete services stream_upstream) := by
  apply Triple.reading
  intro s _
  split
  · apply (compactionTrigger_keeps h services).bind
    intro payload
    refine Triple.bind (onStream_keeps ?_) fun _ => Triple.pure fun _ kept => kept
    exact h.gatewayEvents.bind fun _ => h.startEvents.bind fun _ => h.completedEvents
  · apply Triple.reading
    intro s _
    exact runRounds_keep h services

end
end Engine
end AgenticStack
