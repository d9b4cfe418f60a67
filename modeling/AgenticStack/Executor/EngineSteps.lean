import AgenticStack.Executor.Engine
import AgenticStack.Executor.Pipeline.DeliveryRuns

/-!
# What one step of the engine does

One lemma for each part of a round that ended well: what it asked for, what it
was given, and which part of the engine's state it changed.
-/

namespace AgenticStack.Engine
set_option autoImplicit false
open Library

section
variable {α : Type} {s s' : State} {a : α} {u : Unit}

/-- A step on the request leaves the rest of the turn as it is. -/
theorem onRequest_ok {f : RequestContext → RequestContext} (h : onRequest f s = .ok u s') :
    s' = { s with request := f s.request } := by
  cases h
  rfl

/-- A step on the budget leaves the rest of the turn as it is. -/
theorem onBudget_ok {x : EStateM ExecutorError Nat α} (h : onBudget x s = .ok a s') :
    ∃ budget, x s.budget = .ok a budget ∧ s' = { s with budget } := by
  obtain ⟨budget, run, closed⟩ := onPart_ok.1 h
  exact ⟨budget, run, closed.symm⟩

/-- A step on what is shown leaves the rest of the turn as it is. -/
theorem onDelivery_ok {x : EStateM ExecutorError StreamDelivery α} (h : onDelivery x s = .ok a s') :
    ∃ delivery, x s.delivery = .ok a delivery ∧ s' = { s with delivery } := by
  obtain ⟨delivery, run, closed⟩ := onPart_ok.1 h
  exact ⟨delivery, run, closed.symm⟩

/-- A step on the stream runs where there is one. -/
theorem onStream_ok {x : OutletM Unit} (h : onStream x s = .ok u s') :
    (s.delivery.outlet = none ∧ s' = s) ∨
    ∃ o o', s.delivery.outlet = some o ∧ x o = .ok () o' ∧
      s' = { s with delivery := { s.delivery with outlet := some o' } } := by
  unfold onStream at h
  dsimp only at h
  split at h
  · rename_i closed
    cases h
    exact .inl ⟨closed, rfl⟩
  · rename_i o opened
    split at h
    · rename_i o' run
      cases h
      exact .inr ⟨o, o', opened, run, rfl⟩
    · cases h

/-- What the execution of calls leaves alone. -/
structure SameTurn (s s' : State) : Prop where
  request : s'.request = s.request
  registry : s'.registry = s.registry
  sent : s'.sent = s.sent

/-- Nothing was done. -/
theorem SameTurn.refl : SameTurn s s := ⟨rfl, rfl, rfl⟩

/-- Steps of one turn are steps of one turn. -/
theorem SameTurn.trans {m : State} (first : SameTurn s m) (rest : SameTurn m s') : SameTurn s s' :=
  ⟨rest.request.trans first.request, rest.registry.trans first.registry, rest.sent.trans first.sent⟩

/-- What is shown leaves the turn and its budget as they are. -/
theorem onStream_same {x : OutletM Unit} (h : onStream x s = .ok u s') : SameTurn s s' ∧ s'.budget = s.budget := by
  rcases onStream_ok h with ⟨-, same⟩ | ⟨o, o', -, -, closed⟩
  · rw [same]
    exact ⟨SameTurn.refl, rfl⟩
  · rw [closed]
    exact ⟨⟨rfl, rfl, rfl⟩, rfl⟩

end

section
variable {plan : GatewayCallPlan} {calls : List GatewayCallPlan} {round budget budget' : Nat} {result : GatewayCallResult}
  {results : List GatewayCallResult}

/-- The result is the answer to the call. -/
structure Answers (plan : GatewayCallPlan) (result : GatewayCallResult) : Prop where
  item_index : result.item_index = plan.item_index
  input_item : ∃ output, result.input_item = .functionCallOutput { call_id := plan.call.call_id, output := .text output }

/-- The answer to a call names the call, whatever became of it. -/
theorem settleDispatch_call_id {call : FunctionToolCall} {outcome : Except ToolError ToolOutput} {output : ToolOutput}
    {status : GatewayCallStatus} (answers : ∀ output, outcome = .ok output → output.call_id = call.call_id)
    (h : settleDispatch call outcome = .ok (output, status)) : output.call_id = call.call_id := by
  cases outcome with
  | ok given =>
    cases h
    exact answers output rfl
  | error e =>
    cases e with
    | execution message =>
      cases h
      rfl
    | config message =>
      cases h
      rfl
    | invalidUpstreamToolSearch => cases h
    | upstreamWithheldFunctionCall => cases h
    | missingOutput call_id => cases h

/-- The result of a call is its answer. -/
theorem runOne_ok (h : plan.runOne round budget = .ok result budget') : Answers plan result := by
  unfold GatewayCallPlan.runOne at h
  cases execution : plan.execution with
  | none =>
    rw [execution] at h
    obtain ⟨_, _, _, h⟩ := bind_ok.1 h
    obtain ⟨_, _, _, h⟩ := bind_ok.1 h
    obtain ⟨same, -⟩ := pure_ok.1 h
    subst same
    exact ⟨rfl, _, rfl⟩
  | some binding =>
    rw [execution] at h
    obtain ⟨⟨output, status⟩, _, settled, h⟩ := bind_ok.1 h
    obtain ⟨settled, -⟩ := ofExcept_ok.1 settled
    obtain ⟨_, _, _, h⟩ := bind_ok.1 h
    obtain ⟨_, _, _, h⟩ := bind_ok.1 h
    obtain ⟨same, -⟩ := pure_ok.1 h
    subst same
    have call_id := settleDispatch_call_id (fun output given => binding.answers_call _ _ _ _ _ output given) settled
    refine ⟨rfl, output.output, ?_⟩
    show InputItem.functionCallOutput _ = _
    rw [call_id]

/-- What holds of each call that was run holds of the calls. -/
theorem executeWithBudget_each {holds : GatewayCallPlan → GatewayCallResult → Prop}
    (one : ∀ plan budget result budget', GatewayCallPlan.runOne plan round budget = .ok result budget' → holds plan result)
    (h : executeWithBudget calls round budget = .ok results budget') : List.Forall₂ holds calls results := by
  unfold executeWithBudget at h
  induction calls generalizing budget budget' results with
  | nil =>
    rw [List.mapM_nil] at h
    obtain ⟨same, -⟩ := pure_ok.1 h
    subst same
    exact .nil
  | cons plan calls ih =>
    rw [List.mapM_cons] at h
    obtain ⟨result, _, first, h⟩ := bind_ok.1 h
    obtain ⟨results, _, rest, h⟩ := bind_ok.1 h
    obtain ⟨same, -⟩ := pure_ok.1 h
    subst same
    exact .cons (one _ _ _ _ first) (ih rest)

/-- The results of the calls are their answers. -/
theorem executeWithBudget_ok (h : executeWithBudget calls round budget = .ok results budget') :
    List.Forall₂ Answers calls results :=
  executeWithBudget_each (fun _ _ _ _ ran => runOne_ok ran) h

end

section
variable {services : Services} {s s' : State} {output_items : List OutputItem} {output_offset round : Nat}
  {deferred_events : List EventFrame} {results : List GatewayCallResult} {u : Unit}

/-- The events of the items leave the turn as it is. -/
theorem emitItemEvents_same {ctx : RequestContext} {calls : List GatewayCallPlan} {plans : List GatewayEventPlan}
    {initial index : Nat}
    (h : emitItemEvents services ctx output_offset calls plans initial deferred_events index s = .ok u s') :
    SameTurn s s' := by
  unfold emitItemEvents at h
  cases found : GatewayScheduler.callIndexForItem calls index with
  | none =>
    rw [found] at h
    exact (onStream_same h).1
  | some call_index =>
    rw [found] at h
    dsimp only at h
    split at h
    · obtain ⟨_, m₁, started, h⟩ := bind_ok.1 h
      obtain ⟨_, m₂, completed, h⟩ := bind_ok.1 h
      exact (onStream_same started).1.trans ((onStream_same completed).1.trans (onStream_same h).1)
    · obtain ⟨_, m₂, completed, h⟩ := bind_ok.1 h
      exact (onStream_same completed).1.trans (onStream_same h).1

/-- Steps of one turn, one for each item. -/
theorem forM_same {items : List Nat} {body : Nat → EngineM PUnit}
    (step : ∀ index m m', body index m = .ok ⟨⟩ m' → SameTurn m m') (h : forM items body s = .ok ⟨⟩ s') :
    SameTurn s s' := by
  induction items generalizing s with
  | nil =>
    rw [forM_nil_ok.1 h]
    exact SameTurn.refl
  | cons index items ih =>
    obtain ⟨m, first, rest⟩ := forM_cons_ok.1 h
    exact (step _ _ _ first).trans (ih rest)

/-- The calls of a round are executed; their events change nothing else. -/
theorem executeRoundOutput_ran
    (h : executeRoundOutput services output_items output_offset round deferred_events s = .ok results s') :
    SameTurn s s' ∧ ∃ budget budget',
      executeWithBudget (GatewayScheduler.plan output_items s.registry output_offset) round budget = .ok results budget' := by
  unfold executeRoundOutput at h
  obtain ⟨_, _, read, h⟩ := bind_ok.1 h
  cases read
  dsimp only at h
  split at h
  · unfold executeAndEmitOutputCalls at h
    obtain ⟨_, m₁, started, h⟩ := bind_ok.1 h
    obtain ⟨_, m₂, executed, h⟩ := bind_ok.1 h
    obtain ⟨_, m₃, completed, h⟩ := bind_ok.1 h
    obtain ⟨same, last⟩ := pure_ok.1 h
    subst same last
    obtain ⟨budget, ran, closed⟩ := onBudget_ok executed
    have spent : SameTurn m₁ m₂ := closed ▸ ⟨rfl, rfl, rfl⟩
    exact ⟨(onStream_same started).1.trans (spent.trans (onStream_same completed).1), _, budget, ran⟩
  · obtain ⟨_, m₁, started, h⟩ := bind_ok.1 h
    obtain ⟨_, m₂, executed, h⟩ := bind_ok.1 h
    obtain ⟨_, m₃, shown, h⟩ := bind_ok.1 h
    obtain ⟨_, m₄, remaining, h⟩ := bind_ok.1 h
    obtain ⟨same, last⟩ := pure_ok.1 h
    subst same last
    obtain ⟨budget, ran, closed⟩ := onBudget_ok executed
    have spent : SameTurn m₁ m₂ := closed ▸ ⟨rfl, rfl, rfl⟩
    have released := forM_same (fun _ _ _ step => emitItemEvents_same step) shown
    exact ⟨(onStream_same started).1.trans (spent.trans (released.trans (onStream_same remaining).1)), _, budget, ran⟩

/-- The output of a round answers its calls. -/
theorem executeRoundOutput_ok
    (h : executeRoundOutput services output_items output_offset round deferred_events s = .ok results s') :
    SameTurn s s' ∧ List.Forall₂ Answers (GatewayScheduler.plan output_items s.registry output_offset) results := by
  obtain ⟨same, budget, budget', ran⟩ := executeRoundOutput_ran h
  exact ⟨same, executeWithBudget_ok ran⟩

end

section
variable {services : Services} {s s' : State} {payload : ResponsePayload} {deferred_events : List EventFrame}
  {output_offset round : Nat} {stream_upstream : Bool}

/-- Asking the model notes what was asked. -/
theorem send_ok {purpose : RequestPurpose} {body : UpstreamRequest} {reply : UpstreamReply}
    (h : send services purpose body s = .ok reply s') :
    reply = services.upstream s.sent.length ∧ s' = { s with sent := s.sent ++ [⟨purpose, body⟩] } := by
  unfold send at h
  obtain ⟨_, _, read, h⟩ := bind_ok.1 h
  cases read
  obtain ⟨_, _, written, h⟩ := bind_ok.1 h
  cases written
  obtain ⟨same, last⟩ := pure_ok.1 h
  exact ⟨same.symm, last.symm⟩

/-- The answer to an inference request: the request that went out is the last one, and the response has the ids of the
gateway's response. -/
structure Asked (services : Services) (stream : Bool) (s : State) (payload : ResponsePayload) (s' : State) : Prop where
  request : s'.request = s.request
  entries : s'.registry.entries = s.registry.entries
  sent : ∃ body, s.request.upstreamRequest services.toolsResolved services.namespaces stream = .ok body ∧
    s'.sent = s.sent ++ [⟨.inference, body⟩]
  answer : ∃ upstream, (services.upstream s.sent.length).result = .ok upstream ∧ payload = s.request.injectIds upstream

/-- A whole response is what the model replied, and shows nothing. -/
theorem fetchBlockingPayload_ok (h : fetchBlockingPayload services s = .ok payload s') :
    Asked services false s payload s' ∧ s'.delivery = s.delivery := by
  unfold fetchBlockingPayload at h
  obtain ⟨_, _, read, h⟩ := bind_ok.1 h
  cases read
  obtain ⟨body, _, prepared, h⟩ := bind_ok.1 h
  obtain ⟨made, same⟩ := ofExcept_ok.1 prepared
  subst same
  obtain ⟨reply, _, sent, h⟩ := bind_ok.1 h
  obtain ⟨given, same⟩ := send_ok sent
  subst given same
  obtain ⟨_, _, spent, h⟩ := bind_ok.1 h
  obtain ⟨budget, -, same⟩ := onBudget_ok spent
  subst same
  obtain ⟨upstream, _, read, h⟩ := bind_ok.1 h
  obtain ⟨answer, same⟩ := ofExcept_ok.1 read
  subst same
  obtain ⟨same, last⟩ := pure_ok.1 h
  subst same last
  exact ⟨⟨rfl, rfl, ⟨body, made, rfl⟩, ⟨upstream, answer, rfl⟩⟩, rfl⟩

/-- The lines of a stream, one by one. -/
theorem lines_ok {ctx : RequestContext} {registry : ToolRegistry} {lines : List (Nat × Translation)}
    (h : (forM lines fun line => do
        onBudget (consumeBudget line.1)
        onDelivery (StreamDelivery.accept ctx output_offset services.serde services.values registry line.2)
        : EngineM PUnit) s = .ok ⟨⟩ s') :
    SameTurn s s' ∧ StreamDelivery.Accepted ctx output_offset services.serde services.values registry
      (lines.map Prod.snd) s.delivery s'.delivery := by
  induction lines generalizing s with
  | nil =>
    rw [forM_nil_ok.1 h]
    exact ⟨SameTurn.refl, .nil⟩
  | cons line lines ih =>
    obtain ⟨m, first, rest⟩ := forM_cons_ok.1 h
    obtain ⟨_, m₁, spent, accepted⟩ := bind_ok.1 first
    obtain ⟨budget, -, same⟩ := onBudget_ok spent
    subst same
    obtain ⟨delivery, run, same⟩ := onDelivery_ok accepted
    subst same
    obtain ⟨turn, more⟩ := ih rest
    exact ⟨⟨turn.request, turn.registry, turn.sent⟩, .cons run more⟩

/-- What a streamed answer does to delivery: its lines are accepted, and what is held leaves it. -/
structure Streamed (services : Services) (output_offset : Nat) (s : State) (deferred_events : List EventFrame)
    (s' : State) : Prop where
  accepted : ∃ d, StreamDelivery.Accepted s.request output_offset services.serde services.values s.registry
      ((services.upstream s.sent.length).lines.map Prod.snd) s.delivery d ∧
    deferred_events = d.deferred_events ∧ s'.delivery = StreamDelivery.new d.outlet

/-- A streamed response is what the model replied, and shows its lines. -/
theorem fetchStreamPayload_ok
    (h : fetchStreamPayload services output_offset s = .ok (payload, deferred_events) s') :
    Asked services true s payload s' ∧ Streamed services output_offset s deferred_events s' ∧
      s'.registry = s.registry := by
  unfold fetchStreamPayload at h
  obtain ⟨_, _, read, h⟩ := bind_ok.1 h
  cases read
  obtain ⟨body, _, prepared, h⟩ := bind_ok.1 h
  obtain ⟨made, same⟩ := ofExcept_ok.1 prepared
  subst same
  obtain ⟨reply, _, sent, h⟩ := bind_ok.1 h
  obtain ⟨given, same⟩ := send_ok sent
  subst given same
  obtain ⟨_, m, accepted, h⟩ := bind_ok.1 h
  obtain ⟨turn, accepted⟩ := lines_ok accepted
  obtain ⟨upstream, _, read, h⟩ := bind_ok.1 h
  obtain ⟨answer, same⟩ := ofExcept_ok.1 read
  subst same
  obtain ⟨taken, _, took, h⟩ := bind_ok.1 h
  obtain ⟨delivery, took, same⟩ := onDelivery_ok took
  cases took
  subst same
  obtain ⟨same, last⟩ := pure_ok.1 h
  obtain ⟨rfl, rfl⟩ := Prod.mk.inj same
  subst last
  refine ⟨⟨turn.request, by rw [← turn.registry], ⟨body, made, turn.sent⟩, ⟨upstream, answer, rfl⟩⟩,
    ⟨m.delivery, accepted, rfl, rfl⟩, turn.registry⟩

/-- The answer to a round, streamed or not. -/
theorem fetchPayload_ok
    (h : fetchPayload services stream_upstream round output_offset s = .ok (payload, deferred_events) s') :
    Asked services stream_upstream s payload s' ∧
      (stream_upstream = true → Streamed services output_offset s deferred_events s') ∧
      (stream_upstream = false → deferred_events = [] ∧ s'.delivery = s.delivery) := by
  unfold fetchPayload at h
  cases stream_upstream with
  | false =>
    obtain ⟨_, _, fetched, h⟩ := bind_ok.1 h
    obtain ⟨same, last⟩ := pure_ok.1 h
    obtain ⟨rfl, rfl⟩ := Prod.mk.inj same
    subst last
    obtain ⟨asked, delivery⟩ := fetchBlockingPayload_ok fetched
    exact ⟨asked, fun no => absurd no Bool.false_ne_true, fun _ => ⟨rfl, delivery⟩⟩
  | true =>
    obtain ⟨⟨_, _⟩, m, fetched, h⟩ := bind_ok.1 h
    obtain ⟨asked, streamed, registry⟩ := fetchStreamPayload_ok fetched
    dsimp only at h
    split at h
    · obtain ⟨_, _, cleared, h⟩ := bind_ok.1 h
      cases cleared
      obtain ⟨same, last⟩ := pure_ok.1 h
      obtain ⟨rfl, rfl⟩ := Prod.mk.inj same
      subst last
      exact ⟨⟨asked.request, asked.entries, asked.sent, asked.answer⟩, fun _ => ⟨streamed.accepted⟩, fun no => nomatch no⟩
    · obtain ⟨same, last⟩ := pure_ok.1 h
      obtain ⟨rfl, rfl⟩ := Prod.mk.inj same
      subst last
      exact ⟨asked, fun _ => streamed, fun no => nomatch no⟩

/-- After the first streamed answer no listing is left to be sent. -/
theorem fetchPayload_registry
    (h : fetchPayload services true round output_offset s = .ok (payload, deferred_events) s') :
    s'.registry = if round = 0 then s.registry.clearMcpListToolItems else s.registry := by
  unfold fetchPayload at h
  obtain ⟨fetched, m, asked, h⟩ := bind_ok.1 h
  have registry := (fetchStreamPayload_ok asked).2.2
  split at h
  · rename_i first
    obtain ⟨_, _, cleared, h⟩ := bind_ok.1 h
    cases cleared
    obtain ⟨-, last⟩ := pure_ok.1 h
    rw [← last, if_pos first]
    exact congrArg ToolRegistry.clearMcpListToolItems registry
  · rename_i later
    obtain ⟨-, last⟩ := pure_ok.1 h
    rw [← last, if_neg later, registry]

end

section
variable {services : Services} {s s' : State} {model : Text} {input : ResponsesInput} {instructions : Option Text}
  {items : List InputItem} {usage : ResponseUsage} {round : Nat} {was_compacted : Bool}

/-- The request that compacts `input`. -/
def summaryRequest (services : Services) (model : Text) (input : ResponsesInput) (instructions : Option Text)
    (request : Nat) : RequestContext :=
  summaryContext model (input.toItems.filter fun item => !item.isCompactionTrigger) instructions
    (utf8 "resp_" ++ services.uuid7 request (input.toItems.length + 1))

/-- A compaction: one request for a summary went out, and the window is built from what the user said and the
summary. -/
structure Compacts (services : Services) (model : Text) (input : ResponsesInput) (instructions : Option Text)
    (s : State) (items : List InputItem) (usage : ResponseUsage) (s' : State) : Prop where
  sent : ∃ body, (summaryRequest services model input instructions s.sent.length).upstreamRequest (fun _ => .ok ()) none
      false = .ok body ∧ s' = { s with sent := s.sent ++ [⟨.summarization, body⟩] }
  answer : ∃ response summary, (services.upstream s.sent.length).result = .ok response ∧
    usage = response.usage.getD defaultUsage ∧
    items = finishCompactedWindow (services.uuid7 s.sent.length input.toItems.length)
      (retainedUserWindow (services.uuid7 s.sent.length) input.toItems) summary

/-- A compaction asks the model once, for the summary of the items. -/
theorem compactItems_ok (h : compactItems services model input instructions s = .ok (items, usage) s') :
    Compacts services model input instructions s items usage s' := by
  unfold compactItems at h
  dsimp only at h
  split at h
  · obtain ⟨_, _, thrown, -⟩ := bind_ok.1 h
    cases thrown
  · obtain ⟨_, _, read, h⟩ := bind_ok.1 h
    cases read
    obtain ⟨body, _, prepared, h⟩ := bind_ok.1 h
    obtain ⟨made, same⟩ := ofExcept_ok.1 prepared
    subst same
    obtain ⟨reply, _, sent, h⟩ := bind_ok.1 h
    obtain ⟨given, same⟩ := send_ok sent
    subst given same
    obtain ⟨response, _, read, h⟩ := bind_ok.1 h
    obtain ⟨answer, same⟩ := ofExcept_ok.1 read
    subst same
    obtain ⟨summary, _, read, h⟩ := bind_ok.1 h
    obtain ⟨-, same⟩ := ofExcept_ok.1 read
    subst same
    obtain ⟨same, last⟩ := pure_ok.1 h
    obtain ⟨rfl, rfl⟩ := Prod.mk.inj same
    exact ⟨⟨body, made, last.symm⟩, ⟨response, summary, answer, rfl, rfl⟩⟩

/-- The context after a compaction. -/
def RequestContext.compacted (ctx : RequestContext) (items : List InputItem) : RequestContext :=
  { ctx.setInput (.items items) with
    new_input_items := items
    continuation := ctx.continuation.map ResponseContinuation.markHistoryReplaced }

/-- Before a round the history is compacted or left as it is. -/
theorem maybeCompactContext_ok {usage : Option ResponseUsage} (h : maybeCompactContext services s = .ok usage s') :
    (usage = none ∧ s' = s) ∨
    ∃ items spent m, usage = some spent ∧
      Compacts services s.request.enriched_request.model s.request.enriched_request.input
        s.request.enriched_request.instructions s items spent m ∧
      s' = { m with request := m.request.compacted items } := by
  unfold maybeCompactContext at h
  obtain ⟨_, _, read, h⟩ := bind_ok.1 h
  cases read
  cases limit : compactThreshold s.request.enriched_request.context_management with
  | none =>
    rw [limit] at h
    obtain ⟨same, last⟩ := pure_ok.1 h
    exact .inl ⟨same.symm, last.symm⟩
  | some threshold =>
    rw [limit] at h
    dsimp only at h
    split at h
    · obtain ⟨same, last⟩ := pure_ok.1 h
      exact .inl ⟨same.symm, last.symm⟩
    · obtain ⟨⟨items, spent⟩, m, ran, h⟩ := bind_ok.1 h
      obtain ⟨_, _, replaced, h⟩ := bind_ok.1 h
      have replaced := onRequest_ok replaced
      obtain ⟨same, last⟩ := pure_ok.1 h
      exact .inr ⟨items, spent, m, same.symm, compactItems_ok ran, last.symm.trans replaced⟩

/-- Reasoning is checked where the history is that of the client, and prepared where it was compacted. -/
theorem prepareInitialReasoning_ok (h : prepareInitialReasoningForVllm round was_compacted s = .ok () s') :
    (round = 0 ∧ was_compacted = false ∧ validateReasoningForVllm s.request.enriched_request.input = .ok () ∧
      s' = { s with request := s.request.setInput (prepareReasoningForVllm s.request.enriched_request.input).2 }) ∨
    (¬(round = 0 ∧ was_compacted = false) ∧ s' = s) := by
  unfold prepareInitialReasoningForVllm at h
  split at h
  · rename_i first
    obtain ⟨_, _, read, h⟩ := bind_ok.1 h
    cases read
    obtain ⟨_, _, written, h⟩ := bind_ok.1 h
    have written := onRequest_ok written
    obtain ⟨valid, last⟩ := ofExcept_ok.1 h
    refine .inl ⟨first.1, first.2, ?_, last.symm.trans written⟩
    cases checked : validateReasoningForVllm s.request.enriched_request.input with
    | error e =>
      rw [checked] at valid
      cases valid
    | ok => rfl
  · rename_i later
    obtain ⟨-, last⟩ := pure_ok.1 h
    exact .inr ⟨later, last.symm⟩

end

section
variable {services : Services} {s s' : State} {round output_offset : Nat} {payload : ResponsePayload}
  {current_output combined_output : List OutputItem} {deferred_events : List EventFrame}
  {combined_usage : Option ResponseUsage} {roundEnd : RoundEnd}

/-- How an executed round ends, given its results, the context with what is to be stored of the round, and all output
so far. -/
inductive Ends (registry : ToolRegistry) (round : Nat) (payload : ResponsePayload) (current_output : List OutputItem)
    (results : List GatewayCallResult) (ctx : RequestContext) (combined_output : List OutputItem)
    (combined_usage : Option ResponseUsage) : RoundEnd → RequestContext → Prop where
  | incomplete (status : payload.status = utf8 "incomplete") :
      Ends registry round payload current_output results ctx combined_output combined_usage
        (.finished (finalizeLoop payload combined_output combined_usage
          (appendToolOutputs ctx (results.map (·.input_item)))))
        (appendToolOutputs ctx (results.map (·.input_item)))
  | requiresClientAction (status : payload.status ≠ utf8 "incomplete")
      (owned : hasClientOwnedCalls current_output registry = true) :
      Ends registry round payload current_output results ctx combined_output combined_usage
        (.finished (finalizeLoop payload combined_output combined_usage
          (appendToolOutputs ctx (results.map (·.input_item)))))
        (appendToolOutputs ctx (results.map (·.input_item)))
  | done (status : payload.status ≠ utf8 "incomplete") (owned : hasClientOwnedCalls current_output registry = false)
      (none : results = []) :
      Ends registry round payload current_output results ctx combined_output combined_usage
        (.finished (finalizeLoop payload combined_output combined_usage ctx)) ctx
  | exhausted (status : payload.status ≠ utf8 "incomplete")
      (owned : hasClientOwnedCalls current_output registry = false) (some : results ≠ [])
      (last : maxGatewayToolRounds ≤ round + 1) :
      Ends registry round payload current_output results ctx combined_output combined_usage
        (.finished { finalizeLoop payload combined_output combined_usage
            (appendToolOutputs ctx (results.map (·.input_item))) with
          status := "incomplete"
          incomplete_details := .some
            ⟨.some (utf8 "gateway tool execution exceeded " ++ decimal maxGatewayToolRounds ++ utf8 " rounds")⟩ })
        (appendToolOutputs ctx (results.map (·.input_item)))
  | continue (status : payload.status ≠ utf8 "incomplete")
      (owned : hasClientOwnedCalls current_output registry = false) (some : results ≠ [])
      (more : round + 1 < maxGatewayToolRounds) :
      Ends registry round payload current_output results ctx combined_output combined_usage
        (.continue combined_output combined_usage)
        (appendToolOutputs { ctx with enriched_request := { ctx.enriched_request with
          tool_choice := .some .auto
          input := appendOutputItemsToInput ctx.enriched_request.input current_output } } (results.map (·.input_item)))

/-- **How a round ends.** -/
inductive Settles (services : Services) (round : Nat) (payload : ResponsePayload) (current_output : List OutputItem)
    (output_offset : Nat) (deferred_events : List EventFrame) (combined_output : List OutputItem)
    (combined_usage : Option ResponseUsage) (s : State) : RoundEnd → State → Prop where
  | failed (status : isFailedStatus payload.status = true) :
      Settles services round payload current_output output_offset deferred_events combined_output combined_usage s
        (.finished (finalizeLoop payload (combined_output ++ current_output) combined_usage s.request)) s
  | executed {results : List GatewayCallResult} {public_output : List OutputItem} {m : State} {roundEnd : RoundEnd}
      {ctx : RequestContext} (status : isFailedStatus payload.status = false)
      (ran : executeRoundOutput services current_output output_offset round deferred_events s = .ok results m)
      (shown : publicOutputItems services.serde current_output s.registry results = .ok public_output)
      (ends : Ends s.registry round payload current_output results
        (recordRoundHistory m.request current_output s.registry (combined_output ++ public_output).length)
        (combined_output ++ public_output) combined_usage roundEnd ctx) :
      Settles services round payload current_output output_offset deferred_events combined_output combined_usage s
        roundEnd { m with request := ctx }

/-- What comes after a round depends on the calls in it and on how many rounds there were. -/
theorem classifyRound_cases (owned : Bool) (results : List GatewayCallResult) (round : Nat) :
    (owned = true ∧ classifyRound owned results round maxGatewayToolRounds = .requiresClientAction) ∨
    (owned = false ∧ results = [] ∧ classifyRound owned results round maxGatewayToolRounds = .done) ∨
    (owned = false ∧ results ≠ [] ∧ maxGatewayToolRounds ≤ round + 1 ∧
      classifyRound owned results round maxGatewayToolRounds =
        .incomplete (utf8 "gateway tool execution exceeded " ++ decimal maxGatewayToolRounds ++ utf8 " rounds")) ∨
    (owned = false ∧ results ≠ [] ∧ round + 1 < maxGatewayToolRounds ∧
      classifyRound owned results round maxGatewayToolRounds = .continue) := by
  unfold classifyRound
  cases owned with
  | true => exact .inl ⟨rfl, rfl⟩
  | false =>
    cases results with
    | nil => exact .inr (.inl ⟨rfl, rfl, rfl⟩)
    | cons result results =>
      by_cases last : maxGatewayToolRounds ≤ round + 1
      · exact .inr (.inr (.inl ⟨rfl, List.cons_ne_nil _ _, last, by simp [last]⟩))
      · exact .inr (.inr (.inr ⟨rfl, List.cons_ne_nil _ _, Nat.lt_of_not_le last, by simp [last]⟩))

/-- A round that ends settled its calls, its events and its usage. -/
theorem settleRound_ok
    (h : settleRound services round payload current_output output_offset deferred_events combined_output combined_usage s
      = .ok roundEnd s') :
    Settles services round payload current_output output_offset deferred_events combined_output combined_usage s
      roundEnd s' := by
  unfold settleRound at h
  dsimp only at h
  split at h
  · rename_i failed
    cases h
    exact .failed failed
  · rename_i not_failed
    obtain ⟨_, _, read, h⟩ := bind_ok.1 h
    cases read
    obtain ⟨results, m, ran, h⟩ := bind_ok.1 h
    obtain ⟨public_output, _, read, h⟩ := bind_ok.1 h
    obtain ⟨shown, same⟩ := ofExcept_ok.1 read
    subst same
    obtain ⟨_, _, recorded, h⟩ := bind_ok.1 h
    have recorded := onRequest_ok recorded
    subst recorded
    have executed : ∀ {roundEnd : RoundEnd} {ctx : RequestContext},
        Ends s.registry round payload current_output results
          (recordRoundHistory m.request current_output s.registry (combined_output ++ public_output).length)
          (combined_output ++ public_output) combined_usage roundEnd ctx →
        Settles services round payload current_output output_offset deferred_events combined_output combined_usage s
          roundEnd { m with request := ctx } :=
      fun ends => .executed (eq_false_of_ne_true not_failed) ran shown ends
    split at h
    · rename_i incomplete
      obtain ⟨_, _, done, h⟩ := bind_ok.1 h
      cases done
      cases h
      exact executed (.incomplete incomplete)
    · rename_i complete
      rcases classifyRound_cases (hasClientOwnedCalls current_output s.registry) results round with
        ⟨owned, decision⟩ | ⟨owned, none, decision⟩ | ⟨owned, some, last, decision⟩ | ⟨owned, some, more, decision⟩
      · rw [decision] at h
        obtain ⟨_, _, done, h⟩ := bind_ok.1 h
        cases done
        cases h
        exact executed (.requiresClientAction complete owned)
      · rw [decision] at h
        cases h
        exact executed (.done complete owned none)
      · rw [decision] at h
        obtain ⟨_, _, done, h⟩ := bind_ok.1 h
        cases done
        cases h
        exact executed (.exhausted complete owned some last)
      · rw [decision] at h
        obtain ⟨_, _, fed, h⟩ := bind_ok.1 h
        cases fed
        obtain ⟨_, _, done, h⟩ := bind_ok.1 h
        cases done
        cases h
        exact executed (.continue complete owned some more)

end
end AgenticStack.Engine
