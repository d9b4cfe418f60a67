import AgenticStack.Executor.SentRequests
import Mathlib.Algebra.Order.BigOperators.Group.List

/-!
# The gateway loop

How many requests a run sends, when it sends another one, what it feeds back
before it does, and the usage it reports.
-/

namespace AgenticStack
set_option autoImplicit false
open Library

/-- The items an input stands for; a text is one message. -/
def ResponsesInput.entries : ResponsesInput → List InputItem
  | .items xs => xs
  | .text t => (ResponsesInput.text t).toItems

/-- An item is added at the end of an input. -/
theorem entries_appendInputItem (input : ResponsesInput) (item : InputItem) :
    (appendInputItem input item).entries = input.entries ++ [item] := by
  cases input <;> rfl

/-- Items are added at the end of an input. -/
theorem entries_appendInputItems (input : ResponsesInput) (items : List InputItem) :
    (appendInputItems input items).entries = input.entries ++ items := by
  unfold appendInputItems
  induction items generalizing input with
  | nil => simp
  | cons item items ih =>
    rw [List.foldl_cons, ih, entries_appendInputItem, List.append_assoc]
    rfl

/-- The call, if the gateway executes it. -/
def gatewayCall (registry : ToolRegistry) : OutputItem → Option FunctionToolCall
  | .functionCall call => if registry.isGatewayOwnedName call.name then some call else none
  | _ => none

/-- The calls of an answer that the gateway executes, in their order. -/
def gatewayCalls (registry : ToolRegistry) (output_items : List OutputItem) : List FunctionToolCall :=
  output_items.filterMap (gatewayCall registry)

/-- A function call of the gateway's in an input. -/
def InputItem.isGatewayCall (registry : ToolRegistry) : InputItem → Bool
  | .functionCall call => registry.isGatewayOwnedName call.name
  | _ => false

/-- The output that answers a call. -/
def Answered (call : FunctionToolCall) (item : InputItem) : Prop :=
  ∃ output, item = .functionCallOutput { call_id := call.call_id, output := .text output }

/-- A call the gateway executes: the item of the answer it is, and the handler that executes it, if there is one. -/
structure BoundCall where
  call : FunctionToolCall
  item_index : Nat
  handler : Option GatewayBinding

/-- The call of an item, with the tool that answers it. -/
def boundCall (registry : ToolRegistry) (item_index : Nat) : OutputItem → Option BoundCall
  | .functionCall call => (registry.lookup call.name).bind fun entry => match entry.ownership with
    | .client => none
    | .gateway handler => some ⟨call, item_index, handler⟩
  | _ => none

/-- The calls of an answer that the gateway executes, each with its handler. -/
def boundCalls (registry : ToolRegistry) (output_items : List OutputItem) : List BoundCall :=
  output_items.zipIdx.filterMap fun (item, item_index) => boundCall registry item_index item

/-- What the model is told of a call in a round: the text its handler returned, or the error it failed with. -/
inductive BoundCall.Reply (round : Nat) : BoundCall → Text → Prop where
  | returned {call : FunctionToolCall} {item_index : Nat} {handler : GatewayBinding} {output : ToolOutput}
      (ran : handler.execute round item_index call.call_id call.name call.arguments = .ok output) :
      Reply round ⟨call, item_index, some handler⟩ output.output
  | failed {call : FunctionToolCall} {item_index : Nat} {handler : GatewayBinding} {message : Text}
      (ran : handler.execute round item_index call.call_id call.name call.arguments = .error (.execution message) ∨
        handler.execute round item_index call.call_id call.name call.arguments = .error (.config message)) :
      Reply round ⟨call, item_index, some handler⟩ (Json.obj [("error", .str message)]).write
  | unbound {call : FunctionToolCall} {item_index : Nat} :
      Reply round ⟨call, item_index, none⟩
        (Json.obj [("error", .str (utf8 "gateway tool '" ++ call.name ++ utf8 "' has no registered handler"))]).write

/-- The item is the output of the call, with what the model is told of it. -/
def BoundCall.RepliedBy (round : Nat) (bound : BoundCall) (item : InputItem) : Prop :=
  ∃ output, bound.Reply round output ∧
    item = .functionCallOutput { call_id := bound.call.call_id, output := .text output }

section
variable {registry : ToolRegistry} {output_offset item_index : Nat} {item : OutputItem} {output_items : List OutputItem}

/-- A call that is planned is a call of the gateway. -/
theorem planItem_call :
    (GatewayScheduler.planItem registry output_offset item_index item).map (·.call) = gatewayCall registry item := by
  cases item with
  | functionCall call =>
    dsimp only [GatewayScheduler.planItem, gatewayCall, ToolRegistry.isGatewayOwnedName]
    rcases Option.eq_none_or_eq_some (registry.lookup call.name) with found | ⟨entry, found⟩
    · simp [found]
    · cases owner : entry.ownership <;> simp [found, owner, ToolOwnership.isGateway]
  | _ => rfl

/-- The plan of a round is about its gateway calls. -/
theorem plan_calls :
    (GatewayScheduler.plan output_items registry output_offset).map (·.call) = gatewayCalls registry output_items := by
  unfold GatewayScheduler.plan gatewayCalls
  rw [List.map_filterMap]
  have same : (fun p : OutputItem × Nat => (GatewayScheduler.planItem registry output_offset p.2 p.1).map (·.call)) =
      gatewayCall registry ∘ Prod.fst := funext fun _ => planItem_call
  rw [same, ← List.filterMap_map, List.zipIdx_map_fst]

/-- What a plan says of its call, without the events. -/
def GatewayCallPlan.bound (plan : GatewayCallPlan) : BoundCall := ⟨plan.call, plan.item_index, plan.execution⟩

/-- A call that is planned is bound to its tool. -/
theorem planItem_bound : (GatewayScheduler.planItem registry output_offset item_index item).map (·.bound) =
    boundCall registry item_index item := by
  cases item with
  | functionCall call =>
    dsimp only [GatewayScheduler.planItem, boundCall]
    rcases Option.eq_none_or_eq_some (registry.lookup call.name) with found | ⟨entry, found⟩
    · simp [found]
    · cases owner : entry.ownership <;> simp [found, owner, GatewayCallPlan.bound]
  | _ => rfl

/-- The calls that are planned are those that are bound. -/
theorem plan_bound :
    (GatewayScheduler.plan output_items registry output_offset).map (·.bound) = boundCalls registry output_items := by
  unfold GatewayScheduler.plan boundCalls
  rw [List.map_filterMap]
  exact congrArg (output_items.zipIdx.filterMap ·) (funext fun _ => planItem_bound)

/-- The calls with a handler are the calls the gateway executes. -/
theorem boundCalls_calls : (boundCalls registry output_items).map (·.call) = gatewayCalls registry output_items := by
  rw [← @plan_bound registry 0, List.map_map, ← @plan_calls registry 0]
  rfl

/-- A call that is executed is replied to with what its handler makes of it. -/
theorem runOne_repliedBy {plan : GatewayCallPlan} {round budget budget' : Nat} {result : GatewayCallResult}
    (h : plan.runOne round budget = .ok result budget') : plan.bound.RepliedBy round result.input_item := by
  unfold GatewayCallPlan.runOne at h
  unfold GatewayCallPlan.bound
  cases execution : plan.execution with
  | none =>
    rw [execution] at h
    obtain ⟨_, _, _, h⟩ := bind_ok.1 h
    obtain ⟨_, _, _, h⟩ := bind_ok.1 h
    obtain ⟨same, -⟩ := pure_ok.1 h
    subst same
    exact ⟨_, .unbound, rfl⟩
  | some handler =>
    rw [execution] at h
    obtain ⟨⟨output, status⟩, _, settled, h⟩ := bind_ok.1 h
    obtain ⟨settled, -⟩ := ofExcept_ok.1 settled
    obtain ⟨_, _, _, h⟩ := bind_ok.1 h
    obtain ⟨_, _, _, h⟩ := bind_ok.1 h
    obtain ⟨same, -⟩ := pure_ok.1 h
    subst same
    have answers := handler.answers_call round plan.item_index plan.call.call_id plan.call.name plan.call.arguments
    generalize ran : handler.execute round plan.item_index plan.call.call_id plan.call.name plan.call.arguments = outcome
      at settled answers
    cases outcome with
    | ok given =>
      cases settled
      refine ⟨_, .returned ran, ?_⟩
      show InputItem.functionCallOutput _ = _
      rw [answers output rfl]
    | error e =>
      cases e with
      | execution message =>
        cases settled
        exact ⟨_, .failed (.inl ran), rfl⟩
      | config message =>
        cases settled
        exact ⟨_, .failed (.inr ran), rfl⟩
      | invalidUpstreamToolSearch => cases settled
      | upstreamWithheldFunctionCall => cases settled
      | missingOutput call_id => cases settled

/-- The executed calls of a round are replied to in their order. -/
theorem executeWithBudget_replied {round budget budget' : Nat} {results : List GatewayCallResult}
    (h : executeWithBudget (GatewayScheduler.plan output_items registry output_offset) round budget = .ok results budget') :
    List.Forall₂ (BoundCall.RepliedBy round) (boundCalls registry output_items) (results.map (·.input_item)) := by
  have each := Engine.executeWithBudget_each
    (fun _ _ _ _ ran => runOne_repliedBy ran : ∀ plan budget result budget', GatewayCallPlan.runOne plan round budget =
      .ok result budget' → plan.bound.RepliedBy round result.input_item) h
  rw [← @plan_bound registry output_offset, List.forall₂_map_left_iff, List.forall₂_map_right_iff]
  exact each

/-- What is answered call by call is answered. -/
theorem answered_of_answers {results : List GatewayCallResult}
    (h : List.Forall₂ Engine.Answers (GatewayScheduler.plan output_items registry output_offset) results) :
    List.Forall₂ Answered (gatewayCalls registry output_items) (results.map (·.input_item)) := by
  rw [← @plan_calls registry output_offset output_items, List.forall₂_map_left_iff, List.forall₂_map_right_iff]
  exact h.imp fun _ _ answers => answers.input_item

/-- Every answer answers a call. -/
theorem answered_mem {Call : Type} {Answers : Call → InputItem → Prop} {calls : List Call} {outputs : List InputItem}
    {output : InputItem} (h : List.Forall₂ Answers calls outputs) (mem : output ∈ outputs) : ∃ call, Answers call output := by
  induction h with
  | nil => cases mem
  | @cons call _ _ _ answered _ ih =>
    rcases List.mem_cons.1 mem with same | later
    · exact ⟨call, same ▸ answered⟩
    · exact ih later

/-- An item that the client does not have to act on becomes a call in an input only if it is a gateway call. -/
theorem toInputItem_isGatewayCall (idle : item.requiresClientAction registry = false) :
    (item.toInputItem.filter fun input => input.isGatewayCall registry) =
      (gatewayCall registry item).map fun call => .functionCall call.toInput := by
  cases item with
  | functionCall call =>
    show (if registry.isGatewayOwnedName call.name then _ else _) = (if _ then _ else _ : Option FunctionToolCall).map _
    split <;> rfl
  | toolSearchCall call => cases idle
  | customToolCall call => cases idle
  | shellCall call => cases idle
  | _ => rfl

/-- The calls fed back of an answer without client calls are the calls the gateway executes, each once. -/
theorem calls_fed_back (idle : hasClientOwnedCalls output_items registry = false) :
    (output_items.filterMap OutputItem.toInputItem).filter (fun input => input.isGatewayCall registry) =
      (gatewayCalls registry output_items).map fun call => .functionCall call.toInput := by
  unfold hasClientOwnedCalls at idle
  unfold gatewayCalls
  rw [List.filter_filterMap, List.map_filterMap]
  apply List.filterMap_congr
  intro item mem
  exact toInputItem_isGatewayCall (eq_false_of_ne_true (List.any_eq_false.1 idle item mem))

/-- The call that is kept for the next round is a call of the gateway. -/
theorem gatewayCallInput_isGatewayCall :
    ((Engine.gatewayCallInput registry item).filter fun input => input.isGatewayCall registry) =
      (gatewayCall registry item).map fun call => .functionCall call.toInput := by
  cases item with
  | functionCall call =>
    dsimp only [Engine.gatewayCallInput, gatewayCall]
    split
    · rename_i owned
      exact Option.filter_some_pos owned
    · rfl
  | _ => rfl

/-- What is stored of a round without client calls holds the calls the gateway executes, each once. -/
theorem calls_recorded (ctx : Engine.RequestContext) (count : Nat)
    (idle : hasClientOwnedCalls output_items registry = false) :
    ∃ recorded, (Engine.recordRoundHistory ctx output_items registry count).new_input_items
        = ctx.new_input_items ++ recorded ∧
      recorded.filter (fun input => input.isGatewayCall registry) =
        (gatewayCalls registry output_items).map fun call => .functionCall call.toInput := by
  have listed : ∀ part : OutputItem → Option InputItem,
      (∀ item ∈ output_items, ((part item).filter fun input => input.isGatewayCall registry) =
        (gatewayCall registry item).map fun call => .functionCall call.toInput) →
      (output_items.filterMap part).filter (fun input => input.isGatewayCall registry) =
        (gatewayCalls registry output_items).map fun call => .functionCall call.toInput := by
    intro part each
    unfold gatewayCalls
    rw [List.filter_filterMap, List.map_filterMap]
    exact List.filterMap_congr each
  have idle_item : ∀ item ∈ output_items, item.requiresClientAction registry = false :=
    fun item mem => eq_false_of_ne_true (List.any_eq_false.1 idle item mem)
  unfold Engine.recordRoundHistory
  split
  · refine ⟨_, rfl, ?_⟩
    rw [List.filterMap_filter]
    apply listed
    intro item mem
    have call := toInputItem_isGatewayCall (idle_item item mem)
    cases item <;> exact call
  · exact ⟨_, rfl, listed _ fun item _ => gatewayCallInput_isGatewayCall⟩

end

namespace Engine

/-- How many inference requests went upstream. -/
def inferences (sent : List SentRequest) : Nat := sent.countP (·.purpose = .inference)

/-- The usage that the answer to the `i`-th request reports; a summary without one counts as nothing used. -/
def requestUsage (services : Services) (request : SentRequest) (i : Nat) : Option ResponseUsage :=
  match (services.upstream i).result with
  | .error _ => none
  | .ok response => match request.purpose with
    | .inference => response.usage
    | .summarization => some (response.usage.getD defaultUsage)

/-- All usage that the answers reported. -/
def usages (services : Services) (sent : List SentRequest) : List ResponseUsage :=
  sent.zipIdx.filterMap fun (request, i) => requestUsage services request i

/-- The sum of one count over the answers, kept at the ends of an `i64` at every addition. -/
def saturatingCount (first : Int) (rest : List Int) : Int :=
  rest.foldl (fun total count => max (-2 ^ 63) (min (total + count) (2 ^ 63 - 1))) first

/-- The sum of usages, count by count. -/
def saturatingSum : List ResponseUsage → Option ResponseUsage
  | [] => none
  | usage :: usages => some
    { input_tokens := saturatingCount usage.input_tokens (usages.map (·.input_tokens))
      output_tokens := saturatingCount usage.output_tokens (usages.map (·.output_tokens))
      total_tokens := saturatingCount usage.total_tokens (usages.map (·.total_tokens))
      cached_tokens := saturatingCount usage.cached_tokens (usages.map (·.cached_tokens))
      reasoning_tokens := saturatingCount usage.reasoning_tokens (usages.map (·.reasoning_tokens)) }

/-- Each count of a usage is one that a counter can show: not negative, and within an `i64`. -/
def ResponseUsageCounts (usage : ResponseUsage) : Prop :=
  ∀ count ∈ [usage.input_tokens, usage.output_tokens, usage.total_tokens, usage.cached_tokens, usage.reasoning_tokens],
    0 ≤ count ∧ count ≤ 2 ^ 63 - 1

/-- The true sum of usages, each count up to the largest number. -/
def cappedSum (usages : List ResponseUsage) : ResponseUsage where
  input_tokens := min (usages.map (·.input_tokens)).sum (2 ^ 63 - 1)
  output_tokens := min (usages.map (·.output_tokens)).sum (2 ^ 63 - 1)
  total_tokens := min (usages.map (·.total_tokens)).sum (2 ^ 63 - 1)
  cached_tokens := min (usages.map (·.cached_tokens)).sum (2 ^ 63 - 1)
  reasoning_tokens := min (usages.map (·.reasoning_tokens)).sum (2 ^ 63 - 1)

section
variable {services : Services} {sent : List SentRequest} {request : SentRequest} {us : List ResponseUsage}
  {usage : Option ResponseUsage}

/-- The usage of the last request comes last. -/
theorem usages_snoc :
    usages services (sent ++ [request]) = usages services sent ++ (requestUsage services request sent.length).toList := by
  unfold usages
  rw [List.zipIdx_append, List.filterMap_append]
  cases found : requestUsage services request sent.length <;> simp [found]

/-- A count goes on with the next number. -/
theorem saturatingCount_snoc (first last : Int) (rest : List Int) :
    saturatingCount first (rest ++ [last]) = saturatingAddI64 (saturatingCount first rest) last := by
  unfold saturatingCount
  rw [List.foldl_append]
  rfl

/-- A sum goes on with the next usage. -/
theorem saturatingSum_snoc : saturatingSum (us ++ usage.toList) = accumulateUsage (saturatingSum us) usage := by
  cases usage with
  | none => simp [accumulateUsage]
  | some usage =>
    cases us with
    | nil => rfl
    | cons first rest =>
      simp [saturatingSum, accumulateUsage, addUsage, saturatingCount_snoc]

/-- Where nothing is negative the sum is the true one, up to the largest number. -/
theorem saturatingCount_eq_min {first : Int} {rest : List Int} (nonneg : ∀ count ∈ first :: rest, 0 ≤ count)
    (inside : first ≤ 2 ^ 63 - 1) : saturatingCount first rest = min (first :: rest).sum (2 ^ 63 - 1) := by
  have start_nonneg := nonneg first (List.mem_cons_self ..)
  replace nonneg : ∀ count ∈ rest, 0 ≤ count := fun count mem => nonneg count (List.mem_cons_of_mem _ mem)
  unfold saturatingCount
  rw [List.sum_cons]
  induction rest generalizing first with
  | nil =>
    simp only [List.foldl_nil, List.sum_nil]
    omega
  | cons second rest ih =>
    have second_nonneg := nonneg second (List.mem_cons_self ..)
    replace nonneg : ∀ count ∈ rest, 0 ≤ count := fun count mem => nonneg count (List.mem_cons_of_mem _ mem)
    have sum_nonneg : 0 ≤ rest.sum := List.sum_nonneg nonneg
    rw [List.foldl_cons, ih (by omega) (by omega) nonneg, List.sum_cons]
    omega

/-- A sum of counts is the capped sum of them. -/
theorem saturatingSum_counts {total : ResponseUsage} (counts : ∀ usage ∈ us, ResponseUsageCounts usage)
    (h : saturatingSum us = some total) : total = cappedSum us := by
  cases us with
  | nil => cases h
  | cons first rest =>
    have count (field : ResponseUsage → Int) (counted : ∀ usage, ResponseUsageCounts usage → 0 ≤ field usage ∧
        field usage ≤ 2 ^ 63 - 1) :
        saturatingCount (field first) (rest.map field) = min ((first :: rest).map field).sum (2 ^ 63 - 1) := by
      refine saturatingCount_eq_min ?_ (counted first (counts first (List.mem_cons_self ..))).2
      intro n mem
      rw [← List.map_cons] at mem
      obtain ⟨usage, here, rfl⟩ := List.mem_map.1 mem
      exact (counted usage (counts usage here)).1
    cases h
    unfold cappedSum
    rw [count (·.input_tokens) fun usage h => h _ (by simp), count (·.output_tokens) fun usage h => h _ (by simp),
      count (·.total_tokens) fun usage h => h _ (by simp), count (·.cached_tokens) fun usage h => h _ (by simp),
      count (·.reasoning_tokens) fun usage h => h _ (by simp)]

end

/-- The usage that a round reports, or hands on. -/
def RoundEnd.usage : RoundEnd → Option ResponseUsage
  | .finished payload => payload.usage
  | .continue _ combined_usage => combined_usage

section
variable {services : Services} {stream_upstream : Bool} {round output_offset : Nat} {start s s' : State}
  {payload : ResponsePayload} {combined_output output : List OutputItem} {deferred_events : List EventFrame}
  {combined_usage usage : Option ResponseUsage} {roundEnd : RoundEnd} {e : ExecutorError}

/-- A round reports the usage of its request. -/
theorem Settles.reports {current_output : List OutputItem} (h : Settles services round payload current_output output_offset
    deferred_events combined_output combined_usage s roundEnd s') :
    roundEnd.usage = combined_usage ∧ s'.sent = s.sent := by
  cases h with
  | failed status => exact ⟨rfl, rfl⟩
  | executed status ran shown ends =>
    refine ⟨?_, (executeRoundOutput_ok ran).1.sent⟩
    cases ends <;> rfl

/-- A request is one inference, whose usage is counted. -/
theorem Asked.reports (h : Asked services stream_upstream s payload s') :
    inferences s'.sent = inferences s.sent + 1 ∧
    saturatingSum (usages services s'.sent) = accumulateUsage (saturatingSum (usages services s.sent)) payload.usage := by
  obtain ⟨body, -, sent⟩ := h.sent
  obtain ⟨upstream, answer, given⟩ := h.answer
  rw [sent, usages_snoc, saturatingSum_snoc]
  refine ⟨by simp [inferences], ?_⟩
  unfold requestUsage
  rw [answer, given]
  rfl

/-- A compaction is no inference, and its usage is counted. -/
theorem compaction_usage (h : maybeCompactContext services s = .ok usage s') :
    inferences s'.sent = inferences s.sent ∧
    saturatingSum (usages services s'.sent) = accumulateUsage (saturatingSum (usages services s.sent)) usage := by
  rcases maybeCompactContext_ok h with ⟨none, same⟩ | ⟨items, spent, m, some, ran, same⟩
  · rw [none, same]
    exact ⟨rfl, rfl⟩
  · obtain ⟨body, -, sent⟩ := ran.sent
    obtain ⟨response, summary, answer, reported, -⟩ := ran.answer
    rw [some, same]
    dsimp only
    rw [sent, usages_snoc, saturatingSum_snoc]
    refine ⟨by simp [inferences], ?_⟩
    unfold requestUsage
    rw [answer, reported]

/-- Preparing the reasoning asks nothing. -/
theorem preparation_sent {was_compacted : Bool} (h : prepareInitialReasoningForVllm round was_compacted s = .ok () s') :
    s'.sent = s.sent := by
  rcases prepareInitialReasoning_ok h with ⟨-, -, -, same⟩ | ⟨-, same⟩
  · rw [same]
  · rw [same]

/-- A round sends one inference request, and its usage is that of all answers so far. -/
theorem Round.accounts (h : Round services stream_upstream round combined_output combined_usage s roundEnd s')
    (before : combined_usage = saturatingSum (usages services s.sent)) :
    inferences s'.sent = inferences s.sent + 1 ∧ roundEnd.usage = saturatingSum (usages services s'.sent) := by
  obtain ⟨compaction, preparation, answer, settled⟩ := h
  obtain ⟨count₁, usage₁⟩ := compaction_usage compaction
  obtain ⟨count₂, usage₂⟩ := (fetchPayload_ok answer).1.reports
  obtain ⟨reported, sent⟩ := settled.reports
  rw [preparation_sent preparation] at count₂ usage₂
  rw [sent, reported, usage₂, usage₁, before]
  exact ⟨by omega, rfl⟩

/-- The usage of a turn is the sum of the usages that were reported. -/
theorem Reaches.accounts (h : Reaches services stream_upstream start round combined_output combined_usage s)
    (new : start.sent = []) :
    inferences s.sent = round ∧ combined_usage = saturatingSum (usages services s.sent) := by
  induction h with
  | first =>
    rw [new]
    exact ⟨rfl, rfl⟩
  | next before played ih =>
    obtain ⟨count, usage⟩ := (runRound_ok played).accounts ih.2
    exact ⟨by rw [count, ih.1], usage⟩

/-- A round that fails has sent at most one inference request. -/
theorem RoundFails.inferences_le (h : RoundFails services stream_upstream round combined_output s e s') :
    inferences s'.sent ≤ inferences s.sent + 1 := by
  cases h with
  | compaction failed =>
    rcases maybeCompactContext_error failed with same | ⟨body, -, sent⟩
    · rw [same]
      omega
    · rw [sent]
      simp [inferences]
  | preparation compaction failed =>
    rw [quiet_prepareInitialReasoning.error failed, (compaction_usage compaction).1]
    omega
  | answer compaction preparation failed =>
    have before := (compaction_usage compaction).1
    rw [← preparation_sent preparation] at before
    rcases fetchPayload_error failed with same | ⟨body, -, sent⟩
    · rw [same, before]
      omega
    · rw [sent, ← before]
      simp [inferences]
  | settling compaction preparation answer sent =>
    have before := (compaction_usage compaction).1
    rw [← preparation_sent preparation] at before
    rw [sent, (fetchPayload_ok answer).1.reports.1, before]

/-- `s` comes after a round that asks for another one: its answer is complete and has gateway calls and no client
calls, and the context is the one that was sent, then the answer, with each gateway call once, then their outputs. -/
structure FedBack (services : Services) (stream_upstream : Bool) (round : Nat) (s : State) (asked : RequestContext)
    (upstream : ResponsePayload) (outputs : List InputItem) : Prop where
  request : ∃ body, asked.upstreamRequest services.toolsResolved services.namespaces stream_upstream = .ok body ∧
    s.sent.getLast? = some ⟨.inference, body⟩
  answer : (services.upstream (s.sent.length - 1)).result = .ok upstream
  not_failed : isFailedStatus upstream.status = false
  not_incomplete : upstream.status ≠ utf8 "incomplete"
  calls : gatewayCalls s.registry upstream.output ≠ []
  idle : hasClientOwnedCalls upstream.output s.registry = false
  bound : (boundCalls s.registry upstream.output).map (·.call) = gatewayCalls s.registry upstream.output
  replied : List.Forall₂ (BoundCall.RepliedBy round) (boundCalls s.registry upstream.output) outputs
  input : s.request.enriched_request.input.entries =
    asked.enriched_request.input.entries ++ upstream.output.filterMap OutputItem.toInputItem ++ outputs
  once : (upstream.output.filterMap OutputItem.toInputItem).filter (fun item => item.isGatewayCall s.registry) =
    (gatewayCalls s.registry upstream.output).map fun call => .functionCall call.toInput

/-- Keeping what a round said adds it to the input. -/
theorem recordRoundHistory_enriched (ctx : RequestContext) (output_items : List OutputItem) (registry : ToolRegistry)
    (count : Nat) :
    (recordRoundHistory ctx output_items registry count).enriched_request = ctx.enriched_request := by
  unfold recordRoundHistory
  split <;> rfl

/-- What a round that asks for another one has fed back, after what it had asked with. -/
theorem Settles.fed {current_output : List OutputItem} (h : Settles services round payload current_output output_offset
    deferred_events combined_output combined_usage s (.continue output usage) s') :
    isFailedStatus payload.status = false ∧ payload.status ≠ utf8 "incomplete" ∧ s'.registry = s.registry ∧
    s'.sent = s.sent ∧ hasClientOwnedCalls current_output s.registry = false ∧
    gatewayCalls s.registry current_output ≠ [] ∧
    ∃ outputs, List.Forall₂ (BoundCall.RepliedBy round) (boundCalls s.registry current_output) outputs ∧
      s'.request.enriched_request.input.entries = s.request.enriched_request.input.entries ++
        current_output.filterMap OutputItem.toInputItem ++ outputs := by
  cases h with
  | executed status ran shown ends =>
    obtain ⟨turn, budget, budget', executed⟩ := executeRoundOutput_ran ran
    cases ends with
    | «continue» complete owned some more =>
      have outputs := executeWithBudget_replied executed
      refine ⟨status, complete, turn.registry, turn.sent, owned, ?_, _, outputs, ?_⟩
      · intro none
        rw [← boundCalls_calls, List.map_eq_nil_iff] at none
        rw [none] at outputs
        exact some (List.map_eq_nil_iff.1 (List.forall₂_nil_left_iff.1 outputs))
      · show (appendInputItems _ _).entries = _
        rw [entries_appendInputItems]
        dsimp only
        unfold appendOutputItemsToInput
        rw [entries_appendInputItems, recordRoundHistory_enriched, turn.request]

/-- A round that goes on gives each call its answer. -/
theorem Round.fedBack (h : Round services stream_upstream round combined_output combined_usage s
    (.continue output usage) s') : ∃ asked upstream outputs, FedBack services stream_upstream round s' asked upstream outputs := by
  obtain ⟨compaction, preparation, answer, settled⟩ := h
  rename_i prepared _ _ _
  have asked := (fetchPayload_ok answer).1
  obtain ⟨body, made, sent⟩ := asked.sent
  obtain ⟨upstream, answered, given⟩ := asked.answer
  subst given
  obtain ⟨status, complete, registry, same_sent, owned, calls, outputs, results, input⟩ := settled.fed
  rw [sent] at same_sent
  rw [← registry] at owned calls results
  refine ⟨prepared.request, upstream, outputs, ?_⟩
  exact
    { request := ⟨body, made, by rw [same_sent]; simp⟩
      answer := by
        rw [same_sent]
        simpa using answered
      not_failed := status
      not_incomplete := complete
      calls := calls
      idle := owned
      bound := boundCalls_calls
      replied := results
      input := by
        rw [input, asked.request]
        rfl
      once := calls_fed_back owned }

/-- What the last round leaves when it has only gateway calls. -/
structure Exhausted (round : Nat) (payload : ResponsePayload) (registry : ToolRegistry) (upstream : ResponsePayload)
    (stored : List InputItem) : Prop where
  last : round + 1 = maxGatewayToolRounds
  status : payload.status = utf8 "incomplete"
  reason : payload.incomplete_details =
    some ⟨some (utf8 "gateway tool execution exceeded " ++ decimal maxGatewayToolRounds ++ utf8 " rounds")⟩
  recorded : ∃ before calls outputs, stored = before ++ calls ++ outputs ∧
    calls.filter (fun item => item.isGatewayCall registry) =
      (gatewayCalls registry upstream.output).map (fun call => .functionCall call.toInput) ∧
    (boundCalls registry upstream.output).map (·.call) = gatewayCalls registry upstream.output ∧
    List.Forall₂ (BoundCall.RepliedBy round) (boundCalls registry upstream.output) outputs

/-- A round that ends the turn ends it as its calls and the number of rounds ask for. -/
theorem Round.exhausted (h : Round services stream_upstream round combined_output combined_usage s
      (.finished payload) s') (in_time : round < maxGatewayToolRounds) {upstream : ResponsePayload}
    (answer : (services.upstream (s'.sent.length - 1)).result = .ok upstream)
    (not_failed : isFailedStatus upstream.status = false) (not_incomplete : upstream.status ≠ utf8 "incomplete")
    (idle : hasClientOwnedCalls upstream.output s'.registry = false)
    (calls : gatewayCalls s'.registry upstream.output ≠ []) :
    Exhausted round payload s'.registry upstream s'.request.new_input_items := by
  obtain ⟨compaction, preparation, fetched, settled⟩ := h
  have asked := (fetchPayload_ok fetched).1
  obtain ⟨body, made, sent⟩ := asked.sent
  obtain ⟨upstream', answered, given⟩ := asked.answer
  have same : upstream' = upstream := by
    rw [settled.reports.2, sent, List.length_append, List.length_singleton, Nat.add_sub_cancel, answered] at answer
    cases answer
    rfl
  subst given same
  cases settled with
  | failed status => exact absurd (status.symm.trans not_failed) (fun no => nomatch no)
  | @executed _ _ m _ _ status ran shown ends =>
    obtain ⟨turn, budget, budget', executed⟩ := executeRoundOutput_ran ran
    dsimp only at idle calls ⊢
    rw [← turn.registry] at executed ends
    have results := executeWithBudget_replied executed
    cases ends with
    | incomplete complete => exact absurd complete not_incomplete
    | requiresClientAction complete owned => exact absurd (owned.symm.trans idle) (fun no => nomatch no)
    | done complete owned none =>
      subst none
      have uncalled : boundCalls m.registry upstream'.output = [] := List.forall₂_nil_right_iff.1 results
      rw [← boundCalls_calls, uncalled] at calls
      exact absurd rfl calls
    | exhausted complete owned some last =>
      obtain ⟨recorded, stored, once⟩ := calls_recorded _ _ idle
      exact ⟨by omega, rfl, rfl, _, recorded, _, congrArg (· ++ _) stored, once, boundCalls_calls, results⟩

/-- What is true of every run of the loop from `start`. -/
structure LoopsWell (services : Services) (stream_upstream : Bool) (start : State) : Prop where
  /-- A run that ends well has a response, whose usage is the sum of what all its requests used. -/
  responds : ∀ result s', run services stream_upstream start = .ok result s' → ∃ payload, result = some payload ∧
    inferences s'.sent ≤ maxGatewayToolRounds ∧ payload.usage = saturatingSum (usages services s'.sent)
  /-- Where no count is negative, that is the true sum of every count, up to the largest number. -/
  adds_up : ∀ payload s' total, run services stream_upstream start = .ok (some payload) s' → payload.usage = some total →
    (∀ usage ∈ usages services s'.sent, ResponseUsageCounts usage) → total = cappedSum (usages services s'.sent)
  /-- A run that fails has sent no more requests either. -/
  fails : ∀ e s', run services stream_upstream start = .error e s' → inferences s'.sent ≤ maxGatewayToolRounds
  /-- Another round is only played after one that has fed back its calls. -/
  feeds : ∀ round output usage s, Reaches services stream_upstream start (round + 1) output usage s →
    ∃ asked upstream outputs, FedBack services stream_upstream round s asked upstream outputs
  /-- A run that ends with only gateway calls has no round left, and says so. -/
  exhausts : ∀ round output usage s payload s' upstream, Reaches services stream_upstream start round output usage s →
    runRound services stream_upstream round output usage s = .ok (.finished payload) s' →
    (services.upstream (s'.sent.length - 1)).result = .ok upstream → isFailedStatus upstream.status = false →
    upstream.status ≠ utf8 "incomplete" → hasClientOwnedCalls upstream.output s'.registry = false →
    gatewayCalls s'.registry upstream.output ≠ [] →
    Exhausted round payload s'.registry upstream s'.request.new_input_items

/-- A turn that ends with a response asked for at most so many inferences. -/
theorem run_responds {result : Option ResponsePayload} (new : start.sent = [])
    (ran : run services stream_upstream start = .ok result s') : ∃ payload, result = some payload ∧
      inferences s'.sent ≤ maxGatewayToolRounds ∧ payload.usage = saturatingSum (usages services s'.sent) := by
  obtain ⟨round, output, usage, m, payload, given, reached, played⟩ := run_ok ran
  obtain ⟨count, before⟩ := reached.accounts new
  obtain ⟨more, reported⟩ := (runRound_ok played).accounts before
  have in_time := reached.round_lt
  exact ⟨payload, given, by omega, reported⟩

end

/-- **The gateway loop**, from any state before its first request. -/
theorem gatewayLoop_loopsWell (services : Services) (stream_upstream : Bool) (start : State) :
    LoopsWell services stream_upstream { start with sent := [] } where
  responds := fun result s' ran => run_responds rfl ran
  adds_up := by
    intro payload s' total ran used counts
    obtain ⟨payload', given, -, reported⟩ := run_responds rfl ran
    cases given
    rw [used] at reported
    exact saturatingSum_counts counts reported.symm
  fails := by
    intro e s' ran
    obtain ⟨round, output, usage, m, reached, failed⟩ := run_error ran
    have count := (reached.accounts rfl).1
    have more := (runRound_error failed).inferences_le
    have in_time := reached.round_lt
    omega
  feeds := by
    intro round output usage s reached
    cases reached with
    | next before played => exact (runRound_ok played).fedBack
  exhausts := by
    intro round output usage s payload s' upstream reached played answer not_failed not_incomplete idle calls
    exact (runRound_ok played).exhausted reached.round_lt answer not_failed not_incomplete idle calls

end Engine
end AgenticStack
