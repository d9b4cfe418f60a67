import AgenticStack.Executor.Announcements
import AgenticStack.Executor.ListingRuns
import AgenticStack.Executor.RoundCalls

/-!
# The calls a turn saves

The calls of the model are saved by two ways, recorded round by round as input
or stored with the public output, and the outputs of the gateway's calls by a
third. A turn that is finished leaves a history in which every call stands
once, behind it its output if the gateway executed it, and in which the calls
still open are those that the last round left to the client.
-/

namespace AgenticStack.Engine
set_option autoImplicit false
open Library

section
variable {registry : ToolRegistry} {output_offset item_index round budget budget' : Nat} {item : OutputItem}
  {output_items : List OutputItem} {plan : GatewayCallPlan} {plans : List GatewayCallPlan} {result : GatewayCallResult}
  {results : List GatewayCallResult} {binding : GatewayBinding}

/-- What a call shows comes of its tool. -/
theorem runOne_publicOutput (ran : plan.runOne round budget = .ok result budget') (shown : result.public_output = some item) :
    ∃ binding output status, plan.execution = some binding ∧ binding.publicOutput plan.call output status = some item := by
  unfold GatewayCallPlan.runOne at ran
  cases execution : plan.execution with
  | none =>
    rw [execution] at ran
    obtain ⟨_, _, _, ran⟩ := bind_ok.1 ran
    obtain ⟨_, _, _, ran⟩ := bind_ok.1 ran
    obtain ⟨rfl, -⟩ := pure_ok.1 ran
    cases shown
  | some binding =>
    rw [execution] at ran
    obtain ⟨⟨output, status⟩, _, _, ran⟩ := bind_ok.1 ran
    obtain ⟨_, _, _, ran⟩ := bind_ok.1 ran
    obtain ⟨_, _, _, ran⟩ := bind_ok.1 ran
    obtain ⟨rfl, -⟩ := pure_ok.1 ran
    exact ⟨binding, output, status, rfl, shown⟩

/-- A call that is planned and bound has an entry of the gateway. -/
theorem planItem_binding (planned : GatewayScheduler.planItem registry output_offset item_index item = some plan)
    (bound : plan.execution = some binding) :
    ∃ name entry, registry.lookup name = some entry ∧ entry.ownership = .gateway (some binding) := by
  cases item with
  | functionCall call =>
    unfold GatewayScheduler.planItem at planned
    rcases Option.eq_none_or_eq_some (registry.lookup call.name) with found | ⟨entry, found⟩
    · simp [found] at planned
    · cases owner : entry.ownership with
      | client => simp [found, owner] at planned
      | gateway own =>
        simp only [found, owner, Option.some.injEq] at planned
        subst planned
        cases bound
        exact ⟨call.name, entry, found, owner⟩
  | _ => cases planned

/-- The results of a round show no calls, when no handler does. -/
theorem executeWithBudget_showNoCall (handlers : HandlersShowNoCall registry)
    (ran : executeWithBudget (GatewayScheduler.plan output_items registry output_offset) round budget = .ok results budget') :
    ShowNoCall results := by
  have bound : ∀ plan ∈ GatewayScheduler.plan output_items registry output_offset, ∀ binding,
      plan.execution = some binding → ∃ name entry, registry.lookup name = some entry ∧
        entry.ownership = .gateway (some binding) := by
    intro plan mem binding executed
    obtain ⟨p, -, planned⟩ := List.mem_filterMap.1 mem
    exact planItem_binding planned executed
  have each := executeWithBudget_each (fun plan _ result _ one item shown => @runOne_publicOutput _ _ _ item plan result one shown) ran
  clear ran
  generalize GatewayScheduler.plan output_items registry output_offset = plans at bound each
  induction each with
  | nil => exact fun result mem => absurd mem List.not_mem_nil
  | cons one rest ih =>
    rw [List.forall_mem_cons] at bound
    refine List.forall_mem_cons.2 ⟨?_, ih bound.2⟩
    intro item shown
    obtain ⟨binding, output, status, executed, made⟩ := one item shown
    obtain ⟨name, entry, found, owner⟩ := bound.1 binding executed
    exact handlers name entry binding found owner _ output status item made

end

/-- The rounds of the turn are recorded in their place: it has a session, and no conversation of its own. -/
def RequestContext.recordsInPlace (ctx : RequestContext) : Bool :=
  ctx.continuation.isSome && ctx.original_request.conversation_id.isNone

/-- What the first answers say. -/
def answeredOutputs (services : Services) (requests : Nat) : List (List OutputItem) :=
  (List.range requests).map fun request => ((services.upstream request).result.toOption.map (·.output)).getD []

/-- A run has come as far as `s` by these rounds. -/
structure Through (services : Services) (start s : State) (combined_output : List OutputItem) (rounds : List RoundOutput) :
    Prop where
  entries : s.registry.entries = start.registry.entries
  original : s.request.original_request = start.request.original_request
  lease : s.request.continuation =
    if start.request.recordsInPlace && !rounds.isEmpty then
      start.request.continuation.map (·.markOutputsRecorded combined_output.length)
    else start.request.continuation
  executed : ∀ r ∈ rounds, r.Executed services.serde start.registry
  answers : rounds.map (·.output) = answeredOutputs services s.sent.length
  recorded : s.request.new_input_items = start.request.new_input_items ++
    rounds.flatMap (·.recorded start.request.recordsInPlace start.registry)
  output : combined_output = start.registry.mcp_list_tool_items.map .mcpListTools ++ rounds.flatMap (·.public_output)

section
variable {services : Services} {stream_upstream : Bool} {round : Nat} {combined_output : List OutputItem}
  {combined_usage : Option ResponseUsage} {start s s' : State} {roundEnd : RoundEnd} {registry : ToolRegistry}
  {items : List OutputItem} {rounds : List RoundOutput} {ctx : RequestContext} {count : Nat}

/-- What a round said is recorded where it stands or behind the rest. -/
theorem recordRoundHistory_eq :
    let recorded := recordRoundHistory ctx items registry count
    recorded.original_request = ctx.original_request ∧
    recorded.new_input_items = ctx.new_input_items ++ recordedOutput ctx.recordsInPlace registry items ∧
    recorded.continuation =
      if ctx.recordsInPlace then ctx.continuation.map (·.markOutputsRecorded count) else ctx.continuation := by
  unfold recordRoundHistory RequestContext.recordsInPlace
  cases leased : ctx.continuation with
  | none => exact ⟨rfl, rfl, leased⟩
  | some lease =>
    cases conversation : ctx.original_request.conversation_id with
    | none => exact ⟨rfl, rfl, rfl⟩
    | some id => exact ⟨rfl, rfl, leased⟩

/-- The calls of one more response. -/
theorem answeredOutputs_succ {requests : Nat} {response : ResponsePayload}
    (answer : (services.upstream requests).result = .ok response) :
    answeredOutputs services (requests + 1) = answeredOutputs services requests ++ [response.output] := by
  unfold answeredOutputs
  rw [List.range_succ, List.map_append, List.map_singleton, answer]
  rfl

/-- Whether what a round said stays in place is settled at the start. -/
theorem Through.recordsInPlace (h : Through services start s combined_output rounds) :
    s.request.recordsInPlace = start.request.recordsInPlace := by
  unfold RequestContext.recordsInPlace
  rw [h.original, h.lease]
  split
  · rw [Option.isSome_map]
  · rfl

/-- Whichever way a round ends, it adds its outputs to what is to be stored. -/
theorem Ends.adds {payload : ResponsePayload} {results : List GatewayCallResult} {ctx' : RequestContext}
    (h : Ends registry round payload items results ctx combined_output combined_usage roundEnd ctx') :
    roundEnd.output = combined_output ∧ ctx'.original_request = ctx.original_request ∧
      ctx'.new_input_items = ctx.new_input_items ++ results.map (·.input_item) ∧
      ctx'.continuation = ctx.continuation ∧
      ∀ output usage, roundEnd = .continue output usage → hasClientOwnedCalls items registry = false := by
  cases h with
  | incomplete status => exact ⟨rfl, rfl, rfl, rfl, fun _ _ same => RoundEnd.noConfusion same⟩
  | requiresClientAction status owned => exact ⟨rfl, rfl, rfl, rfl, fun _ _ same => RoundEnd.noConfusion same⟩
  | done status owned none =>
    subst none
    exact ⟨rfl, rfl, (List.append_nil _).symm, rfl, fun _ _ same => RoundEnd.noConfusion same⟩
  | exhausted status owned some last => exact ⟨rfl, rfl, rfl, rfl, fun _ _ same => RoundEnd.noConfusion same⟩
  | «continue» status owned some more => exact ⟨rfl, rfl, rfl, rfl, fun _ _ _ => owned⟩

/-- What an executed round adds to its turn. -/
structure Adds (serde : SerdeJson) (s s' : State) (combined_output : List OutputItem) (roundEnd : RoundEnd)
    (r : RoundOutput) : Prop where
  executed : r.Executed serde s.registry
  output : roundEnd.output = combined_output ++ r.public_output
  original : s'.request.original_request = s.request.original_request
  recorded : s'.request.new_input_items =
    s.request.new_input_items ++ r.recorded s.request.recordsInPlace s.registry
  lease : s'.request.continuation =
    if s.request.recordsInPlace then s.request.continuation.map (·.markOutputsRecorded roundEnd.output.length)
    else s.request.continuation
  idle : ∀ output usage, roundEnd = .continue output usage → hasClientOwnedCalls r.output s.registry = false

/-- A round that did not fail was executed. -/
theorem Settles.adds {payload : ResponsePayload} {output_offset : Nat} {deferred_events : List EventFrame}
    (h : Settles services round payload items output_offset deferred_events combined_output combined_usage s roundEnd s')
    (whole : ∀ response, roundEnd = .finished response → isFailedStatus response.status = false)
    (handlers : HandlersShowNoCall s.registry) :
    ∃ r : RoundOutput, r.output = items ∧ Adds services.serde s s' combined_output roundEnd r := by
  cases h with
  | failed status =>
    have finished := whole _ rfl
    exact absurd (status.symm.trans finished) Bool.noConfusion
  | executed status ran shown ends =>
    rename_i results public_output m ctx
    obtain ⟨turn, answered⟩ := executeRoundOutput_ok ran
    obtain ⟨-, budget, budget', executed⟩ := executeRoundOutput_ran ran
    obtain ⟨output, original, appended, lease, idle⟩ := ends.adds
    rw [turn.request] at original appended lease
    obtain ⟨original', recorded, lease'⟩ :=
      @recordRoundHistory_eq s.registry items s.request (combined_output ++ public_output).length
    refine ⟨⟨items, results, public_output⟩, rfl, ?_⟩
    exact
      { executed := ⟨answered_of_answers answered, executeWithBudget_showNoCall handlers executed, shown⟩
        output := output
        original := original.trans original'
        recorded := by
          rw [appended, recorded, List.append_assoc]
          rfl
        lease := by rw [lease, lease', output]
        idle := idle }

/-- Before the answer to a round without a compaction nothing is stored of it, and one request more has gone out. -/
theorem answer_uncompacted {usage : Option ResponseUsage} {compacted prepared answered : State} {payload : ResponsePayload}
    {deferred_events : List EventFrame} (compaction : maybeCompactContext services s = .ok usage compacted)
    (preparation : prepareInitialReasoningForVllm round usage.isSome compacted = .ok () prepared)
    (answer : fetchPayload services stream_upstream round combined_output.length prepared
      = .ok (payload, deferred_events) answered)
    (uncompacted : ∀ request ∈ answered.sent, request.purpose = .inference) :
    (∃ upstream, (services.upstream s.sent.length).result = .ok upstream ∧ payload.output = upstream.output) ∧
      (∃ request, answered.sent = s.sent ++ [request]) ∧ answered.registry.entries = s.registry.entries ∧
      answered.request.original_request = s.request.original_request ∧
      answered.request.new_input_items = s.request.new_input_items ∧
      answered.request.continuation = s.request.continuation := by
  have asked := (fetchPayload_ok answer).1
  obtain ⟨body, -, sent⟩ := asked.sent
  obtain ⟨upstream, answered_by, made⟩ := asked.answer
  have same : compacted = s := by
    rcases maybeCompactContext_ok compaction with ⟨-, same⟩ | ⟨items, spent, m, -, ran, same⟩
    · exact same
    · obtain ⟨body', -, sent'⟩ := ran.sent
      have summarized : ⟨.summarization, body'⟩ ∈ answered.sent := by
        rw [sent, preparation_sent preparation, same, sent']
        simp
      exact RequestPurpose.noConfusion (uncompacted _ summarized)
  subst same
  rw [preparation_sent preparation] at sent answered_by
  refine ⟨⟨upstream, answered_by, by rw [made]; rfl⟩, ⟨_, sent⟩, ?_⟩
  rw [asked.entries, asked.request]
  rcases prepareInitialReasoning_ok preparation with ⟨-, -, -, prepared⟩ | ⟨-, prepared⟩
  · rw [prepared]
    exact ⟨rfl, rfl, rfl, rfl⟩
  · rw [prepared]
    exact ⟨rfl, rfl, rfl, rfl⟩

/-- **One more round** that did not fail. -/
theorem Round.through (h : Round services stream_upstream round combined_output combined_usage s roundEnd s')
    (handlers : HandlersShowNoCall start.registry) (before : Through services start s combined_output rounds)
    (uncompacted : ∀ request ∈ s'.sent, request.purpose = .inference)
    (whole : ∀ response, roundEnd = .finished response → isFailedStatus response.status = false) :
    ∃ r : RoundOutput, Through services start s' roundEnd.output (rounds ++ [r]) ∧
      ∀ output usage, roundEnd = .continue output usage → clientIds start.registry r.output = [] := by
  obtain ⟨compaction, preparation, answer, settled⟩ := h
  rename_i usage compacted prepared answered payload deferred_events
  have sent := settled.reports.2
  rw [sent] at uncompacted
  obtain ⟨⟨upstream, answered_by, output⟩, ⟨request, asked⟩, entries, original, recorded, lease⟩ :=
    answer_uncompacted compaction preparation answer uncompacted
  have entries := entries.trans before.entries
  obtain ⟨r, of_answer, adds⟩ := settled.adds whole (handlers.of_entries entries)
  have in_place : answered.request.recordsInPlace = start.request.recordsInPlace := by
    rw [← before.recordsInPlace]
    unfold RequestContext.recordsInPlace
    rw [original, lease]
  have appended := adds.recorded
  refine ⟨r, ?_, ?_⟩
  · exact
      { entries := by rw [settled.registry, entries]
        original := by rw [adds.original, original, before.original]
        lease := by
          have more : (rounds ++ [r]).isEmpty = false := by simp
          rw [adds.lease, in_place, lease, before.lease, more]
          cases start.request.recordsInPlace with
          | false => rfl
          | true => cases start.request.continuation <;> cases rounds.isEmpty <;> rfl
        executed := by
          intro other mem
          rcases List.mem_append.1 mem with old | new
          · exact before.executed other old
          · rw [List.mem_singleton.1 new]
            exact RoundOutput.Executed.of_entries adds.executed entries
        answers := by
          rw [sent, asked, List.length_append, List.length_singleton, answeredOutputs_succ answered_by, List.map_append,
            before.answers, List.map_singleton, of_answer, output]
        recorded := by
          unfold RoundOutput.recorded at appended
          rw [appended, recorded, before.recorded, in_place, recordedOutput_of_entries entries, List.flatMap_append,
            List.append_assoc, List.flatMap_singleton]
          rfl
        output := by
          rw [adds.output, before.output, List.flatMap_append, List.append_assoc, List.flatMap_singleton] }
  · intro more usage same
    apply clientIds_idle
    rw [← hasClientOwnedCalls_of_entries entries]
    exact adds.idle more usage same

/-- A round asks for at least what was asked for. -/
theorem Round.sends (h : Round services stream_upstream round combined_output combined_usage s roundEnd s') :
    s.sent <+: s'.sent := by
  obtain ⟨compaction, preparation, answer, settled⟩ := h
  obtain ⟨body, -, sent⟩ := (fetchPayload_ok answer).1.sent
  rw [settled.reports.2, sent, preparation_sent preparation]
  rcases maybeCompactContext_ok compaction with ⟨-, same⟩ | ⟨items, spent, m, -, ran, same⟩
  · rw [same]
    exact List.prefix_append _ _
  · obtain ⟨body', -, sent'⟩ := ran.sent
    rw [same, sent']
    exact ⟨[⟨.summarization, body'⟩, ⟨.inference, body⟩], by simp⟩

/-- No round before another one failed or left a call to the client. -/
theorem Reaches.through (h : Reaches services stream_upstream { start with sent := [] } round combined_output combined_usage s)
    (handlers : HandlersShowNoCall start.registry) (uncompacted : ∀ request ∈ s.sent, request.purpose = .inference) :
    ∃ rounds, Through services start s combined_output rounds ∧
      ∀ r ∈ rounds, clientIds start.registry r.output = [] := by
  induction h with
  | first =>
    refine ⟨[], ⟨rfl, rfl, ?_, by simp, rfl, by simp, by simp⟩, by simp⟩
    simp
  | @next round combined_output output combined_usage usage s s' earlier played ih =>
    have played := runRound_ok played
    obtain ⟨rounds, before, idle⟩ := ih fun request mem => uncompacted request (played.sends.subset mem)
    obtain ⟨r, after, left⟩ := played.through handlers before uncompacted (fun _ same => RoundEnd.noConfusion same)
    refine ⟨rounds ++ [r], after, ?_⟩
    intro other mem
    rcases List.mem_append.1 mem with old | new
    · exact idle other old
    · rw [List.mem_singleton.1 new]
      exact left output usage rfl

/-- Where nothing was recorded the turn keeps the whole output. -/
theorem retainedOutputs_all {continuation : Option ResponseContinuation}
    (unrecorded : ∀ lease, continuation = some lease → lease.recorded_output_count = 0) :
    retainedOutputs continuation items = items := by
  unfold retainedOutputs
  rw [List.filter_eq_self.2]
  · exact List.zipIdx_map_fst ..
  · intro p _
    cases continuation with
    | none => rfl
    | some lease => simp [ResponseContinuation.retainsOutput, unrecorded lease rfl]

/-- When all output was recorded, no calls of it are left to be stored. -/
theorem callsOf_retained (lease : ResponseContinuation) :
    callsOf (retainedOutputs (some (lease.markOutputsRecorded items.length)) items) = [] := by
  unfold callsOf
  rw [List.filterMap_eq_nil_iff]
  intro item mem
  unfold retainedOutputs at mem
  obtain ⟨p, kept, rfl⟩ := List.mem_map.1 mem
  obtain ⟨among, retained⟩ := List.mem_filter.1 kept
  have inside := List.snd_lt_of_mem_zipIdx among
  have early : ¬ items.length ≤ p.2 := by omega
  obtain ⟨item, index⟩ := p
  cases item with
  | mcpListTools => rfl
  | _ => simp [ResponseContinuation.retainsOutput, ResponseContinuation.markOutputsRecorded, early] at retained

/-- The calls of the public output that are stored with it. -/
def publicCalls (in_place : Bool) (rounds : List RoundOutput) : List Text :=
  if in_place then [] else rounds.flatMap fun r => callsOf r.public_output

/-- The ledger of what a turn saves: of its input, of its rounds, and of the public output that was not recorded. -/
theorem Through.ledger_saved {r : RoundOutput} (h : Through services start s combined_output (rounds ++ [r]))
    (fresh : ∀ lease, start.request.continuation = some lease → lease.recorded_output_count = 0) :
    ledger (intoInputItems (s.request.savedItems combined_output)) =
      ledger (intoInputItems (start.request.new_input_items.map .input)) ++
      ((rounds ++ [r]).map (·.callRound start.request.recordsInPlace start.registry)).flatMap (CallRound.entries .function) ++
      (publicCalls start.request.recordsInPlace (rounds ++ [r])).map (Entry.call · .function) := by
  have recorded : ledger (intoInputItems (s.request.new_input_items.map .input)) =
      ledger (intoInputItems (start.request.new_input_items.map .input)) ++
      ((rounds ++ [r]).map (·.callRound start.request.recordsInPlace start.registry)).flatMap (CallRound.entries .function) := by
    have lowered : Lowered ((rounds ++ [r]).flatMap (·.recorded start.request.recordsInPlace start.registry)) := by
      intro item mem
      obtain ⟨r, among, here⟩ := List.mem_flatMap.1 mem
      exact (h.executed r among).lowered item here
    rw [h.recorded, List.map_append, intoInputItems_append, intoInputItems_input lowered, ledger_append]
    congr 1
    unfold ledger
    rw [List.filterMap_flatMap, List.flatMap_map]
    exact List.flatMap_congr fun r among => (h.executed r among).ledger
  unfold RequestContext.savedItems
  rw [intoInputItems_append, ledger_append, recorded, intoInputItems_output, ledger_outputs]
  congr 1
  have lease := h.lease
  have some_round : (rounds ++ [r]).isEmpty = false := by simp
  rw [some_round] at lease
  cases in_place : start.request.recordsInPlace with
  | true =>
    obtain ⟨leased, -⟩ := Bool.and_eq_true_iff.1 in_place
    obtain ⟨own, leased⟩ := Option.isSome_iff_exists.1 leased
    rw [in_place, leased] at lease
    rw [lease]
    simp [callsOf_retained, publicCalls]
  | false =>
    rw [in_place] at lease
    rw [lease, Bool.false_and, if_neg Bool.false_ne_true, retainedOutputs_all fresh]
    congr 1
    show _ = (rounds ++ [r]).flatMap fun r => callsOf r.public_output
    have listed : callsOf (start.registry.mcp_list_tool_items.map .mcpListTools) = [] := by
      unfold callsOf
      rw [List.filterMap_map]
      exact List.filterMap_none _
    rw [h.output]
    unfold callsOf at listed ⊢
    rw [List.filterMap_append, listed, List.nil_append, List.filterMap_flatMap]

/-- What the calls of a turn come to in the history it saves. -/
structure Continuable (registry : ToolRegistry) (answers : List (List OutputItem)) (input saved : List InputItem)
    (waiting calls : List PendingCall) : Prop where
  /-- Every call stands once, by whichever way it was saved. -/
  called : (callIds (ledger saved)).Perm (callIds (ledger input) ++ answers.flatMap callsOf)
  /-- Every call of the gateway's has its output, and no other call has one. -/
  answered : answerIds (ledger saved) = answerIds (ledger input) ++ answers.flatMap (gatewayIds registry)
  /-- What is open is what was open before, and what the last answer leaves to the client. -/
  left : ∃ before last, answers = before ++ [last] ∧ (∀ items ∈ before, clientIds registry items = []) ∧
    calls = waiting ++ (clientIds registry last).map PendingCall.mk

/-- The calls of the rounds are calls of what they said. -/
theorem callRounds_calls (in_place : Bool) :
    ((rounds.map (·.callRound in_place registry)).flatMap CallRound.calls).Sublist ((rounds.map (·.output)).flatMap callsOf) := by
  rw [List.flatMap_map, List.flatMap_map]
  induction rounds with
  | nil => exact .slnil
  | cons r rounds ih =>
    rw [List.flatMap_cons, List.flatMap_cons]
    exact RoundOutput.callRound_sublist.append ih

/-- The rounds of a turn under a book that has seen none of their calls. -/
theorem run_callRounds {b : CallBook} {in_place : Bool} (sound : b.Sound)
    (named : ∀ id ∈ (rounds.map (·.output)).flatMap callsOf, id ≠ [])
    (fresh : ∀ id ∈ (rounds.map (·.output)).flatMap callsOf, id ∉ b.seen)
    (apart : ((rounds.map (·.output)).flatMap callsOf).Nodup) :
    let own := rounds.map (·.callRound in_place registry)
    b.run ValidCallId (own.flatMap (CallRound.entries .function)) = some
      ⟨(own.flatMap CallRound.calls).reverse ++ b.seen, b.pending ++
        (if in_place then (rounds.map (·.output)).flatMap (clientIds registry) else []).map (·, .function)⟩ := by
  intro own
  have sub := @callRounds_calls registry rounds in_place
  have each : ∀ r ∈ rounds, (callsOf r.output).Nodup := by
    intro r mem
    rw [List.flatMap_map] at apart
    exact (List.nodup_flatMap.1 apart).1 r mem
  have closes : ∀ round ∈ own, round.Closes := by
    intro round mem
    obtain ⟨r, among, rfl⟩ := List.mem_map.1 mem
    exact r.callRound_closes (each r among)
  have left : own.flatMap CallRound.left =
      if in_place then (rounds.map (·.output)).flatMap (clientIds registry) else [] := by
    rw [List.flatMap_map]
    cases in_place with
    | false =>
      rw [if_neg Bool.false_ne_true, List.flatMap_eq_nil_iff]
      exact fun r mem => r.callRound_left (each r mem)
    | true =>
      rw [if_pos rfl, List.flatMap_map]
      exact List.flatMap_congr fun r mem => r.callRound_left (each r mem)
  rw [← left]
  exact Book.run_rounds sound (fun id mem => named id (sub.subset mem)) (fun id mem => fresh id (sub.subset mem))
    (apart.sublist sub) closes

/-- The calls of a turn are the gateway's and the client's. -/
theorem callsOf_flatMap_perm (answers : List (List OutputItem)) : (answers.flatMap callsOf).Perm
    (answers.flatMap (gatewayIds registry) ++ answers.flatMap (clientIds registry)) := by
  refine List.Perm.trans ?_ (List.flatMap_append_perm ..).symm
  exact List.Perm.flatMap_left _ fun items _ => callsOf_perm

/-- Where the public output has no call of the gateway's, its calls are the client's. -/
theorem Through.publicCalls_eq (h : Through services start s combined_output rounds)
    (shown : ∀ item ∈ combined_output, gatewayCall start.registry item = none) :
    publicCalls false rounds = (rounds.map (·.output)).flatMap (clientIds start.registry) := by
  show rounds.flatMap (fun r => callsOf r.public_output) = _
  rw [List.flatMap_map]
  refine List.flatMap_congr fun r mem => ?_
  have executed := h.executed r mem
  refine callsOf_public executed.shows executed.made fun item here => shown item ?_
  rw [h.output]
  exact List.mem_append_right _ (List.mem_flatMap.2 ⟨r, mem, here⟩)

/-- A call of the gateway's in the public output was recorded too. -/
theorem Through.twice {item : OutputItem} {call : FunctionToolCall} (h : Through services start s combined_output rounds)
    (mem : item ∈ combined_output) (owned : gatewayCall start.registry item = some call) :
    call.call_id ∈ (rounds.map (·.output)).flatMap (gatewayIds start.registry) ∧ call.call_id ∈ publicCalls false rounds := by
  rw [h.output] at mem
  rcases List.mem_append.1 mem with listed | shown
  · obtain ⟨list, -, rfl⟩ := List.mem_map.1 listed
    cases owned
  · obtain ⟨r, among, here⟩ := List.mem_flatMap.1 shown
    have executed := h.executed r among
    rw [List.flatMap_map]
    refine ⟨List.mem_flatMap.2 ⟨r, among, ?_⟩, List.mem_flatMap.2 ⟨r, among, ?_⟩⟩
    · exact gatewayCall_public executed.shows executed.made here owned
    · exact List.mem_filterMap.2 ⟨item, here, (requires_of_gateway owned).2⟩

/-- What the turn saves is read under the book of the history before it, when no call is saved twice. -/
theorem Through.reads {b : CallBook} {in_place : Bool} (h : Through services start s combined_output rounds)
    (sound : b.Sound) (named : ∀ id ∈ (rounds.map (·.output)).flatMap callsOf, id ≠ [])
    (fresh : ∀ id ∈ (rounds.map (·.output)).flatMap callsOf, id ∉ b.seen)
    (apart : ((rounds.map (·.output)).flatMap callsOf).Nodup)
    (shown : in_place = true ∨ ∀ item ∈ combined_output, gatewayCall start.registry item = none) :
    ∃ seen, b.run ValidCallId
      ((rounds.map (·.callRound in_place start.registry)).flatMap (CallRound.entries .function) ++
        (publicCalls in_place rounds).map (Entry.call · .function)) =
      some ⟨seen, b.pending ++ ((rounds.map (·.output)).flatMap (clientIds start.registry)).map (·, .function)⟩ := by
  rw [Book.run_append, run_callRounds sound named fresh apart, Option.bind_some]
  cases in_place with
  | true => exact ⟨_, rfl⟩
  | false =>
    have parts := @callsOf_flatMap_perm start.registry (rounds.map (·.output))
    obtain ⟨-, clients_apart, differ⟩ := List.nodup_append.1 (parts.nodup_iff.1 apart)
    rw [h.publicCalls_eq (shown.resolve_left Bool.false_ne_true), if_neg Bool.false_ne_true, List.map_nil, List.append_nil]
    rw [Book.run_calls _ _ clients_apart]
    · exact ⟨_, rfl⟩
    · exact fun id mem => named id (parts.mem_iff.2 (List.mem_append_right _ mem))
    · intro id mem seen
      rcases List.mem_append.1 seen with here | old
      · rw [List.flatMap_map] at here
        refine differ id ?_ id mem rfl
        rw [List.flatMap_map]
        exact List.mem_reverse.1 here
      · exact fresh id (parts.mem_iff.2 (List.mem_append_right _ mem)) old

/-- A turn that saves a call twice leaves a history that cannot be read. -/
theorem Through.unreadable {b b' : CallBook} {item : OutputItem} {call : FunctionToolCall}
    (h : Through services start s combined_output rounds) (mem : item ∈ combined_output)
    (owned : gatewayCall start.registry item = some call)
    (read : b.run ValidCallId
      ((rounds.map (·.callRound false start.registry)).flatMap (CallRound.entries .function) ++
        (publicCalls false rounds).map (Entry.call · .function)) = some b') : False := by
  obtain ⟨m, first, rest⟩ := Book.run_append_eq_some.1 read
  obtain ⟨recorded, shown⟩ := h.twice mem owned
  rw [← @callIds_calls _ CallKind (publicCalls false rounds) .function] at shown
  refine Book.run_fresh rest call.call_id shown ?_
  rw [Book.run_seen first]
  refine List.mem_append_left _ (List.mem_reverse.2 ?_)
  rw [List.flatMap_map] at recorded
  obtain ⟨r, among, here⟩ := List.mem_flatMap.1 recorded
  refine mem_callIds.2 ⟨.function, List.mem_flatMap.2 ⟨_, List.mem_map_of_mem among, ?_⟩⟩
  exact List.mem_append_left _ (List.mem_map_of_mem here)

/-- The calls of the rounds, one round after the other. -/
theorem callIds_flatMap {rounds : List (CallRound Text)} :
    callIds (rounds.flatMap (CallRound.entries CallKind.function)) = rounds.flatMap CallRound.calls := by
  unfold callIds
  rw [List.filterMap_flatMap]
  refine List.flatMap_congr fun round _ => ?_
  have calls := @callIds_append _ _ (round.calls.map (Entry.call · CallKind.function))
    (round.answers.map (Entry.answer · .function))
  rw [callIds_calls, callIds_answers, List.append_nil] at calls
  exact calls

/-- The answers of the rounds, one round after the other. -/
theorem answerIds_flatMap {rounds : List (CallRound Text)} :
    answerIds (rounds.flatMap (CallRound.entries CallKind.function)) = rounds.flatMap CallRound.answers := by
  unfold answerIds
  rw [List.filterMap_flatMap]
  refine List.flatMap_congr fun round _ => ?_
  have answers := @answerIds_append _ _ (round.calls.map (Entry.call · CallKind.function))
    (round.answers.map (Entry.answer · .function))
  rw [answerIds_calls, answerIds_answers, List.nil_append] at answers
  exact answers

section
variable {r : RoundOutput} {history : List InputItem} {waiting calls : List PendingCall}

/-- The ledger of the history with what a turn saves. -/
theorem Through.ledger_history (h : Through services start s combined_output (rounds ++ [r]))
    (fresh : ∀ lease, start.request.continuation = some lease → lease.recorded_output_count = 0) :
    ledger (history ++ intoInputItems (s.request.savedItems combined_output)) =
      ledger (history ++ intoInputItems (start.request.new_input_items.map .input)) ++
      (((rounds ++ [r]).map (·.callRound start.request.recordsInPlace start.registry)).flatMap (CallRound.entries .function) ++
        (publicCalls start.request.recordsInPlace (rounds ++ [r])).map (Entry.call · .function)) := by
  rw [ledger_append, ledger_append, h.ledger_saved fresh, List.append_assoc, List.append_assoc]

/-- Every call is saved once, and every call of the gateway's is answered. -/
theorem Through.continuable (h : Through services start s combined_output (rounds ++ [r]))
    (idle : ∀ r ∈ rounds, clientIds start.registry r.output = [])
    (fresh : ∀ lease, start.request.continuation = some lease → lease.recorded_output_count = 0)
    (shown : start.request.recordsInPlace = true ∨ ∀ item ∈ combined_output, gatewayCall start.registry item = none) :
    Continuable start.registry ((rounds ++ [r]).map (·.output))
      (intoInputItems (start.request.new_input_items.map .input))
      (intoInputItems (s.request.savedItems combined_output)) waiting
      (waiting ++ (((rounds ++ [r]).map (·.output)).flatMap (clientIds start.registry)).map PendingCall.mk) where
  called := by
    rw [h.ledger_saved fresh, callIds_append, callIds_append, callIds_flatMap, callIds_calls, List.append_assoc]
    refine List.Perm.append_left _ ?_
    rcases Bool.eq_false_or_eq_true start.request.recordsInPlace with in_place | apart
    · rw [in_place, List.flatMap_map, List.flatMap_map]
      exact List.Perm.of_eq (List.append_nil _)
    · rw [apart, h.publicCalls_eq (shown.resolve_left (by simp [apart]))]
      rw [List.flatMap_map]
      have parts := @callsOf_flatMap_perm start.registry ((rounds ++ [r]).map (·.output))
      rw [@List.flatMap_map _ _ _ _ (gatewayIds start.registry)] at parts
      exact parts.symm
  answered := by
    rw [h.ledger_saved fresh, answerIds_append, answerIds_append, answerIds_flatMap, answerIds_calls, List.append_nil,
      List.flatMap_map, List.flatMap_map]
    rfl
  left := by
    refine ⟨rounds.map (·.output), r.output, by simp, ?_, ?_⟩
    · intro items mem
      obtain ⟨r, among, rfl⟩ := List.mem_map.1 mem
      exact idle r among
    · have none_left : (rounds.map (·.output)).flatMap (clientIds start.registry) = [] := by
        rw [List.flatMap_map, List.flatMap_eq_nil_iff]
        exact idle
      rw [List.map_append, List.flatMap_append, none_left, List.nil_append, List.map_singleton, List.flatMap_singleton]

/-- What a turn saves can be read after the history before it exactly when no call is saved twice. -/
theorem Through.readable_iff (h : Through services start s combined_output (rounds ++ [r]))
    (fresh : ∀ lease, start.request.continuation = some lease → lease.recorded_output_count = 0)
    (ready : pendingCalls (history ++ intoInputItems (start.request.new_input_items.map .input)) = .ok waiting)
    (named : ∀ id ∈ ((rounds ++ [r]).map (·.output)).flatMap callsOf, id ≠ [])
    (apart : (callIds (ledger (history ++ intoInputItems (start.request.new_input_items.map .input))) ++
      ((rounds ++ [r]).map (·.output)).flatMap callsOf).Nodup) :
    pendingCalls (history ++ intoInputItems (s.request.savedItems combined_output)) = .ok calls ↔
      (start.request.recordsInPlace = true ∨ ∀ item ∈ combined_output, gatewayCall start.registry item = none) ∧
      calls = waiting ++ (((rounds ++ [r]).map (·.output)).flatMap (clientIds start.registry)).map PendingCall.mk := by
  obtain ⟨b, first, rfl⟩ := pendingCalls_eq_ok_iff.1 ready
  obtain ⟨-, apart, differ⟩ := List.nodup_append.1 apart
  have unseen : ∀ id ∈ ((rounds ++ [r]).map (·.output)).flatMap callsOf, id ∉ b.seen := by
    intro id mem seen
    rw [Book.run_seen first] at seen
    simp only [Book.empty, List.append_nil, List.mem_reverse] at seen
    exact differ id seen id mem rfl
  have reads := @Through.reads _ _ _ _ _ _ start.request.recordsInPlace h (Book.sound_empty.run first) named unseen apart
  have opened : ∀ (pending : List (Text × CallKind)) (ids : List Text),
      (pending ++ ids.map (·, CallKind.function)).map (fun p => PendingCall.mk p.1) =
        pending.map (fun p => ⟨p.1⟩) ++ ids.map PendingCall.mk := by
    intro pending ids
    rw [List.map_append, List.map_map]
    rfl
  rw [pendingCalls_eq_ok_iff, h.ledger_history fresh, Book.run_append, first, Option.bind_some]
  constructor
  · rintro ⟨b', read, rfl⟩
    have shown : start.request.recordsInPlace = true ∨
        ∀ item ∈ combined_output, gatewayCall start.registry item = none := by
      rcases Bool.eq_false_or_eq_true start.request.recordsInPlace with in_place | elsewhere
      · exact .inl in_place
      · refine .inr fun item mem => Option.eq_none_iff_forall_ne_some.2 fun call owned => ?_
        rw [elsewhere] at read
        exact h.unreadable mem owned read
    obtain ⟨seen, closed⟩ := reads shown
    cases closed.symm.trans read
    exact ⟨shown, opened ..⟩
  · rintro ⟨shown, rfl⟩
    obtain ⟨seen, closed⟩ := reads shown
    exact ⟨_, closed, opened ..⟩

end

/-- **The turn a run leaves can be continued** exactly when the rounds are recorded in their place or the public output
shows no call of the gateway's. Then every call is saved once, every call of the gateway's with its output, and what is
open is what was open before and what the last answer leaves to the client. -/
theorem turn_continuable {payload : ResponsePayload} {history : List InputItem} {waiting : List PendingCall}
    (handlers : HandlersShowNoCall start.registry)
    (fresh : ∀ lease, start.request.continuation = some lease → lease.recorded_output_count = 0)
    (ran : run services stream_upstream { start with sent := [] } = .ok (some payload) s')
    (uncompacted : ∀ request ∈ s'.sent, request.purpose = .inference)
    (whole : isFailedStatus payload.status = false)
    (ready : pendingCalls (history ++ intoInputItems (start.request.new_input_items.map .input)) = .ok waiting)
    (named : ∀ id ∈ (answeredOutputs services s'.sent.length).flatMap callsOf, id ≠ [])
    (apart : (callIds (ledger (history ++ intoInputItems (start.request.new_input_items.map .input))) ++
      (answeredOutputs services s'.sent.length).flatMap callsOf).Nodup) :
    let saved := intoInputItems (s'.request.savedItems payload.output)
    ((∃ calls, pendingCalls (history ++ saved) = .ok calls) ↔
      start.request.recordsInPlace = true ∨ ∀ item ∈ payload.output, gatewayCall start.registry item = none) ∧
    ∀ calls, pendingCalls (history ++ saved) = .ok calls →
      Continuable start.registry (answeredOutputs services s'.sent.length)
        (intoInputItems (start.request.new_input_items.map .input)) saved waiting calls := by
  obtain ⟨round, output, usage, m, _, same, reached, played⟩ := run_ok ran
  cases same
  have played := runRound_ok played
  obtain ⟨rounds, before, idle⟩ :=
    reached.through handlers fun request mem => uncompacted request (played.sends.subset mem)
  obtain ⟨r, through, -⟩ := played.through handlers before uncompacted fun response same => by
    cases same
    exact whole
  rw [← through.answers] at named apart ⊢
  have readable := fun calls => @Through.readable_iff _ _ _ _ _ _ _ _ calls through fresh ready named apart
  refine ⟨⟨?_, fun shown => ⟨_, (readable _).2 ⟨shown, rfl⟩⟩⟩, ?_⟩
  · rintro ⟨calls, read⟩
    exact ((readable calls).1 read).1
  · intro calls read
    obtain ⟨shown, rfl⟩ := (readable calls).1 read
    exact through.continuable idle fresh shown

end

/-- The gateway's search of the web, of which the provider always finds something. -/
def searchBinding : GatewayBinding :=
  Tools.WebSearchHandler.binding ⟨fun _ => none, fun _ => []⟩ (fun call => utf8 "ws_" ++ call.call_id) fun _ _ _ => .ok "found"

/-- The model searches and says so, and then calls a function of the client's. -/
def searchServices : Services where
  serde := ⟨fun _ => none, fun _ => []⟩
  values := ⟨fun _ => .null, fun _ => .null⟩
  toolsResolved _ := .ok ()
  namespaces := none
  estimateInputTokens _ := 0
  uuid7 _ _ := []
  upstream n :=
    { lines := []
      body_bytes := 0
      result := .ok
        { id := [], model := [], status := "completed"
          output := if n = 0 then
            [.message ⟨"msg_1", "assistant", .completed, []⟩,
              .functionCall ⟨"fc_1", "call_1", "web_search", none, "\x7b\"query\":\"rust\"\x7d", .completed⟩]
            else [.functionCall ⟨"fc_2", "call_2", "read", none, "\x7b\x7d", .completed⟩]
          usage := none, incomplete_details := none, error := none, previous_response_id := none
          conversation_id := none, instructions := none } }

/-- A turn that is stored without a session; its search has a handler or none. -/
def searchTurn (binding : Option GatewayBinding) : State :=
  { streamingTurn with
    request := { streamingTurn.request with new_input_items := (ResponsesInput.text "hello").toItems }
    delivery := .new none
    registry := ⟨[(utf8 "web_search", ⟨.webSearch, .gateway binding, rfl⟩)], []⟩ }

/-- The turn that searches. -/
def searchRun (binding : Option GatewayBinding) : Option (ResponsePayload × State) :=
  match run searchServices false (searchTurn binding) with
  | .ok (some payload) s => some (payload, s)
  | _ => none

/-- The turn that is run is a turn of the engine. -/
theorem searchRun_eq_some {binding : Option GatewayBinding} {payload : ResponsePayload} {s : State}
    (h : searchRun binding = some (payload, s)) : run searchServices false (searchTurn binding) = .ok (some payload) s := by
  unfold searchRun at h
  split at h
  · rename_i ran
    cases h
    exact ran
  · cases h

/-- The calls open after the turn. -/
def searchOpen (binding : Option GatewayBinding) : Option (List PendingCall) :=
  (searchRun binding).bind fun (payload, s) => (pendingCalls (intoInputItems (s.request.savedItems payload.output))).toOption

/-- The tool of the turn shows no call. -/
theorem searchBinding_shows : HandlersShowNoCall (searchTurn (some searchBinding)).registry := by
  apply handlersShowNoCall_of_handled
  intro name entry binding found owner
  unfold ToolRegistry.lookup searchTurn at found
  simp only [List.lookup_cons, List.lookup_nil] at found
  split at found
  · cases found
    cases owner
    exact .webSearch _ _ _
  · cases found

/-- A turn that searched is continued with its call settled. -/
theorem turn_continuable_search : ∃ payload s', run searchServices false (searchTurn (some searchBinding)) = .ok (some payload) s' ∧
    ∃ calls, pendingCalls ([] ++ intoInputItems (s'.request.savedItems payload.output)) = .ok calls ∧
      Continuable (searchTurn (some searchBinding)).registry (answeredOutputs searchServices s'.sent.length)
        (ResponsesInput.text "hello").toItems (intoInputItems (s'.request.savedItems payload.output)) [] calls := by
  have ends : (searchRun (some searchBinding)).map (fun ran =>
      (ran.2.sent.map (·.purpose), ran.1.status, ran.1.output.map (gatewayCall (searchTurn (some searchBinding)).registry))) =
      some ([.inference, .inference], utf8 "completed", [none, none, none]) := by decide +kernel
  obtain ⟨⟨payload, s⟩, ran, known⟩ := Option.map_eq_some_iff.1 ends
  simp only [Prod.mk.injEq] at known
  obtain ⟨purposes, status, shown⟩ := known
  have ran := searchRun_eq_some ran
  have two : s.sent.length = 2 := by
    rw [← List.length_map (·.purpose), purposes]
    rfl
  have ids : (answeredOutputs searchServices s.sent.length).flatMap callsOf = ["call_1", "call_2"] := by
    rw [two]
    decide +kernel
  have uncompacted : ∀ request ∈ s.sent, request.purpose = .inference := by
    intro request mem
    have among : request.purpose ∈ s.sent.map (·.purpose) := List.mem_map_of_mem mem
    rw [purposes] at among
    simpa using among
  have public_ : ∀ item ∈ payload.output, gatewayCall (searchTurn (some searchBinding)).registry item = none := by
    intro item mem
    have among : gatewayCall (searchTurn (some searchBinding)).registry item ∈ payload.output.map _ := List.mem_map_of_mem mem
    rw [shown] at among
    simpa using among
  obtain ⟨readable, continuable⟩ := @turn_continuable searchServices false (searchTurn (some searchBinding)) s payload [] []
    searchBinding_shows (fun _ leased => absurd leased (Option.some_ne_none _).symm) ran uncompacted
    (by rw [status]; decide +kernel) rfl (by rw [ids]; decide) (by rw [ids]; decide)
  obtain ⟨calls, read⟩ := readable.2 (.inr public_)
  exact ⟨payload, s, ran, calls, read, continuable calls read⟩

/-- Without a handler the call is saved twice. -/
example : searchOpen (some searchBinding) = some [⟨"call_2"⟩] ∧ searchOpen none = none := by decide +kernel

end AgenticStack.Engine
