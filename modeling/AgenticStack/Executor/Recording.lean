import AgenticStack.Executor.Continuation
import AgenticStack.Executor.Rounds
import AgenticStack.Storage.ResponseStore

/-!
# Recording a turn

A finished turn is written to the store, and its checkpoint is made for the
session. What the turn has recorded as input already is not stored again as
output; the child of a parent that was never stored takes a copy of it along.
-/

namespace AgenticStack
set_option autoImplicit false
open Library

namespace Engine

/-- The outputs that are still to be stored. -/
def retainedOutputs (continuation : Option ResponseContinuation) (output_items : List OutputItem) : List OutputItem :=
  (output_items.zipIdx.filter fun (item, index) => continuation.all fun lease => lease.retainsOutput index item).map
    Prod.fst

/-- What a turn stores as its own. -/
def RequestContext.savedItems (ctx : RequestContext) (output_items : List OutputItem) : List InOutItem :=
  ctx.new_input_items.map .input ++ (retainedOutputs ctx.continuation output_items).map .output

/-- `parent_items`, of the checkpoint the lease holds. -/
def ResponseContinuation.parentItems (lease : ResponseContinuation) (parent : Option ResponseCheckpoint) :
    List InputItem :=
  (parent.elim [] (·.history)).filter fun item => !lease.history_replaced || item.isMcpListTools

/-- The checkpoint of a turn. -/
def ResponseContinuation.checkpoint (lease : ResponseContinuation) (parent : Option ResponseCheckpoint)
    (response_id : Text) (conversation_id : Option Text) (metadata : ResponseMetadata) (new_items : List InOutItem)
    (durable : Bool) : ResponseCheckpoint :=
  { response_id, conversation_id, durable
    history := canonicalSessionHistory (lease.parentItems parent ++ intoInputItems new_items)
    metadata := { metadata with
      effective_tools := metadata.effective_tools.map (·.map ResponsesTool.sanitizeForPersistence) } }

/-- What the lease of a session's turn tells of its run. -/
def turnLease (lease : AgenticStack.ResponseContinuation) (parent : Option ResponseCheckpoint) :
    ResponseContinuation :=
  ⟨parent.map (·.history), lease.history_replaced, lease.recorded_output_count⟩

/-- The checkpoint that a session prepares is this one, of the parent its lease pins. -/
theorem checkpoint_prepared {serializedSize : ResponseCheckpoint → Nat} {w w' : World}
    {lease : AgenticStack.ResponseContinuation} {response_id : Text} {conversation_id : Option Text}
    {metadata : ResponseMetadata} {new_items : List InOutItem} {durable : Bool}
    (h : w.checkpoint serializedSize lease response_id conversation_id metadata new_items durable = .ok w') :
    let parent := lease.parent.bind w.checkpoints.value
    w'.checkpoints.value w.checkpoints.cells.length =
      some ((turnLease lease parent).checkpoint parent response_id conversation_id metadata new_items durable) := by
  intro parent
  have items : (turnLease lease parent).parentItems parent = w.parentItems lease := by
    unfold ResponseContinuation.parentItems World.parentItems World.parentHistory
    show List.filter _ ((lease.parent.bind w.checkpoints.value).elim [] _) = _
    cases lease.parent.bind w.checkpoints.value <;> rfl
  unfold World.checkpoint at h
  dsimp only at h
  rw [← items] at h
  cases found : w.sessions[lease.session]? with
  | none =>
    rw [found] at h
    cases h
  | some session =>
    rw [found] at h
    dsimp only at h
    split at h
    · cases h
    · obtain ⟨kept, retained, h⟩ := bind_eq_ok.1 h
      cases h
      unfold World.retain at retained
      split at retained
      · obtain ⟨_, -, retained⟩ := bind_eq_ok.1 retained
        cases retained
        exact Arena.value_alloc_self
      · cases retained
        exact Arena.value_alloc_self

/-- A turn is written durably without a session, or when the client asked for it. -/
def RequestContext.writeDurable (ctx : RequestContext) : Bool := ctx.continuation.isNone || ctx.original_request.store

/-- The lease holds a parent that was never stored. -/
def transientParent (continuation : Option ResponseContinuation) (parent : Option ResponseCheckpoint) : Bool :=
  continuation.isSome && parent.any fun parent => !parent.durable

/-- The items a durable turn writes. -/
def RequestContext.writtenItems (ctx : RequestContext) (parent : Option ResponseCheckpoint)
    (output_items : List OutputItem) : List InOutItem :=
  match ctx.continuation with
  | some lease =>
    if transientParent ctx.continuation parent then
      (lease.parentItems parent).map .input ++ ctx.savedItems output_items
    else ctx.savedItems output_items
  | none => ctx.savedItems output_items

/-- The stored response that a response is written to continue. -/
def previousDurableId (continuation : Option ResponseContinuation) (parent : Option ResponseCheckpoint)
    (metadata : ResponseMetadata) : Option Text :=
  if transientParent continuation parent then none else metadata.previous_response_id

/-- What a failed write is reported as. -/
def storageFailure (response_id : Text) : StorageError → ExecutorError
  | .uniqueViolation => .conflict (utf8 "a turn is already stored under '" ++ response_id ++ utf8 "'")
  | .notFound resource_type id =>
    .storage (utf8 "not found: " ++ resource_type ++ utf8 " with id '" ++ id ++ utf8 "'") true
  | .database message => .storage (utf8 "database error: " ++ message) false
  | .notConfigured => .storage "storage not configured or disabled" false
  | .serialization message => .storage (utf8 "serialization error: " ++ message) false

/-- `execute_turn_with_metadata`: the store after the turn, and the checkpoint to be published. `retain` takes the
budgets of the session. -/
def executeTurnWithMetadata {Row : Type} (codec : ItemCodec Row) (retain : ResponseCheckpoint → ExecutorResult Unit)
    (store : ResponseStore Row) (ctx : RequestContext) (parent : Option ResponseCheckpoint)
    (output_items : List OutputItem) (metadata : ResponseMetadata) :
    ExecutorResult (ResponseStore Row × Option ResponseCheckpoint) := do
  let checkpoint := ctx.continuation.map fun lease => lease.checkpoint parent ctx.response_id ctx.conversation_id metadata
    (ctx.savedItems output_items) ctx.writeDurable
  checkpoint.elim (.ok ()) retain
  if ctx.writeDurable then
    match store.persistWithConversationId codec ctx.response_id ctx.conversation_id
      (previousDurableId ctx.continuation parent metadata) (ctx.writtenItems parent output_items) metadata with
    | .error e => throw (storageFailure ctx.response_id e)
    | .ok store => return (store, checkpoint)
  else return (store, checkpoint)

/-- A turn keeps its request; and where its history was replaced, the compaction that replaced it is to be stored. -/
structure RequestContext.Follows (start ctx : RequestContext) : Prop where
  original_request : ctx.original_request = start.original_request
  replaced : ∀ lease, ctx.continuation = some lease → lease.history_replaced = true →
    ∃ item ∈ ctx.new_input_items, item.isCompaction = true

section
variable {services : Services} {stream_upstream : Bool} {round output_offset : Nat} {first ctx : RequestContext}
  {start s s' : State} {combined_output output : List OutputItem} {combined_usage usage : Option ResponseUsage}
  {items : List InputItem} {payload : ResponsePayload} {roundEnd : RoundEnd}

/-- New items follow the items that were there. -/
theorem Follows.append (h : first.Follows ctx) {new : List InputItem} :
    first.Follows { ctx with new_input_items := ctx.new_input_items ++ new } := by
  refine ⟨h.original_request, fun lease leased replaced => ?_⟩
  obtain ⟨item, mem, compaction⟩ := h.replaced lease leased replaced
  exact ⟨item, List.mem_append_left _ mem, compaction⟩

/-- Another input follows the items that were there. -/
theorem Follows.input (h : first.Follows ctx) {request : RequestPayload} :
    first.Follows { ctx with enriched_request := request } := ⟨h.original_request, h.replaced⟩

/-- What a round said follows the items that were there. -/
theorem Follows.record {registry : ToolRegistry} {count : Nat} (h : first.Follows ctx) :
    first.Follows (recordRoundHistory ctx output registry count) := by
  unfold recordRoundHistory
  split
  · rename_i continuation leased _
    refine ⟨h.original_request, fun lease same replaced => ?_⟩
    cases same
    obtain ⟨item, mem, compaction⟩ := h.replaced continuation leased replaced
    exact ⟨item, List.mem_append_left _ mem, compaction⟩
  · exact Follows.append h

/-- The answers follow the items that were there. -/
theorem Follows.outputs {tool_outputs : List InputItem} (h : first.Follows ctx) :
    first.Follows (appendToolOutputs ctx tool_outputs) :=
  Follows.append (Follows.input h)

/-- The end of a round follows the items that were there. -/
theorem Ends.follows {registry : ToolRegistry} {results : List GatewayCallResult} {ctx' : RequestContext}
    (h : Ends registry round payload output results ctx combined_output combined_usage roundEnd ctx')
    (before : first.Follows ctx) : first.Follows ctx' := by
  cases h with
  | incomplete status => exact Follows.outputs before
  | requiresClientAction status owned => exact Follows.outputs before
  | done status owned none => exact before
  | exhausted status owned some last => exact Follows.outputs before
  | «continue» status owned some more => exact Follows.outputs (Follows.input before)

/-- A compaction makes a checkpoint of its window. -/
theorem Compacts.made {m : State} {model : Text} {input : ResponsesInput} {instructions : Option Text}
    {spent : ResponseUsage} (h : Compacts services model input instructions s items spent m) :
    ∃ window compaction, items = window ++ [.compaction compaction] := by
  obtain ⟨response, summary, -, -, made⟩ := h.answer
  exact ⟨_, _, made⟩

/-- What is compacted follows the items that were there. -/
theorem Follows.compaction (before : first.Follows s.request) (h : maybeCompactContext services s = .ok usage s') :
    first.Follows s'.request := by
  rcases maybeCompactContext_ok h with ⟨-, same⟩ | ⟨items, spent, m, -, ran, same⟩
  · rw [same]
    exact before
  · obtain ⟨body, -, sent⟩ := ran.sent
    obtain ⟨window, compaction, made⟩ := ran.made
    subst same sent made
    exact ⟨before.original_request, fun _ _ _ => ⟨_, List.mem_append_right _ (List.mem_singleton_self _), rfl⟩⟩

/-- A round follows the items that were there. -/
theorem Round.follows (h : Round services stream_upstream round combined_output combined_usage s roundEnd s')
    (before : first.Follows s.request) : first.Follows s'.request := by
  obtain ⟨compaction, preparation, answer, settled⟩ := h
  rename_i compacted prepared answered _ _
  have after_compaction := Follows.compaction before compaction
  have after_preparation : first.Follows prepared.request := by
    rcases prepareInitialReasoning_ok preparation with ⟨-, -, -, same⟩ | ⟨-, same⟩
    · rw [same]
      exact Follows.input after_compaction
    · rw [same]
      exact after_compaction
  have after_answer : first.Follows answered.request := by
    rw [(fetchPayload_ok answer).1.request]
    exact after_preparation
  cases settled with
  | failed status => exact after_answer
  | executed status ran shown ends =>
    apply Ends.follows ends
    apply Follows.record
    rw [(executeRoundOutput_ok ran).1.request]
    exact after_answer

/-- By every round the items follow those that were there. -/
theorem Reaches.follows (h : Reaches services stream_upstream start round combined_output combined_usage s)
    (before : first.Follows start.request) : first.Follows s.request := by
  induction h with
  | first => exact before
  | next earlier played ih => exact (runRound_ok played).follows ih

/-- A stored item that is lowered is one of the items that are read. -/
theorem mem_intoInputItems {saved : List InOutItem} {stored : InOutItem} {item lowered : InputItem} (mem : stored ∈ saved)
    (history : stored.toHistory = some item) (lowers : item.lower = some lowered) :
    lowered ∈ intoInputItems saved :=
  List.mem_filterMap.2 ⟨item, List.mem_filterMap.2 ⟨stored, mem, history⟩, lowers⟩

/-- The compaction that replaced the history is stored. -/
def StoresCompaction (ctx : RequestContext) (output_items : List OutputItem) : Prop :=
  ∀ lease, ctx.continuation = some lease → lease.history_replaced = true →
    ∃ item ∈ intoInputItems (ctx.savedItems output_items), item.isCompaction = true

/-- A turn that follows stores the checkpoint of its history. -/
theorem Follows.stores (h : first.Follows ctx) : StoresCompaction ctx output := by
  intro lease leased replaced
  obtain ⟨item, mem, compaction⟩ := h.replaced lease leased replaced
  cases item with
  | compaction c =>
    exact ⟨_, mem_intoInputItems (List.mem_append_left _ (List.mem_map_of_mem mem)) rfl rfl, rfl⟩
  | _ => cases compaction

/-- A requested compaction ends with its checkpoint. -/
theorem runCompactionTrigger_ok (h : runCompactionTrigger services s = .ok payload s') :
    ∃ window compaction body, payload.output = [.compaction compaction] ∧
      s' = { s with
        sent := s.sent ++ [⟨.summarization, body⟩]
        request := { s.request.setInput (.items []) with
          new_input_items := window
          continuation := s.request.continuation.map ResponseContinuation.markHistoryReplaced } } := by
  unfold runCompactionTrigger at h
  obtain ⟨_, _, read, h⟩ := bind_ok.1 h
  cases read
  obtain ⟨⟨items, spent⟩, m, ran, h⟩ := bind_ok.1 h
  obtain ⟨_, _, replaced, h⟩ := bind_ok.1 h
  have replaced := onRequest_ok replaced
  have ran := compactItems_ok ran
  obtain ⟨window, compaction, made⟩ := ran.made
  obtain ⟨body, -, sent⟩ := ran.sent
  subst made sent replaced
  obtain ⟨same, last⟩ := pure_ok.1 h
  subst same last
  refine ⟨window, compaction, body, ?_, ?_⟩
  · simp [RequestContext.injectIds]
  · simp

/-- **A turn keeps its request**, and stores the compaction that replaced its history. -/
theorem turn_records {lease : ResponseContinuation} (leased : start.request.continuation = some lease)
    (fresh : lease.history_replaced = false ∧ lease.recorded_output_count = 0)
    (ran : runUntilGatewayToolsComplete services stream_upstream start = .ok (some payload) s') :
    s'.request.original_request = start.request.original_request ∧ StoresCompaction s'.request payload.output := by
  unfold runUntilGatewayToolsComplete at ran
  obtain ⟨_, _, read, ran⟩ := bind_ok.1 ran
  cases read
  split at ran
  · obtain ⟨_, m, triggered, ran⟩ := bind_ok.1 ran
    obtain ⟨_, m', shown, ran⟩ := bind_ok.1 ran
    obtain ⟨same, last⟩ := pure_ok.1 ran
    cases same
    subst last
    obtain ⟨window, compaction, body, output, made⟩ := runCompactionTrigger_ok triggered
    have request := (onStream_same shown).1.request
    rw [request, made, output]
    refine ⟨rfl, fun lease' leased' replaced => ?_⟩
    have stored : InOutItem.output (.compaction compaction) ∈ RequestContext.savedItems
        { start.request.setInput (.items []) with
          new_input_items := window
          continuation := start.request.continuation.map ResponseContinuation.markHistoryReplaced }
        [.compaction compaction] := by
      apply List.mem_append_right
      rw [leased]
      simp [retainedOutputs, ResponseContinuation.retainsOutput, ResponseContinuation.markHistoryReplaced, fresh.2]
    exact ⟨.compaction compaction, mem_intoInputItems stored rfl rfl, rfl⟩
  · obtain ⟨round, output, usage, m, _, same, reached, played⟩ := run_ok ran
    cases same
    have before : start.request.Follows start.request := by
      refine ⟨rfl, fun lease' leased' replaced => ?_⟩
      rw [leased] at leased'
      cases leased'
      exact absurd (fresh.1.symm.trans replaced) Bool.false_ne_true
    have follows := (runRound_ok played).follows (reached.follows before)
    exact ⟨follows.original_request, Follows.stores follows⟩

end
end Engine
end AgenticStack
