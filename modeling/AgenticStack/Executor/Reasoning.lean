import AgenticStack.Executor.GatewayLoop

/-!
# Reasoning in requests

Reasoning goes back to the model only as plaintext. The history of a run is
prepared so before its first round; what the model itself says in a run goes
back as it was said, and what is summarised goes as it is.
-/

namespace AgenticStack
set_option autoImplicit false
open Library

namespace Engine

/-- A reasoning item as it is sent: all its plaintext in one part, and nothing else of what was thought. -/
structure PreparedFrom (reasoning prepared : ReasoningOutput) : Prop where
  id : prepared.id = reasoning.id
  plaintext : hasPlaintextReasoning reasoning = true
  content : prepared.content = [ReasoningTextContent.new (joinLines (reasoning.content.map (·.text)))]
  summary : prepared.summary = []
  encrypted_content : prepared.encrypted_content = none
  status : prepared.status = reasoning.status

/-- What becomes of an item that is kept. -/
def Kept (item prepared : InputItem) : Prop :=
  match item with
  | .reasoning reasoning => ∃ r, prepared = .reasoning r ∧ PreparedFrom reasoning r
  | other => prepared = other

/-- Reasoning without plaintext is left out. -/
def isReplayable : InputItem → Bool
  | .reasoning reasoning => hasPlaintextReasoning reasoning
  | _ => true

/-- The reasoning in an input. -/
def reasonings (input : ResponsesInput) : List ReasoningOutput :=
  input.entries.filterMap fun
    | .reasoning reasoning => some reasoning
    | _ => none

section
variable {item prepared : InputItem} {items : List InputItem} {input : ResponsesInput} {lines : List Text}
  {reasoning r : ReasoningOutput} {e : ExecutorError}

/-- The reasoning of an input are its reasoning items. -/
theorem mem_reasonings : reasoning ∈ reasonings input ↔ .reasoning reasoning ∈ input.entries := by
  unfold reasonings
  rw [List.mem_filterMap]
  constructor
  · rintro ⟨item, mem, found⟩
    cases item <;> simp only [Option.some.injEq, reduceCtorEq] at found
    rwa [← found]
  · intro mem
    exact ⟨_, mem, rfl⟩

/-- Lines of which one is not empty are not empty. -/
theorem joinLines_ne_nil (h : ∃ line ∈ lines, line ≠ []) : joinLines lines ≠ [] := by
  obtain ⟨line, mem, some⟩ := h
  match lines with
  | [] => cases mem
  | [only] =>
    rw [List.mem_singleton.1 mem] at some
    exact some
  | first :: second :: rest =>
    unfold joinLines
    intro none
    have newline := (List.append_eq_nil_iff.1 (List.append_eq_nil_iff.1 none).1).2
    exact absurd newline (by decide)

/-- Reasoning with a text is joined to a text. -/
theorem joinLines_plaintext (h : hasPlaintextReasoning reasoning = true) :
    joinLines (reasoning.content.map (·.text)) ≠ [] := by
  obtain ⟨part, mem, some⟩ := List.any_eq_true.1 h
  exact joinLines_ne_nil ⟨part.text, List.mem_map_of_mem mem, of_decide_eq_true some⟩

/-- An item that is prepared is kept. -/
theorem prepareReasoningItem_kept (h : prepareReasoningItem item = some prepared) : Kept item prepared := by
  cases item with
  | reasoning reasoning =>
    dsimp only [prepareReasoningItem] at h
    split at h
    · rename_i plaintext
      cases h
      exact ⟨_, rfl, ⟨rfl, plaintext, rfl, rfl, rfl, rfl⟩⟩
    · cases h
  | _ =>
    cases h
    rfl

/-- An item is left out where the model cannot read it. -/
theorem prepareReasoningItem_none : prepareReasoningItem item = none ↔ isReplayable item = false := by
  cases item with
  | reasoning reasoning =>
    dsimp only [prepareReasoningItem, isReplayable]
    split
    · rename_i plaintext
      simp [plaintext]
    · rename_i empty
      simp [empty]
  | _ => simp [prepareReasoningItem, isReplayable]

/-- Of the items that stay, each stays as it is or is prepared, in its place. -/
theorem kept_filterMap : List.Forall₂ Kept (items.filter isReplayable) (items.filterMap prepareReasoningItem) := by
  induction items with
  | nil => exact .nil
  | cons item items ih =>
    cases made : prepareReasoningItem item with
    | none =>
      rw [List.filterMap_cons_none made, List.filter_cons_of_neg (by simp [prepareReasoningItem_none.1 made])]
      exact ih
    | some prepared =>
      have stays : isReplayable item = true := by
        cases replayable : isReplayable item with
        | true => rfl
        | false =>
          rw [prepareReasoningItem_none.2 replayable] at made
          cases made
      rw [List.filterMap_cons_some made, List.filter_cons_of_pos stays]
      exact .cons (prepareReasoningItem_kept made) ih

/-- Reasoning that was prepared has a text. -/
theorem PreparedFrom.hasPlaintext (h : PreparedFrom reasoning r) : hasPlaintextReasoning r = true := by
  unfold hasPlaintextReasoning
  rw [h.content]
  simpa [ReasoningTextContent.new] using joinLines_plaintext h.plaintext

/-- What is prepared stays as it is when it is prepared again. -/
theorem prepareReasoningItem_again (h : prepareReasoningItem item = some prepared) :
    prepareReasoningItem prepared = some prepared := by
  cases item with
  | reasoning reasoning =>
    obtain ⟨r, rfl, made⟩ := prepareReasoningItem_kept h
    dsimp only [prepareReasoningItem]
    rw [if_pos made.hasPlaintext, made.content]
    obtain ⟨id, content, summary, encrypted_content, status⟩ := r
    obtain ⟨-, -, rfl, rfl, rfl, -⟩ := made
    rfl
  | _ =>
    cases h
    rfl

/-- Items that were prepared may be sent. -/
theorem validate_prepared : validateReasoningForVllm (.items (items.filterMap prepareReasoningItem)) = .ok () := by
  dsimp only [validateReasoningForVllm]
  rw [if_neg]
  intro opaque_only
  obtain ⟨prepared, mem, found⟩ := List.any_eq_true.1 opaque_only
  obtain ⟨item, -, made⟩ := List.mem_filterMap.1 mem
  cases item with
  | reasoning reasoning =>
    obtain ⟨r, rfl, from_item⟩ := prepareReasoningItem_kept made
    simp [from_item.hasPlaintext] at found
  | _ =>
    cases made
    exact Bool.false_ne_true found

/-- Preparing is idempotent, also where it fails. -/
theorem prepare_again : prepareReasoningForVllm (prepareReasoningForVllm input).2 = prepareReasoningForVllm input := by
  cases input with
  | text t => rfl
  | items items =>
    cases checked : validateReasoningForVllm (.items items) with
    | error e =>
      have failed : prepareReasoningForVllm (.items items) = (.error e, .items items) := by
        unfold prepareReasoningForVllm
        rw [checked]
      rw [failed, failed]
    | ok =>
      have made : prepareReasoningForVllm (.items items) = (.ok (), .items (items.filterMap prepareReasoningItem)) := by
        unfold prepareReasoningForVllm
        rw [checked]
      rw [made]
      unfold prepareReasoningForVllm
      rw [validate_prepared]
      dsimp only
      rw [List.filterMap_filterMap]
      congr 2
      apply List.filterMap_congr
      intro item _
      cases made : prepareReasoningItem item with
      | none => rfl
      | some prepared => exact prepareReasoningItem_again made

/-- A history that cannot be prepared is left as it is. -/
theorem prepare_failed (h : (prepareReasoningForVllm input).1 = .error e) : (prepareReasoningForVllm input).2 = input := by
  dsimp only [prepareReasoningForVllm] at h ⊢
  cases checked : validateReasoningForVllm input with
  | error e => rfl
  | ok =>
    rw [checked] at h
    cases input <;> cases h

/-- A history is prepared item by item. -/
theorem prepare_kept (h : (prepareReasoningForVllm input).1 = .ok ()) :
    List.Forall₂ Kept (input.entries.filter isReplayable) (prepareReasoningForVllm input).2.entries := by
  dsimp only [prepareReasoningForVllm] at h ⊢
  cases checked : validateReasoningForVllm input with
  | error e =>
    rw [checked] at h
    cases h
  | ok =>
    cases input with
    | text t => exact .cons rfl .nil
    | items items => exact kept_filterMap

end

section
variable {ctx : RequestContext} {input : ResponsesInput} {map : Option NamespaceMap} {stream : Bool}
  {body : UpstreamRequest} {toolsResolved : Option ToolChoice → ExecutorResult Unit} {r : ReasoningOutput}

/-- Naming the tools changes no reasoning. -/
theorem mem_reasonings_resolve (h : r ∈ reasonings (resolveInput map input)) : r ∈ reasonings input := by
  unfold resolveInput at h
  split at h
  · rw [mem_reasonings] at h ⊢
    obtain ⟨item, mem, same⟩ := List.mem_map.1 h
    cases item with
    | functionCall call =>
      dsimp only at same
      split at same <;> cases same
    | reasoning reasoning =>
      cases same
      exact mem
    | _ => cases same
  · exact h

/-- What the model sees has no other reasoning. -/
theorem mem_reasonings_modelInput (h : r ∈ reasonings input.modelInput) : r ∈ reasonings input := by
  cases input with
  | text t => exact h
  | items items =>
    rw [mem_reasonings] at h ⊢
    obtain ⟨item, mem, same⟩ := List.mem_map.1 h
    have here : item ∈ items := by
      obtain ⟨⟨item', index⟩, kept, rfl⟩ := List.mem_map.1 mem
      exact (List.mem_zipIdx' (List.mem_filter.1 kept).1).2 ▸ List.getElem_mem _
    cases item with
    | reasoning reasoning =>
      cases same
      exact here
    | _ => cases same

/-- A request carries no reasoning but that of its context. -/
theorem mem_reasonings_body (made : ctx.upstreamRequest toolsResolved map stream = .ok body)
    (h : r ∈ reasonings body.input) : r ∈ reasonings ctx.enriched_request.input := by
  have shape : body.input = resolveInput map ctx.enriched_request.input.modelInput := by
    unfold RequestContext.upstreamRequest at made
    cases files : validateMessageFiles ctx.enriched_request.input with
    | error e =>
      rw [files] at made
      cases made
    | ok =>
      rw [files] at made
      cases tools : toolsResolved ctx.enriched_request.tool_choice with
      | error e =>
        rw [tools] at made
        cases made
      | ok =>
        rw [tools] at made
        cases made
        rfl
  rw [shape] at h
  exact mem_reasonings_modelInput (mem_reasonings_resolve h)

/-- Reasoning is lowered as it is. -/
theorem mem_reasonings_lower {item : InputItem} (h : item.lower = some (.reasoning r)) : item = .reasoning r := by
  cases item <;> simp only [InputItem.lower, Option.some.injEq, reduceCtorEq] at h
  rw [h]

/-- A summary is asked for with the reasoning of what is summarised. -/
theorem mem_reasonings_summary {services : Services} {model : Text} {instructions : Option Text} {request : Nat}
    (h : r ∈ reasonings (summaryRequest services model input instructions request).enriched_request.input) :
    r ∈ reasonings input := by
  rw [mem_reasonings] at h ⊢
  rcases List.mem_append.1 h with mem | mem
  · have mem := (List.mem_filter.1 mem).1
    cases input with
    | text t => cases List.mem_singleton.1 mem
    | items items =>
      obtain ⟨item, here, lowered⟩ := List.mem_filterMap.1 mem
      rw [mem_reasonings_lower lowered] at here
      exact here
  · cases List.mem_singleton.1 mem

/-- What a compaction leaves has no reasoning. -/
theorem not_mem_reasonings_window {uuid7 : Nat → Text} {id summary : Text} {items : List InputItem} :
    r ∉ reasonings (.items (finishCompactedWindow id (retainedUserWindow uuid7 items) summary)) := by
  intro h
  rw [mem_reasonings] at h
  rcases List.mem_append.1 h with mem | mem
  · obtain ⟨⟨item, index⟩, -, kept⟩ := List.mem_filterMap.1 mem
    cases item with
    | message message =>
      dsimp only at kept
      rw [ite_eq_iff] at kept
      rcases kept with ⟨-, no⟩ | ⟨-, no⟩ <;> cases no
    | _ => cases kept
  · cases List.mem_singleton.1 mem

end

/-- Where the reasoning of an inference request comes from: it was prepared from the history of the run, or the model
said it in answer to an earlier inference request of the run. -/
def Origin (services : Services) (history : ResponsesInput) (before : List SentRequest) (r : ReasoningOutput) : Prop :=
  (∃ reasoning ∈ reasonings history, PreparedFrom reasoning r) ∨
  ∃ (i : Nat) (request : SentRequest) (upstream : ResponsePayload), before[i]? = some request ∧
    request.purpose = .inference ∧ (services.upstream i).result = .ok upstream ∧ .reasoning r ∈ upstream.output

/-- The reasoning a request may carry, after the requests before it. -/
def Carries (services : Services) (history : ResponsesInput) (before : List SentRequest) (request : SentRequest) : Prop :=
  match request.purpose with
  | .inference =>
    (∀ r ∈ reasonings request.body.input, Origin services history before r) ∧
    ((before.getLast?.map (·.purpose)) = some .summarization → reasonings request.body.input = [])
  | .summarization => ∀ r ∈ reasonings request.body.input, r ∈ reasonings history ∨ Origin services history before r

/-- All requests carry only the reasoning they may carry. -/
def CarryOnly (services : Services) (history : ResponsesInput) (sent : List SentRequest) : Prop :=
  ∀ i request, sent[i]? = some request → Carries services history (sent.take i) request

section
variable {services : Services} {history : ResponsesInput} {sent : List SentRequest} {request : SentRequest}
  {r : ReasoningOutput}

/-- Nothing was sent. -/
theorem carryOnly_nil : CarryOnly services history [] := by
  intro i request found
  cases found

/-- A request that may be sent comes behind those that were. -/
theorem CarryOnly.snoc (h : CarryOnly services history sent) (carries : Carries services history sent request) :
    CarryOnly services history (sent ++ [request]) := by
  intro i next found
  rcases Nat.lt_trichotomy i sent.length with before | last | after
  · rw [List.getElem?_append_left before] at found
    rw [List.take_append_of_le_length (Nat.le_of_lt before)]
    exact h i next found
  · subst last
    rw [List.getElem?_append_right (Nat.le_refl _), Nat.sub_self] at found
    cases found
    rw [List.take_left']
    · exact carries
    · rfl
  · rw [List.getElem?_eq_none (by simp; omega)] at found
    cases found

/-- Reasoning that came of a reply still does when more was sent. -/
theorem Origin.snoc (h : Origin services history sent r) : Origin services history (sent ++ [request]) r := by
  rcases h with prepared | ⟨i, earlier, upstream, found, rest⟩
  · exact .inl prepared
  · refine .inr ⟨i, earlier, upstream, ?_, rest⟩
    rw [List.getElem?_append_left (List.getElem?_eq_some_iff.1 found).1]
    exact found

end
section
variable {services : Services} {stream_upstream : Bool} {history : ResponsesInput} {round : Nat}
  {combined_output output : List OutputItem} {combined_usage usage : Option ResponseUsage} {start s s' : State}
  {roundEnd : RoundEnd} {e : ExecutorError}

/-- What holds before a round. -/
structure Stands (services : Services) (history : ResponsesInput) (round : Nat) (s : State) : Prop where
  carry : CarryOnly services history s.sent
  last : s.sent.getLast?.map (·.purpose) ≠ some .summarization
  first : round = 0 → ∀ r ∈ reasonings s.request.enriched_request.input, r ∈ reasonings history
  later : round ≠ 0 → ∀ r ∈ reasonings s.request.enriched_request.input, Origin services history s.sent r

/-- What holds when the model is about to be asked. -/
structure Ready (services : Services) (history : ResponsesInput) (s : State) : Prop where
  carry : CarryOnly services history s.sent
  input : ∀ r ∈ reasonings s.request.enriched_request.input, Origin services history s.sent r
  after_summary : s.sent.getLast?.map (·.purpose) = some .summarization →
    reasonings s.request.enriched_request.input = []

/-- A request carries reasoning that may be sent. -/
theorem Ready.request {body : UpstreamRequest} (h : Ready services history s)
    (made : s.request.upstreamRequest services.toolsResolved services.namespaces stream_upstream = .ok body) :
    Carries services history s.sent ⟨.inference, body⟩ := by
  refine ⟨fun r mem => h.input r (mem_reasonings_body made mem), fun summary => ?_⟩
  apply List.eq_nil_iff_forall_not_mem.2
  intro r mem
  have here := mem_reasonings_body made mem
  rw [h.after_summary summary] at here
  cases here

/-- A summary carries the reasoning of the history. -/
theorem Stands.summary {body : UpstreamRequest} {model : Text} {instructions : Option Text} {request : Nat}
    (h : Stands services history round s)
    (made : (summaryRequest services model s.request.enriched_request.input instructions request).upstreamRequest
      (fun _ => .ok ()) none false = .ok body) : Carries services history s.sent ⟨.summarization, body⟩ := by
  intro r mem
  have here := mem_reasonings_summary (mem_reasonings_body made mem)
  by_cases first : round = 0
  · exact .inl (h.first first r here)
  · exact .inr (h.later first r here)

/-- The reasoning of a prepared input was prepared. -/
theorem mem_reasonings_prepared {input : ResponsesInput} {r : ReasoningOutput}
    (valid : validateReasoningForVllm input = .ok ()) (h : r ∈ reasonings (prepareReasoningForVllm input).2) :
    ∃ reasoning ∈ reasonings input, PreparedFrom reasoning r := by
  rw [mem_reasonings] at h
  dsimp only [prepareReasoningForVllm] at h
  rw [valid] at h
  cases input with
  | text t => cases List.mem_singleton.1 h
  | items items =>
    obtain ⟨item, mem, made⟩ := List.mem_filterMap.1 h
    have kept := prepareReasoningItem_kept made
    cases item with
    | reasoning reasoning =>
      obtain ⟨r', same, from_item⟩ := kept
      cases same
      exact ⟨reasoning, mem_reasonings.2 mem, from_item⟩
    | _ => cases kept

/-- What is compacted or checked before a round may be sent. -/
theorem Stands.ready {compacted prepared : State} (h : Stands services history round s)
    (compaction : maybeCompactContext services s = .ok usage compacted)
    (preparation : prepareInitialReasoningForVllm round usage.isSome compacted = .ok () prepared) :
    Ready services history prepared := by
  rcases maybeCompactContext_ok compaction with ⟨rfl, rfl⟩ | ⟨items, spent, m, rfl, ran, same⟩
  · rcases prepareInitialReasoning_ok preparation with ⟨first, -, valid, same⟩ | ⟨later, same⟩
    · rw [same]
      refine ⟨h.carry, ?_, fun summary => absurd summary h.last⟩
      intro r mem
      obtain ⟨reasoning, here, from_item⟩ := mem_reasonings_prepared valid mem
      exact .inl ⟨reasoning, h.first first reasoning here, from_item⟩
    · rw [same]
      exact ⟨h.carry, h.later fun first => later ⟨first, rfl⟩, fun summary => absurd summary h.last⟩
  · obtain ⟨body, made, sent⟩ := ran.sent
    obtain ⟨response, summary, -, -, window⟩ := ran.answer
    have empty : reasonings (.items items) = [] := by
      rw [window]
      exact List.eq_nil_iff_forall_not_mem.2 fun _ => not_mem_reasonings_window
    rcases prepareInitialReasoning_ok preparation with ⟨-, compacted_not, -, -⟩ | ⟨-, unprepared⟩
    · cases compacted_not
    · rw [unprepared, same, sent]
      refine ⟨h.carry.snoc (h.summary made), ?_, fun _ => empty⟩
      intro r (mem : r ∈ reasonings (.items items))
      rw [empty] at mem
      cases mem

/-- A round that is over has sent what it may, and leaves what the next round may send. -/
theorem Round.stands (h : Round services stream_upstream round combined_output combined_usage s roundEnd s')
    (before : Stands services history round s) :
    CarryOnly services history s'.sent ∧
    ∀ output usage, roundEnd = .continue output usage → Stands services history (round + 1) s' := by
  obtain ⟨compaction, preparation, answer, settled⟩ := h
  rename_i prepared _ _ _
  have ready := before.ready compaction preparation
  obtain ⟨request, -, ⟨body, made, sent⟩, ⟨upstream, answered, given⟩⟩ := (fetchPayload_ok answer).1
  have carry := ready.carry.snoc (ready.request made)
  rw [← sent, ← settled.reports.2] at carry
  refine ⟨carry, ?_⟩
  intro output usage more
  subst more
  obtain ⟨-, -, -, same_sent, -, -, outputs, results, input⟩ := settled.fed
  rw [sent] at same_sent
  subst given
  refine ⟨carry, by rw [same_sent]; simp, fun no => absurd no (Nat.succ_ne_zero _), ?_⟩
  intro _ r mem
  rw [mem_reasonings, input, same_sent, request] at *
  rcases List.mem_append.1 mem with mem | mem
  · rcases List.mem_append.1 mem with asked | said
    · exact (ready.input r (mem_reasonings.2 asked)).snoc
    · obtain ⟨item, here, fed⟩ := List.mem_filterMap.1 said
      have reasoning : item = .reasoning r := by
        cases item with
        | reasoning reasoning =>
          cases fed
          rfl
        | toolSearchCall call =>
          obtain ⟨_, _, no⟩ := Option.map_eq_some_iff.1 fed
          cases no
        | _ => cases fed
      subst reasoning
      exact .inr ⟨prepared.sent.length, ⟨.inference, body⟩, upstream, by simp, rfl, answered, here⟩
  · obtain ⟨bound, output, -, same⟩ := answered_mem results mem
    cases same

/-- A round that fails has sent nothing it must not. -/
theorem RoundFails.carryOnly (h : RoundFails services stream_upstream round combined_output s e s')
    (before : Stands services history round s) : CarryOnly services history s'.sent := by
  cases h with
  | compaction failed =>
    rcases maybeCompactContext_error failed with same | ⟨body, made, sent⟩
    · rw [same]
      exact before.carry
    · rw [sent]
      exact before.carry.snoc (before.summary made)
  | preparation compaction failed =>
    rw [quiet_prepareInitialReasoning.error failed]
    rcases maybeCompactContext_ok compaction with ⟨-, same⟩ | ⟨items, spent, m, -, ran, same⟩
    · rw [same]
      exact before.carry
    · obtain ⟨body, made, sent⟩ := ran.sent
      rw [same, sent]
      exact before.carry.snoc (before.summary made)
  | answer compaction preparation failed =>
    have ready := before.ready compaction preparation
    rcases fetchPayload_error failed with same | ⟨body, made, sent⟩
    · rw [same]
      exact ready.carry
    · rw [sent]
      exact ready.carry.snoc (ready.request made)
  | settling compaction preparation answer sent =>
    have ready := before.ready compaction preparation
    obtain ⟨request, -, ⟨body, made, asked⟩, -⟩ := (fetchPayload_ok answer).1
    rw [sent, asked]
    exact ready.carry.snoc (ready.request made)

/-- Before a round every reasoning of the history has a source. -/
theorem Reaches.stands (h : Reaches services stream_upstream start round combined_output combined_usage s)
    (new : start.sent = []) : Stands services start.request.enriched_request.input round s := by
  induction h with
  | first =>
    refine ⟨?_, ?_, fun _ _ mem => mem, fun no => absurd rfl no⟩
    · rw [new]
      exact carryOnly_nil
    · rw [new]
      simp
  | next before played ih => exact ((runRound_ok played).stands ih).2 _ _ rfl

/-- What a run of the loop sends, however it ends. -/
theorem run_carryOnly (h : Leaves (run services stream_upstream) start s') (new : start.sent = []) :
    CarryOnly services start.request.enriched_request.input s'.sent := by
  rcases h with ⟨result, ok⟩ | ⟨e, failed⟩
  · obtain ⟨round, output, usage, m, payload, -, reached, played⟩ := run_ok ok
    exact ((runRound_ok played).stands (reached.stands new)).1
  · obtain ⟨round, output, usage, m, reached, played⟩ := run_error failed
    exact (runRound_error played).carryOnly (reached.stands new)

/-- A compaction that a request asks for sends one request for a summary. -/
theorem runCompactionTrigger_carryOnly (h : Leaves (runCompactionTrigger services) start s') (new : start.sent = []) :
    CarryOnly services start.request.enriched_request.input s'.sent := by
  have stands : Stands services start.request.enriched_request.input 0 start := by
    refine ⟨?_, ?_, fun _ _ mem => mem, fun no => absurd rfl no⟩
    · rw [new]
      exact carryOnly_nil
    · rw [new]
      simp
  unfold runCompactionTrigger at h
  rcases leaves_bind.1 h with ⟨_, read⟩ | ⟨_, _, read, h⟩
  · cases read
  cases read
  rcases leaves_bind.1 h with ⟨e, failed⟩ | ⟨⟨items, spent⟩, m, ran, h⟩
  · rcases compactItems_error failed with same | ⟨body, made, sent⟩
    · rw [same]
      exact stands.carry
    · rw [sent]
      exact stands.carry.snoc (stands.summary made)
  · obtain ⟨body, made, sent⟩ := (compactItems_ok ran).sent
    have quiet : s'.sent = m.sent := Quiet.leaves ((Quiet.onRequest _).bind fun _ => Quiet.pure _) h
    rw [quiet, sent]
    exact stands.carry.snoc (stands.summary made)

/-- A turn sends no reasoning but that of the client and of the model. -/
theorem runUntilGatewayToolsComplete_carryOnly (h : Leaves (runUntilGatewayToolsComplete services stream_upstream) start s')
    (new : start.sent = []) : CarryOnly services start.request.enriched_request.input s'.sent := by
  unfold runUntilGatewayToolsComplete at h
  rcases leaves_bind.1 h with ⟨_, read⟩ | ⟨_, _, read, h⟩
  · cases read
  cases read
  split at h
  · rcases leaves_bind.1 h with ⟨e, failed⟩ | ⟨payload, m, ran, h⟩
    · exact runCompactionTrigger_carryOnly (.inr ⟨e, failed⟩) new
    · have quiet : s'.sent = m.sent := Quiet.leaves ((Quiet.onStream _).bind fun _ => Quiet.pure _) h
      rw [quiet]
      exact runCompactionTrigger_carryOnly (.inl ⟨payload, ran⟩) new
  · exact run_carryOnly h new

end

/-- What is true of the reasoning in the requests of every execution that starts from `start`. -/
structure SendsReasoning (services : Services) (stream_upstream : Bool) (start : State) : Prop where
  /-- Preparing twice is preparing once. -/
  again : ∀ input, prepareReasoningForVllm (prepareReasoningForVllm input).2 = prepareReasoningForVllm input
  /-- A failed preparation changes nothing. -/
  failed : ∀ input e, (prepareReasoningForVllm input).1 = .error e → (prepareReasoningForVllm input).2 = input
  /-- Preparing leaves out reasoning without plaintext, prepares the other reasoning, and changes nothing else. -/
  kept : ∀ input, (prepareReasoningForVllm input).1 = .ok () →
    List.Forall₂ Kept (input.entries.filter isReplayable) (prepareReasoningForVllm input).2.entries
  /-- Opaque reasoning fails a request before anything is sent, unless the request asks for a compaction. -/
  rejects : ∀ prepareRequestTools s' e,
    validateReasoningForVllm start.request.enriched_request.input = .error e →
    start.request.enriched_request.input.hasCompactionTrigger = false →
    Leaves (execute services prepareRequestTools stream_upstream) start s' →
    execute services prepareRequestTools stream_upstream start = .error e s' ∧ s'.sent = []
  /-- So does it before a first round without compaction. -/
  rejects_first : ∀ e s', validateReasoningForVllm start.request.enriched_request.input = .error e →
    maybeCompactContext services start = .ok none s' →
    ∃ m, run services stream_upstream start = .error e m ∧ m.sent = []
  /-- Every request carries only the reasoning it may carry. -/
  carries : ∀ s', Leaves (runUntilGatewayToolsComplete services stream_upstream) start s' →
    CarryOnly services start.request.enriched_request.input s'.sent
  /-- So does the request of a compaction by itself. -/
  compacts : ∀ model input instructions s', Leaves (compactItems services model input instructions) start s' →
    ∀ request ∈ s'.sent, request.purpose = .summarization ∧
      ∀ r ∈ reasonings request.body.input, r ∈ reasonings input

section
variable {services : Services} {stream_upstream : Bool} {start s' : State} {e : ExecutorError}

/-- A request whose reasoning has no text is refused before anything is sent. -/
theorem execute_rejects {prepareRequestTools : RequestContext → ExecutorResult RequestContext}
    (invalid : validateReasoningForVllm start.request.enriched_request.input = .error e)
    (trigger : start.request.enriched_request.input.hasCompactionTrigger = false) :
    execute services prepareRequestTools stream_upstream start = .error e start := by
  unfold execute
  refine bind_error.2 (.inr ⟨start, start, rfl, ?_⟩)
  rw [if_pos (by rw [trigger]; rfl)]
  refine bind_error.2 (.inl ?_)
  rw [invalid]
  rfl

/-- A turn whose reasoning has no text is refused where nothing was compacted. -/
theorem run_rejects (invalid : validateReasoningForVllm start.request.enriched_request.input = .error e)
    (compaction : maybeCompactContext services start = .ok none s') :
    run services stream_upstream start
      = .error e { start with request := start.request.setInput start.request.enriched_request.input } := by
  have same : s' = start := by
    rcases maybeCompactContext_ok compaction with ⟨-, same⟩ | ⟨_, _, _, no, -, -⟩
    · exact same
    · cases no
  subst same
  have prepared : prepareReasoningForVllm s'.request.enriched_request.input
      = (.error e, s'.request.enriched_request.input) := by
    unfold prepareReasoningForVllm
    rw [invalid]
  unfold run
  refine bind_error.2 (.inr ⟨s', s', rfl, ?_⟩)
  unfold runRounds
  refine bind_error.2 (.inl ?_)
  unfold runRound
  refine bind_error.2 (.inr ⟨none, s', compaction, ?_⟩)
  refine bind_error.2 (.inl ?_)
  unfold prepareInitialReasoningForVllm
  rw [if_pos ⟨rfl, rfl⟩]
  refine bind_error.2 (.inr ⟨s', s', rfl, ?_⟩)
  rw [prepared]
  rfl

/-- A compaction sends the reasoning of its input. -/
theorem compactItems_carries {model : Text} {input : ResponsesInput} {instructions : Option Text}
    (h : Leaves (compactItems services model input instructions) start s') (new : start.sent = []) :
    ∀ request ∈ s'.sent, request.purpose = .summarization ∧
      ∀ r ∈ reasonings request.body.input, r ∈ reasonings input := by
  have one : ∀ body, (summaryRequest services model input instructions start.sent.length).upstreamRequest
      (fun _ => .ok ()) none false = .ok body → s'.sent = start.sent ++ [⟨.summarization, body⟩] →
      ∀ request ∈ s'.sent, request.purpose = .summarization ∧
        ∀ r ∈ reasonings request.body.input, r ∈ reasonings input := by
    intro body made sent request mem
    rw [sent, new] at mem
    rw [List.mem_singleton.1 mem]
    exact ⟨rfl, fun r carried => mem_reasonings_summary (mem_reasonings_body made carried)⟩
  rcases h with ⟨⟨items, spent⟩, ok⟩ | ⟨e, failed⟩
  · obtain ⟨body, made, sent⟩ := (compactItems_ok ok).sent
    exact one body made (by rw [sent])
  · rcases compactItems_error failed with same | ⟨body, made, sent⟩
    · rw [same, new]
      intro request mem
      cases mem
    · exact one body made sent

end

/-- **Reasoning in requests**, of every execution. -/
theorem reasoning_sent (services : Services) (stream_upstream : Bool) (start : State) :
    SendsReasoning services stream_upstream { start with sent := [] } where
  again _ := prepare_again
  failed _ _ := prepare_failed
  kept _ := prepare_kept
  rejects := by
    intro prepareRequestTools s' e invalid trigger ends
    have ran := @execute_rejects services stream_upstream _ _ prepareRequestTools invalid trigger
    rcases ends with ⟨result, ok⟩ | ⟨e', failed⟩
    · rw [ran] at ok
      cases ok
    · rw [ran] at failed
      cases failed
      exact ⟨ran, rfl⟩
  rejects_first := fun e s' invalid compaction => ⟨_, run_rejects invalid compaction, rfl⟩
  carries := fun s' ends => runUntilGatewayToolsComplete_carryOnly ends rfl
  compacts := fun model input instructions s' ends => compactItems_carries ends rfl

/-- The requests that went upstream, however the execution ended. -/
def requestsOf {α : Type} (result : EStateM.Result ExecutorError State α) : List SentRequest :=
  match result with
  | .ok _ s => s.sent
  | .error _ s => s.sent

/-- Reasoning with opaque state and no plaintext. -/
def opaqueReasoning : ReasoningOutput where
  id := "rs_1"
  content := []
  summary := []
  encrypted_content := some (.str "opaque")
  status := none

/-- Reasoning with plaintext and a summary. -/
def summarisedReasoning : ReasoningOutput where
  id := "rs_2"
  content := [ReasoningTextContent.new "think"]
  summary := [.str "thought"]
  encrypted_content := none
  status := none

/-- A request with opaque reasoning that asks for a compaction. -/
def triggeredTurn : State :=
  let input : ResponsesInput :=
    .items [.message { id := none, role := "user", status := none, content := .text "hello" }, .reasoning opaqueReasoning,
      .compactionTrigger]
  let payload : RequestPayload :=
    { model := [], input, instructions := none, previous_response_id := none, conversation_id := none, tool_choice := none
      store := false, context_management := none }
  { request :=
      { original_request := payload, enriched_request := payload, new_input_items := [], response_id := "resp_1"
        conversation_id := none, continuation := none }
    delivery := .new none
    registry := .default
    budget := maxExecutorResponseBytes
    sent := [] }

/-- A turn with a tool of the gateway's that has no handler. -/
def toolTurn : State :=
  { triggeredTurn with
    request :=
      { triggeredTurn.request with
        original_request := { triggeredTurn.request.original_request with input := .text "hello" }
        enriched_request := { triggeredTurn.request.enriched_request with input := .text "hello" } }
    registry := ⟨[(utf8 "search", ⟨.webSearch, .gateway none, rfl⟩)], []⟩ }

/-- The model thinks and calls the tool, and then has nothing more to say. -/
def thinkingServices : Services where
  serde := ⟨fun _ => none, fun _ => []⟩
  values := ⟨fun _ => .null, fun _ => .null⟩
  toolsResolved _ := .ok ()
  namespaces := none
  estimateInputTokens _ := 0
  uuid7 _ _ := []
  upstream n :=
    { lines := []
      body_bytes := 0
      result := .ok
        { id := [], model := [], status := "completed"
          output := if n = 0 then
            [.reasoning summarisedReasoning, .functionCall ⟨"fc_1", "call_1", "search", none, [], .completed⟩] else []
          usage := none, incomplete_details := none, error := none, previous_response_id := none
          conversation_id := none, instructions := none } }

/-- A summary is asked for with opaque reasoning, and the second round sends the summary of the first one's reasoning. -/
theorem unprepared_reasoning_sent :
    ((requestsOf (runUntilGatewayToolsComplete thinkingServices false triggeredTurn)).map fun request =>
      (request.purpose, (reasonings request.body.input).map fun r =>
        (hasPlaintextReasoning r, hasOpaqueReasoningState r))) = [(.summarization, [(false, true)])] ∧
    ((requestsOf (runUntilGatewayToolsComplete thinkingServices false toolTurn)).map fun request =>
      (request.purpose, (reasonings request.body.input).map fun r => r.summary.length)) =
      [(.inference, []), (.inference, [1])] := by
  decide +kernel

end Engine
end AgenticStack
