import AgenticStack.Executor.Rounds

/-!
# What a round delivers

At the end of a round the frames still held are released, item by item, among
the events of the calls the gateway has executed.
-/

namespace AgenticStack.Engine
set_option autoImplicit false
open Library

section
variable {services : Services} {s s' : State} {x : OutletM Unit} {u : Unit} {frames more : List EventFrame}
  {o o' : Outlet}

/-- A streaming client is shown the frames of items among `frames`; nothing else of delivery changes. -/
def Shows (frames : List EventFrame) (s s' : State) : Prop :=
  ∀ o, s.delivery.outlet = some o → ∃ o', s'.delivery = { s.delivery with outlet := some o' } ∧
    o'.shown = o.shown ++ frames.filter EventFrame.isPublic

/-- What is shown one after the other is shown. -/
theorem Shows.trans {m : State} (first : Shows frames s m) (rest : Shows more m s') : Shows (frames ++ more) s s' := by
  intro o opened
  obtain ⟨o₁, delivery₁, shown₁⟩ := first o opened
  obtain ⟨o₂, delivery₂, shown₂⟩ := rest o₁ (by rw [delivery₁])
  refine ⟨o₂, by rw [delivery₂, delivery₁], ?_⟩
  rw [shown₂, shown₁, List.filter_append, List.append_assoc]

/-- Nothing was shown. -/
theorem Shows.of_same (h : s'.delivery = s.delivery) : Shows [] s s' := by
  intro o opened
  refine ⟨o, ?_, by simp⟩
  rw [h, ← opened]

/-- What the stream shows is shown. -/
theorem onStream_shows (h : onStream x s = .ok u s')
    (shows_ : ∀ o o', x o = .ok () o' → o'.shown = o.shown ++ frames.filter EventFrame.isPublic) : Shows frames s s' := by
  intro o opened
  rcases onStream_ok h with ⟨closed, -⟩ | ⟨o₁, o', opened', run, same⟩
  · rw [closed] at opened
    cases opened
  · rw [opened'] at opened
    cases opened
    exact ⟨o', by rw [same], shows_ _ _ run⟩

/-- Nothing is shown where no frame is passed on. -/
theorem shown_of_triple (h : ∀ known, Triple (fun o : Outlet => o.sources = known) x (fun _ o => o.sources = known)
    (fun _ o => o.sources = known)) (run : x o = .ok () o') : o'.shown = o.shown ++ [].filter EventFrame.isPublic := by
  have kept := h o.sources o rfl
  rw [run] at kept
  rw [List.filter_nil, List.append_nil]
  exact congrArg (List.filter EventFrame.isPublic) kept

/-- The held frames are shown. -/
theorem deferredEvents_shown {ctx : RequestContext} {output_offset : Nat}
    (run : emitDeferredStreamEvents ctx output_offset frames o = .ok () o') :
    o'.shown = o.shown ++ frames.filter EventFrame.isPublic := by
  unfold emitDeferredStreamEvents at run
  induction frames generalizing o with
  | nil =>
    rw [← forM_nil_ok.1 run]
    simp
  | cons frame frames ih =>
    obtain ⟨m, first, rest⟩ := forM_cons_ok.1 run
    obtain ⟨emitted, m', sent, done⟩ := bind_ok.1 first
    obtain ⟨-, same⟩ := pure_ok.1 done
    subst same
    rw [ih rest, emitStreamFrame_shown sent, List.append_assoc, ← List.filter_append, List.singleton_append]

/-- The events that open the calls show no frame. -/
theorem startEvents_shows {plans : List GatewayEventPlan}
    (h : onStream (emitGatewayStartEvents services.values plans) s = .ok u s') : Shows [] s s' :=
  onStream_shows h fun _ _ run => shown_of_triple (fun known => startEvents_keep_sources known _ _) run

/-- The events that end the calls show no frame. -/
theorem completedEvents_shows {plans : List GatewayEventPlan}
    (h : onStream (emitGatewayCompletedEvents services.values plans) s = .ok u s') : Shows [] s s' :=
  onStream_shows h fun _ _ run => shown_of_triple (fun known => completedEvents_keep_sources known _ _) run

variable {ctx : RequestContext} {output_offset round : Nat} {deferred_events : List EventFrame}
  {output_items : List OutputItem} {results : List GatewayCallResult}

/-- The events of the items show no frame. -/
theorem emitItemEvents_shows {calls : List GatewayCallPlan} {plans : List GatewayEventPlan} {initial index : Nat}
    (h : emitItemEvents services ctx output_offset calls plans initial deferred_events index s = .ok u s') :
    Shows (deferred_events.filter fun frame => frame.position = some index) s s' := by
  have released : ∀ {m : State} {v : Unit}, onStream (emitDeferredStreamEvents ctx output_offset
      (deferred_events.filter fun frame => frame.wire.output_index = some index)) m = .ok v s' →
      Shows (deferred_events.filter fun frame => frame.position = some index) m s' :=
    fun h => onStream_shows h fun _ _ run => deferredEvents_shown run
  unfold emitItemEvents at h
  cases found : GatewayScheduler.callIndexForItem calls index with
  | none =>
    rw [found] at h
    exact released h
  | some call_index =>
    rw [found] at h
    dsimp only at h
    split at h
    · obtain ⟨_, m₁, started, h⟩ := bind_ok.1 h
      obtain ⟨_, m₂, completed, h⟩ := bind_ok.1 h
      exact (startEvents_shows started).trans ((completedEvents_shows completed).trans (released h))
    · obtain ⟨_, m₂, completed, h⟩ := bind_ok.1 h
      exact (completedEvents_shows completed).trans (released h)

/-- What each item shows is shown. -/
theorem forM_shows {items : List Nat} {body : Nat → EngineM PUnit} {part : Nat → List EventFrame}
    (step : ∀ index m m', body index m = .ok ⟨⟩ m' → Shows (part index) m m')
    (h : forM items body s = .ok ⟨⟩ s') : Shows (items.flatMap part) s s' := by
  induction items generalizing s with
  | nil =>
    rw [← forM_nil_ok.1 h]
    exact Shows.of_same rfl
  | cons index items ih =>
    obtain ⟨m, first, rest⟩ := forM_cons_ok.1 h
    rw [List.flatMap_cons]
    exact (step _ _ _ first).trans (ih rest)

/-- What is held at the end of a round is released item by item. -/
theorem executeRoundOutput_shows
    (h : executeRoundOutput services output_items output_offset round deferred_events s = .ok results s') :
    Shows (buckets EventFrame.position output_items.length deferred_events) s s' := by
  unfold executeRoundOutput at h
  obtain ⟨_, _, read, h⟩ := bind_ok.1 h
  cases read
  dsimp only at h
  split at h
  · rename_i none_held
    unfold executeAndEmitOutputCalls at h
    obtain ⟨_, m₁, started, h⟩ := bind_ok.1 h
    obtain ⟨_, m₂, executed, h⟩ := bind_ok.1 h
    obtain ⟨_, m₃, completed, h⟩ := bind_ok.1 h
    obtain ⟨-, last⟩ := pure_ok.1 h
    subst last
    obtain ⟨budget, -, closed⟩ := onBudget_ok executed
    have spent : Shows [] m₁ m₂ := Shows.of_same (by rw [closed])
    have quiet : Shows [] s m₃ := (startEvents_shows started).trans (spent.trans (completedEvents_shows completed))
    rcases none_held with empty | closed
    · rw [List.isEmpty_iff.1 empty]
      have nothing : buckets EventFrame.position output_items.length [] = [] := by simp [buckets]
      rw [nothing]
      exact quiet
    · intro o opened
      rw [opened] at closed
      exact absurd closed Bool.false_ne_true
  · obtain ⟨_, m₁, started, h⟩ := bind_ok.1 h
    obtain ⟨_, m₂, executed, h⟩ := bind_ok.1 h
    obtain ⟨_, m₃, released, h⟩ := bind_ok.1 h
    obtain ⟨_, m₄, remaining, h⟩ := bind_ok.1 h
    obtain ⟨-, last⟩ := pure_ok.1 h
    subst last
    obtain ⟨budget, -, closed⟩ := onBudget_ok executed
    have spent : Shows [] m₁ m₂ := Shows.of_same (by rw [closed])
    have items := forM_shows (fun _ _ _ step => emitItemEvents_shows step) released
    have rest := onStream_shows remaining fun _ _ run => deferredEvents_shown run
    exact (startEvents_shows started).trans (spent.trans (items.trans rest))

end

/-- The frames of items that a streaming client was sent. -/
def State.shown (s : State) : List EventFrame := (s.delivery.outlet.map Outlet.shown).getD []

/-- What the answer to the latest request is translated into. -/
def translations (services : Services) (s : State) : List Translation :=
  (services.upstream (s.sent.length - 1)).lines.map Prod.snd

/-- Nothing that is held is given up: the answer does not say that the response failed, or nothing is held. -/
def Released (services : Services) (s : State) : Prop :=
  ∀ upstream, (services.upstream (s.sent.length - 1)).result = .ok upstream → isFailedStatus upstream.status = true →
    (heldAfter none [] (translations services s)).filter EventFrame.isPublic = []

section
variable {services : Services} {round : Nat} {combined_output : List OutputItem}
  {combined_usage : Option ResponseUsage} {start s s' : State} {roundEnd : RoundEnd} {o : Outlet}

/-- Before a round nothing is held back. -/
theorem all_new (k : Option Nat) : (StreamDelivery.live (.new (some o)) o).buffer.all EventFrame.position k =
    keyed EventFrame.position k o.shown :=
  List.append_nil _

/-- A streamed round: the translations of the answer are accepted, and the round is settled with what is then held. -/
inductive Streams (services : Services) (round : Nat) (combined_output : List OutputItem) (s : State) (o : Outlet)
    (roundEnd : RoundEnd) (s' : State) : Prop where
  | intro {ctx : RequestContext} {d : StreamDelivery} {answered : State} {payload upstream : ResponsePayload}
      {combined_usage : Option ResponseUsage}
      (accepted : StreamDelivery.Accepted ctx combined_output.length services.serde services.values s.registry
        (translations services s') (.new (some o)) d)
      (delivery : answered.delivery = .new d.outlet)
      (registry : answered.registry = if round = 0 then s.registry.clearMcpListToolItems else s.registry)
      (answer : (services.upstream (s'.sent.length - 1)).result = .ok upstream)
      (status : payload.status = upstream.status)
      (output : payload.output = upstream.output)
      (settled : Settles services round { payload with usage := none, output := [] } payload.output
        combined_output.length d.deferred_events combined_output combined_usage answered roundEnd s') :
      Streams services round combined_output s o roundEnd s'

/-- What a round showed is behind it. -/
theorem Settles.sent {payload : ResponsePayload} {current_output : List OutputItem} {output_offset : Nat}
    {deferred_events : List EventFrame}
    (h : Settles services round payload current_output output_offset deferred_events combined_output combined_usage s
      roundEnd s') : s'.sent = s.sent := by
  cases h with
  | failed status => rfl
  | executed status ran shown ends => exact (executeRoundOutput_ok ran).1.sent

/-- A round shows its frames in the order of the items. -/
theorem Round.streams (h : Round services true round combined_output combined_usage s roundEnd s')
    (fresh : s.delivery = .new (some o)) : Streams services round combined_output s o roundEnd s' := by
  obtain ⟨compaction, preparation, answer, settled⟩ := h
  rename_i usage compacted prepared answered payload deferred_events
  have compacted_same : compacted.delivery = s.delivery ∧ compacted.registry = s.registry := by
    rcases maybeCompactContext_ok compaction with ⟨-, same⟩ | ⟨items, spent, m, -, ran, same⟩
    · rw [same]
      exact ⟨rfl, rfl⟩
    · obtain ⟨body, -, sent⟩ := ran.sent
      rw [same, sent]
      exact ⟨rfl, rfl⟩
  have prepared_same : prepared.delivery = .new (some o) ∧ prepared.registry = s.registry := by
    rw [← fresh, ← compacted_same.1, ← compacted_same.2]
    rcases prepareInitialReasoning_ok preparation with ⟨-, -, -, same⟩ | ⟨-, same⟩
    · rw [same]
      exact ⟨rfl, rfl⟩
    · rw [same]
      exact ⟨rfl, rfl⟩
  have cleared := fetchPayload_registry answer
  obtain ⟨asked, streamed, -⟩ := fetchPayload_ok answer
  obtain ⟨d, accepted, deferred, delivery⟩ := (streamed rfl).accepted
  obtain ⟨upstream, given, injected⟩ := asked.answer
  obtain ⟨body, -, sent⟩ := asked.sent
  have request : s'.sent.length - 1 = prepared.sent.length := by
    rw [settled.sent, sent]
    simp
  rw [prepared_same.1, prepared_same.2] at accepted
  rw [prepared_same.2] at cleared
  rw [deferred] at settled
  rw [← request] at accepted given
  exact .intro accepted delivery cleared given (by rw [injected]; rfl) (by rw [injected]; rfl) settled

/-- **What a round delivers**: delivery is empty again, and for every index what was shown is what came. -/
theorem Round.delivered (h : Round services true round combined_output combined_usage s roundEnd s')
    (fresh : s.delivery = .new (some o)) :
    ∃ o', s'.delivery = .new (some o') ∧
      (Orderly none [] (translations services s') → Released services s' →
        ∀ k, keyed EventFrame.position k o'.shown =
          keyed EventFrame.position k o.shown ++ keyed EventFrame.position k (arrivals (translations services s'))) := by
  obtain ⟨accepted, delivery, -, answer, status, -, settled⟩ := h.streams fresh
  rename_i d answered payload upstream usage
  obtain ⟨o₁, opened, held, -, kept⟩ := accepted.kept rfl
  rw [opened] at delivery
  have all : ∀ k, (d.live o₁).buffer.all EventFrame.position k =
      keyed EventFrame.position k o₁.shown ++ keyed EventFrame.position k (d.deferred_events.filter EventFrame.isPublic) :=
    fun k => rfl
  replace kept : Orderly none [] (translations services s') → ∀ k, (d.live o₁).buffer.all EventFrame.position k =
      keyed EventFrame.position k o.shown ++ keyed EventFrame.position k (arrivals (translations services s')) := by
    intro orderly k
    rw [← all_new]
    exact kept orderly k
  cases settled with
  | failed failed =>
    refine ⟨o₁, delivery, ?_⟩
    intro orderly released k
    have nothing : d.deferred_events.filter EventFrame.isPublic = [] := by
      rw [held]
      exact released upstream answer (by rw [← status]; exact failed)
    rw [← kept orderly k, all, nothing]
    exact (List.append_nil _).symm
  | executed fine ran shown ends =>
    obtain ⟨o₂, released, shown₂⟩ := executeRoundOutput_shows ran o₁ (by rw [delivery]; rfl)
    refine ⟨o₂, by rw [released, delivery]; rfl, ?_⟩
    intro orderly _ k
    have order : Rearranges EventFrame.position (buckets EventFrame.position payload.output.length d.deferred_events)
        d.deferred_events := rearranges_buckets _
    have order := order.filter EventFrame.isPublic
    rw [← kept orderly k, all, shown₂, keyed_append, order k]

/-- Between the rounds of a run delivery holds nothing back. -/
theorem Reaches.fresh (h : Reaches services true start round combined_output combined_usage s)
    (new : start.delivery = .new (some o)) : ∃ o', s.delivery = .new (some o') := by
  induction h with
  | first => exact ⟨o, new⟩
  | next before played ih =>
    obtain ⟨o₁, fresh⟩ := ih
    obtain ⟨o₂, fresh₂, -⟩ := (runRound_ok played).delivered fresh
    exact ⟨o₂, fresh₂⟩

end

section
variable {services : Services} {round : Nat} {combined_output : List OutputItem}
  {combined_usage : Option ResponseUsage} {start s : State} {o : Outlet}

/-- **Delivery of a run.** At every moment of every round what is held is counted and within the limit, and nothing
at or after the first hidden index has gone out. When a round is over nothing is held, and if no frame overtook a held
one of its index and nothing held was given up, the frames that were shown are, for every index, those that came. -/
theorem delivery_keeps_order (new : start.delivery = .new (some o))
    (reached : Reaches services true start round combined_output combined_usage s) :
    (∀ (ctx : RequestContext) (output_offset : Nat) (registry : ToolRegistry) (ts : List Translation) (t : Translation)
      (d : StreamDelivery) (shown : Outlet) (m : Delivering),
      StreamDelivery.Accepted ctx output_offset services.serde services.values registry ts s.delivery d →
      d.outlet = some shown →
      StreamDelivery.Moment ctx output_offset services.serde services.values registry t d shown m →
      Counted m.deferred_events m.deferred_bytes ∧
      ∃ emitted, m.outlet.shown = shown.shown ++ emitted ∧
        ∀ f ∈ emitted, hides t.defer_from_output_index f.position = false) ∧
    ∀ roundEnd s', runRound services true round combined_output combined_usage s = .ok roundEnd s' →
      s'.delivery = .new s'.delivery.outlet ∧
      (Orderly none [] (translations services s') → Released services s' →
        ∀ k, keyed EventFrame.position k s'.shown =
          keyed EventFrame.position k s.shown ++ keyed EventFrame.position k (arrivals (translations services s'))) := by
  obtain ⟨o₁, fresh⟩ := reached.fresh new
  constructor
  · intro ctx output_offset registry ts t d shown m accepted opened moment
    obtain ⟨o₂, -, -, counted, -⟩ := accepted.kept (by rw [fresh]; rfl)
    exact moment.sound (counted (by rw [fresh]; exact counted_nil))
  · intro roundEnd s' played
    obtain ⟨o₂, again, kept⟩ := (runRound_ok played).delivered fresh
    refine ⟨by rw [again]; rfl, ?_⟩
    intro orderly released k
    have before : s.shown = o₁.shown := by
      unfold State.shown
      rw [fresh]
      rfl
    have after : s'.shown = o₂.shown := by
      unfold State.shown
      rw [again]
      rfl
    rw [before, after]
    exact kept orderly released k

end

/-- A frame of the item at `output_index`. -/
def itemFrame (type : SSEEventType) (output_index : Nat) : EventFrame :=
  ⟨type, .none, ⟨type.wireName, none, some output_index, []⟩⟩

/-- Every request is answered with the same lines. -/
def answering (ts : List Translation) (status : Text) : Services where
  serde := ⟨fun _ => none, fun _ => []⟩
  values := ⟨fun _ => .null, fun _ => .null⟩
  toolsResolved _ := .ok ()
  namespaces := none
  estimateInputTokens _ := 0
  uuid7 _ _ := []
  upstream _ :=
    { lines := ts.map (0, ·)
      body_bytes := 0
      result := .ok
        { id := [], model := [], status, output := [], usage := none, incomplete_details := none, error := none
          previous_response_id := none, conversation_id := none, instructions := none } }

/-- A streaming turn before its first round. -/
def streamingTurn : State :=
  let payload : RequestPayload :=
    { model := [], input := .items [], instructions := none, previous_response_id := none, conversation_id := none
      tool_choice := none, store := false, context_management := none }
  { request :=
      { original_request := payload, enriched_request := payload, new_input_items := [], response_id := "resp_1"
        conversation_id := none, continuation := none }
    delivery := .new (some ⟨⟨0, false, false⟩, ⟨[], none⟩⟩)
    registry := .default
    budget := maxExecutorResponseBytes
    sent := [] }

/-- The frames a round has shown and the frames that came for it, by their types. -/
def shownAndArrived (services : Services) : Option (List SSEEventType × List SSEEventType) :=
  match runRound services true 0 [] none streamingTurn with
  | .ok _ s => some (s.shown.map (·.event_type), (arrivals (translations services s)).map (·.event_type))
  | .error _ _ => none

/-- A message behind a hidden item is held, and released when the item turns out to be the client's. -/
def heldMessage : List Translation :=
  [⟨[], some 0⟩, ⟨[itemFrame .outputTextDelta 1], some 0⟩, ⟨[itemFrame .outputItemAdded 0], none⟩]

/-- The frame of an item that is held back overtakes none of its own. -/
theorem delivery_keeps_order_heldMessage :
    ∃ roundEnd s', runRound (answering heldMessage "completed") true 0 [] none streamingTurn = .ok roundEnd s' ∧
      s'.delivery = .new s'.delivery.outlet ∧
      ∀ k, keyed EventFrame.position k s'.shown = keyed EventFrame.position k streamingTurn.shown ++
        keyed EventFrame.position k (arrivals (translations (answering heldMessage "completed") s')) := by
  have ends : shownAndArrived (answering heldMessage "completed") ≠ none := by decide +kernel
  unfold shownAndArrived at ends
  cases played : runRound (answering heldMessage "completed") true 0 [] none streamingTurn with
  | error e s' =>
    rw [played] at ends
    exact absurd rfl ends
  | ok roundEnd s' =>
    have fresh : streamingTurn.delivery = .new (some ⟨⟨0, false, false⟩, ⟨[], none⟩⟩) := rfl
    have begun : Reaches (answering heldMessage "completed") true streamingTurn 0 [] none streamingTurn := .first
    obtain ⟨empty, kept⟩ := (delivery_keeps_order fresh begun).2 roundEnd s' played
    refine ⟨roundEnd, s', rfl, empty, kept ?_ ?_⟩
    · show Orderly none [] heldMessage
      decide +kernel
    · intro upstream answer failed
      have fine : isFailedStatus "completed" = false := by decide +kernel
      have status : upstream.status = "completed" := by
        cases answer
        rfl
      rw [status, fine] at failed
      exact absurd failed Bool.false_ne_true

/-- An event that the translators do not know comes for an item without a name yet; then the item gets its name. -/
def overtakingItem : List Translation :=
  [⟨[], some 0⟩, ⟨[itemFrame .other 0], some 0⟩, ⟨[itemFrame .outputItemAdded 0], none⟩]

/-- The event is shown after the item that came later; and when the response fails, it is not shown at all. -/
theorem delivery_overtakes_and_loses :
    shownAndArrived (answering overtakingItem "completed") =
      some ([.outputItemAdded, .other], [.other, .outputItemAdded]) ∧
    shownAndArrived (answering (overtakingItem.take 2) "failed") = some ([], [.other]) := by
  decide +kernel

end AgenticStack.Engine
