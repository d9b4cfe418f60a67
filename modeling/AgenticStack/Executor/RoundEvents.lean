import AgenticStack.Executor.Pipeline.EventLog
import AgenticStack.Executor.Rounds

/-!
# The events of a round's calls

What a streaming client is sent at the end of a round: the events of the calls,
before and after they are executed, and among them the frames that were held.
-/

namespace AgenticStack.Engine
set_option autoImplicit false
open Library

section
variable {s s' m : State} {x : OutletM Unit} {u : Unit} {entries more : List LogEntry}

/-- A streaming client is sent `entries`; nothing else of delivery changes. -/
def Logged (entries : List LogEntry) (s s' : State) : Prop :=
  ∀ o, s.delivery.outlet = some o → ∃ o', s'.delivery = { s.delivery with outlet := some o' } ∧ o'.log = o.log ++ entries

/-- Nothing was logged. -/
theorem Logged.of_same (h : s'.delivery = s.delivery) : Logged [] s s' := by
  intro o opened
  refine ⟨o, ?_, (List.append_nil _).symm⟩
  rw [h, ← opened]

/-- What is logged one after the other is logged. -/
theorem Logged.trans (first : Logged entries s m) (rest : Logged more m s') : Logged (entries ++ more) s s' := by
  intro o opened
  obtain ⟨o₁, delivery₁, log₁⟩ := first o opened
  obtain ⟨o₂, delivery₂, log₂⟩ := rest o₁ (by rw [delivery₁])
  refine ⟨o₂, by rw [delivery₂, delivery₁], ?_⟩
  rw [log₂, log₁, List.append_assoc]

/-- What the stream logs is logged. -/
theorem onStream_logged (h : onStream x s = .ok u s')
    (logs : ∀ o o', x o = .ok () o' → o'.log = o.log ++ entries) : Logged entries s s' := by
  intro o opened
  rcases onStream_ok h with ⟨closed, -⟩ | ⟨o₁, o', opened', run, same⟩
  · rw [closed] at opened
    cases opened
  · rw [opened'] at opened
    cases opened
    exact ⟨o', by rw [same], logs _ _ run⟩

/-- What each item logs is logged. -/
theorem forM_logged {items : List Nat} {body : Nat → EngineM PUnit} {part : Nat → List LogEntry}
    (step : ∀ index m m', body index m = .ok ⟨⟩ m' → Logged (part index) m m')
    (h : forM items body s = .ok ⟨⟩ s') : Logged (items.flatMap part) s s' := by
  induction items generalizing s with
  | nil =>
    rw [← forM_nil_ok.1 h]
    exact Logged.of_same rfl
  | cons index items ih =>
    obtain ⟨m, first, rest⟩ := forM_cons_ok.1 h
    rw [List.flatMap_cons]
    exact (step _ _ _ first).trans (ih rest)

end

section
variable (values : SerdeValues)

/-- What is sent of plans when their calls start. -/
def startEntries (plans : List GatewayEventPlan) : List LogEntry := ownEntries (plans.flatMap (·.startEvents values))

/-- What is sent of plans when their calls are completed. -/
def completedEntries (plans : List GatewayEventPlan) : List LogEntry :=
  ownEntries (plans.flatMap (·.completedEvents values))

/-- What is sent of the item at `index`, after the calls are executed: the events of its call, of which those of the
`early` first calls have started before, and the frames held of it. -/
def itemEntries (calls : List GatewayCallPlan) (plans : List GatewayEventPlan) (early : Nat)
    (deferred_events : List EventFrame) (index : Nat) : List LogEntry :=
  (match GatewayScheduler.callIndexForItem calls index with
    | none => []
    | some call_index =>
      (if early ≤ call_index then startEntries values plans[call_index]?.toList else []) ++
        completedEntries values plans[call_index]?.toList) ++
  frameEntries (deferred_events.filter fun frame => frame.position = some index)

/-- What is sent after the calls of a round are executed, when frames were held. -/
def lateEntries (calls : List GatewayCallPlan) (plans : List GatewayEventPlan) (early items : Nat)
    (deferred_events : List EventFrame) : List LogEntry :=
  (List.range items).flatMap (itemEntries values calls plans early deferred_events) ++
    frameEntries (deferred_events.filter fun frame => !frame.position.any (· < items))

end

section
variable {services : Services} {s s' : State} {u : Unit} {ctx : RequestContext} {output_offset round : Nat}
  {calls : List GatewayCallPlan} {plans : List GatewayEventPlan} {early index : Nat} {deferred_events : List EventFrame}
  {output_items : List OutputItem} {results : List GatewayCallResult}

/-- The events that open the calls are logged. -/
theorem startEvents_logged (h : onStream (emitGatewayStartEvents services.values plans) s = .ok u s') :
    Logged (startEntries services.values plans) s s' :=
  onStream_logged h fun _ _ run => (startEvents_logs run).log

/-- The events that end the calls are logged. -/
theorem completedEvents_logged (h : onStream (emitGatewayCompletedEvents services.values plans) s = .ok u s') :
    Logged (completedEntries services.values plans) s s' :=
  onStream_logged h fun _ _ run => (completedEvents_logs run).log

/-- The held frames are logged. -/
theorem deferredEvents_logged (h : onStream (emitDeferredStreamEvents ctx output_offset deferred_events) s = .ok u s') :
    Logged (frameEntries deferred_events) s s' :=
  onStream_logged h fun _ _ run => emitDeferred_log run

/-- The events of the items are logged, call by call. -/
theorem emitItemEvents_logged
    (h : emitItemEvents services ctx output_offset calls plans early deferred_events index s = .ok u s') :
    Logged (itemEntries services.values calls plans early deferred_events index) s s' := by
  unfold emitItemEvents at h
  unfold itemEntries
  cases found : GatewayScheduler.callIndexForItem calls index with
  | none =>
    rw [found] at h
    exact deferredEvents_logged h
  | some call_index =>
    rw [found] at h
    dsimp only at h ⊢
    split at h
    · rename_i later
      obtain ⟨_, m₁, started, h⟩ := bind_ok.1 h
      obtain ⟨_, m₂, completed, h⟩ := bind_ok.1 h
      rw [if_pos later]
      exact ((startEvents_logged started).trans (completedEvents_logged completed)).trans (deferredEvents_logged h)
    · rename_i before
      obtain ⟨_, m₂, completed, h⟩ := bind_ok.1 h
      rw [if_neg before]
      exact (completedEvents_logged completed).trans (deferredEvents_logged h)

/-- How many calls of a round are started before they are executed: all of them, unless frames are held. -/
def earlyRun (calls : List GatewayCallPlan) (output_items : List OutputItem) (registry : ToolRegistry)
    (deferred_events : List EventFrame) : Nat :=
  if deferred_events.isEmpty then calls.length else GatewayScheduler.initialEventRunLen calls output_items registry

/-- **The events of a round's calls**: the first calls are started, all calls are executed, and then comes what there
is for every item. -/
theorem executeRoundOutput_logged {o : Outlet} (opened : s.delivery.outlet = some o)
    (h : executeRoundOutput services output_items output_offset round deferred_events s = .ok results s') :
    ∃ m budget, executeWithBudget (GatewayScheduler.plan output_items s.registry output_offset) round m.budget =
        .ok results budget ∧
      Logged (startEntries services.values (((GatewayScheduler.plan output_items s.registry output_offset).map
        (·.events)).take (earlyRun (GatewayScheduler.plan output_items s.registry output_offset) output_items s.registry
          deferred_events))) s m ∧
      Logged (if deferred_events.isEmpty then
          completedEntries services.values
            (completePlans (GatewayScheduler.plan output_items s.registry output_offset) results)
        else lateEntries services.values (GatewayScheduler.plan output_items s.registry output_offset)
          (completePlans (GatewayScheduler.plan output_items s.registry output_offset) results)
          (earlyRun (GatewayScheduler.plan output_items s.registry output_offset) output_items s.registry deferred_events)
          output_items.length deferred_events) m s' := by
  unfold executeRoundOutput at h
  obtain ⟨_, _, read, h⟩ := bind_ok.1 h
  cases read
  dsimp only at h
  rw [opened, Option.isNone_some] at h
  unfold earlyRun
  cases none_held : deferred_events.isEmpty with
  | true =>
    rw [if_pos (.inl none_held)] at h
    unfold executeAndEmitOutputCalls at h
    obtain ⟨_, m₁, started, h⟩ := bind_ok.1 h
    obtain ⟨_, m₂, executed, h⟩ := bind_ok.1 h
    obtain ⟨_, m₃, completed, h⟩ := bind_ok.1 h
    obtain ⟨same, last⟩ := pure_ok.1 h
    subst same last
    obtain ⟨budget, ran, closed⟩ := onBudget_ok executed
    have spent : Logged [] m₁ m₂ := Logged.of_same (by rw [closed])
    refine ⟨m₁, budget, ran, ?_, ?_⟩
    · rw [if_pos rfl, List.take_of_length_le (by simp)]
      exact startEvents_logged started
    · exact spent.trans (completedEvents_logged completed)
  | false =>
    rw [if_neg (by simp [none_held])] at h
    obtain ⟨_, m₁, started, h⟩ := bind_ok.1 h
    obtain ⟨_, m₂, executed, h⟩ := bind_ok.1 h
    obtain ⟨_, m₃, released, h⟩ := bind_ok.1 h
    obtain ⟨_, m₄, remaining, h⟩ := bind_ok.1 h
    obtain ⟨same, last⟩ := pure_ok.1 h
    subst same last
    obtain ⟨budget, ran, closed⟩ := onBudget_ok executed
    have spent : Logged [] m₁ m₂ := Logged.of_same (by rw [closed])
    have items := forM_logged (fun _ _ _ step => emitItemEvents_logged step) released
    exact ⟨m₁, budget, ran, startEvents_logged started, spent.trans (items.trans (deferredEvents_logged remaining))⟩

end
end AgenticStack.Engine
