import AgenticStack.Executor.Pipeline.DeliveryRuns

/-!
# The log of the events

What a client was sent, apart from the two events a response has once: the
events of the gateway's own, and the upstream frames it was shown.
-/

namespace AgenticStack
set_option autoImplicit false
open Library

/-- An event of the gateway's own, or an upstream frame. -/
inductive LogEntry where
  | own (type : SSEEventType) (fields : List (Text × Json))
  | frame (frame : EventFrame)

/-- What an event is in the log: one of the engine's own or a frame that is passed on. -/
def StreamedEvent.entry (event : StreamedEvent) : Option LogEntry :=
  if isLifecycleEvent event.frame.event_type then none
  else match event.source with
    | none => some (.own event.frame.event_type event.frame.wire.rest)
    | some frame => some (.frame frame)

/-- What was written, without the events of the life of the response. -/
def Outlet.log (o : Outlet) : List LogEntry := o.events.filterMap StreamedEvent.entry

/-- Whether the response has been shown to make progress. -/
def Outlet.progressed (o : Outlet) : Bool := o.accumulator.emitted_in_progress

/-- The entries of the gateway's own events. -/
def ownEntries (events : List (SSEEventType × List (Text × Json))) : List LogEntry :=
  events.map fun event => .own event.1 event.2

/-- The entries of upstream frames. -/
def frameEntries (frames : List EventFrame) : List LogEntry :=
  (frames.filter fun frame => !isLifecycleEvent frame.event_type).map .frame

section
variable {o o' : Outlet} {frame : EventFrame} {source : Option EventFrame} {offset : Nat} {emitted : Bool}
  {events : List (SSEEventType × List (Text × Json))} {frames more : List EventFrame} {values : SerdeValues}
  {plan : GatewayEventPlan} {plans : List GatewayEventPlan} {type : SSEEventType}

/-- The entries of two lists of frames are those of both. -/
theorem frameEntries_append : frameEntries (frames ++ more) = frameEntries frames ++ frameEntries more := by
  rw [frameEntries, List.filter_append, List.map_append]
  rfl

theorem frameEntries_cons : frameEntries (frame :: frames) = frameEntries [frame] ++ frameEntries frames :=
  @frameEntries_append [frame] frames

/-- The entries of two lists of events are those of both. -/
theorem ownEntries_append {later : List (SSEEventType × List (Text × Json))} :
    ownEntries (events ++ later) = ownEntries events ++ ownEntries later :=
  List.map_append

/-- The number and the index of an event leave its type as it is. -/
theorem event_type_stamped {n : Nat} : ((frame.number n).rebaseOutputIndex offset).event_type = frame.event_type := by
  unfold EventFrame.rebaseOutputIndex
  split <;> rfl

/-- The number and the index of an event leave its fields as they are. -/
theorem rest_stamped {n : Nat} : ((frame.number n).rebaseOutputIndex offset).wire.rest = frame.wire.rest := by
  unfold EventFrame.rebaseOutputIndex
  split <;> rfl

/-- The log gains the event that is written. -/
theorem log_push : (o.push source frame offset).log = o.log ++ ((o.eventOf source frame offset).entry).toList := by
  unfold Outlet.log
  rw [Outlet.events_push, List.filterMap_append]
  cases shown : (o.eventOf source frame offset).entry <;> simp [shown]

/-- The log gains an event of the engine. -/
theorem log_push_own (plain : isLifecycleEvent frame.event_type = false) :
    (o.push none frame offset).log = o.log ++ [.own frame.event_type frame.wire.rest] := by
  have entry : (o.eventOf none frame offset).entry = some (.own frame.event_type frame.wire.rest) := by
    unfold StreamedEvent.entry Outlet.eventOf
    dsimp only
    rw [event_type_stamped, rest_stamped, if_neg (by simp [plain])]
  rw [log_push, entry]
  rfl

/-- The log gains a frame that is passed on. -/
theorem log_push_frame (same : frame.event_type = (source.getD frame).event_type) :
    (o.push (some (source.getD frame)) frame offset).log = o.log ++ frameEntries [source.getD frame] := by
  rw [log_push]
  congr 1
  unfold StreamedEvent.entry Outlet.eventOf frameEntries
  dsimp only
  rw [event_type_stamped, same]
  cases shape : isLifecycleEvent (source.getD frame).event_type <;> simp [shape]

/-- A turn has shown progress where it did before or the event is that of progress. -/
theorem progressed_push : (o.push source frame offset).progressed =
    (o.progressed || decide (frame.event_type = .responseInProgress)) := by
  show (o.accumulator.next frame.event_type).emitted_in_progress = _
  unfold GatewayStreamAccumulator.next GatewayStreamAccumulator.markEmitted Outlet.progressed
  cases type : frame.event_type <;> simp

/-- An event that may come again is not held back. -/
theorem repeats_plain {acc : GatewayStreamAccumulator} (plain : isLifecycleEvent type = false) : acc.repeats type = false := by
  cases type <;> first | rfl | cases plain

theorem plain_ne_progress (plain : isLifecycleEvent type = false) : type ≠ .responseInProgress := by
  rintro rfl
  cases plain

/-- None of the events is one that a response has once. -/
def PlainEvents (events : List (SSEEventType × List (Text × Json))) : Prop :=
  ∀ event ∈ events, isLifecycleEvent event.1 = false

/-- The events are added to the log, and are no sign of progress. -/
structure Logs (entries : List LogEntry) (o o' : Outlet) : Prop where
  log : o'.log = o.log ++ entries
  progressed : o'.progressed = o.progressed

/-- Nothing is logged. -/
theorem Logs.refl : Logs [] o o := ⟨(List.append_nil _).symm, rfl⟩

/-- What is logged one after the other is logged. -/
theorem Logs.trans {m : Outlet} {first rest : List LogEntry} (earlier : Logs first o m) (later : Logs rest m o') :
    Logs (first ++ rest) o o' :=
  ⟨by rw [later.log, earlier.log, List.append_assoc], later.progressed.trans earlier.progressed⟩

/-- One event: those that a response has once leave no entry, the others are no sign of progress. -/
theorem emitGatewayFrame_log {event : SSEEventType × List (Text × Json)}
    (h : (do
      let frame ← ofExcept (gatewayFrame event.1 event.2)
      emitGatewayEvent frame : OutletM Unit) o = .ok ⟨⟩ o') :
    o'.log = o.log ++ ownEntries ([event].filter fun event => !isLifecycleEvent event.1) ∧
      (isLifecycleEvent event.1 = false → o'.progressed = o.progressed) := by
  obtain ⟨frame, m', made, sent⟩ := bind_ok.1 h
  obtain ⟨made, same⟩ := ofExcept_ok.1 made
  subst same
  unfold emitGatewayEvent at sent
  obtain ⟨_, m', emitted, done⟩ := bind_ok.1 sent
  obtain ⟨-, same⟩ := pure_ok.1 done
  subst same
  have shape : frame.event_type = event.1 ∧ frame.wire.rest = event.2 := by
    unfold gatewayFrame EventFrame.synthetic at made
    cases name : event.1.wireName with
    | none =>
      rw [name] at made
      cases made
    | some name' =>
      rw [name] at made
      cases made
      exact ⟨rfl, rfl⟩
  rw [← shape.1]
  cases once : isLifecycleEvent frame.event_type with
  | true =>
    refine ⟨?_, fun no => absurd no.symm Bool.false_ne_true⟩
    rw [List.filter_cons_of_neg (by rw [← shape.1, once]; simp), List.filter_nil]
    rcases processAndEmit_ok emitted with ⟨-, -, same⟩ | ⟨-, -, pushed⟩
    · rw [same]
      exact (List.append_nil _).symm
    · have entry : (o.eventOf none frame 0).entry = none := by
        unfold StreamedEvent.entry Outlet.eventOf
        dsimp only
        rw [event_type_stamped, if_pos once]
      rw [pushed, log_push, entry]
      rfl
  | false =>
    rw [List.filter_cons_of_pos (by rw [← shape.1, once]; rfl), List.filter_nil]
    rcases processAndEmit_ok emitted with ⟨-, again, -⟩ | ⟨-, -, pushed⟩
    · exact absurd ((repeats_plain once).symm.trans again) Bool.false_ne_true
    · subst pushed
      refine ⟨?_, fun _ => ?_⟩
      · rw [log_push_own once, shape.1, shape.2]
        rfl
      · rw [progressed_push, decide_eq_false (plain_ne_progress once), Bool.or_false]

/-- The events of the engine are logged, but those of the life of the response. -/
theorem emitGatewayEvents_log (h : emitGatewayEvents events o = .ok ⟨⟩ o') :
    o'.log = o.log ++ ownEntries (events.filter fun event => !isLifecycleEvent event.1) := by
  unfold emitGatewayEvents at h
  induction events generalizing o with
  | nil =>
    rw [forM_nil_ok.1 h]
    exact (List.append_nil _).symm
  | cons event events ih =>
    obtain ⟨m, first, rest⟩ := forM_cons_ok.1 h
    rw [ih rest, (emitGatewayFrame_log first).1, List.append_assoc, ← ownEntries_append, ← List.filter_append]
    rfl

/-- Plain events are logged as they are. -/
theorem emitGatewayEvents_logs (plain : PlainEvents events) (h : emitGatewayEvents events o = .ok ⟨⟩ o') :
    Logs (ownEntries events) o o' := by
  refine ⟨?_, ?_⟩
  · rw [emitGatewayEvents_log h, List.filter_eq_self.2]
    intro event mem
    rw [plain event mem]
    rfl
  · unfold emitGatewayEvents at h
    induction events generalizing o with
    | nil => rw [forM_nil_ok.1 h]
    | cons event events ih =>
      obtain ⟨m, first, rest⟩ := forM_cons_ok.1 h
      rw [ih (fun other mem => plain other (List.mem_cons_of_mem _ mem)) rest]
      exact (emitGatewayFrame_log first).2 (plain event List.mem_cons_self)

/-- The events that open a call are plain. -/
theorem startEvents_plain : PlainEvents (plan.startEvents values) := by
  intro event mem
  unfold GatewayEventPlan.startEvents at mem
  split at mem
  · cases mem
  · rcases List.mem_cons.1 mem with rfl | mem
    · rfl
    · split at mem <;> simp only [List.mem_cons, List.not_mem_nil, or_false] at mem
      all_goals rcases mem with rfl | rfl | rfl <;> rfl

/-- The events that end a call are plain. -/
theorem completedEvents_plain : PlainEvents (plan.completedEvents values) := by
  intro event mem
  unfold GatewayEventPlan.completedEvents at mem
  split at mem
  · cases mem
  · dsimp only at mem
    split at mem <;> simp only [List.mem_cons, List.not_mem_nil, or_false] at mem
    all_goals first
      | (rcases mem with rfl | rfl <;> rfl)
      | (rcases mem with rfl | rfl
         · dsimp only
           split <;> rfl
         · rfl)

/-- What is emitted for each plan is logged plan by plan. -/
theorem plans_logs {emit : GatewayEventPlan → OutletM PUnit} {eventsOf : GatewayEventPlan → List (SSEEventType × List (Text × Json))}
    (one : ∀ plan o o', emit plan o = .ok ⟨⟩ o' → Logs (ownEntries (eventsOf plan)) o o')
    (h : forM plans emit o = .ok ⟨⟩ o') : Logs (ownEntries (plans.flatMap eventsOf)) o o' := by
  induction plans generalizing o with
  | nil =>
    rw [forM_nil_ok.1 h]
    exact Logs.refl
  | cons plan plans ih =>
    obtain ⟨m, first, rest⟩ := forM_cons_ok.1 h
    rw [List.flatMap_cons, ownEntries_append]
    exact (one plan o m first).trans (ih rest)

/-- The events that open the calls are logged. -/
theorem startEvents_logs (h : emitGatewayStartEvents values plans o = .ok ⟨⟩ o') :
    Logs (ownEntries (plans.flatMap (GatewayEventPlan.startEvents values))) o o' :=
  plans_logs (fun _ _ _ run => emitGatewayEvents_logs startEvents_plain run) h

/-- The events that end the calls are logged. -/
theorem completedEvents_logs (h : emitGatewayCompletedEvents values plans o = .ok ⟨⟩ o') :
    Logs (ownEntries (plans.flatMap (GatewayEventPlan.completedEvents values))) o o' :=
  plans_logs (fun _ _ _ run => emitGatewayEvents_logs completedEvents_plain run) h

end

section
variable {ctx : Engine.RequestContext} {output_offset : Nat} {frame : EventFrame} {frames : List EventFrame} {o o' : Outlet}
  {emitted : Bool}

/-- A frame is logged unless it is one that a response has once; a second sign of progress is not sent. -/
theorem emitStreamFrame_log (h : emitStreamFrame ctx output_offset frame o = .ok emitted o') :
    o'.log = o.log ++ frameEntries [frame] ∧
      o'.progressed = (o.progressed || decide (frame.event_type = .responseInProgress)) ∧
      (frame.event_type = .responseInProgress → emitted = !o.progressed) := by
  rcases processAndEmit_ok h with ⟨none, again, same⟩ | ⟨yes, fresh, pushed⟩
  · subst same
    have once : isLifecycleEvent frame.event_type = true := by
      apply eq_true_of_ne_false
      intro plain
      exact Bool.false_ne_true ((repeats_plain plain).symm.trans again)
    refine ⟨?_, ?_, ?_⟩
    · simp [frameEntries, once]
    · cases type : frame.event_type <;> simp [type, isLifecycleEvent] at once ⊢
      · dsimp only at again
        rw [type] at again
        exact again
    · intro type
      dsimp only at again
      rw [type] at again
      rw [none, show o'.progressed = true from again]
      rfl
  · subst pushed
    refine ⟨@log_push_frame o _ (some frame) output_offset rfl, progressed_push, ?_⟩
    intro type
    dsimp only at fresh
    rw [type] at fresh
    rw [yes, show o.progressed = false from fresh]
    rfl

/-- Frames that are let go are logged. -/
theorem emitDeferred_log (h : emitDeferredStreamEvents ctx output_offset frames o = .ok ⟨⟩ o') :
    o'.log = o.log ++ frameEntries frames := by
  unfold emitDeferredStreamEvents at h
  induction frames generalizing o with
  | nil =>
    rw [forM_nil_ok.1 h]
    exact (List.append_nil _).symm
  | cons frame frames ih =>
    obtain ⟨m, first, rest⟩ := forM_cons_ok.1 h
    obtain ⟨_, m', sent, done⟩ := bind_ok.1 first
    obtain ⟨-, same⟩ := pure_ok.1 done
    subst same
    rw [ih rest, (emitStreamFrame_log sent).1, @frameEntries_cons frame frames, List.append_assoc]

end

end AgenticStack
