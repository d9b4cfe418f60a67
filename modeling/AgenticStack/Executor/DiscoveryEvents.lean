import AgenticStack.Executor.RoundEvents
import AgenticStack.Library.Outcome

/-!
# The events of a turn's listings

A streaming client is sent the events of the listings once: when it is first
shown progress by a frame that was not held back.
-/

namespace AgenticStack
set_option autoImplicit false
open Library

/-- Whether the engine wrote the event itself. -/
def LogEntry.isOwn : LogEntry → Bool
  | .own _ _ => true
  | .frame _ => false

/-- The events of the gateway's own that a client was sent. -/
def Outlet.own (o : Outlet) : List LogEntry := o.log.filter LogEntry.isOwn

/-- The events of listings: all are started, then all are completed. -/
def discoveryEvents (values : SerdeValues) (lists : List McpListTools) : List LogEntry :=
  Engine.startEntries values (mcpListToolsEventPlans (lists.map .mcpListTools) 0) ++
    Engine.completedEntries values (mcpListToolsEventPlans (lists.map .mcpListTools) 0)

/-- A frame that shows progress at once. -/
def showsProgress (barrier : Option Nat) (frame : EventFrame) : Bool :=
  frame.event_type = .responseInProgress && !hides barrier frame.position

/-- The frames that are released after a translation, if the barrier has moved. -/
def released (barrier : Option Nat) (held : List EventFrame) (t : Translation) : List EventFrame :=
  if t.defer_from_output_index = barrier then []
  else sortDeferred (held ++ t.delivered.filter fun f => hides t.defer_from_output_index f.position)

/-- Whether the first frame that shows progress comes at once, not after it was held. -/
def announcesProgress (barrier : Option Nat) (held : List EventFrame) : List Translation → Bool
  | [] => false
  | t :: ts =>
    t.frames.any (showsProgress t.defer_from_output_index) ||
      (!(released barrier held t).any (showsProgress t.defer_from_output_index) &&
        announcesProgress t.defer_from_output_index (heldNext barrier held t) ts)

section
variable {o m o' : Outlet} {events entries : List LogEntry} {announces progress announces' progress' : Bool}

/-- The client is sent the `events` if it is shown progress at once and has not been before. -/
structure Gains (events : List LogEntry) (announces progress : Bool) (o o' : Outlet) : Prop where
  own : o'.own = o.own ++ if announces && !o.progressed then events else []
  progressed : o'.progressed = (o.progressed || progress)
  sound : announces = true → progress = true

/-- Nothing was written. -/
theorem Gains.refl : Gains events false false o o where
  own := (List.append_nil _).symm
  progressed := (Bool.or_false _).symm
  sound := id

/-- What is written one after the other is written. -/
theorem Gains.trans (first : Gains events announces progress o m) (rest : Gains events announces' progress' m o') :
    Gains events (announces || !progress && announces') (progress || progress') o o' where
  own := by
    rw [rest.own, first.own, first.progressed]
    have sound := first.sound
    cases announces with
    | true =>
      rw [sound rfl]
      simp
    | false => cases progress <;> cases announces' <;> cases o.progressed <;> simp
  progressed := by rw [rest.progressed, first.progressed, Bool.or_assoc]
  sound := by
    have sound := first.sound
    have sound' := rest.sound
    cases announces <;> cases announces' <;> simp_all

/-- What the log gains are the events that were written. -/
theorem own_of_log (log : o'.log = o.log ++ entries) : o'.own = o.own ++ entries.filter LogEntry.isOwn := by
  rw [Outlet.own, log, List.filter_append]
  rfl

/-- The frames of a round are none of the engine's own events. -/
theorem own_frameEntries {frames : List EventFrame} : (frameEntries frames).filter LogEntry.isOwn = [] := by
  rw [frameEntries, List.filter_map]
  simp [Function.comp_def, LogEntry.isOwn]

/-- The engine's own events are its own. -/
theorem own_ownEntries {events : List (SSEEventType × List (Text × Json))} :
    (ownEntries events).filter LogEntry.isOwn = ownEntries events := by
  rw [ownEntries, List.filter_map]
  simp [Function.comp_def, LogEntry.isOwn]

end

section
variable {ctx : Engine.RequestContext} {output_offset : Nat} {serde : SerdeJson} {values : SerdeValues}
  {registry : ToolRegistry} {frame : EventFrame} {frames : List EventFrame} {barrier : Option Nat} {s s' : Delivering}
  {o o' : Outlet} {emitted : Bool} {events : List LogEntry}

/-- A listing is shown as it is. -/
theorem publicOutputItems_listings {lists : List McpListTools} :
    publicOutputItems serde (lists.map .mcpListTools) registry [] = .ok (lists.map .mcpListTools) := by
  have pass : ∀ n, ((lists.map OutputItem.mcpListTools).zipIdx n).mapM
      (fun p => publicOutputItem serde registry [] p.2 p.1) = .ok (lists.map .mcpListTools) := by
    induction lists with
    | nil => exact fun n => rfl
    | cons list lists ih =>
      intro n
      rw [List.map_cons, List.zipIdx_cons, List.mapM_cons]
      refine bind_eq_ok.2 ⟨.mcpListTools list, rfl, bind_eq_ok.2 ⟨_, ih (n + 1), rfl⟩⟩
  exact pass 0

/-- The listings of the servers are written, and that is progress. -/
theorem discovery_gains (h : emitMcpDiscoveryLifecycle serde values registry o = .ok () o') :
    o'.own = o.own ++ discoveryEvents values registry.mcp_list_tool_items ∧ o'.progressed = o.progressed := by
  unfold emitMcpDiscoveryLifecycle at h
  obtain ⟨items, m, public_, h⟩ := bind_ok.1 h
  obtain ⟨public_, same⟩ := ofExcept_ok.1 public_
  subst same
  rw [publicOutputItems_listings] at public_
  obtain ⟨_, m, started, h⟩ := bind_ok.1 h
  have logs := (startEvents_logs started).trans (completedEvents_logs h)
  cases public_
  refine ⟨?_, logs.progressed⟩
  rw [own_of_log logs.log, List.filter_append, own_ownEntries, own_ownEntries]
  rfl

/-- A frame that is passed on or held back may be progress, and announces nothing. -/
theorem emitOrDefer_gains (h : emitOrDeferStreamFrame ctx output_offset barrier frame s = .ok emitted s') :
    Gains events false (showsProgress barrier frame) s.outlet s'.outlet ∧
      (frame.event_type = .responseInProgress → emitted = (showsProgress barrier frame && !s.outlet.progressed)) := by
  obtain ⟨delivers, visible⟩ := emitOrDefer_ok h
  unfold showsProgress
  cases delivers with
  | held hidden outlet =>
    rw [hidden, outlet]
    simp only [Bool.not_true, Bool.and_false]
    refine ⟨Gains.refl, fun _ => eq_false_of_ne_true fun yes => ?_⟩
    exact Bool.false_ne_true ((visible yes).symm.trans hidden)
  | sent plain =>
    rw [plain]
    simp only [Bool.not_false, Bool.and_true]
    unfold emitOrDeferStreamFrame at h
    rw [if_neg (by rw [show shouldDeferStreamEvent frame barrier = false from plain]; simp)] at h
    obtain ⟨p, sent, closed⟩ := onPart_ok.1 h
    subst closed
    obtain ⟨log, progressed, fresh⟩ := emitStreamFrame_log sent
    refine ⟨⟨?_, progressed, fun no => absurd no Bool.false_ne_true⟩, ?_⟩
    · show p.own = _
      rw [own_of_log log, own_frameEntries]
      rfl
    · intro type
      rw [fresh type, type]
      simp

/-- A frame that is accepted writes the listings before it, where it is the first to show progress. -/
theorem acceptFrame_gains (h : acceptFrame ctx output_offset serde values registry barrier frame s = .ok () s') :
    Gains (discoveryEvents values registry.mcp_list_tool_items) (showsProgress barrier frame)
      (showsProgress barrier frame) s.outlet s'.outlet := by
  unfold acceptFrame at h
  split at h
  · rename_i terminal
    cases h
    have other : showsProgress barrier frame = false := by
      unfold showsProgress
      rw [decide_eq_false, Bool.false_and]
      intro type
      rw [type] at terminal
      cases terminal
    rw [other]
    exact Gains.refl
  · obtain ⟨emitted, m, delivered, rest⟩ := bind_ok.1 h
    obtain ⟨gains, fresh⟩ := @emitOrDefer_gains ctx output_offset frame barrier s m emitted
      (discoveryEvents values registry.mcp_list_tool_items) delivered
    have own := gains.own
    rw [Bool.false_and, if_neg Bool.false_ne_true, List.append_nil] at own
    split at rest
    · rename_i started
      obtain ⟨p, listed, closed⟩ := onPart_ok.1 rest
      subst closed
      obtain ⟨events, progressed⟩ := discovery_gains listed
      refine ⟨?_, progressed.trans gains.progressed, id⟩
      rw [← fresh started.1, if_pos started.2, ← own]
      exact events
    · rename_i quiet
      cases rest
      refine ⟨?_, gains.progressed, id⟩
      rw [own]
      by_cases type : frame.event_type = .responseInProgress
      · rw [← fresh type, if_neg fun yes => quiet ⟨type, yes⟩, List.append_nil]
      · simp [showsProgress, type]

/-- The frames of a round write the listings once. -/
theorem frames_gains (h : forM frames (acceptFrame ctx output_offset serde values registry barrier) s = .ok ⟨⟩ s') :
    Gains (discoveryEvents values registry.mcp_list_tool_items) (frames.any (showsProgress barrier))
      (frames.any (showsProgress barrier)) s.outlet s'.outlet := by
  induction frames generalizing s with
  | nil =>
    rw [forM_nil_ok.1 h]
    exact Gains.refl
  | cons frame frames ih =>
    obtain ⟨m, first, rest⟩ := forM_cons_ok.1 h
    have both := (acceptFrame_gains first).trans (ih rest)
    rw [List.any_cons]
    cases shown : showsProgress barrier frame <;> simpa [shown] using both

/-- The frames that are let go announce nothing. -/
theorem released_gains
    (h : (forM frames fun frame => do
      let _ ← emitOrDeferStreamFrame ctx output_offset barrier frame : DeliveringM PUnit) s = .ok ⟨⟩ s') :
    Gains events false (frames.any (showsProgress barrier)) s.outlet s'.outlet := by
  induction frames generalizing s with
  | nil =>
    rw [forM_nil_ok.1 h]
    exact Gains.refl
  | cons frame frames ih =>
    obtain ⟨m, first, rest⟩ := forM_cons_ok.1 h
    obtain ⟨emitted, m', delivered, done⟩ := bind_ok.1 first
    obtain ⟨-, same⟩ := pure_ok.1 done
    subst same
    have both := (@emitOrDefer_gains ctx output_offset frame barrier s _ emitted events delivered).1.trans (ih rest)
    rw [Bool.and_false, Bool.or_false] at both
    exact both

/-- Letting go of held frames announces nothing. -/
theorem flush_gains (h : flushReleasedStreamFrames ctx output_offset barrier s = .ok () s') :
    Gains events false ((sortDeferred s.deferred_events).any (showsProgress barrier)) s.outlet s'.outlet := by
  unfold flushReleasedStreamFrames at h
  obtain ⟨here, m, read, rest⟩ := bind_ok.1 h
  cases read
  obtain ⟨_, m, written, rest⟩ := bind_ok.1 rest
  cases written
  exact released_gains (s := s.emptied) rest

end

section
variable {ctx : Engine.RequestContext} {output_offset : Nat} {serde : SerdeJson} {values : SerdeValues}
  {registry : ToolRegistry} {t : Translation} {ts : List Translation} {d d' : StreamDelivery} {o : Outlet}

/-- What a round shows writes the listings before it, once. -/
theorem accept_gains (h : StreamDelivery.accept ctx output_offset serde values registry t d = .ok () d')
    (opened : d.outlet = some o) :
    ∃ o', StreamDelivery.Accepts t d o d' o' ∧
      Gains (discoveryEvents values registry.mcp_list_tool_items) (t.frames.any (showsProgress t.defer_from_output_index))
        (t.frames.any (showsProgress t.defer_from_output_index) ||
          (released d.defer_from_output_index d.deferred_events t).any (showsProgress t.defer_from_output_index)) o o' := by
  obtain ⟨o₁, accepts⟩ := StreamDelivery.accept_accepts h opened
  obtain ⟨o', m, opened', barrier, frames, rest⟩ := StreamDelivery.accept_runs h opened
  obtain rfl : o₁ = o' := Option.some.inj (accepts.opened.symm.trans opened')
  refine ⟨o₁, accepts, ?_⟩
  have first := frames_gains frames
  have held := (frames_handled frames).deferred
  unfold released
  rcases rest with ⟨same, stays⟩ | ⟨moved, flushed⟩
  · rw [if_pos same, List.any_nil, Bool.or_false]
    rw [← stays] at first
    exact first
  · rw [if_neg moved]
    have later := @flush_gains ctx output_offset _ _ _ (discoveryEvents values registry.mcp_list_tool_items) flushed
    rw [held] at later
    have both := first.trans later
    rw [Bool.and_false, Bool.or_false] at both
    exact both

/-- **The translations of a round**: the listings' events are sent when progress is first shown, and it is at once. -/
theorem accepted_gains (h : StreamDelivery.Accepted ctx output_offset serde values registry ts d d')
    (opened : d.outlet = some o) :
    ∃ o' progress, d'.outlet = some o' ∧ Gains (discoveryEvents values registry.mcp_list_tool_items)
      (announcesProgress d.defer_from_output_index d.deferred_events ts) progress o o' := by
  induction h generalizing o with
  | nil => exact ⟨o, false, opened, Gains.refl⟩
  | @cons t ts d m d' first rest ih =>
    obtain ⟨o₁, accepts, now⟩ := accept_gains first opened
    obtain ⟨o', progress, opened', later⟩ := ih accepts.opened
    rw [accepts.barrier, accepts.held] at later
    have either : announcesProgress d.defer_from_output_index d.deferred_events (t :: ts) =
        (t.frames.any (showsProgress t.defer_from_output_index) ||
          !(t.frames.any (showsProgress t.defer_from_output_index) ||
            (released d.defer_from_output_index d.deferred_events t).any (showsProgress t.defer_from_output_index)) &&
          announcesProgress t.defer_from_output_index (heldNext d.defer_from_output_index d.deferred_events t) ts) := by
      rw [announcesProgress]
      cases t.frames.any (showsProgress t.defer_from_output_index) <;> simp
    rw [either]
    exact ⟨o', _, opened', now.trans later⟩

end
end AgenticStack
