import AgenticStack.Executor.Pipeline.Delivery
import AgenticStack.Library.HoldBack

/-!
# What delivery holds back

Delivery is a buffer that holds back by output index: what a client was sent of
an index, and what is held of it, are together what came of it.
-/

namespace AgenticStack
set_option autoImplicit false
open Library

/-- Whether the event tells of the life of the response. -/
def isLifecycleEvent : SSEEventType → Bool
  | .responseCreated | .responseInProgress => true
  | _ => false

/-- A frame of an item: it neither ends the response nor is one of the events a response has once. -/
def EventFrame.isPublic (frame : EventFrame) : Bool :=
  !isTerminalResponseEvent frame.event_type && !isLifecycleEvent frame.event_type

/-- The output index a frame is held back by. -/
abbrev EventFrame.position (frame : EventFrame) : Option Nat := frame.wire.output_index

/-- An index that is held back. -/
def hides (defer_from_output_index position : Option Nat) : Bool :=
  defer_from_output_index.any fun first_hidden_index => position.any (first_hidden_index ≤ ·)

/-- The upstream frames the client was sent. -/
def Outlet.sources (o : Outlet) : List EventFrame := o.events.filterMap (·.source)

/-- The frames of items the client was sent. -/
def Outlet.shown (o : Outlet) : List EventFrame := o.sources.filter EventFrame.isPublic

/-- What was shown and what is held back, of the public frames. -/
def Delivering.buffer (s : Delivering) : HoldBack EventFrame :=
  ⟨s.outlet.shown, s.deferred_events.filter EventFrame.isPublic⟩

/-- The bytes held are counted, within the limit. -/
structure Counted (deferred_events : List EventFrame) (deferred_bytes : Nat) : Prop where
  bytes : deferred_bytes = (deferred_events.map EventFrame.bytes).sum
  limit : deferred_bytes ≤ maxDeferredStreamBytes

/-- Nothing is held and nothing is counted. -/
theorem counted_nil : Counted [] 0 := ⟨rfl, Nat.zero_le _⟩

section
variable {o o' : Outlet} {source : Option EventFrame} {frame : EventFrame} {offset : Nat} {emitted : Bool}
  {e : ExecutorError} {events : List (SSEEventType × List (Text × Json))}

/-- A frame that is passed on is the last one. -/
theorem sources_push : (o.push source frame offset).sources = o.sources ++ source.toList := by
  unfold Outlet.sources
  rw [Outlet.events_push, List.filterMap_append]
  cases source <;> rfl

/-- An event of the engine passes no frame on. -/
theorem gateway_keeps_sources (known : List EventFrame) :
    Triple (fun o : Outlet => o.sources = known) (emitGatewayEvent frame) (fun _ o => o.sources = known)
      (fun _ o => o.sources = known) := by
  apply Triple.bind (Q := fun _ o => o.sources = known)
  · intro o start
    cases result : processAndEmit none frame 0 o with
    | ok emitted o' =>
      rcases processAndEmit_ok result with ⟨-, -, same⟩ | ⟨-, -, pushed⟩
      · rw [same]
        exact start
      · show o'.sources = known
        rw [pushed, sources_push, start]
        exact List.append_nil _
    | error e o' =>
      show o'.sources = known
      rw [(processAndEmit_error result).1]
      exact start
  · intro emitted
    exact Triple.pure fun _ kept => kept

/-- Events of the engine pass no frame on. -/
theorem gatewayEvents_keep_sources (known : List EventFrame) :
    Triple (fun o : Outlet => o.sources = known) (emitGatewayEvents events) (fun _ o => o.sources = known)
      (fun _ o => o.sources = known) := by
  apply Triple.forM
  intro event _
  apply Triple.bind (Q := fun _ o => o.sources = known)
  · exact Triple.ofExcept (fun _ _ _ kept => kept) (fun _ _ _ kept => kept)
  · intro frame
    exact gateway_keeps_sources known

/-- The events that open the calls pass no frame on. -/
theorem startEvents_keep_sources (known : List EventFrame) (values : SerdeValues) (plans : List GatewayEventPlan) :
    Triple (fun o : Outlet => o.sources = known) (emitGatewayStartEvents values plans) (fun _ o => o.sources = known)
      (fun _ o => o.sources = known) :=
  Triple.forM fun _ _ => gatewayEvents_keep_sources known

/-- The events that end the calls pass no frame on. -/
theorem completedEvents_keep_sources (known : List EventFrame) (values : SerdeValues) (plans : List GatewayEventPlan) :
    Triple (fun o : Outlet => o.sources = known) (emitGatewayCompletedEvents values plans) (fun _ o => o.sources = known)
      (fun _ o => o.sources = known) :=
  Triple.forM fun _ _ => gatewayEvents_keep_sources known

/-- The listings pass no frame on. -/
theorem discovery_keeps_sources (known : List EventFrame) (serde : SerdeJson) (values : SerdeValues)
    (registry : ToolRegistry) :
    Triple (fun o : Outlet => o.sources = known) (emitMcpDiscoveryLifecycle serde values registry)
      (fun _ o => o.sources = known) (fun _ o => o.sources = known) := by
  apply Triple.bind (Q := fun _ o => o.sources = known)
  · exact Triple.ofExcept (fun _ _ _ kept => kept) (fun _ _ _ kept => kept)
  · intro public_output
    apply Triple.bind (Q := fun _ o => o.sources = known)
    · exact startEvents_keep_sources known values _
    · intro _
      exact completedEvents_keep_sources known values _

end

section
variable {ctx : Engine.RequestContext} {output_offset : Nat} {frame : EventFrame} {o o' : Outlet} {emitted : Bool}
  {barrier : Option Nat} {s s' : Delivering} {e : ExecutorError}

/-- What is shown gains the frame, where it is public. -/
theorem shown_append (h : o'.sources = o.sources ++ [frame]) : o'.shown = o.shown ++ [frame].filter EventFrame.isPublic := by
  unfold Outlet.shown
  rw [h, List.filter_append]

/-- A public frame is no event that is sent once. -/
theorem repeats_of_isPublic {acc : GatewayStreamAccumulator} (h : frame.isPublic = true) :
    acc.repeats frame.event_type = false := by
  unfold EventFrame.isPublic at h
  cases type : frame.event_type <;> simp [type, isLifecycleEvent, isTerminalResponseEvent] at h <;> rfl

/-- A frame that is emitted is shown, if it is the frame of an item. -/
theorem emitStreamFrame_shown (h : emitStreamFrame ctx output_offset frame o = .ok emitted o') :
    o'.shown = o.shown ++ [frame].filter EventFrame.isPublic := by
  rcases processAndEmit_ok h with ⟨-, again, same⟩ | ⟨-, -, pushed⟩
  · have not_public : frame.isPublic = false := by
      apply eq_false_of_ne_true
      intro yes
      exact Bool.false_ne_true ((repeats_of_isPublic yes).symm.trans again)
    rw [same]
    simp [not_public]
  · apply shown_append
    rw [pushed, sources_push]
    rfl

/-- What delivery does with a frame: it is held and counted, or sent. -/
inductive Delivers (frame : EventFrame) (barrier : Option Nat) (s s' : Delivering) : Prop where
  | held (hidden : hides barrier frame.position = true) (outlet : s'.outlet = s.outlet)
      (deferred : s'.deferred_events = s.deferred_events ++ [frame])
      (bytes : s'.deferred_bytes = s.deferred_bytes + frame.bytes)
      (limit : s'.deferred_bytes ≤ maxDeferredStreamBytes)
  | sent (visible : hides barrier frame.position = false)
      (shown : s'.outlet.shown = s.outlet.shown ++ [frame].filter EventFrame.isPublic)
      (deferred : s'.deferred_events = s.deferred_events) (bytes : s'.deferred_bytes = s.deferred_bytes)

/-- A frame that is accepted is passed on or held back. -/
theorem emitOrDefer_ok (h : emitOrDeferStreamFrame ctx output_offset barrier frame s = .ok emitted s') :
    Delivers frame barrier s s' ∧ (emitted = true → hides barrier frame.position = false) := by
  unfold emitOrDeferStreamFrame at h
  split at h
  · rename_i hidden
    rw [bind_ok] at h
    obtain ⟨here, m, read, rest⟩ := h
    cases read
    dsimp only at rest
    split at rest
    · rw [bind_ok] at rest
      obtain ⟨_, _, thrown, -⟩ := rest
      cases thrown
    · rename_i fits
      rw [bind_ok] at rest
      obtain ⟨_, m, written, done⟩ := rest
      cases written
      cases done
      exact ⟨.held hidden rfl rfl rfl (Nat.le_of_not_lt fits), fun no => nomatch no⟩
  · rename_i visible
    obtain ⟨p, sent, closed⟩ := onPart_ok.1 h
    subst closed
    have plain := eq_false_of_ne_true visible
    exact ⟨.sent plain (emitStreamFrame_shown sent) rfl rfl, fun _ => plain⟩

/-- A frame that is delivered is taken by the buffer. -/
theorem Delivers.take (h : Delivers frame barrier s s') :
    s'.buffer = s.buffer.take EventFrame.position (hides barrier) ([frame].filter EventFrame.isPublic) := by
  unfold Delivering.buffer HoldBack.take
  cases h with
  | held hidden outlet deferred =>
    rw [outlet, deferred, List.filter_append]
    cases shape : frame.isPublic <;> simp [shape, hidden]
  | sent visible shown deferred =>
    rw [shown, deferred]
    cases shape : frame.isPublic <;> simp [shape, visible]

/-- A frame that is hidden is held back behind the others. -/
theorem Delivers.deferred_eq (h : Delivers frame barrier s s') :
    s'.deferred_events = s.deferred_events ++ [frame].filter fun f => hides barrier f.position := by
  cases h with
  | held hidden outlet deferred =>
    rw [deferred]
    simp [hidden]
  | sent visible shown deferred =>
    rw [deferred]
    simp [visible]

/-- The bytes of the held frames are counted. -/
theorem Delivers.counted (h : Delivers frame barrier s s') (c : Counted s.deferred_events s.deferred_bytes) :
    Counted s'.deferred_events s'.deferred_bytes := by
  cases h with
  | held hidden outlet deferred bytes limit =>
    refine ⟨?_, limit⟩
    rw [deferred, bytes, c.bytes]
    simp
  | sent visible shown deferred bytes =>
    rw [deferred, bytes]
    exact c

end

section
variable {ctx : Engine.RequestContext} {output_offset : Nat} {serde : SerdeJson} {values : SerdeValues}
  {registry : ToolRegistry} {frame : EventFrame} {frames : List EventFrame} {barrier : Option Nat}
  {s s' : Delivering} {e : ExecutorError}

/-- A frame is delivered, unless it is the last one of the response. -/
theorem acceptFrame_ok (h : acceptFrame ctx output_offset serde values registry barrier frame s = .ok () s') :
    (isTerminalResponseEvent frame.event_type = true ∧ s' = s) ∨
    (isTerminalResponseEvent frame.event_type = false ∧ Delivers frame barrier s s') := by
  unfold acceptFrame at h
  split at h
  · rename_i terminal
    cases h
    exact .inl ⟨terminal, rfl⟩
  · rename_i not_terminal
    rw [bind_ok] at h
    obtain ⟨emitted, m, delivered, rest⟩ := h
    obtain ⟨delivers, visible_of_emitted⟩ := emitOrDefer_ok delivered
    refine .inr ⟨eq_false_of_ne_true not_terminal, ?_⟩
    split at rest
    · rename_i started
      obtain ⟨p, listed, closed⟩ := onPart_ok.1 rest
      subst closed
      have kept := discovery_keeps_sources m.outlet.sources serde values registry m.outlet rfl
      rw [listed] at kept
      have same : p.shown = m.outlet.shown := congrArg (List.filter EventFrame.isPublic) kept
      cases delivers with
      | held hidden => exact absurd (visible_of_emitted started.2) (by rw [hidden]; exact Bool.noConfusion)
      | sent visible shown deferred bytes =>
        exact .sent visible (same.trans shown) deferred bytes
    · cases rest
      exact delivers

/-- Frames have been handled, one after another, under one barrier. -/
structure Handles (barrier : Option Nat) (frames : List EventFrame) (s s' : Delivering) : Prop where
  buffer : s'.buffer = s.buffer.take EventFrame.position (hides barrier) (frames.filter EventFrame.isPublic)
  deferred : s'.deferred_events = s.deferred_events ++ frames.filter fun f => hides barrier f.position
  counted : Counted s.deferred_events s.deferred_bytes → Counted s'.deferred_events s'.deferred_bytes

/-- Nothing was handled. -/
theorem Handles.refl : Handles barrier [] s s where
  buffer := by simp
  deferred := by simp
  counted := id

/-- A frame that is delivered is handled. -/
theorem Delivers.handles (h : Delivers frame barrier s s') : Handles barrier [frame] s s' where
  buffer := h.take
  deferred := h.deferred_eq
  counted := h.counted

/-- Frames that are handled one after the other are handled. -/
theorem Handles.trans {m : Delivering} {more : List EventFrame} (first : Handles barrier frames s m)
    (rest : Handles barrier more m s') : Handles barrier (frames ++ more) s s' where
  buffer := by rw [rest.buffer, first.buffer, List.filter_append, take_append]
  deferred := by rw [rest.deferred, first.deferred, List.filter_append, List.append_assoc]
  counted c := rest.counted (first.counted c)

/-- What is emitted is not hidden. -/
theorem Handles.emitted (h : Handles barrier frames s s') :
    ∃ emitted, s'.outlet.shown = s.outlet.shown ++ emitted ∧ ∀ f ∈ emitted, hides barrier f.position = false := by
  refine ⟨_, congrArg HoldBack.out h.buffer, ?_⟩
  intro f mem
  simpa using (List.mem_filter.1 mem).2

/-- The frames that are delivered: those that end the response wait for the end of the run. -/
def Translation.delivered (t : Translation) : List EventFrame :=
  t.frames.filter fun frame => !isTerminalResponseEvent frame.event_type

/-- The public frames of a translation are delivered. -/
theorem public_delivered {t : Translation} :
    t.delivered.filter EventFrame.isPublic = t.frames.filter EventFrame.isPublic := by
  unfold Translation.delivered EventFrame.isPublic
  rw [List.filter_filter]
  apply List.filter_congr
  intro frame _
  cases isTerminalResponseEvent frame.event_type <;> simp

/-- The frames of a translation, one by one. -/
theorem frames_handled
    (h : forM frames (acceptFrame ctx output_offset serde values registry barrier) s = .ok ⟨⟩ s') :
    Handles barrier (Translation.delivered ⟨frames, barrier⟩) s s' := by
  induction frames generalizing s with
  | nil =>
    rw [forM_nil_ok.1 h]
    exact Handles.refl
  | cons frame frames ih =>
    obtain ⟨m, first, rest⟩ := forM_cons_ok.1 h
    have later := ih rest
    unfold Translation.delivered at later ⊢
    rcases acceptFrame_ok first with ⟨terminal, same⟩ | ⟨not_terminal, delivers⟩
    · rw [same] at later
      rw [List.filter_cons_of_neg (by simp [terminal])]
      exact later
    · rw [List.filter_cons_of_pos (by simp [not_terminal])]
      exact delivers.handles.trans later

/-- Frames that are let go are handled. -/
theorem released_handled
    (h : (forM frames fun frame => do
      let _ ← emitOrDeferStreamFrame ctx output_offset barrier frame : DeliveringM PUnit) s = .ok ⟨⟩ s') :
    Handles barrier frames s s' := by
  induction frames generalizing s with
  | nil =>
    rw [forM_nil_ok.1 h]
    exact Handles.refl
  | cons frame frames ih =>
    obtain ⟨m, first, rest⟩ := forM_cons_ok.1 h
    obtain ⟨emitted, m', delivered, done⟩ := bind_ok.1 first
    obtain ⟨-, same⟩ := pure_ok.1 done
    subst same
    exact (emitOrDefer_ok delivered).1.handles.trans (ih rest)

/-- The state in which what is held starts to go through again. -/
def Delivering.emptied (s : Delivering) : Delivering := { s with deferred_events := [], deferred_bytes := 0 }

/-- Letting go of the held frames handles them in the order of their items. -/
theorem flush_ok (h : flushReleasedStreamFrames ctx output_offset barrier s = .ok () s') :
    Handles barrier (sortDeferred s.deferred_events) s.emptied s' := by
  unfold flushReleasedStreamFrames at h
  obtain ⟨here, m, read, rest⟩ := bind_ok.1 h
  cases read
  obtain ⟨_, m, written, rest⟩ := bind_ok.1 rest
  cases written
  exact released_handled rest

end

section
variable {ctx : Engine.RequestContext} {output_offset : Nat} {serde : SerdeJson} {values : SerdeValues}
  {registry : ToolRegistry} {t : Translation} {d d' : StreamDelivery} {o : Outlet}

/-- The order of the items is transitive. -/
theorem optionLe_trans (a b c : Option Nat) (first : optionLe a b = true) (rest : optionLe b c = true) :
    optionLe a c = true := by
  cases a <;> cases b <;> cases c <;> simp only [optionLe, decide_eq_true_eq, reduceCtorEq] at first rest ⊢
  omega

/-- The order of the items is total. -/
theorem optionLe_total (a b : Option Nat) : (optionLe a b || optionLe b a) = true := by
  cases a <;> cases b <;> simp [optionLe]
  omega

/-- Sorting the held frames moves no two of one item. -/
theorem sortDeferred_rearranges (pending : List EventFrame) :
    Rearranges EventFrame.position (sortDeferred pending) pending :=
  rearranges_mergeSort optionLe_trans optionLe_total

/-- What is held after a translation, given the barrier and what was held before it. -/
def heldNext (barrier : Option Nat) (held : List EventFrame) (t : Translation) : List EventFrame :=
  let arrived := held ++ t.delivered.filter fun f => hides t.defer_from_output_index f.position
  if t.defer_from_output_index = barrier then arrived
  else (sortDeferred arrived).filter fun f => hides t.defer_from_output_index f.position

namespace StreamDelivery

/-- What delivery holds and what it has shown through `o`. -/
def live (d : StreamDelivery) (o : Outlet) : Delivering := ⟨o, d.deferred_events, d.deferred_bytes⟩

/-- The two parts of accepting a translation: its frames, and a release when the barrier has moved. -/
theorem accept_runs (h : accept ctx output_offset serde values registry t d = .ok () d') (opened : d.outlet = some o) :
    ∃ o' m, d'.outlet = some o' ∧ d'.defer_from_output_index = t.defer_from_output_index ∧
      forM t.frames (acceptFrame ctx output_offset serde values registry t.defer_from_output_index) (d.live o) = .ok ⟨⟩ m ∧
      ((t.defer_from_output_index = d.defer_from_output_index ∧ d'.live o' = m) ∨
        (t.defer_from_output_index ≠ d.defer_from_output_index ∧
          flushReleasedStreamFrames ctx output_offset t.defer_from_output_index m = .ok () (d'.live o'))) := by
  unfold accept at h
  rw [opened] at h
  dsimp only at h
  split at h
  · rename_i s delivered
    cases h
    unfold deliver at delivered
    obtain ⟨_, m, frames, rest⟩ := bind_ok.1 delivered
    refine ⟨s.outlet, m, rfl, rfl, frames, ?_⟩
    split at rest
    · rename_i moved
      exact .inr ⟨moved, rest⟩
    · rename_i stays
      cases rest
      exact .inl ⟨not_not.1 stays, rfl⟩
  · cases h

/-- What came of a line is delivered, and then the held frames that are shown by now. -/
theorem accept_ok (h : accept ctx output_offset serde values registry t d = .ok () d') (opened : d.outlet = some o) :
    ∃ o' m, d'.outlet = some o' ∧ d'.defer_from_output_index = t.defer_from_output_index ∧
      Handles t.defer_from_output_index t.delivered (d.live o) m ∧
      ((t.defer_from_output_index = d.defer_from_output_index ∧ d'.live o' = m) ∨
        (t.defer_from_output_index ≠ d.defer_from_output_index ∧
          Handles t.defer_from_output_index (sortDeferred m.deferred_events) m.emptied (d'.live o'))) := by
  obtain ⟨o', m, opened', barrier, frames, released⟩ := accept_runs h opened
  refine ⟨o', m, opened', barrier, frames_handled frames, ?_⟩
  rcases released with stays | ⟨moved, flushed⟩
  · exact .inl stays
  · exact .inr ⟨moved, flush_ok flushed⟩

/-- **What accepting a translation does.** Nothing at or after the first hidden index goes out, and for every index
nothing is lost, doubled or overtaken, unless a frame goes out at once while one of its index is still held. -/
structure Accepts (t : Translation) (d : StreamDelivery) (o : Outlet) (d' : StreamDelivery) (o' : Outlet) : Prop where
  opened : d'.outlet = some o'
  barrier : d'.defer_from_output_index = t.defer_from_output_index
  held : d'.deferred_events = heldNext d.defer_from_output_index d.deferred_events t
  emitted : ∃ emitted, o'.shown = o.shown ++ emitted ∧
    ∀ f ∈ emitted, hides t.defer_from_output_index f.position = false
  kept : Apart EventFrame.position (hides t.defer_from_output_index) (d.deferred_events.filter EventFrame.isPublic)
      (t.frames.filter EventFrame.isPublic) →
    ∀ k, (d'.live o').buffer.all EventFrame.position k =
      (d.live o).buffer.all EventFrame.position k ++ keyed EventFrame.position k (t.frames.filter EventFrame.isPublic)
  counted : Counted d.deferred_events d.deferred_bytes → Counted d'.deferred_events d'.deferred_bytes

/-- What came of a line is accepted. -/
theorem accept_accepts (h : accept ctx output_offset serde values registry t d = .ok () d') (opened : d.outlet = some o) :
    ∃ o', Accepts t d o d' o' := by
  obtain ⟨o', m, opened', barrier, frames, released⟩ := accept_ok h opened
  have arrived : Apart EventFrame.position (hides t.defer_from_output_index) (d.deferred_events.filter EventFrame.isPublic)
        (t.frames.filter EventFrame.isPublic) →
      ∀ k, m.buffer.all EventFrame.position k = (d.live o).buffer.all EventFrame.position k ++
        keyed EventFrame.position k (t.frames.filter EventFrame.isPublic) := by
    intro apart k
    rw [frames.buffer, public_delivered]
    exact all_take_of_apart apart
  refine ⟨o', ?_⟩
  rcases released with ⟨same, stays⟩ | ⟨moved, flushed⟩
  · subst stays
    exact
      { opened := opened'
        barrier := barrier
        held := by
          unfold heldNext
          rw [if_pos same]
          exact frames.deferred
        emitted := frames.emitted
        kept := arrived
        counted := frames.counted }
  · obtain ⟨first, shown_first, first_visible⟩ := frames.emitted
    obtain ⟨second, shown_second, second_visible⟩ := flushed.emitted
    have again : d'.deferred_events = (sortDeferred m.deferred_events).filter
        fun f => hides t.defer_from_output_index f.position := flushed.deferred
    exact
      { opened := opened'
        barrier := barrier
        held := by
          unfold heldNext
          rw [if_neg moved, again, frames.deferred]
          rfl
        emitted := by
          refine ⟨first ++ second, ?_, fun f mem => (List.mem_append.1 mem).elim (first_visible f) (second_visible f)⟩
          rw [← List.append_assoc]
          exact shown_second.trans (congrArg (· ++ second) shown_first)
        kept := by
          intro apart k
          rw [flushed.buffer, ← arrived apart k]
          have order := (sortDeferred_rearranges m.deferred_events).filter EventFrame.isPublic
          exact @all_retake _ _ EventFrame.position k (hides t.defer_from_output_index) m.buffer _ _ order
        counted := fun _ => flushed.counted counted_nil }

variable (ctx output_offset serde values registry)

/-- A moment while a translation is accepted: some of its frames are handled, or some of those released after them. -/
inductive Moment (t : Translation) (d : StreamDelivery) (o : Outlet) : Delivering → Prop where
  | handled {frames rest : List EventFrame} {m : Delivering} (split : t.frames = frames ++ rest)
      (run : forM frames (acceptFrame ctx output_offset serde values registry t.defer_from_output_index) (d.live o)
        = .ok ⟨⟩ m) : Moment t d o m
  | released {frames rest : List EventFrame} {m m' : Delivering}
      (run : forM t.frames (acceptFrame ctx output_offset serde values registry t.defer_from_output_index) (d.live o)
        = .ok ⟨⟩ m)
      (moved : t.defer_from_output_index ≠ d.defer_from_output_index)
      (split : sortDeferred m.deferred_events = frames ++ rest)
      (again : (forM frames fun frame => do
        let _ ← emitOrDeferStreamFrame ctx output_offset t.defer_from_output_index frame : DeliveringM PUnit) m.emptied
        = .ok ⟨⟩ m') : Moment t d o m'

variable {ctx output_offset serde values registry} {m : Delivering}

/-- At every moment what is held is counted, and nothing at or after the first hidden index has gone out. -/
theorem Moment.sound (h : Moment ctx output_offset serde values registry t d o m)
    (counted : Counted d.deferred_events d.deferred_bytes) :
    Counted m.deferred_events m.deferred_bytes ∧
    ∃ emitted, m.outlet.shown = o.shown ++ emitted ∧ ∀ f ∈ emitted, hides t.defer_from_output_index f.position = false := by
  cases h with
  | handled split run =>
    have handled := frames_handled run
    exact ⟨handled.counted counted, handled.emitted⟩
  | released run moved split again =>
    have handled := frames_handled run
    have flushed := released_handled again
    obtain ⟨first, shown_first, first_visible⟩ := handled.emitted
    obtain ⟨second, shown_second, second_visible⟩ := flushed.emitted
    refine ⟨flushed.counted counted_nil, first ++ second, ?_, ?_⟩
    · rw [← List.append_assoc]
      exact shown_second.trans (congrArg (· ++ second) shown_first)
    · exact fun f mem => (List.mem_append.1 mem).elim (first_visible f) (second_visible f)

end StreamDelivery
end

section
variable (ctx : Engine.RequestContext) (output_offset : Nat) (serde : SerdeJson) (values : SerdeValues)
  (registry : ToolRegistry)

/-- Translations have been accepted, one after another. -/
inductive StreamDelivery.Accepted : List Translation → StreamDelivery → StreamDelivery → Prop where
  | nil {d : StreamDelivery} : Accepted [] d d
  | cons {t : Translation} {ts : List Translation} {d m d' : StreamDelivery}
      (first : StreamDelivery.accept ctx output_offset serde values registry t d = .ok () m)
      (rest : Accepted ts m d') : Accepted (t :: ts) d d'

end

/-- What is held after translations. -/
def heldAfter (barrier : Option Nat) (held : List EventFrame) : List Translation → List EventFrame
  | [] => held
  | t :: ts => heldAfter t.defer_from_output_index (heldNext barrier held t) ts

/-- No frame of an item goes out at once while an earlier one of its index is held. -/
def Orderly (barrier : Option Nat) (held : List EventFrame) : List Translation → Prop
  | [] => True
  | t :: ts =>
    Apart EventFrame.position (hides t.defer_from_output_index) (held.filter EventFrame.isPublic)
      (t.frames.filter EventFrame.isPublic) ∧
    Orderly t.defer_from_output_index (heldNext barrier held t) ts

instance decidableOrderly : (barrier : Option Nat) → (held : List EventFrame) → (ts : List Translation) →
    Decidable (Orderly barrier held ts)
  | _, _, [] => isTrue trivial
  | barrier, held, t :: ts =>
    have := decidableOrderly t.defer_from_output_index (heldNext barrier held t) ts
    inferInstanceAs (Decidable (_ ∧ _))

/-- The frames of items that come with translations. -/
def arrivals (ts : List Translation) : List EventFrame := (ts.flatMap Translation.frames).filter EventFrame.isPublic

section
variable {ctx : Engine.RequestContext} {output_offset : Nat} {serde : SerdeJson} {values : SerdeValues}
  {registry : ToolRegistry} {t : Translation} {ts : List Translation} {d d' : StreamDelivery} {o : Outlet}

/-- The frames that arrive are those of the translations. -/
theorem arrivals_cons : arrivals (t :: ts) = t.frames.filter EventFrame.isPublic ++ arrivals ts := by
  simp [arrivals]

/-- **A round of translations**: what was shown and what is held are, for every index, what came. -/
theorem StreamDelivery.Accepted.kept (h : Accepted ctx output_offset serde values registry ts d d')
    (opened : d.outlet = some o) :
    ∃ o', d'.outlet = some o' ∧
      d'.deferred_events = heldAfter d.defer_from_output_index d.deferred_events ts ∧
      (Counted d.deferred_events d.deferred_bytes → Counted d'.deferred_events d'.deferred_bytes) ∧
      (Orderly d.defer_from_output_index d.deferred_events ts → ∀ k, (d'.live o').buffer.all EventFrame.position k =
        (d.live o).buffer.all EventFrame.position k ++ keyed EventFrame.position k (arrivals ts)) := by
  induction h generalizing o with
  | nil => exact ⟨o, opened, rfl, id, fun _ k => by simp [arrivals]⟩
  | cons first rest ih =>
    obtain ⟨o₁, one⟩ := accept_accepts first opened
    obtain ⟨o₂, opened₂, held, counted, kept⟩ := ih one.opened
    rw [one.barrier, one.held] at held kept
    refine ⟨o₂, opened₂, held, fun c => counted (one.counted c), ?_⟩
    rintro ⟨apart, orderly⟩ k
    rw [kept orderly k, one.kept apart k, arrivals_cons, keyed_append, List.append_assoc]

end
end AgenticStack
