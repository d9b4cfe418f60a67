import AgenticStack.Executor.EventNumbers
import AgenticStack.Executor.RoundDelivery
import AgenticStack.Executor.StreamEnd
import AgenticStack.Library.Channel
import AgenticStack.Library.Outcome

/-!
# A streamed response

A task plays the turn and sends its events through a channel that holds one; the
stream the client reads takes them out, until the task has ended and the channel
is empty. Whatever the order of their steps, the client gets the events under
the numbers from zero on, one event that ends the response, and the marker that
the stream is done.
-/

namespace AgenticStack
set_option autoImplicit false
open Library

/-- So many events may wait for the client. -/
def streamEventBuffer : Nat := 1

/-- The task of a streamed response, as it will have been: the events it sends, and what it ends with. -/
structure StreamTask where
  events : List StreamedEvent
  accumulator : GatewayStreamAccumulator
  outcome : RunOutcome

namespace Engine

/-- What the task of a turn can be. It fails before the turn is played when the declared tools cannot be registered;
a panic can come after any of its events. -/
inductive Tasks (services : Services) (s : State) : StreamTask → Prop where
  | unregistered {o : Outlet} (error : ExecutorError) (opened : s.delivery.outlet = some o) :
      Tasks services s ⟨o.events, o.accumulator, .failed error⟩
  | completed {s' : State} {o : Outlet} {payload : ResponsePayload}
      (played : runUntilGatewayToolsComplete services true s = .ok (some payload) s') (opened : s'.delivery.outlet = some o) :
      Tasks services s ⟨o.events, o.accumulator, .completed payload s'.request⟩
  | failed {s' : State} {o : Outlet} {error : ExecutorError}
      (played : runUntilGatewayToolsComplete services true s = .error error s') (opened : s'.delivery.outlet = some o) :
      Tasks services s ⟨o.events, o.accumulator, .failed error⟩
  | panicked {s' : State} {o : Outlet} (sent : Nat) (message : Text)
      (played : Leaves (runUntilGatewayToolsComplete services true) s s') (opened : s'.delivery.outlet = some o) :
      Tasks services s ⟨o.events.take sent, o.accumulator, .joinError message⟩

end Engine

/-- The stream the client reads: the channel, the chunks it has yielded, and how it has ended. -/
structure StreamState where
  flow : Channel.Flow StreamedEvent
  chunks : List Text
  next_sequence_number : Nat
  ended : Option StreamEnd

namespace StreamState

/-- Nothing was received. -/
def start : StreamState := ⟨.start, [], 0, none⟩

/-- `consume_stream_event`, of an event that is received. -/
def consume (s : StreamState) : Channel.Move StreamedEvent → StreamState
  | .receive event =>
    { s with chunks := s.chunks ++ [event.content], next_sequence_number := saturatingAdd event.sequence_number 1 }
  | .send | .join => s

end StreamState

section
variable (values : SerdeValues) (failure : StreamFailureContext) (task : StreamTask) (turn : Persistence)

/-- The loop of `run_stream`, and the task beside it: the stream ends when it has seen the task's end and taken what is
left in the channel. `turn` is what storing the turn comes to. -/
inductive StreamStep : StreamState → StreamState → Prop where
  | moved {s : StreamState} {move : Channel.Move StreamedEvent} {flow : Channel.Flow StreamedEvent} (running : s.ended = none)
      (step : Channel.Step task.events streamEventBuffer s.flow move flow) : StreamStep s { s.consume move with flow }
  | ended {s : StreamState} (running : s.ended = none) (joined : s.flow.joined = true) (drained : s.flow.queue = []) :
      StreamStep s { s with
        chunks := s.chunks ++
          (runStreamEnd values failure task.accumulator s.next_sequence_number task.outcome turn).chunks
        ended := some (runStreamEnd values failure task.accumulator s.next_sequence_number task.outcome turn) }

/-- The states that the stream reaches in some number of steps. -/
inductive StreamRun : Nat → StreamState → Prop where
  | start : StreamRun 0 .start
  | step {n : Nat} {s s' : StreamState} (run : StreamRun n s) (step : StreamStep values failure task turn s s') :
      StreamRun (n + 1) s'

end

section
variable {services : Engine.Services} {s : Engine.State} {task : StreamTask}

/-- The first events are numbered where all are. -/
theorem Numbered.take {events : List StreamedEvent} (h : Numbered events) (n : Nat) : Numbered (events.take n) where
  numbers := by
    rw [List.map_take, h.numbers, ← List.map_take, List.take_range, List.length_take]
  stamped event mem := h.stamped event (List.mem_of_mem_take mem)
  once type lifecycle := by
    have fewer : (ofType type (events.take n)).Sublist (ofType type events) := (List.take_sublist n events).filter _
    exact Nat.le_trans fewer.length_le (h.once type lifecycle)

/-- What is known of a task's end: the next number is that of the next event, or the error is reported without it. -/
structure StreamTask.Sound (task : StreamTask) : Prop where
  numbered : Numbered task.events
  next : (∃ payload ctx, task.outcome = .completed payload ctx) ∨
      (∃ error, task.outcome = .failed error ∧ error.isInvalidUpstreamToolSearch = true) →
    task.accumulator.next_sequence_number = eventNumber task.events.length

/-- A turn that fails leaves numbered events. -/
theorem Outlet.Failed.sound {o : Outlet} {error : ExecutorError} (h : o.Failed error) :
    StreamTask.Sound ⟨o.events, o.accumulator, .failed error⟩ where
  numbered := h.numbered
  next := by
    rintro (⟨payload, ctx, ⟨⟩⟩ | ⟨_, ⟨⟩, search⟩)
    rcases h.cause with next | ⟨message, rfl⟩
    · exact next
    · cases search

/-- **The events of a task are numbered**, however it ends. -/
theorem Engine.Tasks.sound (h : Engine.Tasks services s task) (ready : Engine.Opened Outlet.Ready s) : task.Sound := by
  have kept := (Engine.runUntilGatewayToolsComplete_keeps numbering services :
    Engine.Keeps _ _ (Engine.runUntilGatewayToolsComplete services true)) s ready
  cases h with
  | unregistered error opened =>
    obtain ⟨o, opened', ready⟩ := ready
    obtain rfl := Option.some.inj (opened.symm.trans opened')
    exact (ready.failed error).sound
  | completed played opened =>
    rw [played] at kept
    obtain ⟨o, opened', ready⟩ := kept
    obtain rfl := Option.some.inj (opened.symm.trans opened')
    exact ⟨ready.numbered, fun _ => ready.next⟩
  | failed played opened =>
    rw [played] at kept
    obtain ⟨o, opened', failed⟩ := kept
    obtain rfl := Option.some.inj (opened.symm.trans opened')
    exact failed.sound
  | panicked sent message played opened =>
    refine ⟨Numbered.take ?_ sent, ?_⟩
    · rcases played with ⟨payload, played⟩ | ⟨error, played⟩
      · rw [played] at kept
        obtain ⟨o, opened', ready⟩ := kept
        obtain rfl := Option.some.inj (opened.symm.trans opened')
        exact ready.numbered
      · rw [played] at kept
        obtain ⟨o, opened', failed⟩ := kept
        obtain rfl := Option.some.inj (opened.symm.trans opened')
        exact failed.numbered
    · rintro (⟨payload, ctx, ⟨⟩⟩ | ⟨_, ⟨⟩, -⟩)

end

/-- An error, or the response as it ended. -/
def EventFrame.EndsStream (values : SerdeValues) (frame : EventFrame) : Prop :=
  frame.wire.event_type = some (utf8 "error") ∨
    ∃ payload : ResponsePayload, frame.event_type = payload.terminalEventType ∧
      frame.wire.rest = [(utf8 "response", values.payload payload)]

/-- The response is shown as it was stored. -/
def EventFrame.isStoredEnd (frame : EventFrame) : Prop :=
  frame.event_type = .responseCompleted ∨ frame.event_type = .responseIncomplete

/-- The last event of a stream, under the number `n`. -/
structure StreamEnd.Ends (values : SerdeValues) (task : StreamTask) (turn : Persistence) (n : Nat) (last : EventFrame) :
    Prop where
  number : last.wire.sequence_number = some n
  ends : last.EndsStream values
  stored : last.isStoredEnd → ∃ payload ctx, task.outcome = .completed payload ctx ∧
    (persistIfNeeded payload ctx turn).result = .ok ()

section
variable {values : SerdeValues} {failure : StreamFailureContext} {task : StreamTask} {turn : Persistence} {n : Nat}
  {accumulator : GatewayStreamAccumulator} {payload : ResponsePayload} {chunk : Text} {error : ExecutorError}

/-- The event of an error may end a stream. -/
theorem errorFrame_ends {frame : EventFrame} (number : frame.wire.sequence_number = some n)
    (name : frame.wire.event_type = some (utf8 "error")) (type : frame.event_type = .other) :
    StreamEnd.Ends values task turn n frame where
  number := number
  ends := .inl name
  stored := by
    rintro (completed | incomplete)
    · rw [type] at completed
      cases completed
    · rw [type] at incomplete
      cases incomplete

/-- The error of the executor ends a stream. -/
theorem executorErrorChunkAt_ends : StreamEnd.Ends values task turn n (executorErrorChunkAt error n) := by
  unfold executorErrorChunkAt
  dsimp only
  split
  · exact errorFrame_ends rfl rfl rfl
  · exact errorFrame_ends rfl rfl rfl

/-- The terminal event of a response, as its chunk has it. -/
def GatewayStreamAccumulator.terminalEvent (self : GatewayStreamAccumulator) (values : SerdeValues)
    (payload : ResponsePayload) : ExecutorResult EventFrame := do
  let frame ← terminalResponseFrame values payload
  let _ ← checkedStreamEvent (self.stampEvent frame 0).1
  return (self.stampEvent frame 0).1

/-- A checked event is the event. -/
theorem checkedStreamEvent_content {frame : EventFrame} {content : Text} (checked : checkedStreamEvent frame = .ok content) :
    content = serializeSseFrame frame := by
  unfold checkedStreamEvent at checked
  dsimp only at checked
  split at checked
  · cases checked
  · exact (Except.ok.inj checked).symm

/-- The last event as it is sent is the event. -/
theorem terminalResponseChunk_eq : accumulator.terminalResponseChunk values payload =
    (accumulator.terminalEvent values payload).map serializeSseFrame := by
  unfold GatewayStreamAccumulator.terminalResponseChunk GatewayStreamAccumulator.terminalEvent
  cases terminalResponseFrame values payload with
  | error e => rfl
  | ok frame =>
    show checkedStreamEvent (accumulator.stampEvent frame 0).1 =
      (checkedStreamEvent (accumulator.stampEvent frame 0).1 >>= fun _ =>
        pure (accumulator.stampEvent frame 0).1).map serializeSseFrame
    cases checked : checkedStreamEvent (accumulator.stampEvent frame 0).1 with
    | error e => rfl
    | ok content =>
      rw [checkedStreamEvent_content checked]
      rfl

/-- A terminal event has the next number. -/
theorem terminalEvent_ok {last : EventFrame} (made : accumulator.terminalEvent values payload = .ok last) :
    last.wire.sequence_number = some accumulator.next_sequence_number ∧ last.event_type = payload.terminalEventType ∧
      last.wire.rest = [(utf8 "response", values.payload payload)] := by
  unfold GatewayStreamAccumulator.terminalEvent at made
  obtain ⟨frame, framed, checked⟩ := bind_eq_ok.1 made
  obtain ⟨_, _, stamped⟩ := bind_eq_ok.1 checked
  obtain rfl := Except.ok.inj stamped
  refine ⟨sequence_number_of_number, ?_⟩
  unfold terminalResponseFrame EventFrame.synthetic at framed
  cases name : payload.terminalEventType.wireName with
  | none =>
    rw [name] at framed
    cases framed
  | some text =>
    rw [name] at framed
    cases framed
    exact ⟨rfl, rfl⟩

/-- The response of a turn that has failed says so. -/
theorem failedPayload_type : (failure.failedPayload error).terminalEventType = .responseFailed := by
  have failed : (failure.failedPayload error).status = utf8 "failed" := rfl
  have incomplete : utf8 "failed" ≠ utf8 "incomplete" := by decide
  unfold ResponsePayload.terminalEventType
  rw [failed, if_neg incomplete, if_pos (.inl rfl)]

/-- The last event of a stream: the terminal event of the response, or an error. -/
def lastEvent (values : SerdeValues) (failure : StreamFailureContext) (task : StreamTask) (turn : Persistence) (n : Nat) :
    EventFrame :=
  match task.outcome with
  | .joinError message => errorSseFrame (utf8 "stream task failed: " ++ message) n
  | .failed error =>
    if error.isInvalidUpstreamToolSearch then
      match task.accumulator.terminalEvent values (failure.failedPayload error) with
      | .ok last => last
      | .error serialize_error => executorErrorChunkAt serialize_error n
    else executorErrorChunkAt error n
  | .completed payload ctx =>
    match task.accumulator.terminalEvent values payload with
    | .error error => executorErrorChunkAt error n
    | .ok last =>
      match (persistIfNeeded payload ctx turn).result with
      | .ok () => last
      | .error error => executorErrorChunkAt error n

/-- **How a stream ends**: with one event, and the marker. -/
theorem runStreamEnd_chunks : (runStreamEnd values failure task.accumulator n task.outcome turn).chunks =
    [serializeSseFrame (lastEvent values failure task turn n), DONE_MARKER] := by
  unfold runStreamEnd lastEvent
  cases task.outcome with
  | joinError message => rfl
  | failed error =>
    dsimp only
    split
    · rw [terminalResponseChunk_eq]
      cases task.accumulator.terminalEvent values (failure.failedPayload error) <;> rfl
    · rfl
  | completed payload ctx =>
    dsimp only
    rw [terminalResponseChunk_eq]
    cases task.accumulator.terminalEvent values payload with
    | error e => rfl
    | ok last =>
      dsimp only [Except.map]
      cases (persistIfNeeded payload ctx turn).result <;> rfl

/-- The last event has the number behind those of the task's events, and ends the stream. -/
theorem lastEvent_ends (sound : task.Sound) : StreamEnd.Ends values task turn (eventNumber task.events.length)
    (lastEvent values failure task turn (eventNumber task.events.length)) := by
  unfold lastEvent
  cases ended : task.outcome with
  | joinError message => exact errorFrame_ends rfl rfl rfl
  | failed error =>
    dsimp only
    split
    · rename_i search
      split
      · rename_i last made
        obtain ⟨number, type, rest⟩ := terminalEvent_ok made
        rw [sound.next (.inr ⟨error, ended, search⟩)] at number
        refine ⟨number, .inr ⟨_, type, rest⟩, ?_⟩
        rw [failedPayload_type] at type
        rintro (completed | incomplete)
        · rw [type] at completed
          cases completed
        · rw [type] at incomplete
          cases incomplete
      · exact executorErrorChunkAt_ends
    · exact executorErrorChunkAt_ends
  | completed payload ctx =>
    dsimp only
    split
    · exact executorErrorChunkAt_ends
    · rename_i last made
      split
      · rename_i stored
        obtain ⟨number, type, rest⟩ := terminalEvent_ok made
        rw [sound.next (.inl ⟨payload, ctx, ended⟩)] at number
        exact ⟨number, .inr ⟨_, type, rest⟩, fun _ => ⟨payload, ctx, ended, stored⟩⟩
      · exact executorErrorChunkAt_ends

end

section
variable {values : SerdeValues} {failure : StreamFailureContext} {task : StreamTask} {turn : Persistence} {n : Nat}
  {s s' : StreamState}

/-- An event has the number of its place. -/
theorem Numbered.number {events received : List StreamedEvent} {event : StreamedEvent} (h : Numbered events)
    (inside : received ++ [event] <+: events) : event.sequence_number = eventNumber received.length := by
  obtain ⟨rest, rfl⟩ := inside
  have here := congrArg (·[received.length]?) h.numbers
  simpa using here

variable (values failure task turn) in
/-- How far the stream is. -/
structure StreamState.Sound (s : StreamState) : Prop where
  flow : Channel.Sound task.events streamEventBuffer s.flow
  next : s.next_sequence_number = eventNumber s.flow.received.length
  chunks : s.chunks = s.flow.received.map (·.content) ++ (s.ended.map (·.chunks)).getD []
  ended : ∀ streamEnd, s.ended = some streamEnd → s.flow.received = task.events ∧
    streamEnd = runStreamEnd values failure task.accumulator (eventNumber task.events.length) task.outcome turn

/-- Every step of the stream keeps the order of its events. -/
theorem StreamState.Sound.step (numbered : Numbered task.events) (h : s.Sound values failure task turn)
    (step : StreamStep values failure task turn s s') : s'.Sound values failure task turn := by
  cases step with
  | @moved move flow running step =>
    have sound := h.flow.step step
    have chunks := h.chunks
    rw [running] at chunks
    cases step with
    | send next room => exact ⟨sound, h.next, h.chunks, fun _ settled => nomatch running.symm.trans settled⟩
    | join ended open_ => exact ⟨sound, h.next, h.chunks, fun _ settled => nomatch running.symm.trans settled⟩
    | @receive event rest first =>
      refine ⟨sound, ?_, ?_, fun _ settled => nomatch running.symm.trans settled⟩
      · have number := numbered.number sound.received
        show saturatingAdd event.sequence_number 1 = eventNumber (s.flow.received ++ [event]).length
        rw [number, saturatingAdd_eventNumber, List.length_append, List.length_singleton]
      · show s.chunks ++ [event.content] = (s.flow.received ++ [event]).map (·.content) ++ (s.ended.map (·.chunks)).getD []
        rw [chunks, running, List.map_append]
        simp
  | ended running joined drained =>
    have all := h.flow.drained joined drained
    have next := h.next
    have chunks := h.chunks
    rw [all] at next
    rw [running] at chunks
    refine ⟨h.flow, h.next, ?_, ?_⟩
    · show s.chunks ++ _ = s.flow.received.map (·.content) ++ _
      rw [chunks]
      simp
    · rintro _ ⟨⟩
      exact ⟨all, by rw [next]⟩

/-- The events of a stream are numbered, whatever the order of steps. -/
theorem StreamRun.sound (numbered : Numbered task.events) (run : StreamRun values failure task turn n s) :
    s.Sound values failure task turn := by
  induction run with
  | start => exact ⟨.start, rfl, rfl, fun _ settled => nomatch settled⟩
  | step _ step ih => exact ih.step numbered step

/-- The frames carry the numbers from zero on. -/
def InSequence (frames : List EventFrame) : Prop :=
  frames.map (·.wire.sequence_number) = (List.range frames.length).map fun i => some (eventNumber i)

/-- Numbered events are in sequence. -/
theorem Numbered.inSequence {events : List StreamedEvent} (h : Numbered events) : InSequence (events.map (·.frame)) := by
  have stamped : (events.map (·.frame)).map (·.wire.sequence_number) = (events.map (·.sequence_number)).map some := by
    rw [List.map_map, List.map_map]
    exact List.map_congr_left h.stamped
  rw [InSequence, stamped, h.numbers, List.length_map, List.map_map]
  rfl

/-- A last event with the next number is in sequence. -/
theorem InSequence.concat {frames : List EventFrame} {last : EventFrame} (h : InSequence frames)
    (number : last.wire.sequence_number = some (eventNumber frames.length)) : InSequence (frames ++ [last]) := by
  rw [InSequence, List.map_append, h, List.length_append, List.length_singleton, List.range_succ, List.map_append]
  rw [List.map_singleton, List.map_singleton, number]

/-- What was received are the events as they are written. -/
theorem StreamState.Sound.contents (s : StreamState) :
    s.flow.received.map (·.content) = (s.flow.received.map (·.frame)).map serializeSseFrame := by
  rw [List.map_map]
  rfl

/-- In the end the client has the events of the task, the last event and the marker. -/
theorem StreamState.Sound.whole (h : s.Sound values failure task turn) {streamEnd : StreamEnd} (settled : s.ended = some streamEnd) :
    s.chunks = (task.events.map (·.frame) ++
      [lastEvent values failure task turn (eventNumber task.events.length)]).map serializeSseFrame ++ [DONE_MARKER] := by
  obtain ⟨all, rfl⟩ := h.ended streamEnd settled
  rw [h.chunks, settled, Option.map_some, Option.getD_some, runStreamEnd_chunks, contents, all, List.map_append,
    List.append_assoc]
  rfl

/-- At every moment the client has the first events of the task, numbered; in the end it has all of them, the event that
ends the response under the next number, and the marker. -/
theorem StreamState.Sound.shows (h : s.Sound values failure task turn) (sound : task.Sound) :
    ∃ frames, frames <+: task.events.map (·.frame) ∧ InSequence frames ∧
      (∀ type, isLifecycleEvent type = true → (frames.filter fun frame => frame.event_type = type).length ≤ 1) ∧
      (s.ended = none → s.chunks = frames.map serializeSseFrame) ∧
      ∀ streamEnd, s.ended = some streamEnd → frames = task.events.map (·.frame) ∧
        ∃ last, s.chunks = (frames ++ [last]).map serializeSseFrame ++ [DONE_MARKER] ∧ InSequence (frames ++ [last]) ∧
          StreamEnd.Ends values task turn (eventNumber frames.length) last := by
  have received := h.flow.received
  have numbered : Numbered s.flow.received := by
    rw [List.prefix_iff_eq_take.1 received]
    exact sound.numbered.take _
  refine ⟨s.flow.received.map (·.frame), received.map _, numbered.inSequence, ?_, ?_, ?_⟩
  · intro type lifecycle
    rw [List.filter_map, List.length_map]
    exact numbered.once type lifecycle
  · intro running
    rw [h.chunks, running, Sound.contents]
    exact List.append_nil _
  · intro streamEnd settled
    obtain ⟨all, -⟩ := h.ended streamEnd settled
    have whole := h.whole settled
    have ends := @lastEvent_ends values failure task turn sound
    have length : task.events.length = (task.events.map (·.frame)).length := (List.length_map ..).symm
    rw [length] at whole ends
    rw [all] at numbered ⊢
    exact ⟨rfl, _, whole, numbered.inSequence.concat ends.number, ends⟩

variable {services : Engine.Services} {start : Engine.State} {closes_after : Option Nat}

/-- A turn is ready at its start. -/
theorem ready_start (fresh : start.delivery = .new (some (.new closes_after))) : Engine.Opened Outlet.Ready start := by
  rw [Engine.Opened, fresh]
  exact ⟨_, rfl, Outlet.ready_new⟩

/-- **What a streaming client gets**, however the turn ends and in whatever order the task and the stream take their
steps: at every moment some of the task's first events, under the numbers from zero on, among them each of the events that a
response has once at most once; in the end all of them, then one event that ends the response or is an error, under the next
number, and the marker. A response is shown as completed or incomplete only when storing it has succeeded. -/
theorem stream_numbered (fresh : start.delivery = .new (some (.new closes_after)))
    (plays : Engine.Tasks services start task) (run : StreamRun values failure task turn n s) :
    ∃ frames, frames <+: task.events.map (·.frame) ∧ InSequence frames ∧
      (∀ type, isLifecycleEvent type = true → (frames.filter fun frame => frame.event_type = type).length ≤ 1) ∧
      (s.ended = none → s.chunks = frames.map serializeSseFrame) ∧
      ∀ streamEnd, s.ended = some streamEnd → frames = task.events.map (·.frame) ∧
        ∃ last, s.chunks = (frames ++ [last]).map serializeSseFrame ++ [DONE_MARKER] ∧ InSequence (frames ++ [last]) ∧
          StreamEnd.Ends values task turn (eventNumber frames.length) last := by
  have sound := plays.sound (ready_start fresh)
  exact (run.sound sound.numbered).shows sound

/-- The steps that are left to a stream. -/
def StreamState.left (task : StreamTask) (s : StreamState) : Nat :=
  s.flow.left task.events + if s.ended.isSome then 0 else 1

/-- Every step leaves fewer. -/
theorem StreamState.left_step (step : StreamStep values failure task turn s s') : s'.left task < s.left task := by
  cases step with
  | @moved move flow running step =>
    have fewer := Channel.left_step step
    have same : ({ s.consume move with flow } : StreamState).ended = s.ended := by cases move <;> rfl
    rw [StreamState.left, StreamState.left, same]
    dsimp only
    omega
  | ended running joined drained =>
    rw [StreamState.left, StreamState.left, running]
    simp

/-- A stream that goes on has a step. -/
theorem StreamState.progress (running : s.ended = none) : ∃ s', StreamStep values failure task turn s s' := by
  by_cases settled : s.flow.joined = true ∧ s.flow.queue = []
  · exact ⟨_, .ended running settled.1 settled.2⟩
  · have unfinished : s.flow.joined = false ∨ s.flow.queue ≠ [] := by
      cases joined : s.flow.joined with
      | false => exact .inl rfl
      | true => exact .inr fun empty => settled ⟨joined, empty⟩
    have room : 0 < streamEventBuffer := Nat.one_pos
    obtain ⟨move, flow, step⟩ := @Channel.progress _ task.events _ s.flow room unfinished
    exact ⟨_, .moved running step⟩

/-- A stream has so many steps. -/
theorem StreamRun.length_le (run : StreamRun values failure task turn n s) :
    n + s.left task ≤ 2 * task.events.length + 2 := by
  induction run with
  | start => exact Nat.le_of_eq (by simp [StreamState.left, Channel.Flow.left, StreamState.start, Channel.Flow.start])
  | step _ step ih =>
    have fewer := StreamState.left_step step
    omega

/-- A stream that goes on comes to its end. -/
theorem StreamRun.completes (run : StreamRun values failure task turn n s) :
    ∃ more s', StreamRun values failure task turn (n + more) s' ∧ s'.ended.isSome = true := by
  generalize left : s.left task = fuel
  induction fuel using Nat.strongRecOn generalizing n s with
  | ind fuel ih =>
    cases settled : s.ended with
    | some streamEnd => exact ⟨0, s, run, by rw [settled]; rfl⟩
    | none =>
      obtain ⟨s', step⟩ := @StreamState.progress values failure task turn s settled
      have fewer := StreamState.left_step step
      obtain ⟨more, s'', longer, ended⟩ := ih (s'.left task) (by omega) (StreamRun.step run step) rfl
      exact ⟨1 + more, s'', by rw [← Nat.add_assoc]; exact longer, ended⟩

/-- **Every stream ends**: from wherever it has got to it can go on to its end, and it takes two steps for each event of the
task and two more at most. -/
theorem stream_ends (run : StreamRun values failure task turn n s) :
    n ≤ 2 * task.events.length + 2 ∧
      ∃ more s', StreamRun values failure task turn (n + more) s' ∧ s'.ended.isSome = true := by
  have short := run.length_le
  exact ⟨by omega, run.completes⟩

end

/-- Values that are all null. -/
def emptyValues : SerdeValues := ⟨fun _ => .null, fun _ => .null⟩

/-- What a turn that was played to its end comes to, and what it sent. -/
def playedOutlet : EStateM.Result ExecutorError Engine.State (Option ResponsePayload) → Option (ResponsePayload × Outlet)
  | .ok payload s => payload.bind fun payload => s.delivery.outlet.map fun o => (payload, o)
  | .error _ _ => none

/-- A streaming turn of one round, in which a message waits behind an item. -/
theorem heldMessage_task : ∃ task, Engine.Tasks (Engine.answering Engine.heldMessage "completed") Engine.streamingTurn task := by
  have plays : playedOutlet (Engine.runUntilGatewayToolsComplete (Engine.answering Engine.heldMessage "completed") true
      Engine.streamingTurn) ≠ none := by decide +kernel
  cases ran : Engine.runUntilGatewayToolsComplete (Engine.answering Engine.heldMessage "completed") true
      Engine.streamingTurn with
  | error e s =>
    rw [ran] at plays
    exact absurd rfl plays
  | ok payload s =>
    rw [ran] at plays
    obtain ⟨⟨payload, o⟩, played⟩ := Option.ne_none_iff_exists'.1 plays
    obtain ⟨_, rfl, opened⟩ := Option.bind_eq_some_iff.1 played
    obtain ⟨o', opened, same⟩ := Option.map_eq_some_iff.1 opened
    exact ⟨_, .completed ran opened⟩

/-- The stream of a message that was held back. -/
theorem stream_numbered_heldMessage : ∃ (task : StreamTask) (s : StreamState) (frames : List EventFrame) (last : EventFrame),
    s.ended.isSome = true ∧ frames = task.events.map (·.frame) ∧ InSequence (frames ++ [last]) ∧
      s.chunks = (frames ++ [last]).map serializeSseFrame ++ [DONE_MARKER] := by
  obtain ⟨task, plays⟩ := heldMessage_task
  have began : StreamRun emptyValues (.ofContext Engine.streamingTurn.request) task .skipped 0 .start := .start
  obtain ⟨more, s, run, settled⟩ := began.completes
  obtain ⟨streamEnd, ended⟩ := Option.isSome_iff_exists.1 settled
  obtain ⟨frames, -, -, -, -, whole⟩ := stream_numbered rfl plays run
  obtain ⟨all, last, chunks, numbers, -⟩ := whole streamEnd ended
  exact ⟨task, s, frames, last, settled, all, numbers, chunks⟩

/-- The stream of a message that was held back comes to its end. -/
theorem stream_ends_heldMessage : ∃ (task : StreamTask) (more : Nat) (s : StreamState),
    StreamRun emptyValues (.ofContext Engine.streamingTurn.request) task .skipped (0 + more) s ∧ s.ended.isSome = true := by
  obtain ⟨task, -⟩ := heldMessage_task
  obtain ⟨-, more, s, run, settled⟩ := stream_ends
    (StreamRun.start : StreamRun emptyValues (.ofContext Engine.streamingTurn.request) task .skipped 0 .start)
  exact ⟨task, more, s, run, settled⟩

end AgenticStack
