import AgenticStack.Executor.Emissions
import AgenticStack.Executor.Pipeline.EventLog

/-!
# The numbers of a run's events

Whoever makes an event, it is sent under the number of the events before it, and
a response is created, and shown to make progress, at most once. A frame that
cannot be sent has taken a number; then the run fails with a stream error.
-/

namespace AgenticStack
set_option autoImplicit false
open Library

/-- The number of the event behind `n` others; the counter stays at the last `u64`. -/
def eventNumber (n : Nat) : Nat := min n (2 ^ 64 - 1)

/-- Numbers go up by one until they can no more. -/
theorem saturatingAdd_eventNumber (n : Nat) : saturatingAdd (eventNumber n) 1 = eventNumber (n + 1) := by
  unfold saturatingAdd eventNumber
  omega

/-- The events of one type. -/
def ofType (type : SSEEventType) (events : List StreamedEvent) : List StreamedEvent :=
  events.filter fun event => event.frame.event_type = type

/-- The events carry the numbers from zero on, and none of those that a response has once is there twice. -/
structure Numbered (events : List StreamedEvent) : Prop where
  numbers : events.map (·.sequence_number) = (List.range events.length).map eventNumber
  stamped : ∀ event ∈ events, event.frame.wire.sequence_number = some event.sequence_number
  once : ∀ type, isLifecycleEvent type = true → (ofType type events).length ≤ 1

namespace Outlet

/-- The events are numbered, and what the response has once is remembered. -/
structure Tracks (o : Outlet) : Prop where
  numbered : Numbered o.events
  unseen : ∀ type, isLifecycleEvent type = true → o.accumulator.repeats type = false → ofType type o.events = []

/-- The next event gets the next number. -/
structure Ready (o : Outlet) : Prop extends Tracks o where
  next : o.accumulator.next_sequence_number = eventNumber o.events.length

/-- A number was taken by a frame that was not sent. -/
structure Failed (e : ExecutorError) (o : Outlet) : Prop extends Tracks o where
  cause : o.accumulator.next_sequence_number = eventNumber o.events.length ∨ ∃ message, e = .streamError message

/-- A stream that has written nothing is numbered. -/
theorem ready_new {closes_after : Option Nat} : (Outlet.new closes_after).Ready where
  numbered := ⟨rfl, by simp [Outlet.new, Outlet.events], fun _ _ => Nat.zero_le _⟩
  unseen _ _ _ := rfl
  next := rfl

/-- A stream that is ready to fail is one that can. -/
theorem Ready.failed {o : Outlet} (h : o.Ready) (e : ExecutorError) : o.Failed e := ⟨h.toTracks, .inl h.next⟩

end Outlet

section
variable {o : Outlet} {source : Option EventFrame} {frame : EventFrame} {offset : Nat} {type : SSEEventType}

/-- An event of the life of the response is written once. -/
theorem repeats_next {acc : GatewayStreamAccumulator} (once : isLifecycleEvent type = true) :
    (acc.next frame.event_type).repeats type = (acc.repeats type || decide (frame.event_type = type)) := by
  cases type with
  | responseCreated | responseInProgress =>
    unfold GatewayStreamAccumulator.next GatewayStreamAccumulator.markEmitted
    cases frame.event_type <;> simp [GatewayStreamAccumulator.repeats]
  | _ => cases once

/-- An event that is written is the last of its type. -/
theorem ofType_push : ofType type (o.push source frame offset).events =
    ofType type o.events ++ if frame.event_type = type then [o.eventOf source frame offset] else [] := by
  have stamped : (o.eventOf source frame offset).frame.event_type = frame.event_type := event_type_stamped
  rw [Outlet.events_push, ofType, List.filter_append, ofType]
  by_cases same : frame.event_type = type <;> simp [stamped, same]

/-- Sending a frame takes the next number. -/
theorem Outlet.Ready.push (h : o.Ready) (new : o.accumulator.repeats frame.event_type = false) :
    (o.push source frame offset).Ready where
  numbered :=
    { numbers := by
        rw [events_push, List.map_append, h.numbered.numbers, List.length_append, List.length_singleton, List.range_succ,
          List.map_append]
        congr 1
        show [o.accumulator.next_sequence_number] = [eventNumber o.events.length]
        rw [h.next]
      stamped := by
        rw [events_push]
        intro event mem
        rcases List.mem_append.1 mem with before | now
        · exact h.numbered.stamped event before
        · rw [List.mem_singleton.1 now]
          exact sequence_number_of_number
      once := by
        intro type lifecycle
        rw [ofType_push]
        split
        · rename_i same
          rw [h.unseen type lifecycle (same ▸ new)]
          exact Nat.le_refl 1
        · rw [List.append_nil]
          exact h.numbered.once type lifecycle }
  unseen := by
    intro type lifecycle unseen
    have repeats : (o.accumulator.next frame.event_type).repeats type = false := unseen
    rw [repeats_next lifecycle, Bool.or_eq_false_iff, decide_eq_false_iff_not] at repeats
    rw [ofType_push, if_neg repeats.2, List.append_nil]
    exact h.unseen type lifecycle repeats.1
  next := by
    show saturatingAdd o.accumulator.next_sequence_number 1 = eventNumber (o.events ++ [_]).length
    rw [h.next, saturatingAdd_eventNumber, List.length_append, List.length_singleton]

/-- A frame that is not sent leaves the events as they are. -/
theorem Outlet.Ready.spend (h : o.Ready) : (o.spend type).Tracks where
  numbered := h.numbered
  unseen := by
    intro type' lifecycle unseen
    apply h.unseen type' lifecycle
    have repeats : (o.accumulator.next type).repeats type' = false := unseen
    have same := @repeats_next ⟨type, .none, ⟨none, none, none, []⟩⟩ type' o.accumulator lifecycle
    rw [repeats, eq_comm, Bool.or_eq_false_iff] at same
    exact same.1

/-- **One event.** -/
theorem numbering : Emission Outlet.Ready Outlet.Failed where
  emit source frame offset := by
    intro o ready
    cases result : processAndEmit source frame offset o with
    | ok emitted o' =>
      rcases processAndEmit_ok result with ⟨-, -, same⟩ | ⟨-, new, pushed⟩
      · rw [same]
        exact ready
      · rw [pushed]
        exact ready.push new
    | error e o' =>
      obtain ⟨spent, cause⟩ := processAndEmit_error result
      rw [spent]
      exact ⟨ready.spend, .inr cause⟩
  fail e _ ready := ready.failed e

end

end AgenticStack
