import Mathlib.Tactic.Common

/-!
# A bounded channel

One side sends the items of a list, one after another, through a queue that
holds a few of them; the other side takes them out of the queue, and at some
point learns that the sender has ended. Nothing is lost, doubled or overtaken,
and as long as something is left one of the sides can go on.
-/

namespace AgenticStack.Library.Channel
set_option autoImplicit false

/-- How far the two sides are: how many items were sent, those in the queue, those that were received, and whether the
end of the sender has been seen. -/
structure Flow (α : Type) where
  sent : Nat
  queue : List α
  received : List α
  joined : Bool

/-- What sender and receiver can do. -/
inductive Move (α : Type) where
  | send
  | receive (item : α)
  | join

section
variable {α : Type} (items : List α) (capacity : Nat)

/-- Nothing was sent. -/
def Flow.start : Flow α := ⟨0, [], [], false⟩

/-- The sender sends where there is room, the receiver takes the oldest item, and joins when both are done. -/
inductive Step : Flow α → Move α → Flow α → Prop where
  | send {s : Flow α} {item : α} (next : items[s.sent]? = some item) (room : s.queue.length < capacity) :
      Step s .send { s with sent := s.sent + 1, queue := s.queue ++ [item] }
  | receive {s : Flow α} {item : α} {rest : List α} (first : s.queue = item :: rest) :
      Step s (.receive item) { s with queue := rest, received := s.received ++ [item] }
  | join {s : Flow α} (ended : items.length ≤ s.sent) (running : s.joined = false) : Step s .join { s with joined := true }

/-- Everything sent is received, or in the queue. -/
structure Sound (s : Flow α) : Prop where
  sent : s.received ++ s.queue = items.take s.sent
  within : s.queue.length ≤ capacity
  ended : s.joined = true → items.length ≤ s.sent

/-- The steps that are left. -/
def Flow.left (s : Flow α) : Nat := 2 * (items.length - s.sent) + s.queue.length + if s.joined then 0 else 1

variable {items capacity} {s s' : Flow α} {move : Move α}

/-- A channel that is empty is sound. -/
theorem Sound.start : Sound items capacity Flow.start := ⟨rfl, Nat.zero_le _, fun no => nomatch no⟩

/-- **One step** of either side. -/
theorem Sound.step (h : Sound items capacity s) (step : Step items capacity s move s') : Sound items capacity s' := by
  cases step with
  | send next room =>
    obtain ⟨inside, found⟩ := List.getElem?_eq_some_iff.1 next
    refine ⟨?_, ?_, fun joined => ?_⟩
    · show s.received ++ (s.queue ++ [_]) = items.take (s.sent + 1)
      rw [← List.append_assoc, h.sent, List.take_add_one, next]
      rfl
    · show (s.queue ++ [_]).length ≤ capacity
      rw [List.length_append, List.length_singleton]
      omega
    · have ended := h.ended joined
      show items.length ≤ s.sent + 1
      omega
  | receive first =>
    have sent := h.sent
    have within := h.within
    rw [first] at sent within
    refine ⟨?_, ?_, h.ended⟩
    · show (s.received ++ [_]) ++ _ = _
      rw [← sent, List.append_assoc]
      rfl
    · rw [List.length_cons] at within
      exact Nat.le_of_succ_le within
  | join ended running => exact ⟨h.sent, h.within, fun _ => ended⟩

/-- What was received is the beginning of what was sent. -/
theorem Sound.received (h : Sound items capacity s) : s.received <+: items :=
  (List.prefix_append _ _).trans (h.sent ▸ List.take_prefix _ _)

/-- What was received, once the sender has ended and the queue is empty. -/
theorem Sound.drained (h : Sound items capacity s) (joined : s.joined = true) (empty : s.queue = []) : s.received = items := by
  have sent := h.sent
  rw [empty, List.append_nil, List.take_of_length_le (h.ended joined)] at sent
  exact sent

/-- Each step leaves fewer. -/
theorem left_step (step : Step items capacity s move s') : s'.left items < s.left items := by
  cases step with
  | send next room =>
    obtain ⟨inside, -⟩ := List.getElem?_eq_some_iff.1 next
    show 2 * (items.length - (s.sent + 1)) + (s.queue ++ [_]).length + _ < 2 * (items.length - s.sent) + s.queue.length + _
    rw [List.length_append, List.length_singleton]
    dsimp only
    omega
  | receive first =>
    show 2 * (items.length - s.sent) + _ + _ < 2 * (items.length - s.sent) + s.queue.length + _
    rw [first, List.length_cons]
    dsimp only
    omega
  | join ended running =>
    show 2 * (items.length - s.sent) + s.queue.length + 0 < 2 * (items.length - s.sent) + s.queue.length + _
    rw [running]
    exact Nat.lt_succ_self _

/-- **One side can go on**, until the sender has ended and the queue is empty. -/
theorem progress (room : 0 < capacity) (unfinished : s.joined = false ∨ s.queue ≠ []) :
    ∃ move s', Step items capacity s move s' := by
  cases queue : s.queue with
  | cons item rest => exact ⟨_, _, .receive queue⟩
  | nil =>
    have running : s.joined = false := unfinished.resolve_right fun some => some queue
    cases next : items[s.sent]? with
    | some item => exact ⟨_, _, .send next (by rw [queue]; exact room)⟩
    | none => exact ⟨_, _, .join (List.getElem?_eq_none_iff.1 next) running⟩

end
end AgenticStack.Library.Channel
