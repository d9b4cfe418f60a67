import Mathlib.Data.List.Nodup
import Mathlib.Data.List.Range

/-!
# Blocks under consecutive indices

Blocks that are streamed among one another: each frame carries the index of its
block, and the indices are given in the order in which the blocks open.
-/

namespace AgenticStack.Library
set_option autoImplicit false

/-- The frames are those of the blocks, the first under the index `base`. `put` writes a part of a block under an index. -/
structure Framed {β ε : Type} (put : Nat → β → ε) (index : ε → Option Nat) (opens : ε → Bool) (base : Nat) (blocks : List (List β))
    (frames : List ε) : Prop where
  /-- No frame is of another block. -/
  within : ∀ frame ∈ frames, ∃ k < blocks.length, index frame = some (base + k)
  /-- The blocks open one behind the other. -/
  order : (frames.filter opens).map index = (List.range' base blocks.length).map some
  /-- The frames under an index are the parts of its block, in their order. -/
  parts : ∀ k block, blocks[k]? = some block → (frames.filter fun frame => index frame = some (base + k)) = block.map (put (base + k))

section
variable {β ε : Type} {put : Nat → β → ε} {index : ε → Option Nat} {opens : ε → Bool} {base : Nat} {blocks blocks' : List (List β)}
  {frames frames' : List ε}

/-- Nothing is framed by nothing. -/
theorem framed_nil : Framed put index opens base [] [] :=
  ⟨fun _ member => (nomatch member), rfl, fun _ _ found => (nomatch found)⟩

/-- A block that opens. -/
theorem framed_single {part : β} (here : index (put base part) = some base) (opened : opens (put base part) = true) :
    Framed put index opens base [[part]] [put base part] := by
  refine ⟨fun frame member => ⟨0, Nat.zero_lt_one, ?_⟩, ?_, fun k block found => ?_⟩
  · rw [List.mem_singleton.1 member]
    exact here
  · rw [List.filter_singleton, opened]
    exact congrArg (fun i => [i]) here
  · cases k with
    | zero =>
      cases found
      rw [Nat.add_zero, List.filter_singleton, here]
      simp
    | succ k => cases found

/-- **Later blocks** are framed behind the earlier ones. -/
theorem Framed.append (h : Framed put index opens base blocks frames)
    (h' : Framed put index opens (base + blocks.length) blocks' frames') :
    Framed put index opens base (blocks ++ blocks') (frames ++ frames') := by
  refine ⟨fun frame member => ?_, ?_, fun k block found => ?_⟩
  · rw [List.length_append]
    rcases List.mem_append.1 member with now | later
    · obtain ⟨k, below, here⟩ := h.within frame now
      exact ⟨k, by omega, here⟩
    · obtain ⟨k, below, here⟩ := h'.within frame later
      exact ⟨blocks.length + k, by omega, by rw [here, Nat.add_assoc]⟩
  · rw [List.filter_append, List.map_append, h.order, h'.order, List.length_append, ← List.map_append, List.range'_append_1]
  · rw [List.filter_append]
    by_cases now : k < blocks.length
    · rw [List.getElem?_append_left now] at found
      have none_later : (frames'.filter fun frame => index frame = some (base + k)) = [] := by
        rw [List.filter_eq_nil_iff]
        intro frame member same
        obtain ⟨k', _, here⟩ := h'.within frame member
        rw [here, decide_eq_true_eq, Option.some.injEq] at same
        omega
      rw [h.parts k block found, none_later, List.append_nil]
    · have later : blocks.length ≤ k := Nat.le_of_not_lt now
      rw [List.getElem?_append_right later] at found
      have none_now : (frames.filter fun frame => index frame = some (base + k)) = [] := by
        rw [List.filter_eq_nil_iff]
        intro frame member same
        obtain ⟨k', below, here⟩ := h.within frame member
        rw [here, decide_eq_true_eq, Option.some.injEq] at same
        omega
      have behind : base + blocks.length + (k - blocks.length) = base + k := by omega
      have there := h'.parts (k - blocks.length) block found
      rw [behind] at there
      rw [none_now, List.nil_append, there]

/-- **One more part** of a block that is open. -/
theorem Framed.extend (h : Framed put index opens base blocks frames) {j : Nat} {block : List β} {part : β}
    (found : blocks[j]? = some block) (here : index (put (base + j) part) = some (base + j)) (goes_on : opens (put (base + j) part) = false) :
    Framed put index opens base (blocks.set j (block ++ [part])) (frames ++ [put (base + j) part]) := by
  have below : j < blocks.length := (List.getElem?_eq_some_iff.1 found).1
  refine ⟨fun frame member => ?_, ?_, fun k other found' => ?_⟩
  · rw [List.length_set]
    rcases List.mem_append.1 member with before | last
    · exact h.within frame before
    · rw [List.mem_singleton.1 last]
      exact ⟨j, below, here⟩
  · rw [List.length_set, List.filter_append, List.filter_singleton, goes_on, ← h.order]
    exact congrArg (List.map index) (List.append_nil _)
  · rw [List.filter_append, List.filter_singleton, here]
    by_cases same : j = k
    · subst same
      rw [List.getElem?_set_self below, Option.some.injEq] at found'
      rw [h.parts j block found, ← found', List.map_append]
      simp
    · rw [List.getElem?_set_ne same] at found'
      rw [h.parts k other found', decide_eq_false]
      · exact List.append_nil _
      · rw [Option.some.injEq]
        omega

end
end AgenticStack.Library
