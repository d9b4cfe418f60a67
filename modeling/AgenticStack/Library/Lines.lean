import Mathlib.Data.List.Basic

/-!
# Lines that arrive in pieces

A reader holds what it has of an unfinished line, and finishes lines as more
arrives. What it finishes, and what it holds at the end, does not depend on how
the stream was cut.
-/

namespace AgenticStack.Library
set_option autoImplicit false

section
variable {α : Type} [DecidableEq α] {d : α} {p s t line rest : List α} {limit : Nat}

/-- What stands before the first `d`, and what follows it. -/
def splitFirst (d : α) : List α → Option (List α × List α)
  | [] => none
  | b :: s => if b = d then some ([], s) else (splitFirst d s).map fun split => (b :: split.1, split.2)

/-- The lines that `s` finishes when `p` is held of the first, and what is held after it. -/
def feedLines (d : α) : List α → List α → List (List α) × List α
  | p, [] => ([], p)
  | p, b :: s =>
    if b = d then (p :: (feedLines d [] s).1, (feedLines d [] s).2) else feedLines d (p ++ [b]) s

/-- A text is split at its first delimiter. -/
theorem splitFirst_eq_some_iff : splitFirst d s = some (line, rest) ↔ s = line ++ d :: rest ∧ d ∉ line := by
  induction s generalizing line with
  | nil => simp [splitFirst]
  | cons b s ih =>
    unfold splitFirst
    by_cases here : b = d
    · rw [if_pos here, Option.some.injEq, Prod.mk.injEq, here]
      constructor
      · rintro ⟨rfl, rfl⟩
        exact ⟨rfl, List.not_mem_nil⟩
      · rintro ⟨shape, absent⟩
        cases line with
        | nil => exact ⟨rfl, (List.cons.inj shape).2⟩
        | cons c line => exact absurd (by rw [← (List.cons.inj shape).1]; exact List.mem_cons_self) absent
    · rw [if_neg here, Option.map_eq_some_iff]
      constructor
      · rintro ⟨⟨line', rest'⟩, later, same⟩
        obtain ⟨rfl, rfl⟩ := Prod.mk.inj same
        obtain ⟨rfl, absent⟩ := ih.1 later
        refine ⟨rfl, fun mem => ?_⟩
        rcases List.mem_cons.1 mem with first | more
        · exact here first.symm
        · exact absent more
      · rintro ⟨shape, absent⟩
        cases line with
        | nil => exact absurd (List.cons.inj shape).1 here
        | cons c line =>
          obtain ⟨rfl, rfl⟩ := List.cons.inj shape
          exact ⟨(line, rest), ih.2 ⟨rfl, fun mem => absent (List.mem_cons_of_mem _ mem)⟩, rfl⟩

/-- A text without a delimiter is not split. -/
theorem splitFirst_eq_none_iff : splitFirst d s = none ↔ d ∉ s := by
  induction s with
  | nil => simp [splitFirst]
  | cons b s ih =>
    unfold splitFirst
    by_cases here : b = d
    · simp [here]
    · rw [if_neg here, Option.map_eq_none_iff, ih, List.mem_cons, not_or]
      exact ⟨fun absent => ⟨fun same => here same.symm, absent⟩, fun absent => absent.2⟩

/-- **Feeding goes on where it stopped.** -/
theorem feedLines_append : feedLines d p (s ++ t) =
    ((feedLines d p s).1 ++ (feedLines d (feedLines d p s).2 t).1, (feedLines d (feedLines d p s).2 t).2) := by
  induction s generalizing p with
  | nil => rfl
  | cons b s ih =>
    rw [List.cons_append, feedLines, feedLines]
    by_cases here : b = d
    · rw [if_pos here, if_pos here, ih, List.cons_append]
    · rw [if_neg here, if_neg here, ih]

/-- What does not end a line is held. -/
theorem feedLines_plain (plain : d ∉ s) : feedLines d p s = ([], p ++ s) := by
  induction s generalizing p with
  | nil => rw [feedLines, List.append_nil]
  | cons b s ih =>
    obtain ⟨other, rest⟩ := not_or.1 (mt List.mem_cons.2 plain)
    rw [feedLines, if_neg fun same => other same.symm, ih rest, List.append_assoc, List.singleton_append]

/-- A line is complete at its delimiter. -/
theorem feedLines_line (plain : d ∉ line) :
    feedLines d p (line ++ d :: rest) = ((p ++ line) :: (feedLines d [] rest).1, (feedLines d [] rest).2) := by
  rw [feedLines_append, feedLines_plain plain, feedLines, if_pos rfl, List.nil_append]

/-- What is held may as well stand before what arrives. -/
theorem feedLines_nil_append (plain : d ∉ p) : feedLines d [] (p ++ s) = feedLines d p s := by
  rw [feedLines_append, feedLines_plain plain]
  rfl

/-- What is held never holds the end of a line. -/
theorem feedLines_held (plain : d ∉ p) : d ∉ (feedLines d p s).2 := by
  induction s generalizing p with
  | nil => exact plain
  | cons b s ih =>
    rw [feedLines]
    by_cases here : b = d
    · rw [if_pos here]
      exact ih List.not_mem_nil
    · rw [if_neg here]
      refine ih fun mem => ?_
      rcases List.mem_append.1 mem with before | now
      · exact plain before
      · exact here (List.mem_singleton.1 now).symm

/-- What is held begins the line that is finished next, or is still held. -/
theorem feedLines_extends : (∃ line ∈ (feedLines d p s).1, p <+: line) ∨ p <+: (feedLines d p s).2 := by
  induction s generalizing p with
  | nil => exact .inr (List.prefix_refl p)
  | cons b s ih =>
    rw [feedLines]
    by_cases here : b = d
    · rw [if_pos here]
      exact .inl ⟨p, List.mem_cons_self, List.prefix_refl p⟩
    · rw [if_neg here]
      rcases @ih (p ++ [b]) with ⟨line, mem, front⟩ | front
      · exact .inl ⟨line, mem, (List.prefix_append p [b]).trans front⟩
      · exact .inr ((List.prefix_append p [b]).trans front)

/-- What begins a stream finishes the first of its lines. -/
theorem feedLines_front (front : s <+: t) : (feedLines d p s).1 <+: (feedLines d p t).1 := by
  obtain ⟨rest, rfl⟩ := front
  rw [feedLines_append]
  exact List.prefix_append _ _

/-- Blocks that finish their lines are read one behind the other. -/
theorem feedLines_blocks {ι : Type} {blocks : List ι} {text : ι → List α} {linesOf : ι → List (List α)}
    (whole : ∀ block ∈ blocks, feedLines d [] (text block) = (linesOf block, [])) :
    feedLines d [] (blocks.map text).flatten = (blocks.flatMap linesOf, []) := by
  induction blocks with
  | nil => rfl
  | cons block blocks ih =>
    have first := whole block List.mem_cons_self
    have rest := ih fun other mem => whole other (List.mem_cons_of_mem _ mem)
    rw [List.map_cons, List.flatten_cons, feedLines_append, first, rest, List.flatMap_cons]

/-- No line that `s` finishes after `p`, nor what is held then, is longer than `limit`. -/
def LinesWithin (limit : Nat) (d : α) (p s : List α) : Prop :=
  (∀ line ∈ (feedLines d p s).1, line.length ≤ limit) ∧ (feedLines d p s).2.length ≤ limit

instance instDecidableLinesWithin : Decidable (LinesWithin limit d p s) :=
  inferInstanceAs (Decidable ((∀ line ∈ (feedLines d p s).1, line.length ≤ limit) ∧ (feedLines d p s).2.length ≤ limit))

/-- A stream is within the limit when each of its two parts is. -/
theorem linesWithin_append :
    LinesWithin limit d p (s ++ t) ↔ LinesWithin limit d p s ∧ LinesWithin limit d (feedLines d p s).2 t := by
  unfold LinesWithin
  rw [feedLines_append]
  constructor
  · rintro ⟨lines, held⟩
    refine ⟨⟨fun line mem => lines line (List.mem_append_left _ mem), ?_⟩,
      fun line mem => lines line (List.mem_append_right _ mem), held⟩
    rcases @feedLines_extends _ _ d (feedLines d p s).2 t with ⟨line, mem, front⟩ | front
    · exact Nat.le_trans front.length_le (lines line (List.mem_append_right _ mem))
    · exact Nat.le_trans front.length_le held
  · rintro ⟨⟨lines, -⟩, later, held⟩
    refine ⟨fun line mem => ?_, held⟩
    rcases List.mem_append.1 mem with first | second
    · exact lines line first
    · exact later line second

/-- What comes before is within the limit too. -/
theorem LinesWithin.front (within : LinesWithin limit d p t) (front : s <+: t) : LinesWithin limit d p s := by
  obtain ⟨rest, rfl⟩ := front
  exact (linesWithin_append.1 within).1

/-- The lines within the limit do not depend on what follows. -/
theorem feedLines_takeWhile_append (within : LinesWithin limit d p s) :
    (feedLines d p (s ++ t)).1.takeWhile (fun line => line.length ≤ limit) =
      (feedLines d p s).1 ++ (feedLines d (feedLines d p s).2 t).1.takeWhile fun line => line.length ≤ limit := by
  rw [feedLines_append, List.takeWhile_append_of_pos]
  intro line mem
  exact decide_eq_true (within.1 line mem)

end

end AgenticStack.Library
