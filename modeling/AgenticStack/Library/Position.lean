import Mathlib.Data.List.Basic

/-!
# The last element with a property

`rposition` searches a list from its end. A list splits at the last element it
finds: what ends in that element, and the rest, which has none.
-/

namespace AgenticStack.Library
set_option autoImplicit false

section
variable {α β : Type} {p : α → Bool} {xs ys pre post : List α} {x : α} {i : Nat}

/-- The index of the last element that satisfies `p`. -/
def rposition (p : α → Bool) : List α → Option Nat
  | [] => none
  | x :: xs => match rposition p xs with
    | some i => some (i + 1)
    | none => if p x then some 0 else none

/-- What follows the last element that satisfies `p`: everything when none does. -/
def sinceLast (p : α → Bool) (xs : List α) : List α :=
  match rposition p xs with
  | some i => xs.drop (i + 1)
  | none => xs

/-- Empty, or ending in an element that satisfies `p`. -/
def EndsIn (p : α → Bool) (xs : List α) : Prop := xs = [] ∨ ∃ front x, xs = front ++ [x] ∧ p x = true

/-- No member has the property where none is found. -/
theorem rposition_eq_none_iff : rposition p xs = none ↔ ∀ x ∈ xs, p x = false := by
  induction xs with
  | nil => simp [rposition]
  | cons x xs ih =>
    cases found : rposition p xs with
    | some i =>
      have some_later : ¬ ∀ y ∈ xs, p y = false := fun h => by simp [ih.2 h] at found
      simp only [rposition, found, reduceCtorEq, List.mem_cons, forall_eq_or_imp, false_iff, not_and]
      exact fun _ => some_later
    | none =>
      have none_later := ih.1 found
      simp only [rposition, found, List.mem_cons, forall_eq_or_imp]
      constructor
      · intro h
        refine ⟨?_, none_later⟩
        by_contra head
        simp [head] at h
      · intro h
        simp [h.1]

/-- The last member with the property is found. -/
theorem rposition_append_cons (hx : p x = true) (hpost : ∀ y ∈ post, p y = false) :
    rposition p (pre ++ x :: post) = some pre.length := by
  induction pre with
  | nil => simp [rposition, rposition_eq_none_iff.2 hpost, hx]
  | cons y pre ih => simp [rposition, ih]

/-- Where the search stopped: the element found, and none after it. -/
theorem exists_of_rposition (h : rposition p xs = some i) :
    ∃ pre x post, xs = pre ++ x :: post ∧ p x = true ∧ (∀ y ∈ post, p y = false) ∧ pre.length = i := by
  induction xs generalizing i with
  | nil => simp [rposition] at h
  | cons y ys ih =>
    cases found : rposition p ys with
    | some j =>
      obtain ⟨pre, x, post, rfl, hx, hpost, rfl⟩ := ih found
      simp only [rposition, found, Option.some.injEq] at h
      exact ⟨y :: pre, x, post, rfl, hx, hpost, by simpa using h⟩
    | none =>
      simp only [rposition, found, Option.ite_none_right_eq_some, Option.some.injEq] at h
      exact ⟨[], y, ys, rfl, h.1, rposition_eq_none_iff.1 found, h.2⟩

/-- No member since the last one has the property. -/
theorem sinceLast_plain : ∀ y ∈ sinceLast p xs, p y = false := by
  unfold sinceLast
  cases found : rposition p xs with
  | none => exact rposition_eq_none_iff.1 found
  | some i =>
    obtain ⟨pre, x, post, rfl, -, hpost, rfl⟩ := exists_of_rposition found
    simpa using hpost

/-- Every list is what ends in its last match, followed by what comes after. -/
theorem exists_endsIn_append (p : α → Bool) (xs : List α) : ∃ old, xs = old ++ sinceLast p xs ∧ EndsIn p old := by
  unfold sinceLast
  cases found : rposition p xs with
  | none => exact ⟨[], rfl, .inl rfl⟩
  | some i =>
    obtain ⟨pre, x, post, rfl, hx, -, rfl⟩ := exists_of_rposition found
    exact ⟨pre ++ [x], by simp, .inr ⟨pre, x, rfl, hx⟩⟩

/-- The last member ends the list that came before. -/
theorem sinceLast_append (hold : EndsIn p xs) (hys : ∀ y ∈ ys, p y = false) : sinceLast p (xs ++ ys) = ys := by
  rcases hold with rfl | ⟨front, x, rfl, hx⟩
  · simp [sinceLast, rposition_eq_none_iff.2 hys]
  · have found : rposition p (front ++ x :: ys) = some front.length := rposition_append_cons hx hys
    simp [sinceLast, found]

/-- More members without the property follow the others. -/
theorem sinceLast_append_plain (hys : ∀ y ∈ ys, p y = false) : sinceLast p (xs ++ ys) = sinceLast p xs ++ ys := by
  obtain ⟨old, split, ends⟩ := exists_endsIn_append p xs
  have plain : ∀ y ∈ sinceLast p xs ++ ys, p y = false := by
    intro y mem
    rcases List.mem_append.1 mem with since | later
    · exact sinceLast_plain y since
    · exact hys y later
  have whole : sinceLast p (old ++ (sinceLast p xs ++ ys)) = sinceLast p xs ++ ys := sinceLast_append ends plain
  rwa [← List.append_assoc, ← split] at whole

/-- A match hides whatever stands before it. -/
theorem sinceLast_append_of_mem (hys : ∃ y ∈ ys, p y = true) : sinceLast p (xs ++ ys) = sinceLast p ys := by
  obtain ⟨y, mem, hit⟩ := hys
  obtain ⟨old, split, ends⟩ := exists_endsIn_append p ys
  rcases ends with rfl | ⟨front, x, rfl, hx⟩
  · rw [List.nil_append] at split
    rw [split] at mem
    rw [sinceLast_plain y mem] at hit
    cases hit
  · have whole : sinceLast p ((xs ++ front ++ [x]) ++ sinceLast p ys) = sinceLast p ys :=
      sinceLast_append (.inr ⟨xs ++ front, x, rfl, hx⟩) sinceLast_plain
    rwa [List.append_assoc, List.append_assoc, ← List.append_assoc front, ← split] at whole

/-- What comes behind the last member. -/
theorem after_rposition (hold : EndsIn p xs) (hys : ∀ y ∈ ys, p y = false) :
    ((rposition p (xs ++ ys)).map (· + 1)).getD 0 = xs.length := by
  rcases hold with rfl | ⟨front, x, rfl, hx⟩
  · simp [rposition_eq_none_iff.2 hys]
  · have found : rposition p (front ++ x :: ys) = some front.length := rposition_append_cons hx hys
    simp [found]

/-- Filtering by index and value is filtering by value, where the index says nothing more. -/
theorem map_fst_filter_zipIdx {k : Nat} {q : α × Nat → Bool} {r : α → Bool}
    (h : ∀ x i, (x, i) ∈ xs.zipIdx k → q (x, i) = r x) : ((xs.zipIdx k).filter q).map Prod.fst = xs.filter r := by
  induction xs generalizing k with
  | nil => rfl
  | cons x xs ih =>
    have head : q (x, k) = r x := h x k (by simp)
    have tail := ih (k := k + 1) fun y i mem => h y i (by simp [List.zipIdx_cons, mem])
    rw [List.zipIdx_cons, List.filter_cons, List.filter_cons, head]
    cases r x <;> simp [tail]

/-- Keeping and mapping, as a filter followed by a map. -/
theorem map_filterMap_eq {γ : Type} {f : α → Option β} {g : β → γ} {q : α → Bool} {k : α → γ}
    (same : ∀ x, (f x).map g = if q x then some (k x) else none) : (xs.filterMap f).map g = (xs.filter q).map k := by
  induction xs with
  | nil => rfl
  | cons x xs ih =>
    have head := same x
    cases keep : f x with
    | none =>
      have dropped : q x = false := by
        by_contra kept
        simp [keep, kept] at head
      simp [keep, dropped, ih]
    | some y =>
      have kept : q x = true := by
        by_contra dropped
        simp [keep, dropped] at head
      have value : g y = k x := by simpa [keep, kept] using head
      simp [keep, kept, value, ih]

end
end AgenticStack.Library
