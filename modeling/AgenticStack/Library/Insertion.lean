import Mathlib.Data.List.InsertIdx
import Mathlib.Data.List.Nodup
import Mathlib.Data.List.Perm.Subperm
import Mathlib.Data.List.Range

/-!
# Numbers inserted at their own index

The parts of a whole come one by one, each with its number, and each is inserted
at that index, or at the end of what is there. The parts end up in order exactly
when each finds only smaller numbers before it, or all the smaller ones.
-/

namespace AgenticStack.Library
set_option autoImplicit false

/-- Insertion at an index; past the end it is the end. -/
def insertAt {α : Type} (l : List α) (i : Nat) (a : α) : List α := l.insertIdx (min i l.length) a

/-- Numbers inserted one after another, each at its own index. -/
def insertAll (l order : List Nat) : List Nat := order.foldl (fun l i => insertAt l i i) l

/-- Each number finds only smaller ones before it, or all the smaller ones. -/
def InPlaceAfter (before : List Nat) : List Nat → Prop
  | [] => True
  | i :: order => ((∀ j ∈ before, j < i) ∨ ∀ j < i, j ∈ before) ∧ InPlaceAfter (before ++ [i]) order

/-- The members are in place among those inserted before them. -/
abbrev InPlace (order : List Nat) : Prop := InPlaceAfter [] order

instance decidableInPlaceAfter : (before order : List Nat) → Decidable (InPlaceAfter before order)
  | _, [] => inferInstanceAs (Decidable True)
  | before, i :: order =>
    have := decidableInPlaceAfter (before ++ [i]) order
    inferInstanceAs (Decidable (_ ∧ _))

section
variable {α β : Type} {l front back before order : List Nat} {i : Nat}

/-- A map inserts where the list does. -/
theorem map_insertAt (f : α → β) (l : List α) (i : Nat) (a : α) : (insertAt l i a).map f = insertAt (l.map f) i (f a) := by
  rw [insertAt, insertAt, List.map_insertIdx, List.length_map]

theorem insertIdx_length_append (front back : List α) (a : α) :
    (front ++ back).insertIdx front.length a = front ++ a :: back := by
  induction front with
  | nil => rfl
  | cons b front ih => exact congrArg (b :: ·) ih

/-- A number stands in order only between the smaller and the larger ones. -/
theorem sorted_insert_iff : (front ++ i :: back).Pairwise (· < ·) ↔
    (front ++ back).Pairwise (· < ·) ∧ (∀ j ∈ front, j < i) ∧ ∀ j ∈ back, i < j := by
  simp only [List.pairwise_append, List.pairwise_cons, List.mem_cons, forall_eq_or_imp]
  constructor
  · rintro ⟨sorted, ⟨above, sorted'⟩, cross⟩
    exact ⟨⟨sorted, sorted', fun a here => (cross a here).2⟩, fun a here => (cross a here).1, above⟩
  · rintro ⟨⟨sorted, sorted', cross⟩, below, above⟩
    exact ⟨sorted, ⟨above, sorted'⟩, fun a here => ⟨below a here, cross a here⟩⟩

/-- Distinct numbers below a bound are at most that many. -/
theorem length_le_of_below (once : l.Nodup) (below : ∀ j ∈ l, j < i) : l.length ≤ i := by
  have within : l ⊆ List.range i := fun j here => List.mem_range.2 (below j here)
  have fits := (once.subperm within).length_le
  rwa [List.length_range] at fits

/-- As many distinct numbers below a bound as it says are all of them. -/
theorem all_below (once : l.Nodup) (below : ∀ j ∈ l, j < i) (full : i ≤ l.length) : ∀ j < i, j ∈ l := by
  have within : l ⊆ List.range i := fun j here => List.mem_range.2 (below j here)
  have perm := (once.subperm within).perm_of_length_le (by rwa [List.length_range])
  exact fun j lt => perm.mem_iff.2 (List.mem_range.2 lt)

/-- A sorted list is split where a member is missing. -/
theorem exists_split_at (sorted : l.Pairwise (· < ·)) (i : Nat) (fresh : i ∉ l) :
    ∃ front back, l = front ++ back ∧ (∀ j ∈ front, j < i) ∧ ∀ j ∈ back, i < j := by
  induction l with
  | nil => exact ⟨[], [], rfl, by simp, by simp⟩
  | cons a l ih =>
    obtain ⟨above, sorted⟩ := List.pairwise_cons.1 sorted
    obtain ⟨apart, fresh⟩ := not_or.1 (mt List.mem_cons.2 fresh)
    by_cases below : a < i
    · obtain ⟨front, back, rfl, low, high⟩ := ih sorted fresh
      refine ⟨a :: front, back, rfl, fun j here => ?_, high⟩
      rcases List.mem_cons.1 here with rfl | here
      · exact below
      · exact low j here
    · refine ⟨[], a :: l, rfl, by simp, fun j here => ?_⟩
      rcases List.mem_cons.1 here with rfl | here
      · omega
      · have := above j here
        omega

/-- **One insertion** keeps the order exactly when all that is there is smaller, or all that is smaller is there. -/
theorem sorted_insertAt_iff (sorted : l.Pairwise (· < ·)) (fresh : i ∉ l) :
    (insertAt l i i).Pairwise (· < ·) ↔ (∀ j ∈ l, j < i) ∨ ∀ j < i, j ∈ l := by
  have once : l.Nodup := sorted.imp fun lt => Nat.ne_of_lt lt
  constructor
  · intro kept
    have cut : l.take (min i l.length) ++ l.drop (min i l.length) = l := List.take_append_drop ..
    have length : (l.take (min i l.length)).length = min i l.length := by rw [List.length_take]; omega
    have placed : insertAt l i i = l.take (min i l.length) ++ i :: l.drop (min i l.length) := by
      have := insertIdx_length_append (l.take (min i l.length)) (l.drop (min i l.length)) i
      rwa [cut, length] at this
    rw [placed] at kept
    obtain ⟨-, below, -⟩ := sorted_insert_iff.1 kept
    by_cases short : l.length ≤ i
    · refine .inl fun j here => below j ?_
      rwa [Nat.min_eq_right short, List.take_length]
    · refine .inr fun j lt => List.mem_of_mem_take (all_below (once.sublist (List.take_sublist ..)) below ?_ j lt)
      omega
  · intro condition
    obtain ⟨front, back, rfl, low, high⟩ := exists_split_at sorted i fresh
    have once_front : front.Nodup := once.sublist (List.sublist_append_left ..)
    have short := length_le_of_below once_front low
    have place : min i (front ++ back).length = front.length := by
      rcases condition with below | present
      · have none_above : back = [] := by
          cases back with
          | nil => rfl
          | cons b back =>
            have lt := below b (by simp)
            have gt := high b List.mem_cons_self
            omega
        rw [none_above, List.append_nil]
        omega
      · have within : List.range i ⊆ front := by
          intro j lt
          rcases List.mem_append.1 (present j (List.mem_range.1 lt)) with here | there
          · exact here
          · have := high j there
            have := List.mem_range.1 lt
            omega
        have long := (List.nodup_range.subperm within).length_le
        rw [List.length_range] at long
        rw [List.length_append]
        omega
    rw [insertAt, place, insertIdx_length_append]
    exact sorted_insert_iff.2 ⟨sorted, low, high⟩

/-- A member is the one inserted or was there. -/
theorem mem_insertAt {a b : α} {l : List α} : b ∈ insertAt l i a ↔ b = a ∨ b ∈ l := by
  rw [insertAt, List.mem_insertIdx (Nat.min_le_right ..)]

/-- All are inserted, in some order. -/
theorem perm_insertAll : (insertAll l order).Perm (l ++ order) := by
  induction order generalizing l with
  | nil => simp [insertAll]
  | cons i order ih =>
    have one : (insertAt l i i).Perm (i :: l) := List.perm_insertIdx i l (Nat.min_le_right ..)
    have rest : (insertAll (insertAt l i i) order).Perm (insertAt l i i ++ order) := ih
    exact rest.trans ((one.append_right order).trans List.perm_middle.symm)

/-- The list goes on as it was among those that are inserted. -/
theorem sublist_insertAll : l.Sublist (insertAll l order) := by
  induction order generalizing l with
  | nil => exact List.Sublist.refl l
  | cons i order ih => exact (List.sublist_insertIdx l _ i).trans ih

/-- **All insertions** leave the numbers in order exactly when each comes in place. -/
theorem sorted_insertAll_iff (sorted : l.Pairwise (· < ·)) (same : ∀ j, j ∈ l ↔ j ∈ before) (once : order.Nodup)
    (fresh : ∀ i ∈ order, i ∉ before) : (insertAll l order).Pairwise (· < ·) ↔ InPlaceAfter before order := by
  induction order generalizing l before with
  | nil => exact ⟨fun _ => trivial, fun _ => sorted⟩
  | cons i order ih =>
    obtain ⟨new, once⟩ := List.nodup_cons.1 once
    have absent : i ∉ l := fun here => fresh i List.mem_cons_self ((same i).1 here)
    have step := sorted_insertAt_iff sorted absent
    simp only [same] at step
    have same' (j : Nat) : j ∈ insertAt l i i ↔ j ∈ before ++ [i] := by
      rw [mem_insertAt, same, List.mem_append, List.mem_singleton, or_comm]
    have fresh' : ∀ j ∈ order, j ∉ before ++ [i] := by
      intro j here old
      rcases List.mem_append.1 old with old | last
      · exact fresh j (List.mem_cons_of_mem _ here) old
      · exact new (List.mem_singleton.1 last ▸ here)
    rw [InPlaceAfter, ← step]
    constructor
    · intro kept
      have next : (insertAt l i i).Pairwise (· < ·) := kept.sublist sublist_insertAll
      exact ⟨next, (ih next same' once fresh').1 kept⟩
    · rintro ⟨next, rest⟩
      exact (ih next same' once fresh').2 rest

/-- Numbers in order are determined by which they are. -/
theorem insertAll_eq_iff {sorted : List Nat} (ordered : sorted.Pairwise (· < ·)) (once : order.Nodup)
    (same : order.Perm sorted) : insertAll [] order = sorted ↔ InPlace order := by
  rw [InPlace, ← sorted_insertAll_iff List.Pairwise.nil (fun _ => Iff.rfl) once fun _ _ => List.not_mem_nil]
  constructor
  · intro eq
    rwa [eq]
  · intro kept
    have perm : (insertAll [] order).Perm sorted := perm_insertAll.trans same
    exact perm.eq_of_pairwise (fun a b _ _ lt gt => absurd lt (Nat.lt_asymm gt)) kept ordered

end
end AgenticStack.Library
