import Mathlib.Algebra.Order.BigOperators.Group.Finset
import Mathlib.Data.List.Count

/-!
# Shared cells with a charge

An arena of immutable values that several owners share by reference. A cell
counts its references and carries a charge; the charge goes to a common counter
when the cell is made and comes back when its last reference is dropped.
`Sound` says that the counter is the sum of the charges of the cells that some
reference still reaches, each taken once.
-/

namespace AgenticStack.Library
set_option autoImplicit false

/-- Subtraction on a 64-bit counter, which wraps. -/
def fetchSub (used amount : Nat) : Nat := if amount ≤ used then used - amount else used + 2 ^ 64 - amount

/-- A value with the shares that are held of it. -/
structure Cell (α : Type) where
  value : α
  charge : Nat
  strong : Nat

/-- The cells ever made, a reference being a position, and the counter. -/
structure Arena (α : Type) where
  cells : List (Cell α)
  used : Nat

namespace Arena
variable {α : Type} {a : Arena α} {refs refs' : List Nat} {r s amount : Nat} {v : α}

/-- No cells. -/
def empty : Arena α := ⟨[], 0⟩

/-- The shares of a cell. -/
def strong (a : Arena α) (r : Nat) : Nat := a.cells[r]?.elim 0 Cell.strong

/-- What a cell is charged for. -/
def charge (a : Arena α) (r : Nat) : Nat := a.cells[r]?.elim 0 Cell.charge

/-- The value of a cell. -/
def value (a : Arena α) (r : Nat) : Option α := a.cells[r]?.map Cell.value

/-- A new cell with one reference to it, the position `a.cells.length`. -/
def alloc (a : Arena α) (v : α) (amount : Nat) : Arena α := ⟨a.cells ++ [⟨v, amount, 1⟩], a.used + amount⟩

/-- One share more is held of a cell. -/
def clone (a : Arena α) (r : Nat) : Arena α :=
  { a with cells := a.cells.modify r fun c => { c with strong := c.strong + 1 } }

/-- Drop one reference; the last one returns the charge. -/
def drop (a : Arena α) (r : Nat) : Arena α :=
  { cells := a.cells.modify r fun c => { c with strong := c.strong - 1 }
    used := if a.strong r = 1 then fetchSub a.used (a.charge r) else a.used }

/-- `refs` are all the references into the arena that are alive. -/
structure Sound (a : Arena α) (refs : List Nat) : Prop where
  strong : ∀ r, a.strong r = refs.count r
  used : a.used = ∑ r ∈ refs.toFinset, a.charge r

@[simp] theorem charge_clone : (a.clone r).charge s = a.charge s := by
  simp only [charge, clone, List.getElem?_modify]
  cases a.cells[s]? with
  | none => rfl
  | some c => by_cases here : r = s <;> simp [here]

@[simp] theorem value_clone : (a.clone r).value s = a.value s := by
  simp only [value, clone, List.getElem?_modify]
  cases a.cells[s]? with
  | none => rfl
  | some c => by_cases here : r = s <;> simp [here]

@[simp] theorem charge_drop : (a.drop r).charge s = a.charge s := by
  simp only [charge, drop, List.getElem?_modify]
  cases a.cells[s]? with
  | none => rfl
  | some c => by_cases here : r = s <;> simp [here]

@[simp] theorem value_drop : (a.drop r).value s = a.value s := by
  simp only [value, drop, List.getElem?_modify]
  cases a.cells[s]? with
  | none => rfl
  | some c => by_cases here : r = s <;> simp [here]

theorem value_alloc_self : (a.alloc v amount).value a.cells.length = some v := by
  simp [value, alloc]

theorem value_alloc_of_lt (old : s < a.cells.length) : (a.alloc v amount).value s = a.value s := by
  simp only [value, alloc, List.getElem?_append_left old]

theorem charge_alloc_self : (a.alloc v amount).charge a.cells.length = amount := by
  simp [charge, alloc]

theorem charge_alloc_of_lt (old : s < a.cells.length) : (a.alloc v amount).charge s = a.charge s := by
  simp only [charge, alloc, List.getElem?_append_left old]

theorem lt_of_strong (held : a.strong r ≠ 0) : r < a.cells.length := by
  by_contra beyond
  exact held (by simp [strong, List.getElem?_eq_none (Nat.le_of_not_lt beyond)])

namespace Sound

/-- What is held is there. -/
theorem lt (h : a.Sound refs) (held : r ∈ refs) : r < a.cells.length := by
  apply lt_of_strong
  rw [h.strong]
  exact Nat.pos_iff_ne_zero.1 (List.count_pos_iff.2 held)

/-- A position beyond the cells has no references. -/
theorem fresh (h : a.Sound refs) : a.cells.length ∉ refs := fun held => Nat.lt_irrefl _ (h.lt held)

/-- The order of the shares does not matter. -/
theorem of_perm (h : a.Sound refs) (same : refs.Perm refs') : a.Sound refs' :=
  ⟨fun r => by rw [h.strong, same.count_eq], by rw [h.used, List.toFinset_eq_of_perm _ _ same]⟩

/-- What is held is charged for. -/
theorem charge_le (h : a.Sound refs) (held : r ∈ refs) : a.charge r ≤ a.used := by
  rw [h.used]
  exact Finset.single_le_sum (f := a.charge) (fun _ _ => Nat.zero_le _) (List.mem_toFinset.2 held)

/-- Nothing is held of nothing. -/
theorem empty : (Arena.empty : Arena α).Sound [] := ⟨fun r => by simp [Arena.strong, Arena.empty], rfl⟩

/-- A cell that is allocated is held once. -/
theorem alloc (h : a.Sound refs) (v : α) (amount : Nat) : (a.alloc v amount).Sound (a.cells.length :: refs) := by
  constructor
  · intro r
    rw [List.count_cons, ← h.strong]
    by_cases here : r = a.cells.length
    · simp [Arena.strong, Arena.alloc, here]
    · have away : (a.cells.length == r) = false := by simpa using fun same => here same.symm
      have same : (a.cells ++ [⟨v, amount, 1⟩])[r]? = a.cells[r]? := by grind
      simp [Arena.strong, Arena.alloc, same, away]
  · have rest : ∑ r ∈ refs.toFinset, (a.alloc v amount).charge r = ∑ r ∈ refs.toFinset, a.charge r := by
      refine Finset.sum_congr rfl fun r held => ?_
      exact charge_alloc_of_lt (h.lt (List.mem_toFinset.1 held))
    rw [List.toFinset_cons, Finset.sum_insert (by simpa using h.fresh), charge_alloc_self, rest, ← h.used, Nat.add_comm]
    rfl

/-- Sharing what is held is sound. -/
theorem clone (h : a.Sound refs) (held : r ∈ refs) : (a.clone r).Sound (r :: refs) := by
  constructor
  · intro s
    rw [List.count_cons, ← h.strong]
    simp only [Arena.strong, Arena.clone, List.getElem?_modify]
    by_cases here : r = s
    · subst here
      simp [List.getElem?_eq_getElem (h.lt held)]
    · cases a.cells[s]? <;> simp [here]
  · have already : insert r refs.toFinset = refs.toFinset := Finset.insert_eq_self.2 (List.mem_toFinset.2 held)
    simp only [List.toFinset_cons, already, charge_clone]
    exact h.used

/-- Letting go of a share is sound. -/
theorem drop (h : a.Sound (r :: refs)) : (a.drop r).Sound refs := by
  have counted : a.strong r = refs.count r + 1 := by rw [h.strong, List.count_cons_self]
  constructor
  · intro s
    have before := h.strong s
    rw [List.count_cons] at before
    simp only [Arena.strong, Arena.drop, List.getElem?_modify] at before ⊢
    by_cases here : r = s
    · subst here
      cases found : a.cells[r]? with
      | none => simp [found] at before
      | some c =>
        simp only [found, Option.elim_some, BEq.rfl, if_true] at before
        simp [before]
    · cases found : a.cells[s]? with
      | none => simpa [found, here] using before
      | some c => simpa [found, here] using before
  · simp only [charge_drop]
    by_cases last : r ∈ refs
    · have shared : a.strong r ≠ 1 := by
        have := List.count_pos_iff.2 last
        omega
      have already : insert r refs.toFinset = refs.toFinset := Finset.insert_eq_self.2 (List.mem_toFinset.2 last)
      rw [Arena.drop, if_neg shared, h.used, List.toFinset_cons, already]
    · have single : a.strong r = 1 := by rw [counted, List.count_eq_zero.2 last]
      have total : a.used = a.charge r + ∑ s ∈ refs.toFinset, a.charge s := by
        rw [h.used, List.toFinset_cons, Finset.sum_insert (by simpa using last)]
      rw [Arena.drop, if_pos single, fetchSub, if_pos (by omega)]
      show a.used - a.charge r = _
      omega

/-- Dropping a reference never raises the counter. -/
theorem used_drop_le (h : a.Sound (r :: refs)) : (a.drop r).used ≤ a.used := by
  have enough : a.charge r ≤ a.used := h.charge_le (List.mem_cons_self ..)
  rw [Arena.drop]
  split
  · rw [fetchSub, if_pos enough]
    exact Nat.sub_le ..
  · exact Nat.le_refl _

end Sound
end Arena

section
variable {β : Type} {xs : List β} {i : Nat} {x : β} {f : β → β} {g : β → List Nat}

/-- A change that keeps what a member holds keeps what all hold. -/
theorem flatMap_modify_of_same (same : ∀ x, g (f x) = g x) : (xs.modify i f).flatMap g = xs.flatMap g := by
  induction xs generalizing i with
  | nil => simp
  | cons y xs ih =>
    cases i with
    | zero => simp [same]
    | succ i => simp [ih]

/-- Changing one entry exchanges its references. -/
theorem flatMap_modify_perm (found : xs[i]? = some x) :
    ((xs.modify i f).flatMap g ++ g x).Perm (xs.flatMap g ++ g (f x)) := by
  induction xs generalizing i with
  | nil => simp at found
  | cons y xs ih =>
    rw [List.perm_iff_count]
    intro r
    cases i with
    | zero =>
      obtain rfl : y = x := by simpa using found
      simp only [List.modify_zero_cons, List.flatMap_cons, List.count_append]
      omega
    | succ i =>
      have rest := (ih (i := i) (by simpa using found)).count_eq r
      simp only [List.modify_succ_cons, List.flatMap_cons, List.count_append] at rest ⊢
      omega

end
end AgenticStack.Library
