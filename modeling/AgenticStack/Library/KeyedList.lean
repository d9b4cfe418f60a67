import Mathlib.Data.List.Nodup
import Mathlib.Tactic.Common

/-!
# Lists with keys

A list whose entries have keys, no key twice, is a map that keeps the order in
which its entries came: a key has an index, and replacing the entry there leaves
the others alone.
-/

namespace AgenticStack.Library
set_option autoImplicit false

section
variable {α κ : Type} [DecidableEq κ]

/-- Where the first entry of a key stands. -/
def keyIndex (key : α → κ) (l : List α) (k : κ) : Option (Fin l.length) := l.findFinIdx? fun a => key a = k

variable {key : α → κ} {l : List α} {k : κ} {i : Fin l.length} {a : α}

/-- No index is found where no member has the key. -/
theorem keyIndex_eq_none : keyIndex key l k = none ↔ k ∉ l.map key := by
  simp [keyIndex]

/-- The index that is found has the key. -/
theorem key_of_keyIndex (h : keyIndex key l k = some i) : key (l.get i) = k := by
  rw [keyIndex, List.findFinIdx?_eq_some_iff] at h
  exact of_decide_eq_true h.1

theorem keyIndex_isSome : (keyIndex key l k).isSome = true ↔ k ∈ l.map key := by
  rw [Option.isSome_iff_ne_none, ne_eq, keyIndex_eq_none, not_not]

/-- The index of a member's key is found. -/
theorem keyIndex_of_mem (mem : k ∈ l.map key) : ∃ i, keyIndex key l k = some i ∧ key (l.get i) = k ∧ l.get i ∈ l := by
  obtain ⟨i, h⟩ := Option.isSome_iff_exists.1 (keyIndex_isSome.2 mem)
  exact ⟨i, h, key_of_keyIndex h, List.get_mem _ _⟩

/-- A member is replaced by its key. -/
theorem set_eq_map (once : (l.map key).Nodup) (i : Fin l.length) :
    l.set i a = l.map fun b => if key b = key (l.get i) then a else b := by
  obtain ⟨i, within⟩ := i
  show l.set i a = l.map fun b => if key b = key l[i] then a else b
  induction l generalizing i with
  | nil => rfl
  | cons b l ih =>
    rw [List.map_cons, List.nodup_cons] at once
    cases i with
    | zero =>
      have others : (l.map fun c => if key c = key b then a else c) = l := by
        conv_rhs => rw [← List.map_id l]
        apply List.map_congr_left
        intro c mem
        rw [if_neg fun same => once.1 (List.mem_map.2 ⟨c, mem, same⟩), id]
      rw [List.set_cons_zero, List.map_cons, List.getElem_cons_zero, if_pos rfl, others]
    | succ i =>
      have within : i < l.length := by simpa using within
      have apart : key b ≠ key l[i] := fun same => once.1 (List.mem_map.2 ⟨_, List.getElem_mem within, same.symm⟩)
      rw [List.set_cons_succ, List.map_cons, List.getElem_cons_succ, if_neg apart]
      exact congrArg (b :: ·) (ih once.2 i within)

end

/-- A reading of a list does not see one entry put in place of another that reads the same. -/
theorem filterMap_set {α β : Type} {f : α → Option β} {l : List α} {i : Nat} {a b : α} (here : l[i]? = some a)
    (same : f b = f a) : (l.set i b).filterMap f = l.filterMap f := by
  induction l generalizing i with
  | nil => cases here
  | cons c l ih =>
    cases i with
    | zero =>
      have first : c = a := by simpa using here
      rw [List.set_cons_zero, List.filterMap_cons, List.filterMap_cons, same, first]
    | succ i =>
      rw [List.set_cons_succ, List.filterMap_cons, List.filterMap_cons, ih (by simpa using here)]

end AgenticStack.Library
