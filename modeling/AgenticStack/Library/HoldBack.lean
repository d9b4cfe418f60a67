import Mathlib.Data.List.Basic
import Mathlib.Order.Defs.LinearOrder

/-!
# Holding back a part of a sequence

Items that carry a key come one after another. Those whose key is hidden are
held; the others go out. What is held can be put through again, in an order
that keeps the items of one key in their order. For each key, what went out and
what is held are then together what came.
-/

namespace AgenticStack.Library
set_option autoImplicit false

section
variable {α ι : Type} (key : α → ι)

/-- The items of one key, in order. -/
def keyed [DecidableEq ι] (k : ι) (items : List α) : List α := items.filter fun a => key a = k

/-- What was let out and what is held back. -/
structure HoldBack (α : Type) where
  out : List α
  held : List α

/-- Items come in: the hidden ones are held. -/
def HoldBack.take (hidden : ι → Bool) (b : HoldBack α) (items : List α) : HoldBack α where
  out := b.out ++ items.filter fun a => !hidden (key a)
  held := b.held ++ items.filter fun a => hidden (key a)

/-- All that came of one key: what went out, and what is held after it. -/
def HoldBack.all [DecidableEq ι] (k : ι) (b : HoldBack α) : List α := keyed key k b.out ++ keyed key k b.held

/-- No item that goes out now overtakes a held one of its key. -/
def Apart (hidden : ι → Bool) (held items : List α) : Prop :=
  ∀ a ∈ items, hidden (key a) = false → ∀ h ∈ held, key h ≠ key a

instance [DecidableEq ι] (hidden : ι → Bool) (held items : List α) : Decidable (Apart key hidden held items) :=
  inferInstanceAs (Decidable (∀ a ∈ items, hidden (key a) = false → ∀ h ∈ held, key h ≠ key a))

/-- The same items, those of one key in the same order. -/
def Rearranges [DecidableEq ι] (a b : List α) : Prop := ∀ k, keyed key k a = keyed key k b

variable {key} {k : ι} {hidden : ι → Bool} {a b : List α} {s : HoldBack α} {items more : List α} {x : α}

/-- Nothing is taken. -/
@[simp] theorem take_nil : s.take key hidden [] = s := by simp [HoldBack.take]

/-- Items are taken one after the other. -/
theorem take_append : s.take key hidden (items ++ more) = (s.take key hidden items).take key hidden more := by
  simp [HoldBack.take]

section
variable [DecidableEq ι]

@[simp] theorem keyed_nil : keyed key k ([] : List α) = [] := rfl

@[simp] theorem keyed_append : keyed key k (a ++ b) = keyed key k a ++ keyed key k b := List.filter_append ..

theorem mem_keyed : x ∈ keyed key k a ↔ x ∈ a ∧ key x = k := by simp [keyed]

/-- Of one key, all items are hidden or none is. -/
theorem keyed_filter : keyed key k (a.filter fun x => hidden (key x)) = if hidden k then keyed key k a else [] := by
  unfold keyed
  rw [List.filter_filter]
  split
  · rename_i yes
    apply List.filter_congr
    intro x _
    by_cases same : key x = k <;> simp [same, yes]
  · rename_i no
    rw [List.filter_eq_nil_iff]
    intro x _ both
    simp only [Bool.and_eq_true, decide_eq_true_eq] at both
    exact no (both.1 ▸ both.2)

/-- What is left of a key when some keys are let out. -/
theorem keyed_filter_not :
    keyed key k (a.filter fun x => !hidden (key x)) = if hidden k then [] else keyed key k a := by
  have flipped := @keyed_filter α ι key k (fun k => !hidden k) a _
  rw [flipped]
  cases hidden k <;> rfl

/-- Every item is somewhere, in the order of its key. -/
theorem all_take_of_apart (apart : Apart key hidden s.held items) :
    (s.take key hidden items).all key k = s.all key k ++ keyed key k items := by
  unfold HoldBack.all HoldBack.take
  simp only [keyed_append, keyed_filter, keyed_filter_not]
  cases visible : hidden k with
  | true => simp
  | false =>
    by_cases none : keyed key k items = []
    · simp [none]
    · obtain ⟨x, mem⟩ := List.exists_mem_of_ne_nil _ none
      obtain ⟨here, same⟩ := mem_keyed.1 mem
      have empty : keyed key k s.held = [] := by
        apply List.filter_eq_nil_iff.2
        intro h held yes
        refine apart x here (same ▸ visible) h held ?_
        rw [same]
        exact of_decide_eq_true yes
      simp [empty]

/-- Leaving items out rearranges no others. -/
theorem Rearranges.filter (p : α → Bool) (h : Rearranges key a b) : Rearranges key (a.filter p) (b.filter p) := by
  intro k
  have swap : ∀ items : List α, keyed key k (items.filter p) = (keyed key k items).filter p := by
    intro items
    unfold keyed
    rw [List.filter_filter, List.filter_filter]
    apply List.filter_congr
    intro x _
    exact Bool.and_comm ..
  rw [swap, swap, h k]

/-- What is held goes through once more; nothing is held before it. -/
theorem all_retake (h : Rearranges key items s.held) :
    ((⟨s.out, []⟩ : HoldBack α).take key hidden items).all key k = s.all key k := by
  rw [all_take_of_apart (fun _ _ _ _ none => absurd none (List.not_mem_nil))]
  simp [HoldBack.all, h k]

/-- A stable sort by key rearranges. -/
theorem rearranges_mergeSort {le : ι → ι → Bool} (trans : ∀ a b c, le a b → le b c → le a c)
    (total : ∀ a b, le a b || le b a) : Rearranges key (a.mergeSort fun x y => le (key x) (key y)) a := by
  intro k
  have refl : ∀ i, le i i = true := fun i => by simpa using total i i
  have ordered : (keyed key k a).Pairwise fun x y => le (key x) (key y) := by
    apply List.pairwise_of_forall_mem_list
    intro x here y there
    rw [(mem_keyed.1 here).2, (mem_keyed.1 there).2]
    exact refl k
  have kept : (keyed key k a).Sublist (a.mergeSort fun x y => le (key x) (key y)) :=
    List.sublist_mergeSort (fun x y z => trans (key x) (key y) (key z)) (fun x y => total (key x) (key y)) ordered
      List.filter_sublist
  have inside : (keyed key k a).Sublist (keyed key k (a.mergeSort fun x y => le (key x) (key y))) := by
    have again := kept.filter fun x => key x = k
    unfold keyed at again ⊢
    rwa [List.filter_filter, List.filter_congr (q := fun x => decide (key x = k)) (by intro x _; simp)] at again
  have size : (keyed key k (a.mergeSort fun x y => le (key x) (key y))).length = (keyed key k a).length :=
    ((List.mergeSort_perm a _).filter _).length_eq
  exact (inside.eq_of_length size.symm).symm

/-- The items at the positions below `n`, position by position, and then the others. -/
def buckets (key : α → Option Nat) (n : Nat) (items : List α) : List α :=
  (List.range n).flatMap (fun i => items.filter fun x => key x = some i) ++
    items.filter fun x => !(key x).any (· < n)

/-- The items of two keys are of one, or none. -/
theorem keyed_keyed {j : ι} : keyed key k (keyed key j a) = if k = j then keyed key k a else [] := by
  show keyed key k (a.filter fun x => decide (key x = j)) = _
  rw [@keyed_filter α ι key k (fun i => decide (i = j)) a _]
  simp only [decide_eq_true_eq]

/-- Positions are buckets: taking the items bucket by bucket rearranges them. -/
theorem rearranges_buckets {key : α → Option Nat} (n : Nat) : Rearranges key (buckets key n a) a := by
  have below : ∀ k m, keyed key k ((List.range m).flatMap fun i => keyed key (some i) a) =
      if k.any (· < m) then keyed key k a else [] := by
    intro k m
    induction m with
    | zero => cases k <;> simp
    | succ m ih =>
      rw [List.range_succ, List.flatMap_append, keyed_append, ih]
      simp only [List.flatMap_cons, List.flatMap_nil, List.append_nil, keyed_keyed]
      cases k with
      | none => simp
      | some j =>
        simp only [Option.any_some, decide_eq_true_eq, Option.some.injEq]
        by_cases low : j < m
        · rw [if_pos low, if_neg (by omega), if_pos (by omega), List.append_nil]
        · by_cases last : m = j
          · rw [if_neg low, if_pos last.symm, if_pos (by omega), List.nil_append]
          · rw [if_neg low, if_neg (Ne.symm last), if_neg (by omega), List.nil_append]
  intro k
  unfold buckets
  rw [keyed_append, @keyed_filter_not α (Option Nat) key k (fun p => p.any (· < n)) a _]
  show keyed key k ((List.range n).flatMap fun i => keyed key (some i) a) ++ _ = _
  rw [below]
  cases k.any (· < n) <;> simp

end
end
end AgenticStack.Library
