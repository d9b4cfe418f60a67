import Mathlib.Data.List.Basic
import Mathlib.Order.Lattice
import Mathlib.Order.MinMax

/-!
# Saturating counters

A counter stays at its limit when an addition would take it beyond. Additions in
a row are one addition of their sum, so what a counter shows at the end is the
exact sum, cut at the limit once.
-/

namespace AgenticStack.Library
set_option autoImplicit false

/-- A count that never exceeds `limit`. -/
structure Counter (limit : Nat) where
  value : Nat
  fits : value ≤ limit

namespace Counter
variable {limit : Nat}

/-- Nothing was counted. -/
def zero (limit : Nat) : Counter limit := ⟨0, Nat.zero_le limit⟩

/-- Addition, stopped at the limit. -/
def add (c : Counter limit) (n : Nat) : Counter limit := ⟨min (c.value + n) limit, Nat.min_le_right _ _⟩

/-- Counters of one value are one. -/
theorem ext_value {a b : Counter limit} (same : a.value = b.value) : a = b := by
  cases a
  cases b
  cases same
  rfl

@[simp] theorem value_zero : (zero limit).value = 0 := rfl

/-- Counting stops at the limit. -/
@[simp] theorem value_add (c : Counter limit) (n : Nat) : (c.add n).value = min (c.value + n) limit := rfl

@[simp] theorem add_zero (c : Counter limit) : c.add 0 = c := ext_value (Nat.min_eq_left c.fits)

/-- Stopping at the limit on the way changes nothing. -/
theorem add_add (c : Counter limit) (m n : Nat) : (c.add m).add n = c.add (m + n) := by
  apply ext_value
  rw [value_add, value_add, value_add]
  omega

/-- A summand may be cut at the limit before it is added. -/
theorem add_min (c : Counter limit) (n : Nat) : c.add (min n limit) = c.add n := by
  apply ext_value
  rw [value_add, value_add]
  omega

/-- Counting more counts no less. -/
theorem add_mono {a b : Counter limit} {m n : Nat} (le : a.value ≤ b.value) (more : m ≤ n) :
    (a.add m).value ≤ (b.add n).value := by
  rw [value_add, value_add]
  omega

end Counter

/-- Bytes that are counted by the group, and units that are counted as they are. -/
structure Cost where
  bytes : Nat
  units : Nat

namespace Cost

/-- Nothing. -/
def none : Cost := ⟨0, 0⟩

/-- Both costs. -/
def plus (a b : Cost) : Cost := ⟨a.bytes + b.bytes, a.units + b.units⟩

/-- So many bytes. -/
def ofBytes (n : Nat) : Cost := ⟨n, 0⟩

/-- So many units. -/
def ofUnits (n : Nat) : Cost := ⟨0, n⟩

/-- No less in either currency. -/
structure Le (a b : Cost) : Prop where
  bytes : a.bytes ≤ b.bytes
  units : a.units ≤ b.units

/-- What all elements of a list cost. -/
def total {α : Type} (cost : α → Cost) : List α → Cost
  | [] => none
  | x :: xs => (cost x).plus (total cost xs)

variable {α : Type} {cost : α → Cost} {xs ys : List α}

theorem plus_assoc (a b c : Cost) : (a.plus b).plus c = a.plus (b.plus c) := by
  simp only [plus, Nat.add_assoc]

@[simp] theorem plus_none (a : Cost) : a.plus none = a := rfl

/-- A part costs no more than the whole. -/
theorem total_sublist (part : xs.Sublist ys) : (total cost xs).Le (total cost ys) := by
  induction part with
  | slnil => exact ⟨Nat.le_refl _, Nat.le_refl _⟩
  | cons y _ ih =>
    have bytes := ih.bytes
    have units := ih.units
    constructor <;> simp only [total, plus] <;> omega
  | cons_cons y _ ih =>
    have bytes := ih.bytes
    have units := ih.units
    constructor <;> simp only [total, plus] <;> omega

end Cost

/-- The costs counted so far, each currency in a counter of its own. -/
structure Meter (limit : Nat) where
  bytes : Counter limit
  units : Counter limit

namespace Meter
variable {limit : Nat}

/-- Nothing was charged. -/
def zero (limit : Nat) : Meter limit := ⟨.zero limit, .zero limit⟩

/-- A cost is charged. -/
def charge (m : Meter limit) (c : Cost) : Meter limit := ⟨m.bytes.add c.bytes, m.units.add c.units⟩

@[simp] theorem charge_none (m : Meter limit) : m.charge .none = m := by
  unfold charge Cost.none
  rw [Counter.add_zero, Counter.add_zero]

/-- Two costs are charged together. -/
theorem charge_charge (m : Meter limit) (a b : Cost) : (m.charge a).charge b = m.charge (a.plus b) := by
  unfold charge Cost.plus
  rw [Counter.add_add, Counter.add_add]

/-- Counting a list element by element is counting its total. -/
theorem foldl_charge {α : Type} {cost : α → Cost} {step : Meter limit → α → Meter limit} {xs : List α}
    (steps : ∀ m, ∀ x ∈ xs, step m x = m.charge (cost x)) (m : Meter limit) :
    xs.foldl step m = m.charge (Cost.total cost xs) := by
  induction xs generalizing m with
  | nil => exact (charge_none m).symm
  | cons x xs ih =>
    have rest := ih (fun m y mem => steps m y (List.mem_cons_of_mem _ mem)) (m.charge (cost x))
    rw [List.foldl_cons, steps m x List.mem_cons_self, rest, charge_charge]
    rfl

/-- The bytes by the `group`, rounded up, and the units. -/
def reading (m : Meter limit) (group : Nat) : Counter limit :=
  m.units.add (m.bytes.value / group + if m.bytes.value % group = 0 then 0 else 1)

/-- Rounding up is monotone. -/
theorem roundUp_mono {group m n : Nat} (le : m ≤ n) :
    (m / group + if m % group = 0 then 0 else 1) ≤ n / group + if n % group = 0 then 0 else 1 := by
  have groups : m / group ≤ n / group := Nat.div_le_div_right le
  by_cases same : m / group = n / group
  · have parts := Nat.div_add_mod m group
    have parts' := Nat.div_add_mod n group
    rw [same] at parts
    split <;> split <;> omega
  · split <;> split <;> omega

/-- Whoever pays more reads no less. -/
theorem reading_charge_mono {m : Meter limit} {a b : Cost} {group : Nat} (le : a.Le b) :
    ((m.charge a).reading group).value ≤ ((m.charge b).reading group).value := by
  have bytes : (m.charge a).bytes.value ≤ (m.charge b).bytes.value := Counter.add_mono (Nat.le_refl _) le.bytes
  have units : (m.charge a).units.value ≤ (m.charge b).units.value := Counter.add_mono (Nat.le_refl _) le.units
  exact Counter.add_mono units (roundUp_mono bytes)

end Meter

end AgenticStack.Library
