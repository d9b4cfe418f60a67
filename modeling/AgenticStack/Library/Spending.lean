import AgenticStack.Library.Permits

/-!
# Tasks that draw on one budget

Each task has a result with a cost, or has failed. When it ends, the cost is
taken from what remains of the budget, or the task fails if there is too little.
Whether all tasks end well does not depend on the order in which they end.
-/

namespace AgenticStack.Library
set_option autoImplicit false
open Finset

namespace Spending
open Permits

section
variable {ε α : Type}

/-- The bytes a charge spends. -/
def cost : Except ε (Nat × α) → Nat
  | .ok (bytes, _) => bytes
  | .error _ => 0

/-- What a task comes to, and what remains then. -/
def settle (exceeded : ε) (remaining : Nat) : Except ε (Nat × α) → Except ε α × Nat
  | .ok (bytes, a) => if bytes ≤ remaining then (.ok a, remaining - bytes) else (.error exceeded, remaining)
  | .error e => (.error e, remaining)

/-- A charge is settled where enough is left. -/
theorem settle_ok_iff {exceeded : ε} {remaining remaining' : Nat} {charge : Except ε (Nat × α)} {a : α} :
    settle exceeded remaining charge = (.ok a, remaining') ↔
      ∃ bytes, charge = .ok (bytes, a) ∧ bytes ≤ remaining ∧ remaining' = remaining - bytes := by
  cases charge with
  | error e => simp [settle]
  | ok made =>
    obtain ⟨bytes, b⟩ := made
    rw [settle]
    by_cases enough : bytes ≤ remaining
    · rw [if_pos enough]
      simp only [Prod.mk.injEq, Except.ok.injEq]
      constructor
      · rintro ⟨rfl, rfl⟩
        exact ⟨bytes, ⟨rfl, rfl⟩, enough, rfl⟩
      · rintro ⟨_, ⟨rfl, rfl⟩, _, rfl⟩
        exact ⟨rfl, rfl⟩
    · rw [if_neg enough]
      simp only [Prod.mk.injEq, Except.ok.injEq, reduceCtorEq, false_and, false_iff, not_exists, not_and]
      rintro _ ⟨rfl, _⟩ enough'
      exact absurd enough' enough

/-- A task that does not end well leaves the budget alone. -/
theorem settle_snd {exceeded : ε} {remaining : Nat} {charge : Except ε (Nat × α)} :
    (settle exceeded remaining charge).2 +
      (if (settle exceeded remaining charge).1.isOk then cost charge else 0) = remaining := by
  cases charge with
  | error e => rfl
  | ok made =>
    obtain ⟨bytes, b⟩ := made
    rw [settle]
    split
    · have good : (Except.ok b : Except ε α).isOk = true := rfl
      dsimp only
      rw [good, if_pos rfl, cost]
      omega
    · rfl

end

section
variable {ι ε α : Type} [Fintype ι]

/-- The tasks that have a result ended one after another. -/
structure Spent (exceeded : ε) (charge : ι → Except ε (Nat × α)) (start remaining : Nat)
    (results : ι → Option (Except ε α)) : Prop where
  total : remaining + ∑ i, (if (results i).any Except.isOk then cost (charge i) else 0) = start
  settled : ∀ i r, results i = some r → ∃ before, remaining ≤ before ∧ r = (settle exceeded before (charge i)).1

variable {exceeded : ε} {charge : ι → Except ε (Nat × α)} {start remaining : Nat} {results : ι → Option (Except ε α)} {i : ι}

/-- Nothing was spent. -/
theorem Spent.initial : Spent exceeded charge start start fun _ => none := by
  refine ⟨?_, fun _ _ done => nomatch done⟩
  simp

/-- One more task ends. -/
theorem Spent.step [DecidableEq ι] (h : Spent exceeded charge start remaining results) (fresh : results i = none) :
    Spent exceeded charge start (settle exceeded remaining (charge i)).2
      (Function.update results i (some (settle exceeded remaining (charge i)).1)) := by
  have after := @settle_snd _ _ exceeded remaining (charge i)
  refine ⟨?_, fun j r done => ?_⟩
  · have moved := sum_update (fun j (result : Option (Except ε α)) => if result.any Except.isOk then cost (charge j) else 0) results i
      (some (settle exceeded remaining (charge i)).1)
    have total := h.total
    rw [fresh, Option.any_none, if_neg Bool.false_ne_true, Option.any_some] at moved
    omega
  · by_cases same : j = i
    · subst same
      rw [Function.update_self, Option.some.injEq] at done
      exact ⟨remaining, by omega, done.symm⟩
    · rw [Function.update_of_ne same] at done
      obtain ⟨before, more, made⟩ := h.settled j r done
      exact ⟨before, by omega, made⟩

/-- What was paid was charged. -/
theorem Spent.value (h : Spent exceeded charge start remaining results) {a : α} (done : results i = some (.ok a)) :
    ∃ bytes, charge i = .ok (bytes, a) := by
  obtain ⟨before, _, made⟩ := h.settled i _ done
  obtain ⟨bytes, same, _⟩ := settle_ok_iff.1 (Prod.ext made.symm rfl)
  exact ⟨bytes, same⟩

/-- **Whether all tasks end well is known beforehand**: none has failed, and the budget is enough for all. -/
theorem Spent.all_ok_iff (h : Spent exceeded charge start remaining results) (done : ∀ i, (results i).isSome = true) :
    (∀ i, ∃ a, results i = some (.ok a)) ↔ (∀ i, ∃ made, charge i = .ok made) ∧ ∑ i, cost (charge i) ≤ start := by
  constructor
  · intro good
    refine ⟨fun i => ?_, ?_⟩
    · obtain ⟨a, same⟩ := good i
      obtain ⟨bytes, charged⟩ := h.value same
      exact ⟨_, charged⟩
    · have all : ∑ i, (if (results i).any Except.isOk then cost (charge i) else 0) = ∑ i, cost (charge i) := by
        apply sum_congr rfl
        intro i _
        obtain ⟨a, same⟩ := good i
        rw [same]
        rfl
      have total := h.total
      omega
  · rintro ⟨charged, enough⟩ i
    obtain ⟨r, finished⟩ := Option.isSome_iff_exists.1 (done i)
    obtain ⟨before, more, made⟩ := h.settled i r finished
    obtain ⟨⟨bytes, a⟩, charge_i⟩ := charged i
    rw [charge_i, settle] at made
    by_cases fits : bytes ≤ before
    · rw [if_pos fits] at made
      exact ⟨a, by rw [finished, made]⟩
    · -- what this task needed is not among what was spent
      rw [if_neg fits] at made
      dsimp only at made
      have spent : ∑ j, (if (results j).any Except.isOk then cost (charge j) else 0) + cost (charge i) ≤ ∑ j, cost (charge j) := by
        classical
        rw [← add_sum_erase _ (fun j => cost (charge j)) (mem_univ i), ← add_sum_erase _ _ (mem_univ i), finished, made]
        have rest : ∑ j ∈ univ.erase i, (if (results j).any Except.isOk then cost (charge j) else 0) ≤
            ∑ j ∈ univ.erase i, cost (charge j) := by
          apply sum_le_sum
          intro j _
          split <;> omega
        have mine : (if (some (Except.error exceeded : Except ε α)).any Except.isOk then cost (charge i) else 0) = 0 := rfl
        omega
      have total := h.total
      have needed : cost (charge i) = bytes := by rw [charge_i]; rfl
      omega

/-- What is left is the start without every cost. -/
theorem Spent.remaining_eq (h : Spent exceeded charge start remaining results) (good : ∀ i, ∃ a, results i = some (.ok a)) :
    remaining = start - ∑ i, cost (charge i) := by
  have all : ∑ i, (if (results i).any Except.isOk then cost (charge i) else 0) = ∑ i, cost (charge i) := by
    apply sum_congr rfl
    intro i _
    obtain ⟨a, same⟩ := good i
    rw [same]
    rfl
  have total := h.total
  omega

end

end Spending
end AgenticStack.Library
