import Mathlib.Data.List.Basic

/-!
# Announcing once

Something is announced unless a record covers it, and what is announced is
recorded. Where no record gets lost, nothing is announced twice.
-/

namespace AgenticStack.Library
set_option autoImplicit false

section
variable {σ α κ : Type} (records : σ → List κ) (record : α → κ) (covers : κ → α → Prop)

/-- A step from `s` to `s'` loses no record, records what it announces, and announces nothing that a record covers. -/
structure Announces (s : σ) (announced : List α) (s' : σ) : Prop where
  kept : ∀ r ∈ records s, r ∈ records s'
  recorded : ∀ a ∈ announced, record a ∈ records s'
  uncovered : ∀ a ∈ announced, ∀ r ∈ records s, ¬ covers r a

/-- Steps one after another, with what each of them announces. -/
inductive Announcing : σ → List (List α) → σ → Prop where
  | nil (s : σ) : Announcing s [] s
  | cons {s m s' : σ} {announced : List α} {later : List (List α)} (first : Announces records record covers s announced m)
      (rest : Announcing m later s') : Announcing s (announced :: later) s'

variable {records record covers} {s s' : σ} {steps : List (List α)}

/-- What is recorded at the start is not announced on the way. -/
theorem Announcing.uncovered (run : Announcing records record covers s steps s') :
    ∀ announced ∈ steps, ∀ a ∈ announced, ∀ r ∈ records s, ¬ covers r a := by
  induction run with
  | nil s => simp
  | cons first rest ih =>
    rw [List.forall_mem_cons]
    refine ⟨first.uncovered, ?_⟩
    intro announced mem a a_mem r r_mem
    exact ih announced mem a a_mem r (first.kept r r_mem)

/-- **Nothing is announced twice.** -/
theorem Announcing.once (run : Announcing records record covers s steps s') :
    steps.Pairwise fun earlier later => ∀ a ∈ earlier, ∀ b ∈ later, ¬ covers (record a) b := by
  induction run with
  | nil s => exact List.Pairwise.nil
  | cons first rest ih =>
    refine List.Pairwise.cons ?_ ih
    intro later mem a a_mem b b_mem
    exact rest.uncovered later mem b b_mem (record a) (first.recorded a a_mem)

end

end AgenticStack.Library
