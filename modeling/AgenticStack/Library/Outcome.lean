import Mathlib.Tactic.Common

/-!
# Computations that may fail

How a result is put together: what the steps of a computation gave when the
whole of it succeeded.
-/

namespace AgenticStack.Library
set_option autoImplicit false

section
variable {ε α β : Type} {x : Except ε α} {f : α → Except ε β} {a : α} {b : β} {e : ε}

/-- What follows a result succeeds where the result does. -/
theorem bind_eq_ok : (x >>= f) = .ok b ↔ ∃ a, x = .ok a ∧ f a = .ok b := by
  cases x <;> simp [bind, Except.bind]

theorem map_eq_ok {g : α → β} : x.map g = .ok b ↔ ∃ a, x = .ok a ∧ g a = b := by
  cases x <;> simp [Except.map]

theorem pure_eq_ok {b : α} : (pure a : Except ε α) = .ok b ↔ a = b := by simp [pure, Except.pure]

theorem throw_ne_ok : (throw e : Except ε α) ≠ .ok a := by
  simp [throw, throwThe, MonadExceptOf.throw]

/-- A check of a list succeeds where that of each member does. -/
theorem forM_eq_ok {check : α → Except ε PUnit} {l : List α} : l.forM check = .ok () ↔ ∀ a ∈ l, check a = .ok () := by
  induction l with
  | nil => simp [List.forM, pure, Except.pure]
  | cons a l ih =>
    rw [List.forM_eq_forM, List.forM_cons, bind_eq_ok, ← List.forM_eq_forM, List.forall_mem_cons, ← ih]
    constructor
    · rintro ⟨_, first, rest⟩
      exact ⟨first, rest⟩
    · rintro ⟨first, rest⟩
      exact ⟨(), first, rest⟩

/-- Every result of a pass is the image of the element at its place. -/
theorem zip_of_mapM {l : List α} {l' : List β} (ran : l.mapM f = .ok l') : ∀ p ∈ l.zip l', f p.1 = .ok p.2 := by
  induction l generalizing l' with
  | nil => simp
  | cons a l ih =>
    rw [List.mapM_cons] at ran
    obtain ⟨b, now, ran⟩ := bind_eq_ok.1 ran
    obtain ⟨rest, later, ran⟩ := bind_eq_ok.1 ran
    obtain rfl := pure_eq_ok.1 ran
    rw [List.zip_cons_cons, List.forall_mem_cons]
    exact ⟨now, ih later⟩

/-- A pass makes one result of every element. -/
theorem forall₂_of_mapM {l : List α} {l' : List β} (ran : l.mapM f = .ok l') :
    List.Forall₂ (fun a b => f a = .ok b) l l' := by
  induction l generalizing l' with
  | nil =>
    obtain rfl := pure_eq_ok.1 ran
    exact .nil
  | cons a l ih =>
    rw [List.mapM_cons] at ran
    obtain ⟨b, now, ran⟩ := bind_eq_ok.1 ran
    obtain ⟨rest, later, ran⟩ := bind_eq_ok.1 ran
    obtain rfl := pure_eq_ok.1 ran
    exact .cons now (ih later)

/-- A member of the results comes of a member of the list. -/
theorem mem_of_mapM {l : List α} {l' : List β} (ran : l.mapM f = .ok l') : ∀ b ∈ l', ∃ a ∈ l, f a = .ok b := by
  induction l generalizing l' with
  | nil =>
    obtain rfl := pure_eq_ok.1 ran
    simp
  | cons a l ih =>
    rw [List.mapM_cons] at ran
    obtain ⟨b, now, ran⟩ := bind_eq_ok.1 ran
    obtain ⟨rest, later, ran⟩ := bind_eq_ok.1 ran
    obtain rfl := pure_eq_ok.1 ran
    rw [List.forall_mem_cons]
    refine ⟨⟨a, List.mem_cons_self, now⟩, ?_⟩
    intro b mem
    obtain ⟨a', mem', made⟩ := ih later b mem
    exact ⟨a', List.mem_cons_of_mem _ mem', made⟩

/-- A list is mapped by its first member and then the rest. -/
theorem mapM_cons_eq_ok {a : α} {l : List α} {l' : List β} : (a :: l).mapM f = .ok l' ↔
    ∃ b rest, f a = .ok b ∧ l.mapM f = .ok rest ∧ l' = b :: rest := by
  rw [List.mapM_cons]
  constructor
  · intro h
    obtain ⟨b, now, h⟩ := bind_eq_ok.1 h
    obtain ⟨rest, later, h⟩ := bind_eq_ok.1 h
    exact ⟨b, rest, now, later, (pure_eq_ok.1 h).symm⟩
  · rintro ⟨b, rest, now, later, rfl⟩
    rw [now, later]
    rfl

/-- Two lists are mapped one after the other. -/
theorem mapM_append_eq_ok {l more : List α} {l' : List β} : (l ++ more).mapM f = .ok l' ↔
    ∃ first rest, l.mapM f = .ok first ∧ more.mapM f = .ok rest ∧ l' = first ++ rest := by
  rw [List.mapM_append]
  constructor
  · intro h
    obtain ⟨first, now, h⟩ := bind_eq_ok.1 h
    obtain ⟨rest, later, h⟩ := bind_eq_ok.1 h
    exact ⟨first, rest, now, later, (pure_eq_ok.1 h).symm⟩
  · rintro ⟨first, rest, now, later, rfl⟩
    rw [now, later]
    rfl

/-- What is ok has a result. -/
theorem exists_of_isOk (ok : x.isOk = true) : ∃ a, x = .ok a := by
  cases x with
  | ok a => exact ⟨a, rfl⟩
  | error e => cases ok

end

/-- A pass that adds to a collection has in the end what every step adds. -/
theorem foldlM_collects {ε α σ κ : Type} [Membership κ σ] {step : σ → α → Except ε σ} {adds : α → κ → Prop} {l : List α}
    (steps : ∀ a ∈ l, ∀ c, ∃ c', step c a = .ok c' ∧ ∀ k, k ∈ c' ↔ k ∈ c ∨ adds a k) (c : σ) :
    ∃ c', l.foldlM step c = .ok c' ∧ ∀ k, k ∈ c' ↔ k ∈ c ∨ ∃ a ∈ l, adds a k := by
  induction l generalizing c with
  | nil => exact ⟨c, rfl, fun k => by simp⟩
  | cons a l ih =>
    obtain ⟨c₁, first, added⟩ := steps a List.mem_cons_self c
    obtain ⟨c', rest, collected⟩ := ih (fun b mem => steps b (List.mem_cons_of_mem _ mem)) c₁
    refine ⟨c', ?_, fun k => ?_⟩
    · rw [List.foldlM_cons, first]
      exact rest
    · rw [collected, added, or_assoc]
      simp only [List.mem_cons, exists_eq_or_imp]

end AgenticStack.Library
