import Mathlib.Data.List.Basic

/-!
# Transducers

A transducer reads inputs one by one; each step gives a new state and some
outputs, or fails. A run is the steps in order, with all their outputs.
-/

namespace AgenticStack.Library
set_option autoImplicit false

section
variable {σ ι ω ε : Type} (step : σ → ι → Except ε (σ × List ω))

/-- Read all inputs, up to the first failure. -/
def transduce : σ → List ι → Except ε (σ × List ω)
  | s, [] => .ok (s, [])
  | s, i :: is =>
    match step s i with
    | .error e => .error e
    | .ok (s, out) => (transduce s is).map fun (s, more) => (s, out ++ more)

variable {step} {s s' : σ} {i : ι} {is js : List ι} {out : List ω} {e : ε}

/-- Nothing comes of nothing. -/
@[simp] theorem transduce_nil : transduce step s [] = .ok (s, []) := rfl

/-- What comes of a list is what comes of its first member and the rest. -/
theorem transduce_cons_ok (h : step s i = .ok (s', out)) :
    transduce step s (i :: is) = (transduce step s' is).map fun (s, more) => (s, out ++ more) := by
  rw [transduce, h]

/-- A member that fails fails the list. -/
theorem transduce_cons_error (h : step s i = .error e) : transduce step s (i :: is) = .error e := by
  rw [transduce, h]

/-- A list runs where its first member and the rest do. -/
theorem transduce_cons_eq_ok : transduce step s (i :: is) = .ok (s', out) ↔
    ∃ mid first rest, step s i = .ok (mid, first) ∧ transduce step mid is = .ok (s', rest) ∧ out = first ++ rest := by
  rw [transduce]
  cases first : step s i with
  | error e => simp
  | ok next =>
    obtain ⟨mid, o⟩ := next
    simp only [Except.ok.injEq, Prod.mk.injEq]
    cases rest : transduce step mid is with
    | error e =>
      simp only [Except.map, reduceCtorEq, false_iff, not_exists, not_and]
      rintro mid' o' rest' ⟨rfl, rfl⟩ ran
      rw [rest] at ran
      simp at ran
    | ok last =>
      obtain ⟨s'', more⟩ := last
      simp only [Except.map, Except.ok.injEq, Prod.mk.injEq]
      constructor
      · rintro ⟨rfl, rfl⟩
        exact ⟨mid, o, more, ⟨rfl, rfl⟩, rest, rfl⟩
      · rintro ⟨mid', o', rest', ⟨rfl, rfl⟩, ran, rfl⟩
        rw [rest] at ran
        simp only [Except.ok.injEq, Prod.mk.injEq] at ran
        exact ⟨ran.1, by rw [ran.2]⟩

/-- Two lists run one after the other. -/
theorem transduce_append_ok (h : transduce step s is = .ok (s', out)) :
    transduce step s (is ++ js) = (transduce step s' js).map fun (s, more) => (s, out ++ more) := by
  induction is generalizing s out with
  | nil =>
    simp only [transduce_nil, Except.ok.injEq, Prod.mk.injEq] at h
    obtain ⟨rfl, rfl⟩ := h
    cases ran : transduce step s js <;> simp [ran, Except.map]
  | cons i is ih =>
    obtain ⟨mid, first, rest, now, later, rfl⟩ := transduce_cons_eq_ok.1 h
    rw [List.cons_append, transduce_cons_ok now, ih later]
    cases transduce step s' js with
    | error e => rfl
    | ok last => simp [Except.map, List.append_assoc]

/-- A list that fails fails whatever follows. -/
theorem transduce_append_error (h : transduce step s is = .error e) : transduce step s (is ++ js) = .error e := by
  induction is generalizing s with
  | nil => simp at h
  | cons i is ih =>
    rw [List.cons_append]
    cases now : step s i with
    | error e' => rw [transduce_cons_error now] at h ⊢; exact h
    | ok next =>
      obtain ⟨mid, first⟩ := next
      rw [transduce_cons_ok now] at h ⊢
      cases later : transduce step mid is with
      | ok last => rw [later] at h; simp [Except.map] at h
      | error e' =>
        rw [later] at h
        simp only [Except.map, Except.error.injEq] at h
        rw [ih (h ▸ later)]
        rfl

/-- **What every step emits, every run emits**, on inputs that are all `A`. -/
theorem transduce_emits {P : σ → Prop} {A : ι → Prop} {Q : ω → Prop}
    (emits : ∀ s i s' out, A i → P s → step s i = .ok (s', out) → P s' ∧ ∀ o ∈ out, Q o)
    (inputs : ∀ i ∈ is, A i) (ran : transduce step s is = .ok (s', out)) (holds : P s) : ∀ o ∈ out, Q o := by
  induction is generalizing s out with
  | nil =>
    simp only [transduce_nil, Except.ok.injEq, Prod.mk.injEq] at ran
    obtain ⟨-, rfl⟩ := ran
    simp
  | cons i is ih =>
    obtain ⟨mid, first, rest, now, later, rfl⟩ := transduce_cons_eq_ok.1 ran
    obtain ⟨keeps, these⟩ := emits s i mid first (inputs i List.mem_cons_self) holds now
    have those := ih (fun j mem => inputs j (List.mem_cons_of_mem i mem)) later keeps
    intro o mem
    rcases List.mem_append.1 mem with mem | mem
    · exact these o mem
    · exact those o mem

end

end AgenticStack.Library
