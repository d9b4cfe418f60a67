import Mathlib.Tactic.Common

/-!
# Programs with a state that may fail

A failed program keeps the state it reached. `Triple P x Q E` says that `x`,
run from a state in `P`, ends well in a state and with a value in `Q`, or fails
with an error and in a state in `E`. The rules follow the programs: one for
each way to put programs together, and one for each loop over a list.
-/

namespace AgenticStack.Library
set_option autoImplicit false

section
variable {ε σ τ α β : Type}

/-- The result of a run is in `Q`, or its failure is in `E`. -/
def Meets (Q : α → σ → Prop) (E : ε → σ → Prop) : EStateM.Result ε σ α → Prop
  | .ok a s => Q a s
  | .error e s => E e s

/-- From every state with the first property the program ends in the second, or fails in the third. -/
def Triple (P : σ → Prop) (x : EStateM ε σ α) (Q : α → σ → Prop) (E : ε → σ → Prop) : Prop :=
  ∀ s, P s → Meets Q E (x s)

/-- A program on a part of the state. -/
def onPart (get : σ → τ) (set : σ → τ → σ) (x : EStateM ε τ α) : EStateM ε σ α := fun s =>
  match x (get s) with
  | .ok a t => .ok a (set s t)
  | .error e t => .error e (set s t)

/-- A run from `s` ends in `t`, well or not. -/
def Leaves (x : EStateM ε σ α) (s t : σ) : Prop := (∃ a, x s = .ok a t) ∨ ∃ e, x s = .error e t

variable {P P' : σ → Prop} {Q Q' : α → σ → Prop} {R : β → σ → Prop} {E E' : ε → σ → Prop}
  {x : EStateM ε σ α} {f : α → EStateM ε σ β} {a : α} {b : β} {e : ε} {s t : σ}

/-- A sequence succeeds where both parts do. -/
theorem bind_ok : (x >>= f) s = .ok b t ↔ ∃ a m, x s = .ok a m ∧ f a m = .ok b t := by
  show EStateM.bind x f s = .ok b t ↔ _
  unfold EStateM.bind
  cases x s <;> simp

/-- A sequence fails where one of its parts does. -/
theorem bind_error : (x >>= f) s = .error e t ↔ x s = .error e t ∨ ∃ a m, x s = .ok a m ∧ f a m = .error e t := by
  show EStateM.bind x f s = .error e t ↔ _
  unfold EStateM.bind
  cases x s <;> simp

/-- A sequence ends where one of its parts does. -/
theorem leaves_bind : Leaves (x >>= f) s t ↔ (∃ e, x s = .error e t) ∨ ∃ a m, x s = .ok a m ∧ Leaves (f a) m t := by
  unfold Leaves
  simp only [bind_ok, bind_error]
  constructor
  · rintro (⟨b, a, m, first, rest⟩ | ⟨e, failed | ⟨a, m, first, rest⟩⟩)
    · exact .inr ⟨a, m, first, .inl ⟨b, rest⟩⟩
    · exact .inl ⟨e, failed⟩
    · exact .inr ⟨a, m, first, .inr ⟨e, rest⟩⟩
  · rintro (⟨e, failed⟩ | ⟨a, m, first, ⟨b, rest⟩ | ⟨e, rest⟩⟩)
    · exact .inr ⟨e, .inl failed⟩
    · exact .inl ⟨b, a, m, first, rest⟩
    · exact .inr ⟨e, .inr ⟨a, m, first, rest⟩⟩

/-- A value leaves the state as it is. -/
theorem pure_ok {c : α} : (pure a : EStateM ε σ α) s = .ok c t ↔ a = c ∧ s = t := by
  show EStateM.Result.ok a s = .ok c t ↔ _
  simp

@[simp] theorem throw_run : (throw e : EStateM ε σ α) s = .error e s := rfl

@[simp] theorem pure_run : (pure a : EStateM ε σ α) s = .ok a s := rfl

@[simp] theorem get_run : (get : EStateM ε σ σ) s = .ok s s := rfl

@[simp] theorem set_run : (set t : EStateM ε σ Unit) s = .ok () t := rfl

@[simp] theorem modify_run (g : σ → σ) : (modify g : EStateM ε σ Unit) s = .ok () (g s) := rfl

/-- A result leaves the state as it is. -/
theorem ofExcept_ok {r : Except ε α} : (ofExcept r : EStateM ε σ α) s = .ok a t ↔ r = .ok a ∧ s = t := by
  cases r <;> simp [MonadExcept.ofExcept]

/-- A program on a part of the state runs on that part. -/
theorem onPart_ok {get : σ → τ} {set : σ → τ → σ} {y : EStateM ε τ α} :
    onPart get set y s = .ok a t ↔ ∃ p, y (get s) = .ok a p ∧ set s p = t := by
  unfold onPart
  cases y (get s) <;> simp

/-- A loop runs its first member and then the rest. -/
theorem forM_cons_ok {body : α → EStateM ε σ PUnit} {items : List α} {u : PUnit} :
    (forM (a :: items) body : EStateM ε σ PUnit) s = .ok u t ↔
      ∃ m, body a s = .ok ⟨⟩ m ∧ (forM items body : EStateM ε σ PUnit) m = .ok u t := by
  rw [List.forM_cons, bind_ok]
  constructor
  · rintro ⟨_, m, first, rest⟩
    exact ⟨m, first, rest⟩
  · rintro ⟨m, first, rest⟩
    exact ⟨_, m, first, rest⟩

theorem forM_nil_ok {body : α → EStateM ε σ PUnit} {u : PUnit} :
    (forM ([] : List α) body : EStateM ε σ PUnit) s = .ok u t ↔ s = t := by
  rw [List.forM_nil, pure_ok]
  simp

/-- A value ends in what holds of the state. -/
theorem Triple.pure (h : ∀ s, P s → Q a s) : Triple P (Pure.pure a : EStateM ε σ α) Q E := h

/-- An error ends in what holds of the state. -/
theorem Triple.throw (h : ∀ s, P s → E e s) : Triple P (MonadExcept.throw e : EStateM ε σ α) Q E := h

/-- A change ends in what holds of the changed state. -/
theorem Triple.modify {g : σ → σ} {R : Unit → σ → Prop} (h : ∀ s, P s → R () (g s)) :
    Triple P (modify g : EStateM ε σ Unit) R E := h

/-- What the first part ensures the second may rely on. -/
theorem Triple.bind (first : Triple P x Q E) (rest : ∀ a, Triple (Q a) (f a) R E) : Triple P (x >>= f) R E := by
  intro s start
  have met := first s start
  show Meets R E (EStateM.bind x f s)
  unfold EStateM.bind
  cases result : x s with
  | ok a t =>
    rw [result] at met
    exact rest a t met
  | error e t =>
    rw [result] at met
    exact met

/-- The state read by `get` is the one the rest starts in. -/
theorem Triple.get {k : σ → EStateM ε σ β} (h : ∀ s, P s → Triple (· = s) (k s) R E) :
    Triple P (MonadState.get >>= k) R E := by
  intro s start
  exact h s start s rfl

/-- A read leaves what holds as it is. -/
theorem Triple.reading {k : σ → EStateM ε σ β} (h : ∀ s, P s → Triple P (k s) R E) : Triple P (MonadState.get >>= k) R E :=
  Triple.get fun s start t same => h s start t (same ▸ start)

/-- A result ends in what holds of the state. -/
theorem Triple.ofExcept {r : Except ε α} (ok : ∀ a, r = .ok a → ∀ s, P s → Q a s)
    (fail : ∀ e, r = .error e → ∀ s, P s → E e s) : Triple P (MonadExcept.ofExcept r) Q E := by
  cases r with
  | ok a => exact Triple.pure (ok a rfl)
  | error e => exact Triple.throw (fail e rfl)

/-- A loop keeps what each of its rounds keeps. -/
theorem Triple.forM {I : σ → Prop} {body : α → EStateM ε σ PUnit} {items : List α}
    (h : ∀ a ∈ items, Triple I (body a) (fun _ => I) E) : Triple I (forM items body) (fun _ => I) E := by
  induction items with
  | nil => exact Triple.pure fun _ start => start
  | cons a items ih =>
    rw [List.forM_cons]
    exact (h a (List.mem_cons_self ..)).bind fun _ => ih fun b mem => h b (List.mem_cons_of_mem _ mem)

/-- A program on a part keeps what holds of the rest. -/
theorem Triple.onPart {get : σ → τ} {set : σ → τ → σ} {y : EStateM ε τ α} {P₁ : τ → Prop} {Q₁ : α → τ → Prop}
    {E₁ : ε → τ → Prop} (h : Triple P₁ y Q₁ E₁) (pre : ∀ s, P s → P₁ (get s))
    (post : ∀ s, P s → ∀ a t, Q₁ a t → Q a (set s t)) (fail : ∀ s, P s → ∀ e t, E₁ e t → E e (set s t)) :
    Triple P (onPart get set y) Q E := by
  intro s start
  have met := h (get s) (pre s start)
  unfold Library.onPart
  cases result : y (get s) with
  | ok a t =>
    rw [result] at met
    exact post s start a t met
  | error e t =>
    rw [result] at met
    exact fail s start e t met

end
end AgenticStack.Library
