import AgenticStack.Library.Outcome

/-!
# A scan that allows one of a kind

A list is scanned from the front. Every element is guarded and read; of the special
ones there may be one, and a second ends the scan before it is read.
-/

namespace AgenticStack.Library
set_option autoImplicit false

section
variable {ε α β : Type} (guard : α → Except ε Unit) (special : α → Bool) (again : ε) (read : α → Except ε (Option β))

/-- `seen` says whether a special element came before. -/
def scanOnce : Bool → List α → Except ε (List β)
  | _, [] => .ok []
  | seen, a :: as => do
    guard a
    if special a && seen then throw again
    let out ← read a
    let rest ← scanOnce (seen || special a) as
    return out.toList ++ rest

variable {guard special again read} {guard' : α → Except ε Unit} {special' : α → Bool} {read' : α → Except ε (Option β)}
  {a : α} {as : List α} {out : List β} {seen : Bool}

/-- The scan of a list is that of its first item and the rest. -/
theorem scanOnce_cons_eq_ok : scanOnce guard special again read seen (a :: as) = .ok out ↔
    guard a = .ok () ∧ (special a && seen) = false ∧ ∃ made rest, read a = .ok made ∧
      scanOnce guard special again read (seen || special a) as = .ok rest ∧ out = made.toList ++ rest := by
  rw [scanOnce]
  constructor
  · intro h
    obtain ⟨_, guarded, h⟩ := bind_eq_ok.1 h
    split at h
    · obtain ⟨_, thrown, -⟩ := bind_eq_ok.1 h
      exact absurd thrown throw_ne_ok
    · rename_i first
      obtain ⟨made, now, h⟩ := bind_eq_ok.1 h
      obtain ⟨rest, later, h⟩ := bind_eq_ok.1 h
      exact ⟨guarded, eq_false_of_ne_true first, made, rest, now, later, (pure_eq_ok.1 h).symm⟩
  · rintro ⟨guarded, first, made, rest, now, later, rfl⟩
    rw [guarded, first, now, later]
    rfl

/-- **What a scan accepts**: elements that pass their guard and can be read, with one special one at most. -/
theorem scanOnce_eq_ok : scanOnce guard special again read seen as = .ok out ↔
    (∀ a ∈ as, guard a = .ok ()) ∧ seen.toNat + as.countP special ≤ 1 ∧
      ∃ made, as.mapM read = .ok made ∧ out = made.filterMap id := by
  induction as generalizing seen out with
  | nil =>
    constructor
    · intro h
      obtain rfl := Except.ok.inj h
      exact ⟨by simp, Bool.toNat_le seen, [], rfl, rfl⟩
    · rintro ⟨-, -, made, ran, rfl⟩
      obtain rfl := pure_eq_ok.1 ran
      rfl
  | cons a as ih =>
    have few : (special a && seen) = false ∧ (seen || special a).toNat + as.countP special ≤ 1 ↔
        seen.toNat + (a :: as).countP special ≤ 1 := by
      cases kind : special a with
      | false =>
        rw [List.countP_cons_of_neg (by rw [kind]; exact Bool.false_ne_true), Bool.or_false]
        simp
      | true =>
        rw [List.countP_cons_of_pos kind]
        generalize as.countP special = n
        cases seen with
        | false =>
          simp only [Bool.and_false, Bool.false_or, Bool.toNat_true, Bool.toNat_false, true_and]
          omega
        | true =>
          simp only [Bool.and_self, Bool.toNat_true, reduceCtorEq, false_and, false_iff]
          omega
    rw [scanOnce_cons_eq_ok, ← few, List.forall_mem_cons]
    constructor
    · rintro ⟨guarded, first, b, rest, now, later, rfl⟩
      obtain ⟨guards, room, made, ran, rfl⟩ := ih.1 later
      refine ⟨⟨guarded, guards⟩, ⟨first, room⟩, b :: made, mapM_cons_eq_ok.2 ⟨b, made, now, ran, rfl⟩, ?_⟩
      cases b <;> rfl
    · rintro ⟨⟨guarded, guards⟩, ⟨first, room⟩, made, ran, rfl⟩
      obtain ⟨b, made, now, later, rfl⟩ := mapM_cons_eq_ok.1 ran
      refine ⟨guarded, first, b, made.filterMap id, now, ih.2 ⟨guards, room, made, later, rfl⟩, ?_⟩
      cases b <;> rfl

/-- **Scans that treat every element alike** end alike, in their error too. -/
theorem scanOnce_congr (guards : ∀ a ∈ as, guard a = guard' a) (kinds : ∀ a ∈ as, special a = special' a)
    (reads : ∀ a ∈ as, read a = read' a) :
    scanOnce guard special again read seen as = scanOnce guard' special' again read' seen as := by
  induction as generalizing seen with
  | nil => rfl
  | cons a as ih =>
    rw [List.forall_mem_cons] at guards kinds reads
    rw [scanOnce, scanOnce, guards.1, kinds.1, reads.1]
    simp only [ih guards.2 kinds.2 reads.2]

/-- Renaming the error changes no result. -/
theorem mapError_eq_ok {ε' : Type} {f : ε → ε'} {x : Except ε α} {a : α} : x.mapError f = .ok a ↔ x = .ok a := by
  cases x <;> simp [Except.mapError]

/-- The errors of a scan are those of its steps. -/
theorem scanOnce_mapError {ε' : Type} (f : ε → ε') : (scanOnce guard special again read seen as).mapError f =
    scanOnce (fun a => (guard a).mapError f) special (f again) (fun a => (read a).mapError f) seen as := by
  induction as generalizing seen with
  | nil => rfl
  | cons a as ih =>
    rw [scanOnce, scanOnce, ← ih]
    cases guard a with
    | error e => rfl
    | ok _ =>
      cases special a && seen with
      | true => rfl
      | false =>
        cases read a with
        | error e => rfl
        | ok made => cases scanOnce guard special again read (seen || special a) as <;> rfl

end
end AgenticStack.Library
