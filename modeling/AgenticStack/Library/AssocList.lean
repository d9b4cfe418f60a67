import Mathlib.Data.List.Nodup
import Mathlib.Data.List.Perm.Subperm

/-!
# Maps as lists of pairs

A map keeps its entries in the order in which their keys came. A key that is
inserted again keeps its place.
-/

namespace AgenticStack.Library
set_option autoImplicit false

/-- The value of a key is replaced, or added behind the others. -/
def insertEntry {κ α : Type} [DecidableEq κ] : List (κ × α) → κ → α → List (κ × α)
  | [], k, v => [(k, v)]
  | (k', v') :: entries, k, v => if k' = k then (k, v) :: entries else (k', v') :: insertEntry entries k v

section
variable {κ α : Type} [BEq κ] [LawfulBEq κ] {entries : List (κ × α)} {k k' : κ} {v v' : α}

theorem lookup_cons_self : ((k, v) :: entries).lookup k = some v := List.lookup_cons_self

theorem lookup_cons_ne (other : k' ≠ k) : ((k', v') :: entries).lookup k = entries.lookup k := by
  have apart : (k == k') = false := by simpa using fun same => other same.symm
  rw [List.lookup_cons, apart]

variable [DecidableEq κ]

/-- The value that was inserted is found. -/
theorem lookup_insertEntry_self : (insertEntry entries k v).lookup k = some v := by
  induction entries with
  | nil => exact lookup_cons_self
  | cons entry entries ih =>
    obtain ⟨k', v'⟩ := entry
    rw [insertEntry]
    by_cases same : k' = k
    · rw [if_pos same]
      exact lookup_cons_self
    · rw [if_neg same, lookup_cons_ne same, ih]

/-- The other values are found as before. -/
theorem lookup_insertEntry_ne (other : k' ≠ k) : (insertEntry entries k v).lookup k' = entries.lookup k' := by
  induction entries with
  | nil => exact lookup_cons_ne fun same => other same.symm
  | cons entry entries ih =>
    obtain ⟨k₁, v₁⟩ := entry
    rw [insertEntry]
    by_cases same : k₁ = k
    · subst same
      rw [if_pos rfl, lookup_cons_ne (fun same => other same.symm), lookup_cons_ne (fun same => other same.symm)]
    · rw [if_neg same]
      by_cases here : k₁ = k'
      · subst here
        rw [lookup_cons_self, lookup_cons_self]
      · rw [lookup_cons_ne here, lookup_cons_ne here, ih]

/-- Inserting what is there changes nothing. -/
theorem insertEntry_of_lookup (h : entries.lookup k = some v) : insertEntry entries k v = entries := by
  induction entries with
  | nil => simp at h
  | cons entry entries ih =>
    obtain ⟨k', v'⟩ := entry
    rw [insertEntry]
    by_cases same : k' = k
    · subst same
      rw [lookup_cons_self, Option.some.injEq] at h
      rw [if_pos rfl, h]
    · rw [if_neg same]
      rw [lookup_cons_ne same] at h
      rw [ih h]

end

section
variable {κ α : Type} [BEq κ] [LawfulBEq κ] {entries : List (κ × α)} {k : κ} {v : α}

/-- A key that is not found is no key. -/
theorem lookup_eq_none_iff_key : entries.lookup k = none ↔ k ∉ entries.map Prod.fst := by
  rw [List.lookup_eq_none_iff]
  simp only [bne_iff_ne, List.mem_map, not_exists, not_and]
  exact ⟨fun apart entry mem same => apart entry mem same.symm, fun apart entry mem same => apart entry mem same.symm⟩

end

section
variable {κ α : Type} [DecidableEq κ] {entries : List (κ × α)} {k : κ} {v : α}

/-- A new key comes last. -/
theorem insertEntry_of_absent (absent : k ∉ entries.map Prod.fst) : insertEntry entries k v = entries ++ [(k, v)] := by
  induction entries with
  | nil => rfl
  | cons entry entries ih =>
    obtain ⟨k', v'⟩ := entry
    rw [List.map_cons, List.mem_cons, not_or] at absent
    rw [insertEntry, if_neg fun same => absent.1 same.symm, ih absent.2, List.cons_append]

/-- The keys gain the one that was inserted. -/
theorem mem_keys_insertEntry {other : κ} :
    other ∈ (insertEntry entries k v).map Prod.fst ↔ other = k ∨ other ∈ entries.map Prod.fst := by
  induction entries with
  | nil => simp [insertEntry]
  | cons entry entries ih =>
    obtain ⟨k', v'⟩ := entry
    rw [insertEntry]
    by_cases same : k' = k
    · subst same
      simp
    · rw [if_neg same, List.map_cons, List.mem_cons, ih, List.map_cons, List.mem_cons]
      grind

/-- An entry is the one inserted or one that was there. -/
theorem mem_insertEntry {entry : κ × α} (mem : entry ∈ insertEntry entries k v) : entry = (k, v) ∨ entry ∈ entries := by
  induction entries with
  | nil => exact .inl (List.mem_singleton.1 mem)
  | cons first entries ih =>
    obtain ⟨k', v'⟩ := first
    rw [insertEntry] at mem
    split at mem
    · rcases List.mem_cons.1 mem with here | there
      · exact .inl here
      · exact .inr (List.mem_cons_of_mem _ there)
    · rcases List.mem_cons.1 mem with here | there
      · exact .inr (here ▸ List.mem_cons_self)
      · exact (ih there).imp_right (List.mem_cons_of_mem _)

/-- Inserting keeps the keys apart. -/
theorem nodup_insertEntry (once : (entries.map Prod.fst).Nodup) : ((insertEntry entries k v).map Prod.fst).Nodup := by
  induction entries with
  | nil => simp [insertEntry]
  | cons entry entries ih =>
    obtain ⟨k', v'⟩ := entry
    rw [List.map_cons, List.nodup_cons] at once
    rw [insertEntry]
    by_cases same : k' = k
    · subst same
      rw [if_pos rfl, List.map_cons, List.nodup_cons]
      exact once
    · rw [if_neg same, List.map_cons, List.nodup_cons, mem_keys_insertEntry]
      refine ⟨fun here => ?_, ih once.2⟩
      rcases here with here | here
      · exact same here
      · exact once.1 here

end

section
variable {κ α : Type} [BEq κ] [LawfulBEq κ] {entries : List (κ × α)} {k : κ} {v : α}

/-- Where no key is repeated, an entry is looked up by its key. -/
theorem mem_iff_lookup (once : (entries.map Prod.fst).Nodup) : (k, v) ∈ entries ↔ entries.lookup k = some v := by
  induction entries with
  | nil => simp
  | cons entry entries ih =>
    obtain ⟨k', v'⟩ := entry
    rw [List.map_cons, List.nodup_cons] at once
    rw [List.mem_cons]
    by_cases same : k' = k
    · subst same
      rw [lookup_cons_self]
      constructor
      · rintro (here | here)
        · rw [Prod.mk.injEq] at here
          rw [here.2]
        · exact absurd (List.mem_map_of_mem here) once.1
      · intro here
        rw [Option.some.injEq] at here
        exact .inl (by rw [here])
    · rw [lookup_cons_ne same, ← ih once.2]
      constructor
      · rintro (here | here)
        · rw [Prod.mk.injEq] at here
          exact absurd here.1.symm same
        · exact here
      · exact .inr

/-- Every entry of a key replaced. -/
theorem lookup_replace_self (here : entries.any (fun entry => entry.1 == k) = true) :
    (entries.map fun entry => if entry.1 == k then (k, v) else entry).lookup k = some v := by
  induction entries with
  | nil => simp at here
  | cons entry entries ih =>
    obtain ⟨k', v'⟩ := entry
    rw [List.map_cons]
    by_cases same : k' = k
    · subst same
      simp only [beq_self_eq_true, if_true]
      exact lookup_cons_self
    · have apart : (k' == k) = false := by simpa using same
      rw [List.any_cons] at here
      simp only [apart, Bool.false_or, Bool.false_eq_true, if_false] at here ⊢
      rw [lookup_cons_ne same, ih here]

/-- Replacing the value of one key leaves the others. -/
theorem lookup_replace_ne {other : κ} (distinct : other ≠ k) :
    (entries.map fun entry => if entry.1 == k then (k, v) else entry).lookup other = entries.lookup other := by
  induction entries with
  | nil => rfl
  | cons entry entries ih =>
    obtain ⟨k', v'⟩ := entry
    rw [List.map_cons]
    by_cases same : k' = k
    · subst same
      simp only [beq_self_eq_true, if_true]
      rw [lookup_cons_ne fun here => distinct here.symm, lookup_cons_ne fun here => distinct here.symm, ih]
    · have apart : (k' == k) = false := by simpa using same
      simp only [apart, Bool.false_eq_true, if_false]
      by_cases here : k' = other
      · subst here
        rw [lookup_cons_self, lookup_cons_self]
      · rw [lookup_cons_ne here, lookup_cons_ne here, ih]

/-- A filter that keeps the key keeps what is under it. -/
theorem lookup_filter_keys {keep : κ → Bool} (kept : keep k = true) :
    (entries.filter fun entry => keep entry.1).lookup k = entries.lookup k := by
  induction entries with
  | nil => rfl
  | cons entry entries ih =>
    obtain ⟨k', v'⟩ := entry
    by_cases same : k' = k
    · subst same
      have here : ((k', v') :: entries).filter (fun entry => keep entry.1) = (k', v') :: entries.filter fun entry => keep entry.1 :=
        List.filter_cons_of_pos kept
      rw [here, lookup_cons_self, lookup_cons_self]
    · rw [lookup_cons_ne same, ← ih, List.filter_cons]
      split
      · exact lookup_cons_ne same
      · rfl

end

section
variable {κ α : Type} [BEq κ] [LawfulBEq κ] {entries : List (κ × α)} {k : κ} {v : α}

/-- Taking out a key that is not there changes nothing. -/
theorem filter_of_lookup_none (absent : entries.lookup k = none) : (entries.filter fun entry => entry.1 != k) = entries := by
  rw [List.filter_eq_self]
  rintro ⟨k', v'⟩ member
  rw [List.lookup_eq_none_iff] at absent
  have apart : (k != k') = true := absent _ member
  simpa using fun same : k' = k => by simp [same] at apart

/-- A key that was taken out is not found. -/
theorem lookup_filter_self : (entries.filter fun entry => entry.1 != k).lookup k = none := by
  rw [List.lookup_eq_none_iff]
  rintro ⟨k', v'⟩ member
  have apart := (List.mem_filter.1 member).2
  simpa using fun same : k = k' => by simp [same] at apart

variable [DecidableEq κ]

/-- Up to order, an entry that is inserted replaces the one of its key. -/
theorem perm_insertEntry (once : (entries.map Prod.fst).Nodup) :
    (insertEntry entries k v).Perm ((k, v) :: entries.filter fun entry => entry.1 != k) := by
  induction entries with
  | nil => exact .refl _
  | cons entry entries ih =>
    obtain ⟨k', v'⟩ := entry
    rw [List.map_cons, List.nodup_cons] at once
    rw [insertEntry]
    by_cases same : k' = k
    · subst same
      have absent : entries.lookup k' = none := by
        rw [List.lookup_eq_none_iff]
        rintro ⟨other, v''⟩ member
        have apart : k' ≠ other := fun same => once.1 (List.mem_map.2 ⟨_, member, same.symm⟩)
        simpa using apart
      rw [if_pos rfl, List.filter_cons_of_neg (by simp), filter_of_lookup_none absent]
    · rw [if_neg same, List.filter_cons_of_pos (by simpa using same)]
      exact ((ih once.2).cons _).trans (.swap _ _ _)

/-- A key is found where it was inserted or was there. -/
theorem lookup_insertEntry_ne_none {k' : κ} :
    (insertEntry entries k v).lookup k' ≠ none ↔ k' = k ∨ entries.lookup k' ≠ none := by
  by_cases here : k' = k
  · subst here
    simp [lookup_insertEntry_self]
  · simp [lookup_insertEntry_ne here, here]

/-- The entry of a key, and those of the others. -/
theorem perm_of_lookup (once : (entries.map Prod.fst).Nodup) (found : entries.lookup k = some v) :
    entries.Perm ((k, v) :: entries.filter fun entry => entry.1 != k) := by
  have perm : (insertEntry entries k v).Perm ((k, v) :: entries.filter fun entry => entry.1 != k) := perm_insertEntry once
  rwa [insertEntry_of_lookup found] at perm

end

/-- A map with `n` entries that has every index below `n` has no other. -/
theorem lookup_below {α : Type} {entries : List (Nat × α)} {k : Nat} {v : α} (once : (entries.map Prod.fst).Nodup)
    (covered : ∀ k < entries.length, entries.lookup k ≠ none) (here : entries.lookup k = some v) : k < entries.length := by
  have mem {j : Nat} {u : α} (there : entries.lookup j = some u) : j ∈ entries.map Prod.fst :=
    List.mem_map_of_mem ((mem_iff_lookup once).2 there)
  have below : List.range entries.length ⊆ entries.map Prod.fst := by
    intro j member
    obtain ⟨u, there⟩ := Option.ne_none_iff_exists'.1 (covered j (List.mem_range.1 member))
    exact mem there
  have perm := (List.subperm_of_subset List.nodup_range below).perm_of_length_le (by simp)
  exact List.mem_range.1 (perm.mem_iff.2 (mem here))

end AgenticStack.Library
