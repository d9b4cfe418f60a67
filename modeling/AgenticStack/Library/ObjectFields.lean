import AgenticStack.Library.JsonRoundTrip
import AgenticStack.Library.AssocList

/-!
# The fields of an object

A struct is written as the fields it has a value for. Fields it does not know are
kept behind them, and are inserted into the object last.
-/

namespace AgenticStack.Library
set_option autoImplicit false

/-- The fields that have a value. -/
def present {κ α : Type} (fields : List (κ × Option α)) : List (κ × α) :=
  fields.filterMap fun field => field.2.map fun v => (field.1, v)

/-- The fields of an object after `extra` were inserted. -/
def withExtra (fields extra : List (Text × Json)) : List (Text × Json) :=
  extra.foldl (fun kept field => insertField kept field.1 field.2) fields

/-- Fields a struct keeps beside those of the names it knows. -/
structure Flattened (known : List Text) (extra : List (Text × Json)) : Prop where
  once : (extra.map Prod.fst).Nodup
  apart : ∀ key ∈ extra.map Prod.fst, key ∉ known

section
variable {κ α : Type} {fields : List (κ × Option α)} {key : κ} {v : Option α}

/-- A field that is there is the first. -/
theorem present_cons : present ((key, v) :: fields) = (v.map fun v => (key, v)).toList ++ present fields := by
  cases v <;> rfl

/-- A field that is there is one of the fields. -/
theorem mem_keys_of_present (mem : key ∈ (present fields).map Prod.fst) : key ∈ fields.map Prod.fst := by
  obtain ⟨entry, kept, rfl⟩ := List.mem_map.1 mem
  obtain ⟨field, there, made⟩ := List.mem_filterMap.1 kept
  obtain ⟨v, -, rfl⟩ := Option.map_eq_some_iff.1 made
  exact List.mem_map_of_mem there

/-- Fields with keys of their own are there once. -/
theorem nodup_present (once : (fields.map Prod.fst).Nodup) : ((present fields).map Prod.fst).Nodup := by
  induction fields with
  | nil => exact List.nodup_nil
  | cons field fields ih =>
    obtain ⟨key, v⟩ := field
    obtain ⟨new, rest⟩ := List.nodup_cons.1 once
    rw [present_cons]
    cases v with
    | none => exact ih rest
    | some v => exact List.nodup_cons.2 ⟨fun later => new (mem_keys_of_present later), ih rest⟩

/-- A field is found where it is there. -/
theorem lookup_present [BEq κ] [LawfulBEq κ] (once : (fields.map Prod.fst).Nodup) :
    (present fields).lookup key = (fields.lookup key).join := by
  induction fields with
  | nil => rfl
  | cons field fields ih =>
    obtain ⟨other, v⟩ := field
    obtain ⟨new, rest⟩ := List.nodup_cons.1 once
    rw [present_cons]
    by_cases same : other = key
    · subst same
      rw [lookup_cons_self, Option.join_some]
      cases v with
      | none => exact lookup_eq_none_iff_key.2 fun later => new (mem_keys_of_present later)
      | some v => exact lookup_cons_self
    · rw [lookup_cons_ne same, ← ih rest]
      cases v with
      | none => rfl
      | some v => exact lookup_cons_ne same

end

section
variable {fields : List (Text × Json)} {key : Text} {v : Json}

/-- Without the inserted field the others are as they were. -/
theorem filter_insertField : (insertField fields key v).filter (fun field => field.1 != key) =
    fields.filter fun field => field.1 != key := by
  unfold insertField
  split
  · clear * -
    induction fields with
    | nil => rfl
    | cons field fields ih =>
      rw [List.map_cons]
      by_cases same : (field.1 == key) = true
      · rw [if_pos same, List.filter_cons_of_neg (by simp), List.filter_cons_of_neg (by simpa using same), ih]
      · rw [if_neg same, List.filter_cons_of_pos (by simpa using same), List.filter_cons_of_pos (by simpa using same), ih]
  · rw [List.filter_append]
    simp

end

section
variable {known : List Text} {fields extra : List (Text × Json)} {key : Text}

/-- Extra fields do not replace the fields. -/
theorem withExtra_eq (flat : Flattened known extra) (once : (fields.map Prod.fst).Nodup)
    (own : ∀ key ∈ fields.map Prod.fst, key ∈ known) : withExtra fields extra = fields ++ extra := by
  apply insertFields_append
  rw [List.map_append]
  refine List.nodup_append.2 ⟨once, flat.once, ?_⟩
  rintro key mine _ other rfl
  exact flat.apart key other (own key mine)

/-- A known field is not an extra one. -/
theorem Flattened.lookup_append (flat : Flattened known extra) (mine : key ∈ known) :
    (fields ++ extra).lookup key = fields.lookup key := by
  have absent : extra.lookup key = none := lookup_eq_none_iff_key.2 fun there => flat.apart key there mine
  rw [List.lookup_append, absent, Option.or_none]

/-- What is left of an object without the known fields is `extra`. -/
theorem Flattened.filter_append (flat : Flattened known extra) (own : ∀ key ∈ fields.map Prod.fst, key ∈ known) :
    (fields ++ extra).filter (fun field => !known.contains field.1) = extra := by
  rw [List.filter_append, List.filter_eq_nil_iff.2, List.filter_eq_self.2, List.nil_append]
  · intro field mem
    have apart := flat.apart field.1 (List.mem_map_of_mem mem)
    simpa using apart
  · intro field mem
    have here := own field.1 (List.mem_map_of_mem mem)
    simpa using here

/-- Fewer extra fields are extra. -/
theorem Flattened.filter (flat : Flattened known extra) (keep : Text × Json → Bool) :
    Flattened known (extra.filter keep) := by
  have sub : ((extra.filter keep).map Prod.fst).Sublist (extra.map Prod.fst) := List.filter_sublist.map _
  exact ⟨flat.once.sublist sub, fun key mem => flat.apart key (sub.subset mem)⟩

/-- What is extra to more is extra to fewer. -/
theorem Flattened.mono {more : List Text} (flat : Flattened more extra) (sub : ∀ key ∈ known, key ∈ more) :
    Flattened known extra := ⟨flat.once, fun key mem here => flat.apart key mem (sub key here)⟩

theorem Flattened.nil : Flattened known [] := ⟨List.nodup_nil, fun _ no => (nomatch no)⟩

end

end AgenticStack.Library
