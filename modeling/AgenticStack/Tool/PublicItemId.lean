import AgenticStack.Tool.Client
import AgenticStack.Types.Lowering

/-!
# Public item ids

A custom or shell call is shown under an id of its own, made from the id of the
function call behind it by exchanging the prefix. Replayed as input, it is
lowered to a function call again, under an id made by exchanging it back. Two ids
are shown as one exactly where they clash.
-/

namespace AgenticStack
set_option autoImplicit false
open Library

variable {front id suffix : Text}

/-- The prefix of the ids of function calls. -/
def functionFront : Text := "fc_"

/-- The prefixes of public ids. -/
def publicFronts : List Text := ["ctc_", "sh_"]

theorem stripPrefix_self (front suffix : Text) : stripPrefix front (front ++ suffix) = some suffix :=
  stripPrefix_eq_some_iff.2 rfl

theorem stripPrefix_none (apart : ¬ front <+: id) : stripPrefix front id = none := by
  cases found : stripPrefix front id with
  | none => rfl
  | some rest => exact absurd ⟨rest, (stripPrefix_eq_some_iff.1 found).symm⟩ apart

/-- Two prefixes that differ in their first byte have no id in common. -/
theorem prefix_apart {b c : UInt8} {x y : Text} (differ : b ≠ c) (first : b :: x <+: id) : ¬ c :: y <+: id := by
  rintro ⟨rest, rfl⟩
  exact differ (List.cons_prefix_cons.1 first).1

theorem function_apart (front_public : front ∈ publicFronts) (suffix : Text) : ¬ front <+: functionFront ++ suffix := by
  simp only [publicFronts, List.mem_cons, List.not_mem_nil, or_false] at front_public
  rcases front_public with rfl | rfl
  all_goals
    intro both
    exact absurd (List.cons_prefix_cons.1 both).1 (by decide)

theorem fronts_apart {front' : Text} (first : front ∈ publicFronts) (second : front' ∈ publicFronts) (differ : front ≠ front')
    (pre : front <+: id) : ¬ front' <+: id := by
  simp only [publicFronts, List.mem_cons, List.not_mem_nil, or_false] at first second
  rcases first with rfl | rfl <;> rcases second with rfl | rfl
  · exact absurd rfl differ
  · exact @prefix_apart id 0x63 0x73 _ _ (by decide) pre
  · exact @prefix_apart id 0x73 0x63 _ _ (by decide) pre
  · exact absurd rfl differ

/-- The public id of an id that has the public prefix, and of a function call's. -/
theorem publicItemId_public (front suffix : Text) : publicItemId front (front ++ suffix) = front ++ suffix := by
  rw [publicItemId, if_pos (List.isPrefixOf_iff_prefix.2 (List.prefix_append front suffix))]

theorem publicItemId_function (apart : ¬ front <+: functionFront ++ suffix) (named : suffix ≠ []) :
    publicItemId front (functionFront ++ suffix) = front ++ suffix := by
  have strip : stripPrefix (utf8 "fc_") (functionFront ++ suffix) = some suffix := stripPrefix_self functionFront suffix
  rw [publicItemId, if_neg fun pre => apart (List.isPrefixOf_iff_prefix.1 pre), strip,
    Option.filter_some, if_pos (by simp [named])]

/-- Any other id is hashed. -/
theorem publicItemId_hashed (apart : ¬ front <+: id) (other : ∀ suffix, suffix ≠ [] → id ≠ functionFront ++ suffix) :
    publicItemId front id = front ++ hex16 (stableNameHash id) := by
  rw [publicItemId, if_neg fun pre => apart (List.isPrefixOf_iff_prefix.1 pre)]
  cases strip : stripPrefix (utf8 "fc_") id with
  | none => rfl
  | some suffix =>
    have shape : id = functionFront ++ suffix := stripPrefix_eq_some_iff.1 strip
    by_cases named : suffix = []
    · subst named
      rfl
    · exact absurd shape (other suffix named)

theorem hex16_ne_nil {n : Nat} : hex16 n ≠ [] := by
  intro empty
  have len := congrArg List.length empty
  simp [hex16] at len

/-- A public id begins with its prefix. -/
theorem prefix_publicItemId (front id : Text) : front <+: publicItemId front id := by
  by_cases pre : front <+: id
  · obtain ⟨suffix, rfl⟩ := pre
    rw [publicItemId_public]
    exact List.prefix_append front suffix
  · rw [publicItemId, if_neg fun given => pre (List.isPrefixOf_iff_prefix.1 given)]
    split <;> exact List.prefix_append _ _

theorem functionCallItemId_eq (id : Text) : functionCallItemId id =
    if id = [] then none
    else match ((stripPrefix "ctc_" id).or (stripPrefix "sh_" id)).filter (· ≠ []) with
      | some suffix => some (functionFront ++ suffix)
      | none => some id := rfl

theorem functionCallItemId_front (front_public : front ∈ publicFronts) : functionCallItemId front = some front := by
  simp only [publicFronts, List.mem_cons, List.not_mem_nil, or_false] at front_public
  rcases front_public with rfl | rfl <;> decide

theorem functionCallItemId_public (front_public : front ∈ publicFronts) (named : suffix ≠ []) :
    functionCallItemId (front ++ suffix) = some (functionFront ++ suffix) := by
  simp only [publicFronts, List.mem_cons, List.not_mem_nil, or_false] at front_public
  rcases front_public with rfl | rfl
  · rw [functionCallItemId_eq, if_neg (by simp [named]), stripPrefix_self, Option.some_or, Option.filter_some,
      if_pos (by simp [named])]
  · have apart : ¬ utf8 "ctc_" <+: utf8 "sh_" ++ suffix := by
      intro both
      exact absurd (List.cons_prefix_cons.1 both).1 (by decide)
    rw [functionCallItemId_eq, if_neg (by simp [named]), stripPrefix_none apart, stripPrefix_self, Option.none_or,
      Option.filter_some, if_pos (by simp [named])]

/-- **The way back restores exactly** the ids of function calls with a suffix, and a bare public prefix. -/
theorem functionCallItemId_publicItemId (front_public : front ∈ publicFronts) :
    functionCallItemId (publicItemId front id) = some id ↔
      (∃ suffix, suffix ≠ [] ∧ id = functionFront ++ suffix) ∨ id = front := by
  have apart := function_apart front_public
  by_cases pre : front <+: id
  · obtain ⟨suffix, rfl⟩ := pre
    rw [publicItemId_public]
    by_cases bare : suffix = []
    · subst bare
      rw [List.append_nil, functionCallItemId_front front_public]
      exact iff_of_true rfl (.inr rfl)
    · rw [functionCallItemId_public front_public bare]
      refine iff_of_false ?_ ?_
      · intro same
        exact apart suffix ⟨suffix, (Option.some.inj same).symm⟩
      · rintro (⟨suffix', -, same⟩ | same)
        · exact apart suffix' ⟨suffix, same⟩
        · exact bare (List.append_right_eq_self.1 same)
  · by_cases function : ∃ suffix, suffix ≠ [] ∧ id = functionFront ++ suffix
    · obtain ⟨suffix, named, rfl⟩ := function
      rw [publicItemId_function (apart suffix) named, functionCallItemId_public front_public named]
      exact iff_of_true rfl (.inl ⟨suffix, named, rfl⟩)
    · have other : ∀ suffix, suffix ≠ [] → id ≠ functionFront ++ suffix := fun suffix named same =>
        function ⟨suffix, named, same⟩
      rw [publicItemId_hashed pre other, functionCallItemId_public front_public hex16_ne_nil]
      refine iff_of_false ?_ ?_
      · intro same
        exact other _ hex16_ne_nil (Option.some.inj same).symm
      · rintro (given | rfl)
        · exact function given
        · exact pre (List.prefix_refl _)

/-- An id that is neither kept nor gets its prefix exchanged. -/
def Hashed (front id : Text) : Prop := ¬ front <+: id ∧ ∀ suffix, suffix ≠ [] → id ≠ functionFront ++ suffix

/-- What an id is shown as: itself, its suffix behind the public prefix, or a hash behind it. -/
inductive ShownAs (front : Text) : Text → Text → Prop where
  | kept (suffix : Text) : ShownAs front (front ++ suffix) (front ++ suffix)
  | exchanged (suffix : Text) : suffix ≠ [] → ShownAs front (functionFront ++ suffix) (front ++ suffix)
  | hashed (id : Text) : Hashed front id → ShownAs front id (front ++ hex16 (stableNameHash id))

/-- Two ids that are shown as one: twins that differ in the prefix only, two with one hash, and one whose suffix is the
hash of the other. -/
inductive Clash (front : Text) : Text → Text → Prop where
  | twins (suffix : Text) : suffix ≠ [] → Clash front (front ++ suffix) (functionFront ++ suffix)
  | hashes (a b : Text) : a ≠ b → Hashed front a → Hashed front b → stableNameHash a = stableNameHash b → Clash front a b
  | keptHash (b : Text) : Hashed front b → Clash front (front ++ hex16 (stableNameHash b)) b
  | exchangedHash (b : Text) : Hashed front b → Clash front (functionFront ++ hex16 (stableNameHash b)) b

section
variable {a b shown : Text}

/-- A number below a power of sixteen is told by its hex digits. -/
theorem mod_pow_of_digits {n m : Nat} : ∀ k, (∀ j < k, n / 16 ^ j % 16 = m / 16 ^ j % 16) → n % 16 ^ k = m % 16 ^ k
  | 0, _ => by rw [Nat.pow_zero, Nat.mod_one, Nat.mod_one]
  | k + 1, digits => by
    have lower := mod_pow_of_digits k fun j small => digits j (Nat.lt_succ_of_lt small)
    rw [Nat.mod_pow_succ, Nat.mod_pow_succ, lower, digits k (Nat.lt_succ_self k)]

theorem hexDigit_injective : ∀ a < 16, ∀ b < 16, hexDigit (Nat.toUInt8 a) = hexDigit (Nat.toUInt8 b) → a = b := by decide

theorem hex16_injective {n m : Nat} (n_small : n < 2 ^ 64) (m_small : m < 2 ^ 64) (same : hex16 n = hex16 m) : n = m := by
  have digits : ∀ j < 16, n / 16 ^ j % 16 = m / 16 ^ j % 16 := by
    intro j small
    have here := List.map_inj_left.1 same (15 - j) (List.mem_range.2 (by omega))
    rw [show 15 - (15 - j) = j by omega] at here
    exact hexDigit_injective _ (Nat.mod_lt _ (by omega)) _ (Nat.mod_lt _ (by omega)) here
  have all := mod_pow_of_digits 16 digits
  rwa [Nat.mod_eq_of_lt (by omega), Nat.mod_eq_of_lt (by omega)] at all

theorem stableNameHash_lt (value : Text) : stableNameHash value < 2 ^ 64 := by
  have run {hash : Nat} : hash < 2 ^ 64 → ∀ bytes : Text,
      bytes.foldl (fun hash byte => (hash ^^^ byte.toNat) * 0x100000001b3 % 2 ^ 64) hash < 2 ^ 64 := by
    intro small bytes
    induction bytes generalizing hash with
    | nil => exact small
    | cons byte bytes ih => exact ih (Nat.mod_lt _ (by decide))
  exact run (by decide) value

/-- Every id is kept, gets its prefix exchanged, or is hashed. -/
theorem shownAs_publicItemId (front_public : front ∈ publicFronts) (id : Text) : ShownAs front id (publicItemId front id) := by
  by_cases pre : front <+: id
  · obtain ⟨suffix, rfl⟩ := pre
    rw [publicItemId_public]
    exact .kept suffix
  · by_cases function : ∃ suffix, suffix ≠ [] ∧ id = functionFront ++ suffix
    · obtain ⟨suffix, named, rfl⟩ := function
      rw [publicItemId_function (function_apart front_public suffix) named]
      exact .exchanged suffix named
    · have other : ∀ suffix, suffix ≠ [] → id ≠ functionFront ++ suffix := fun suffix named same =>
        function ⟨suffix, named, same⟩
      rw [publicItemId_hashed pre other]
      exact .hashed id ⟨pre, other⟩

theorem shownAs_iff (front_public : front ∈ publicFronts) : ShownAs front id shown ↔ publicItemId front id = shown := by
  constructor
  · intro as
    cases as with
    | kept suffix => exact publicItemId_public front suffix
    | exchanged suffix named => exact publicItemId_function (function_apart front_public suffix) named
    | hashed id hashed => exact publicItemId_hashed hashed.1 hashed.2
  · rintro rfl
    exact shownAs_publicItemId front_public id

theorem Clash.ne (front_public : front ∈ publicFronts) (clash : Clash front a b) : a ≠ b := by
  cases clash with
  | twins suffix named => exact fun same => function_apart front_public suffix ⟨suffix, same⟩
  | hashes a b differ => exact differ
  | keptHash b hashed => exact fun same => hashed.1 ⟨_, same⟩
  | exchangedHash b hashed => exact fun same => hashed.2 _ hex16_ne_nil same.symm

theorem publicItemId_clash (front_public : front ∈ publicFronts) (clash : Clash front a b) : publicItemId front a = publicItemId front b := by
  cases clash with
  | twins suffix named =>
    rw [publicItemId_public, publicItemId_function (function_apart front_public suffix) named]
  | hashes a b _ a_hashed b_hashed same =>
    rw [publicItemId_hashed a_hashed.1 a_hashed.2, publicItemId_hashed b_hashed.1 b_hashed.2, same]
  | keptHash b hashed => rw [publicItemId_public, publicItemId_hashed hashed.1 hashed.2]
  | exchangedHash b hashed =>
    rw [publicItemId_function (function_apart front_public _) hex16_ne_nil, publicItemId_hashed hashed.1 hashed.2]

theorem ShownAs.behind_front (as : ShownAs front id shown) : ∃ suffix, shown = front ++ suffix ∧
    (id = front ++ suffix ∨ (suffix ≠ [] ∧ id = functionFront ++ suffix) ∨
      (Hashed front id ∧ suffix = hex16 (stableNameHash id))) := by
  cases as with
  | kept suffix => exact ⟨suffix, rfl, .inl rfl⟩
  | exchanged suffix named => exact ⟨suffix, rfl, .inr (.inl ⟨named, rfl⟩)⟩
  | hashed id hashed => exact ⟨_, rfl, .inr (.inr ⟨hashed, rfl⟩)⟩

/-- **Different ids are shown as one exactly where they clash**, one way or the other. -/
theorem publicItemId_eq_iff (front_public : front ∈ publicFronts) (differ : a ≠ b) :
    publicItemId front a = publicItemId front b ↔ Clash front a b ∨ Clash front b a := by
  constructor
  · intro same
    obtain ⟨s, a_shown, a_is⟩ := (shownAs_publicItemId front_public a).behind_front
    obtain ⟨t, b_shown, b_is⟩ := (shownAs_publicItemId front_public b).behind_front
    rw [a_shown, b_shown, List.append_cancel_left_eq] at same
    subst same
    rcases a_is with a_is | ⟨named, a_is⟩ | ⟨a_hashed, a_hash⟩
    · rcases b_is with b_is | ⟨named, b_is⟩ | ⟨b_hashed, b_hash⟩
      · exact absurd (a_is.trans b_is.symm) differ
      · rw [a_is, b_is]
        exact .inl (.twins s named)
      · rw [a_is, b_hash]
        exact .inl (.keptHash b b_hashed)
    · rcases b_is with b_is | ⟨-, b_is⟩ | ⟨b_hashed, b_hash⟩
      · rw [a_is, b_is]
        exact .inr (.twins s named)
      · exact absurd (a_is.trans b_is.symm) differ
      · rw [a_is, b_hash]
        exact .inl (.exchangedHash b b_hashed)
    · rcases b_is with b_is | ⟨named, b_is⟩ | ⟨b_hashed, b_hash⟩
      · rw [b_is, a_hash]
        exact .inr (.keptHash a a_hashed)
      · rw [b_is, a_hash]
        exact .inr (.exchangedHash a a_hashed)
      · have hash := hex16_injective (stableNameHash_lt a) (stableNameHash_lt b) (a_hash.symm.trans b_hash)
        exact .inl (.hashes a b differ a_hashed b_hashed hash)
  · rintro (clash | clash)
    · exact publicItemId_clash front_public clash
    · exact (publicItemId_clash front_public clash).symm

end

end AgenticStack
