import Mathlib.Algebra.Ring.Int.Defs
import Mathlib.Algebra.Ring.Nat
import Mathlib.Data.List.Basic

/-!
# Strings as their bytes

Text that is scanned byte by byte is kept as the list of its UTF-8 bytes. A
literal is written as an ordinary string and coerced by `utf8`.
-/

namespace AgenticStack.Library
set_option autoImplicit false

/-- A string, as its UTF-8 bytes. -/
abbrev Text := List UInt8

instance instLawfulBEqText : LawfulBEq Text := inferInstance

/-- The bytes of a string literal. -/
def utf8 (s : String) : Text := s.toUTF8.data.toList

instance : Coe String Text := ⟨utf8⟩

/-- A string is known by its bytes. -/
@[simp] theorem utf8_inj {a b : String} : utf8 a = utf8 b ↔ a = b := by
  constructor
  · intro same
    have bytes : a.toUTF8 = b.toUTF8 := ByteArray.ext (Array.toList_inj.1 same)
    exact String.toByteArray_inj.1 bytes
  · intro same
    rw [same]

/-- The rest after one leading white-space character, if there is one. -/
def dropSpace : Text → Option Text
  | [] => none
  | b :: rest =>
    if (0x09 ≤ b && b ≤ 0x0d) || b == 0x20 then some rest
    else match rest with
      | [] => none
      | c :: rest =>
        if b == 0xc2 && (c == 0x85 || c == 0xa0) then some rest
        else match rest with
          | [] => none
          | d :: rest =>
            if (b == 0xe1 && c == 0x9a && d == 0x80) || (b == 0xe2 && c == 0x81 && d == 0x9f)
              || (b == 0xe3 && c == 0x80 && d == 0x80)
              || (b == 0xe2 && c == 0x80 && ((0x80 ≤ d && d ≤ 0x8a) || d == 0xa8 || d == 0xa9 || d == 0xaf))
            then some rest else none

/-- The text behind its white space, within a fuel. -/
def trimStartWithin : Nat → Text → Text
  | 0, s => s
  | fuel + 1, s => match dropSpace s with
    | some rest => trimStartWithin fuel rest
    | none => s

/-- `str::trim_start`. A character is at least one byte, so the length is fuel enough. -/
def trimStart (s : Text) : Text := trimStartWithin s.length s

/-- `str::strip_prefix`. -/
def stripPrefix (front s : Text) : Option Text := if front.isPrefixOf s then some (s.drop front.length) else none

/-- Nothing but white space, read with at most `fuel` characters. -/
def isBlankWithin : Nat → Text → Bool
  | _, [] => true
  | 0, _ => false
  | fuel + 1, s => match dropSpace s with
    | some rest => isBlankWithin fuel rest
    | none => false

/-- `str::trim` leaves nothing. A character is at least one byte, so the length is fuel enough. -/
def isBlank (s : Text) : Bool := isBlankWithin s.length s

/-- The byte is the first of a character. -/
def startsChar (b : UInt8) : Bool := b < 0x80 || 0xc0 ≤ b

/-- `str::is_char_boundary`. -/
def isCharBoundary (s : Text) (k : Nat) : Bool := k == 0 || (s[k]?).elim (k == s.length) startsChar

/-- `chars().count()`. -/
def charCount (s : Text) : Nat := s.countP startsChar

/-- `chars().take(n)`. -/
def takeChars : Nat → Text → Text
  | _, [] => []
  | n, b :: s =>
    if startsChar b then match n with
      | 0 => []
      | n + 1 => b :: takeChars n s
    else b :: takeChars n s

variable {s t r front : Text} {b : UInt8}

/-- Dropping a space leaves less. -/
theorem dropSpace_length (h : dropSpace s = some r) : r.length < s.length := by
  unfold dropSpace at h
  grind

/-- A space is dropped alike when more follows. -/
theorem dropSpace_append (h : dropSpace s = some r) : dropSpace (s ++ t) = some (r ++ t) := by
  unfold dropSpace at h ⊢
  rcases s with _ | ⟨b, _ | ⟨c, _ | ⟨d, rest⟩⟩⟩ <;> grind

/-- A text without its front is what follows it. -/
theorem stripPrefix_eq_some_iff : stripPrefix front s = some r ↔ s = front ++ r := by
  unfold stripPrefix
  by_cases here : front.isPrefixOf s = true
  · obtain ⟨rest, rfl⟩ := List.isPrefixOf_iff_prefix.1 here
    simp [here]
  · rw [if_neg here]
    constructor
    · intro none
      simp at none
    · rintro rfl
      exact absurd (List.isPrefixOf_iff_prefix.2 ⟨r, rfl⟩) here

/-- More fuel changes nothing where there is enough. -/
theorem trimStartWithin_succ {fuel : Nat} (enough : s.length ≤ fuel) :
    trimStartWithin (fuel + 1) s = trimStartWithin fuel s := by
  induction fuel generalizing s with
  | zero =>
    have empty : s = [] := List.length_eq_zero_iff.1 (by omega)
    subst empty
    rfl
  | succ fuel ih =>
    rw [trimStartWithin]
    cases space : dropSpace s with
    | none => simp [trimStartWithin, space]
    | some rest =>
      have shorter := dropSpace_length space
      have same := @ih rest (by omega)
      simp only [trimStartWithin, space] at same ⊢
      exact same

/-- Enough fuel trims the whole front. -/
theorem trimStartWithin_eq {fuel : Nat} (enough : s.length ≤ fuel) : trimStartWithin fuel s = trimStart s := by
  obtain ⟨k, rfl⟩ := Nat.exists_eq_add_of_le enough
  induction k with
  | zero => rfl
  | succ k ih => rw [← Nat.add_assoc, trimStartWithin_succ (by omega), ih (by omega)]

/-- A text that begins with no space is trimmed. -/
theorem trimStart_of_none (h : dropSpace s = none) : trimStart s = s := by
  unfold trimStart
  cases s with
  | nil => rfl
  | cons b s => rw [List.length_cons, trimStartWithin, h]

/-- A space is trimmed, then the rest. -/
theorem trimStart_of_some (h : dropSpace s = some r) : trimStart s = trimStart r := by
  have shorter := dropSpace_length h
  obtain ⟨k, len⟩ := Nat.exists_eq_succ_of_ne_zero (show s.length ≠ 0 by omega)
  rw [trimStart, len, Nat.succ_eq_add_one, trimStartWithin, h]
  exact trimStartWithin_eq (by omega)

/-- Induction over the white space at the front of a text. -/
theorem space_induction {P : Text → Prop} (stop : ∀ s, dropSpace s = none → P s)
    (step : ∀ s r, dropSpace s = some r → P r → P s) (s : Text) : P s := by
  cases h : dropSpace s with
  | none => exact stop s h
  | some r => exact step s r h (space_induction stop step r)
termination_by s.length
decreasing_by exact dropSpace_length h

/-- A trimmed text begins with no space. -/
theorem dropSpace_trimStart : dropSpace (trimStart s) = none := by
  induction s using space_induction with
  | stop s h => rwa [trimStart_of_none h]
  | step s r h ih => rwa [trimStart_of_some h]

@[simp] theorem trimStart_trimStart : trimStart (trimStart s) = trimStart s := trimStart_of_none dropSpace_trimStart

/-- Trimming leaves no more. -/
theorem trimStart_length : (trimStart s).length ≤ s.length := by
  induction s using space_induction with
  | stop s h => exact Nat.le_of_eq (by rw [trimStart_of_none h])
  | step s r h ih =>
    have shorter := dropSpace_length h
    rw [trimStart_of_some h]
    omega

/-- The bytes no white-space character starts with. -/
def isHard (b : UInt8) : Bool :=
  !((0x09 ≤ b && b ≤ 0x0d) || b == 0x20 || b == 0xc2 || b == 0xe1 || b == 0xe2 || b == 0xe3)

/-- A hard byte is no space. -/
theorem dropSpace_of_hard (hard : isHard b = true) : dropSpace (b :: s) = none := by
  unfold dropSpace
  unfold isHard at hard
  grind

/-- Trimming stops for good at a hard byte, whatever follows. -/
theorem trimStart_append (hard : isHard b = true) (shape : trimStart s = b :: r) :
    trimStart (s ++ t) = b :: (r ++ t) := by
  induction s using space_induction with
  | stop s h =>
    rw [trimStart_of_none h] at shape
    rw [shape, List.cons_append, trimStart_of_none (dropSpace_of_hard hard)]
  | step s s' h ih =>
    rw [trimStart_of_some h] at shape
    rw [trimStart_of_some (dropSpace_append h), ih shape]

/-- A front behind white space is found when more follows. -/
theorem stripPrefix_trimStart_append (hard : isHard b = true) (h : stripPrefix (b :: front) (trimStart s) = some r) :
    stripPrefix (b :: front) (trimStart (s ++ t)) = some (r ++ t) := by
  rw [stripPrefix_eq_some_iff, List.cons_append] at h ⊢
  rw [trimStart_append hard h, List.append_assoc]

/-- What is left is the end of the text. -/
theorem dropSpace_suffix (h : dropSpace s = some r) : r <:+ s := by
  have ends : ∃ k, r = s.drop k := by
    unfold dropSpace at h
    rcases s with _ | ⟨b, _ | ⟨c, _ | ⟨d, rest⟩⟩⟩
    · simp at h
    · exact ⟨1, by grind⟩
    · by_cases one : r = [c]
      · exact ⟨1, one⟩
      · exact ⟨2, by grind⟩
    · by_cases one : r = c :: d :: rest
      · exact ⟨1, one⟩
      · by_cases two : r = d :: rest
        · exact ⟨2, two⟩
        · exact ⟨3, by grind⟩
  obtain ⟨k, rfl⟩ := ends
  exact List.drop_suffix k s

/-- A trimmed text is the end of the text. -/
theorem trimStart_suffix : trimStart s <:+ s := by
  induction s using space_induction with
  | stop s h => exact ⟨[], trimStart_of_none h⟩
  | step s r h ih =>
    rw [trimStart_of_some h]
    exact ih.trans (dropSpace_suffix h)

theorem stripPrefix_suffix {front : Text} (h : stripPrefix front s = some r) : r <:+ s :=
  ⟨front, (stripPrefix_eq_some_iff.1 h).symm⟩

end AgenticStack.Library
