import Mathlib.Data.List.TakeWhile
import AgenticStack.Library.JsonReaders

/-!
# Reading what was written

A value that is written and read again is the same value, except that its
floats are read anew, if it nests at most as deep as the reader goes; a deeper
one is not read.
-/

namespace AgenticStack.Library
set_option autoImplicit false

variable {s t rest : Text} {readFloat : Text → Option Text}

/-- An escaped control byte is read back. -/
theorem hexQuad_control : ∀ n < 0x20, hexQuad [0x30, 0x30, hexDigit (n.toUInt8 / 16), hexDigit (n.toUInt8 % 16)] = some n := by
  decide

/-- A byte that was escaped is read back. -/
theorem decodeUnit_escapeByte (b : UInt8) : decodeUnit (escapeByte b ++ t) = some ([b], (escapeByte b).length) := by
  by_cases quote : b = 0x22
  · subst quote
    rfl
  by_cases backslash : b = 0x5c
  · subst backslash
    rfl
  by_cases control : b < 0x20
  · by_cases short : b = 0x08 ∨ b = 0x0c ∨ b = 0x0a ∨ b = 0x0d ∨ b = 0x09
    · rcases short with rfl | rfl | rfl | rfl | rfl <;> rfl
    · have small : b.toNat < 0x20 := UInt8.lt_iff_toNat_lt.1 control
      have digits := hexQuad_control b.toNat small
      have own : b.toNat.toUInt8 = b := UInt8.ofNat_toNat
      rw [own] at digits
      have shape : escapeByte b =
          [0x5c, 0x75, 0x30, 0x30, hexDigit (b / 16), hexDigit (b % 16)] := by
        simp only [not_or] at short
        rw [escapeByte, if_neg quote, if_neg backslash, if_neg short.1, if_neg short.2.1, if_neg short.2.2.1,
          if_neg short.2.2.2.1, if_neg short.2.2.2.2, if_pos control]
        rfl
      have code : encodeUtf8 b.toNat = [b] := by
        rw [encodeUtf8, if_pos (by omega), own]
      have trail : isTrailSurrogate b.toNat = false := by
        simp [isTrailSurrogate]
        omega
      have lead : isLeadSurrogate b.toNat = false := by
        simp [isLeadSurrogate]
        omega
      rw [shape]
      show decodeUnicode ([0x30, 0x30, hexDigit (b / 16), hexDigit (b % 16)] ++ t) = _
      unfold decodeUnicode
      have four : ([0x30, 0x30, hexDigit (b / 16), hexDigit (b % 16)] ++ t).take 4 =
          [0x30, 0x30, hexDigit (b / 16), hexDigit (b % 16)] := List.take_left' rfl
      rw [four, digits]
      simp [trail, lead, code]
  · have plain : escapeByte b = [b] := by
      have far : ∀ c : UInt8, c < 0x20 → b ≠ c := fun c low same => control (same ▸ low)
      rw [escapeByte, if_neg quote, if_neg backslash, if_neg (far _ (by decide)), if_neg (far _ (by decide)),
        if_neg (far _ (by decide)), if_neg (far _ (by decide)), if_neg (far _ (by decide)), if_neg control]
    rw [plain]
    show decodeUnit (b :: t) = _
    rw [decodeUnit.eq_def]
    simp only [if_neg quote, if_neg backslash, if_neg control]
    rfl

/-- An escaped text decodes to itself. -/
theorem decodes_flatMap_escapeByte (s : Text) : Decodes (s.flatMap escapeByte) s := by
  induction s with
  | nil => exact .nil
  | cons b s ih =>
    have more : Decodes ((escapeByte b ++ s.flatMap escapeByte).drop (escapeByte b).length) s := by
      rw [List.drop_left]
      exact ih
    rw [List.flatMap_cons]
    exact .unit (decodeUnit_escapeByte b) more

/-- An escaped text is read back up to its quote. -/
theorem readString_escaped (s rest : Text) : readString (s.flatMap escapeByte ++ 0x22 :: rest) = some (s, rest) :=
  readString_eq_some_iff.2 ⟨_, rfl, decodes_flatMap_escapeByte s⟩

/-- A text of ascii characters is its bytes. -/
theorem utf8_ofList {l : List Char} (ascii : ∀ c ∈ l, c.toNat < 0x80) :
    utf8 (String.ofList l) = l.map fun c => c.toNat.toUInt8 := by
  unfold utf8
  rw [String.toUTF8, String.toByteArray_ofList]
  induction l with
  | nil => rfl
  | cons c l ih =>
    rw [List.utf8Encode_cons]
    have low : c.toNat < 0x80 := ascii c List.mem_cons_self
    have one : String.utf8EncodeChar c = [c.toNat.toUInt8] := by
      simp only [String.utf8EncodeChar]
      rw [if_pos (by show c.toNat ≤ 0x7f; omega)]
      rfl
    have later := ih fun c mem => ascii c (List.mem_cons_of_mem _ mem)
    simp [List.utf8Encode_singleton, one, later]

/-- The digits of the library are the bytes. -/
theorem digit_range {c : Char} (h : c.isDigit = true) : 0x30 ≤ c.toNat ∧ c.toNat ≤ 0x39 := by
  simp only [Char.isDigit, Bool.and_eq_true, decide_eq_true_eq] at h
  exact ⟨UInt32.le_iff_toNat_le.1 h.1, UInt32.le_iff_toNat_le.1 h.2⟩

/-- Digits are read as their number. -/
theorem digitsValue_eq {l : List Char} (digits : ∀ c ∈ l, c.isDigit = true) (n : Nat) :
    (l.map fun c => c.toNat.toUInt8).foldl (fun n b => n * 10 + (b.toNat - 0x30)) n = Nat.ofDigitChars 10 l n := by
  induction l generalizing n with
  | nil => rfl
  | cons c l ih =>
    have range := digit_range (digits c List.mem_cons_self)
    have byte : c.toNat.toUInt8.toNat = c.toNat := by
      simp
      omega
    rw [List.map_cons, List.foldl_cons, ih fun c mem => digits c (List.mem_cons_of_mem _ mem), byte]
    rw [Nat.ofDigitChars_eq_foldl, Nat.ofDigitChars_eq_foldl, List.foldl_cons]
    rw [Nat.mul_comm n 10]
    rfl

/-- A number is written in its digits. -/
theorem decimal_eq (n : Nat) : decimal n = (Nat.toDigits 10 n).map fun c => c.toNat.toUInt8 := by
  unfold decimal
  rw [Nat.toString_eq_ofList_toDigits]
  refine utf8_ofList fun c mem => ?_
  have range := digit_range (Nat.isDigit_of_mem_toDigits (by decide) (by decide) mem)
  omega

/-- A number that was written is read back. -/
theorem digitsValue_decimal (n : Nat) : digitsValue (decimal n) = n := by
  unfold digitsValue
  rw [decimal_eq, digitsValue_eq fun c mem => Nat.isDigit_of_mem_toDigits (by decide) (by decide) mem]
  exact Nat.ofDigitChars_ten_toDigits

/-- A number is written in digits. -/
theorem isDigit_of_mem_decimal {n : Nat} {b : UInt8} (mem : b ∈ decimal n) : isDigit b = true := by
  rw [decimal_eq] at mem
  obtain ⟨c, digit, rfl⟩ := List.mem_map.1 mem
  have range := digit_range (Nat.isDigit_of_mem_toDigits (by decide) (by decide) digit)
  simp [isDigit, UInt8.le_iff_toNat_le]
  omega

/-- A number is written in at least one digit. -/
theorem decimal_ne_nil (n : Nat) : decimal n ≠ [] := by
  rw [decimal_eq]
  simp [Nat.toDigits_ne_nil]

/-- No zero comes first, but that of zero itself. -/
theorem decimal_length_of_zero {n : Nat} (head : (decimal n).head? = some 0x30) : (decimal n).length = 1 := by
  induction n using Nat.strongRecOn with
  | ind n ih =>
    have digits := decimal_eq n
    rw [Nat.toDigits_eq_if (by decide)] at digits
    split at digits
    · rw [digits]
      rfl
    · rename_i big
      rw [List.map_append, ← decimal_eq] at digits
      rw [digits, List.head?_append_of_ne_nil _ (decimal_ne_nil _)] at head
      have one := ih (n / 10) (by omega) head
      obtain ⟨b, only⟩ := List.length_eq_one_iff.1 one
      rw [only, List.head?_cons, Option.some.injEq] at head
      have zero := digitsValue_decimal (n / 10)
      rw [only, head] at zero
      have : digitsValue [0x30] = 0 := by decide
      omega

/-- What follows a value inside another one, or at the end. -/
def Ends (rest : Text) : Prop := ∀ b, rest.head? = some b → b = 0x2c ∨ b = 0x5d ∨ b = 0x7d

/-- Digits end where the text does. -/
theorem takeWhile_ends (stop : Ends rest) : (s ++ rest).takeWhile isDigit = s.takeWhile isDigit := by
  induction s with
  | nil =>
    cases rest with
    | nil => rfl
    | cons b rest =>
      rw [List.nil_append, List.takeWhile_nil, List.takeWhile_cons_of_neg]
      rcases stop b rfl with rfl | rfl | rfl <;> decide
  | cons b s ih =>
    simp only [List.cons_append, List.takeWhile_cons, ih]

/-- The head is that of the number, where one goes on. -/
theorem head_ends {b : UInt8} (stop : Ends rest) (other : b ≠ 0x2c ∧ b ≠ 0x5d ∧ b ≠ 0x7d) :
    (s ++ rest).head? = some b ↔ s.head? = some b := by
  cases s with
  | nil =>
    simp only [List.nil_append, List.head?_nil, reduceCtorEq, iff_false]
    intro head
    rcases stop b head with rfl | rfl | rfl <;> simp at other
  | cons c s => rfl

theorem drop_ends {k : Nat} (le : k ≤ s.length) : (s ++ rest).drop k = s.drop k ++ rest :=
  List.drop_append_of_le_length le

/-- A fraction ends where the text does. -/
theorem fractionLength_ends (stop : Ends rest) : fractionLength (s ++ rest) = fractionLength s := by
  unfold fractionLength
  have front := @head_ends s rest 0x2e stop (by decide)
  simp only [front]
  split
  · rename_i dot
    have pos : 1 ≤ s.length := by
      cases s with
      | nil => simp at dot
      | cons b s => simp
    rw [drop_ends pos, takeWhile_ends stop]
  · rfl

/-- An exponent ends where the text does. -/
theorem exponentLength_ends (stop : Ends rest) : exponentLength (s ++ rest) = exponentLength s := by
  unfold exponentLength
  have lower := @head_ends s rest 0x65 stop (by decide)
  have upper := @head_ends s rest 0x45 stop (by decide)
  simp only [lower, upper]
  split
  · rename_i letter
    have pos : 1 ≤ s.length := by
      cases s with
      | nil => simp at letter
      | cons b s => simp
    have plus := @head_ends (s.drop 1) rest 0x2b stop (by decide)
    have minus := @head_ends (s.drop 1) rest 0x2d stop (by decide)
    simp only [drop_ends pos, plus, minus]
    by_cases signed : (s.drop 1).head? = some 0x2b ∨ (s.drop 1).head? = some 0x2d
    · have more : 2 ≤ s.length := by
        by_contra short
        have none : s.drop 1 = [] := List.drop_of_length_le (by omega)
        simp [none] at signed
      simp only [signed, if_true]
      rw [drop_ends (by omega), takeWhile_ends stop]
    · simp only [signed, if_false]
      rw [drop_ends (by omega), takeWhile_ends stop]
  · rfl

/-- A fraction is within the text. -/
theorem fractionLength_le {n : Nat} (h : fractionLength s = some n) : n ≤ s.length := by
  unfold fractionLength at h
  split at h
  · dsimp only at h
    split at h
    · cases h
    · rename_i digits
      cases h
      have le := (List.takeWhile_sublist isDigit : ((s.drop 1).takeWhile isDigit).Sublist (s.drop 1)).length_le
      have pos := List.length_pos_iff.2 digits
      rw [List.length_drop] at le
      omega
  · cases h
    exact Nat.zero_le _

/-- A number ends where the text does. -/
theorem numberLength_ends (stop : Ends rest) (some_ : s ≠ []) : numberLength (s ++ rest) = numberLength s := by
  unfold numberLength
  have minus := @head_ends s rest 0x2d stop (by decide)
  simp only [minus]
  have sign_le : (if s.head? = some 0x2d then 1 else 0) ≤ s.length := by
    have pos := List.length_pos_iff.2 some_
    split <;> omega
  generalize (if s.head? = some 0x2d then 1 else 0) = sign at sign_le ⊢
  rw [drop_ends sign_le, takeWhile_ends stop]
  have int_le : sign + ((s.drop sign).takeWhile isDigit).length ≤ s.length := by
    have le := (List.takeWhile_sublist isDigit : ((s.drop sign).takeWhile isDigit).Sublist (s.drop sign)).length_le
    rw [List.length_drop] at le
    omega
  split
  · rfl
  · rw [drop_ends int_le, fractionLength_ends stop]
    cases frac : fractionLength (s.drop (sign + ((s.drop sign).takeWhile isDigit).length)) with
    | none => rfl
    | some n =>
      have frac_le : n ≤ (s.drop (sign + ((s.drop sign).takeWhile isDigit).length)).length := fractionLength_le frac
      rw [List.length_drop] at frac_le
      simp only [Option.bind_eq_bind, Option.bind_some]
      rw [drop_ends (by omega), exponentLength_ends stop]

/-- A digit is none of the other bytes of a number. -/
theorem isDigit_head {b : UInt8} (h : isDigit b = true) : b ≠ 0x2d ∧ b ≠ 0x2e ∧ b ≠ 0x65 ∧ b ≠ 0x45 := by
  refine ⟨?_, ?_, ?_, ?_⟩ <;> rintro rfl <;> exact absurd h (by decide)

theorem takeWhile_decimal (n : Nat) : (decimal n).takeWhile isDigit = decimal n :=
  List.takeWhile_eq_self_iff.2 fun _ mem => isDigit_of_mem_decimal mem

/-- The length of digits. -/
theorem numberLength_digits (sign : Text) (minus : sign = [] ∨ sign = [0x2d]) (n : Nat) :
    numberLength (sign ++ decimal n) = some (sign.length + (decimal n).length, 0) := by
  have front : (sign ++ decimal n).head? = some 0x2d ↔ sign = [0x2d] := by
    rcases minus with rfl | rfl
    · rw [List.nil_append]
      constructor
      · intro head
        have digit := isDigit_of_mem_decimal (List.mem_of_head? head)
        exact absurd rfl (isDigit_head digit).1
      · intro no
        cases no
    · simp
  have len : (if (sign ++ decimal n).head? = some 0x2d then 1 else 0) = sign.length := by
    rcases minus with rfl | rfl
    · rw [if_neg (by rw [front]; simp)]
      rfl
    · rw [if_pos (front.2 rfl)]
      rfl
  unfold numberLength
  simp only [len, List.drop_left, takeWhile_decimal]
  rw [if_neg]
  · have past : (sign ++ decimal n).drop (sign.length + (decimal n).length) = [] := by
      apply List.drop_of_length_le
      simp
    have end_ : (sign ++ decimal n).drop (sign.length + (decimal n).length + 0) = [] := past
    rw [past, show fractionLength [] = some 0 from rfl]
    simp only [Option.bind_eq_bind, Option.bind_some]
    rw [end_]
    rfl
  · rintro (empty | ⟨zero, more⟩)
    · exact decimal_ne_nil n empty
    · have one := decimal_length_of_zero zero
      omega

/-- A number is read back. -/
theorem readNumber_posInt {n : Nat} (fits : n < 2 ^ 64) (stop : Ends rest) :
    readNumber readFloat (decimal n ++ rest) = some (.posInt n, rest) := by
  have len := numberLength_digits [] (.inl rfl) n
  have whole : numberLength (decimal n ++ rest) = some ((decimal n).length, 0) := by
    rw [numberLength_ends stop (decimal_ne_nil n)]
    simpa using len
  have front : ¬ (decimal n ++ rest).head? = some 0x2d := by
    rw [head_ends stop (by decide)]
    intro head
    exact absurd rfl (isDigit_head (isDigit_of_mem_decimal (List.mem_of_head? head))).1
  unfold readNumber
  rw [whole]
  simp only [Option.bind_eq_bind, Option.bind_some, if_neg front, List.take_left, List.drop_zero, List.drop_left,
    digitsValue_decimal]
  exact if_pos ⟨trivial, front, fits⟩

/-- A negative number is read back. -/
theorem readNumber_negInt {n : Nat} (pos : 0 < n) (fits : n ≤ 2 ^ 63) (stop : Ends rest) :
    readNumber readFloat (utf8 "-" ++ decimal n ++ rest) = some (.negInt n, rest) := by
  have len := numberLength_digits [0x2d] (.inr rfl) n
  have whole : numberLength (0x2d :: decimal n ++ rest) = some (1 + (decimal n).length, 0) := by
    rw [numberLength_ends stop (List.cons_ne_nil _ _)]
    exact len
  have cut : (0x2d :: decimal n ++ rest).take (1 + (decimal n).length) = 0x2d :: decimal n := by
    rw [Nat.add_comm]
    simp
  have past : (0x2d :: decimal n ++ rest).drop (1 + (decimal n).length) = rest := by
    rw [Nat.add_comm]
    simp
  show readNumber readFloat (0x2d :: decimal n ++ rest) = _
  unfold readNumber
  rw [whole]
  have minus : (0x2d :: decimal n ++ rest).head? = some 0x2d := rfl
  have value : digitsValue ((0x2d :: decimal n).drop 1) = n := digitsValue_decimal n
  simp only [Option.bind_eq_bind, Option.bind_some, cut, minus, if_true, value]
  rw [if_neg fun h => h.2.1 trivial, if_pos ⟨trivial, trivial, pos, fits⟩, past]
  rfl

/-- The printed text of a float: never that of an integer. -/
def IsFloat (printed : Text) : Prop :=
  ∃ int more, numberLength printed = some (int, more) ∧ int + more = printed.length ∧ 0 < more

/-- A float is read back as the reader of floats has it. -/
theorem readNumber_float {printed again : Text} (float : IsFloat printed) (reads : readFloat printed = some again)
    (stop : Ends rest) : readNumber readFloat (printed ++ rest) = some (.float again, rest) := by
  obtain ⟨int, more, len, whole, pos⟩ := float
  have some_ : printed ≠ [] := by
    rintro rfl
    rw [List.length_nil] at whole
    omega
  unfold readNumber
  rw [numberLength_ends stop some_, len]
  simp only [Option.bind_eq_bind, Option.bind_some]
  rw [if_neg (by omega), if_neg (by omega), whole, List.take_left, List.drop_left, reads]
  rfl

mutual

/-- How deep a value nests. -/
def Json.depth : Json → Nat
  | .arr items => Json.depthItems items + 1
  | .obj fields => Json.depthFields fields + 1
  | _ => 0

/-- The depth of items. -/
def Json.depthItems : List Json → Nat
  | [] => 0
  | v :: items => max v.depth (Json.depthItems items)

/-- The depth of fields. -/
def Json.depthFields : List (Text × Json) → Nat
  | [] => 0
  | (_, v) :: fields => max v.depth (Json.depthFields fields)

end

section
variable (readFloat)

mutual

/-- What a value is once it was written and read again: its floats are read anew. -/
def Json.reread : Json → Json
  | .num (.float printed) => .num (.float ((readFloat printed).getD printed))
  | .arr items => .arr (Json.rereadItems items)
  | .obj fields => .obj (Json.rereadFields fields)
  | v => v

/-- Each item as it is read back. -/
def Json.rereadItems : List Json → List Json
  | [] => []
  | v :: items => v.reread :: Json.rereadItems items

/-- Each field as it is read back. -/
def Json.rereadFields : List (Text × Json) → List (Text × Json)
  | [] => []
  | (key, v) :: fields => (key, v.reread) :: Json.rereadFields fields

end

/-- A number as the writer has it: within 64 bits, or a float that can be read. -/
def JsonNumber.Canonical : JsonNumber → Prop
  | .posInt n => n < 2 ^ 64
  | .negInt n => 0 < n ∧ n ≤ 2 ^ 63
  | .float printed => IsFloat printed ∧ (readFloat printed).isSome = true

mutual

/-- A value as the JSON crate keeps it: a key occurs once in an object, integers have 64 bits, and floats are
finite, so that they can be read again. -/
def Json.Canonical : Json → Prop
  | .num n => n.Canonical readFloat
  | .arr items => Json.CanonicalItems items
  | .obj fields => (fields.map Prod.fst).Nodup ∧ Json.CanonicalFields fields
  | _ => True

/-- Each item is canonical. -/
def Json.CanonicalItems : List Json → Prop
  | [] => True
  | v :: items => v.Canonical ∧ Json.CanonicalItems items

/-- Each field is canonical. -/
def Json.CanonicalFields : List (Text × Json) → Prop
  | [] => True
  | (_, v) :: fields => v.Canonical ∧ Json.CanonicalFields fields

end
end

/-- The keys are read back as they were. -/
theorem rereadFields_keys (fields : List (Text × Json)) :
    (Json.rereadFields readFloat fields).map Prod.fst = fields.map Prod.fst := by
  induction fields with
  | nil => rfl
  | cons field fields ih =>
    obtain ⟨key, v⟩ := field
    simp only [Json.rereadFields, List.map_cons, ih]

/-- Fields with keys of their own are kept in order. -/
theorem insertFields_append {kept fields : List (Text × Json)} (once : ((kept ++ fields).map Prod.fst).Nodup) :
    fields.foldl (fun kept field => insertField kept field.1 field.2) kept = kept ++ fields := by
  induction fields generalizing kept with
  | nil => simp
  | cons field fields ih =>
    have new : insertField kept field.1 field.2 = kept ++ [field] := by
      unfold insertField
      rw [if_neg]
      intro here
      obtain ⟨other, mem, same⟩ := List.any_eq_true.1 here
      rw [List.map_append, List.map_cons] at once
      have apart := (List.nodup_append.1 once).2.2 other.1 (List.mem_map_of_mem mem) field.1 List.mem_cons_self
      exact apart (beq_iff_eq.1 same)
    rw [List.foldl_cons, new, ih (by simpa using once)]
    simp

/-- An object whose keys are distinct keeps its fields. -/
theorem insertFields_of_nodup {fields : List (Text × Json)} (once : (fields.map Prod.fst).Nodup) :
    insertFields fields = fields := @insertFields_append [] fields once

/-- The parts of a list behind its bracket, or behind the parts before. -/
def listText (first : Bool) (parts : List Text) : Text :=
  if first then commaSeparated parts else parts.flatMap fun part => utf8 "," ++ part

/-- A list is its first part and the others, each behind a comma. -/
theorem commaSeparated_cons (part : Text) (parts : List Text) :
    commaSeparated (part :: parts) = part ++ listText false parts := by
  induction parts generalizing part with
  | nil => simp [commaSeparated, listText]
  | cons next parts ih =>
    rw [commaSeparated, ih]
    · simp [listText]
    · simp

/-- A part of a list, behind a comma where it is not the first. -/
theorem listText_cons (first : Bool) (part : Text) (parts : List Text) :
    listText first (part :: parts) = (if first then [] else [0x2c]) ++ part ++ listText false parts := by
  cases first with
  | true => simp [listText, commaSeparated_cons]
  | false =>
    simp [listText]
    rfl

/-- A hard byte is not skipped. -/
theorem skipJsonSpace_cons {b : UInt8} (hard : isJsonSpace b = false) : skipJsonSpace (b :: s) = b :: s := by
  simp [skipJsonSpace, hard]

/-- A number begins with a digit or a minus. -/
theorem numberLength_front {int more : Nat} (h : numberLength s = some (int, more)) :
    ∃ b t, s = b :: t ∧ (b = 0x2d ∨ isDigit b = true) := by
  cases s with
  | nil =>
    exfalso
    have empty : numberLength [] = none := by decide
    rw [empty] at h
    cases h
  | cons b t =>
    refine ⟨b, t, rfl, ?_⟩
    by_cases minus : b = 0x2d
    · exact .inl minus
    · right
      by_contra other
      unfold numberLength at h
      simp [minus, other] at h

/-- The front of a number is the front of nothing else. -/
theorem number_front {b : UInt8} (h : b = 0x2d ∨ isDigit b = true) :
    isJsonSpace b = false ∧ b ≠ 0x22 ∧ b ≠ 0x5b ∧ b ≠ 0x5d ∧ b ≠ 0x7b ∧ b ≠ 0x6e ∧ b ≠ 0x74 ∧ b ≠ 0x66 := by
  rcases h with rfl | digit
  · decide
  · refine ⟨?_, ?_, ?_, ?_, ?_, ?_, ?_, ?_⟩
    · by_contra space
      rw [Bool.not_eq_false] at space
      simp only [isJsonSpace, Bool.or_eq_true, beq_iff_eq, or_assoc] at space
      rcases space with rfl | rfl | rfl | rfl <;> exact absurd digit (by decide)
    all_goals
      rintro rfl
      exact absurd digit (by decide)

/-- A number is written with the front of a number. -/
theorem JsonNumber.write_front {n : JsonNumber} (canonical : n.Canonical readFloat) :
    ∃ b t, n.write = b :: t ∧ (b = 0x2d ∨ isDigit b = true) := by
  cases n with
  | posInt n =>
    obtain ⟨b, t, shape⟩ := List.exists_cons_of_ne_nil (decimal_ne_nil n)
    exact ⟨b, t, shape, .inr (isDigit_of_mem_decimal (shape ▸ List.mem_cons_self))⟩
  | negInt n => exact ⟨0x2d, decimal n, rfl, .inl rfl⟩
  | float printed =>
    obtain ⟨⟨int, more, len, -⟩, -⟩ := canonical
    exact numberLength_front len

/-- A number that was written is read back. -/
theorem readNumber_write {n : JsonNumber} (canonical : n.Canonical readFloat) (stop : Ends rest) :
    (readNumber readFloat (n.write ++ rest)).map (fun (n, rest) => (Json.num n, rest)) =
      some ((Json.num n).reread readFloat, rest) := by
  cases n with
  | posInt n =>
    rw [JsonNumber.write, readNumber_posInt canonical stop]
    rfl
  | negInt n =>
    rw [JsonNumber.write, readNumber_negInt canonical.1 canonical.2 stop]
    rfl
  | float printed =>
    obtain ⟨again, reads⟩ := Option.isSome_iff_exists.1 canonical.2
    rw [JsonNumber.write, readNumber_float canonical.1 reads stop]
    simp [Json.reread, reads]

/-- The first byte of a written value. -/
theorem Json.write_front {v : Json} (canonical : v.Canonical readFloat) :
    ∃ b t, v.write = b :: t ∧ isJsonSpace b = false ∧ b ≠ 0x5d := by
  cases v with
  | null => exact ⟨0x6e, utf8 "ull", by decide, by decide, by decide⟩
  | bool b =>
    cases b with
    | true => exact ⟨0x74, utf8 "rue", by decide, by decide, by decide⟩
    | false => exact ⟨0x66, utf8 "alse", by decide, by decide, by decide⟩
  | num n =>
    obtain ⟨b, t, shape, front⟩ := JsonNumber.write_front canonical
    have apart := number_front front
    exact ⟨b, t, shape, apart.1, apart.2.2.2.1⟩
  | str s => exact ⟨0x22, _, rfl, by decide, by decide⟩
  | arr items => exact ⟨0x5b, _, rfl, by decide, by decide⟩
  | obj fields => exact ⟨0x7b, _, rfl, by decide, by decide⟩

/-- A value with the front of a number is a number. -/
theorem readValue_number {fuel d : Nat} {lex : Lexer} {b : UInt8} (front : b = 0x2d ∨ isDigit b = true) :
    readValue lex (fuel + 1) d (b :: s) = (lex.number (b :: s)).map fun (n, rest) => (.num n, rest) := by
  obtain ⟨hard, quote, bracket, -, brace, null, true_, false_⟩ := number_front front
  rw [readValue, skipJsonSpace_cons hard]
  simp only [if_neg quote, if_neg bracket, if_neg brace, if_neg null, if_neg true_, if_neg false_]

/-- A value of depth `depth` is read, as `v`, by a reader that goes `d` deep, whatever follows it. -/
def ReadsAs (fuel d : Nat) (readFloat : Text → Option Text) (text : Text) (depth : Nat) (v : Json) : Prop :=
  ∀ rest, Ends rest → readValue (valueLexer readFloat) fuel d (text ++ rest) = if depth ≤ d then some (v, rest) else none

section
variable {fuel d : Nat} {v : Json} {items : List Json} {fields : List (Text × Json)}

/-- The end of a list is an end. -/
theorem ends_listText (parts : List Text) {close : UInt8} (closes : close = 0x5d ∨ close = 0x7d) :
    Ends (listText false parts ++ close :: rest) := by
  intro b head
  cases parts with
  | nil =>
    simp only [listText, List.flatMap_nil, List.nil_append, List.head?_cons, Option.some.injEq, Bool.false_eq_true,
      if_false] at head
    subst head
    exact .inr closes
  | cons part parts =>
    rw [listText_cons] at head
    simp only [Bool.false_eq_true, if_false, List.cons_append, List.nil_append, List.head?_cons, Option.some.injEq] at head
    exact .inl head.symm

/-- A list ends at its bracket. -/
theorem readItems_nil (first : Bool) :
    readItems (valueLexer readFloat) (fuel + 1) d first (listText first [] ++ 0x5d :: rest) = some ([], rest) := by
  have none : listText first [] = [] := by cases first <;> rfl
  rw [none, List.nil_append, readItems, skipJsonSpace_cons (by decide)]
  simp

/-- An item is read, then the others. -/
theorem readItems_cons (canonical : v.Canonical readFloat)
    (value : ReadsAs fuel d readFloat v.write v.depth (v.reread readFloat)) (first : Bool)
    (later : readItems (valueLexer readFloat) fuel d false (listText false (Json.writeItems items) ++ 0x5d :: rest) =
      if Json.depthItems items ≤ d then some (Json.rereadItems readFloat items, rest) else none) :
    readItems (valueLexer readFloat) (fuel + 1) d first (listText first (Json.writeItems (v :: items)) ++ 0x5d :: rest) =
      if Json.depthItems (v :: items) ≤ d then some (Json.rereadItems readFloat (v :: items), rest) else none := by
  obtain ⟨b, t, shape, hard, open_⟩ := Json.write_front canonical
  have here := value (listText false (Json.writeItems items) ++ 0x5d :: rest) (ends_listText _ (.inl rfl))
  have start : ∃ c after, skipJsonSpace (listText first (Json.writeItems (v :: items)) ++ 0x5d :: rest) = c :: after ∧
      c ≠ 0x5d ∧ (first = true ∨ c = 0x2c) ∧
      partStart first c after = v.write ++ (listText false (Json.writeItems items) ++ 0x5d :: rest) := by
    rw [Json.writeItems, listText_cons]
    cases first with
    | true =>
      refine ⟨b, t ++ (listText false (Json.writeItems items) ++ 0x5d :: rest), ?_, open_, .inl rfl, ?_⟩
      · rw [shape]
        simp [skipJsonSpace_cons hard]
      · rw [shape]
        rfl
    | false =>
      refine ⟨0x2c, v.write ++ (listText false (Json.writeItems items) ++ 0x5d :: rest), ?_, by decide, .inr rfl, rfl⟩
      simp [skipJsonSpace_cons (show isJsonSpace 0x2c = false by decide)]
  obtain ⟨c, after, skip, close, comma, part⟩ := start
  rw [readItems, skip]
  dsimp only
  rw [if_neg close, if_pos comma, part, here]
  rw [Json.depthItems, Json.rereadItems]
  by_cases deep : v.depth ≤ d
  · rw [if_pos deep]
    simp only [Option.bind_eq_bind, Option.bind_some, later]
    by_cases deeper : Json.depthItems items ≤ d
    · rw [if_pos deeper, if_pos (by omega)]
      rfl
    · rw [if_neg deeper, if_neg (by omega)]
      rfl
  · rw [if_neg deep, if_neg (by omega)]
    rfl

/-- An object ends at its brace. -/
theorem readFields_nil (first : Bool) :
    readFields (valueLexer readFloat) (fuel + 1) d first (listText first [] ++ 0x7d :: rest) = some ([], rest) := by
  have none : listText first [] = [] := by cases first <;> rfl
  rw [none, List.nil_append, readFields, skipJsonSpace_cons (by decide)]
  simp

/-- A field is read, then the others. -/
theorem readFields_cons {key : Text}
    (value : ReadsAs fuel d readFloat v.write v.depth (v.reread readFloat)) (first : Bool)
    (later : readFields (valueLexer readFloat) fuel d false (listText false (Json.writeFields fields) ++ 0x7d :: rest) =
      if Json.depthFields fields ≤ d then some (Json.rereadFields readFloat fields, rest) else none) :
    readFields (valueLexer readFloat) (fuel + 1) d first
        (listText first (Json.writeFields ((key, v) :: fields)) ++ 0x7d :: rest) =
      if Json.depthFields ((key, v) :: fields) ≤ d then some (Json.rereadFields readFloat ((key, v) :: fields), rest)
      else none := by
  have here := value (listText false (Json.writeFields fields) ++ 0x7d :: rest) (ends_listText _ (.inr rfl))
  let tail := v.write ++ (listText false (Json.writeFields fields) ++ 0x7d :: rest)
  let body := key.flatMap escapeByte ++ 0x22 :: 0x3a :: tail
  have start : ∃ c after, skipJsonSpace (listText first (Json.writeFields ((key, v) :: fields)) ++ 0x7d :: rest) =
      c :: after ∧ c ≠ 0x7d ∧ (first = true ∨ c = 0x2c) ∧ skipJsonSpace (partStart first c after) = 0x22 :: body := by
    have quote : isJsonSpace 0x22 = false := by decide
    rw [Json.writeFields, listText_cons]
    cases first with
    | true =>
      refine ⟨0x22, body, ?_, by decide, .inl rfl, skipJsonSpace_cons quote⟩
      have text : (if true = true then ([] : Text) else [0x2c]) ++ (writeString key ++ utf8 ":" ++ v.write) ++
          listText false (Json.writeFields fields) ++ 0x7d :: rest = 0x22 :: body := by
        simp [writeString, body, tail, List.append_assoc]
        rfl
      rw [text, skipJsonSpace_cons quote]
    | false =>
      refine ⟨0x2c, 0x22 :: body, ?_, by decide, .inr rfl, skipJsonSpace_cons quote⟩
      have text : (if false = true then ([] : Text) else [0x2c]) ++ (writeString key ++ utf8 ":" ++ v.write) ++
          listText false (Json.writeFields fields) ++ 0x7d :: rest = 0x2c :: 0x22 :: body := by
        simp [writeString, body, tail, List.append_assoc]
        rfl
      rw [text, skipJsonSpace_cons (by decide)]
  obtain ⟨c, after, skip, close, comma, part⟩ := start
  have key_ : readString body = some (key, 0x3a :: tail) := readString_escaped key _
  rw [readFields, skip]
  dsimp only
  rw [if_neg close, if_pos comma, part]
  dsimp only
  rw [if_pos rfl]
  have lex : (valueLexer readFloat).string body = some (key, 0x3a :: tail) := key_
  rw [lex]
  simp only [Option.bind_eq_bind, Option.bind_some]
  rw [skipJsonSpace_cons (by decide)]
  dsimp only
  rw [if_pos rfl, here, Json.depthFields, Json.rereadFields]
  by_cases deep : v.depth ≤ d
  · rw [if_pos deep]
    simp only [Option.bind_some, later]
    by_cases deeper : Json.depthFields fields ≤ d
    · rw [if_pos deeper, if_pos (by omega)]
      rfl
    · rw [if_neg deeper, if_neg (by omega)]
      rfl
  · rw [if_neg deep, if_neg (by omega)]
    rfl

/-- A number is read back. -/
theorem readsAs_number {n : JsonNumber} (canonical : n.Canonical readFloat) :
    ReadsAs (fuel + 1) d readFloat n.write 0 ((Json.num n).reread readFloat) := by
  intro rest stop
  obtain ⟨b, t, shape, front⟩ := JsonNumber.write_front canonical
  have number := readNumber_write canonical stop
  rw [shape, List.cons_append] at number ⊢
  rw [readValue_number front, if_pos (Nat.zero_le d)]
  exact number

/-- A text is read back. -/
theorem readsAs_str (text : Text) : ReadsAs (fuel + 1) d readFloat (writeString text) 0 (.str text) := by
  intro rest _
  have shape : writeString text ++ rest = 0x22 :: (text.flatMap escapeByte ++ 0x22 :: rest) := by
    simp [writeString]
  have lex : (valueLexer readFloat).string (text.flatMap escapeByte ++ 0x22 :: rest) = some (text, rest) :=
    readString_escaped text rest
  rw [shape, readValue, skipJsonSpace_cons (by decide)]
  dsimp only
  rw [if_pos rfl, lex, if_pos (Nat.zero_le d)]
  rfl

/-- `null`, `true` and `false`. -/
theorem readsAs_word {word : Text} (named : (word, v) = (utf8 "null", .null) ∨ (word, v) = (utf8 "true", .bool true) ∨
    (word, v) = (utf8 "false", .bool false)) : ReadsAs (fuel + 1) d readFloat word 0 v := by
  intro rest _
  rw [if_pos (Nat.zero_le d)]
  rcases named with same | same | same <;> cases same
  · show readValue _ _ _ (0x6e :: (utf8 "ull" ++ rest)) = _
    rw [readValue, skipJsonSpace_cons (by decide)]
    rfl
  · show readValue _ _ _ (0x74 :: (utf8 "rue" ++ rest)) = _
    rw [readValue, skipJsonSpace_cons (by decide)]
    rfl
  · show readValue _ _ _ (0x66 :: (utf8 "alse" ++ rest)) = _
    rw [readValue, skipJsonSpace_cons (by decide)]
    rfl

/-- A list is read back, if its items are. -/
theorem readsAs_arr
    (inner : ∀ d rest, readItems (valueLexer readFloat) fuel d true (listText true (Json.writeItems items) ++ 0x5d :: rest) =
      if Json.depthItems items ≤ d then some (Json.rereadItems readFloat items, rest) else none) :
    ReadsAs (fuel + 1) d readFloat (Json.arr items).write (Json.arr items).depth ((Json.arr items).reread readFloat) := by
  intro rest _
  have shape : (Json.arr items).write ++ rest = 0x5b :: (listText true (Json.writeItems items) ++ 0x5d :: rest) := by
    simp only [Json.write, listText, if_true, List.append_assoc]
    rfl
  rw [shape, readValue, skipJsonSpace_cons (by decide), Json.depth, Json.reread]
  dsimp only
  rw [if_neg (by decide), if_pos rfl]
  cases d with
  | zero => simp
  | succ d =>
    rw [if_neg (Nat.succ_ne_zero d), Nat.add_sub_cancel, inner d rest]
    simp only [Nat.add_le_add_iff_right]
    split <;> rfl

/-- An object is read back, if its fields are. -/
theorem readsAs_obj (once : (fields.map Prod.fst).Nodup)
    (inner : ∀ d rest,
      readFields (valueLexer readFloat) fuel d true (listText true (Json.writeFields fields) ++ 0x7d :: rest) =
      if Json.depthFields fields ≤ d then some (Json.rereadFields readFloat fields, rest) else none) :
    ReadsAs (fuel + 1) d readFloat (Json.obj fields).write (Json.obj fields).depth ((Json.obj fields).reread readFloat) := by
  intro rest _
  have shape : (Json.obj fields).write ++ rest = 0x7b :: (listText true (Json.writeFields fields) ++ 0x7d :: rest) := by
    simp only [Json.write, listText, if_true, List.append_assoc]
    rfl
  have kept : insertFields (Json.rereadFields readFloat fields) = Json.rereadFields readFloat fields :=
    insertFields_of_nodup (by rwa [rereadFields_keys])
  rw [shape, readValue, skipJsonSpace_cons (by decide), Json.depth, Json.reread]
  dsimp only
  rw [if_neg (by decide), if_neg (by decide), if_pos rfl]
  cases d with
  | zero => simp
  | succ d =>
    rw [if_neg (Nat.succ_ne_zero d), Nat.add_sub_cancel, inner d rest]
    simp only [Nat.add_le_add_iff_right]
    split
    · simp [kept]
    · rfl

end

/-- The length of a list. -/
theorem length_listText_cons (first : Bool) (part : Text) (parts : List Text) :
    (listText first (part :: parts)).length =
      (if first then 0 else 1) + part.length + (listText false parts).length := by
  rw [listText_cons]
  cases first
  · simp
    omega
  · simp

mutual

/-- A value that was written is read back. -/
theorem readsAs_write : (v : Json) → (fuel d : Nat) → v.Canonical readFloat → 2 * v.write.length ≤ fuel + 1 →
    ReadsAs (fuel + 1) d readFloat v.write v.depth (v.reread readFloat)
  | .null, _, _, _, _ => readsAs_word (.inl rfl)
  | .bool true, _, _, _, _ => readsAs_word (.inr (.inl rfl))
  | .bool false, _, _, _, _ => readsAs_word (.inr (.inr rfl))
  | .num _, _, _, canonical, _ => readsAs_number canonical
  | .str text, _, _, _, _ => readsAs_str text
  | .arr items, fuel, _, canonical, enough => by
    apply readsAs_arr
    intro d rest
    apply readItems_write items true fuel d rest canonical
    have len : (Json.arr items).write.length = (listText true (Json.writeItems items)).length + 2 := by
      simp only [Json.write, listText, if_true, List.length_append]
      rw [show (utf8 "[").length = 1 from by decide, show (utf8 "]").length = 1 from by decide]
      omega
    omega
  | .obj fields, fuel, _, canonical, enough => by
    apply readsAs_obj canonical.1
    intro d rest
    apply readFields_write fields true fuel d rest canonical.2
    have len : (Json.obj fields).write.length = (listText true (Json.writeFields fields)).length + 2 := by
      simp only [Json.write, listText, if_true, List.length_append]
      rw [show (utf8 "\x7b").length = 1 from by decide, show (utf8 "\x7d").length = 1 from by decide]
      omega
    omega

/-- Items that were written are read back. -/
theorem readItems_write : (items : List Json) → (first : Bool) → (fuel d : Nat) → (rest : Text) →
    Json.CanonicalItems readFloat items → 2 * (listText first (Json.writeItems items)).length + 1 ≤ fuel →
    readItems (valueLexer readFloat) fuel d first (listText first (Json.writeItems items) ++ 0x5d :: rest) =
      if Json.depthItems items ≤ d then some (Json.rereadItems readFloat items, rest) else none
  | [], first, fuel + 1, d, rest, _, _ => by
    rw [Json.writeItems, readItems_nil first, Json.depthItems, if_pos (Nat.zero_le d)]
    rfl
  | v :: items, first, fuel + 1, d, rest, canonical, enough => by
    rw [Json.writeItems, length_listText_cons] at enough
    obtain ⟨b, t, shape, -⟩ := Json.write_front canonical.1
    have some_ : 1 ≤ v.write.length := by
      rw [shape]
      simp
    obtain ⟨more, rfl⟩ : ∃ more, fuel = more + 1 := ⟨fuel - 1, by omega⟩
    have value := readsAs_write v more d canonical.1 (by omega)
    have later := readItems_write items false (more + 1) d rest canonical.2 (by omega)
    exact readItems_cons canonical.1 value first later
  | _, _, 0, _, _, _, enough => by omega

/-- Fields that were written are read back. -/
theorem readFields_write : (fields : List (Text × Json)) → (first : Bool) → (fuel d : Nat) → (rest : Text) →
    Json.CanonicalFields readFloat fields → 2 * (listText first (Json.writeFields fields)).length + 1 ≤ fuel →
    readFields (valueLexer readFloat) fuel d first (listText first (Json.writeFields fields) ++ 0x7d :: rest) =
      if Json.depthFields fields ≤ d then some (Json.rereadFields readFloat fields, rest) else none
  | [], first, fuel + 1, d, rest, _, _ => by
    rw [Json.writeFields, readFields_nil first, Json.depthFields, if_pos (Nat.zero_le d)]
    rfl
  | (key, v) :: fields, first, fuel + 1, d, rest, canonical, enough => by
    rw [Json.writeFields, length_listText_cons, List.length_append] at enough
    obtain ⟨b, t, shape, -⟩ := Json.write_front canonical.1
    have some_ : 1 ≤ v.write.length := by
      rw [shape]
      simp
    obtain ⟨more, rfl⟩ : ∃ more, fuel = more + 1 := ⟨fuel - 1, by omega⟩
    have value := readsAs_write v more d canonical.1 (by omega)
    have later := readFields_write fields false (more + 1) d rest canonical.2 (by omega)
    exact readFields_cons value first later
  | _, _, 0, _, _, _, enough => by omega

end

/-- **What was written is read again**, its floats anew, unless it nests too deep. -/
theorem fromStr_write (serde : SerdeJson) {v : Json} (canonical : v.Canonical serde.readFloat) :
    serde.fromStr v.write = if v.depth ≤ 127 then some (v.reread serde.readFloat) else none := by
  have read := readsAs_write v (parseFuel v.write - 1) 127 canonical (by unfold parseFuel; omega) []
    (fun b none => by simp at none)
  have fuel : parseFuel v.write - 1 + 1 = parseFuel v.write := by
    unfold parseFuel
    omega
  rw [fuel, List.append_nil] at read
  unfold SerdeJson.fromStr
  rw [read]
  by_cases deep : v.depth ≤ 127
  · rw [if_pos deep, if_pos deep]
    rfl
  · rw [if_neg deep, if_neg deep]

/-- An escaped control byte has no newline. -/
theorem newline_not_mem_control : ∀ n < 0x20, 0x0a ∉ escapeByte n.toUInt8 := by
  decide

/-- A text is written without a newline. -/
theorem newline_not_mem_writeString (text : Text) : 0x0a ∉ writeString text := by
  intro mem
  simp only [writeString, List.mem_append, List.mem_flatMap, List.mem_singleton] at mem
  rcases mem with (quote | ⟨b, -, inside⟩) | quote
  · exact absurd quote (by decide)
  · by_cases control : b < 0x20
    · have small := newline_not_mem_control b.toNat (UInt8.lt_iff_toNat_lt.1 control)
      have own : b.toNat.toUInt8 = b := UInt8.ofNat_toNat
      exact small (own.symm ▸ inside)
    · have far : ∀ c : UInt8, c < 0x20 → b ≠ c := fun c low same => control (same ▸ low)
      unfold escapeByte at inside
      split at inside
      · exact absurd inside (by decide)
      split at inside
      · exact absurd inside (by decide)
      rw [if_neg (far _ (by decide)), if_neg (far _ (by decide)), if_neg (far _ (by decide)), if_neg (far _ (by decide)),
        if_neg (far _ (by decide))] at inside
      exact far 0x0a (by decide) (List.mem_singleton.1 inside).symm
  · exact absurd quote (by decide)

/-- A byte that stands in a number. -/
def inNumber (b : UInt8) : Bool := isDigit b || b == 0x2d || b == 0x2b || b == 0x2e || b == 0x65 || b == 0x45

theorem take_add (a k : Nat) : s.take (a + k) = s.take a ++ (s.drop a).take k := List.take_add

/-- Digits are bytes of a number. -/
theorem inNumber_of_digits {b : UInt8} (mem : b ∈ s.take (s.takeWhile isDigit).length) : inNumber b = true := by
  rw [← List.prefix_iff_eq_take.1 (List.takeWhile_prefix isDigit)] at mem
  simp [inNumber, List.mem_takeWhile_imp mem]

theorem inNumber_of_front {c : UInt8} (head : s.head? = some c) (number : inNumber c = true) :
    ∀ b ∈ s.take 1, inNumber b = true := by
  intro b mem
  cases s with
  | nil => simp at mem
  | cons x s =>
    simp only [List.head?_cons, Option.some.injEq, List.take_succ_cons, List.take_zero, List.mem_singleton] at head mem
    rw [mem, head]
    exact number

/-- A fraction has bytes of a number. -/
theorem fraction_inNumber {n : Nat} (h : fractionLength s = some n) : ∀ b ∈ s.take n, inNumber b = true := by
  intro b mem
  unfold fractionLength at h
  split at h
  · rename_i dot
    dsimp only at h
    split at h
    · cases h
    · cases h
      rw [take_add, List.mem_append] at mem
      rcases mem with front | digit
      · exact inNumber_of_front dot (by decide) b front
      · exact inNumber_of_digits digit
  · cases h
    simp at mem

/-- An exponent has bytes of a number. -/
theorem exponent_inNumber {n : Nat} (h : exponentLength s = some n) : ∀ b ∈ s.take n, inNumber b = true := by
  intro b mem
  unfold exponentLength at h
  split at h
  · rename_i letter
    have sign : ∀ b ∈ (s.drop 1).take (if (s.drop 1).head? = some 0x2b ∨ (s.drop 1).head? = some 0x2d then 1 else 0),
        inNumber b = true := by
      split
      · rename_i signed
        rcases signed with signed | signed
        · exact inNumber_of_front signed (by decide)
        · exact inNumber_of_front signed (by decide)
      · simp
    generalize (if (s.drop 1).head? = some 0x2b ∨ (s.drop 1).head? = some 0x2d then 1 else 0) = k at h sign
    dsimp only at h
    split at h
    · cases h
    · cases h
      rw [take_add, take_add, List.mem_append, List.mem_append] at mem
      rcases mem with (front | signed) | digit
      · rcases letter with letter | letter
        · exact inNumber_of_front letter (by decide) b front
        · exact inNumber_of_front letter (by decide) b front
      · exact sign b signed
      · exact inNumber_of_digits digit
  · cases h
    simp at mem

/-- A number has bytes of a number. -/
theorem number_inNumber {int more : Nat} (h : numberLength s = some (int, more)) :
    ∀ b ∈ s.take (int + more), inNumber b = true := by
  intro b mem
  unfold numberLength at h
  have sign : ∀ b ∈ s.take (if s.head? = some 0x2d then 1 else 0), inNumber b = true := by
    split
    · rename_i minus
      exact inNumber_of_front minus (by decide)
    · simp
  generalize (if s.head? = some 0x2d then 1 else 0) = k at h sign
  dsimp only at h
  split at h
  · cases h
  · simp only [Option.bind_eq_bind, Option.bind_eq_some_iff, Option.pure_def, Option.some.injEq, Prod.mk.injEq] at h
    obtain ⟨frac, readFrac, exp, readExp, rfl, rfl⟩ := h
    rw [← Nat.add_assoc, take_add, take_add, take_add, List.mem_append, List.mem_append, List.mem_append] at mem
    rcases mem with ((signed | digit) | fraction) | exponent
    · exact sign b signed
    · exact inNumber_of_digits digit
    · exact fraction_inNumber readFrac b fraction
    · exact exponent_inNumber readExp b exponent

/-- A number is written without a newline. -/
theorem newline_not_mem_number {n : JsonNumber} (canonical : n.Canonical readFloat) : 0x0a ∉ n.write := by
  intro mem
  cases n with
  | posInt n => exact absurd (isDigit_of_mem_decimal mem) (by decide)
  | negInt n =>
    rw [JsonNumber.write, List.mem_append] at mem
    rcases mem with minus | digit
    · exact absurd minus (by decide)
    · exact absurd (isDigit_of_mem_decimal digit) (by decide)
  | float printed =>
    obtain ⟨⟨int, more, len, whole, -⟩, -⟩ := canonical
    have number := number_inNumber len 0x0a
    rw [whole, List.take_length] at number
    exact absurd (number mem) (by decide)

/-- A list is written without a newline, if its parts are. -/
theorem newline_not_mem_commaSeparated {parts : List Text} (none : ∀ part ∈ parts, 0x0a ∉ part) :
    0x0a ∉ commaSeparated parts := by
  induction parts with
  | nil => simp [commaSeparated]
  | cons part parts ih =>
    have here := none part List.mem_cons_self
    have later := ih fun part mem => none part (List.mem_cons_of_mem _ mem)
    cases parts with
    | nil => simpa [commaSeparated] using here
    | cons next parts =>
      rw [commaSeparated]
      · simp only [List.mem_append, not_or]
        exact ⟨⟨here, by decide⟩, later⟩
      · simp

mutual

/-- A written value has one line. -/
theorem newline_not_mem_write : (v : Json) → v.Canonical readFloat → 0x0a ∉ v.write
  | .null, _ => by decide
  | .bool true, _ => by decide
  | .bool false, _ => by decide
  | .num _, canonical => newline_not_mem_number canonical
  | .str text, _ => newline_not_mem_writeString text
  | .arr items, canonical => by
    have inner := newline_not_mem_commaSeparated (newline_not_mem_writeItems items canonical)
    simp only [Json.write, List.mem_append, not_or]
    exact ⟨⟨by decide, inner⟩, by decide⟩
  | .obj fields, canonical => by
    have inner := newline_not_mem_commaSeparated (newline_not_mem_writeFields fields canonical.2)
    simp only [Json.write, List.mem_append, not_or]
    exact ⟨⟨by decide, inner⟩, by decide⟩

/-- Items are written without a newline. -/
theorem newline_not_mem_writeItems : (items : List Json) → Json.CanonicalItems readFloat items →
    ∀ part ∈ Json.writeItems items, 0x0a ∉ part
  | [], _ => fun part mem => by simp [Json.writeItems] at mem
  | v :: items, canonical => fun part mem => by
    rw [Json.writeItems, List.mem_cons] at mem
    rcases mem with rfl | later
    · exact newline_not_mem_write v canonical.1
    · exact newline_not_mem_writeItems items canonical.2 part later

/-- Fields are written without a newline. -/
theorem newline_not_mem_writeFields : (fields : List (Text × Json)) → Json.CanonicalFields readFloat fields →
    ∀ part ∈ Json.writeFields fields, 0x0a ∉ part
  | [], _ => fun part mem => by simp [Json.writeFields] at mem
  | (key, v) :: fields, canonical => fun part mem => by
    rw [Json.writeFields, List.mem_cons] at mem
    rcases mem with rfl | later
    · have value := newline_not_mem_write v canonical.1
      simp only [List.mem_append, not_or]
      exact ⟨⟨newline_not_mem_writeString key, by decide⟩, value⟩
    · exact newline_not_mem_writeFields fields canonical.2 part later

end

end AgenticStack.Library
