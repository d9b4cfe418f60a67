import AgenticStack.Library.Text

/-!
# The body of a JSON string

A string body is a sequence of units: a plain byte, a two-byte escape, a
`\u` escape of six bytes, or a surrogate pair of twelve. `decodeUnit` reads one
unit, `decodeBody` a body, and `readString` a body up to its closing quote.
A unit is decided by its own bytes, so a body can be decoded piece by piece.
-/

namespace AgenticStack.Library
set_option autoImplicit false

/-- The number a digit stands for. -/
def hexDigitValue (b : UInt8) : Option Nat :=
  if 0x30 ≤ b ∧ b ≤ 0x39 then some (b.toNat - 0x30)
  else if 0x61 ≤ b ∧ b ≤ 0x66 then some (b.toNat - 0x57)
  else if 0x41 ≤ b ∧ b ≤ 0x46 then some (b.toNat - 0x37)
  else none

/-- The code unit four hex digits stand for. -/
def hexQuad : Text → Option Nat
  | [a, b, c, d] => do
    let a ← hexDigitValue a
    let b ← hexDigitValue b
    let c ← hexDigitValue c
    let d ← hexDigitValue d
    return ((a * 16 + b) * 16 + c) * 16 + d
  | _ => none

/-- Whether a unit is the first of a pair. -/
def isLeadSurrogate (n : Nat) : Bool := 0xd800 ≤ n && n ≤ 0xdbff

/-- Whether a unit is the second of a pair. -/
def isTrailSurrogate (n : Nat) : Bool := 0xdc00 ≤ n && n ≤ 0xdfff

/-- The UTF-8 bytes of a code point. -/
def encodeUtf8 (n : Nat) : Text :=
  if n < 0x80 then [n.toUInt8]
  else if n < 0x800 then [(0xc0 + n / 0x40).toUInt8, (0x80 + n % 0x40).toUInt8]
  else if n < 0x10000 then
    [(0xe0 + n / 0x1000).toUInt8, (0x80 + n / 0x40 % 0x40).toUInt8, (0x80 + n % 0x40).toUInt8]
  else
    [(0xf0 + n / 0x40000).toUInt8, (0x80 + n / 0x1000 % 0x40).toUInt8, (0x80 + n / 0x40 % 0x40).toUInt8,
      (0x80 + n % 0x40).toUInt8]

/-- The byte that an escape of one letter stands for. -/
def simpleEscape (e : UInt8) : Option UInt8 :=
  if e = 0x22 then some 0x22 else if e = 0x5c then some 0x5c else if e = 0x2f then some 0x2f
  else if e = 0x62 then some 0x08 else if e = 0x66 then some 0x0c else if e = 0x6e then some 0x0a
  else if e = 0x72 then some 0x0d else if e = 0x74 then some 0x09 else none

/-- The text after `\u`: a code unit, and its trailing half when it is a leading surrogate. -/
def decodeUnicode (s : Text) : Option (Text × Nat) :=
  match hexQuad (s.take 4) with
  | none => none
  | some n =>
    if isTrailSurrogate n then none
    else if isLeadSurrogate n then
      if (s.drop 4).take 2 = [0x5c, 0x75] then
        match hexQuad ((s.drop 6).take 4) with
        | none => none
        | some m =>
          if isTrailSurrogate m then some (encodeUtf8 ((n - 0xd800) * 0x400 + (m - 0xdc00) + 0x10000), 12) else none
      else none
    else some (encodeUtf8 n, 6)

/-- The first unit of a body: what it stands for, and its length. -/
def decodeUnit : Text → Option (Text × Nat)
  | [] => none
  | b :: rest =>
    if b = 0x22 then none
    else if b = 0x5c then match rest with
      | [] => none
      | e :: more => if e = 0x75 then decodeUnicode more else (simpleEscape e).map fun c => ([c], 2)
    else if b < 0x20 then none
    else some ([b], 1)

/-- The length of a `\u` escape, from what follows it: 0 when the text ends inside it. -/
def scanUnicode (s : Text) : Nat :=
  if s.length < 4 then 0
  else match hexQuad (s.take 4) with
    | none => 6
    | some n => if isLeadSurrogate n then (if s.length < 10 then 0 else 12) else 6

/-- The length of the first unit as far as its shape tells, 0 when the text
ends inside it, or at a quote. The escape need not be a valid one. -/
def scanUnit : Text → Nat
  | [] => 0
  | b :: rest =>
    if b = 0x22 then 0
    else if b = 0x5c then match rest with
      | [] => 0
      | e :: more => if e = 0x75 then scanUnicode more else 2
    else 1

variable {s t u : Text} {n : Nat}

/-- Four digits are four bytes. -/
theorem hexQuad_length {q : Text} (h : hexQuad q = some n) : q.length = 4 := by
  unfold hexQuad at h
  split at h
  · rfl
  · simp at h

/-- An escape is within the text. -/
theorem scanUnicode_le : scanUnicode s ≤ s.length + 2 := by
  unfold scanUnicode
  grind

theorem take_append_left {k : Nat} (h : k ≤ s.length) : (s ++ t).take k = s.take k :=
  List.take_append_of_le_length h

theorem take_drop_append_left {i k : Nat} (h : i + k ≤ s.length) : ((s ++ t).drop i).take k = (s.drop i).take k := by
  rw [List.drop_append_of_le_length (by omega), take_append_left (by simp; omega)]

/-- An escape ends where it did when more follows. -/
theorem scanUnicode_append (h : scanUnicode s ≠ 0) : scanUnicode (s ++ t) = scanUnicode s := by
  unfold scanUnicode at h ⊢
  by_cases short : s.length < 4
  · simp [short] at h
  · have long : ¬ (s ++ t).length < 4 := by simp; omega
    rw [take_append_left (by omega)]
    simp only [short, long, if_false] at h ⊢
    split
    · rfl
    · by_cases short10 : s.length < 10
      · simp_all
      · have long10 : ¬ (s ++ t).length < 10 := by simp; omega
        simp only [short10, long10]

/-- An escape stands for the same when more follows. -/
theorem decodeUnicode_append (h : scanUnicode s ≠ 0) : decodeUnicode (s ++ t) = decodeUnicode s := by
  unfold scanUnicode at h
  unfold decodeUnicode
  by_cases short : s.length < 4
  · simp [short] at h
  · rw [take_append_left (by omega)]
    cases quad : hexQuad (s.take 4) with
    | none => rfl
    | some n =>
      by_cases lead : isLeadSurrogate n = true
      · have long : 10 ≤ s.length := by
          by_contra short10
          simp [short, quad, lead] at h
          omega
        rw [take_drop_append_left (by omega), take_drop_append_left (by omega)]
      · simp [lead]

/-- An escape that decodes is scanned. -/
theorem scanUnicode_of_decode (h : decodeUnicode s = some (u, n)) : scanUnicode s = n := by
  unfold decodeUnicode at h
  cases quad : hexQuad (s.take 4) with
  | none => simp [quad] at h
  | some k =>
    have long := hexQuad_length quad
    have short : ¬ s.length < 4 := by simp at long; omega
    simp only [quad] at h
    by_cases trail : isTrailSurrogate k = true
    · simp [trail] at h
    · by_cases lead : isLeadSurrogate k = true
      · rw [if_neg trail, if_pos lead] at h
        by_cases pair : (s.drop 4).take 2 = [0x5c, 0x75]
        · rw [if_pos pair] at h
          cases quad2 : hexQuad ((s.drop 6).take 4) with
          | none => simp [quad2] at h
          | some m =>
            have long2 := hexQuad_length quad2
            have short10 : ¬ s.length < 10 := by simp at long2; omega
            simp only [quad2, Option.ite_none_right_eq_some, Option.some.injEq, Prod.mk.injEq] at h
            simp [scanUnicode, short, quad, lead, short10, h.2.2]
        · rw [if_neg pair] at h
          simp at h
      · simp [trail, lead] at h
        simp [scanUnicode, short, quad, lead, h.2]

/-- A unit is within the text. -/
theorem scanUnit_le : scanUnit s ≤ s.length := by
  cases s with
  | nil => simp [scanUnit]
  | cons b rest =>
    cases rest with
    | nil => simp only [scanUnit]; grind
    | cons e more =>
      have := @scanUnicode_le more
      simp only [scanUnit]
      grind

/-- A unit ends where it did when more follows. -/
theorem scanUnit_append (h : scanUnit s ≠ 0) : scanUnit (s ++ t) = scanUnit s := by
  cases s with
  | nil => simp [scanUnit] at h
  | cons b rest =>
    cases rest with
    | nil => by_cases hb : b = 0x5c <;> simp_all [scanUnit]
    | cons e more =>
      by_cases hb : b = 0x22
      · simp [scanUnit, hb] at h
      · by_cases hs : b = 0x5c
        · by_cases he : e = 0x75
          · simp only [scanUnit, hs, he, List.cons_append] at h ⊢
            simpa using scanUnicode_append (by simpa using h)
          · simp [scanUnit, hs, he]
        · simp [scanUnit, hb, hs]

/-- A complete unit is decoded the same whatever follows it. -/
theorem decodeUnit_append (h : scanUnit s ≠ 0) : decodeUnit (s ++ t) = decodeUnit s := by
  cases s with
  | nil => simp [scanUnit] at h
  | cons b rest =>
    cases rest with
    | nil => by_cases hb : b = 0x5c <;> simp_all [scanUnit, decodeUnit]
    | cons e more =>
      by_cases hs : b = 0x5c
      · by_cases he : e = 0x75
        · simp only [scanUnit, decodeUnit, hs, he, List.cons_append] at h ⊢
          simpa using decodeUnicode_append (by simpa using h)
        · simp [decodeUnit, hs, he]
      · simp [decodeUnit, hs]

/-- A unit that decodes is scanned. -/
theorem scanUnit_of_decode (h : decodeUnit s = some (u, n)) : scanUnit s = n := by
  cases s with
  | nil => simp [decodeUnit] at h
  | cons b rest =>
    by_cases hb : b = 0x22
    · simp [decodeUnit, hb] at h
    · by_cases hs : b = 0x5c
      · cases rest with
        | nil => simp [decodeUnit, hs] at h
        | cons e more =>
          by_cases he : e = 0x75
          · simp only [decodeUnit, hs, he] at h
            simpa [scanUnit, hs, he] using scanUnicode_of_decode (by simpa using h)
          · rw [decodeUnit, if_neg hb, if_pos hs] at h
            simp only [he, if_false, Option.map_eq_some_iff, Prod.mk.injEq] at h
            obtain ⟨c, -, -, two⟩ := h
            simp [scanUnit, hs, he, two]
      · simp only [decodeUnit, hb, hs, if_false] at h
        split at h
        · simp at h
        · simp at h
          simp [scanUnit, hb, hs, h.2]

/-- A unit is not empty. -/
theorem decodeUnit_pos (h : decodeUnit s = some (u, n)) : 0 < n := by
  cases s with
  | nil => simp [decodeUnit] at h
  | cons b rest =>
    have scan := scanUnit_of_decode h
    unfold scanUnit scanUnicode at scan
    unfold decodeUnit decodeUnicode at h
    grind

/-- A unit is within the text. -/
theorem decodeUnit_le (h : decodeUnit s = some (u, n)) : n ≤ s.length := scanUnit_of_decode h ▸ scanUnit_le

/-- An escape is scanned from its own bytes. -/
theorem scanUnicode_take (h : scanUnicode s = n + 2) : scanUnicode (s.take n) = n + 2 := by
  unfold scanUnicode at h
  by_cases short : s.length < 4
  · simp [short] at h
  · have head (k : Nat) (hk : 4 ≤ k) : (s.take k).take 4 = s.take 4 := by rw [List.take_take, Nat.min_eq_left hk]
    simp only [short, if_false] at h
    cases quad : hexQuad (s.take 4) with
    | none =>
      have four : n = 4 := by simp [quad] at h; omega
      have long : ¬ (s.take n).length < 4 := by simp; omega
      simp only [scanUnicode, long, if_false, head n (by omega), quad]
      omega
    | some k =>
      by_cases lead : isLeadSurrogate k = true
      · simp only [quad, lead, if_true] at h
        have ten : n = 10 ∧ ¬ s.length < 10 := by split at h <;> simp_all
        have long : ¬ (s.take n).length < 4 := by simp; omega
        have long10 : ¬ (s.take n).length < 10 := by simp; omega
        simp only [scanUnicode, long, long10, if_false, head n (by omega), quad, lead, if_true]
        omega
      · have four : n = 4 := by simp [quad, lead] at h; omega
        have long : ¬ (s.take n).length < 4 := by simp; omega
        simp only [scanUnicode, long, if_false, head n (by omega), quad, lead]
        simp
        omega

/-- A complete unit is a unit by itself. -/
theorem scanUnit_take (h : scanUnit s ≠ 0) : scanUnit (s.take (scanUnit s)) = scanUnit s := by
  cases s with
  | nil => simp [scanUnit] at h
  | cons b rest =>
    by_cases hb : b = 0x22
    · simp [scanUnit, hb] at h
    · by_cases hs : b = 0x5c
      · cases rest with
        | nil => simp [scanUnit, hs] at h
        | cons e more =>
          by_cases he : e = 0x75
          · simp only [scanUnit, hs, he, if_true] at h ⊢
            obtain ⟨k, len⟩ : ∃ k, scanUnicode more = k + 2 := by
              refine ⟨scanUnicode more - 2, ?_⟩
              unfold scanUnicode at h ⊢
              grind
            have shape : ((0x5c : UInt8) :: 0x75 :: more).take (k + 2) = 0x5c :: 0x75 :: more.take k := rfl
            simp only [show ¬ ((0x5c : UInt8) = 0x22) by decide, if_false, len, shape]
            simpa [scanUnit] using scanUnicode_take len
          · simp [scanUnit, hs, he]
      · simp [scanUnit, hb, hs]

/-- What a unit stands for depends on its own bytes only. -/
theorem decodeUnit_take_append (h : scanUnit s ≠ 0) : decodeUnit (s.take (scanUnit s) ++ t) = decodeUnit s := by
  have own : scanUnit (s.take (scanUnit s)) ≠ 0 := by rwa [scanUnit_take h]
  have whole := @decodeUnit_append _ (s.drop (scanUnit s)) own
  rw [List.take_append_drop] at whole
  rw [decodeUnit_append own, whole]

/-- The body `s` stands for the text `d`. -/
inductive Decodes : Text → Text → Prop where
  | nil : Decodes [] []
  | unit {s u d : Text} {n : Nat} : decodeUnit s = some (u, n) → Decodes (s.drop n) d → Decodes s (u ++ d)

/-- A text up to its quote, unit by unit. -/
def readStringWithin : Nat → Text → Option (Text × Text)
  | 0, _ => none
  | fuel + 1, s =>
    if s.head? = some 0x22 then some ([], s.drop 1)
    else match decodeUnit s with
      | none => none
      | some (u, n) => (readStringWithin fuel (s.drop n)).map fun (d, rest) => (u ++ d, rest)

/-- The text of a string whose opening quote has been read, and what follows its closing quote. -/
def readString (s : Text) : Option (Text × Text) := readStringWithin s.length s

/-- What a whole body stands for, read between two quotes. -/
def decodeBody (s : Text) : Option Text :=
  match readString (s ++ [0x22]) with
  | some (d, []) => some d
  | _ => none

/-- How much of a body is made of complete units. -/
def scanBodyWithin : Nat → Text → Nat
  | 0, _ => 0
  | fuel + 1, s => if scanUnit s = 0 then 0 else scanUnit s + scanBodyWithin fuel (s.drop (scanUnit s))

/-- The length of the complete units at the front of `s`. -/
def scanBody (s : Text) : Nat := scanBodyWithin s.length s

/-- More fuel changes nothing where there is enough. -/
theorem scanBodyWithin_succ {fuel : Nat} (enough : s.length ≤ fuel) :
    scanBodyWithin (fuel + 1) s = scanBodyWithin fuel s := by
  induction fuel generalizing s with
  | zero =>
    have empty : s = [] := List.length_eq_zero_iff.1 (by omega)
    subst empty
    rfl
  | succ fuel ih =>
    show (if scanUnit s = 0 then 0 else scanUnit s + scanBodyWithin (fuel + 1) (s.drop (scanUnit s))) =
      if scanUnit s = 0 then 0 else scanUnit s + scanBodyWithin fuel (s.drop (scanUnit s))
    by_cases stop : scanUnit s = 0
    · rw [if_pos stop, if_pos stop]
    · rw [if_neg stop, if_neg stop, ih (by simp; omega)]

/-- Enough fuel scans the whole body. -/
theorem scanBodyWithin_eq {fuel : Nat} (enough : s.length ≤ fuel) : scanBodyWithin fuel s = scanBody s := by
  obtain ⟨k, rfl⟩ := Nat.exists_eq_add_of_le enough
  induction k with
  | zero => rfl
  | succ k ih => rw [← Nat.add_assoc, scanBodyWithin_succ (by omega), ih (by omega)]

/-- A body is its first unit and the rest. -/
theorem scanBody_eq : scanBody s = if scanUnit s = 0 then 0 else scanUnit s + scanBody (s.drop (scanUnit s)) := by
  have more := @scanBodyWithin_eq s (s.length + 1) (by omega)
  have rest := @scanBodyWithin_eq (s.drop (scanUnit s)) s.length (by simp)
  rw [← more, scanBodyWithin, rest]

theorem scanBody_stop (h : scanUnit s = 0) : scanBody s = 0 := by rw [scanBody_eq, if_pos h]

theorem scanBody_step (h : scanUnit s ≠ 0) : scanBody s = scanUnit s + scanBody (s.drop (scanUnit s)) := by
  conv_lhs => rw [scanBody_eq, if_neg h]

/-- Induction over the complete units at the front of a text. -/
theorem scan_induction {P : Text → Prop} (stop : ∀ s, scanUnit s = 0 → P s)
    (step : ∀ s, scanUnit s ≠ 0 → P (s.drop (scanUnit s)) → P s) (s : Text) : P s := by
  by_cases h : scanUnit s = 0
  · exact stop s h
  · exact step s h (scan_induction stop step (s.drop (scanUnit s)))
termination_by s.length
decreasing_by
  have := @scanUnit_le s
  simp only [List.length_drop]
  omega

/-- What is scanned is within the text. -/
theorem scanBody_le : scanBody s ≤ s.length := by
  induction s using scan_induction with
  | stop s h => simp [scanBody_stop h]
  | step s h ih =>
    have := @scanUnit_le s
    rw [scanBody_step h]
    simp only [List.length_drop] at ih
    omega

/-- **Scanning goes on where it stopped** when more text arrives. -/
theorem scanBody_append : scanBody (s ++ t) = scanBody s + scanBody (s.drop (scanBody s) ++ t) := by
  induction s using scan_induction with
  | stop s h => simp [scanBody_stop h]
  | step s h ih =>
    have more : scanUnit (s ++ t) ≠ 0 := by rwa [scanUnit_append h]
    rw [scanBody_step h, scanBody_step more, scanUnit_append h, List.drop_append_of_le_length scanUnit_le, ih,
      List.drop_drop, Nat.add_assoc]

/-- A scan stops for good where it stopped. -/
theorem scanBody_drop : scanBody (s.drop (scanBody s)) = 0 := by
  have again := @scanBody_append s []
  rw [List.append_nil, List.append_nil] at again
  omega

/-- Scanning stops at the end, a quote or a broken escape. -/
theorem scanUnit_eq_zero (stop : scanUnit s = 0) : s = [] ∨ s.head? = some 0x22 ∨ s.head? = some 0x5c := by
  cases s with
  | nil => exact .inl rfl
  | cons b rest =>
    by_cases quote : b = 0x22
    · exact .inr (.inl (by rw [quote]; rfl))
    · by_cases escape : b = 0x5c
      · exact .inr (.inr (by rw [escape]; rfl))
      · simp [scanUnit, quote, escape] at stop

/-- A scan stops at the end, at a quote or at a backslash, all of them outside any other character. -/
theorem isCharBoundary_scanBody : isCharBoundary s (scanBody s) = true := by
  have le := @scanBody_le s
  have stop : scanUnit (s.drop (scanBody s)) = 0 := by
    by_contra more
    have again := scanBody_step more
    rw [scanBody_drop] at again
    omega
  unfold isCharBoundary
  rw [Bool.or_eq_true]
  refine .inr ?_
  rw [← List.head?_drop]
  rcases scanUnit_eq_zero stop with empty | quote | escape
  · have len := congrArg List.length empty
    rw [List.length_drop, List.length_nil] at len
    rw [empty]
    exact beq_iff_eq.2 (by omega)
  · rw [quote]
    rfl
  · rw [escape]
    rfl

/-- A text of complete units. -/
def Complete (s : Text) : Prop := scanBody s = s.length

/-- What is scanned is complete. -/
theorem complete_take : Complete (s.take (scanBody s)) := by
  induction s using scan_induction with
  | stop s h =>
    rw [scanBody_stop h]
    rfl
  | step s h ih =>
    have cut : s.take (scanBody s) = s.take (scanUnit s) ++ (s.drop (scanUnit s)).take (scanBody (s.drop (scanUnit s))) := by
      rw [scanBody_step h, List.take_add]
    have own : scanUnit (s.take (scanUnit s)) ≠ 0 := by rwa [scanUnit_take h]
    have len : (s.take (scanUnit s)).length = scanUnit s := by simp [scanUnit_le]
    have first : scanUnit (s.take (scanBody s)) = scanUnit s := by rw [cut, scanUnit_append own, scanUnit_take h]
    have rest : (s.take (scanBody s)).drop (scanUnit s) = (s.drop (scanUnit s)).take (scanBody (s.drop (scanUnit s))) := by
      rw [cut, List.drop_append_of_le_length (by omega), List.drop_of_length_le (by omega), List.nil_append]
    unfold Complete at ih ⊢
    rw [scanBody_step (by rwa [first]), first, rest, ih, cut, List.length_append, len]

/-- Bodies decode one after the other. -/
theorem Decodes.append {a b x y : Text} (first : Decodes a x) (second : Decodes b y) : Decodes (a ++ b) (x ++ y) := by
  induction first with
  | nil => exact second
  | @unit s u d n read _ ih =>
    have own : scanUnit s ≠ 0 := by
      rw [scanUnit_of_decode read]
      exact Nat.pos_iff_ne_zero.1 (decodeUnit_pos read)
    rw [List.append_assoc]
    have front : decodeUnit (s ++ b) = some (u, n) := by rw [decodeUnit_append own, read]
    refine .unit front ?_
    rwa [List.drop_append_of_le_length (decodeUnit_le read)]

/-- A body that decodes is complete. -/
theorem Decodes.complete {e d : Text} (body : Decodes e d) : Complete e := by
  induction body with
  | nil => rfl
  | @unit s u d n read _ ih =>
    have len := scanUnit_of_decode read
    have pos := decodeUnit_pos read
    have le := decodeUnit_le read
    unfold Complete at ih ⊢
    rw [scanBody_step (by omega), len, ih, List.length_drop]
    omega

/-- The scan of a body stops at its closing quote. -/
theorem Decodes.scanBody_quote {e d : Text} (body : Decodes e d) (rest : Text) :
    scanBody (e ++ 0x22 :: rest) = e.length := by
  have whole : scanBody e = e.length := body.complete
  have stop : scanBody (0x22 :: rest) = 0 := scanBody_stop rfl
  rw [scanBody_append, whole, List.drop_length, List.nil_append, stop, Nat.add_zero]

/-- Complete units decode apart from what follows them. -/
theorem Decodes.split {a b z : Text} (cut : Complete a) (whole : Decodes (a ++ b) z) :
    ∃ x y, z = x ++ y ∧ Decodes a x ∧ Decodes b y := by
  induction a using scan_induction generalizing z with
  | stop s h =>
    have empty : s = [] := by
      have len : scanBody s = s.length := cut
      rw [scanBody_stop h] at len
      exact List.length_eq_zero_iff.1 len.symm
    subst empty
    exact ⟨[], z, rfl, .nil, whole⟩
  | step s h ih =>
    have cut' : Complete (s.drop (scanUnit s)) := by
      have len : scanBody s = s.length := cut
      rw [scanBody_step h] at len
      unfold Complete
      rw [List.length_drop]
      omega
    generalize text : s ++ b = t at whole
    cases whole with
    | nil =>
      rw [List.append_eq_nil_iff] at text
      rw [text.1] at h
      exact absurd rfl h
    | @unit _ u d n read rest =>
      subst text
      rw [decodeUnit_append h] at read
      have len := scanUnit_of_decode read
      rw [List.drop_append_of_le_length (decodeUnit_le read)] at rest
      rw [len] at ih cut'
      obtain ⟨x, y, rfl, left, right⟩ := ih cut' rest
      exact ⟨u ++ x, y, (List.append_assoc ..).symm, .unit read left, right⟩

/-- A body that decodes is read up to its quote. -/
theorem readStringWithin_of_decodes {e d : Text} (body : Decodes e d) (rest : Text) {fuel : Nat}
    (enough : e.length < fuel) : readStringWithin fuel (e ++ 0x22 :: rest) = some (d, rest) := by
  induction body generalizing fuel with
  | nil =>
    obtain ⟨k, rfl⟩ := Nat.exists_eq_add_of_lt enough
    rfl
  | @unit s u d n read _ ih =>
    obtain ⟨k, rfl⟩ := Nat.exists_eq_add_of_lt enough
    have len := scanUnit_of_decode read
    have pos := decodeUnit_pos read
    have le := decodeUnit_le read
    have more := @decodeUnit_append s (0x22 :: rest) (by omega)
    rw [read] at more
    have open_ : (s ++ 0x22 :: rest).head? ≠ some 0x22 := by
      intro quote
      cases s with
      | nil => simp [decodeUnit] at read
      | cons b s =>
        simp only [List.cons_append, List.head?_cons, Option.some.injEq] at quote
        rw [quote] at read
        exact absurd read (by simp [decodeUnit])
    have tail := @ih (s.length + k) (by simp; omega)
    rw [readStringWithin, if_neg open_, more]
    simp only [List.drop_append_of_le_length le, tail, Option.map_some]

/-- A text that is read has a body that decodes. -/
theorem decodes_of_readStringWithin {fuel : Nat} {s d rest : Text}
    (read : readStringWithin fuel s = some (d, rest)) : ∃ e, s = e ++ 0x22 :: rest ∧ Decodes e d := by
  induction fuel generalizing s d rest with
  | zero => simp [readStringWithin] at read
  | succ fuel ih =>
    rw [readStringWithin] at read
    by_cases quote : s.head? = some 0x22
    · rw [if_pos quote] at read
      obtain ⟨s', rfl⟩ := List.head?_eq_some_iff.1 quote
      simp only [Option.some.injEq, Prod.mk.injEq] at read
      obtain ⟨rfl, rfl⟩ := read
      exact ⟨[], rfl, .nil⟩
    · rw [if_neg quote] at read
      cases unit : decodeUnit s with
      | none => simp [unit] at read
      | some un =>
        obtain ⟨u, n⟩ := un
        simp only [unit, Option.map_eq_some_iff, Prod.mk.injEq] at read
        obtain ⟨⟨d', rest'⟩, tail, rfl, rfl⟩ := read
        obtain ⟨e, shape, body⟩ := ih tail
        have len := scanUnit_of_decode unit
        have pos := decodeUnit_pos unit
        have le := decodeUnit_le unit
        have front := @decodeUnit_take_append s e (by omega)
        rw [len, unit] at front
        refine ⟨s.take n ++ e, ?_, .unit front ?_⟩
        · rw [List.append_assoc, ← shape, List.take_append_drop]
        · rwa [List.drop_append_of_le_length (by simp; omega), List.drop_of_length_le (List.length_take_le n s),
          List.nil_append]

/-- A text is read exactly where its body decodes. -/
theorem readString_eq_some_iff {s d rest : Text} :
    readString s = some (d, rest) ↔ ∃ e, s = e ++ 0x22 :: rest ∧ Decodes e d := by
  constructor
  · exact decodes_of_readStringWithin
  · rintro ⟨e, rfl, body⟩
    exact readStringWithin_of_decodes body rest (by simp)

/-- **Reading a body between quotes is decoding it**: no unit of a body is a quote. -/
theorem decodeBody_eq_some_iff {s d : Text} : decodeBody s = some d ↔ Decodes s d := by
  unfold decodeBody
  constructor
  · intro read
    split at read
    · rename_i d' whole
      simp only [Option.some.injEq] at read
      subst read
      obtain ⟨e, shape, body⟩ := readString_eq_some_iff.1 whole
      rwa [(List.append_inj' shape rfl).1]
    · simp at read
  · intro body
    rw [readString_eq_some_iff.2 ⟨s, rfl, body⟩]

/-- A body decodes to one text. -/
theorem Decodes.unique {s d d' : Text} (first : Decodes s d) (second : Decodes s d') : d = d' := by
  have read := decodeBody_eq_some_iff.2 first
  rw [decodeBody_eq_some_iff.2 second, Option.some.injEq] at read
  exact read.symm

@[simp] theorem decodeBody_nil : decodeBody [] = some [] := by decide

/-- What follows complete units that decode is decoded by itself. -/
theorem Decodes.decodeBody_append {a x : Text} (front : Decodes a x) (b : Text) :
    decodeBody (a ++ b) = (decodeBody b).map (x ++ ·) := by
  cases rest : decodeBody b with
  | some y =>
    rw [decodeBody_eq_some_iff] at rest
    rw [Option.map_some, decodeBody_eq_some_iff]
    exact front.append rest
  | none =>
    rw [Option.map_none, Option.eq_none_iff_forall_ne_some]
    intro z whole
    rw [decodeBody_eq_some_iff] at whole
    obtain ⟨_, y, -, -, right⟩ := whole.split front.complete
    rw [decodeBody_eq_some_iff.2 right] at rest
    simp at rest

/-- A quote ends the body. -/
theorem not_decodes_quote {s d : Text} : ¬ Decodes (0x22 :: s) d := by
  intro body
  generalize text : (0x22 :: s : Text) = t at body
  cases body with
  | nil => simp at text
  | unit read _ =>
    subst text
    simp [decodeUnit] at read

/-- The complete units that have arrived of a string are a part of its body, and all of it when its
closing quote is next. -/
theorem Decodes.arrived {e d rest V : Text} (body : Decodes e d) (front : V <+: e ++ 0x22 :: rest) :
    ∃ d₁ d₂ e₂, e = V.take (scanBody V) ++ e₂ ∧ d = d₁ ++ d₂ ∧ Decodes (V.take (scanBody V)) d₁ ∧ Decodes e₂ d₂ ∧
      ((V.drop (scanBody V)).head? = some 0x22 → e₂ = []) := by
  rcases List.prefix_or_prefix_of_prefix front (List.prefix_append e (0x22 :: rest)) with ⟨e', rfl⟩ | ⟨V', rfl⟩
  · have cut : V ++ e' = V.take (scanBody V) ++ (V.drop (scanBody V) ++ e') := by
      rw [← List.append_assoc, List.take_append_drop]
    rw [cut] at body
    obtain ⟨d₁, d₂, rfl, left, right⟩ := body.split complete_take
    refine ⟨d₁, d₂, _, cut, rfl, left, right, fun quote => ?_⟩
    obtain ⟨V', shape⟩ := List.head?_eq_some_iff.1 quote
    rw [shape] at right
    exact absurd right not_decodes_quote
  · have later : V' <+: 0x22 :: rest := (List.prefix_append_right_inj e).1 front
    have stop : scanBody (e ++ V') = e.length := by
      cases V' with
      | nil => rw [List.append_nil]; exact body.complete
      | cons b V' =>
        obtain ⟨rfl, -⟩ := List.cons_prefix_cons.1 later
        exact body.scanBody_quote V'
    rw [stop, List.take_left]
    exact ⟨d, [], [], (List.append_nil e).symm, (List.append_nil d).symm, body, .nil, fun _ => rfl⟩

end AgenticStack.Library
