import AgenticStack.Library.JsonParse

/-!
# Facts about the JSON reader

What is read does not depend on the text behind it, nor on fuel or depth to
spare, and a laxer lexer reads all that a stricter one does. An array of strings
has a shape of its own, `StringItems`, over which it can be read in pieces.
-/

namespace AgenticStack.Library
set_option autoImplicit false

variable {s t r rest : Text} {b : UInt8}

/-- Only white space of JSON. -/
def Blank (w : Text) : Prop := ∀ b ∈ w, isJsonSpace b = true

/-- White space is skipped up to a hard byte. -/
theorem skipJsonSpace_eq_cons : skipJsonSpace s = b :: rest →
    isJsonSpace b = false ∧ ∃ w, Blank w ∧ s = w ++ b :: rest := by
  intro shape
  unfold skipJsonSpace at shape
  refine ⟨?_, s.takeWhile isJsonSpace, fun b mem => List.all_eq_true.1 List.all_takeWhile b mem, ?_⟩
  · have head := List.head?_dropWhile_not isJsonSpace s
    rw [shape] at head
    simpa using head
  · rw [← shape, List.takeWhile_append_dropWhile]

/-- Blanks before a hard byte are skipped. -/
theorem skipJsonSpace_blank {w : Text} (blank : Blank w) (hard : isJsonSpace b = false) :
    skipJsonSpace (w ++ b :: rest) = b :: rest := by
  unfold skipJsonSpace
  induction w with
  | nil => simp [hard]
  | cons x w ih =>
    have now : isJsonSpace x = true := blank x (by simp)
    simpa [now] using ih fun y mem => blank y (by simp [mem])

/-- Skipping stops at the same byte when more follows. -/
theorem skipJsonSpace_append (h : skipJsonSpace s = b :: rest) (t : Text) : skipJsonSpace (s ++ t) = b :: (rest ++ t) := by
  obtain ⟨hard, w, blank, rfl⟩ := skipJsonSpace_eq_cons h
  rw [List.append_assoc, List.cons_append, skipJsonSpace_blank blank hard]

/-- What is a space to JSON is one. -/
theorem dropSpace_of_isJsonSpace (h : isJsonSpace b = true) : dropSpace (b :: s) = some s := by
  unfold isJsonSpace at h
  unfold dropSpace
  grind

/-- Trimming skips the white space of JSON too. -/
theorem trimStart_of_skipJsonSpace (hard : isHard b = true) (h : skipJsonSpace s = b :: rest) : trimStart s = b :: rest := by
  obtain ⟨-, w, blank, rfl⟩ := skipJsonSpace_eq_cons h
  clear h
  induction w with
  | nil => exact trimStart_of_none (dropSpace_of_hard hard)
  | cons x w ih =>
    rw [List.cons_append, trimStart_of_some (dropSpace_of_isJsonSpace (blank x (by simp)))]
    exact ih fun y mem => blank y (by simp [mem])

theorem Blank.left {w w' : Text} (blank : Blank (w ++ w')) : Blank w := fun b mem => blank b (List.mem_append_left _ mem)

theorem Blank.right {w w' : Text} (blank : Blank (w ++ w')) : Blank w' := fun b mem => blank b (List.mem_append_right _ mem)

theorem Blank.nil : Blank [] := fun b mem => by simp at mem

/-- Blanks are trimmed. -/
theorem trimStart_blank {w : Text} (blank : Blank w) : trimStart (w ++ rest) = trimStart rest := by
  induction w with
  | nil => rfl
  | cons x w ih =>
    rw [List.cons_append, trimStart_of_some (dropSpace_of_isJsonSpace (blank x (by simp)))]
    exact ih fun y mem => blank y (by simp [mem])

/-- A start of a text ends in the white space at its front, or gets past it. -/
theorem prefix_blank_cases {V w : Text} (front : V <+: w ++ b :: rest) :
    (∃ w', w = V ++ w') ∨ ∃ V', V = w ++ b :: V' ∧ V' <+: rest := by
  rcases List.prefix_or_prefix_of_prefix front (List.prefix_append w (b :: rest)) with ⟨w', same⟩ | ⟨V', rfl⟩
  · exact .inl ⟨w', same.symm⟩
  · have later : V' <+: b :: rest := (List.prefix_append_right_inj w).1 front
    cases V' with
    | nil => exact .inl ⟨[], by simp⟩
    | cons x V' =>
      obtain ⟨rfl, tail⟩ := List.cons_prefix_cons.1 later
      exact .inr ⟨V', rfl, tail⟩

/-- `lex'` reads with `t` behind what `lex` reads without it. -/
structure Reads (lex lex' : Lexer) (t : Text) : Prop where
  string : ∀ s x r, lex.string s = some (x, r) → r.length < s.length ∧ ∃ y, lex'.string (s ++ t) = some (y, r ++ t)
  number : ∀ s n r, lex.number s = some (n, r) → r.length < s.length ∧
    ((t = [] ∨ r ≠ []) → ∃ m, lex'.number (s ++ t) = some (m, r ++ t))

variable {lex lex' : Lexer}

/-- What is taken of the front does not depend on what follows. -/
theorem take_eq_append {k : Nat} {front : Text} (len : front.length = k) (h : s.take k = front) :
    (s ++ t).take k = front ∧ (s ++ t).drop k = s.drop k ++ t := by
  have long : k ≤ s.length := by
    rw [← len, ← h, List.length_take] 
    omega
  exact ⟨by rw [List.take_append_of_le_length long, h], List.drop_append_of_le_length long⟩

/-- A part starts where it did when more follows. -/
theorem partStart_append (first : Bool) (b : UInt8) (rest t : Text) :
    partStart first b (rest ++ t) = partStart first b rest ++ t := by
  cases first <;> rfl

/-- Skipping leaves less. -/
theorem skipJsonSpace_length (h : skipJsonSpace s = b :: rest) : rest.length < s.length := by
  obtain ⟨-, w, -, rfl⟩ := skipJsonSpace_eq_cons h
  simp only [List.length_append, List.length_cons]
  omega

/-- Starting a part leaves no more. -/
theorem partStart_length {first : Bool} (h : skipJsonSpace s = b :: rest) : (partStart first b rest).length ≤ s.length := by
  have shorter := skipJsonSpace_length h
  cases first <;> simp only [partStart, Bool.false_eq_true, if_true, if_false, List.length_cons] <;> omega

/-- Twice the bytes read is fuel enough, and as many levels of nesting, behind any text. -/
structure ReadsOn (lex lex' : Lexer) (t : Text) (fuel : Nat) : Prop where
  value : ∀ d s v r, readValue lex fuel d s = some (v, r) → r.length < s.length ∧
    ∀ fuel' d', 2 * (s.length - r.length) ≤ fuel' → s.length - r.length ≤ d' → (t = [] ∨ r ≠ []) →
      ∃ v', readValue lex' fuel' d' (s ++ t) = some (v', r ++ t)
  items : ∀ d first s v r, readItems lex fuel d first s = some (v, r) → r.length < s.length ∧
    ∀ fuel' d', 2 * (s.length - r.length) + 1 ≤ fuel' → s.length - r.length ≤ d' →
      ∃ v', readItems lex' fuel' d' first (s ++ t) = some (v', r ++ t)
  fields : ∀ d first s v r, readFields lex fuel d first s = some (v, r) → r.length < s.length ∧
    ∀ fuel' d', 2 * (s.length - r.length) + 1 ≤ fuel' → s.length - r.length ≤ d' →
      ∃ v', readFields lex' fuel' d' first (s ++ t) = some (v', r ++ t)

variable {fuel : Nat}

/-- A value is read alike when more follows, if its parts are. -/
theorem readsOn_value (reads : Reads lex lex' t) (inner : ReadsOn lex lex' t fuel) {d : Nat} {v : Json}
    (h : readValue lex (fuel + 1) d s = some (v, r)) : r.length < s.length ∧
    ∀ fuel' d', 2 * (s.length - r.length) ≤ fuel' → s.length - r.length ≤ d' → (t = [] ∨ r ≠ []) →
      ∃ v', readValue lex' fuel' d' (s ++ t) = some (v', r ++ t) := by
  rw [readValue] at h
  cases skip : skipJsonSpace s with
  | nil => simp [skip] at h
  | cons b rest =>
    have shorter := skipJsonSpace_length skip
    simp only [skip] at h
    -- whatever is read, it is read behind the byte `b`
    suffices goal : r.length < s.length ∧ ∀ fuel' d', 2 * (s.length - r.length) ≤ fuel' + 1 → s.length - r.length ≤ d' →
        (t = [] ∨ r ≠ []) → ∃ v', readValue lex' (fuel' + 1) d' (s ++ t) = some (v', r ++ t) by
      refine ⟨goal.1, fun fuel' d' enough deep behind => ?_⟩
      obtain ⟨k, rfl⟩ : ∃ k, fuel' = k + 1 := ⟨fuel' - 1, by omega⟩
      exact goal.2 k d' enough deep behind
    simp only [readValue, skipJsonSpace_append skip t]
    split_ifs at h with quote bracket flat brace flat null ull true_ rue false_ alse
    · simp only [Option.map_eq_some_iff, Prod.exists, Prod.mk.injEq] at h
      obtain ⟨x, r', read, -, rfl⟩ := h
      obtain ⟨less, y, read'⟩ := reads.string _ _ _ read
      exact ⟨by omega, fun fuel' d' _ _ _ => ⟨.str y, by simp [quote, read']⟩⟩
    · simp only [Option.map_eq_some_iff, Prod.exists, Prod.mk.injEq] at h
      obtain ⟨x, r', read, -, rfl⟩ := h
      obtain ⟨less, more⟩ := inner.items _ _ _ _ _ read
      refine ⟨by omega, fun fuel' d' enough deep _ => ?_⟩
      obtain ⟨y, read'⟩ := more fuel' (d' - 1) (by omega) (by omega)
      have deeper : d' ≠ 0 := by omega
      exact ⟨.arr y, by simp [bracket, deeper, read']⟩
    · simp only [Option.map_eq_some_iff, Prod.exists, Prod.mk.injEq] at h
      obtain ⟨x, r', read, -, rfl⟩ := h
      obtain ⟨less, more⟩ := inner.fields _ _ _ _ _ read
      refine ⟨by omega, fun fuel' d' enough deep _ => ?_⟩
      obtain ⟨y, read'⟩ := more fuel' (d' - 1) (by omega) (by omega)
      have deeper : d' ≠ 0 := by omega
      exact ⟨.obj (insertFields y), by simp [brace, deeper, read']⟩
    · simp only [Option.some.injEq, Prod.mk.injEq] at h
      obtain ⟨-, rfl⟩ := h
      obtain ⟨front, back⟩ := @take_eq_append rest t 3 _ rfl ull
      exact ⟨by rw [List.length_drop]; omega, fun _ _ _ _ _ => ⟨.null, by simp [null, front, back]⟩⟩
    · simp only [Option.some.injEq, Prod.mk.injEq] at h
      obtain ⟨-, rfl⟩ := h
      obtain ⟨front, back⟩ := @take_eq_append rest t 3 _ rfl rue
      exact ⟨by rw [List.length_drop]; omega, fun _ _ _ _ _ => ⟨.bool true, by simp [true_, front, back]⟩⟩
    · simp only [Option.some.injEq, Prod.mk.injEq] at h
      obtain ⟨-, rfl⟩ := h
      obtain ⟨front, back⟩ := @take_eq_append rest t 4 _ rfl alse
      exact ⟨by rw [List.length_drop]; omega, fun _ _ _ _ _ => ⟨.bool false, by simp [false_, front, back]⟩⟩
    · simp only [Option.map_eq_some_iff, Prod.exists, Prod.mk.injEq] at h
      obtain ⟨x, r', read, -, rfl⟩ := h
      obtain ⟨less, more⟩ := reads.number _ _ _ read
      rw [List.length_cons] at less
      refine ⟨by omega, fun fuel' d' _ _ behind => ?_⟩
      obtain ⟨y, read'⟩ := more behind
      rw [List.cons_append] at read'
      exact ⟨.num y, by simp [quote, bracket, brace, null, true_, false_, read']⟩

/-- Items are read alike when more follows, if values are. -/
theorem readsOn_items (inner : ReadsOn lex lex' t fuel) {d : Nat} {first : Bool} {v : List Json}
    (h : readItems lex (fuel + 1) d first s = some (v, r)) : r.length < s.length ∧
    ∀ fuel' d', 2 * (s.length - r.length) + 1 ≤ fuel' → s.length - r.length ≤ d' →
      ∃ v', readItems lex' fuel' d' first (s ++ t) = some (v', r ++ t) := by
  rw [readItems] at h
  cases skip : skipJsonSpace s with
  | nil => simp [skip] at h
  | cons b rest =>
    have shorter := skipJsonSpace_length skip
    have start := @partStart_length _ _ _ first skip
    simp only [skip] at h
    split_ifs at h with bracket more
    · simp only [Option.some.injEq, Prod.mk.injEq] at h
      obtain ⟨-, rfl⟩ := h
      refine ⟨shorter, fun fuel' d' enough _ => ⟨[], ?_⟩⟩
      obtain ⟨k, rfl⟩ : ∃ k, fuel' = k + 1 := ⟨fuel' - 1, by omega⟩
      simp [readItems, skipJsonSpace_append skip t, bracket]
    · simp only [Option.bind_eq_bind, Option.bind_eq_some_iff, Prod.exists, Option.pure_def, Option.some.injEq,
        Prod.mk.injEq] at h
      obtain ⟨x, mid, value, xs, r', tail, -, rfl⟩ := h
      have behind : mid ≠ [] := by
        rintro rfl
        cases fuel <;> simp [readItems, skipJsonSpace] at tail
      obtain ⟨less, valueOn⟩ := inner.value _ _ _ _ value
      obtain ⟨less', itemsOn⟩ := inner.items _ _ _ _ _ tail
      refine ⟨by omega, fun fuel' d' enough deep => ?_⟩
      obtain ⟨k, rfl⟩ : ∃ k, fuel' = k + 1 := ⟨fuel' - 1, by omega⟩
      obtain ⟨y, value'⟩ := valueOn k d' (by omega) (by omega) (.inr behind)
      obtain ⟨ys, tail'⟩ := itemsOn k d' (by omega) (by omega)
      refine ⟨y :: ys, ?_⟩
      simp only [readItems, skipJsonSpace_append skip t]
      rw [if_neg bracket, if_pos more, partStart_append]
      simp [value', tail']

/-- Fields are read alike when more follows, if values are. -/
theorem readsOn_fields (reads : Reads lex lex' t) (inner : ReadsOn lex lex' t fuel) {d : Nat} {first : Bool}
    {v : List (Text × Json)} (h : readFields lex (fuel + 1) d first s = some (v, r)) : r.length < s.length ∧
    ∀ fuel' d', 2 * (s.length - r.length) + 1 ≤ fuel' → s.length - r.length ≤ d' →
      ∃ v', readFields lex' fuel' d' first (s ++ t) = some (v', r ++ t) := by
  rw [readFields] at h
  cases skip : skipJsonSpace s with
  | nil => simp [skip] at h
  | cons b rest =>
    have shorter := skipJsonSpace_length skip
    have start := @partStart_length _ _ _ first skip
    simp only [skip] at h
    split_ifs at h with brace more
    · simp only [Option.some.injEq, Prod.mk.injEq] at h
      obtain ⟨-, rfl⟩ := h
      refine ⟨shorter, fun fuel' d' enough _ => ⟨[], ?_⟩⟩
      obtain ⟨k, rfl⟩ : ∃ k, fuel' = k + 1 := ⟨fuel' - 1, by omega⟩
      simp [readFields, skipJsonSpace_append skip t, brace]
    · cases key : skipJsonSpace (partStart first b rest) with
      | nil => simp [key] at h
      | cons q rest₁ =>
        have l₁ := skipJsonSpace_length key
        simp only [key] at h
        split_ifs at h with quote
        simp only [Option.bind_eq_bind, Option.bind_eq_some_iff, Prod.exists] at h
        obtain ⟨name, rest₂, string, h⟩ := h
        obtain ⟨l₂, name', string'⟩ := reads.string _ _ _ string
        cases colon : skipJsonSpace rest₂ with
        | nil => simp [colon] at h
        | cons c rest₃ =>
          have l₃ := skipJsonSpace_length colon
          simp only [colon] at h
          split_ifs at h with isColon
          simp only [Option.bind_eq_some_iff, Prod.exists, Option.pure_def, Option.some.injEq, Prod.mk.injEq] at h
          obtain ⟨x, mid, value, xs, r', tail, -, rfl⟩ := h
          have behind : mid ≠ [] := by
            rintro rfl
            cases fuel <;> simp [readFields, skipJsonSpace] at tail
          obtain ⟨less, valueOn⟩ := inner.value _ _ _ _ value
          obtain ⟨less', fieldsOn⟩ := inner.fields _ _ _ _ _ tail
          refine ⟨by omega, fun fuel' d' enough deep => ?_⟩
          obtain ⟨k, rfl⟩ : ∃ k, fuel' = k + 1 := ⟨fuel' - 1, by omega⟩
          obtain ⟨y, value'⟩ := valueOn k d' (by omega) (by omega) (.inr behind)
          obtain ⟨ys, tail'⟩ := fieldsOn k d' (by omega) (by omega)
          refine ⟨(name', y) :: ys, ?_⟩
          simp only [readFields, skipJsonSpace_append skip t]
          rw [if_neg brace, if_pos more, partStart_append]
          simp [skipJsonSpace_append key t, quote, string', skipJsonSpace_append colon t, isColon, value', tail']

/-- **A laxer lexer reads what a stricter one does**, whatever text is behind it. -/
theorem readsOn (reads : Reads lex lex' t) (fuel : Nat) : ReadsOn lex lex' t fuel := by
  induction fuel with
  | zero =>
    refine ⟨?_, ?_, ?_⟩
    · intro _ _ _ _ h
      simp [readValue] at h
    · intro _ _ _ _ _ h
      simp [readItems] at h
    · intro _ _ _ _ _ h
      simp [readFields] at h
  | succ fuel inner =>
    exact ⟨fun _ _ _ _ => readsOn_value reads inner, fun _ _ _ _ _ => readsOn_items inner,
      fun _ _ _ _ _ => readsOn_fields reads inner⟩

variable {n : Nat}

/-- A unit ends where it did when more follows. -/
theorem ignoreUnit_append (h : ignoreUnit s = some n) (t : Text) : ignoreUnit (s ++ t) = some n := by
  cases s with
  | nil => simp [ignoreUnit] at h
  | cons b rest =>
    cases rest with
    | nil =>
      by_cases slash : b = 0x5c
      · simp [ignoreUnit, slash] at h
      · simpa [ignoreUnit, slash] using h
    | cons e more =>
      by_cases unicode : b = 0x5c ∧ e = 0x75
      · obtain ⟨rfl, rfl⟩ := unicode
        simp only [ignoreUnit, List.cons_append] at h ⊢
        cases quad : hexQuad (more.take 4) with
        | none => simp [quad] at h
        | some k =>
          have long := hexQuad_length quad
          rw [List.length_take] at long
          rw [List.take_append_of_le_length (by omega)]
          exact h
      · simp only [ignoreUnit, List.cons_append] at h ⊢
        by_cases slash : b = 0x5c
        · have plain : e ≠ 0x75 := fun same => unicode ⟨slash, same⟩
          simpa [slash, plain] using h
        · simpa [slash] using h

/-- A unit is within the text. -/
theorem ignoreUnit_le (h : ignoreUnit s = some n) : 0 < n ∧ n ≤ s.length := by
  cases s with
  | nil => simp [ignoreUnit] at h
  | cons b rest =>
    simp only [ignoreUnit] at h
    split_ifs at h with quote slash control
    · cases rest with
      | nil => simp at h
      | cons e more =>
        simp only at h
        split_ifs at h with unicode
        · rw [Option.map_eq_some_iff] at h
          obtain ⟨k, quad, rfl⟩ := h
          have long := hexQuad_length quad
          rw [List.length_take] at long
          simp only [List.length_cons]
          omega
        · rw [Option.map_eq_some_iff] at h
          obtain ⟨k, -, rfl⟩ := h
          simp
    · simp only [Option.some.injEq] at h
      subst h
      simp

/-- A unit that can be decoded can be skipped: a surrogate pair in two steps. -/
theorem ignoreUnit_of_decode {u : Text} (h : decodeUnit s = some (u, n)) :
    ignoreUnit s = some n ∨ n = 12 ∧ ignoreUnit s = some 6 ∧ ignoreUnit (s.drop 6) = some 6 := by
  cases s with
  | nil => simp [decodeUnit] at h
  | cons b rest =>
    simp only [decodeUnit] at h
    simp only [ignoreUnit]
    split_ifs at h ⊢ with quote slash control
    · cases rest with
      | nil => simp at h
      | cons e more =>
        simp only at h ⊢
        split_ifs at h ⊢ with unicode
        · unfold decodeUnicode at h
          cases quad : hexQuad (more.take 4) with
          | none => simp [quad] at h
          | some k =>
            simp only [quad] at h
            split_ifs at h with trail lead pair
            · cases quad2 : hexQuad ((more.drop 6).take 4) with
              | none => simp [quad2] at h
              | some m =>
                simp only [quad2] at h
                split_ifs at h with trail2
                simp only [Option.some.injEq, Prod.mk.injEq] at h
                refine .inr ⟨h.2.symm, rfl, ?_⟩
                have second : (b :: e :: more).drop 6 = 0x5c :: 0x75 :: more.drop 6 := by
                  have cut := List.take_append_drop 2 (more.drop 4)
                  rw [pair, List.drop_drop] at cut
                  exact cut.symm
                rw [second]
                simp [quad2]
            · simp only [Option.some.injEq, Prod.mk.injEq] at h
              exact .inl (by rw [← h.2]; rfl)
        · rw [Option.map_eq_some_iff] at h
          obtain ⟨c, escape, same⟩ := h
          simp only [Prod.mk.injEq] at same
          exact .inl (by rw [escape, ← same.2]; rfl)
    · simp only [Option.some.injEq, Prod.mk.injEq] at h
      exact .inl (by rw [h.2])

/-- A unit is passed by. -/
theorem ignoreStringWithin_step {fuel : Nat} (unit : ignoreUnit s = some n) :
    ignoreStringWithin (fuel + 1) s = ignoreStringWithin fuel (s.drop n) := by
  have open_ : ¬ s.head? = some 0x22 := by
    cases s with
    | nil => simp
    | cons b s =>
      intro quote
      simp only [List.head?_cons, Option.some.injEq] at quote
      simp [ignoreUnit, quote] at unit
  rw [ignoreStringWithin, if_neg open_, unit]

/-- A text ends at its quote or goes on with a unit. -/
theorem ignoreStringWithin_cases {fuel : Nat} {x : Text} (h : ignoreStringWithin (fuel + 1) s = some (x, r)) :
    (s = 0x22 :: r ∧ x = []) ∨ ∃ n, ignoreUnit s = some n ∧ ignoreStringWithin fuel (s.drop n) = some (x, r) := by
  rw [ignoreStringWithin] at h
  by_cases quote : s.head? = some 0x22
  · rw [if_pos quote] at h
    obtain ⟨rest, rfl⟩ := List.head?_eq_some_iff.1 quote
    simp only [List.drop_one, List.tail_cons, Option.some.injEq, Prod.mk.injEq] at h
    exact .inl ⟨by rw [h.2], h.1.symm⟩
  · rw [if_neg quote] at h
    cases unit : ignoreUnit s with
    | none => simp [unit] at h
    | some n =>
      rw [unit] at h
      exact .inr ⟨n, rfl, h⟩

/-- A text is passed by alike when more follows. -/
theorem ignoreStringWithin_append {fuel fuel' : Nat} {x : Text} (enough : fuel ≤ fuel')
    (h : ignoreStringWithin fuel s = some (x, r)) : ignoreStringWithin fuel' (s ++ t) = some (x, r ++ t) := by
  induction fuel generalizing s fuel' with
  | zero => simp [ignoreStringWithin] at h
  | succ fuel ih =>
    obtain ⟨k, rfl⟩ := Nat.exists_eq_add_of_le enough
    rw [Nat.add_right_comm]
    rcases ignoreStringWithin_cases h with ⟨rfl, rfl⟩ | ⟨n, unit, later⟩
    · rfl
    · rw [ignoreStringWithin_step (ignoreUnit_append unit t), List.drop_append_of_le_length (ignoreUnit_le unit).2]
      exact ih (by omega) later

/-- A text that decodes is passed by. -/
theorem ignoreStringWithin_of_decodes {e d : Text} (body : Decodes e d) (rest : Text) {fuel : Nat}
    (enough : e.length < fuel) : ignoreStringWithin fuel (e ++ 0x22 :: rest) = some ([], rest) := by
  induction body generalizing fuel with
  | nil =>
    obtain ⟨k, rfl⟩ := Nat.exists_eq_add_of_lt enough
    rfl
  | @unit s u d n read _ ih =>
    have pos := decodeUnit_pos read
    have le := decodeUnit_le read
    rcases ignoreUnit_of_decode read with one | ⟨rfl, first, second⟩
    · obtain ⟨k, rfl⟩ := Nat.exists_eq_add_of_lt enough
      rw [ignoreStringWithin_step (ignoreUnit_append one _), List.drop_append_of_le_length le]
      refine ih ?_
      rw [List.length_drop]
      omega
    · obtain ⟨k, rfl⟩ : ∃ k, fuel = k + 1 + 1 := ⟨fuel - 2, by omega⟩
      rw [ignoreStringWithin_step (ignoreUnit_append first _), List.drop_append_of_le_length (by omega),
        ignoreStringWithin_step (ignoreUnit_append second _), List.drop_append_of_le_length (by simp; omega), List.drop_drop]
      refine ih ?_
      rw [List.length_drop]
      omega

/-- Digits end where they did when something follows them. -/
theorem takeWhile_append_left {p : UInt8 → Bool} (h : (s.takeWhile p).length < s.length) :
    (s ++ t).takeWhile p = s.takeWhile p := by
  induction s with
  | nil => simp at h
  | cons b s ih =>
    by_cases keep : p b = true
    · simp only [List.cons_append, List.takeWhile_cons, keep, if_true, List.length_cons, Nat.add_lt_add_iff_right] at h ⊢
      rw [ih h]
    · simp [keep]

/-- Digits behind a place end where they did. -/
theorem digits_append {k : Nat} (behind : k + ((s.drop k).takeWhile isDigit).length < s.length) :
    ((s ++ t).drop k).takeWhile isDigit = (s.drop k).takeWhile isDigit := by
  rw [List.drop_append_of_le_length (by omega), takeWhile_append_left]
  rw [List.length_drop]
  omega

theorem head_append (behind : n < s.length) : (s ++ t).head? = s.head? := by
  cases s with
  | nil => simp at behind
  | cons b s => rfl

/-- A fraction is read the same when something follows it already. -/
theorem fractionLength_append (h : fractionLength s = some n) (behind : n < s.length) :
    fractionLength (s ++ t) = some n := by
  unfold fractionLength at h ⊢
  rw [head_append behind]
  by_cases dot : s.head? = some 0x2e
  · simp only [dot, if_true] at h ⊢
    by_cases digits : (s.drop 1).takeWhile isDigit = []
    · rw [if_pos digits] at h
      simp at h
    · rw [if_neg digits, Option.some.injEq] at h
      rw [digits_append (by omega), if_neg digits, h]
  · simpa [dot] using h

/-- An exponent ends where it did when something follows it. -/
theorem exponentLength_append (h : exponentLength s = some n) (behind : n < s.length) :
    exponentLength (s ++ t) = some n := by
  unfold exponentLength at h ⊢
  rw [head_append behind]
  by_cases letter : s.head? = some 0x65 ∨ s.head? = some 0x45
  · simp only [letter, if_true] at h ⊢
    by_cases last : s.length = 1
    · have tail : s.drop 1 = [] := List.drop_of_length_le (by omega)
      have deeper : s.drop (1 + 0) = [] := List.drop_of_length_le (by omega)
      simp [tail] at h
    · have second : ((s ++ t).drop 1).head? = (s.drop 1).head? := by
        rw [List.drop_append_of_le_length (by omega)]
        exact @head_append _ _ 0 (by rw [List.length_drop]; omega)
      rw [second]
      generalize (if (s.drop 1).head? = some 0x2b ∨ (s.drop 1).head? = some 0x2d then 1 else 0) = sign at h ⊢
      by_cases digits : (s.drop (1 + sign)).takeWhile isDigit = []
      · simp [digits] at h
      · rw [if_neg digits, Option.some.injEq] at h
        rw [digits_append (by omega), if_neg digits, h]
  · simpa [letter] using h

/-- A number ends where it did when something follows it. -/
theorem numberLength_append {int more : Nat} (h : numberLength s = some (int, more)) (behind : int + more < s.length) :
    numberLength (s ++ t) = some (int, more) := by
  unfold numberLength at h ⊢
  rw [head_append (Nat.lt_of_le_of_lt (Nat.zero_le _) behind)]
  generalize (if s.head? = some 0x2d then 1 else 0) = sign at h ⊢
  simp only at h ⊢
  split_ifs at h with bad
  simp only [Option.bind_eq_bind, Option.bind_eq_some_iff, Option.pure_def, Option.some.injEq, Prod.mk.injEq] at h
  obtain ⟨frac, readFrac, exp, readExp, rfl, rfl⟩ := h
  have within : sign + ((s.drop sign).takeWhile isDigit).length < s.length := by omega
  rw [digits_append within, if_neg bad]
  generalize ((s.drop sign).takeWhile isDigit).length = len at *
  have readFrac' := @fractionLength_append _ t _ readFrac (by rw [List.length_drop]; omega)
  have readExp' := @exponentLength_append _ t _ readExp (by rw [List.length_drop]; omega)
  rw [List.drop_append_of_le_length (by omega), readFrac']
  simp only [Option.bind_eq_bind, Option.bind_some]
  rw [List.drop_append_of_le_length (by omega), readExp']
  rfl

/-- A number is within the text. -/
theorem numberLength_le {int more : Nat} (h : numberLength s = some (int, more)) : 0 < int ∧ int ≤ s.length := by
  unfold numberLength at h
  generalize (if s.head? = some 0x2d then 1 else 0) = sign at h
  simp only at h
  split_ifs at h with bad
  simp only [Option.bind_eq_bind, Option.bind_eq_some_iff, Option.pure_def, Option.some.injEq, Prod.mk.injEq] at h
  obtain ⟨frac, -, exp, -, rfl, -⟩ := h
  have digits : (s.drop sign).takeWhile isDigit ≠ [] := fun none => bad (.inl none)
  have pos := List.length_pos_iff.2 digits
  have le : ((s.drop sign).takeWhile isDigit).length ≤ (s.drop sign).length := by
    have whole := congrArg List.length (List.takeWhile_append_dropWhile (p := isDigit) (l := s.drop sign))
    rw [List.length_append] at whole
    omega
  rw [List.length_drop] at le
  omega

/-- Passing by a text leaves less. -/
theorem ignoreStringWithin_length {x : Text} (h : ignoreStringWithin fuel s = some (x, r)) : r.length < s.length := by
  induction fuel generalizing s with
  | zero => simp [ignoreStringWithin] at h
  | succ fuel ih =>
    rcases ignoreStringWithin_cases h with ⟨rfl, rfl⟩ | ⟨n, -, later⟩
    · simp
    · have shorter := ih later
      rw [List.length_drop] at shorter
      omega

/-- Skipping goes on as it did when more text arrives. -/
theorem ignoreLexer_reads (t : Text) : Reads ignoreLexer ignoreLexer t where
  string s x r read := by
    have long : s.length ≤ (s ++ t).length := by rw [List.length_append]; omega
    exact ⟨ignoreStringWithin_length read, x, ignoreStringWithin_append long read⟩
  number s n r read := by
    simp only [ignoreLexer, ignoreNumber, Option.map_eq_some_iff, Prod.mk.injEq] at read ⊢
    obtain ⟨⟨int, more⟩, len, rfl, rfl⟩ := read
    obtain ⟨pos, le⟩ := numberLength_le len
    refine ⟨by rw [List.length_drop]; omega, ?_⟩
    rintro (rfl | behind)
    · exact ⟨_, _, by rw [List.append_nil]; exact len, rfl, by rw [List.append_nil, List.append_nil]⟩
    · have within : int + more < s.length := by
        by_contra past
        exact behind (List.drop_of_length_le (by omega))
      exact ⟨_, _, numberLength_append len within, rfl, List.drop_append_of_le_length (by omega)⟩

/-- What is read as a value can be skipped. -/
theorem valueLexer_reads (readFloat : Text → Option Text) : Reads (valueLexer readFloat) ignoreLexer [] where
  string s x r read := by
    obtain ⟨e, rfl, body⟩ := readString_eq_some_iff.1 read
    refine ⟨by simp; omega, [], ?_⟩
    rw [List.append_nil, List.append_nil]
    exact ignoreStringWithin_of_decodes body r (by simp)
  number s n r read := by
    simp only [valueLexer, readNumber, Option.bind_eq_bind, Option.bind_eq_some_iff, Prod.exists] at read
    obtain ⟨int, more, len, value⟩ := read
    obtain ⟨pos, le⟩ := numberLength_le len
    have rest : s.drop (int + more) = r := by
      generalize (if s.head? = some 0x2d then 1 else 0) = sign at value
      split_ifs at value with pos neg
      · simp only [Option.pure_def, Option.some.injEq, Prod.mk.injEq] at value
        rw [pos.1, Nat.add_zero]
        exact value.2
      · simp only [Option.pure_def, Option.some.injEq, Prod.mk.injEq] at value
        rw [neg.1, Nat.add_zero]
        exact value.2
      · simp only [Option.map_eq_some_iff, Prod.mk.injEq] at value
        obtain ⟨_, -, -, same⟩ := value
        exact same
    refine ⟨by rw [← rest, List.length_drop]; omega, fun _ => ⟨.posInt 0, ?_⟩⟩
    rw [List.append_nil, List.append_nil]
    simp only [ignoreLexer, ignoreNumber, len, Option.map_some, rest]

/-- A text is passed by alike when more follows. -/
theorem streamString_append {x : Text} (h : streamString s = some (x, r)) (t : Text) :
    streamString (s ++ t) = some (x, r ++ t) := by
  unfold streamString at h ⊢
  cases skip : skipJsonSpace s with
  | nil => simp [skip] at h
  | cons b rest =>
    simp only [skip, skipJsonSpace_append skip t] at h ⊢
    split_ifs at h ⊢ with quote
    obtain ⟨e, rfl, body⟩ := readString_eq_some_iff.1 h
    exact readString_eq_some_iff.2 ⟨e, by rw [List.append_assoc, List.cons_append], body⟩

/-- A value is passed by alike when more follows it. -/
theorem ignoreValue_append (h : ignoreValue s = some r) (behind : r ≠ []) (t : Text) :
    ignoreValue (s ++ t) = some (r ++ t) := by
  unfold ignoreValue at h ⊢
  simp only [Option.map_eq_some_iff, Prod.exists] at h ⊢
  obtain ⟨v, r', read, rfl⟩ := h
  obtain ⟨-, on⟩ := (readsOn (ignoreLexer_reads t) _).value _ _ _ _ read
  obtain ⟨v', read'⟩ := on (parseFuel (s ++ t)) (s ++ t).length (by unfold parseFuel; rw [List.length_append]; omega)
    (by rw [List.length_append]; omega) (.inr behind)
  exact ⟨v', _, read', rfl⟩

/-- A value that was skipped is skipped the same when something follows it already. -/
theorem streamIgnored_append (h : streamIgnored s = some r) (behind : r ≠ []) (t : Text) :
    streamIgnored (s ++ t) = some (r ++ t) := by
  unfold streamIgnored at h ⊢
  cases skip : skipJsonSpace s with
  | nil => simp [skip] at h
  | cons b rest =>
    simp only [skip, skipJsonSpace_append skip t] at h ⊢
    cases read : ignoreValue (b :: rest) with
    | none => simp [read] at h
    | some after =>
      simp only [read] at h
      split_ifs at h with ends
      simp only [Option.some.injEq] at h
      subst h
      have read' := ignoreValue_append read behind t
      rw [List.cons_append] at read'
      have head : (after ++ t).head? = after.head? := by
        cases after with
        | nil => exact absurd rfl behind
        | cons c after => rfl
      simp only [read', head, if_pos ends]

/-- A value that can be read as such, before a comma or a closing bracket, can be skipped. -/
theorem streamIgnored_of_read {readFloat : Text → Option Text} {fuel d : Nat} {v : Json} {c : UInt8} {after : Text}
    (read : readValue (valueLexer readFloat) fuel d s = some (v, r)) (follows : skipJsonSpace r = c :: after)
    (ends : endsValue c = true) : streamIgnored s = some r := by
  obtain ⟨shorter, on⟩ := (readsOn (valueLexer_reads readFloat) fuel).value _ _ _ _ read
  obtain ⟨hard, w, blank, tail⟩ := skipJsonSpace_eq_cons follows
  have head : r.head?.all endsValue = true := by
    rw [tail]
    cases w with
    | nil => simpa using ends
    | cons x w =>
      have space : isJsonSpace x = true := blank x (by simp)
      simp [endsValue, space]
  cases skip : skipJsonSpace s with
  | nil =>
    cases fuel with
    | zero => simp [readValue] at read
    | succ fuel => simp [readValue, skip] at read
  | cons b rest =>
    -- the reader skips the same white space
    have trimmed : readValue (valueLexer readFloat) fuel d (b :: rest) = some (v, r) := by
      obtain ⟨hard', -⟩ := skipJsonSpace_eq_cons skip
      cases fuel with
      | zero => simp [readValue] at read
      | succ fuel =>
        have same : skipJsonSpace (b :: rest) = b :: rest := by simp [skipJsonSpace, hard']
        rw [readValue] at read ⊢
        rw [same]
        rwa [skip] at read
    obtain ⟨less, on⟩ := (readsOn (valueLexer_reads readFloat) fuel).value _ _ _ _ trimmed
    obtain ⟨v', read'⟩ := on (parseFuel (b :: rest)) (b :: rest).length (by unfold parseFuel; omega) (by omega) (.inl rfl)
    rw [List.append_nil, List.append_nil] at read'
    unfold streamIgnored
    simp only [skip, ignoreValue, read', Option.map_some, head, or_true, if_true]

theorem skipJsonSpace_suffix (h : skipJsonSpace s = b :: rest) : rest <:+ s := by
  obtain ⟨-, w, -, rfl⟩ := skipJsonSpace_eq_cons h
  exact ⟨w ++ [b], by simp⟩

theorem partStart_suffix {first : Bool} (h : skipJsonSpace s = b :: rest) : partStart first b rest <:+ s := by
  obtain ⟨-, w, -, rfl⟩ := skipJsonSpace_eq_cons h
  cases first with
  | true => exact List.suffix_append w (b :: rest)
  | false => exact ⟨w ++ [b], by simp [partStart]⟩

/-- What is left behind is an end of the text. -/
structure LeavesEnd (lex : Lexer) (fuel : Nat) : Prop where
  value : ∀ d s v r, readValue lex fuel d s = some (v, r) → r <:+ s
  items : ∀ d first s v r, readItems lex fuel d first s = some (v, r) → r <:+ s
  fields : ∀ d first s v r, readFields lex fuel d first s = some (v, r) → r <:+ s

/-- What is left behind a value is the end of the text, if it is for its parts. -/
theorem leavesEnd_value (string : ∀ s x r, lex.string s = some (x, r) → r <:+ s)
    (number : ∀ s n r, lex.number s = some (n, r) → r <:+ s) (inner : LeavesEnd lex fuel) {d : Nat} {v : Json}
    (h : readValue lex (fuel + 1) d s = some (v, r)) : r <:+ s := by
  rw [readValue] at h
  cases skip : skipJsonSpace s with
  | nil => simp [skip] at h
  | cons b rest =>
    have tail := skipJsonSpace_suffix skip
    simp only [skip] at h
    split_ifs at h with quote bracket flat brace flat null ull true_ rue false_ alse <;>
      simp only [Option.map_eq_some_iff, Prod.exists, Prod.mk.injEq, Option.some.injEq] at h
    · obtain ⟨x, r', read, -, rfl⟩ := h
      exact (string _ _ _ read).trans tail
    · obtain ⟨x, r', read, -, rfl⟩ := h
      exact (inner.items _ _ _ _ _ read).trans tail
    · obtain ⟨x, r', read, -, rfl⟩ := h
      exact (inner.fields _ _ _ _ _ read).trans tail
    · exact h.2 ▸ (List.drop_suffix 3 rest).trans tail
    · exact h.2 ▸ (List.drop_suffix 3 rest).trans tail
    · exact h.2 ▸ (List.drop_suffix 4 rest).trans tail
    · obtain ⟨x, r', read, -, rfl⟩ := h
      have start : b :: rest <:+ s := @partStart_suffix _ _ _ true skip
      exact (number _ _ _ read).trans start

/-- What is left behind a value is the end of the text. -/
theorem leavesEnd (string : ∀ s x r, lex.string s = some (x, r) → r <:+ s)
    (number : ∀ s n r, lex.number s = some (n, r) → r <:+ s) (fuel : Nat) : LeavesEnd lex fuel := by
  induction fuel with
  | zero =>
    refine ⟨?_, ?_, ?_⟩
    · intro _ _ _ _ h
      simp [readValue] at h
    · intro _ _ _ _ _ h
      simp [readItems] at h
    · intro _ _ _ _ _ h
      simp [readFields] at h
  | succ fuel inner =>
    refine ⟨fun _ _ _ _ => leavesEnd_value string number inner, ?_, ?_⟩
    · intro d first s v r h
      rw [readItems] at h
      cases skip : skipJsonSpace s with
      | nil => simp [skip] at h
      | cons b rest =>
        have start := @partStart_suffix _ _ _ first skip
        simp only [skip] at h
        split_ifs at h with bracket more
        · simp only [Option.some.injEq, Prod.mk.injEq] at h
          exact h.2 ▸ skipJsonSpace_suffix skip
        · simp only [Option.bind_eq_bind, Option.bind_eq_some_iff, Prod.exists, Option.pure_def, Option.some.injEq,
            Prod.mk.injEq] at h
          obtain ⟨x, mid, value, xs, r', tail, -, rfl⟩ := h
          exact ((inner.items _ _ _ _ _ tail).trans (inner.value _ _ _ _ value)).trans start
    · intro d first s v r h
      rw [readFields] at h
      cases skip : skipJsonSpace s with
      | nil => simp [skip] at h
      | cons b rest =>
        have start := @partStart_suffix _ _ _ first skip
        simp only [skip] at h
        split_ifs at h with brace more
        · simp only [Option.some.injEq, Prod.mk.injEq] at h
          exact h.2 ▸ skipJsonSpace_suffix skip
        · cases key : skipJsonSpace (partStart first b rest) with
          | nil => simp [key] at h
          | cons q rest₁ =>
            simp only [key] at h
            split_ifs at h with quote
            simp only [Option.bind_eq_bind, Option.bind_eq_some_iff, Prod.exists] at h
            obtain ⟨name, rest₂, read, h⟩ := h
            cases colon : skipJsonSpace rest₂ with
            | nil => simp [colon] at h
            | cons c rest₃ =>
              simp only [colon] at h
              split_ifs at h with isColon
              simp only [Option.bind_eq_some_iff, Prod.exists, Option.pure_def, Option.some.injEq, Prod.mk.injEq] at h
              obtain ⟨x, mid, value, xs, r', tail, -, rfl⟩ := h
              have keyed := (string _ _ _ read).trans ((skipJsonSpace_suffix key).trans start)
              have valued := (inner.value _ _ _ _ value).trans ((skipJsonSpace_suffix colon).trans keyed)
              exact (inner.fields _ _ _ _ _ tail).trans valued

/-- What is left behind a text is the end of it. -/
theorem ignoreStringWithin_suffix {x : Text} (h : ignoreStringWithin fuel s = some (x, r)) : r <:+ s := by
  induction fuel generalizing s with
  | zero => simp [ignoreStringWithin] at h
  | succ fuel ih =>
    rcases ignoreStringWithin_cases h with ⟨rfl, rfl⟩ | ⟨n, -, later⟩
    · exact List.suffix_cons _ _
    · exact (ih later).trans (List.drop_suffix n s)

theorem streamString_suffix {x : Text} (h : streamString s = some (x, r)) : r <:+ s := by
  unfold streamString at h
  cases skip : skipJsonSpace s with
  | nil => simp [skip] at h
  | cons b rest =>
    simp only [skip] at h
    split_ifs at h with quote
    obtain ⟨e, rfl, -⟩ := readString_eq_some_iff.1 h
    exact ((List.suffix_cons _ _).trans (List.suffix_append e _)).trans (skipJsonSpace_suffix skip)

/-- What is left behind a value is the end of the text. -/
theorem streamIgnored_suffix (h : streamIgnored s = some r) : r <:+ s := by
  unfold streamIgnored at h
  cases skip : skipJsonSpace s with
  | nil => simp [skip] at h
  | cons b rest =>
    have start : b :: rest <:+ s := @partStart_suffix _ _ _ true skip
    simp only [skip] at h
    cases read : ignoreValue (b :: rest) with
    | none => simp [read] at h
    | some after =>
      simp only [read] at h
      split_ifs at h with ends
      simp only [Option.some.injEq] at h
      subst h
      unfold ignoreValue at read
      simp only [Option.map_eq_some_iff, Prod.exists] at read
      obtain ⟨v, r', read, rfl⟩ := read
      refine ((leavesEnd ?_ ?_ _).value _ _ _ _ read).trans start
      · intro s x r read
        exact ignoreStringWithin_suffix read
      · intro s n r read
        simp only [ignoreLexer, ignoreNumber, Option.map_eq_some_iff, Prod.mk.injEq] at read
        obtain ⟨⟨int, more⟩, -, -, rfl⟩ := read
        exact List.drop_suffix _ _

/-- A digit is hard. -/
theorem isHard_of_isDigit (h : isDigit b = true) : isHard b = true := by
  unfold isDigit at h
  simp only [Bool.and_eq_true, decide_eq_true_eq, UInt8.le_iff_toNat_le, UInt8.toNat_ofNat] at h
  unfold isHard
  simp only [Bool.not_eq_true', Bool.or_eq_false_iff, Bool.and_eq_false_iff, decide_eq_false_iff_not, beq_eq_false_iff_ne,
    UInt8.le_iff_toNat_le, UInt8.toNat_ofNat, ne_eq, ← UInt8.toNat_inj]
  omega

/-- A value starts at a byte that trimming stops at. -/
theorem streamIgnored_hard (h : streamIgnored s = some r) : ∃ b rest, skipJsonSpace s = b :: rest ∧ isHard b = true := by
  unfold streamIgnored at h
  cases skip : skipJsonSpace s with
  | nil => simp [skip] at h
  | cons b rest =>
    refine ⟨b, rest, rfl, ?_⟩
    obtain ⟨space, -⟩ := skipJsonSpace_eq_cons skip
    simp only [skip] at h
    cases read : ignoreValue (b :: rest) with
    | none => simp [read] at h
    | some after =>
      unfold ignoreValue parseFuel at read
      simp only [Option.map_eq_some_iff, Prod.exists] at read
      obtain ⟨v, r', read, -⟩ := read
      rw [readValue] at read
      have same : skipJsonSpace (b :: rest) = b :: rest := by simp [skipJsonSpace, space]
      simp only [same] at read
      split_ifs at read with quote bracket flat brace flat null ull true_ rue false_ alse
      · rw [quote]; decide
      · rw [bracket]; decide
      · rw [brace]; decide
      · rw [null]; decide
      · rw [true_]; decide
      · rw [false_]; decide
      · -- a number starts with its sign or a digit
        simp only [ignoreLexer, ignoreNumber, Option.map_eq_some_iff, Prod.exists] at read
        obtain ⟨n, r'', ⟨int, more, len, -⟩, -⟩ := read
        by_cases minus : b = 0x2d
        · rw [minus]; decide
        · have digit : isDigit b = true := by
            by_contra other
            simp [numberLength, minus, other] at len
          exact isHard_of_isDigit digit

/-- The items of an array of strings after its bracket, or after the first items when not `first`:
the strings, and what follows the closing bracket. -/
inductive StringItems : Bool → Text → List Text → Text → Prop where
  | close {first : Bool} {w r : Text} (blank : Blank w) : StringItems first (w ++ 0x5d :: r) [] r
  | first {w e c t r : Text} {cs : List Text} (blank : Blank w) (body : Decodes e c) (more : StringItems false t cs r) :
      StringItems true (w ++ 0x22 :: (e ++ 0x22 :: t)) (c :: cs) r
  | next {w w' e c t r : Text} {cs : List Text} (blank : Blank w) (blank' : Blank w') (body : Decodes e c)
      (more : StringItems false t cs r) :
      StringItems false (w ++ 0x2c :: (w' ++ 0x22 :: (e ++ 0x22 :: t))) (c :: cs) r

/-- A text that is read stands between its quotes. -/
theorem readValue_str {readFloat : Text → Option Text} {fuel d : Nat} {c : Text}
    (read : readValue (valueLexer readFloat) fuel d s = some (.str c, r)) :
    ∃ w e, Blank w ∧ s = w ++ 0x22 :: (e ++ 0x22 :: r) ∧ Decodes e c := by
  cases fuel with
  | zero => simp [readValue] at read
  | succ fuel =>
    rw [readValue] at read
    cases skip : skipJsonSpace s with
    | nil => simp [skip] at read
    | cons b rest =>
      obtain ⟨-, w, blank, rfl⟩ := skipJsonSpace_eq_cons skip
      simp only [skip] at read
      split_ifs at read with quote <;>
        simp only [Option.map_eq_some_iff, Prod.exists, Prod.mk.injEq, Json.str.injEq, reduceCtorEq, false_and, and_false,
          exists_false, Option.some.injEq] at read
      obtain ⟨x, r', string, rfl, rfl⟩ := read
      obtain ⟨e, rfl, body⟩ := readString_eq_some_iff.1 string
      exact ⟨w, e, blank, by rw [quote], body⟩

/-- The texts of a list are read one by one. -/
theorem stringItems_of_read {readFloat : Text → Option Text} {fuel d : Nat} {first : Bool} {items : List Json}
    {cs : List Text} (read : readItems (valueLexer readFloat) fuel d first s = some (items, r))
    (strings : items.mapM Json.asStr = some cs) : StringItems first s cs r := by
  induction fuel generalizing first s items cs with
  | zero => simp [readItems] at read
  | succ fuel ih =>
    rw [readItems] at read
    cases skip : skipJsonSpace s with
    | nil => simp [skip] at read
    | cons b rest =>
      obtain ⟨-, w, blank, rfl⟩ := skipJsonSpace_eq_cons skip
      simp only [skip] at read
      split_ifs at read with bracket more
      · simp only [Option.some.injEq, Prod.mk.injEq] at read
        obtain ⟨rfl, rfl⟩ := read
        simp only [List.mapM_nil, Option.pure_def, Option.some.injEq] at strings
        subst strings
        subst bracket
        exact .close blank
      · simp only [Option.bind_eq_bind, Option.bind_eq_some_iff, Prod.exists, Option.pure_def, Option.some.injEq,
          Prod.mk.injEq] at read
        obtain ⟨x, mid, value, xs, r', tail, rfl, rfl⟩ := read
        simp only [List.mapM_cons, Option.pure_def, Option.bind_eq_bind, Option.bind_eq_some_iff, Option.some.injEq] at strings
        obtain ⟨c, isStr, cs', rest', rfl⟩ := strings
        have str : x = .str c := by
          cases x <;> simp_all [Json.asStr]
        subst str
        obtain ⟨w', e, blank', shape, body⟩ := readValue_str value
        have later := ih tail rest'
        cases first with
        | true =>
          have here : b :: rest = w' ++ 0x22 :: (e ++ 0x22 :: mid) := shape
          have blanks : Blank (w ++ w') := by
            intro x mem
            rcases List.mem_append.1 mem with left | right
            · exact blank x left
            · exact blank' x right
          rw [here, ← List.append_assoc]
          exact .first blanks body later
        | false =>
          have comma : b = 0x2c := by simpa using more
          have here : rest = w' ++ 0x22 :: (e ++ 0x22 :: mid) := shape
          rw [comma, here]
          exact .next blank blank' body later

end AgenticStack.Library
