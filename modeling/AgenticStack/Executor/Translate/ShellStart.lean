import AgenticStack.Executor.Translate.Shell
import AgenticStack.Library.JsonReaders

/-!
# Where the commands start

The scan for the array of commands finds the same place in every start of the
arguments in which it finds one, and it finds the array the action is read from.
-/

namespace AgenticStack
set_option autoImplicit false
open Library

variable {s t r rest array : Text} {b : UInt8} {fuel n : Nat}

/-- Text that starts with a hard byte once trimmed keeps its start. -/
theorem trimStart_append_of_hard (hard : isHard b = true) (skip : skipJsonSpace (trimStart s) = b :: rest) (t : Text) :
    trimStart (s ++ t) = trimStart s ++ t := by
  have same := trimStart_of_skipJsonSpace hard skip
  rw [trimStart_trimStart] at same
  rw [trimStart_append hard same, same, List.cons_append]

/-- A name begins with its quote. -/
theorem streamString_hard {name : Text} (h : streamString s = some (name, r)) : ∃ rest, skipJsonSpace s = 0x22 :: rest := by
  unfold streamString at h
  cases skip : skipJsonSpace s with
  | nil => simp [skip] at h
  | cons b rest =>
    simp only [skip] at h
    split_ifs at h with quote
    exact ⟨rest, by rw [quote]⟩

/-- The commands are searched for behind a quote. -/
theorem commandsArrayWithin_hard (h : commandsArrayWithin n s = some array) : ∃ rest, skipJsonSpace s = 0x22 :: rest := by
  cases n with
  | zero => simp [commandsArrayWithin] at h
  | succ n =>
    simp only [commandsArrayWithin, Option.bind_eq_bind, Option.bind_eq_some_iff, Prod.exists] at h
    obtain ⟨name, r, key, -⟩ := h
    exact streamString_hard key

/-- Commands that were found are found in more text. -/
theorem commandsArrayWithin_append {n' : Nat} (enough : n ≤ n') (h : commandsArrayWithin n s = some array) (t : Text) :
    commandsArrayWithin n' (s ++ t) = some (array ++ t) := by
  induction n generalizing s n' with
  | zero => simp [commandsArrayWithin] at h
  | succ n ih =>
    obtain ⟨k, rfl⟩ := Nat.exists_eq_add_of_le enough
    simp only [commandsArrayWithin, Option.bind_eq_bind, Option.bind_eq_some_iff, Prod.exists] at h
    obtain ⟨name, r₁, key, r₂, colon, h⟩ := h
    rw [Nat.add_right_comm, commandsArrayWithin, streamString_append key]
    simp only [Option.bind_eq_bind, Option.bind_some]
    rw [show stripPrefix ":" (trimStart (r₁ ++ t)) = some (r₂ ++ t) from stripPrefix_trimStart_append (by decide) colon]
    simp only [Option.bind_some]
    by_cases commands : name = "commands"
    · rw [if_pos commands] at h ⊢
      exact stripPrefix_trimStart_append (by decide) h
    · rw [if_neg commands] at h ⊢
      simp only [Option.bind_eq_some_iff] at h
      obtain ⟨r₃, value, r₄, comma, later⟩ := h
      obtain ⟨b, rest, skip, hard⟩ := streamIgnored_hard value
      have behind : r₃ ≠ [] := by
        rintro rfl
        have shape : [] = 0x2c :: r₄ := stripPrefix_eq_some_iff.1 comma
        simp at shape
      rw [trimStart_append_of_hard hard skip, streamIgnored_append value behind]
      simp only [Option.bind_some]
      rw [show stripPrefix "," (trimStart (r₃ ++ t)) = some (r₄ ++ t) from stripPrefix_trimStart_append (by decide) comma]
      obtain ⟨rest', skip'⟩ := commandsArrayWithin_hard later
      simp only [Option.bind_some]
      rw [trimStart_append_of_hard (by decide) skip']
      exact ih (by omega) later

/-- Commands that were found are found in more text. -/
theorem commandsArray_append (h : commandsArray s = some array) (t : Text) : commandsArray (s ++ t) = some (array ++ t) := by
  simp only [commandsArray, Option.bind_eq_bind, Option.bind_eq_some_iff] at h
  obtain ⟨r, brace, h⟩ := h
  obtain ⟨rest, skip⟩ := commandsArrayWithin_hard h
  rw [commandsArray, stripPrefix_trimStart_append (by decide) brace]
  simp only [Option.bind_eq_bind, Option.bind_some]
  rw [trimStart_append_of_hard (by decide) skip]
  exact commandsArrayWithin_append (by rw [List.length_append]; omega) h t

/-- The commands that were found are what is left of the text. -/
theorem commandsArrayWithin_suffix (h : commandsArrayWithin n s = some array) : array <:+ s := by
  induction n generalizing s with
  | zero => simp [commandsArrayWithin] at h
  | succ n ih =>
    simp only [commandsArrayWithin, Option.bind_eq_bind, Option.bind_eq_some_iff, Prod.exists] at h
    obtain ⟨name, r₁, key, r₂, colon, h⟩ := h
    have start : trimStart r₂ <:+ s :=
      trimStart_suffix.trans ((stripPrefix_suffix colon).trans (trimStart_suffix.trans (streamString_suffix key)))
    by_cases commands : name = "commands"
    · rw [if_pos commands] at h
      exact (stripPrefix_suffix h).trans start
    · rw [if_neg commands] at h
      simp only [Option.bind_eq_some_iff] at h
      obtain ⟨r₃, value, r₄, comma, later⟩ := h
      have next : trimStart r₄ <:+ trimStart r₂ :=
        trimStart_suffix.trans ((stripPrefix_suffix comma).trans (trimStart_suffix.trans (streamIgnored_suffix value)))
      exact (ih later).trans (next.trans start)

/-- The commands that were found are what is left of the text. -/
theorem commandsArray_suffix (h : commandsArray s = some array) : array <:+ s := by
  simp only [commandsArray, Option.bind_eq_bind, Option.bind_eq_some_iff] at h
  obtain ⟨r, brace, h⟩ := h
  exact (commandsArrayWithin_suffix h).trans (trimStart_suffix.trans ((stripPrefix_suffix brace).trans trimStart_suffix))

/-- The cursor the scan answers stands at the array. -/
theorem shellCommandsStart_eq_some {cursor : Nat} (h : shellCommandsStart s = some cursor) :
    commandsArray s = some (s.drop cursor) ∧ cursor ≤ s.length := by
  unfold shellCommandsStart at h
  rw [Option.map_eq_some_iff] at h
  obtain ⟨array, found, rfl⟩ := h
  refine ⟨?_, by omega⟩
  rw [found, ← List.suffix_iff_eq_drop.1 (commandsArray_suffix found)]

/-- A field of another name is no commands field. -/
theorem uniqueField_cons {cs : List Text} {key : Text} {v : Json} {fields : List (Text × Json)}
    (unique : uniqueField "commands" Json.asStrings none ((key, v) :: fields) = some cs) :
    (key = "commands" ∧ Json.asStrings v = some cs) ∨
      key ≠ "commands" ∧ uniqueField "commands" Json.asStrings none fields = some cs := by
  unfold uniqueField at unique ⊢
  by_cases commands : key = "commands"
  · refine .inl ⟨commands, ?_⟩
    simp only [commands, List.filter_cons, beq_self_eq_true, if_true] at unique
    cases rest : fields.filter fun field => field.1 == utf8 "commands" with
    | nil => simpa [rest] using unique
    | cons field more => simp [rest] at unique
  · refine .inr ⟨commands, ?_⟩
    have other : (key == utf8 "commands") = false := by simpa using commands
    rwa [List.filter_cons, other] at unique

/-- A list is read from its bracket on. -/
theorem readValue_arr {readFloat : Text → Option Text} {d : Nat} {items : List Json}
    (read : readValue (valueLexer readFloat) fuel d s = some (.arr items, r)) :
    ∃ fuel' d' rest, skipJsonSpace s = 0x5b :: rest ∧
      readItems (valueLexer readFloat) fuel' d' true rest = some (items, r) := by
  cases fuel with
  | zero => simp [readValue] at read
  | succ fuel =>
    rw [readValue] at read
    cases skip : skipJsonSpace s with
    | nil => simp [skip] at read
    | cons b rest =>
      simp only [skip] at read
      split_ifs at read with quote bracket <;>
        simp only [Option.map_eq_some_iff, Prod.exists, Prod.mk.injEq, Json.arr.injEq, reduceCtorEq, false_and, and_false,
          exists_false, Option.some.injEq] at read
      obtain ⟨x, r', read, rfl, rfl⟩ := read
      exact ⟨_, _, rest, by rw [bracket], read⟩

/-- The scan stops where the reader finds the array of the action. -/
theorem commandsArrayWithin_of_read {readFloat : Text → Option Text} {d : Nat} {first : Bool} {fields : List (Text × Json)}
    {cs : List Text} (read : readFields (valueLexer readFloat) fuel d first s = some (fields, r))
    (skip : skipJsonSpace s = b :: rest) (unique : uniqueField "commands" Json.asStrings none fields = some cs)
    (enough : s.length < n) : ∃ array r', commandsArrayWithin n (trimStart (partStart first b rest)) = some array ∧
      StringItems true array cs r' := by
  induction fuel generalizing s first fields b rest n with
  | zero => simp [readFields] at read
  | succ fuel ih =>
    obtain ⟨n, rfl⟩ : ∃ k, n = k + 1 := ⟨n - 1, by omega⟩
    have start := @partStart_length _ _ _ first skip
    rw [readFields] at read
    simp only [skip] at read
    split_ifs at read with brace more
    · simp only [Option.some.injEq, Prod.mk.injEq] at read
      obtain ⟨rfl, -⟩ := read
      simp [uniqueField] at unique
    · cases key : skipJsonSpace (partStart first b rest) with
      | nil => simp [key] at read
      | cons q rest₁ =>
        have l₁ := skipJsonSpace_length key
        simp only [key] at read
        split_ifs at read with quote
        subst quote
        simp only [Option.bind_eq_bind, Option.bind_eq_some_iff, Prod.exists] at read
        obtain ⟨name, rest₂, string, read⟩ := read
        have l₂ := ((valueLexer_reads readFloat).string _ _ _ string).1
        cases colon : skipJsonSpace rest₂ with
        | nil => simp [colon] at read
        | cons c rest₃ =>
          have l₃ := skipJsonSpace_length colon
          simp only [colon] at read
          split_ifs at read with isColon
          subst isColon
          simp only [Option.bind_eq_some_iff, Prod.exists, Option.pure_def, Option.some.injEq, Prod.mk.injEq] at read
          obtain ⟨v, mid, value, more, r', tail, rfl, rfl⟩ := read
          have l₄ := ((readsOn (valueLexer_reads readFloat) fuel).value _ _ _ _ value).1
          have named : streamString (0x22 :: rest₁) = some (name, rest₂) := string
          have behind : stripPrefix ":" (trimStart rest₂) = some rest₃ :=
            stripPrefix_eq_some_iff.2 (trimStart_of_skipJsonSpace (by decide) colon)
          rw [trimStart_of_skipJsonSpace (by decide) key, commandsArrayWithin, named]
          simp only [Option.bind_eq_bind, Option.bind_some, behind]
          rcases uniqueField_cons unique with ⟨commands, strings⟩ | ⟨other, unique'⟩
          · rw [if_pos commands]
            cases v with
            | arr items =>
              obtain ⟨_, _, array, bracket, items'⟩ := readValue_arr value
              exact ⟨array, mid, stripPrefix_eq_some_iff.2 (trimStart_of_skipJsonSpace (by decide) bracket),
                stringItems_of_read items' strings⟩
            | _ => simp [Json.asStrings] at strings
          · rw [if_neg other]
            -- another field follows: its comma ends the value
            cases follows : skipJsonSpace mid with
            | nil => cases fuel <;> simp [readFields, follows] at tail
            | cons c rest₄ =>
              have comma : c = 0x2c := by
                cases fuel with
                | zero => simp [readFields] at tail
                | succ fuel =>
                  rw [readFields] at tail
                  simp only [follows] at tail
                  split_ifs at tail with close comma
                  · simp only [Option.some.injEq, Prod.mk.injEq] at tail
                    rw [← tail.1] at unique'
                    simp [uniqueField] at unique'
                  · simpa using comma
              subst comma
              have ignored := streamIgnored_of_read value follows (by decide)
              obtain ⟨h, rest₅, head, hard⟩ := streamIgnored_hard ignored
              have trimmed : streamIgnored (trimStart rest₃) = some mid := by
                obtain ⟨space, -⟩ := skipJsonSpace_eq_cons head
                have same : skipJsonSpace (trimStart rest₃) = skipJsonSpace rest₃ := by
                  rw [trimStart_of_skipJsonSpace hard head, head]
                  simp [skipJsonSpace, space]
                unfold streamIgnored at ignored ⊢
                rwa [same]
              have behind' : stripPrefix "," (trimStart mid) = some rest₄ :=
                stripPrefix_eq_some_iff.2 (trimStart_of_skipJsonSpace (by decide) follows)
              simp only [trimmed, Option.bind_some, behind']
              exact ih tail follows unique' (by omega)

/-- An action that is parsed has its commands where the stream finds them. -/
theorem shellCommandsStart_of_action {serde : SerdeJson} {arguments : Text} {action : ShellCallAction}
    (parsed : ShellCallAction.fromStr serde arguments = some action) :
    ∃ cursor r, shellCommandsStart arguments = some cursor ∧ StringItems true (arguments.drop cursor) action.commands r := by
  simp only [ShellCallAction.fromStr, Option.bind_eq_some_iff] at parsed
  obtain ⟨fields, read, parsed⟩ := parsed
  simp only [ShellCallAction.ofFields, Option.bind_eq_bind, Option.bind_eq_some_iff, Option.pure_def,
    Option.some.injEq] at parsed
  obtain ⟨commands, unique, _, -, _, -, rfl⟩ := parsed
  unfold SerdeJson.fieldsFromStr at read
  cases skip : skipJsonSpace arguments with
  | nil => simp [skip] at read
  | cons b rest =>
    have shorter := skipJsonSpace_length skip
    simp only [skip] at read
    split_ifs at read with brace
    subst brace
    cases inner : readFields (valueLexer serde.readFloat) (parseFuel arguments) 126 true rest with
    | none => simp [inner] at read
    | some found =>
      obtain ⟨fields', rest'⟩ := found
      simp only [inner] at read
      split_ifs at read with blank
      simp only [Option.some.injEq] at read
      subst read
      have opened : stripPrefix [0x7b] (trimStart arguments) = some rest :=
        stripPrefix_eq_some_iff.2 (trimStart_of_skipJsonSpace (by decide) skip)
      cases skip' : skipJsonSpace rest with
      | nil => simp [parseFuel, readFields, skip'] at inner
      | cons c rest₁ =>
        obtain ⟨array, r, found, items⟩ := commandsArrayWithin_of_read inner skip' unique shorter
        obtain ⟨-, w, space, shape⟩ := skipJsonSpace_eq_cons skip'
        have same : trimStart rest = trimStart (partStart true c rest₁) := by
          rw [shape, trimStart_blank space]
          rfl
        have all : commandsArray arguments = some array := by
          rw [commandsArray, opened]
          simp only [Option.bind_eq_bind, Option.bind_some]
          rw [same, found]
        refine ⟨arguments.length - array.length, r, by rw [shellCommandsStart, all]; rfl, ?_⟩
        rwa [← List.suffix_iff_eq_drop.1 (commandsArray_suffix all)]

end AgenticStack
