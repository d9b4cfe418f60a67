import AgenticStack.Library.Json
import AgenticStack.Library.JsonString
import AgenticStack.Library.AssocList

/-!
# Reading JSON

A recursive-descent reader over the bytes of a text. A value nests at most 127
deep. `readFields` keeps the fields of an object as they are written; an object
value keeps one field a key, the last one, in the place of the first.

The reader is given a `Lexer`: how strings and numbers are read. A value that is
only skipped is read with a laxer one, which checks the shape of escapes and
numbers but not what they stand for.
-/

namespace AgenticStack.Library
set_option autoImplicit false

/-- Whether a byte is white space. -/
def isJsonSpace (b : UInt8) : Bool := b == 0x20 || b == 0x0a || b == 0x09 || b == 0x0d

/-- The text behind its white space. -/
def skipJsonSpace (s : Text) : Text := s.dropWhile isJsonSpace

/-- Whether a byte is a digit. -/
def isDigit (b : UInt8) : Bool := 0x30 ≤ b && b ≤ 0x39

/-- The number that digits stand for. -/
def digitsValue (s : Text) : Nat := s.foldl (fun n b => n * 10 + (b.toNat - 0x30)) 0

/-- The length of a fraction at the front: 0 when there is none. -/
def fractionLength (s : Text) : Option Nat :=
  if s.head? = some 0x2e then
    let digits := (s.drop 1).takeWhile isDigit
    if digits = [] then none else some (1 + digits.length)
  else some 0

/-- The length of an exponent at the front: 0 when there is none. -/
def exponentLength (s : Text) : Option Nat :=
  if s.head? = some 0x65 ∨ s.head? = some 0x45 then
    let sign := if (s.drop 1).head? = some 0x2b ∨ (s.drop 1).head? = some 0x2d then 1 else 0
    let digits := (s.drop (1 + sign)).takeWhile isDigit
    if digits = [] then none else some (1 + sign + digits.length)
  else some 0

/-- How strings, after their opening quote, and numbers are read: the value, and what follows it. -/
structure Lexer where
  string : Text → Option (Text × Text)
  number : Text → Option (JsonNumber × Text)

/-- The length of a number at the front, and of the part that makes it an integer. -/
def numberLength (s : Text) : Option (Nat × Nat) := do
  let sign := if s.head? = some 0x2d then 1 else 0
  let int := (s.drop sign).takeWhile isDigit
  if int = [] ∨ (int.head? = some 0x30 ∧ 1 < int.length) then none
  else
    let frac ← fractionLength (s.drop (sign + int.length))
    let exp ← exponentLength (s.drop (sign + int.length + frac))
    return (sign + int.length, frac + exp)

/-- A number: an integer when it is written as one and fits 64 bits, else a float. `-0` is a float.
A float is printed by `readFloat`, which answers nothing where it is out of range. -/
def readNumber (readFloat : Text → Option Text) (s : Text) : Option (JsonNumber × Text) := do
  let (int, more) ← numberLength s
  let negative := s.head? = some 0x2d
  let n := digitsValue ((s.take int).drop (if negative then 1 else 0))
  if more = 0 ∧ ¬ negative ∧ n < 2 ^ 64 then return (.posInt n, s.drop int)
  else if more = 0 ∧ negative ∧ 0 < n ∧ n ≤ 2 ^ 63 then return (.negInt n, s.drop int)
  else (readFloat (s.take (int + more))).map fun printed => (.float printed, s.drop (int + more))

/-- A number that is passed by unread. -/
def ignoreNumber (s : Text) : Option (JsonNumber × Text) :=
  (numberLength s).map fun (int, more) => (.posInt 0, s.drop (int + more))

/-- The length of an escape or character whose shape is right; a code unit may be half a pair. -/
def ignoreUnit : Text → Option Nat
  | [] => none
  | b :: rest =>
    if b = 0x22 then none
    else if b = 0x5c then match rest with
      | [] => none
      | e :: more => if e = 0x75 then (hexQuad (more.take 4)).map fun _ => 6 else (simpleEscape e).map fun _ => 2
    else if b < 0x20 then none
    else some 1

/-- A text that is passed by unread, unit by unit. -/
def ignoreStringWithin : Nat → Text → Option (Text × Text)
  | 0, _ => none
  | fuel + 1, s =>
    if s.head? = some 0x22 then some ([], s.drop 1)
    else match ignoreUnit s with
      | none => none
      | some n => ignoreStringWithin fuel (s.drop n)

/-- A text that is passed by unread. -/
def ignoreString (s : Text) : Option (Text × Text) := ignoreStringWithin s.length s

/-- A lexer that reads what it passes. -/
def valueLexer (readFloat : Text → Option Text) : Lexer := ⟨readString, readNumber readFloat⟩

/-- A lexer that only passes by. -/
def ignoreLexer : Lexer := ⟨ignoreString, ignoreNumber⟩

/-- An object's fields as a map keeps them. -/
def insertField (fields : List (Text × Json)) (key : Text) (v : Json) : List (Text × Json) :=
  if fields.any (fun field => field.1 == key) then
    fields.map fun field => if field.1 == key then (key, v) else field
  else fields ++ [(key, v)]

/-- A field that was inserted is found. -/
theorem lookup_insertField_self {fields : List (Text × Json)} {key : Text} {v : Json} :
    (insertField fields key v).lookup key = some v := by
  unfold insertField
  split
  · rename_i here
    exact lookup_replace_self here
  · rename_i absent
    have none : fields.lookup key = none := by
      rw [List.lookup_eq_none_iff]
      intro field member
      rw [bne_iff_ne]
      intro same
      exact absent (List.any_eq_true.2 ⟨field, member, beq_iff_eq.2 same.symm⟩)
    rw [List.lookup_append, none, Option.none_or]
    exact lookup_cons_self

/-- The other fields are found as before. -/
theorem lookup_insertField_ne {fields : List (Text × Json)} {key other : Text} {v : Json} (apart : other ≠ key) :
    (insertField fields key v).lookup other = fields.lookup other := by
  unfold insertField
  split
  · exact lookup_replace_ne apart
  · rw [List.lookup_append, lookup_cons_ne fun same => apart same.symm]
    simp

/-- The last value inserted under a key is the one that stays. -/
theorem insertField_insertField {fields : List (Text × Json)} {key : Text} {v v' : Json} :
    insertField (insertField fields key v) key v' = insertField fields key v' := by
  unfold insertField
  by_cases here : fields.any (fun field => field.1 == key) = true
  · have kept : (fields.map fun field => if field.1 == key then (key, v) else field).any (fun field => field.1 == key) = true := by
      obtain ⟨field, member, same⟩ := List.any_eq_true.1 here
      refine List.any_eq_true.2 ⟨(key, v), List.mem_map.2 ⟨field, member, ?_⟩, by simp⟩
      rw [if_pos same]
    rw [if_pos here, if_pos kept, if_pos here, List.map_map]
    refine List.map_congr_left fun field _ => ?_
    dsimp only [Function.comp_apply]
    by_cases same : (field.1 == key) = true
    · rw [if_pos same, if_pos same, if_pos (beq_self_eq_true key)]
    · rw [if_neg same, if_neg same]
  · have apart : ∀ field ∈ fields, ¬ (field.1 == key) = true := fun field member same =>
      here (List.any_eq_true.2 ⟨field, member, same⟩)
    rw [if_neg here, if_neg here, if_pos (by simp), List.map_append]
    have unchanged : (fields.map fun field => if field.1 == key then (key, v') else field) = fields := by
      conv_rhs => rw [← List.map_id fields]
      refine List.map_congr_left fun field member => ?_
      rw [if_neg (apart field member)]
      rfl
    rw [unchanged]
    simp

/-- Of fields of one name the last one stands, at the place of the first. -/
def insertFields (fields : List (Text × Json)) : List (Text × Json) :=
  fields.foldl (fun kept field => insertField kept field.1 field.2) []

/-- Where the next item or field starts: behind the comma, unless it is the first. -/
def partStart (first : Bool) (b : UInt8) (rest : Text) : Text := if first then b :: rest else rest

section
variable (lex : Lexer)

mutual

/-- A value with the text behind it. The first number is the fuel, the second the depth that is left. -/
def readValue : Nat → Nat → Text → Option (Json × Text)
  | 0, _, _ => none
  | fuel + 1, depth, s =>
    match skipJsonSpace s with
    | [] => none
    | b :: rest =>
      if b = 0x22 then (lex.string rest).map fun (text, rest) => (.str text, rest)
      else if b = 0x5b then
        if depth = 0 then none
        else (readItems fuel (depth - 1) true rest).map fun (items, rest) => (.arr items, rest)
      else if b = 0x7b then
        if depth = 0 then none
        else (readFields fuel (depth - 1) true rest).map fun (fields, rest) => (.obj (insertFields fields), rest)
      else if b = 0x6e then
        if rest.take 3 = "ull" then some (.null, rest.drop 3) else none
      else if b = 0x74 then
        if rest.take 3 = "rue" then some (.bool true, rest.drop 3) else none
      else if b = 0x66 then
        if rest.take 4 = "alse" then some (.bool false, rest.drop 4) else none
      else (lex.number (b :: rest)).map fun (n, rest) => (.num n, rest)

/-- The items of an array after its bracket, or after the first items when not `first`. -/
def readItems : Nat → Nat → Bool → Text → Option (List Json × Text)
  | 0, _, _, _ => none
  | fuel + 1, depth, first, s =>
    match skipJsonSpace s with
    | [] => none
    | b :: rest =>
      if b = 0x5d then some ([], rest)
      else if first = true ∨ b = 0x2c then do
        let (v, rest) ← readValue fuel depth (partStart first b rest)
        let (items, rest) ← readItems fuel depth false rest
        return (v :: items, rest)
      else none

/-- The fields of an object after its brace, or after the first fields when not `first`. -/
def readFields : Nat → Nat → Bool → Text → Option (List (Text × Json) × Text)
  | 0, _, _, _ => none
  | fuel + 1, depth, first, s =>
    match skipJsonSpace s with
    | [] => none
    | b :: rest =>
      if b = 0x7d then some ([], rest)
      else if first = true ∨ b = 0x2c then
        match skipJsonSpace (partStart first b rest) with
        | [] => none
        | q :: rest =>
          if q = 0x22 then do
            let (key, rest) ← lex.string rest
            match skipJsonSpace rest with
            | [] => none
            | c :: rest =>
              if c = 0x3a then do
                let (v, rest) ← readValue fuel depth rest
                let (fields, rest) ← readFields fuel depth false rest
                return ((key, v) :: fields, rest)
              else none
          else none
      else none

end

/-- A level of nesting takes a byte, and so does an item: fuel for every text of this length. -/
def parseFuel (s : Text) : Nat := 2 * s.length + 2

end

/-- `IgnoredAny`: what follows a value, of any depth. -/
def ignoreValue (s : Text) : Option Text := (readValue ignoreLexer (parseFuel s) s.length s).map Prod.snd

/-! The first value of a stream of values, as `Deserializer::into_iter` reads it. -/

/-- A string, and what follows it. -/
def streamString (s : Text) : Option (Text × Text) :=
  match skipJsonSpace s with
  | [] => none
  | b :: rest => if b = 0x22 then readString rest else none

/-- The bytes that may follow a value without an end of its own. -/
def endsValue (b : UInt8) : Bool :=
  isJsonSpace b || b == 0x22 || b == 0x5b || b == 0x5d || b == 0x7b || b == 0x7d || b == 0x2c || b == 0x3a

/-- What follows a value that is skipped. -/
def streamIgnored (s : Text) : Option Text :=
  match skipJsonSpace s with
  | [] => none
  | b :: rest =>
    match ignoreValue (b :: rest) with
    | none => none
    | some after =>
      if b = 0x5b ∨ b = 0x22 ∨ b = 0x7b ∨ after.head?.all endsValue then some after else none

/-- What is taken as given of the JSON crate: how a float is printed, and the text of
the error for a text that does not parse. -/
structure SerdeJson where
  readFloat : Text → Option Text
  errorText : Text → Text

namespace SerdeJson

/-- `serde_json::from_str::<Value>`, without its error. -/
def fromStr (serde : SerdeJson) (s : Text) : Option Json :=
  match readValue (valueLexer serde.readFloat) (parseFuel s) 127 s with
  | some (v, rest) => if skipJsonSpace rest = [] then some v else none
  | none => none

/-- The fields of an object that is a whole text, as they are written. -/
def fieldsFromStr (serde : SerdeJson) (s : Text) : Option (List (Text × Json)) :=
  match skipJsonSpace s with
  | [] => none
  | b :: rest =>
    if b = 0x7b then
      match readFields (valueLexer serde.readFloat) (parseFuel s) 126 true rest with
      | some (fields, rest) => if skipJsonSpace rest = [] then some fields else none
      | none => none
    else none

end SerdeJson

end AgenticStack.Library
