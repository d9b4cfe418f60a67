import AgenticStack.Library.Text

/-!
# JSON values

Values keep their object fields in insertion order, each key once. `write` is
the compact serialization: no blanks, and only the quote, the backslash and the
control characters are escaped.
-/

namespace AgenticStack.Library
set_option autoImplicit false

/-- A JSON number: an integer of either sign, or a float kept as its printed text. -/
inductive JsonNumber where
  | posInt (n : Nat)
  | negInt (n : Nat)
  | float (printed : Text)
deriving DecidableEq, Repr

/-- A JSON value, its fields in the order they were written in. -/
inductive Json where
  | null
  | bool (b : Bool)
  | num (n : JsonNumber)
  | str (s : Text)
  | arr (items : List Json)
  | obj (fields : List (Text × Json))
deriving Repr, Inhabited

namespace Json

/-- The value under `key`, of an object that has it. -/
def get (v : Json) (key : Text) : Option Json :=
  match v with
  | .obj fields => fields.lookup key
  | _ => none

/-- The text of a value. -/
def asStr : Json → Option Text
  | .str s => some s
  | _ => none

/-- The fields of a value. -/
def asObject : Json → Option (List (Text × Json))
  | .obj fields => some fields
  | _ => none

end Json

/-- The digit of a number below 16. -/
def hexDigit (n : UInt8) : UInt8 := if n < 10 then 0x30 + n else 0x57 + n

/-- One byte of a string, as it stands between the quotes. -/
def escapeByte (b : UInt8) : Text :=
  if b = 0x22 then "\\\"" else if b = 0x5c then "\\\\"
  else if b = 0x08 then "\\b" else if b = 0x0c then "\\f"
  else if b = 0x0a then "\\n" else if b = 0x0d then "\\r" else if b = 0x09 then "\\t"
  else if b < 0x20 then utf8 "\\u00" ++ [hexDigit (b / 16), hexDigit (b % 16)]
  else [b]

/-- A text between its quotes. -/
def writeString (s : Text) : Text := [0x22] ++ s.flatMap escapeByte ++ [0x22]

/-- The decimal digits of a natural number. -/
def decimal (n : Nat) : Text := toString n

/-- A number as it is written. -/
def JsonNumber.write : JsonNumber → Text
  | .posInt n => decimal n
  | .negInt n => utf8 "-" ++ decimal n
  | .float printed => printed

/-- The parts between two brackets, separated by commas. -/
def commaSeparated : List Text → Text
  | [] => []
  | [part] => part
  | part :: parts => part ++ utf8 "," ++ commaSeparated parts

mutual

/-- A value as it is written, without white space. -/
def Json.write : Json → Text
  | .null => "null"
  | .bool true => "true"
  | .bool false => "false"
  | .num n => n.write
  | .str s => writeString s
  | .arr items => utf8 "[" ++ commaSeparated (Json.writeItems items) ++ utf8 "]"
  | .obj fields => utf8 "\x7b" ++ commaSeparated (Json.writeFields fields) ++ utf8 "\x7d"

/-- Each value as it is written. -/
def Json.writeItems : List Json → List Text
  | [] => []
  | v :: items => v.write :: Json.writeItems items

/-- Each field as it is written. -/
def Json.writeFields : List (Text × Json) → List Text
  | [] => []
  | (key, v) :: fields => (writeString key ++ utf8 ":" ++ v.write) :: Json.writeFields fields

end

example : (Json.obj [("input", .str "say \"hi\"\n")]).write = utf8 "\x7b\"input\":\"say \\\"hi\\\"\\n\"\x7d" := by
  decide

end AgenticStack.Library
