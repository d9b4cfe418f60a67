import AgenticStack.Library.Json

/-!
# Equality of JSON values

Two values are the same when they are equal up to the order of the fields of
their objects. A value with its fields sorted stands for all of these.
-/

namespace AgenticStack.Library
set_option autoImplicit false

mutual

/-- Values are compared. -/
def Json.decEq : (v w : Json) → Decidable (v = w)
  | .null, .null => .isTrue rfl
  | .bool b, .bool c => decidable_of_iff (b = c) (by rw [Json.bool.injEq])
  | .num n, .num m => decidable_of_iff (n = m) (by rw [Json.num.injEq])
  | .str s, .str t => decidable_of_iff (s = t) (by rw [Json.str.injEq])
  | .arr items, .arr others =>
    match Json.decEqItems items others with
    | .isTrue same => .isTrue (congrArg Json.arr same)
    | .isFalse apart => .isFalse fun same => apart (Json.arr.inj same)
  | .obj fields, .obj others =>
    match Json.decEqFields fields others with
    | .isTrue same => .isTrue (congrArg Json.obj same)
    | .isFalse apart => .isFalse fun same => apart (Json.obj.inj same)
  | .null, .bool _ | .null, .num _ | .null, .str _ | .null, .arr _ | .null, .obj _
  | .bool _, .null | .bool _, .num _ | .bool _, .str _ | .bool _, .arr _ | .bool _, .obj _
  | .num _, .null | .num _, .bool _ | .num _, .str _ | .num _, .arr _ | .num _, .obj _
  | .str _, .null | .str _, .bool _ | .str _, .num _ | .str _, .arr _ | .str _, .obj _
  | .arr _, .null | .arr _, .bool _ | .arr _, .num _ | .arr _, .str _ | .arr _, .obj _
  | .obj _, .null | .obj _, .bool _ | .obj _, .num _ | .obj _, .str _ | .obj _, .arr _ => .isFalse nofun

/-- Lists of values are compared. -/
def Json.decEqItems : (items others : List Json) → Decidable (items = others)
  | [], [] => .isTrue rfl
  | [], _ :: _ | _ :: _, [] => .isFalse nofun
  | v :: items, w :: others =>
    match Json.decEq v w, Json.decEqItems items others with
    | .isTrue first, .isTrue rest => .isTrue (by rw [first, rest])
    | .isFalse apart, _ => .isFalse fun same => apart (List.cons.inj same).1
    | _, .isFalse apart => .isFalse fun same => apart (List.cons.inj same).2

/-- Lists of fields are compared. -/
def Json.decEqFields : (fields others : List (Text × Json)) → Decidable (fields = others)
  | [], [] => .isTrue rfl
  | [], _ :: _ | _ :: _, [] => .isFalse nofun
  | (k, v) :: fields, (l, w) :: others =>
    match (inferInstance : Decidable (k = l)), Json.decEq v w, Json.decEqFields fields others with
    | .isTrue key, .isTrue value, .isTrue rest => .isTrue (by rw [key, value, rest])
    | .isFalse apart, _, _ => .isFalse fun same => apart (Prod.mk.inj (List.cons.inj same).1).1
    | _, .isFalse apart, _ => .isFalse fun same => apart (Prod.mk.inj (List.cons.inj same).1).2
    | _, _, .isFalse apart => .isFalse fun same => apart (List.cons.inj same).2

end

instance : DecidableEq Json := Json.decEq

/-- A field among others that are sorted by their keys. -/
def insertSorted (key : Text) (value : Json) : List (Text × Json) → List (Text × Json)
  | [] => [(key, value)]
  | field :: fields => if key < field.1 then (key, value) :: field :: fields else field :: insertSorted key value fields

/-- The two zeros are the same number. -/
def JsonNumber.canonical : JsonNumber → JsonNumber
  | .float printed => if printed = "-0.0" then .float "0.0" else .float printed
  | n => n

mutual

/-- A value with the fields of each object in order. -/
def Json.canonical : Json → Json
  | .num n => .num n.canonical
  | .arr items => .arr (Json.canonicalItems items)
  | .obj fields => .obj (Json.canonicalFields fields)
  | v => v

/-- Each value in order. -/
def Json.canonicalItems : List Json → List Json
  | [] => []
  | v :: items => v.canonical :: Json.canonicalItems items

/-- The fields by their keys, each value in order. -/
def Json.canonicalFields : List (Text × Json) → List (Text × Json)
  | [] => []
  | (key, v) :: fields => insertSorted key v.canonical (Json.canonicalFields fields)

end

example : (Json.obj [("b", .null), ("a", .num (.float "-0.0"))]).canonical =
    (Json.obj [("a", .num (.float "0.0")), ("b", .null)]).canonical := by decide

end AgenticStack.Library
