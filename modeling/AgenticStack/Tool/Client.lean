import AgenticStack.Library.JsonParse
import AgenticStack.Types.Items

/-!
# Client tools behind a function call

A custom or shell tool is declared to the model as a function. Its call is
restored to the public shape from the function call's arguments.
-/

namespace AgenticStack
set_option autoImplicit false
open Library

/-- The FNV-1a hash of a name, on 64 bits. -/
def stableNameHash (value : Text) : Nat :=
  value.foldl (fun hash byte => (hash ^^^ byte.toNat) * 0x100000001b3 % 2 ^ 64) 0xcbf29ce484222325

/-- Sixteen lower-case hex digits. -/
def hex16 (n : Nat) : Text := (List.range 16).map fun i => hexDigit (n / 16 ^ (15 - i) % 16).toUInt8

/-- The public id of an item that upstream knows as a function call. -/
def publicItemId (front item_id : Text) : Text :=
  if front.isPrefixOf item_id then item_id
  else match (stripPrefix "fc_" item_id).filter (· ≠ []) with
    | some suffix => front ++ suffix
    | none => front ++ hex16 (stableNameHash item_id)

example : publicItemId "ctc_" "fc_item" = utf8 "ctc_item" := by decide

/-- A number that fits `u64`, or an explicit null. -/
def Json.asOptionU64 : Json → Option (Option Nat)
  | .null => some none
  | .num (.posInt n) => some (some n)
  | _ => none

def Json.asStrings : Json → Option (List Text)
  | .arr items => items.mapM Json.asStr
  | _ => none

/-- At most one of the fields may have the key; it is read by `read`. -/
def uniqueField {α : Type} (key : Text) (read : Json → Option α) (missing : Option α)
    (fields : List (Text × Json)) : Option α :=
  match fields.filter fun field => field.1 == key with
  | [] => missing
  | [field] => read field.2
  | _ => none

/-- A shell action from an object's fields; the fields it does not know are kept as `extra`. -/
def ShellCallAction.ofFields (fields : List (Text × Json)) : Option ShellCallAction := do
  let commands ← uniqueField "commands" Json.asStrings none fields
  let timeout_ms ← uniqueField "timeout_ms" Json.asOptionU64 (some none) fields
  let max_output_length ← uniqueField "max_output_length" Json.asOptionU64 (some none) fields
  let known : List Text := ["commands", "timeout_ms", "max_output_length"]
  return ⟨commands, timeout_ms, max_output_length, insertFields (fields.filter fun field => !known.contains field.1)⟩

/-- `serde_json::from_str::<ShellCallAction>`. -/
def ShellCallAction.fromStr (serde : SerdeJson) (arguments : Text) : Option ShellCallAction :=
  (serde.fieldsFromStr arguments).bind ShellCallAction.ofFields

def ShellCallStatus.ofMessage : MessageStatus → ShellCallStatus
  | .inProgress => .inProgress
  | .completed => .completed

namespace CustomHandler

/-- The input of a custom call: the arguments are a string, or an object with a string `input`. -/
def tryInputFromArguments (serde : SerdeJson) (arguments : Text) : Option Text :=
  match serde.fromStr arguments with
  | some (.str input) => some input
  | some (.obj fields) => ((Json.obj fields).get "input").bind Json.asStr
  | _ => none

/-- Arguments of any other form are the input themselves. -/
def inputFromArguments (serde : SerdeJson) (arguments : Text) : Text :=
  (tryInputFromArguments serde arguments).getD arguments

def outputItem (serde : SerdeJson) (call : FunctionToolCall) : OutputItem :=
  .customToolCall
    { id := publicItemId "ctc_" call.id
      status := some call.status
      call_id := call.call_id
      name := call.name
      input := inputFromArguments serde call.arguments }

end CustomHandler

namespace ShellHandler

def outputItemWithStatus (serde : SerdeJson) (call : FunctionToolCall) (status : ShellCallStatus) : Option ShellCall :=
  (ShellCallAction.fromStr serde call.arguments).map fun action =>
    { id := some (publicItemId "sh_" call.id)
      call_id := call.call_id
      action
      status := some status
      extra := [] }

/-- A call whose arguments are no shell action has no public shape. -/
def outputItem (serde : SerdeJson) (call : FunctionToolCall) : Option OutputItem :=
  (outputItemWithStatus serde call (ShellCallStatus.ofMessage call.status)).map .shellCall

end ShellHandler

end AgenticStack
