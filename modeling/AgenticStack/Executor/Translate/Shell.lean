import AgenticStack.Executor.Translate.Custom

/-!
# The shell tool translator

The translator of a shell call announces the commands of the action one by one
while the arguments of the function call still grow, and emits the rest when
they are complete.
-/

namespace AgenticStack
set_option autoImplicit false
open Library

/-- How far the commands have been read. -/
inductive ShellCommandsCompletion where
  | streaming | arrayDone | argumentsDone
deriving DecidableEq, Repr

/-- What was shown of the commands of a call. -/
structure ShellCallState where
  added : Bool
  output_index : Nat
  commands : List Text
  cursor : Option Nat
  command_open : Bool
  completion : ShellCommandsCompletion

/-- An event of a command, at its index. -/
def shellCommandFrame (type : SSEEventType) (output_index command_index : Nat) (value : Text) :
    ExecutorResult EventFrame :=
  let field : Text := if type = .shellCallCommandDelta then "delta" else "command"
  syntheticEvent type output_index [("command_index", .num (.posInt command_index)), (field, .str value)]

/-- What follows the bracket of the `commands` array, from the first key of the object on. -/
def commandsArrayWithin : Nat → Text → Option Text
  | 0, _ => none
  | fuel + 1, rest => do
    let (name, rest) ← streamString rest
    let rest ← stripPrefix ":" (trimStart rest)
    let rest := trimStart rest
    if name = "commands" then stripPrefix "[" rest
    else
      let rest ← streamIgnored rest
      let rest ← stripPrefix "," (trimStart rest)
      commandsArrayWithin fuel (trimStart rest)

/-- The text of the array of commands, where it has begun. -/
def commandsArray (arguments : Text) : Option Text := do
  let rest ← stripPrefix [0x7b] (trimStart arguments)
  commandsArrayWithin arguments.length (trimStart rest)

/-- Where the items of the `commands` array start. Every key takes bytes, so the length is fuel enough. -/
def shellCommandsStart (arguments : Text) : Option Nat :=
  (commandsArray arguments).map fun array => arguments.length - array.length

/-- Whether a byte is white space. -/
def isAsciiWhitespace (b : UInt8) : Bool := b == 0x20 || b == 0x09 || b == 0x0a || b == 0x0c || b == 0x0d

/-- Where the white space at a place ends. -/
def skipAsciiWhitespace (arguments : Text) (cursor : Nat) : Nat :=
  cursor + ((arguments.drop cursor).takeWhile isAsciiWhitespace).length

/-- Whether a command may start at the cursor, past the separator when there are commands already.
The separator is not consumed before something follows it. -/
def beforeCommand (state : ShellCallState) (arguments : Text) (cursor : Nat) :
    ExecutorResult (ShellCallState × Nat × Bool) :=
  let cursor := skipAsciiWhitespace arguments cursor
  if state.commands ≠ [] then
    match arguments[cursor]? with
    | none => .ok (state, cursor, false)
    | some b =>
      if b = 0x2c then
        let rest := trimStart (arguments.drop (cursor + 1))
        if rest = [] then .ok (state, cursor, false) else .ok (state, arguments.length - rest.length, true)
      else if b = 0x5d then .ok ({ state with completion := .arrayDone }, cursor, false)
      else .error (.streamError "invalid shell commands array separator")
  else if arguments[cursor]? = some 0x5d then .ok ({ state with completion := .arrayDone }, cursor, false)
  else .ok (state, cursor, true)

/-- The next command, up to its opening quote; `false` when the loop stops. -/
def openCommand (state : ShellCallState) (arguments : Text) (cursor : Nat) :
    ExecutorResult (ShellCallState × Nat × List EventFrame × Bool) :=
  match beforeCommand state arguments cursor with
  | .error error => .error error
  | .ok (state, cursor, false) => .ok (state, cursor, [], false)
  | .ok (state, cursor, true) =>
    match arguments[cursor]? with
    | none => .ok (state, cursor, [], false)
    | some b =>
      if b = 0x22 then (shellCommandFrame .shellCallCommandAdded state.output_index state.commands.length []).map fun frame =>
        ({ state with commands := state.commands ++ [[]], command_open := true }, cursor + 1, [frame], true)
      else .error (.streamError "shell command must be a JSON string")

section
variable (serde : SerdeJson)

/-- The complete part of the open command. -/
def extendCommand (state : ShellCallState) (arguments : Text) (cursor : Nat) :
    ExecutorResult (ShellCallState × Nat × List EventFrame) :=
  let encoded := arguments.drop cursor
  let length := completeJsonStringPrefix encoded
  if length = 0 then .ok (state, cursor, [])
  else match decodeBody (encoded.take length) with
    | none => .error (.streamError (utf8 "invalid shell command string: " ++
        serde.errorText ([0x22] ++ encoded.take length ++ [0x22])))
    | some delta =>
      let index := state.commands.length - 1
      (shellCommandFrame .shellCallCommandDelta state.output_index index delta).map fun frame =>
        ({ state with commands := state.commands.modify index (· ++ delta) }, cursor + length, [frame])

/-- The open command up to its closing quote; `false` when that has not arrived. -/
def readCommand (state : ShellCallState) (arguments : Text) (cursor : Nat) :
    ExecutorResult (ShellCallState × Nat × List EventFrame × Bool) :=
  if arguments.length < cursor then .error (.streamError "shell arguments changed while streaming")
  else match extendCommand serde state arguments cursor with
    | .error error => .error error
    | .ok (state, cursor, frames) =>
      if arguments[cursor]? = some 0x22 then
        let index := state.commands.length - 1
        (shellCommandFrame .shellCallCommandDone state.output_index index (state.commands.getD index [])).map fun frame =>
          ({ state with command_open := false }, cursor + 1, frames ++ [frame], true)
      else .ok (state, cursor, frames, false)

/-- One round of the loop: `true` when it goes on. -/
def commandRound (state : ShellCallState) (arguments : Text) (cursor : Nat) :
    ExecutorResult (ShellCallState × Nat × List EventFrame × Bool) :=
  if state.command_open then readCommand serde state arguments cursor
  else match openCommand state arguments cursor with
    | .error error => .error error
    | .ok (state, cursor, frames, false) => .ok (state, cursor, frames, false)
    | .ok (state, cursor, frames, true) =>
      (readCommand serde state arguments cursor).map fun (state, cursor, more, goOn) => (state, cursor, frames ++ more, goOn)

/-- The loop over the commands. A round that goes on consumes two quotes or one: the fuel never runs out. -/
def commandsLoop : Nat → ShellCallState → Text → Nat → ExecutorResult (ShellCallState × List EventFrame)
  | 0, _, _, _ => .error (.streamError "out of fuel")
  | fuel + 1, state, arguments, cursor =>
    match commandRound serde state arguments cursor with
    | .error error => .error error
    | .ok (state, cursor, frames, false) => .ok ({ state with cursor := some cursor }, frames)
    | .ok (state, cursor, frames, true) =>
      (commandsLoop fuel state arguments cursor).map fun (state, more) => (state, frames ++ more)

/-- What is shown of the commands as they arrive. -/
def incrementalShellCommands (state : ShellCallState) (arguments : Text) :
    ExecutorResult (ShellCallState × List EventFrame) := do
  ensureFunctionCallSize arguments
  if state.completion ≠ .streaming then return (state, [])
  else match state.cursor.or (shellCommandsStart arguments) with
    | none => return (state, [])
    | some cursor => commandsLoop serde (arguments.length + 1) state arguments cursor

/-- The error of a call that ends with other commands than were shown. -/
def contradictsCommands : ExecutorError := .streamError "authoritative shell action contradicts streamed commands"

/-- What is not yet emitted of the command at `index`. -/
def emitCommand (state : ShellCallState) (index : Nat) (command : Text) (frames : List EventFrame) :
    ExecutorResult (ShellCallState × List EventFrame) := do
  let remaining := command.drop (state.commands.getD index []).length
  let deltas ← if remaining = [] then pure []
    else (shellCommandFrame .shellCallCommandDelta state.output_index index remaining).map fun frame => [frame]
  let done ← shellCommandFrame .shellCallCommandDone state.output_index index command
  return ({ state with commands := state.commands.set index command, command_open := false }, frames ++ deltas ++ [done])

/-- The commands of the action from `index` on, as far as they are not emitted. -/
def finishCommandsFrom (state : ShellCallState) (index : Nat) : List Text → ExecutorResult (ShellCallState × List EventFrame)
  | [] => .ok (state, [])
  | command :: more => do
    let (state, frames) ← match state.commands[index]? with
      | some emitted =>
        let isOpen := state.command_open && index + 1 == state.commands.length
        if ¬ emitted <+: command ∨ (isOpen = false ∧ command ≠ emitted) then throw contradictsCommands
        else if isOpen = false then pure (state, [])
        else emitCommand state index command []
      | none => do
        let added ← shellCommandFrame .shellCallCommandAdded state.output_index index []
        emitCommand { state with commands := state.commands ++ [[]] } index command [added]
    let (state, later) ← finishCommandsFrom state (index + 1) more
    return (state, frames ++ later)

/-- What is shown of the commands that were not shown yet. -/
def finishShellCommands (state : ShellCallState) (arguments : Text) :
    ExecutorResult (ShellCallState × List EventFrame) := do
  ensureFunctionCallSize arguments
  match ShellCallAction.fromStr serde arguments with
  | none => throw (.streamError (utf8 "shell function call contains invalid action arguments: " ++ serde.errorText arguments))
  | some action =>
    if action.commands.length < state.commands.length ∨
        (state.completion = .argumentsDone ∧ state.commands ≠ action.commands) then throw contradictsCommands
    else
      let (state, frames) ← finishCommandsFrom state 0 action.commands
      return ({ state with completion := .argumentsDone }, frames)

/-- The opening of a shell call. -/
def shellAddedFrame (call : AccumulatedFunctionCall) : ExecutorResult EventFrame :=
  syntheticEvent .outputItemAdded call.output_index
    [("item", .obj [("type", .str "shell_call"), ("id", .str (publicItemId "sh_" call.item.id)),
      ("call_id", .str call.item.call_id), ("status", .str "in_progress"),
      ("action", .obj [("commands", .arr []), ("timeout_ms", .null), ("max_output_length", .null)])])]

/-- The name of the status. -/
def ShellCallStatus.asStr : ShellCallStatus → Text
  | .inProgress => "in_progress"
  | .completed => "completed"
  | .incomplete => "incomplete"

/-- A shell call as an output item. -/
def ShellCall.toJson (call : ShellCall) : Json :=
  .obj ([(utf8 "type", Json.str "shell_call")] ++ optField "id" (call.id.map .str) ++
    [(utf8 "call_id", Json.str call.call_id), (utf8 "action", call.action.toJson)] ++
    optField "status" (call.status.map fun status => .str status.asStr) ++ call.extra)

/-- The end of a shell call. -/
def shellDoneFrame (call : AccumulatedFunctionCall) : ExecutorResult EventFrame :=
  match ShellHandler.outputItemWithStatus serde call.item (ShellCallStatus.ofMessage call.item.status) with
  | none => .error (.streamError "shell function call contains invalid action arguments")
  | some item => syntheticEvent .outputItemDone call.output_index [("item", item.toJson)]

/-- The added frame, when it is still missing, and the rest of the commands. -/
def finishShellCall (state : ShellCallState) (call : AccumulatedFunctionCall) :
    ExecutorResult (ShellCallState × List EventFrame) := do
  let added ← if state.added then pure [] else (shellAddedFrame call).map fun frame => [frame]
  let (state, frames) ← finishShellCommands serde { state with added := true } call.arguments
  return (state, added ++ frames)

/-- A step of a call that must have been started. -/
def ShellCallState.started (state : Option ShellCallState) (call : Option AccumulatedFunctionCall)
    (step : ShellCallState → AccumulatedFunctionCall → ExecutorResult (ShellCallState × List EventFrame)) :
    ExecutorResult (Option ShellCallState × List EventFrame) :=
  match state, call with
  | none, _ => .error (.streamError "shell translator has no started call")
  | some state, none => .ok (some state, [])
  | some state, some call => (step state call).map fun (state, frames) => (some state, frames)

/-- The events of a shell call as they are shown to the client. -/
def ShellTranslator.translate (state : Option ShellCallState) (event : ToolEvent)
    (call : Option AccumulatedFunctionCall) : ExecutorResult (Option ShellCallState × List EventFrame) :=
  match event with
  | .added _ _ output_index _ =>
    let state := ShellCallState.mk call.isSome output_index [] none false .streaming
    match call with
    | some call => (shellAddedFrame call).map fun frame => (some state, [frame])
    | none => .ok (some state, [])
  | .delta _ => ShellCallState.started state call fun state call => incrementalShellCommands serde state call.arguments
  | .argumentsDone _ => ShellCallState.started state call (finishShellCall serde)
  | .done _ => ShellCallState.started state call fun state call => do
    let (state, frames) ← finishShellCall serde state call
    let done ← shellDoneFrame serde call
    return (state, frames ++ [done])

/-- All events of a call, from a translator that has not started it. -/
def ShellTranslator.run (state : Option ShellCallState) (events : List (ToolEvent × Option AccumulatedFunctionCall)) :
    ExecutorResult (Option ShellCallState × List EventFrame) :=
  transduce (fun state event => ShellTranslator.translate serde state event.1 event.2) state events

end

end AgenticStack
