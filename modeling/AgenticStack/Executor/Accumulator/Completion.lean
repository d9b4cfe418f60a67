import AgenticStack.Events.Normalize

/-!
# Completing an item

A done event brings the finished copy of an item, or of one of its parts. What
the copy leaves out is kept from what was streamed.
-/

namespace AgenticStack
set_option autoImplicit false
open Library

/-- `insert_at_part_index`: an index past the end is the end. -/
def insertAtPartIndex {α : Type} (parts : List α) (part_index : Nat) (part : α) : List α :=
  parts.insertIdx (min part_index parts.length) part

/-- A text of the model. -/
def OutputTextContent.new (text : Text) : OutputTextContent := ⟨"output_text", text, []⟩

/-- A text the model thought. -/
def ReasoningTextContent.new (text : Text) : ReasoningTextContent := ⟨"reasoning_text", text⟩

/-- A summary as it stands in a reasoning item. -/
def summaryText (text : Text) : Json := .obj [("type", .str "summary_text"), ("text", .str text)]

/-- Reasoning without any part. -/
def ReasoningOutput.new (id : Text) : ReasoningOutput := ⟨id, [], [], none, none⟩

section
variable (items : ItemSerde) (newId : NewId)

/-- The finished reasoning item of a done event; it must have an id. -/
def ReasoningOutput.ofDone (item : Json) : Option ReasoningOutput :=
  match items.itemOpt newId item with
  | some (.reasoning reasoning) => if reasoning.id = [] then none else some reasoning
  | _ => none

/-- A part of the reasoning that is done stands at its index; an item that is done stands in the place of what there
was. -/
def ReasoningOutput.applyDone (self : ReasoningOutput) (payload : EventPayload) : ReasoningOutput :=
  match payload with
  | .reasoningTextDone text _ _ content_index =>
    if text = [] then self
    else { self with content := insertAtPartIndex self.content content_index (ReasoningTextContent.new text) }
  | .reasoningSummaryTextDone text _ _ summary_index =>
    if text = [] then self else { self with summary := insertAtPartIndex self.summary summary_index (summaryText text) }
  | .outputItemDone _ _ _ item =>
    match item.asObject, ReasoningOutput.ofDone items newId item with
    | some raw, some completed =>
      { completed with
        content := if (raw.lookup (utf8 "content")).isSome then completed.content else self.content
        summary := if (raw.lookup (utf8 "summary")).isSome then completed.summary else self.summary }
    | _, _ => self
  | _ => self

/-- A command that is done stands at its index. -/
def ShellCall.applyDone (self : ShellCall) (payload : EventPayload) (buffer : Text) : ShellCall × Text :=
  match payload with
  | .shellCallCommand _ _ command_index (.done command) =>
    if command_index < self.action.commands.length then
      ({ self with action := { self.action with
          commands := self.action.commands.set command_index (if command = [] then buffer else command) } }, [])
    else (self, buffer)
  | .outputItemDone _ _ _ item =>
    match items.itemOpt newId item with
    | some (.shellCall call) => (call, [])
    | _ => (self, buffer)
  | _ => (self, buffer)

/-- The arguments that are done stand in the place of those that were gathered, with the id and name that come with
them. -/
def FunctionToolCall.applyDone (self : FunctionToolCall) (payload : EventPayload) (buffer : Text) : FunctionToolCall × Text :=
  match payload with
  | .functionCallArgsDone arguments call_id _ name _ =>
    ({ self with
      arguments := if arguments = [] then buffer else arguments
      call_id := (call_id.filter (· ≠ [])).getD self.call_id
      name := if name = [] then self.name else name }, [])
  | .outputItemDone _ _ _ item =>
    match items.functionCall newId item with
    | none => (self, buffer)
    | some call =>
      let call := { call with
        id := if ((item.get "id").bind Json.asStr).all (· = []) = true then self.id else call.id
        call_id := if call.call_id = [] then self.call_id else call.call_id
        name := if call.name = [] then self.name else call.name
        «namespace» := call.namespace.or self.namespace }
      if call.arguments = [] then
        if self.arguments = [] then ({ call with arguments := buffer }, []) else ({ call with arguments := self.arguments }, buffer)
      else (call, [])
  | _ => (self, buffer)

/-- A search that is done stands in the place of the one that was opened. -/
def ToolSearchCall.applyDone (self : ToolSearchCall) (payload : EventPayload) : ToolSearchCall :=
  match payload with
  | .outputItemDone _ _ _ item => (items.toolSearchCall item).getD self
  | _ => self

/-- The input that is done stands in the place of the one that was gathered. -/
def CustomToolCall.applyDone (self : CustomToolCall) (payload : EventPayload) (buffer : Text) : CustomToolCall × Text :=
  match payload with
  | .customToolCallInputDone input _ _ => ({ self with input := if input = [] then buffer else input }, [])
  | .outputItemDone _ _ _ item =>
    match items.customToolCall item with
    | none => (self, buffer)
    | some call =>
      if call.input = [] then
        if self.input = [] then ({ call with input := buffer }, []) else ({ call with input := self.input }, buffer)
      else (call, [])
  | _ => (self, buffer)

/-- A call of a server that is done stands in the place of the one that was opened. -/
def McpCall.applyDone (self : McpCall) (payload : EventPayload) : McpCall :=
  match payload with
  | .outputItemDone _ _ _ item => (items.mcpCall item).getD self
  | _ => self

/-- A listing that is done stands in the place of the one that was opened. -/
def McpListTools.applyDone (self : McpListTools) (payload : EventPayload) : McpListTools :=
  match payload with
  | .outputItemDone _ _ _ item => (items.mcpListTools item).getD self
  | _ => self

/-- An id of its own, or none. -/
def CompactionItem.withId (done : CompactionItem) (id : Option Text) : CompactionItem :=
  if done.id.all (· = []) = true then { done with id } else done

/-- A checkpoint that is done stands in the place of the one that was opened, under its id. -/
def CompactionItem.applyDone (self : CompactionItem) (payload : EventPayload) : CompactionItem :=
  match payload with
  | .outputItemDone _ _ _ item => ((items.compaction item).map fun done => done.withId self.id).getD self
  | _ => self

end

/-- The message that is done is the message. -/
def OutputMessage.mergeDone (_self done : OutputMessage) (_text : Text) : OutputMessage × Text := (done, [])

/-- Reasoning that is done, where it leaves out a field, keeps what was gathered of it. -/
def ReasoningOutput.mergeDone (self done : ReasoningOutput) (payload : EventPayload) : ReasoningOutput :=
  have raw := match payload with
    | .outputItemDone _ _ _ item => item.asObject
    | _ => none
  { done with
    content := if raw.any (fun raw => (raw.lookup (utf8 "content")).isNone) = true then self.content else done.content
    summary := if raw.any (fun raw => (raw.lookup (utf8 "summary")).isNone) = true then self.summary else done.summary
    id := if done.id = [] then self.id else done.id }

/-- A call that is done, where a text of it is empty, keeps what was gathered of it. -/
def FunctionToolCall.mergeDone (self done : FunctionToolCall) (arguments : Text) : FunctionToolCall × Text :=
  let merged := { done with
    id := if done.id = [] then self.id else done.id
    call_id := if done.call_id = [] then self.call_id else done.call_id
    name := if done.name = [] then self.name else done.name
    «namespace» := done.namespace.or self.namespace }
  if done.arguments = [] then
    if self.arguments = [] then ({ merged with arguments := arguments }, [])
    else ({ merged with arguments := self.arguments }, arguments)
  else (merged, [])

/-- A call that is done, where a text of it is empty, keeps what was gathered of it. -/
def CustomToolCall.mergeDone (self done : CustomToolCall) (input : Text) : CustomToolCall × Text :=
  let merged := { done with
    id := if done.id = [] then self.id else done.id
    call_id := if done.call_id = [] then self.call_id else done.call_id
    name := if done.name = [] then self.name else done.name }
  if done.input = [] then
    if self.input = [] then ({ merged with input := input }, []) else ({ merged with input := self.input }, input)
  else (merged, [])

/-- A search that is done without an id gets one. -/
def WebSearchCall.mergeDone (newId : NewId) (done : WebSearchCall) (item_id : Text) : WebSearchCall :=
  if done.id = [] then { done with id := if item_id = [] then newId "ws_" else item_id } else done

/-- A checkpoint that is done keeps the id it was opened under. -/
def CompactionItem.mergeDone (self done : CompactionItem) : CompactionItem := done.withId self.id

end AgenticStack
