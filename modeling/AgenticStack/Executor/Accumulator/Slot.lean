import AgenticStack.Executor.Accumulator.Completion
import AgenticStack.Executor.PendingCalls
import AgenticStack.Library.AssocList

/-!
# Slots

A round keeps one slot for each output index: an item that is still streamed, or
a finished one. An operation answers with the slots it leaves, also when it
fails, and with the index it resolved, or nothing when the event is ignored.
-/

namespace AgenticStack
set_option autoImplicit false
open Library

/-- Whether the events of the stream are checked. -/
inductive Validation where
  | strict | lenient
deriving DecidableEq, Repr

/-- What an event tells of the item it is about. -/
structure ItemIdentity where
  index : Option Nat
  item_id : Option Text
  item_type : SSEItemType

/-- What an event does with its item. -/
inductive SlotAction where
  | «open» | mutate | complete
deriving DecidableEq, Repr

/-- An item with what its deltas have brought so far. -/
inductive ActiveItem where
  | message (item : OutputMessage) (text : Text)
  | reasoning (item : ReasoningOutput)
  | functionCall (item : FunctionToolCall) (arguments : Text)
  | toolSearchCall (item : ToolSearchCall)
  | customToolCall (item : CustomToolCall) (input : Text)
  | shellCall (item : ShellCall) (command_stream : Option (List Bool)) (command : Text)
  | webSearchCall (item : Option WebSearchCall)
  | mcpCall (item : McpCall)
  | mcpListTools (item : McpListTools)
  | compaction (item : CompactionItem)

/-- The error of a stream that cannot be followed. -/
def invalid (message : Text) : ExecutorError := .invalidRequest message

namespace ActiveItem

/-- The type of an item that is open. -/
def itemType : ActiveItem → SSEItemType
  | .message .. => .message
  | .reasoning .. => .reasoning
  | .functionCall .. => .functionCall
  | .toolSearchCall .. => .toolSearchCall
  | .customToolCall .. => .customToolCall
  | .shellCall .. => .shellCall
  | .webSearchCall .. => .webSearchCall
  | .mcpCall .. => .mcpCall
  | .mcpListTools .. => .mcpListTools
  | .compaction .. => .compaction

/-- The id an added item has, or a new one. -/
def addedId (newId : NewId) (front item_id : Text) : Text := if item_id = [] then newId front else item_id

/-- The item that an opening event opens, with what it tells of it already. -/
def fromAdded (newId : NewId) (payload : EventPayload) : Option ActiveItem :=
  match payload with
  | .outputItemAdded item_id item_type _ name namespace_ call_id shell_call =>
    match item_type with
    | .shellCall => shell_call.map fun item => .shellCall item none []
    | .reasoning => some (.reasoning (ReasoningOutput.new (addedId newId "rs_" item_id)))
    | .functionCall => some (.functionCall
        ⟨addedId newId "fc_" item_id, call_id.getD [], name.getD [], namespace_, [], .inProgress⟩ [])
    | .toolSearchCall =>
      match call_id.filter fun call_id => !isBlank call_id with
      | none => none
      | some call_id =>
        if isBlank item_id then none else some (.toolSearchCall ⟨item_id, call_id, .client, .obj [], .inProgress⟩)
    | .customToolCall => some (.customToolCall
        ⟨addedId newId "ctc_" item_id, some .inProgress, call_id.getD [], name.getD [], []⟩ [])
    | .message => some (.message ⟨addedId newId "msg_" item_id, "assistant", .inProgress, []⟩ [])
    | .webSearchCall => some (.webSearchCall none)
    | .compaction => some (.compaction ⟨some (addedId newId "cmp_" item_id), []⟩)
    | .mcpCall => some (.mcpCall
        ⟨addedId newId "mcp_" item_id, [], name.getD [], [], some .inProgress, none, none, none⟩)
    | .mcpListTools => some (.mcpListTools ⟨addedId newId "mcpl_" item_id, [], [], none⟩)
  | _ => none

/-- A finished item as a candidate to be completed once more. -/
def fromCompleted : OutputItem → Option ActiveItem
  | .shellCall item => some (.shellCall item none [])
  | .message item => some (.message item [])
  | .reasoning item => some (.reasoning item)
  | .functionCall item => some (.functionCall item [])
  | .toolSearchCall item => some (.toolSearchCall item)
  | .customToolCall item => some (.customToolCall item [])
  | .webSearchCall item => some (.webSearchCall (some item))
  | .mcpCall item => some (.mcpCall item)
  | .mcpListTools item => some (.mcpListTools item)
  | .compaction item => some (.compaction item)
  | .unknown => none

/-- One event of a shell command. `done` says of each command so far whether it is finished. -/
def applyShellCommand (items : ItemSerde) (newId : NewId) (item : ShellCall) (command_stream : Option (List Bool)) (buffer : Text)
    (payload : EventPayload) (index : Nat) (update : ShellCommandUpdate) : ActiveItem × ExecutorResult Unit :=
  let done := command_stream.getD []
  let same := ActiveItem.shellCall item command_stream buffer
  match update with
  | .added command =>
    if index ≠ done.length ∨ item.action.commands.length ≠ done.length ∨ done.getLast? = some false then
      (same, .error (invalid "shell command added out of order"))
    else
      let action := { item.action with commands := item.action.commands ++ [[]] }
      (.shellCall { item with action } (some (done ++ [false])) command, .ok ())
  | .delta delta =>
    if done[index]? ≠ some false then (same, .error (invalid "shell command delta has no active command"))
    else (.shellCall item command_stream (buffer ++ delta), .ok ())
  | .done command =>
    if done[index]? ≠ some false ∨ buffer ≠ command then
      (same, .error (invalid "shell command done is repeated or contradicts streamed command"))
    else
      let (item, buffer) := item.applyDone items newId payload buffer
      (.shellCall item (some (done.set index true)) buffer, .ok ())

/-- An event of an open item: a text is gathered, or a part that is done takes its place. -/
def applyEvent (items : ItemSerde) (newId : NewId) (active : ActiveItem) (payload : EventPayload) : ActiveItem × ExecutorResult Unit :=
  match active, payload with
  | .shellCall item command_stream buffer, .shellCallCommand _ _ command_index update =>
    applyShellCommand items newId item command_stream buffer payload command_index update
  | .message item text, .textDelta delta _ _ _ => (.message item (text ++ delta), .ok ())
  | .reasoning item, .reasoningTextDone .. | .reasoning item, .reasoningSummaryTextDone .. =>
    (.reasoning (item.applyDone items newId payload), .ok ())
  | .functionCall item arguments, .functionCallArgsDelta delta _ _ _ => (.functionCall item (arguments ++ delta), .ok ())
  | .functionCall item arguments, .functionCallArgsDone .. =>
    let (item, arguments) := item.applyDone items newId payload arguments
    (.functionCall item arguments, .ok ())
  | .customToolCall item input, .customToolCallInputDelta delta _ _ => (.customToolCall item (input ++ delta), .ok ())
  | .customToolCall item input, .customToolCallInputDone .. =>
    let (item, input) := item.applyDone items payload input
    (.customToolCall item input, .ok ())
  | active, _ => (active, .ok ())

/-- An item the stream ended in the middle of, with what was gathered of it. -/
def finalize : ActiveItem → Option OutputItem
  | .shellCall item _ _ => some (.shellCall item)
  | .reasoning item => some (.reasoning item)
  | .functionCall item arguments => some (.functionCall { item with
      arguments := if arguments ≠ [] ∧ item.arguments = [] then arguments else item.arguments
      status := .completed })
  | .toolSearchCall item => some (.toolSearchCall item)
  | .message item text => some (.message { item with
      content := if text = [] then item.content else item.content ++ [OutputTextContent.new text]
      status := .completed })
  | .customToolCall item input => some (.customToolCall { item with
      input := if item.input = [] then input else item.input
      status := some .completed })
  | .webSearchCall item => item.map .webSearchCall
  | .mcpCall item => some (.mcpCall item)
  | .mcpListTools item => some (.mcpListTools item)
  | .compaction item => some (.compaction item)

/-- `apply_output_item_done`: the finished copy, read as an item when that is possible. -/
def applyOutputItemDone (items : ItemSerde) (newId : NewId) (active : ActiveItem) (payload : EventPayload)
    (done_item : Option OutputItem) (item_id : Text) : ActiveItem :=
  match active, done_item with
  | .shellCall _ command_stream command, some (.shellCall done) => .shellCall done command_stream command
  | .message item text, some (.message done) =>
    let (item, text) := item.mergeDone done text
    .message item text
  | .reasoning item, some (.reasoning done) => .reasoning (item.mergeDone done payload)
  | .functionCall item arguments, some (.functionCall done) =>
    let (item, arguments) := item.mergeDone done arguments
    .functionCall item arguments
  | .toolSearchCall _, some (.toolSearchCall done) => .toolSearchCall done
  | .customToolCall item input, some (.customToolCall done) =>
    let (item, input) := item.mergeDone done input
    .customToolCall item input
  | .webSearchCall _, some (.webSearchCall done) => .webSearchCall (some (WebSearchCall.mergeDone newId done item_id))
  | .mcpCall _, some (.mcpCall done) => .mcpCall done
  | .mcpListTools _, some (.mcpListTools done) => .mcpListTools done
  | .compaction item, some (.compaction done) => .compaction (item.mergeDone done)
  | .shellCall item command_stream command, none =>
    let (item, command) := item.applyDone items newId payload command
    .shellCall item command_stream command
  | .reasoning item, none => .reasoning (item.applyDone items newId payload)
  | .functionCall item arguments, none =>
    let (item, arguments) := item.applyDone items newId payload arguments
    .functionCall item arguments
  | .toolSearchCall item, none => .toolSearchCall (item.applyDone items payload)
  | .customToolCall item input, none =>
    let (item, input) := item.applyDone items payload input
    .customToolCall item input
  | .mcpCall item, none => .mcpCall (item.applyDone items payload)
  | .mcpListTools item, none => .mcpListTools (item.applyDone items payload)
  | .compaction item, none => .compaction (item.applyDone items payload)
  | active, _ => active

end ActiveItem

/-- An item that is open, or one that is done. -/
inductive SlotState where
  | active (item : ActiveItem)
  | done (item : OutputItem)

namespace SlotState

/-- The type of the item. -/
def itemType : SlotState → Option SSEItemType
  | .active item => some item.itemType
  | .done item => SSEItemType.ofItem item

/-- Whether the item is done. -/
def isDone : SlotState → Bool
  | .active _ => false
  | .done _ => true

/-- The item, where it is done. -/
def doneItem : SlotState → Option OutputItem
  | .active _ => none
  | .done item => some item

/-- The item as it is reported at the end. -/
def finalize : SlotState → Option OutputItem
  | .active item => item.finalize
  | .done item => some item

/-- What the slot would hold once completed. -/
def completionCandidate (items : ItemSerde) (newId : NewId) (state : SlotState) (payload : EventPayload)
    (done_item : Option OutputItem) (item_id : Text) : Option OutputItem :=
  let candidate := match state with
    | .active item => some item
    | .done item => ActiveItem.fromCompleted item
  candidate.bind fun candidate => (candidate.applyOutputItemDone items newId payload done_item item_id).finalize

end SlotState

/-- An item under its id. -/
structure Slot where
  item_id : Option Text
  state : SlotState

/-- The slots by output index, and the index of every known id. -/
structure SlotMap where
  slots : List (Nat × Slot)
  indexes_by_id : List (Text × Nat)

/-- The error of an event that is about another item than it names. -/
def identityMismatch : ExecutorError :=
  invalid "upstream stream event does not match its active output item: inconsistent item ID, output_index, or kind"

/-- The error of an event that is about no open item. -/
def noActiveItem : ExecutorError := invalid "upstream stream event has no active output item"

namespace SlotMap

/-- No item yet. -/
def empty : SlotMap := ⟨[], []⟩

/-- The item at an index. -/
def get (m : SlotMap) (index : Nat) : Option Slot := m.slots.lookup index

/-- Whether an item is still open. -/
def hasActive (m : SlotMap) : Bool := m.slots.any fun slot => !slot.2.state.isDone

/-- The least index without a slot: with n slots, it is at most n. -/
def unusedIndex (m : SlotMap) : ExecutorResult Nat :=
  match (List.range (min (m.slots.length + 1) (2 ^ 32))).find? fun index => (m.get index).isNone with
  | some index => .ok index
  | none => .error (invalid "upstream stream exhausted output indexes")

/-- Without an index, an unknown id may be that of an anonymous slot of the same kind. -/
def isAmbiguous (m : SlotMap) (identity : ItemIdentity) : Bool :=
  m.slots.any fun slot => slot.2.state.itemType == some identity.item_type && (slot.2.item_id.isNone || identity.item_id.isNone)

/-- Both are known, and differ. -/
def differ {α : Type} [DecidableEq α] : Option α → Option α → Bool
  | some a, some b => a != b
  | _, _ => false

/-- What an event may do to the slot its index or id names. -/
def resolveSlot (slot : Slot) (index : Nat) (identity : ItemIdentity) (action : SlotAction) (validation : Validation) :
    ExecutorResult (Option Nat) :=
  if action = .open then .error (invalid "upstream stream repeats output item or reuses its output_index")
  else if differ slot.item_id identity.item_id = true then .error identityMismatch
  else if slot.state.itemType ≠ some identity.item_type then
    if action = .mutate ∧ validation = .lenient then .ok none else .error identityMismatch
  else if slot.state.isDone = true ∧ (action ≠ .complete ∨ validation = .strict) then
    if validation = .strict then .error noActiveItem else .ok none
  else .ok (some index)

/-- The index of the id an event has. -/
def knownIndex (m : SlotMap) (identity : ItemIdentity) : Option Nat := identity.item_id.bind fun id => m.indexes_by_id.lookup id

/-- The index an event names, by itself or by its id, or a new one. -/
def resolveIndex (m : SlotMap) (identity : ItemIdentity) (action : SlotAction) : ExecutorResult (Option Nat) :=
  match identity.index.or (m.knownIndex identity) with
  | some index => .ok (some index)
  | none =>
    if action ≠ .open ∧ m.isAmbiguous identity = true then
      .error (invalid "upstream item has ambiguous identity without 'output_index'")
    else if action = .mutate then .ok none
    else m.unusedIndex.map some

/-- Which slot an event is about. Nothing changes: a rejected event cannot bind an id. -/
def resolve (m : SlotMap) (identity : ItemIdentity) (action : SlotAction) (validation : Validation) : ExecutorResult (Option Nat) :=
  if validation = .strict ∧ (identity.index = none ∨
      (identity.item_id = none ∧ ¬ (identity.item_type = .shellCall ∧ action = .mutate))) then
    .error (invalid "upstream item requires 'output_index' and a non-empty item ID")
  else if differ identity.index (m.knownIndex identity) = true then .error identityMismatch
  else match m.resolveIndex identity action with
    | .error error => .error error
    | .ok none => .ok none
    | .ok (some index) =>
      match m.get index with
      | some slot => resolveSlot slot index identity action validation
      | none =>
        if action = .open then .ok (some index)
        else if action = .complete ∧ validation = .lenient then .ok (some index)
        else if validation = .strict then .error noActiveItem
        else .ok none

/-- An item stands at an index, and its id is bound to it. -/
def insert (m : SlotMap) (index : Nat) (item_id : Option Text) (state : SlotState) : SlotMap where
  indexes_by_id := match item_id with
    | some id => insertEntry m.indexes_by_id id index
    | none => m.indexes_by_id
  slots := insertEntry m.slots index ⟨item_id, state⟩

/-- A slot without an id gets the one the event has. -/
def bindId (m : SlotMap) (index : Nat) (item_id : Option Text) : SlotMap :=
  match item_id, m.get index with
  | some id, some ⟨none, state⟩ => m.insert index (some id) state
  | _, _ => m

/-- Replace the state of a slot. -/
def setState (m : SlotMap) (index : Nat) (state : SlotState) : SlotMap :=
  match m.get index with
  | some slot => { m with slots := insertEntry m.slots index { slot with state } }
  | none => m

section
variable (items : ItemSerde) (newId : NewId)

/-- An opening event takes an index that is free. -/
def «open» (m : SlotMap) (identity : ItemIdentity) (payload : EventPayload) (validation : Validation) :
    SlotMap × ExecutorResult (Option Nat) :=
  match m.resolve identity .open validation with
  | .error error => (m, .error error)
  | .ok none => (m, .ok none)
  | .ok (some index) =>
    match ActiveItem.fromAdded newId payload with
    | some item => (m.insert index identity.item_id (.active item), .ok (some index))
    | none => (m, .ok none)

/-- An event of a part is handed to the open item it is about. -/
def apply (m : SlotMap) (identity : ItemIdentity) (payload : EventPayload) (validation : Validation) :
    SlotMap × ExecutorResult (Option Nat) :=
  match m.resolve identity .mutate validation with
  | .error error => (m, .error error)
  | .ok none => (m, .ok none)
  | .ok (some index) =>
    match (m.get index).map Slot.state with
    | some (.active item) =>
      let (item, result) := item.applyEvent items newId payload
      let m := m.setState index (.active item)
      match result with
      | .error error => (m, .error error)
      | .ok () => (m.bindId index identity.item_id, .ok (some index))
    | _ => (m.bindId index identity.item_id, .ok (some index))

/-- The finished copy of a done event, read as an item when that is possible. -/
def parsedDone (item_type : SSEItemType) (raw_item : Json) (validated_done_item : Option OutputItem) : Option OutputItem :=
  validated_done_item.or ((items.itemOpt newId raw_item).or
    (if item_type = .reasoning then (ReasoningOutput.ofDone items newId raw_item).map .reasoning else none))

/-- The commands of a streamed shell call are unfinished, or not those of its finished copy. -/
def contradictsShell (state : SlotState) (parsed : Option OutputItem) : Bool :=
  match state with
  | .active (.shellCall item (some done) _) =>
    done.any (fun complete => !complete) || !(match parsed with
      | some (.shellCall completed) => completed.action.commands == item.action.commands
      | _ => false)
  | _ => false

/-- Items that may come complete, without having been added. -/
def standsAlone : OutputItem → Bool
  | .message _ | .unknown => false
  | _ => true

/-- The error of an item that is done twice, and not alike. -/
def conflictingDone (index : Nat) : ExecutorError :=
  invalid (utf8 "upstream stream contains conflicting repeated output item.done for output[" ++ decimal index ++ utf8 "]")

/-- Complete the item of a slot. A repetition of what it holds is ignored. -/
def completeSlot (m : SlotMap) (slot : Slot) (index : Nat) (identity : ItemIdentity) (payload : EventPayload)
    (parsed : Option OutputItem) : SlotMap × ExecutorResult (Option Nat) :=
  if contradictsShell slot.state parsed = true then
    (m, .error (invalid "shell item done has unfinished or contradictory commands"))
  else
    let candidate := slot.state.completionCandidate items newId payload parsed ((slot.item_id.or identity.item_id).getD [])
    match slot.state with
    | .done previous =>
      if (parsed.any (items.sameValue previous) || candidate.any (items.sameValue previous)) = true then
        (m.bindId index identity.item_id, .ok none)
      else (m, .error (conflictingDone index))
    | .active _ =>
      match candidate with
      | some item => ((m.bindId index identity.item_id).setState index (.done item), .ok (some index))
      | none => (m, .ok none)

/-- The last event of an item completes it. An item that was never opened takes an index that is free. -/
def complete (m : SlotMap) (identity : ItemIdentity) (payload : EventPayload) (validated_done_item : Option OutputItem)
    (validation : Validation) : SlotMap × ExecutorResult (Option Nat) :=
  match m.resolve identity .complete validation, payload with
  | .error error, _ => (m, .error error)
  | .ok (some index), .outputItemDone _ _ _ raw_item =>
    let parsed := parsedDone items newId identity.item_type raw_item validated_done_item
    match m.get index with
    | some slot => completeSlot items newId m slot index identity payload parsed
    | none =>
      match parsed.filter standsAlone with
      | some item =>
        let item := match item with
          | .webSearchCall call => .webSearchCall (WebSearchCall.mergeDone newId call [])
          | item => item
        (m.insert index identity.item_id (.done item), .ok (some index))
      | none => (m, .ok none)
  | .ok _, _ => (m, .ok none)

end

/-- The items in the order of their indexes; nothing is left. -/
def drainOutput (m : SlotMap) : SlotMap × List OutputItem :=
  (empty, (m.slots.mergeSort fun a b => a.1 ≤ b.1).filterMap fun slot => slot.2.state.finalize)

end SlotMap

end AgenticStack
