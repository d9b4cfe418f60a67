import AgenticStack.Executor.PendingCalls
import AgenticStack.Library.Position

/-!
# Compaction windows

A compaction item supersedes the items before it. Of those, only the user
messages that compaction itself retained stay visible: they are recognised by
their role, by having an id and by being completed, between the latest
compaction item and the one before it.
-/

namespace AgenticStack
set_option autoImplicit false
open Library

/-- The items from the latest checkpoint on, and where the user items before it begin to count. -/
structure CompactionWindow where
  latest_index : Nat
  retained_start : Nat
deriving DecidableEq, Repr

/-- A completed user message with an id: what a retained message looks like. -/
def InputItem.isRetainedUser : InputItem → Bool
  | .message m => m.role = "user" && m.id.isSome && m.status = some .completed
  | _ => false

/-- Whether an item is one of the user items that the latest checkpoint keeps. -/
def CompactionWindow.retainsUserItem (window : CompactionWindow) (index : Nat) (item : InputItem) : Bool :=
  window.retained_start ≤ index && index < window.latest_index && item.isRetainedUser

/-- The latest checkpoint, with the one before it. -/
def latestCompactionWindow (items : List InputItem) : Option CompactionWindow :=
  (rposition InputItem.isCompaction items).map fun latest_index =>
    { latest_index, retained_start := ((rposition InputItem.isCompaction (items.take latest_index)).map (· + 1)).getD 0 }

/-- The items of the canonical context sent to the model. -/
def modelItems (items : List InputItem) : List InputItem :=
  let window := latestCompactionWindow items
  (items.zipIdx.filter fun (item, index) => item.isModelVisible && match window with
    | none => true
    | some w => w.latest_index ≤ index || w.retainsUserItem index item).map Prod.fst

/-- `ResponsesInput::model_items`: a plain text has none. -/
def ResponsesInput.modelItems : ResponsesInput → List InputItem
  | .text _ => []
  | .items xs => AgenticStack.modelItems xs

/-- The copy of a message a compaction keeps: a fresh id, and completed. -/
def InputMessage.retain (message : InputMessage) (uuid7 : Text) : InputMessage :=
  { message with id := some (utf8 "msg_" ++ uuid7), status := some .completed }

/-- The user messages a compaction keeps. `uuid7` supplies the fresh part of each copy's id. -/
def retainedUserWindow (uuid7 : Nat → Text) (items : List InputItem) : List InputItem :=
  let window := latestCompactionWindow items
  items.zipIdx.filterMap fun (item, index) => match item with
    | .message message =>
      if message.role ≠ "user" || (match window with
        | none => false
        | some w => index < w.latest_index && !w.retainsUserItem index item) then none
      else some (.message (message.retain (uuid7 index)))
    | _ => none

/-- A compacted window ends with the summary, as a checkpoint. -/
def finishCompactedWindow (uuid7 : Text) (output : List InputItem) (summary : Text) : List InputItem :=
  output ++ [.compaction { id := some (utf8 "cmp_" ++ uuid7), encrypted_content := summary }]

mutual

/-- Whether a value has a text, or a number or truth. -/
def valueHasContent : Json → Bool
  | .null => false
  | .str text => !isBlank text
  | .arr values => valuesHaveContent values
  | .obj fields => fieldsHaveContent fields
  | .bool _ | .num _ => true

/-- Whether one of the values has a text. -/
def valuesHaveContent : List Json → Bool
  | [] => false
  | v :: values => valueHasContent v || valuesHaveContent values

/-- Whether one of the fields has a text. -/
def fieldsHaveContent : List (Text × Json) → Bool
  | [] => false
  | (_, v) :: fields => valueHasContent v || fieldsHaveContent fields

end

/-- Whether an answer has a text or a part. -/
def ToolCallOutput.hasContent : ToolCallOutput → Bool
  | .text t => !isBlank t
  | .content parts => !parts.isEmpty

/-- Whether a part has a text, an image or a file. -/
def InputContent.hasMeaning : InputContent → Bool
  | .inputText t | .outputText t | .reasoningText t => !isBlank t
  | .inputImage _ image_url _ => image_url.any fun url => !isBlank url
  | .inputFile .. | .unknown => false

/-- Whether an item has something for a summary to tell of. -/
def itemHasMeaningfulContext : InputItem → Bool
  | .message m => match m.content with
    | .text t => !isBlank t
    | .parts parts => parts.any InputContent.hasMeaning
  | .functionCall call => !isBlank call.name || !isBlank call.arguments
  | .functionCallOutput output => output.output.hasContent
  | .toolSearchCall call => !isBlank call.call_id || valueHasContent call.arguments
  | .toolSearchOutput output => !isBlank output.call_id || !output.tools.isEmpty
  | .customToolCall call => !isBlank call.name || !isBlank call.input
  | .customToolCallOutput output => output.output.hasContent
  | .shellCall call => !call.action.commands.isEmpty
  | .shellCallOutput output => !output.output.isEmpty
  | .reasoning r => r.content.any (fun c => !isBlank c.text) || valuesHaveContent r.summary
      || r.encrypted_content.any valueHasContent
  | .compaction c => !isBlank c.encrypted_content
  | .mcpListTools _ | .compactionTrigger | .unknown => false

/-- Summarize a resolved history and return its compacted window. `summarize` is
the request to the model: it sends these items and the summarization prompt. -/
def compactItems (uuid7 : Nat → Text) (summarize : List InputItem → ExecutorResult Text) (input : ResponsesInput) :
    ExecutorResult (List InputItem) :=
  let original_items := input.toItems
  if !original_items.any itemHasMeaningfulContext then
    .error (.invalidRequest "compaction requires non-empty input or previous_response_id context")
  else
    let compacted := retainedUserWindow uuid7 original_items
    let summary_items := original_items.filter fun item => !item.isCompactionTrigger
    (summarize summary_items).map (finishCompactedWindow (uuid7 original_items.length) compacted)

/-- Items with a compaction: `old` ends in the compaction before the latest one, if there is one. -/
structure Checkpointed (items old kept : List InputItem) (latest : CompactionItem) (new : List InputItem) : Prop where
  parts : items = old ++ kept ++ .compaction latest :: new
  old_ends : EndsIn InputItem.isCompaction old
  kept_plain : ∀ i ∈ kept, i.isCompaction = false
  new_plain : ∀ i ∈ new, i.isCompaction = false

variable {items old kept new : List InputItem} {latest : CompactionItem}

/-- There is no checkpoint where no item is one. -/
theorem latestCompactionWindow_eq_none_iff :
    latestCompactionWindow items = none ↔ ∀ i ∈ items, i.isCompaction = false := by
  simp [latestCompactionWindow, rposition_eq_none_iff]

/-- Items with a checkpoint are items before it, the checkpoint and those after it. -/
theorem exists_checkpointed (h : latestCompactionWindow items ≠ none) :
    ∃ old kept latest new, Checkpointed items old kept latest new := by
  obtain ⟨i, found⟩ : ∃ i, rposition InputItem.isCompaction items = some i := by
    cases search : rposition InputItem.isCompaction items with
    | none => simp [latestCompactionWindow, search] at h
    | some i => exact ⟨i, rfl⟩
  obtain ⟨pre, x, new, rfl, isCmp, plain, -⟩ := exists_of_rposition found
  obtain ⟨old, split, ends⟩ := exists_endsIn_append InputItem.isCompaction pre
  cases x with
  | compaction latest =>
    exact ⟨old, sinceLast InputItem.isCompaction pre, latest, new, by rw [← split], ends, sinceLast_plain, plain⟩
  | _ => simp [InputItem.isCompaction] at isCmp

namespace Checkpointed

/-- The window of items that were split at their checkpoints. -/
theorem window (h : Checkpointed items old kept latest new) :
    latestCompactionWindow items = some ⟨(old ++ kept).length, old.length⟩ := by
  have found : rposition InputItem.isCompaction items = some (old ++ kept).length := by
    rw [h.parts]
    exact rposition_append_cons rfl h.new_plain
  have before : items.take (old ++ kept).length = old ++ kept := by
    rw [h.parts, List.take_left']
    rfl
  simp only [latestCompactionWindow, found, Option.map_some, before, after_rposition h.old_ends h.kept_plain]

/-- A filter by position keeps each of the three parts by its own rule. -/
theorem filter_zipIdx (h : Checkpointed items old kept latest new) {q : InputItem × Nat → Bool}
    (onOld onKept onNew : InputItem → Bool)
    (before : ∀ x i, i < old.length → q (x, i) = onOld x)
    (between : ∀ x i, old.length ≤ i → i < (old ++ kept).length → q (x, i) = onKept x)
    (after : ∀ x i, (old ++ kept).length ≤ i → q (x, i) = onNew x) :
    (items.zipIdx.filter q).map Prod.fst =
      old.filter onOld ++ kept.filter onKept ++ (.compaction latest :: new).filter onNew := by
  rw [h.parts, List.zipIdx_append, List.zipIdx_append, List.filter_append, List.filter_append, List.map_append,
    List.map_append]
  congr 1
  · congr 1
    · refine map_fst_filter_zipIdx fun x i mem => before x i ?_
      have := List.snd_lt_add_of_mem_zipIdx mem
      simpa using this
    · refine map_fst_filter_zipIdx fun x i mem => between x i ?_ ?_
      · have := List.le_snd_of_mem_zipIdx mem
        simpa using this
      · have := List.snd_lt_add_of_mem_zipIdx mem
        simp only [List.length_append]
        omega
  · refine map_fst_filter_zipIdx fun x i mem => after x i ?_
    have := List.le_snd_of_mem_zipIdx mem
    simpa using this

end Checkpointed

/-- A user item that is kept is shown to the model. -/
theorem InputItem.isModelVisible_of_isRetainedUser {i : InputItem} (h : i.isRetainedUser = true) :
    i.isModelVisible = true := by
  cases i <;> simp_all [isRetainedUser, isModelVisible]

/-- Without a compaction the model sees every visible item. -/
theorem modelItems_of_plain (h : ∀ i ∈ items, i.isCompaction = false) :
    modelItems items = items.filter InputItem.isModelVisible := by
  simp only [modelItems, latestCompactionWindow_eq_none_iff.2 h, Bool.and_true]
  exact map_fst_filter_zipIdx fun _ _ _ => rfl

/-- With one, it sees the retained messages before it, the summary, and what came after. -/
theorem Checkpointed.modelItems_eq (h : Checkpointed items old kept latest new) : modelItems items =
    kept.filter InputItem.isRetainedUser ++ .compaction latest :: new.filter InputItem.isModelVisible := by
  simp only [modelItems, h.window]
  rw [h.filter_zipIdx (fun _ => false) InputItem.isRetainedUser InputItem.isModelVisible]
  · have visible : (InputItem.compaction latest).isModelVisible = true := rfl
    simp [visible]
  · intro x i lt
    have early : ¬ old.length + kept.length ≤ i := by omega
    have notRetained : ¬ old.length ≤ i := by omega
    simp [CompactionWindow.retainsUserItem, early, notRetained]
  · intro x i ge lt
    have early : ¬ (old ++ kept).length ≤ i := by omega
    simp only [CompactionWindow.retainsUserItem, early, ge, lt, decide_true, decide_false, Bool.true_and,
      Bool.false_or]
    cases retained : x.isRetainedUser with
    | false => simp
    | true => simp [InputItem.isModelVisible_of_isRetainedUser retained]
  · intro x i ge
    simp only [ge, decide_true, Bool.true_or, Bool.and_true]

end AgenticStack
