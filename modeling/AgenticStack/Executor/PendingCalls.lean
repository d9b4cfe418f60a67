import AgenticStack.Library.Ledger
import AgenticStack.Types.Lowering

/-!
# Calls that wait for an output

`pendingCalls` scans an item sequence and returns the calls without a matching
output. Read as a ledger of calls and answers, a sequence passes the scan exactly
when its ledger can be read, and what is left over is what the ledger leaves pending.
-/

namespace AgenticStack
set_option autoImplicit false
open Library

/-- The errors of the executor that the modelled code raises. -/
inductive ExecutorError where
  | invalidRequest (message : Text)
  | missingOutput (call_id : Text)
  | streamError (message : Text)
  | parseError (message : Text)
  | jsonError (message : Text)
  | payloadTooLarge (message : Text)
  | conflict (message : Text)
  | storage (message : Text) (not_found : Bool)
  | persistence (source : ExecutorError)
  | conversationLocked
  | llmRequest (status : Nat) (body : Text)
  | llmTransport (status : Nat) (message : Text)
  | networkError (message : Text)
  | compactionFailed (status details : Text)
  | toolExecution (message : Text)
  | toolConfig (message : Text)
  | invalidUpstreamToolSearch
  | upstreamWithheldFunctionCall
deriving DecidableEq, Repr

/-- What a step of the executor gives, or the error it ends with. -/
abbrev ExecutorResult (α : Type) := Except ExecutorError α

/-- The kinds of calls that are answered. -/
inductive CallKind where
  | function | custom | shell
deriving DecidableEq, Repr

namespace CallKind

/-- The type of an item that calls. -/
def callItemName : CallKind → Text
  | .function => "function_call"
  | .custom => "custom_tool_call"
  | .shell => "shell_call"

/-- The type of an item that answers. -/
def outputItemName : CallKind → Text
  | .function => "function_call_output"
  | .custom => "custom_tool_call_output"
  | .shell => "shell_call_output"

end CallKind

/-- A call without an answer yet. -/
structure PendingCall where
  call_id : Text
deriving DecidableEq, Repr

/-- The scan's state: the call ids seen, and the pending calls in insertion order. -/
abbrev CallBook := Book Text CallKind

/-- A call is noted, with an id that no open call has. -/
def addCall (call_id : Text) (kind : CallKind) (b : CallBook) : ExecutorResult CallBook :=
  if call_id = [] then .error (.invalidRequest (kind.callItemName ++ utf8 " call_id must not be empty"))
  else if call_id ∈ b.seen then
    .error (.invalidRequest (utf8 "duplicate call_id '" ++ call_id ++ utf8 "' in " ++ kind.callItemName))
  else .ok ⟨call_id :: b.seen, b.pending ++ [(call_id, kind)]⟩

/-- An answer settles the open call of its id, which must be of its kind. -/
def resolveCall (call_id : Text) (output_kind : CallKind) (b : CallBook) : ExecutorResult CallBook :=
  if call_id = [] then .error (.invalidRequest (output_kind.outputItemName ++ utf8 " call_id must not be empty"))
  else match b.pending.lookup call_id with
    | none => .error (.invalidRequest (output_kind.outputItemName ++ utf8 " references call_id '" ++ call_id ++
        utf8 "' without a pending call"))
    | some call_kind =>
      if call_kind ≠ output_kind then
        .error (.invalidRequest (output_kind.outputItemName ++ utf8 " cannot resolve " ++ call_kind.callItemName ++
          utf8 " call_id '" ++ call_id ++ utf8 "'"))
      else .ok ⟨b.seen, b.pending.filter (·.1 ≠ call_id)⟩

/-- The scan of one item. -/
def scanItem (b : CallBook) : InputItem → ExecutorResult CallBook
  | .functionCall call => addCall call.call_id .function b
  | .customToolCall call => addCall call.call_id .custom b
  | .functionCallOutput output => resolveCall output.call_id .function b
  | .customToolCallOutput output => resolveCall output.call_id .custom b
  | .shellCall call => addCall call.call_id .shell b
  | .shellCallOutput output => resolveCall output.call_id .shell b
  | .message _ | .reasoning _ | .toolSearchCall _ | .toolSearchOutput _ | .mcpListTools _ | .compaction _
  | .compactionTrigger | .unknown => .ok b

/-- The items are looked at one by one. -/
def scanItems (b : CallBook) : List InputItem → ExecutorResult CallBook
  | [] => .ok b
  | item :: items => (scanItem b item).bind fun b => scanItems b items

/-- Every call of `items` left unresolved, in emission order. -/
def pendingCalls (items : List InputItem) : ExecutorResult (List PendingCall) :=
  (scanItems .empty items).map fun b => b.pending.map fun p => ⟨p.1⟩

/-- The ledger line of an item, if it is a call or an output. -/
def InputItem.entry : InputItem → Option (Entry Text CallKind)
  | .functionCall call => some (.call call.call_id .function)
  | .customToolCall call => some (.call call.call_id .custom)
  | .shellCall call => some (.call call.call_id .shell)
  | .functionCallOutput output => some (.answer output.call_id .function)
  | .customToolCallOutput output => some (.answer output.call_id .custom)
  | .shellCallOutput output => some (.answer output.call_id .shell)
  | _ => none

/-- The calls and outputs of `items`, as a ledger. -/
def ledger (items : List InputItem) : List (Entry Text CallKind) := items.filterMap InputItem.entry

/-- A call id is valid when it is not empty. -/
abbrev ValidCallId (call_id : Text) : Prop := call_id ≠ []

/-- The calls and answers of two lists are those of both. -/
theorem ledger_append (a b : List InputItem) : ledger (a ++ b) = ledger a ++ ledger b := List.filterMap_append

variable {b b' : CallBook} {call_id : Text} {kind : CallKind} {items : List InputItem}

/-- A call is noted as the books note it. -/
theorem addCall_eq_ok_iff : addCall call_id kind b = .ok b' ↔ b.post ValidCallId (.call call_id kind) = some b' := by
  unfold addCall Book.post
  by_cases empty : call_id = []
  · simp [empty]
  · by_cases seen : call_id ∈ b.seen <;> simp [empty, seen]

/-- The pending calls of a scan carry non-empty ids. -/
structure ScanOk (b : CallBook) : Prop where
  sound : b.Sound
  valid : ∀ id ∈ b.seen, id ≠ []

/-- An empty book is in order. -/
theorem scanOk_empty : ScanOk .empty := ⟨Book.sound_empty, by simp [Book.empty]⟩

/-- A book stays in order. -/
theorem ScanOk.post (ok : ScanOk b) {e : Entry Text CallKind} (h : b.post ValidCallId e = some b') : ScanOk b' := by
  refine ⟨ok.sound.post h, ?_⟩
  obtain ⟨id, kind, -, valid, -, rfl⟩ | ⟨id, kind, -, -, rfl⟩ := Book.post_cases h
  · intro other mem
    rcases List.mem_cons.1 mem with rfl | old
    · exact valid
    · exact ok.valid other old
  · exact ok.valid

/-- An answer is settled as the books settle it. -/
theorem resolveCall_eq_ok_iff (ok : ScanOk b) :
    resolveCall call_id kind b = .ok b' ↔ b.post ValidCallId (.answer call_id kind) = some b' := by
  unfold resolveCall Book.post
  by_cases empty : call_id = []
  · have absent : (call_id, kind) ∉ b.pending := fun mem => ok.valid _ (ok.sound.pending_seen _ mem) empty
    simp [empty ▸ absent, empty]
  · simp only [empty, if_false, mem_iff_lookup ok.sound.keys]
    cases found : b.pending.lookup call_id with
    | none => simp
    | some call_kind => by_cases same : call_kind = kind <;> simp [same]

/-- One item is read as its ledger line. -/
theorem scanItem_eq_ok_iff (ok : ScanOk b) {item : InputItem} :
    scanItem b item = .ok b' ↔ b.run ValidCallId (ledger [item]) = some b' := by
  cases item <;>
    simp [scanItem, ledger, List.filterMap, InputItem.entry, Book.run, addCall_eq_ok_iff, resolveCall_eq_ok_iff ok]

/-- **The scan reads the ledger.** -/
theorem scanItems_eq_ok_iff (ok : ScanOk b) :
    scanItems b items = .ok b' ↔ b.run ValidCallId (ledger items) = some b' := by
  induction items generalizing b with
  | nil => simp [scanItems, ledger]
  | cons item items ih =>
    have cut : ledger (item :: items) = ledger [item] ++ ledger items := ledger_append [item] items
    rw [cut, Book.run_append_eq_some]
    constructor
    · intro h
      cases first : scanItem b item with
      | error e => simp [scanItems, first, Except.bind] at h
      | ok m =>
        have head := (scanItem_eq_ok_iff ok).1 first
        have okm : ScanOk m := Book.run_invariant (fun s p => ScanOk.post s p) ok head
        exact ⟨m, head, (ih okm).1 (by simpa [scanItems, first, Except.bind] using h)⟩
    · rintro ⟨m, head, rest⟩
      have okm : ScanOk m := Book.run_invariant (fun s p => ScanOk.post s p) ok head
      simpa [scanItems, (scanItem_eq_ok_iff ok).2 head, Except.bind] using (ih okm).2 rest

/-- The calls without an answer are those the books leave open. -/
theorem pendingCalls_eq_ok_iff {calls : List PendingCall} : pendingCalls items = .ok calls ↔
    ∃ b, Book.empty.run ValidCallId (ledger items) = some b ∧ b.pending.map (fun p => ⟨p.1⟩) = calls := by
  unfold pendingCalls
  constructor
  · intro h
    cases scan : scanItems .empty items with
    | error e => simp [scan, Except.map] at h
    | ok b => exact ⟨b, (scanItems_eq_ok_iff scanOk_empty).1 scan, by simpa [scan, Except.map] using h⟩
  · rintro ⟨b, read, rfl⟩
    simp [(scanItems_eq_ok_iff scanOk_empty).2 read, Except.map]

/-- The items owe nothing: every call is answered, and every answer has its call. -/
abbrev CallsSettled (items : List InputItem) : Prop := Settled ValidCallId (ledger items)

/-- No call is left open where every call is settled. -/
theorem pendingCalls_eq_nil_iff : pendingCalls items = .ok [] ↔ CallsSettled items := by
  rw [pendingCalls_eq_ok_iff]
  simp only [List.map_eq_nil_iff]
  rfl

/-- Calls and outputs have an id, no two calls share one, and every output comes after the call of its id and kind, the
only output for it. -/
structure OneToOne (items : List InputItem) : Prop where
  named : ∀ item ∈ items, ∀ e, item.entry = some e → e.id ≠ []
  calls_apart : (callIds (ledger items)).Nodup
  called : ∀ before item after call_id kind, items = before ++ item :: after →
    item.entry = some (.answer call_id kind) → ∃ call ∈ before, call.entry = some (.call call_id kind)
  outputs_apart : (answerIds (ledger items)).Nodup

/-- The id of a call, if no output of the sequence has it. -/
def InputItem.unanswered (items : List InputItem) (item : InputItem) : Option PendingCall :=
  match item.entry with
  | some (.call call_id _) => if call_id ∈ answerIds (ledger items) then none else some ⟨call_id⟩
  | _ => none

/-- The entries are those of the items. -/
theorem mem_ledger {e : Entry Text CallKind} : e ∈ ledger items ↔ ∃ item ∈ items, item.entry = some e := List.mem_filterMap

/-- Calls and answers are in order where the books match them. -/
theorem oneToOne_iff : OneToOne items ↔ Matched ValidCallId (ledger items) := by
  constructor
  · intro h
    refine ⟨fun e here => ?_, h.calls_apart, fun before call_id kind after same => ?_, h.outputs_apart⟩
    · obtain ⟨item, mem, own⟩ := mem_ledger.1 here
      exact h.named item mem e own
    · obtain ⟨front, rest, rfl, rfl, cut⟩ := List.filterMap_eq_append_iff.1 same
      obtain ⟨quiet, item, back, rfl, silent, own, -⟩ := List.filterMap_eq_cons_iff.1 cut
      obtain ⟨call, here, same⟩ := h.called (front ++ quiet) item back call_id kind (by simp) own
      rcases List.mem_append.1 here with early | late
      · exact mem_ledger.2 ⟨call, early, same⟩
      · exact absurd same (by simp [silent call late])
  · intro h
    refine ⟨fun item mem e own => h.valid e (mem_ledger.2 ⟨item, mem, own⟩), h.once, ?_, h.alone⟩
    rintro before item after call_id kind rfl own
    have split : ledger (before ++ item :: after) = ledger before ++ .answer call_id kind :: ledger after := by
      rw [ledger_append]
      simp [ledger, own]
    exact mem_ledger.1 (h.called (ledger before) call_id kind (ledger after) split)

/-- The open calls are those the items leave open. -/
theorem openCalls_ledger : (openCalls (ledger items)).map (fun p => ⟨p.1⟩) = items.filterMap (InputItem.unanswered items) := by
  unfold openCalls
  conv_lhs => rw [ledger, List.filterMap_filterMap, List.map_filterMap]
  apply List.filterMap_congr
  intro item _
  unfold InputItem.unanswered
  cases item.entry with
  | none => rfl
  | some e =>
    cases e with
    | call call_id kind => by_cases answered : call_id ∈ answerIds (items.filterMap InputItem.entry) <;> simp [ledger, answered]
    | answer => rfl

/-- **What the scan accepts**: it succeeds exactly on one-to-one sequences, returns the calls without an output in
their order, each once, and accepts every beginning of what it accepts. -/
theorem pendingCalls_exact : ((∃ calls, pendingCalls items = .ok calls) ↔ OneToOne items) ∧
    (∀ calls, pendingCalls items = .ok calls → calls = items.filterMap (InputItem.unanswered items) ∧ calls.Nodup) ∧
    ∀ later calls, pendingCalls (items ++ later) = .ok calls → ∃ before, pendingCalls items = .ok before := by
  refine ⟨?_, ?_, ?_⟩
  · simp only [pendingCalls_eq_ok_iff, run_empty_iff, oneToOne_iff]
    constructor
    · rintro ⟨calls, b, ⟨matched, -⟩, -⟩
      exact matched
    · intro matched
      exact ⟨_, _, ⟨matched, rfl⟩, rfl⟩
  · intro calls passed
    obtain ⟨b, read, rfl⟩ := pendingCalls_eq_ok_iff.1 passed
    have keys := (Book.sound_empty.run read).keys
    refine ⟨?_, ?_⟩
    · obtain ⟨-, rfl⟩ := run_empty_iff.1 read
      exact openCalls_ledger
    · have ids : b.pending.map (fun p => PendingCall.mk p.1) = (b.pending.map Prod.fst).map PendingCall.mk := by
        rw [List.map_map]
        rfl
      rw [ids]
      exact keys.map fun a b same => PendingCall.mk.inj same
  · intro later calls passed
    obtain ⟨b, read, -⟩ := pendingCalls_eq_ok_iff.1 passed
    rw [ledger_append] at read
    obtain ⟨m, first, -⟩ := Book.run_append_eq_some.1 read
    exact ⟨_, pendingCalls_eq_ok_iff.2 ⟨m, first, rfl⟩⟩

end AgenticStack
