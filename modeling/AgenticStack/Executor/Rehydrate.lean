import AgenticStack.Executor.Session

/-!
# Continuing a chain

A continuation puts the new input after the stored history and refuses it while
a call is open. The durable paths scan the whole history, the session path its
canonical window: they differ when the scan of what a compaction superseded
goes another way than the scan of the window.
-/

namespace AgenticStack
set_option autoImplicit false
open Library

/-- The check both paths end in: no call may be left open. -/
def requireOutputs (items : List InputItem) : ExecutorResult (List InputItem) :=
  match pendingCalls items with
  | .error e => .error e
  | .ok (pending :: _) => .error (.missingOutput pending.call_id)
  | .ok [] => .ok items

/-- `from_response` without a session: the enriched input. -/
def fromResponse (history : List InOutItem) (input : ResponsesInput) : ExecutorResult (List InputItem) :=
  requireOutputs (intoInputItems history ++ input.toItems)

/-- `from_conversation`: the enriched input. -/
def fromConversation (snapshot : List InOutItem) (input : ResponsesInput) : ExecutorResult (List InputItem) :=
  requireOutputs (intoInputItems snapshot ++ input.toItems)

/-- The history of the checkpoint a session restores from storage. -/
def restoredHistory (history : List InOutItem) : List InputItem :=
  canonicalSessionHistory (intoInputItems history)

/-- `from_session_response`: the enriched input, from the parent checkpoint's history. -/
def fromSessionResponse (parent : List InputItem) (input : ResponsesInput) : ExecutorResult (List InputItem) :=
  requireOutputs (canonicalSessionHistory (parent ++ input.toItems))

variable {items out before after : List InputItem} {rows : List InOutItem} {input : ResponsesInput}

/-- A history is read where each of its calls is settled. -/
theorem requireOutputs_eq_ok_iff : requireOutputs items = .ok out ↔ CallsSettled items ∧ out = items := by
  rw [← pendingCalls_eq_nil_iff]
  unfold requireOutputs
  split
  · rename_i failed
    simp [failed]
  · rename_i open_
    simp [open_]
  · rename_i settled
    simp [settled, eq_comm]

/-- A restored session continues as its stored rows do. -/
theorem fromSessionResponse_restored :
    fromSessionResponse (restoredHistory rows) input =
      requireOutputs (canonicalSessionHistory (intoInputItems rows ++ input.toItems)) := by
  rw [fromSessionResponse, restoredHistory, canonical_append]

/-- The durable and the session paths take the same continuations, and show the model the same items. -/
structure PathsAgree (rows : List InOutItem) (input : ResponsesInput) : Prop where
  response : (∃ items, fromResponse rows input = .ok items) ↔
    ∃ items, fromSessionResponse (restoredHistory rows) input = .ok items
  conversation : (∃ items, fromConversation rows input = .ok items) ↔
    ∃ items, fromSessionResponse (restoredHistory rows) input = .ok items
  model : ∀ durable session, fromResponse rows input = .ok durable ∨ fromConversation rows input = .ok durable →
    fromSessionResponse (restoredHistory rows) input = .ok session → modelItems durable = modelItems session

/-- What a compaction superseded has no bearing on the calls after it: they
do not answer calls it leaves open, and when they owe nothing among themselves,
neither do the superseded items, which share no call id with them. -/
structure Unrelated (before after : List InputItem) : Prop where
  unanswered : ¬ AnswersPending ValidCallId (ledger before) (ledger after)
  settled : CallsSettled after → CallsSettled before ∧ ∀ id ∈ callIds (ledger after), id ∉ callIds (ledger before)

/-- The items before the latest compaction, if there is one, are unrelated to those after it. -/
def NoObsoleteCalls (items : List InputItem) : Prop :=
  ∀ window, latestCompactionWindow items = some window →
    Unrelated (items.take window.latest_index) (items.drop window.latest_index)

/-- Calls that have nothing to do with each other are settled apart. -/
theorem callsSettled_append_iff (h : Unrelated before after) : CallsSettled (before ++ after) ↔ CallsSettled after := by
  rw [CallsSettled, ledger_append, settled_append_iff]
  constructor
  · rintro (⟨-, alone, -⟩ | answers)
    · exact alone
    · exact absurd answers h.unanswered
  · intro alone
    exact .inl ⟨(h.settled alone).1, alone, (h.settled alone).2⟩

/-- Calls that are settled apart have nothing to do with each other. -/
theorem unrelated_of_iff (h : CallsSettled (before ++ after) ↔ CallsSettled after) : Unrelated before after := by
  rw [CallsSettled, ledger_append, settled_append_iff] at h
  refine ⟨fun answers => not_settled_of_answersPending answers (h.1 (.inr answers)), fun alone => ?_⟩
  rcases h.2 alone with ⟨settled, -, apart⟩ | answers
  · exact ⟨settled, apart⟩
  · exact absurd alone (not_settled_of_answersPending answers)

/-- Items without calls have no entries. -/
theorem ledger_eq_nil {p : InputItem → Bool} (h : ∀ i, p i = true → i.entry = none) :
    ledger (items.filter p) = [] := by
  rw [ledger, List.filterMap_eq_nil_iff]
  intro i mem
  exact h i (List.mem_filter.1 mem).2

/-- A user item is no call. -/
theorem entry_of_isKept (i : InputItem) (h : i.isKept = true) : i.entry = none := by
  cases i <;> simp_all [InputItem.isKept, InputItem.isRetainedUser, InputItem.isMcpListTools, InputItem.entry]

/-- A listing is no call. -/
theorem entry_of_isMcpListTools (i : InputItem) (h : i.isMcpListTools = true) : i.entry = none :=
  entry_of_isKept i (isKept_of_isMcpListTools i h)

/-- The scan of a canonical history is the scan of the items from its latest compaction on. -/
theorem callsSettled_canonical_iff {window : CompactionWindow} (h : latestCompactionWindow items = some window) :
    CallsSettled (canonicalSessionHistory items) ↔ CallsSettled (items.drop window.latest_index) := by
  obtain ⟨old, kept, latest, new, shape⟩ := @exists_checkpointed items (by simp [h])
  have at_ : window = ⟨(old ++ kept).length, old.length⟩ := Option.some.inj (h.symm.trans shape.window)
  have rest : items.drop window.latest_index = .compaction latest :: new := by
    rw [at_, shape.parts, List.drop_left]
  rw [CallsSettled, CallsSettled, shape.canonical_eq, rest, ledger_append, ledger_append,
    ledger_eq_nil entry_of_isMcpListTools, ledger_eq_nil entry_of_isKept, List.nil_append, List.nil_append]

/-- **When the paths agree**: exactly when no superseded call has a bearing on the current ones. -/
theorem pathsAgree_iff : PathsAgree rows input ↔ NoObsoleteCalls (intoInputItems rows ++ input.toItems) := by
  have durable : (∃ items, fromResponse rows input = .ok items) ↔
      CallsSettled (intoInputItems rows ++ input.toItems) := by
    simp [fromResponse, requireOutputs_eq_ok_iff]
  have session : (∃ items, fromSessionResponse (restoredHistory rows) input = .ok items) ↔
      CallsSettled (canonicalSessionHistory (intoInputItems rows ++ input.toItems)) := by
    simp [fromSessionResponse_restored, requireOutputs_eq_ok_iff]
  have decided : PathsAgree rows input ↔ (CallsSettled (intoInputItems rows ++ input.toItems) ↔
      CallsSettled (canonicalSessionHistory (intoInputItems rows ++ input.toItems))) := by
    rw [← durable, ← session]
    refine ⟨fun agree => agree.response, fun same => ⟨same, same, fun d s hd hs => ?_⟩⟩
    have eqd : d = intoInputItems rows ++ input.toItems := hd.elim
      (fun h => (requireOutputs_eq_ok_iff.1 h).2) (fun h => (requireOutputs_eq_ok_iff.1 h).2)
    rw [fromSessionResponse_restored] at hs
    rw [eqd, (requireOutputs_eq_ok_iff.1 hs).2, modelItems_canonical]
  rw [decided]
  generalize intoInputItems rows ++ input.toItems = items
  by_cases plain : latestCompactionWindow items = none
  · rw [canonical_of_plain (latestCompactionWindow_eq_none_iff.1 plain)]
    simp [NoObsoleteCalls, plain]
  · obtain ⟨window, found⟩ := Option.ne_none_iff_exists'.1 plain
    have split : items.take window.latest_index ++ items.drop window.latest_index = items := List.take_append_drop ..
    rw [callsSettled_canonical_iff found]
    constructor
    · intro same w found'
      rw [Option.some.inj (found'.symm.trans found)]
      exact unrelated_of_iff (by rw [split]; exact same)
    · intro unrelated
      have := callsSettled_append_iff (unrelated window found)
      rwa [split] at this

end AgenticStack
