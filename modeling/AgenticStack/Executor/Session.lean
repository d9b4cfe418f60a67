import AgenticStack.Executor.Compaction

/-!
# The canonical history of a session

A session keeps only the current window of a stored history: the latest
compaction item, what follows it, the messages it retained, and the records of
tool listings. The projection loses nothing the model sees, and it can be taken
at any point of a growing history.
-/

namespace AgenticStack
set_option autoImplicit false
open Library

/-- Whether the item is the listing of a server. -/
def InputItem.isMcpListTools : InputItem → Bool
  | .mcpListTools _ => true
  | _ => false

/-- What a session keeps of its history: the items since the latest checkpoint, and before it the listings and the
user items it keeps. -/
def canonicalSessionHistory (history : List InputItem) : List InputItem :=
  match latestCompactionWindow history with
  | none => history
  | some window => (history.zipIdx.filter fun (item, index) =>
      window.latest_index ≤ index || window.retainsUserItem index item || item.isMcpListTools).map Prod.fst

/-- What a session keeps of the items between the last two compactions. -/
def InputItem.isKept (i : InputItem) : Bool := i.isRetainedUser || i.isMcpListTools

variable {items a b old kept new : List InputItem} {latest : CompactionItem}

/-- A history without checkpoints is canonical. -/
theorem canonical_of_plain (h : ∀ i ∈ items, i.isCompaction = false) : canonicalSessionHistory items = items := by
  simp only [canonicalSessionHistory, latestCompactionWindow_eq_none_iff.2 h]

/-- What is kept of a history that was split at its checkpoints. -/
theorem Checkpointed.canonical_eq (h : Checkpointed items old kept latest new) : canonicalSessionHistory items =
    old.filter InputItem.isMcpListTools ++ kept.filter InputItem.isKept ++ .compaction latest :: new := by
  simp only [canonicalSessionHistory, h.window]
  rw [h.filter_zipIdx InputItem.isMcpListTools InputItem.isKept (fun _ => true), List.filter_true]
  · intro x i lt
    have early : ¬ old.length + kept.length ≤ i := by omega
    have notRetained : ¬ old.length ≤ i := by omega
    simp [CompactionWindow.retainsUserItem, early, notRetained]
  · intro x i ge lt
    have early : ¬ (old ++ kept).length ≤ i := by omega
    simp only [CompactionWindow.retainsUserItem, InputItem.isKept, early, ge, lt, decide_true, decide_false,
      Bool.true_and, Bool.false_or]
  · intro x i ge
    simp only [ge, decide_true, Bool.true_or]

/-- A listing is no checkpoint. -/
theorem isCompaction_of_isMcpListTools {i : InputItem} (h : i.isMcpListTools = true) : i.isCompaction = false := by
  cases i <;> simp_all [InputItem.isMcpListTools, InputItem.isCompaction]

/-- A listing is no user item. -/
theorem isRetainedUser_of_isMcpListTools {i : InputItem} (h : i.isMcpListTools = true) : i.isRetainedUser = false := by
  cases i <;> simp_all [InputItem.isMcpListTools, InputItem.isRetainedUser]

/-- The canonical history of a compacted one has a single compaction. -/
theorem Checkpointed.canonical (h : Checkpointed items old kept latest new) :
    Checkpointed (canonicalSessionHistory items) []
      (old.filter InputItem.isMcpListTools ++ kept.filter InputItem.isKept) latest new := by
  refine ⟨by rw [h.canonical_eq, List.nil_append], .inl rfl, fun i mem => ?_, h.new_plain⟩
  rcases List.mem_append.1 mem with early | later
  · exact isCompaction_of_isMcpListTools (List.mem_filter.1 early).2
  · exact h.kept_plain i (List.mem_filter.1 later).1

/-- A filter that lets through everything another one keeps. -/
theorem filter_filter_of_imp {p q : InputItem → Bool} (imp : ∀ i, q i = true → p i = true) :
    (items.filter p).filter q = items.filter q := by
  rw [List.filter_filter]
  congr 1
  funext i
  cases keep : q i with
  | false => rfl
  | true => rw [imp i keep]; rfl

theorem isKept_of_isRetainedUser (i : InputItem) (h : i.isRetainedUser = true) : i.isKept = true := by
  simp [InputItem.isKept, h]

theorem isKept_of_isMcpListTools (i : InputItem) (h : i.isMcpListTools = true) : i.isKept = true := by
  simp [InputItem.isKept, h]

/-- Listing records are kept as they are. -/
theorem filter_kept_mcp : (items.filter InputItem.isMcpListTools).filter InputItem.isKept =
    items.filter InputItem.isMcpListTools :=
  List.filter_eq_self.2 fun i mem => isKept_of_isMcpListTools i (List.mem_filter.1 mem).2

/-- What is kept is kept once. -/
theorem filter_kept_kept : (items.filter InputItem.isKept).filter InputItem.isKept = items.filter InputItem.isKept :=
  filter_filter_of_imp fun _ => id

/-- Keeping items keeps the listings. -/
theorem filter_mcp_kept : (items.filter InputItem.isKept).filter InputItem.isMcpListTools =
    items.filter InputItem.isMcpListTools :=
  filter_filter_of_imp isKept_of_isMcpListTools

theorem filter_mcp_mcp : (items.filter InputItem.isMcpListTools).filter InputItem.isMcpListTools =
    items.filter InputItem.isMcpListTools :=
  filter_filter_of_imp fun _ => id

theorem filter_retained_mcp : (items.filter InputItem.isMcpListTools).filter InputItem.isRetainedUser = [] := by
  rw [List.filter_eq_nil_iff]
  intro i mem
  simp [isRetainedUser_of_isMcpListTools (List.mem_filter.1 mem).2]

/-- A canonical history has the same listings. -/
theorem filter_mcp_canonical :
    (canonicalSessionHistory items).filter InputItem.isMcpListTools = items.filter InputItem.isMcpListTools := by
  by_cases plain : latestCompactionWindow items = none
  · rw [canonical_of_plain (latestCompactionWindow_eq_none_iff.1 plain)]
  · obtain ⟨old, kept, latest, new, shape⟩ := exists_checkpointed plain
    rw [shape.canonical_eq, shape.parts]
    simp only [List.filter_append, filter_mcp_mcp, filter_mcp_kept]

/-- **The model sees the same** in the canonical history. -/
theorem modelItems_canonical : modelItems (canonicalSessionHistory items) = modelItems items := by
  by_cases plain : latestCompactionWindow items = none
  · rw [canonical_of_plain (latestCompactionWindow_eq_none_iff.1 plain)]
  · obtain ⟨old, kept, latest, new, shape⟩ := exists_checkpointed plain
    rw [shape.canonical.modelItems_eq, shape.modelItems_eq, List.filter_append, filter_retained_mcp,
      filter_filter_of_imp isKept_of_isRetainedUser, List.nil_append]

/-- More items without a compaction extend the current window. -/
theorem Checkpointed.append_plain (h : Checkpointed a old kept latest new)
    (plain : ∀ i ∈ b, i.isCompaction = false) : Checkpointed (a ++ b) old kept latest (new ++ b) := by
  refine ⟨by rw [h.parts]; simp, h.old_ends, h.kept_plain, fun i mem => ?_⟩
  exact (List.mem_append.1 mem).elim (h.new_plain i) (plain i)

/-- More items with a single compaction: the window before it becomes the old part. -/
theorem Checkpointed.append_first {keptb newb : List InputItem} {latestb : CompactionItem}
    (h : Checkpointed a old kept latest new) (hb : Checkpointed b [] keptb latestb newb) :
    Checkpointed (a ++ b) (old ++ kept ++ [.compaction latest]) (new ++ keptb) latestb newb := by
  refine ⟨by rw [h.parts, hb.parts]; simp, .inr ⟨old ++ kept, _, rfl, rfl⟩, fun i mem => ?_, hb.new_plain⟩
  exact (List.mem_append.1 mem).elim (h.new_plain i) (hb.kept_plain i)

/-- More items with several compactions: everything before them becomes the old part. -/
theorem Checkpointed.append_later {front keptb newb : List InputItem} {x : InputItem} {latestb : CompactionItem}
    (hb : Checkpointed b (front ++ [x]) keptb latestb newb) (a : List InputItem) :
    Checkpointed (a ++ b) (a ++ (front ++ [x])) keptb latestb newb := by
  refine ⟨by rw [hb.parts]; simp, ?_, hb.kept_plain, hb.new_plain⟩
  rcases hb.old_ends with empty | ⟨front', x', same, isCmp⟩
  · simp at empty
  · exact .inr ⟨a ++ front', x', by rw [same]; simp, isCmp⟩

/-- **Canonicalizing along the way** changes nothing: a history may be projected before more is appended. -/
theorem canonical_append : canonicalSessionHistory (canonicalSessionHistory a ++ b) = canonicalSessionHistory (a ++ b) := by
  by_cases plain_a : latestCompactionWindow a = none
  · rw [canonical_of_plain (latestCompactionWindow_eq_none_iff.1 plain_a)]
  obtain ⟨old, kept, latest, new, shape⟩ := exists_checkpointed plain_a
  by_cases plain_b : latestCompactionWindow b = none
  · have plain := latestCompactionWindow_eq_none_iff.1 plain_b
    rw [(shape.canonical.append_plain plain).canonical_eq, (shape.append_plain plain).canonical_eq, List.filter_append,
      filter_kept_mcp, filter_kept_kept, List.filter_nil, List.nil_append]
  obtain ⟨oldb, keptb, latestb, newb, shapeb⟩ := exists_checkpointed plain_b
  rcases shapeb.old_ends with rfl | ⟨front, x, rfl, -⟩
  · rw [(shape.canonical.append_first shapeb).canonical_eq, (shape.append_first shapeb).canonical_eq]
    simp only [List.filter_append, filter_mcp_mcp, filter_mcp_kept, List.nil_append]
  · rw [(shapeb.append_later _).canonical_eq, (shapeb.append_later _).canonical_eq]
    simp only [List.filter_append, filter_mcp_canonical]

/-- A listing is not shown to the model. -/
theorem isModelVisible_of_isMcpListTools {i : InputItem} (h : i.isMcpListTools = true) : i.isModelVisible = false := by
  cases i <;> simp_all [InputItem.isMcpListTools, InputItem.isModelVisible]

theorem filter_visible_mcp : (items.filter InputItem.isMcpListTools).filter InputItem.isModelVisible = [] := by
  rw [List.filter_eq_nil_iff]
  intro i mem
  simp [isModelVisible_of_isMcpListTools (List.mem_filter.1 mem).2]

/-- Of what is kept the model sees the user items. -/
theorem filter_visible_kept :
    (items.filter InputItem.isKept).filter InputItem.isModelVisible = items.filter InputItem.isRetainedUser := by
  rw [List.filter_filter]
  congr 1
  funext i
  cases retained : i.isRetainedUser with
  | true => simp [InputItem.isKept, retained, InputItem.isModelVisible_of_isRetainedUser retained]
  | false =>
    cases listing : i.isMcpListTools with
    | true => simp [isModelVisible_of_isMcpListTools listing]
    | false => simp [InputItem.isKept, retained, listing]

/-- What is visible in the canonical history is what the model sees. -/
theorem filter_visible_canonical : (canonicalSessionHistory items).filter InputItem.isModelVisible = modelItems items := by
  by_cases plain : latestCompactionWindow items = none
  · have none_compacted := latestCompactionWindow_eq_none_iff.1 plain
    rw [canonical_of_plain none_compacted, modelItems_of_plain none_compacted]
  · obtain ⟨old, kept, latest, new, shape⟩ := exists_checkpointed plain
    rw [shape.canonical_eq, shape.modelItems_eq, List.filter_append, List.filter_append, filter_visible_mcp,
      filter_visible_kept, List.nil_append]
    rfl

/-- An item the model does not see is no call. -/
theorem entry_of_hidden {i : InputItem} (hidden : i.isModelVisible = false) : i.entry = none := by
  cases i <;> simp_all [InputItem.isModelVisible, InputItem.entry]

theorem scanItem_of_entry {i : InputItem} (none_owed : i.entry = none) (b : CallBook) : scanItem b i = .ok b := by
  cases i <;> simp_all [InputItem.entry, scanItem]

/-- The scan passes over what the model does not see. -/
theorem scanItems_visible (b : CallBook) : scanItems b (items.filter InputItem.isModelVisible) = scanItems b items := by
  induction items generalizing b with
  | nil => rfl
  | cons i items ih =>
    cases visible : i.isModelVisible with
    | false =>
      rw [List.filter_cons_of_neg (by simp [visible]), ih, scanItems, scanItem_of_entry (entry_of_hidden visible)]
      rfl
    | true =>
      rw [List.filter_cons_of_pos visible, scanItems, scanItems]
      simp only [ih]

/-- A canonical history leaves open the calls that the model sees. -/
theorem pendingCalls_canonical : pendingCalls (canonicalSessionHistory items) = pendingCalls (modelItems items) := by
  rw [← filter_visible_canonical, pendingCalls, pendingCalls, scanItems_visible]

/-- **The canonical history keeps exactly what continuation needs**: what the model sees, and every listing record. It
may be taken again, and before more is appended; the calls it leaves pending are those of the model's window. -/
theorem canonical_exact : modelItems (canonicalSessionHistory items) = modelItems items ∧
    (canonicalSessionHistory items).filter InputItem.isModelVisible = modelItems items ∧
    (canonicalSessionHistory items).filter InputItem.isMcpListTools = items.filter InputItem.isMcpListTools ∧
    canonicalSessionHistory (canonicalSessionHistory items) = canonicalSessionHistory items ∧
    (∀ later, canonicalSessionHistory (canonicalSessionHistory items ++ later) = canonicalSessionHistory (items ++ later)) ∧
    pendingCalls (canonicalSessionHistory items) = pendingCalls (modelItems items) := by
  refine ⟨modelItems_canonical, filter_visible_canonical, filter_mcp_canonical, ?_, fun later => canonical_append,
    pendingCalls_canonical⟩
  have again := @canonical_append items []
  rwa [List.append_nil, List.append_nil] at again

end AgenticStack
