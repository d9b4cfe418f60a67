import AgenticStack.Executor.EngineSteps
import AgenticStack.Executor.TokenEstimate
import AgenticStack.Types.Encode

/-!
# When a context is compacted

The estimate of a context is a function of what the model sees of it. It grows
with what is seen and stays within 64 bits, so a context that sees more is
compacted whenever one that sees less is.
-/

namespace AgenticStack
set_option autoImplicit false
open Library

variable {pre post items between new : List InputItem} {x : InputItem} {latest : CompactionItem} {writer : ItemWriter}

/-- What the model sees of items with a checkpoint. -/
theorem modelItems_checkpoint (plain : ∀ i ∈ new, i.isCompaction = false) :
    modelItems (pre ++ .compaction latest :: new) =
      (sinceLast InputItem.isCompaction pre).filter InputItem.isRetainedUser ++
        .compaction latest :: new.filter InputItem.isModelVisible := by
  obtain ⟨old, split, ends⟩ := exists_endsIn_append InputItem.isCompaction pre
  have shape : Checkpointed (pre ++ .compaction latest :: new) old (sinceLast InputItem.isCompaction pre) latest new :=
    ⟨by rw [← split], ends, sinceLast_plain, plain⟩
  exact shape.modelItems_eq

/-- Without a compaction, or up to the last of them and what follows it. -/
theorem exists_lastCheckpoint (items : List InputItem) : (∀ i ∈ items, i.isCompaction = false) ∨
    ∃ pre latest new, items = pre ++ .compaction latest :: new ∧ ∀ i ∈ new, i.isCompaction = false := by
  cases found : rposition InputItem.isCompaction items with
  | none => exact .inl (rposition_eq_none_iff.1 found)
  | some i =>
    obtain ⟨pre, c, new, split, isCmp, plain, -⟩ := exists_of_rposition found
    cases c with
    | compaction latest => exact .inr ⟨pre, latest, new, split, plain⟩
    | _ => simp [InputItem.isCompaction] at isCmp

/-- An item the model does not see is no checkpoint. -/
theorem InputItem.not_compaction_of_hidden (hidden : x.isModelVisible = false) : x.isCompaction = false := by
  cases x <;> simp_all [InputItem.isModelVisible, InputItem.isCompaction]

/-- An item the model does not see is not kept by a checkpoint. -/
theorem InputItem.not_retained_of_hidden (hidden : x.isModelVisible = false) : x.isRetainedUser = false := by
  cases retained : x.isRetainedUser with
  | false => rfl
  | true => rw [InputItem.isModelVisible_of_isRetainedUser retained] at hidden; cases hidden

/-- An item at the end is seen by its kind, unless it is a compaction. -/
theorem modelItems_append (plain : x.isCompaction = false) :
    modelItems (items ++ [x]) = modelItems items ++ [x].filter InputItem.isModelVisible := by
  have single : ∀ i ∈ [x], i.isCompaction = false := by
    intro i mem
    rwa [List.mem_singleton.1 mem]
  rcases exists_lastCheckpoint items with none_compacted | ⟨pre, latest, new, rfl, after⟩
  · rw [modelItems_of_plain none_compacted, modelItems_of_plain, List.filter_append]
    intro i mem
    exact (List.mem_append.1 mem).elim (none_compacted i) (single i)
  · rw [List.append_assoc, List.cons_append, modelItems_checkpoint after, modelItems_checkpoint, List.filter_append,
      List.append_assoc, List.cons_append]
    intro i mem
    exact (List.mem_append.1 mem).elim (after i) (single i)

/-- An item between `pre` and `post` that the model does not see and that hides nothing from it: a record or a
marker; or what a later compaction supersedes. An item is superseded unless it passes for a message that the
compaction retained; a compaction is once nothing before it passes for one either; and anything is by two of them. -/
def Unseen (pre : List InputItem) (x : InputItem) (post : List InputItem) : Prop :=
  x.isModelVisible = false ∨
  ∃ between latest new, post = between ++ .compaction latest :: new ∧
    ((∃ i ∈ between, i.isCompaction = true) ∨ (x.isCompaction = false ∧ x.isRetainedUser = false) ∨
      (x.isCompaction = true ∧ ∀ i ∈ sinceLast InputItem.isCompaction pre, i.isRetainedUser = false))

/-- What stands before the last compaction shows the same retained messages with `x` and without. -/
theorem retained_insert (unseen : (∃ i ∈ between, i.isCompaction = true) ∨
      (x.isCompaction = false ∧ x.isRetainedUser = false) ∨
      (x.isCompaction = true ∧ ∀ i ∈ sinceLast InputItem.isCompaction pre, i.isRetainedUser = false)) :
    (sinceLast InputItem.isCompaction (pre ++ x :: between)).filter InputItem.isRetainedUser =
      (sinceLast InputItem.isCompaction (pre ++ between)).filter InputItem.isRetainedUser := by
  by_cases later : ∃ i ∈ between, i.isCompaction = true
  · have behind := @sinceLast_append_of_mem _ InputItem.isCompaction (pre ++ [x]) between later
    rw [List.append_assoc, List.singleton_append] at behind
    rw [behind, sinceLast_append_of_mem later]
  · have plain : ∀ i ∈ between, i.isCompaction = false := by
      intro i mem
      by_contra hit
      exact later ⟨i, mem, by simpa using hit⟩
    have without := @sinceLast_append_plain _ InputItem.isCompaction pre between plain
    rw [without, List.filter_append]
    rcases unseen.resolve_left later with ⟨notCompaction, notRetained⟩ | ⟨isCompaction, none_retained⟩
    · have withX : ∀ i ∈ x :: between, i.isCompaction = false := by
        rw [List.forall_mem_cons]
        exact ⟨notCompaction, plain⟩
      rw [sinceLast_append_plain withX, List.filter_append, List.filter_cons_of_neg (by simp [notRetained])]
    · have ends : EndsIn InputItem.isCompaction (pre ++ [x]) := .inr ⟨pre, x, rfl, isCompaction⟩
      have after := sinceLast_append ends plain
      rw [List.append_assoc, List.singleton_append] at after
      have nothing : (sinceLast InputItem.isCompaction pre).filter InputItem.isRetainedUser = [] := by
        rw [List.filter_eq_nil_iff]
        intro i mem
        simp [none_retained i mem]
      rw [after, nothing, List.nil_append]

/-- An item the model does not see may stand anywhere. -/
theorem modelItems_insert_before (plain : ∀ i ∈ new, i.isCompaction = false)
    (unseen : (∃ i ∈ between, i.isCompaction = true) ∨ (x.isCompaction = false ∧ x.isRetainedUser = false) ∨
      (x.isCompaction = true ∧ ∀ i ∈ sinceLast InputItem.isCompaction pre, i.isRetainedUser = false)) :
    modelItems (pre ++ x :: (between ++ .compaction latest :: new)) =
      modelItems (pre ++ (between ++ .compaction latest :: new)) := by
  have withX : pre ++ x :: (between ++ .compaction latest :: new) = (pre ++ x :: between) ++ .compaction latest :: new := by
    rw [List.append_assoc, List.cons_append]
  rw [withX, ← List.append_assoc, modelItems_checkpoint plain, modelItems_checkpoint plain, retained_insert unseen]

/-- **Adding what is unseen does not change what the model sees.** -/
theorem modelItems_insert (unseen : Unseen pre x post) : modelItems (pre ++ x :: post) = modelItems (pre ++ post) := by
  rcases unseen with hidden | ⟨between, latest, new, rfl, superseded⟩
  · have notCompaction := InputItem.not_compaction_of_hidden hidden
    have notRetained := InputItem.not_retained_of_hidden hidden
    rcases exists_lastCheckpoint post with plain | ⟨between, latest, new, rfl, after⟩
    · have withX : ∀ i ∈ x :: post, i.isCompaction = false := by
        rw [List.forall_mem_cons]
        exact ⟨notCompaction, plain⟩
      have dropped : (x :: post).filter InputItem.isModelVisible = post.filter InputItem.isModelVisible :=
        List.filter_cons_of_neg (by simp [hidden])
      rcases exists_lastCheckpoint pre with before | ⟨front, latest, new, rfl, after⟩
      · rw [modelItems_of_plain fun i mem => (List.mem_append.1 mem).elim (before i) (withX i),
          modelItems_of_plain fun i mem => (List.mem_append.1 mem).elim (before i) (plain i), List.filter_append,
          List.filter_append, dropped]
      · rw [List.append_assoc, List.cons_append, List.append_assoc, List.cons_append,
          modelItems_checkpoint fun i mem => (List.mem_append.1 mem).elim (after i) (withX i),
          modelItems_checkpoint fun i mem => (List.mem_append.1 mem).elim (after i) (plain i), List.filter_append,
          List.filter_append, dropped]
    · exact modelItems_insert_before after (.inr (.inl ⟨notCompaction, notRetained⟩))
  · -- the last compaction of all is this one or a later one
    rcases exists_lastCheckpoint new with plain | ⟨between', latest', new', rfl, after⟩
    · exact modelItems_insert_before plain superseded
    · have regroup : between ++ .compaction latest :: (between' ++ .compaction latest' :: new') =
          (between ++ .compaction latest :: between') ++ .compaction latest' :: new' := by
        rw [List.append_assoc, List.cons_append]
      rw [regroup]
      exact modelItems_insert_before after (.inl ⟨.compaction latest, by simp, rfl⟩)

/-- What a cost reads as: whole groups of four bytes, and the allowances, up to the limit of 64 bits. -/
def tokensOf (cost : Cost) : Nat :=
  min (min cost.units u64Max + (min cost.bytes u64Max / 4 + if min cost.bytes u64Max % 4 = 0 then 0 else 1)) u64Max

/-- The tokens of a request are those of its cost. -/
theorem totalTokens_charge (cost : Cost) : InputTokenEstimate.totalTokens ((Meter.zero u64Max).charge cost) = tokensOf cost := by
  have bytes : 0 + cost.bytes = cost.bytes := Nat.zero_add _
  have units : 0 + cost.units = cost.units := Nat.zero_add _
  simp only [InputTokenEstimate.totalTokens, Meter.reading, Meter.charge, Meter.zero, Counter.value_add,
    Counter.value_zero, bytes, units]
  rfl

/-- No request costs more than the largest number. -/
theorem tokensOf_le_max (cost : Cost) : tokensOf cost ≤ u64Max := Nat.min_le_right _ _

/-- What costs more is estimated higher. -/
theorem tokensOf_mono {a b : Cost} (le : a.Le b) : tokensOf a ≤ tokensOf b := by
  rw [← totalTokens_charge, ← totalTokens_charge]
  exact Meter.reading_charge_mono le

/-- What an input costs: its text, or what the model sees of its items. -/
def ResponsesInput.cost (writer : ItemWriter) (input : ResponsesInput) : Cost :=
  match input with
  | .text t => (Cost.ofUnits estimatedInputOverheadTokens).plus (textCost t)
  | .items xs => contextCost writer (AgenticStack.modelItems xs)

/-- The estimate is the tokens of the cost. -/
theorem estimateInputTokens_eq (input : ResponsesInput) : estimateInputTokens writer input = tokensOf (input.cost writer) := by
  rw [← totalTokens_charge]
  unfold estimateInputTokens
  rw [addTokens_eq]
  cases input with
  | text t =>
    dsimp only
    rw [addText_eq, Meter.charge_charge, ResponsesInput.cost]
  | items xs =>
    dsimp only
    rw [Meter.foldl_charge fun m item _ => addInputItem_eq m item, Meter.charge_charge, ResponsesInput.cost]
    rfl

/-- Fewer items cost less. -/
theorem contextCost_sublist {part whole : List InputItem} (sub : part.Sublist whole) :
    (contextCost writer part).Le (contextCost writer whole) := by
  have rest := @Cost.total_sublist _ (InputItem.cost writer) part whole sub
  exact ⟨Nat.add_le_add_left rest.bytes _, Nat.add_le_add_left rest.units _⟩

/-- A turn is compacted exactly when the estimate exceeds the threshold it is configured with. -/
theorem Engine.maybeCompactContext_skips_iff {services : Engine.Services} {s : Engine.State} :
    Engine.maybeCompactContext services s = .ok none s ↔
      ∀ threshold, Engine.compactThreshold s.request.enriched_request.context_management = some threshold →
        services.estimateInputTokens s.request.enriched_request.input ≤ threshold := by
  constructor
  · intro skips threshold limit
    unfold Engine.maybeCompactContext at skips
    obtain ⟨_, _, read, rest⟩ := bind_ok.1 skips
    cases read
    rw [limit] at rest
    dsimp only at rest
    split at rest
    · assumption
    · obtain ⟨⟨compacted, usage⟩, _, -, rest⟩ := bind_ok.1 rest
      obtain ⟨_, _, -, rest⟩ := bind_ok.1 rest
      obtain ⟨same, -⟩ := pure_ok.1 rest
      cases same
  · intro within
    unfold Engine.maybeCompactContext
    refine bind_ok.2 ⟨s, s, rfl, ?_⟩
    cases limit : Engine.compactThreshold s.request.enriched_request.context_management with
    | none => rfl
    | some threshold =>
      dsimp only
      rw [if_pos (within threshold limit)]
      rfl

/-- The estimate of items depends on what the model sees of them, and adding what is unseen does not change it. It
never decreases when an item the model sees is appended, other than a compaction. It is the exact cost, counted in
counters that stop at the limit of 64 bits; and it is at least the cost of any of the items that are seen. So a
context is left alone where one that sees more is. -/
theorem estimateInputTokens_exact (writer : ItemWriter) :
    (∀ xs ys, modelItems xs = modelItems ys →
      estimateInputTokens writer (.items xs) = estimateInputTokens writer (.items ys)) ∧
    (∀ pre x post, Unseen pre x post →
      estimateInputTokens writer (.items (pre ++ x :: post)) = estimateInputTokens writer (.items (pre ++ post))) ∧
    (∀ xs x, x.isModelVisible = true → x.isCompaction = false →
      estimateInputTokens writer (.items xs) ≤ estimateInputTokens writer (.items (xs ++ [x]))) ∧
    (∀ input, estimateInputTokens writer input = tokensOf (input.cost writer) ∧
      estimateInputTokens writer input ≤ u64Max) ∧
    (∀ xs part, part.Sublist (modelItems xs) →
      tokensOf (contextCost writer part) ≤ estimateInputTokens writer (.items xs)) ∧
    (∀ (services : Engine.Services) (s t : Engine.State) xs ys,
      services.estimateInputTokens = estimateInputTokens writer →
      s.request.enriched_request.input = .items xs → t.request.enriched_request.input = .items ys →
      s.request.enriched_request.context_management = t.request.enriched_request.context_management →
      (modelItems xs).Sublist (modelItems ys) →
      Engine.maybeCompactContext services t = .ok none t → Engine.maybeCompactContext services s = .ok none s) := by
  have grows {xs part : List InputItem} (sub : part.Sublist (modelItems xs)) :
      tokensOf (contextCost writer part) ≤ estimateInputTokens writer (.items xs) := by
    rw [estimateInputTokens_eq]
    exact tokensOf_mono (contextCost_sublist sub)
  refine ⟨?_, ?_, ?_, ?_, ?_, ?_⟩
  · intro xs ys same
    rw [estimateInputTokens_eq, estimateInputTokens_eq, ResponsesInput.cost, ResponsesInput.cost, same]
  · intro pre x post unseen
    rw [estimateInputTokens_eq, estimateInputTokens_eq, ResponsesInput.cost, ResponsesInput.cost,
      modelItems_insert unseen]
  · intro xs x visible plain
    rw [@estimateInputTokens_eq writer (.items xs)]
    refine grows ?_
    rw [modelItems_append plain]
    exact List.sublist_append_left _ _
  · intro input
    rw [estimateInputTokens_eq]
    exact ⟨rfl, tokensOf_le_max _⟩
  · intro xs part sub
    exact grows sub
  · intro services s t xs ys estimates seen seen' same sub skips
    rw [Engine.maybeCompactContext_skips_iff] at skips ⊢
    intro threshold limit
    rw [same] at limit
    have larger := skips threshold limit
    rw [estimates, seen'] at larger
    rw [estimates, seen, estimateInputTokens_eq]
    exact Nat.le_trans (grows sub) larger

/-- The writer that is derived. -/
def derivedWriter : ItemWriter := ⟨some, fun item => some (.obj item.toFields)⟩

/-- A message of the user that a checkpoint keeps. -/
def keptMessage : InputItem := .message ⟨some "msg_1", "user", some .completed, .text "hello"⟩

/-- A checkpoint with a summary. -/
def checkpoint (summary : Text) : InputItem := .compaction ⟨none, summary⟩

/-- A listing record, a call before a checkpoint, a message at the end. -/
theorem estimateInputTokens_exact_checkpoint :
    let call : InputItem := .functionCall ⟨none, "call_1", "lookup", none, "\x7b\x7d", none⟩
    let records : InputItem := .mcpListTools ⟨"mcpl_1", "docs", [], none⟩
    estimateInputTokens derivedWriter (.items ([keptMessage] ++ call :: [checkpoint "summary"])) =
        estimateInputTokens derivedWriter (.items ([keptMessage] ++ [checkpoint "summary"])) ∧
      estimateInputTokens derivedWriter (.items ([keptMessage] ++ records :: [])) =
        estimateInputTokens derivedWriter (.items ([keptMessage] ++ [])) ∧
      estimateInputTokens derivedWriter (.items [keptMessage]) ≤
        estimateInputTokens derivedWriter (.items ([keptMessage] ++ [call])) := by
  intro call records
  obtain ⟨-, insert, append, -, -, -⟩ := estimateInputTokens_exact derivedWriter
  refine ⟨insert _ _ _ (.inr ⟨[], _, [], rfl, .inr (.inl ⟨rfl, ?_⟩)⟩), insert _ _ _ (.inl rfl), append _ _ rfl rfl⟩
  rfl

/-- The text of a plain input is no item and yet counts; and a compaction that is superseded itself still hides the
messages retained before it. -/
theorem estimate_counts_text_and_earlier_checkpoints :
    ((ResponsesInput.text "abcd").modelItems = (ResponsesInput.text []).modelItems ∧
      estimateInputTokens derivedWriter (.text "abcd") ≠ estimateInputTokens derivedWriter (.text [])) ∧
    estimateInputTokens derivedWriter (.items [keptMessage, checkpoint "first", checkpoint "second"]) ≠
      estimateInputTokens derivedWriter (.items [keptMessage, checkpoint "second"]) := by
  refine ⟨⟨rfl, ?_⟩, ?_⟩
  · decide
  · decide

end AgenticStack
