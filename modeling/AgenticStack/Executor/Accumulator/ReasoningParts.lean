import AgenticStack.Executor.Accumulator.ItemIds
import AgenticStack.Library.Insertion

/-!
# The parts of a reasoning item

The parts of a reasoning item, of its content and of its summary, are finished
one by one, in any order. A part is inserted at its index, or at the end of the
parts that are there; a part without a text is left out.
-/

namespace AgenticStack
set_option autoImplicit false
open Library

/-- The two lists of parts that reasoning has. -/
inductive PartKind where
  | content | summary
deriving DecidableEq, Repr

/-- The done event of a part. -/
def PartKind.done (kind : PartKind) (text item_id : Text) (output_index : Option Nat) (index : Nat) : EventPayload :=
  match kind with
  | .content => .reasoningTextDone text item_id output_index index
  | .summary => .reasoningSummaryTextDone text item_id output_index index

/-- The parts that have a text, in the order in which they came; `silent` are those without one. -/
def arrivedParts (silent : PartKind → Nat → Bool) (kind : PartKind) (order : List (PartKind × Nat)) : List Nat :=
  (order.filter fun part => part.1 = kind && !silent kind part.2).map Prod.snd

/-- The parts that have a text, by their index. -/
def partsInOrder (silent : PartKind → Nat → Bool) (count : PartKind → Nat) (kind : PartKind) : List Nat :=
  (List.range (count kind)).filter fun index => !silent kind index

section
variable (items : ItemSerde) (newId : NewId) (item_id : Text) (output_index : Option Nat) (text : PartKind → Nat → Text)

/-- The item after the done events of these parts. -/
def ReasoningOutput.applyParts (self : ReasoningOutput) (order : List (PartKind × Nat)) : ReasoningOutput :=
  order.foldl (fun self part => self.applyDone items newId (part.1.done (text part.1 part.2) item_id output_index part.2)) self

end

section
variable {items : ItemSerde} {newId : NewId} {item_id : Text} {output_index : Option Nat} {text : PartKind → Nat → Text}
  {silent : PartKind → Nat → Bool} {order : List (PartKind × Nat)} {contents summaries : List Nat} {self : ReasoningOutput}

/-- What the parts are, when they were inserted by their indexes. -/
theorem applyParts_eq (quiet : ∀ kind index, text kind index = [] ↔ silent kind index = true)
    (content : self.content = contents.map fun index => ReasoningTextContent.new (text .content index))
    (summary : self.summary = summaries.map fun index => summaryText (text .summary index)) :
    (self.applyParts items newId item_id output_index text order).content =
      (insertAll contents (arrivedParts silent .content order)).map (fun index => ReasoningTextContent.new (text .content index)) ∧
    (self.applyParts items newId item_id output_index text order).summary =
      (insertAll summaries (arrivedParts silent .summary order)).map fun index => summaryText (text .summary index) := by
  induction order generalizing self contents summaries with
  | nil => exact ⟨content, summary⟩
  | cons part order ih =>
    obtain ⟨kind, index⟩ := part
    have step : self.applyParts items newId item_id output_index text ((kind, index) :: order) =
        (self.applyDone items newId (kind.done (text kind index) item_id output_index index)).applyParts
          items newId item_id output_index text order := rfl
    rw [step]
    by_cases empty : text kind index = []
    · have skipped : silent kind index = true := (quiet kind index).1 empty
      have same : self.applyDone items newId (kind.done (text kind index) item_id output_index index) = self := by
        cases kind <;> simp [PartKind.done, ReasoningOutput.applyDone, empty]
      rw [same]
      have rest (other : PartKind) : arrivedParts silent other ((kind, index) :: order) = arrivedParts silent other order := by
        unfold arrivedParts
        rw [List.filter_cons_of_neg]
        by_cases own : kind = other
        · subst own
          simp [skipped]
        · simp [own]
      rw [rest, rest]
      exact ih content summary
    · have shown : silent kind index = false := Bool.eq_false_iff.2 (mt (quiet kind index).2 empty)
      cases kind with
      | content =>
        have own : arrivedParts silent .content ((.content, index) :: order) = index :: arrivedParts silent .content order := by
          simp [arrivedParts, shown]
        have other : arrivedParts silent .summary ((.content, index) :: order) = arrivedParts silent .summary order := by
          simp [arrivedParts]
        rw [own, other]
        have inserted : (self.applyDone items newId (PartKind.content.done (text .content index) item_id output_index index)).content =
            (insertAt contents index index).map fun index => ReasoningTextContent.new (text .content index) := by
          rw [map_insertAt, ← content]
          simp only [PartKind.done, ReasoningOutput.applyDone, empty, if_false]
          rfl
        refine ih inserted ?_
        simpa only [PartKind.done, ReasoningOutput.applyDone, empty, if_false] using summary
      | summary =>
        have own : arrivedParts silent .summary ((.summary, index) :: order) = index :: arrivedParts silent .summary order := by
          simp [arrivedParts, shown]
        have other : arrivedParts silent .content ((.summary, index) :: order) = arrivedParts silent .content order := by
          simp [arrivedParts]
        rw [own, other]
        have inserted : (self.applyDone items newId (PartKind.summary.done (text .summary index) item_id output_index index)).summary =
            (insertAt summaries index index).map fun index => summaryText (text .summary index) := by
          rw [map_insertAt, ← summary]
          simp only [PartKind.done, ReasoningOutput.applyDone, empty, if_false]
          rfl
        refine ih ?_ inserted
        simpa only [PartKind.done, ReasoningOutput.applyDone, empty, if_false] using content

/-- The parts of a kind that arrived with a text, in the order of arrival. -/
theorem arrivedParts_eq (kind : PartKind) : arrivedParts silent kind order =
    ((order.filter fun part => part.1 = kind).map Prod.snd).filter fun index => !silent kind index := by
  unfold arrivedParts
  rw [List.filter_map, List.filter_filter]
  congr 2
  funext part
  exact Bool.and_comm ..

end

/-- The parts that have a text stand in the order of their indexes, each once. -/
structure ReasoningOutput.Ordered (text : PartKind → Nat → Text) (silent : PartKind → Nat → Bool) (count : PartKind → Nat)
    (reasoning : ReasoningOutput) : Prop where
  content : reasoning.content = (partsInOrder silent count .content).map fun index => ReasoningTextContent.new (text .content index)
  summary : reasoning.summary = (partsInOrder silent count .summary).map fun index => summaryText (text .summary index)

section
variable {items : ItemSerde} {newId : NewId} {item_id : Text} {output_index : Option Nat} {silent : PartKind → Nat → Bool}
  {count : PartKind → Nat} {order : List (PartKind × Nat)}

/-- A map that tells the members apart tells the lists apart. -/
theorem eq_of_map_eq {α β : Type} {f : α → β} {l l' : List α} (inj : ∀ a ∈ l, ∀ b ∈ l', f a = f b → a = b)
    (same : l.map f = l'.map f) : l = l' := by
  induction l generalizing l' with
  | nil => exact (List.map_eq_nil_iff.1 same.symm).symm
  | cons a l ih =>
    cases l' with
    | nil => cases same
    | cons b l' =>
      obtain ⟨head, tail⟩ := List.cons.inj same
      rw [inj a List.mem_cons_self b List.mem_cons_self head]
      rw [ih (fun c here d there => inj c (List.mem_cons_of_mem _ here) d (List.mem_cons_of_mem _ there)) tail]

/-- Texts that tell the parts apart. -/
def apartTexts (silent : PartKind → Nat → Bool) (kind : PartKind) (index : Nat) : Text :=
  if silent kind index then [] else List.replicate (index + 1) 0x61

/-- Parts with a text are told apart by it. -/
theorem apartTexts_inj {kind : PartKind} {i j : Nat} (shown : silent kind i = false) (shown' : silent kind j = false)
    (same : apartTexts silent kind i = apartTexts silent kind j) : i = j := by
  have length := congrArg List.length same
  simp only [apartTexts, shown, shown', Bool.false_eq_true, if_false, List.length_replicate] at length
  omega

/-- A part without a text is the part that was given none. -/
theorem apartTexts_quiet (kind : PartKind) (index : Nat) : apartTexts silent kind index = [] ↔ silent kind index = true := by
  cases quiet : silent kind index <;> simp [apartTexts, quiet]

/-- **Parts end up in order** exactly when each one that has a text finds only parts of lower index before it, or all of
them: then, and only then, they do whatever their texts are. -/
theorem parts_ordered_iff (whole : ∀ kind, ((order.filter fun part => part.1 = kind).map Prod.snd).Perm (List.range (count kind))) :
    (∀ (text : PartKind → Nat → Text) (id : Text), (∀ kind index, text kind index = [] ↔ silent kind index = true) →
      ((ReasoningOutput.new id).applyParts items newId item_id output_index text order).Ordered text silent count) ↔
    ∀ kind, InPlace (arrivedParts silent kind order) := by
  have perm (kind : PartKind) : (arrivedParts silent kind order).Perm (partsInOrder silent count kind) := by
    rw [arrivedParts_eq]
    exact (whole kind).filter _
  have ordered (kind : PartKind) : (partsInOrder silent count kind).Pairwise (· < ·) :=
    List.pairwise_lt_range.sublist List.filter_sublist
  have once (kind : PartKind) : (arrivedParts silent kind order).Nodup :=
    (perm kind).nodup_iff.2 (List.nodup_range.filter _)
  have placed (kind : PartKind) := insertAll_eq_iff (ordered kind) (once kind) (perm kind)
  have shown (kind : PartKind) {i : Nat} (here : i ∈ partsInOrder silent count kind) : silent kind i = false := by
    simpa using (List.mem_filter.1 here).2
  have arrived (kind : PartKind) {i : Nat} (here : i ∈ insertAll [] (arrivedParts silent kind order)) : silent kind i = false :=
    shown kind ((perm_insertAll.trans (perm kind)).mem_iff.1 here)
  constructor
  · intro always
    have result := always (apartTexts silent) [] apartTexts_quiet
    obtain ⟨content, summary⟩ := @applyParts_eq items newId item_id output_index _ _ order [] [] (ReasoningOutput.new [])
      apartTexts_quiet rfl rfl
    intro kind
    refine (placed kind).1 ?_
    cases kind with
    | content =>
      refine eq_of_map_eq (fun i here j there same => ?_) (content.symm.trans result.content)
      exact apartTexts_inj (arrived _ here) (shown _ there) (by simpa [ReasoningTextContent.new] using same)
    | summary =>
      refine eq_of_map_eq (fun i here j there same => ?_) (summary.symm.trans result.summary)
      exact apartTexts_inj (arrived _ here) (shown _ there) (by simpa [summaryText] using same)
  · intro inPlace text id quiet
    obtain ⟨content, summary⟩ := @applyParts_eq items newId item_id output_index _ _ order [] [] (ReasoningOutput.new id)
      quiet rfl rfl
    refine ⟨content.trans ?_, summary.trans ?_⟩
    · rw [(placed .content).2 (inPlace .content)]
    · rw [(placed .summary).2 (inPlace .summary)]

end

/-- The readers of items; the events of parts bring none. -/
def partSerde : ItemSerde := .derived Json.write semanticallyEqual

/-- The content arrives last part first but one, with its middle part empty; there is one part of a summary. -/
theorem parts_ordered_iff_swapped :
    let order := [(PartKind.content, 2), (.summary, 0), (.content, 0), (.content, 1)]
    let silent := fun kind index => decide (kind = PartKind.content ∧ index = 1)
    ∀ (text : PartKind → Nat → Text) (id : Text), (∀ kind index, text kind index = [] ↔ silent kind index = true) →
      ((ReasoningOutput.new id).applyParts partSerde (fun front => front) "rs_1" (some 0) text order).Ordered text silent
        fun | .content => 3 | .summary => 1 := by
  intro order silent
  refine (parts_ordered_iff ?_).2 ?_
  · intro kind
    cases kind <;> decide
  · intro kind
    cases kind <;> decide

/-- Three parts of the content, each of one letter. -/
def letterTexts (_ : PartKind) (index : Nat) : Text := ([utf8 "a", "b", "c"]).getD index []

/-- Three parts in reverse order: the second one comes to stand behind the third. -/
theorem reversedParts_outOfOrder :
    let reasoning := (ReasoningOutput.new "rs_1").applyParts partSerde (fun front => front) "rs_1" (some 0) letterTexts
      [(.content, 2), (.content, 1), (.content, 0)]
    reasoning.content.map (·.text) = ["a", "c", "b"] ∧
      ¬ reasoning.Ordered letterTexts (fun _ _ => false) fun | .content => 3 | .summary => 0 := by
  intro reasoning
  have shown : reasoning.content.map (·.text) = ["a", "c", "b"] := by decide +kernel
  refine ⟨shown, fun ordered => ?_⟩
  rw [ordered.content] at shown
  revert shown
  decide +kernel

end AgenticStack
