import AgenticStack.Executor.Translate.Dispatcher
import AgenticStack.Library.Outcome

/-!
# What one event does to the dispatcher

What is buffered is counted; an event changes nothing but what there is of its
own call; and when a call gets its name, its translator is given what was
buffered.
-/

namespace AgenticStack
set_option autoImplicit false
open Library

/-- `function_event_index`. -/
def EventFrame.callIndex (frame : EventFrame) : Option Nat :=
  match frame.payload with
  | .outputItemAdded _ .functionCall output_index _ _ _ _ | .outputItemDone _ .functionCall output_index _
  | .functionCallArgsDelta _ _ _ output_index | .functionCallArgsDone _ _ _ _ output_index => output_index
  | _ => none

/-- Whether the frame is a delta of the arguments. -/
def EventFrame.isArgumentsDelta (frame : EventFrame) : Bool :=
  match frame.payload with
  | .functionCallArgsDelta _ _ _ _ => true
  | _ => false

namespace TranslationDispatcher

section
variable {τ σ : Type}

/-- The frames buffered for a call. -/
def framesAt (self : TranslationDispatcher τ σ) (p : Nat) : Option (List EventFrame) :=
  (self.pending_unnamed.lookup p).map PendingFunctionCall.frames

/-- **What is buffered is counted**, by call and in total, and within the limit. -/
structure Buffered (d : TranslationDispatcher τ σ) : Prop where
  once : (d.pending_unnamed.map Prod.fst).Nodup
  index : ∀ entry ∈ d.pending_unnamed, entry.2.output_index = entry.1
  own : ∀ entry ∈ d.pending_unnamed, ∀ frame ∈ entry.2.frames, frame.callIndex = some entry.1
  counted : ∀ entry ∈ d.pending_unnamed, entry.2.bytes = (entry.2.frames.map EventFrame.bytes).sum
  total : d.pending_bytes = (d.pending_unnamed.map fun entry => entry.2.bytes).sum
  limit : d.pending_bytes ≤ maxPendingFunctionBytes

/-- Nothing is changed but the translator of the call at `p`. -/
structure Elsewhere (p : Nat) (d d' : TranslationDispatcher τ σ) : Prop where
  pending : d'.pending_unnamed = d.pending_unnamed
  bytes : d'.pending_bytes = d.pending_bytes
  active : ∀ q ≠ p, d'.active.lookup q = d.active.lookup q

variable {translators : ToolTranslators τ} {context : TranslationContext σ} {d m d' : TranslationDispatcher τ σ}
  {frame : EventFrame} {call : Option AccumulatedFunctionCall} {frames out : List EventFrame} {p q : Nat}
  {item_id name : Text} {original : Option EventFrame} {translator translator' : τ}

/-- Nothing is held back. -/
theorem buffered_new {tool_search : σ} : Buffered (new tool_search : TranslationDispatcher τ σ) where
  once := List.nodup_nil
  index := by simp [new]
  own := by simp [new]
  counted := by simp [new]
  total := rfl
  limit := Nat.zero_le _

/-- Nothing changed. -/
theorem Elsewhere.refl : Elsewhere p d d := ⟨rfl, rfl, fun _ _ => rfl⟩

/-- What changes one call twice changes that call. -/
theorem Elsewhere.trans (first : Elsewhere p d m) (rest : Elsewhere p m d') : Elsewhere p d d' where
  pending := rest.pending.trans first.pending
  bytes := rest.bytes.trans first.bytes
  active q other := (rest.active q other).trans (first.active q other)

/-- What changes one call keeps the held frames in order. -/
theorem Elsewhere.buffered (h : Elsewhere p d d') (b : Buffered d) : Buffered d' := by
  obtain ⟨once, index, own, counted, total, limit⟩ := b
  constructor <;> simp only [h.pending, h.bytes] <;> assumption

/-- The frames of the other calls are those that were held. -/
theorem Elsewhere.framesAt (h : Elsewhere p d d') : d'.framesAt q = d.framesAt q := by
  rw [TranslationDispatcher.framesAt, h.pending]
  rfl

/-- A call that waits is one of those that wait. -/
theorem pendingIndex {pending : PendingFunctionCall} (b : Buffered d) (found : d.pending_unnamed.lookup p = some pending) :
    (p, pending) ∈ d.pending_unnamed :=
  (mem_iff_lookup b.once).2 found

/-- The bytes of the other calls. -/
theorem total_eq (b : Buffered d) : d.pending_bytes =
    ((d.pending_unnamed.lookup p).map PendingFunctionCall.bytes).getD 0 +
      ((d.pending_unnamed.filter fun entry => entry.1 != p).map fun entry => entry.2.bytes).sum := by
  rw [b.total]
  cases found : d.pending_unnamed.lookup p with
  | none =>
    rw [filter_of_lookup_none found]
    simp
  | some pending =>
    rw [((perm_of_lookup b.once found).map _).sum_nat]
    rfl

/-- **Buffering** a frame of the call at `p` adds it to what there is of the call. -/
theorem bufferUnnamed_ok (h : d.bufferUnnamed item_id p frame call = .ok (d', out)) :
    out = [] ∧ d'.active = d.active ∧ d'.framesAt p = some ((d.framesAt p).getD [] ++ [frame]) ∧
      (∀ q ≠ p, d'.framesAt q = d.framesAt q) ∧
      (Buffered d → frame.callIndex = some p → Buffered d') := by
  unfold bufferUnnamed at h
  split at h
  · cases h
  · rename_i fits
    dsimp only at h
    obtain ⟨rfl, rfl⟩ := Prod.mk.inj (Except.ok.inj h)
    refine ⟨rfl, rfl, ?_, ?_, ?_⟩
    · unfold TranslationDispatcher.framesAt
      rw [lookup_insertEntry_self]
      cases d.pending_unnamed.lookup p <;> rfl
    · intro q other
      unfold TranslationDispatcher.framesAt
      rw [lookup_insertEntry_ne other]
    · intro b here
      generalize added : (PendingFunctionCall.mk _ _ _ _) = pending
      have before := @total_eq _ _ d p b
      have known : pending.output_index = p ∧ (∀ f ∈ pending.frames, f.callIndex = some p) ∧
          pending.bytes = (pending.frames.map EventFrame.bytes).sum ∧
          pending.bytes = ((d.pending_unnamed.lookup p).map PendingFunctionCall.bytes).getD 0 + frame.bytes := by
        rw [← added]
        cases found : d.pending_unnamed.lookup p with
        | none => simp [here]
        | some known =>
          have mem := pendingIndex b found
          refine ⟨b.index _ mem, ?_, ?_, by simp⟩
          · intro f f_mem
            rcases List.mem_append.1 f_mem with f_mem | f_mem
            · exact b.own _ mem f f_mem
            · rw [List.mem_singleton.1 f_mem]
              exact here
          · have counted := b.counted _ mem
            simp only at counted
            simp [counted]
      have perm := @perm_insertEntry _ _ _ _ d.pending_unnamed p pending _ b.once
      have others : ∀ entry ∈ insertEntry d.pending_unnamed p pending,
          entry = (p, pending) ∨ entry ∈ d.pending_unnamed := by
        intro entry mem
        rcases List.mem_cons.1 (perm.mem_iff.1 mem) with here | there
        · exact .inl here
        · exact .inr (List.mem_filter.1 there).1
      refine ⟨nodup_insertEntry b.once, ?_, ?_, ?_, ?_, Nat.le_of_not_lt fits⟩
      · intro entry mem
        rcases others entry mem with rfl | mem
        · exact known.1
        · exact b.index entry mem
      · intro entry mem
        rcases others entry mem with rfl | mem
        · exact known.2.1
        · exact b.own entry mem
      · intro entry mem
        rcases others entry mem with rfl | mem
        · exact known.2.2.1
        · exact b.counted entry mem
      · rw [(perm.map _).sum_nat, List.map_cons, List.sum_cons, known.2.2.2]
        show d.pending_bytes + frame.bytes = _
        omega

/-- What is buffered of a call leaves the buffer, with its bytes. -/
theorem takePending_spec (b : Buffered d) (taken : d.takePending p = (frames, d')) :
    frames = (d.framesAt p).getD [] ∧ d'.active = d.active ∧
      d'.first_gateway_output_index = d.first_gateway_output_index ∧
      d'.tool_search = d.tool_search ∧ d'.framesAt p = none ∧
      (∀ q ≠ p, d'.framesAt q = d.framesAt q) ∧ Buffered d' ∧
      d.pending_bytes = d'.pending_bytes + (frames.map EventFrame.bytes).sum := by
  unfold takePending at taken
  have before := @total_eq _ _ d p b
  cases found : d.pending_unnamed.lookup p with
  | none =>
    rw [found] at taken
    cases taken
    unfold TranslationDispatcher.framesAt
    exact ⟨by rw [found]; rfl, rfl, rfl, rfl, by rw [found]; rfl, fun _ _ => rfl, b, rfl⟩
  | some pending =>
    rw [found] at taken before
    cases taken
    unfold TranslationDispatcher.framesAt
    have mem := pendingIndex b found
    have counted := b.counted _ mem
    simp only [Option.map_some, Option.getD_some] at before counted
    refine ⟨by rw [found]; rfl, rfl, rfl, rfl, by rw [lookup_filter_self]; rfl, ?_, ?_, ?_⟩
    · intro q other
      rw [@lookup_filter_keys _ _ _ _ d.pending_unnamed q (· != p) (by simpa using other)]
    · refine ⟨b.once.sublist (List.filter_sublist.map _), ?_, ?_, ?_, ?_, ?_⟩
      · exact fun entry mem => b.index entry (List.mem_filter.1 mem).1
      · exact fun entry mem => b.own entry (List.mem_filter.1 mem).1
      · exact fun entry mem => b.counted entry (List.mem_filter.1 mem).1
      · show d.pending_bytes - pending.bytes = ((d.pending_unnamed.filter fun entry => entry.1 != p).map
          fun entry => entry.2.bytes).sum
        omega
      · show d.pending_bytes - pending.bytes ≤ _
        have limit := b.limit
        omega
    · show d.pending_bytes = d.pending_bytes - pending.bytes + _
      omega

/-- All that a translator is given. -/
def callRun (translators : ToolTranslators τ) (translator : τ) (events : List (ToolEvent × Option AccumulatedFunctionCall)) :
    ExecutorResult (τ × List EventFrame) :=
  transduce (fun translator event => translators.translate translator event.1 event.2) translator events

/-- What starting a call comes to: the gateway's call is noted, a client's goes to a new translator. -/
theorem startCall_ok (h : d.startCall translators context item_id name p original call = .ok (d', out)) :
    Elsewhere p d d' ∧
      ((context.executes name = true ∧ out = [] ∧ d'.active.lookup p = some .gateway ∧
          ∃ first, d'.first_gateway_output_index = some first ∧ first ≤ p) ∨
        (context.executes name = false ∧ ∃ translator, d'.active.lookup p = some (.client translator) ∧
          translators.translate (translators.newTranslator (context.toolType name)) (.added item_id name p original) call =
            .ok (translator, out))) := by
  unfold startCall at h
  split at h
  · rename_i executes
    obtain ⟨rfl, rfl⟩ := Prod.mk.inj (Except.ok.inj h)
    refine ⟨⟨rfl, rfl, fun q other => lookup_insertEntry_ne other⟩, .inl ⟨executes, rfl, lookup_insertEntry_self, ?_⟩⟩
    cases known : d.first_gateway_output_index with
    | none => exact ⟨p, by simp, Nat.le_refl p⟩
    | some first =>
      by_cases below : p < first
      · exact ⟨p, by simp [below], Nat.le_refl p⟩
      · exact ⟨first, by simp [below], Nat.le_of_not_lt below⟩
  · rename_i client
    obtain ⟨⟨translator, frames⟩, translated, h⟩ := bind_eq_ok.1 h
    obtain ⟨tool_search, -, h⟩ := bind_eq_ok.1 h
    obtain ⟨rfl, rfl⟩ := Prod.mk.inj (pure_eq_ok.1 h)
    exact ⟨⟨rfl, rfl, fun q other => lookup_insertEntry_ne other⟩,
      .inr ⟨eq_false_of_ne_true client, translator, lookup_insertEntry_self, translated⟩⟩

/-- A delta of a client call goes to its translator. -/
theorem translateDelta_client (active : d.active.lookup p = some (.client translator))
    (h : d.translateDelta translators item_id p frame call = .ok (d', out)) :
    Elsewhere p d d' ∧ ∃ translator', d'.active.lookup p = some (.client translator') ∧
      translators.translate translator (.delta frame) call = .ok (translator', out) := by
  unfold translateDelta at h
  rw [active] at h
  obtain ⟨⟨translator', frames⟩, translated, h⟩ := bind_eq_ok.1 h
  obtain ⟨rfl, rfl⟩ := Prod.mk.inj (pure_eq_ok.1 h)
  exact ⟨⟨rfl, rfl, fun q other => lookup_insertEntry_ne other⟩, translator', lookup_insertEntry_self, translated⟩

/-- A delta of a gateway call is hidden. -/
theorem translateDelta_gateway (active : d.active.lookup p = some .gateway)
    (h : d.translateDelta translators item_id p frame call = .ok (d', out)) : d' = d ∧ out = [] := by
  unfold translateDelta at h
  rw [active] at h
  obtain ⟨rfl, rfl⟩ := Prod.mk.inj (Except.ok.inj h)
  exact ⟨rfl, rfl⟩

/-- The deltas among frames, as they are given to a translator with the call as it is now. -/
def deltaEvents (call : Option AccumulatedFunctionCall) (frames : List EventFrame) :
    List (ToolEvent × Option AccumulatedFunctionCall) :=
  (frames.filter EventFrame.isArgumentsDelta).map fun frame => (.delta frame, call)

/-- A buffered frame of the call at `p`, once more. -/
theorem replayFrame_eq (own : frame.callIndex = some p) : d.replayFrame translators item_id call frame =
    if frame.isArgumentsDelta then d.translateDelta translators item_id p frame call else .ok (d, []) := by
  unfold replayFrame EventFrame.isArgumentsDelta
  unfold EventFrame.callIndex at own
  cases payload : frame.payload <;> simp only [payload] at own ⊢
  all_goals first | rfl | skip
  rw [own]
  rfl

/-- **What was buffered is given to the translator**, each delta once and in order. -/
theorem replay_client (own : ∀ frame ∈ frames, frame.callIndex = some p)
    (active : d.active.lookup p = some (.client translator))
    (h : transduce (replayFrame translators item_id call) d frames = .ok (d', out)) :
    Elsewhere p d d' ∧ ∃ translator', d'.active.lookup p = some (.client translator') ∧
      callRun translators translator (deltaEvents call frames) = .ok (translator', out) := by
  induction frames generalizing d out translator with
  | nil =>
    obtain ⟨rfl, rfl⟩ := Prod.mk.inj (Except.ok.inj h)
    exact ⟨Elsewhere.refl, translator, active, rfl⟩
  | cons frame frames ih =>
    rw [List.forall_mem_cons] at own
    obtain ⟨m, first, rest, now, later, rfl⟩ := transduce_cons_eq_ok.1 h
    rw [replayFrame_eq own.1] at now
    unfold deltaEvents
    cases delta : frame.isArgumentsDelta with
    | false =>
      rw [delta, if_neg Bool.false_ne_true] at now
      obtain ⟨rfl, rfl⟩ := Prod.mk.inj (Except.ok.inj now)
      rw [List.filter_cons_of_neg (by simp [delta])]
      exact ih own.2 active later
    | true =>
      rw [delta, if_pos rfl] at now
      obtain ⟨here, translator₁, active₁, translated⟩ := translateDelta_client active now
      obtain ⟨there, translator', active', run⟩ := ih own.2 active₁ later
      rw [List.filter_cons_of_pos delta, List.map_cons]
      refine ⟨here.trans there, translator', active', ?_⟩
      exact transduce_cons_eq_ok.2 ⟨translator₁, first, rest, translated, run, rfl⟩

/-- The frames of a gateway call are hidden. -/
theorem replay_gateway (own : ∀ frame ∈ frames, frame.callIndex = some p) (active : d.active.lookup p = some .gateway)
    (h : transduce (replayFrame translators item_id call) d frames = .ok (d', out)) : d' = d ∧ out = [] := by
  induction frames generalizing d out with
  | nil =>
    obtain ⟨rfl, rfl⟩ := Prod.mk.inj (Except.ok.inj h)
    exact ⟨rfl, rfl⟩
  | cons frame frames ih =>
    rw [List.forall_mem_cons] at own
    obtain ⟨m, first, rest, now, later, rfl⟩ := transduce_cons_eq_ok.1 h
    rw [replayFrame_eq own.1] at now
    have same : m = d ∧ first = [] := by
      split at now
      · exact translateDelta_gateway active now
      · obtain ⟨rfl, rfl⟩ := Prod.mk.inj (Except.ok.inj now)
        exact ⟨rfl, rfl⟩
    obtain ⟨rfl, rfl⟩ := same
    obtain ⟨rfl, rfl⟩ := ih own.2 active later
    exact ⟨rfl, rfl⟩

/-- What was buffered of a call. -/
def bufferedAt (d : TranslationDispatcher τ σ) (p : Nat) : List EventFrame := (d.framesAt p).getD []

/-- The events that a translator is given when the call gets its name: the opening event, and what was buffered. -/
def replayedEvents (item_id name : Text) (p : Nat) (call : Option AccumulatedFunctionCall) (buffered : List EventFrame) :
    List (ToolEvent × Option AccumulatedFunctionCall) :=
  (.added item_id name p (buffered.find? EventFrame.isFunctionAdded), call) :: deltaEvents call buffered

/-- What is left after what was buffered of the call at `p` has been taken. -/
structure Resolved (p : Nat) (d d' : TranslationDispatcher τ σ) : Prop where
  buffered : Buffered d'
  gone : d'.framesAt p = none
  others : ∀ q ≠ p, d'.framesAt q = d.framesAt q
  bytes : d.pending_bytes = d'.pending_bytes + ((d.bufferedAt p).map EventFrame.bytes).sum
  active : ∀ q ≠ p, d'.active.lookup q = d.active.lookup q

/-- **A call gets its name.** -/
theorem resolvePending_ok (b : Buffered d) (unnamed : d.active.lookup p = none)
    (h : d.resolvePending translators context item_id name p call = .ok (d', out)) :
    Resolved p d d' ∧
      ((context.executes name = true ∧ out = [] ∧ d'.active.lookup p = some .gateway ∧
          ∃ first, d'.first_gateway_output_index = some first ∧ first ≤ p) ∨
        (context.executes name = false ∧ ∃ translator, d'.active.lookup p = some (.client translator) ∧
          callRun translators (translators.newTranslator (context.toolType name))
            (replayedEvents item_id name p call (d.bufferedAt p)) = .ok (translator, out))) := by
  unfold resolvePending at h
  rw [unnamed] at h
  obtain ⟨taken, m, took⟩ : ∃ frames m, d.takePending p = (frames, m) := ⟨_, _, rfl⟩
  rw [took] at h
  obtain ⟨frames, active, -, -, gone, others, buffered, bytes⟩ := takePending_spec b took
  obtain ⟨⟨m₁, opened⟩, started, h⟩ := bind_eq_ok.1 h
  obtain ⟨⟨m₂, deltas⟩, replayed, h⟩ := bind_eq_ok.1 h
  obtain ⟨rfl, rfl⟩ := Prod.mk.inj (pure_eq_ok.1 h)
  have frames : taken = d.bufferedAt p := frames
  subst frames
  have own : ∀ frame ∈ d.bufferedAt p, frame.callIndex = some p := by
    unfold bufferedAt TranslationDispatcher.framesAt
    cases found : d.pending_unnamed.lookup p with
    | none => simp
    | some pending => exact b.own _ (pendingIndex b found)
  have resolved (there : Elsewhere p m m₂) : Resolved p d m₂ :=
    { buffered := there.buffered buffered
      gone := by rw [there.framesAt, gone]
      others := fun q other => by rw [there.framesAt, others q other]
      bytes := by rw [there.bytes, bytes]
      active := fun q other => by rw [there.active q other, active] }
  obtain ⟨here, outcome⟩ := startCall_ok started
  rcases outcome with ⟨executes, rfl, gateway, first⟩ | ⟨client, translator, running, translated⟩
  · obtain ⟨rfl, rfl⟩ := replay_gateway own gateway replayed
    exact ⟨resolved here, .inl ⟨executes, rfl, gateway, first⟩⟩
  · obtain ⟨there, translator', running', run⟩ := replay_client own running replayed
    refine ⟨resolved (here.trans there), .inr ⟨client, translator', running', ?_⟩⟩
    exact transduce_cons_eq_ok.2 ⟨translator, opened, deltas, translated, run, rfl⟩

/-- A call that has a name does not get another. -/
theorem resolvePending_named (active : d.active.lookup p ≠ none)
    (h : d.resolvePending translators context item_id name p call = .ok (d', out)) : d' = d ∧ out = [] := by
  unfold resolvePending at h
  rw [if_pos (Option.isSome_iff_ne_none.2 active)] at h
  obtain ⟨rfl, rfl⟩ := Prod.mk.inj (Except.ok.inj h)
  exact ⟨rfl, rfl⟩

end
end TranslationDispatcher
end AgenticStack
