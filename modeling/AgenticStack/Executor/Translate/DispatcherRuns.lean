import AgenticStack.Executor.Translate.DispatcherSteps

/-!
# Runs of the dispatcher

A call without a name has its events buffered in order while the events of other
calls come and go; the event that names it is answered with what its translator
makes of all of them.
-/

namespace AgenticStack
set_option autoImplicit false
open Library

/-- The item and the name that an event at the end of a call gives. -/
def EventFrame.naming (frame : EventFrame) : Option (Text × Text) :=
  match frame.payload with
  | .functionCallArgsDone _ _ item_id name _ => some (item_id, name)
  | .outputItemDone item_id .functionCall _ item => some (item_id, ((item.get "name").bind Json.asStr).getD [])
  | _ => none

namespace TranslationDispatcher

section
variable {τ σ : Type} {translators : ToolTranslators τ} {context : TranslationContext σ}
  {d m d' : TranslationDispatcher τ σ} {frame : EventFrame} {call : Option AccumulatedFunctionCall}
  {out : List EventFrame} {p q : Nat} {item_id name : Text}

/-- The index that is found is the index there is. -/
theorem resolvedOutputIndex_ok {index : Option Nat} (h : resolvedOutputIndex index = .ok p) : index = some p := by
  cases index with
  | none => cases h
  | some index =>
    cases h
    rfl

variable (translators context d frame call d' out) in
/-- What an event is to the dispatcher. -/
inductive Step : Prop where
  | other (apart : frame.callIndex = none) (same : d' = d) (through : out = [frame])
  | opened {item_id name : Text} {p : Nat} (index : frame.callIndex = some p)
      (started : d.startCall translators context item_id name p (some frame) call = .ok (d', out))
  | unnamed {item_id : Text} {p : Nat} (index : frame.callIndex = some p)
      (buffered : d.bufferUnnamed item_id p frame call = .ok (d', out))
  | delta {item_id : Text} {p : Nat} (index : frame.callIndex = some p)
      (translated : d.translateDelta translators item_id p frame call = .ok (d', out))
  | argumentsDone {item_id name : Text} {p : Nat} (index : frame.callIndex = some p)
      (finished : d.finishArguments translators context item_id name p frame call = .ok (d', out))
  | done {item_id name : Text} {p : Nat} (index : frame.callIndex = some p)
      (finished : d.finishCall translators context item_id name p frame call = .ok (d', out))

/-- Translating a frame is a step of its call. -/
theorem dispatch_step (h : d.dispatch translators context frame call = .ok (d', out)) :
    Step translators context d d' frame call out := by
  unfold dispatch at h
  split at h
  all_goals first
    | (obtain ⟨p, resolved, h⟩ := bind_eq_ok.1 h
       have resolved := resolvedOutputIndex_ok resolved
       subst resolved
       rename_i payload)
    | skip
  · exact .opened (by simp [EventFrame.callIndex, payload]) h
  · exact .unnamed (by simp [EventFrame.callIndex, payload]) h
  · exact .delta (by simp [EventFrame.callIndex, payload]) h
  · exact .argumentsDone (by simp [EventFrame.callIndex, payload]) h
  · exact .done (by simp [EventFrame.callIndex, payload]) h
  · obtain ⟨rfl, rfl⟩ := Prod.mk.inj (Except.ok.inj h)
    rename_i added unnamed delta argumentsDone done
    refine .other ?_ rfl rfl
    unfold EventFrame.callIndex
    split
    · rename_i item_id index name _ _ _ payload
      cases name with
      | none => exact absurd payload (unnamed _ _ _ _ _)
      | some name => exact absurd payload (added _ _ _ _ _ _)
    · rename_i payload
      exact absurd payload (done _ _ _)
    · rename_i payload
      exact absurd payload (delta _ _ _ _)
    · rename_i payload
      exact absurd payload (argumentsDone _ _ _ _ _)
    · rfl

/-- Nothing is changed but what there is of the call at `q`; what is buffered stays counted. -/
structure Apart (q : Nat) (d d' : TranslationDispatcher τ σ) : Prop where
  buffered : Buffered d → Buffered d'
  frames : Buffered d → ∀ p ≠ q, d'.framesAt p = d.framesAt p
  active : Buffered d → ∀ p ≠ q, d'.active.lookup p = d.active.lookup p

/-- What changes one call leaves the others as they are. -/
theorem Elsewhere.apart (h : Elsewhere q d d') : Apart q d d' :=
  ⟨h.buffered, fun _ _ _ => h.framesAt, fun _ => h.active⟩

/-- What leaves the others as they are leaves them so. -/
theorem Apart.trans (first : Apart q d m) (rest : Apart q m d') : Apart q d d' where
  buffered b := rest.buffered (first.buffered b)
  frames b p other := (rest.frames (first.buffered b) p other).trans (first.frames b p other)
  active b p other := (rest.active (first.buffered b) p other).trans (first.active b p other)

/-- Holding back a frame leaves the other calls as they are. -/
theorem bufferUnnamed_apart (index : frame.callIndex = some q)
    (h : d.bufferUnnamed item_id q frame call = .ok (d', out)) : Apart q d d' := by
  obtain ⟨-, active, -, others, buffered⟩ := bufferUnnamed_ok h
  exact ⟨fun b => buffered b index, fun _ => others, fun _ p _ => by rw [active]⟩

/-- A delta leaves the other calls as they are. -/
theorem translateDelta_apart (index : frame.callIndex = some q)
    (h : d.translateDelta translators item_id q frame call = .ok (d', out)) : Apart q d d' := by
  cases active : d.active.lookup q with
  | none =>
    unfold translateDelta at h
    rw [active] at h
    exact bufferUnnamed_apart index h
  | some running =>
    cases running with
    | client translator => exact (translateDelta_client active h).1.apart
    | gateway =>
      rw [(translateDelta_gateway active h).1]
      exact Elsewhere.refl.apart

/-- A name leaves the other calls as they are. -/
theorem resolvePending_apart (h : d.resolvePending translators context item_id name q call = .ok (d', out)) :
    Apart q d d' := by
  by_cases unnamed : d.active.lookup q = none
  · have resolved := fun b => (resolvePending_ok b unnamed h).1
    exact ⟨fun b => (resolved b).buffered, fun b => (resolved b).others, fun b => (resolved b).active⟩
  · rw [(resolvePending_named unnamed h).1]
    exact Elsewhere.refl.apart

/-- What the end of a call comes to, once its name is resolved: the translator is told, the gateway's call is not shown. -/
theorem finishArguments_split (h : d.finishArguments translators context item_id name p frame call = .ok (d', out)) :
    ∃ m resolved rest, d.resolvePending translators context item_id name p call = .ok (m, resolved) ∧
      out = resolved ++ rest ∧ Elsewhere p m d' ∧
      (m.active.lookup p = some .gateway → rest = [] ∧ d' = m) ∧
      ∀ translator, m.active.lookup p = some (.client translator) →
        ∃ translator', translators.translate translator (.argumentsDone frame) call = .ok (translator', rest) ∧
          d'.active.lookup p = some (.client translator') := by
  unfold finishArguments at h
  obtain ⟨⟨m, resolved⟩, resolving, h⟩ := bind_eq_ok.1 h
  dsimp only at h
  refine ⟨m, resolved, ?_⟩
  split at h
  · rename_i translator active
    obtain ⟨⟨translator', frames⟩, translated, h⟩ := bind_eq_ok.1 h
    obtain ⟨rfl, rfl⟩ := Prod.mk.inj (pure_eq_ok.1 h)
    refine ⟨frames, resolving, rfl, ⟨rfl, rfl, fun q other => lookup_insertEntry_ne other⟩, ?_, ?_⟩
    · intro gateway
      rw [active] at gateway
      cases gateway
    · intro other same
      rw [active] at same
      cases same
      exact ⟨translator', translated, lookup_insertEntry_self⟩
  · rename_i active
    obtain ⟨rfl, rfl⟩ := Prod.mk.inj (pure_eq_ok.1 h)
    refine ⟨[], resolving, (List.append_nil _).symm, Elsewhere.refl, fun _ => ⟨rfl, rfl⟩, ?_⟩
    intro other same
    rw [active] at same
    cases same
  · rename_i active
    obtain ⟨rfl, rfl⟩ := Prod.mk.inj (pure_eq_ok.1 h)
    refine ⟨[frame], resolving, rfl, Elsewhere.refl, ?_, ?_⟩
    · intro gateway
      rw [active] at gateway
      cases gateway
    · intro other same
      rw [active] at same
      cases same

/-- The end of a call names it, where it has no name, and ends it. -/
theorem finishCall_split (h : d.finishCall translators context item_id name p frame call = .ok (d', out)) :
    ∃ m resolved rest, d.resolvePending translators context item_id name p call = .ok (m, resolved) ∧
      out = resolved ++ rest ∧ Elsewhere p m d' ∧ d'.first_gateway_output_index = m.first_gateway_output_index ∧
      (m.active.lookup p = some .gateway → rest = []) ∧
      ∀ translator, m.active.lookup p = some (.client translator) →
        ∃ translator', translators.translate translator (.done frame) call = .ok (translator', rest) ∧
          d'.active.lookup p =
            if (translators.unfinishedToolSearchItemId translator').isSome then some (.client translator') else none := by
  unfold finishCall at h
  obtain ⟨⟨m, resolved⟩, resolving, h⟩ := bind_eq_ok.1 h
  dsimp only at h
  have removed : Elsewhere p m { m with active := m.active.filter fun entry => entry.1 != p } :=
    ⟨rfl, rfl, fun q other => @lookup_filter_keys _ _ _ _ m.active q (· != p) (by simpa using other)⟩
  refine ⟨m, resolved, ?_⟩
  split at h
  · rename_i translator active
    obtain ⟨⟨translator', frames⟩, translated, h⟩ := bind_eq_ok.1 h
    obtain ⟨rfl, rfl⟩ := Prod.mk.inj (pure_eq_ok.1 h)
    refine ⟨frames, resolving, rfl, ?_, ?_, ?_, ?_⟩
    · split
      · exact removed.trans ⟨rfl, rfl, fun q other => lookup_insertEntry_ne other⟩
      · exact removed
    · split <;> rfl
    · intro gateway
      rw [active] at gateway
      cases gateway
    · intro other same
      rw [active] at same
      cases same
      refine ⟨translator', translated, ?_⟩
      split
      · exact lookup_insertEntry_self
      · exact lookup_filter_self
  · rename_i active
    obtain ⟨rfl, rfl⟩ := Prod.mk.inj (pure_eq_ok.1 h)
    refine ⟨[], resolving, (List.append_nil _).symm, removed, rfl, fun _ => rfl, ?_⟩
    intro other same
    rw [active] at same
    cases same
  · rename_i active
    obtain ⟨rfl, rfl⟩ := Prod.mk.inj (pure_eq_ok.1 h)
    refine ⟨[frame], resolving, rfl, removed, rfl, ?_, ?_⟩
    · intro gateway
      rw [active] at gateway
      cases gateway
    · intro other same
      rw [active] at same
      cases same

/-- **One event** leaves what is buffered counted, and changes nothing of another call. -/
theorem dispatch_apart (b : Buffered d) (h : d.dispatch translators context frame call = .ok (d', out)) :
    Buffered d' ∧ ∀ p, frame.callIndex ≠ some p →
      d'.framesAt p = d.framesAt p ∧ d'.active.lookup p = d.active.lookup p := by
  have known {q : Nat} (index : frame.callIndex = some q) (apart : Apart q d d') : Buffered d' ∧
      ∀ p, frame.callIndex ≠ some p → d'.framesAt p = d.framesAt p ∧ d'.active.lookup p = d.active.lookup p := by
    refine ⟨apart.buffered b, ?_⟩
    intro p other
    have differ : p ≠ q := by
      rintro rfl
      exact other index
    exact ⟨apart.frames b p differ, apart.active b p differ⟩
  cases dispatch_step h with
  | other none same through =>
    rw [same]
    exact ⟨b, fun _ _ => ⟨rfl, rfl⟩⟩
  | opened index started => exact known index (startCall_ok started).1.apart
  | unnamed index buffered => exact known index (bufferUnnamed_apart index buffered)
  | delta index translated => exact known index (translateDelta_apart index translated)
  | argumentsDone index finished =>
    obtain ⟨m, resolved, rest, resolving, -, there, -⟩ := finishArguments_split finished
    exact known index ((resolvePending_apart resolving).trans there.apart)
  | done index finished =>
    obtain ⟨m, resolved, rest, resolving, -, there, -⟩ := finishCall_split finished
    exact known index ((resolvePending_apart resolving).trans there.apart)

end
end TranslationDispatcher
end AgenticStack
