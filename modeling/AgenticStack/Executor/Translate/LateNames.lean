import AgenticStack.Executor.Translate.RunningCalls

/-!
# Calls that get their name late

A call that is opened without a name is shown when an event names it: what its
translator makes of the opening event, of every delta and of the event that
names it, all read against the call as it is by then. Until then nothing at or
after its index goes out.
-/

namespace AgenticStack
set_option autoImplicit false
open Library

/-- Opens the function call at `p` without a name. -/
def EventFrame.opensUnnamed (frame : EventFrame) (p : Nat) : Bool :=
  match frame.payload with
  | .outputItemAdded _ .functionCall output_index none _ _ _ => output_index = some p
  | _ => false

/-- Nothing but deltas of the call at `p`. -/
def PushedLine.Between (p : Nat) : PushedLine → Prop
  | .ignored => True
  | .event frame _ => frame.callIndex = some p → frame.isArgumentsDelta = true

namespace TranslationDispatcher
open PushedLine

section
variable {τ σ : Type} {translators : ToolTranslators τ} {context : TranslationContext σ}
  {d m d' : TranslationDispatcher τ σ} {frame : EventFrame} {call : Option AccumulatedFunctionCall} {line : PushedLine}
  {lines : List PushedLine} {t : Translation} {ts : List Translation} {out frames : List EventFrame} {p : Nat}
  {item_id name : Text}

/-- The call at `p` has no name yet, and `frames` are buffered of it. -/
structure Unnamed (p : Nat) (frames : List EventFrame) (d : TranslationDispatcher τ σ) : Prop where
  buffered : Buffered d
  active : d.active.lookup p = none
  frames : d.framesAt p = some frames

/-- Frames are held back from the index of a call without a name, if not from an earlier one. -/
theorem Unnamed.barrier (h : Unnamed p frames d) : ∃ first, d.deferFromOutputIndex = some first ∧ first ≤ p := by
  have frames := h.frames
  unfold TranslationDispatcher.framesAt at frames
  obtain ⟨pending, found, -⟩ := Option.map_eq_some_iff.1 frames
  have mem := pendingIndex h.buffered found
  have among : p ∈ d.first_gateway_output_index.toList ++ d.pending_unnamed.map fun entry => entry.2.output_index := by
    refine List.mem_append_right _ (List.mem_map.2 ⟨_, mem, ?_⟩)
    exact h.buffered.index _ mem
  unfold deferFromOutputIndex
  cases least : (d.first_gateway_output_index.toList ++ d.pending_unnamed.map fun entry => entry.2.output_index).min? with
  | none =>
    rw [List.min?_eq_none_iff.1 least] at among
    cases among
  | some first => exact ⟨first, rfl, (List.min?_eq_some_iff.1 least).2 p among⟩

/-- The opening of a call without a name holds its frame back. -/
theorem opensUnnamed_dispatch (opens : frame.opensUnnamed p = true) :
    frame.callIndex = some p ∧ frame.isFunctionAdded = true ∧
      ∃ item_id, d.dispatch translators context frame call = d.bufferUnnamed item_id p frame call := by
  unfold EventFrame.opensUnnamed at opens
  split at opens
  · rename_i item_id index _ _ _ payload
    have index : index = some p := of_decide_eq_true opens
    subst index
    refine ⟨by rw [EventFrame.callIndex, payload], by rw [EventFrame.isFunctionAdded, payload], item_id, ?_⟩
    rw [TranslationDispatcher.dispatch, payload]
    rfl
  · cases opens

/-- A delta goes to the call of its index. -/
theorem delta_dispatch (delta : frame.isArgumentsDelta = true) (index : frame.callIndex = some p) :
    ∃ item_id, d.dispatch translators context frame call = d.translateDelta translators item_id p frame call := by
  unfold EventFrame.isArgumentsDelta at delta
  split at delta
  · rename_i item_id output_index payload
    rw [EventFrame.callIndex, payload] at index
    have index : output_index = some p := index
    subst index
    refine ⟨item_id, ?_⟩
    rw [TranslationDispatcher.dispatch, payload]
    rfl
  · cases delta

/-- Opening a call without a name buffers the event. -/
theorem push_unnamed (b : Buffered d) (idle : d.active.lookup p = none) (fresh : d.framesAt p = none)
    (opens : frame.opensUnnamed p = true) (h : d.push translators context (.event frame call) = .ok (d', t)) :
    Unnamed p [frame] d' ∧ t.frames = [] := by
  obtain ⟨m, out, same, active, dispatched, restored, -⟩ := @translate_ok _ _ _ _ _ _ _ _ _ p h
  obtain ⟨index, -, item_id, dispatch⟩ := @opensUnnamed_dispatch _ _ translators context m _ call _ opens
  rw [dispatch] at dispatched
  obtain ⟨rfl, running, frames, -, buffered⟩ := bufferUnnamed_ok dispatched
  refine ⟨⟨buffered (same.buffered b) index, by rw [running, active, idle], ?_⟩, (pure_eq_ok.1 restored).symm⟩
  rw [frames, same.framesAt, fresh]
  rfl

/-- A line while the name is missing. -/
theorem Unnamed.push (h : Unnamed p frames d) (between : line.Between p)
    (pushed : d.push translators context line = .ok (d', t)) :
    Unnamed p (frames ++ eventsOf p [line]) d' ∧ (line.callIndex = some p → t.frames = []) := by
  by_cases index : line.callIndex = some p
  · cases line with
    | ignored => cases index
    | event frame call =>
      obtain ⟨m, out, same, active, dispatched, restored, -⟩ := @translate_ok _ _ _ _ _ _ _ _ _ p pushed
      have idle : m.active.lookup p = none := by rw [active, h.active]
      obtain ⟨item_id, dispatch⟩ := @delta_dispatch _ _ translators context m _ call _ (between index) index
      rw [dispatch, translateDelta, idle] at dispatched
      obtain ⟨rfl, running, buffered_frames, -, buffered⟩ := bufferUnnamed_ok dispatched
      rw [eventsOf_own index]
      refine ⟨⟨buffered (same.buffered h.buffered) index, by rw [running, idle], ?_⟩, fun _ => (pure_eq_ok.1 restored).symm⟩
      rw [buffered_frames, same.framesAt, h.frames]
      rfl
  · obtain ⟨buffered, -, others⟩ := push_apart h.buffered pushed
    obtain ⟨same, running⟩ := others p index
    rw [eventsOf_other index, eventsOf, List.filterMap_nil, List.append_nil]
    exact ⟨⟨buffered, by rw [running, h.active], by rw [same, h.frames]⟩, fun there => absurd there index⟩

/-- **While the name is missing** the deltas are buffered in order, nothing comes of them, and frames are held back from
the index of the call. -/
theorem Unnamed.run (h : Unnamed p frames d) (between : ∀ line ∈ lines, line.Between p)
    (ran : TranslationDispatcher.run translators context d lines = .ok (d', ts)) :
    Unnamed p (frames ++ eventsOf p lines) d' ∧ shownOf p lines ts = [] ∧
      ∀ t ∈ ts, ∃ first, t.defer_from_output_index = some first ∧ first ≤ p := by
  induction lines generalizing d ts frames with
  | nil =>
    obtain ⟨rfl, rfl⟩ := Prod.mk.inj (Except.ok.inj ran)
    exact ⟨by simpa [eventsOf] using h, rfl, by simp⟩
  | cons line lines ih =>
    rw [List.forall_mem_cons] at between
    obtain ⟨m, t, rest, now, later, rfl⟩ := run_cons ran
    obtain ⟨next, nothing⟩ := h.push between.1 now
    obtain ⟨-, barrier, -⟩ := push_apart h.buffered now
    obtain ⟨last, none, barriers⟩ := ih next between.2 later
    refine ⟨?_, ?_, ?_⟩
    · have shape : eventsOf p (line :: lines) = eventsOf p [line] ++ eventsOf p lines := List.filterMap_append (l := [line])
      rw [shape, ← List.append_assoc]
      exact last
    · by_cases index : line.callIndex = some p
      · rw [shownOf_own index, nothing index, none]
        rfl
      · rw [shownOf_other index, none]
    · rw [List.forall_mem_cons]
      obtain ⟨first, least, below⟩ := next.barrier
      exact ⟨⟨first, by rw [barrier, least], below⟩, barriers⟩

/-- A call that has a name is not named again. -/
theorem resolvePending_of_named (named : d.active.lookup p ≠ none) :
    d.resolvePending translators context item_id name p call = .ok (d, []) := by
  rw [resolvePending, if_pos (Option.isSome_iff_ne_none.2 named)]

/-- The end of the arguments of a call that has just been named. -/
theorem finishArguments_resolved (resolving : d.resolvePending translators context item_id name p call = .ok (m, frames))
    (named : m.active.lookup p ≠ none) : d.finishArguments translators context item_id name p frame call =
      (m.finishArguments translators context item_id name p frame call).map fun (d', out) => (d', frames ++ out) := by
  rw [finishArguments, finishArguments, resolving, resolvePending_of_named named]
  show Except.bind (.ok (m, frames)) _ = Except.map _ (Except.bind (.ok (m, [])) _)
  unfold Except.bind
  dsimp only
  cases active : m.active.lookup p with
  | none => exact absurd active named
  | some running =>
    cases running with
    | gateway => simp [Except.map, pure, Except.pure]
    | client translator =>
      dsimp only
      cases translators.translate translator (.argumentsDone frame) call with
      | error e => rfl
      | ok next => rfl

/-- The end of a call that has just been named. -/
theorem finishCall_resolved (resolving : d.resolvePending translators context item_id name p call = .ok (m, frames))
    (named : m.active.lookup p ≠ none) : d.finishCall translators context item_id name p frame call =
      (m.finishCall translators context item_id name p frame call).map fun (d', out) => (d', frames ++ out) := by
  rw [finishCall, finishCall, resolving, resolvePending_of_named named]
  show Except.bind (.ok (m, frames)) _ = Except.map _ (Except.bind (.ok (m, [])) _)
  unfold Except.bind
  dsimp only
  cases active : m.active.lookup p with
  | none => exact absurd active named
  | some running =>
    cases running with
    | gateway => simp [Except.map, pure, Except.pure]
    | client translator =>
      dsimp only
      cases translators.translate translator (.done frame) call with
      | error e => rfl
      | ok next => rfl

/-- An event that gives a name: the name is resolved, and then it is an event of a call that has its name. -/
theorem dispatch_naming (b : Buffered d) (idle : d.active.lookup p = none) (names : frame.naming = some (item_id, name))
    (later : Later translators context frame call p) (h : d.dispatch translators context frame call = .ok (d', out)) :
    ∃ m resolved rest, Resolved p d m ∧ Elsewhere p m d' ∧ out = resolved ++ rest ∧
      Started translators context name p (replayedEvents item_id name p call (d.bufferedAt p)) resolved m ∧
      m.dispatch translators context frame call = .ok (d', rest) := by
  have resolves {m : TranslationDispatcher τ σ} {resolved : List EventFrame}
      (resolving : d.resolvePending translators context item_id name p call = .ok (m, resolved)) :
      Resolved p d m ∧ m.active.lookup p ≠ none ∧
        Started translators context name p (replayedEvents item_id name p call (d.bufferedAt p)) resolved m := by
    obtain ⟨left, outcome⟩ := resolvePending_ok b idle resolving
    rcases outcome with ⟨executes, none, active, -⟩ | ⟨client, translator, active, ran⟩
    · exact ⟨left, by rw [active]; exact Option.some_ne_none _, ⟨.inl ⟨executes, none, active⟩⟩⟩
    · exact ⟨left, by rw [active]; exact Option.some_ne_none _, ⟨.inr ⟨client, translator, active, ran⟩⟩⟩
  cases later with
  | delta event unfinished nameless dispatch =>
    rw [nameless] at names
    cases names
  | argumentsDone event unfinished names' dispatch =>
    rw [names] at names'
    obtain ⟨rfl, rfl⟩ := Prod.mk.inj (Option.some.inj names')
    rw [dispatch] at h
    obtain ⟨m, resolved, -, resolving, -, there, -⟩ := finishArguments_split h
    obtain ⟨left, named, started⟩ := resolves resolving
    rw [finishArguments_resolved resolving named] at h
    obtain ⟨⟨d₁, rest⟩, finished, same⟩ := map_eq_ok.1 h
    obtain ⟨rfl, rfl⟩ := Prod.mk.inj same
    exact ⟨m, resolved, rest, left, there, rfl, started, by rw [dispatch, finished]⟩
  | done event finished names' dispatch =>
    rw [names] at names'
    obtain ⟨rfl, rfl⟩ := Prod.mk.inj (Option.some.inj names')
    rw [dispatch] at h
    obtain ⟨m, resolved, -, resolving, -, there, -⟩ := finishCall_split h
    obtain ⟨left, named, started⟩ := resolves resolving
    rw [finishCall_resolved resolving named] at h
    obtain ⟨⟨d₁, rest⟩, finished, same⟩ := map_eq_ok.1 h
    obtain ⟨rfl, rfl⟩ := Prod.mk.inj same
    exact ⟨m, resolved, rest, left, there, rfl, started, by rw [dispatch, finished]⟩

/-- **The event that names a call** is answered with what the call's translator makes of all that was buffered, and of the
event; its bytes are given back. -/
theorem Unnamed.named (h : Unnamed p frames d) (names : frame.naming = some (item_id, name)) (index : frame.callIndex = some p)
    (on : frame.isFunctionAdded = false) (pushed : d.push translators context (.event frame call) = .ok (d', t)) :
    Buffered d' ∧ d'.framesAt p = none ∧ d.pending_bytes = d'.pending_bytes + (frames.map EventFrame.bytes).sum ∧
      ∃ running, (frame.isFunctionDone = false → d'.active.lookup p = some running) ∧
        ∀ lines shown, Shows translators context running (toolEventsOf p lines) shown →
          ShowsCall translators context name
            (replayedEvents item_id name p call frames ++ toolEventsOf p (.event frame call :: lines)) (t.frames ++ shown) := by
  obtain ⟨m, out, same, active, dispatched, restored, -⟩ := @translate_ok _ _ _ _ _ _ _ _ _ p pushed
  have idle : m.active.lookup p = none := by rw [active, h.active]
  have later := @later_of_index _ _ translators context _ call _ index on
  obtain ⟨m₁, resolved, rest, left, there, rfl, started, again⟩ :=
    dispatch_naming (same.buffered h.buffered) idle names later dispatched
  have buffered : m.bufferedAt p = frames := by
    rw [bufferedAt, same.framesAt, h.frames]
    rfl
  rw [buffered] at started
  refine ⟨there.buffered left.buffered, by rw [there.framesAt, left.gone], ?_, ?_⟩
  · have bytes := left.bytes
    rw [buffered, same.bytes] at bytes
    rw [bytes, there.bytes]
  · obtain ⟨first, second, restored₁, restored₂, both⟩ := mapM_append_eq_ok.1 restored
    obtain ⟨running₁, active₁, starts⟩ := started.shows restored₁
    obtain ⟨running, stays, goes⟩ := @dispatch_running _ _ _ _ _ _ _ _ ⟨second, none⟩ _ _ _ active₁ later again restored₂
    refine ⟨running, stays, ?_⟩
    intro lines shown more
    rw [toolEventsOf_own index, both, List.append_assoc]
    exact starts _ _ (goes _ _ more)

end
end TranslationDispatcher
end AgenticStack
