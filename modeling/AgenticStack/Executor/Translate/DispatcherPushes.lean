import AgenticStack.Executor.Translate.DispatcherRuns

/-!
# The lines of a round

Each upstream line of a round that stands for an event is translated; a line that
stands for nothing leaves the dispatcher as it is, and the frames held back with
it.
-/

namespace AgenticStack
set_option autoImplicit false
open Library

/-- What a line stands for: nothing, or an event, with the call it belongs to as accumulated by then. -/
inductive PushedLine where
  | ignored
  | event (frame : EventFrame) (call : Option AccumulatedFunctionCall)

/-- What a translator is told of an event. -/
def EventFrame.toolEvent (frame : EventFrame) : ToolEvent :=
  match frame.payload with
  | .functionCallArgsDelta _ _ _ _ => .delta frame
  | .functionCallArgsDone _ _ _ _ _ => .argumentsDone frame
  | _ => .done frame

namespace PushedLine

/-- The index of the call a line is about. -/
def callIndex : PushedLine → Option Nat
  | .ignored => none
  | .event frame _ => frame.callIndex

/-- The events of the call at `p`. -/
def eventsOf (p : Nat) (lines : List PushedLine) : List EventFrame :=
  lines.filterMap fun
    | .ignored => none
    | .event frame _ => if frame.callIndex = some p then some frame else none

/-- The events of the call at `p`, each with the call as accumulated by then, as its translator is told them. -/
def toolEventsOf (p : Nat) (lines : List PushedLine) : List (ToolEvent × Option AccumulatedFunctionCall) :=
  lines.filterMap fun
    | .ignored => none
    | .event frame call => if frame.callIndex = some p then some (frame.toolEvent, call) else none

/-- What came of the events of the call at `p`. -/
def shownOf (p : Nat) (lines : List PushedLine) (ts : List Translation) : List EventFrame :=
  (lines.zip ts).flatMap fun (line, t) => if line.callIndex = some p then t.frames else []

section
variable {p : Nat} {line : PushedLine} {lines more : List PushedLine} {t : Translation} {ts rest : List Translation}
  {frame : EventFrame} {call : Option AccumulatedFunctionCall}

/-- The events of another call. -/
theorem eventsOf_other (other : line.callIndex ≠ some p) : eventsOf p (line :: lines) = eventsOf p lines := by
  cases line with
  | ignored => rfl
  | event frame call => exact List.filterMap_cons_none (if_neg other)

/-- The events of the call itself. -/
theorem eventsOf_own (own : frame.callIndex = some p) :
    eventsOf p (.event frame call :: lines) = frame :: eventsOf p lines :=
  List.filterMap_cons_some (if_pos own)

/-- What is told of another call. -/
theorem toolEventsOf_other (other : line.callIndex ≠ some p) : toolEventsOf p (line :: lines) = toolEventsOf p lines := by
  cases line with
  | ignored => rfl
  | event frame call => exact List.filterMap_cons_none (if_neg other)

/-- What is told of the call itself. -/
theorem toolEventsOf_own (own : frame.callIndex = some p) :
    toolEventsOf p (.event frame call :: lines) = (frame.toolEvent, call) :: toolEventsOf p lines :=
  List.filterMap_cons_some (if_pos own)

/-- What is shown of another call. -/
theorem shownOf_other (other : line.callIndex ≠ some p) : shownOf p (line :: lines) (t :: ts) = shownOf p lines ts := by
  simp [shownOf, other]

/-- What is shown of the call itself. -/
theorem shownOf_own (own : line.callIndex = some p) :
    shownOf p (line :: lines) (t :: ts) = t.frames ++ shownOf p lines ts := by
  simp [shownOf, own]

/-- What is shown of two lists of lines is shown of both. -/
theorem shownOf_append (length : ts.length = lines.length) :
    shownOf p (lines ++ more) (ts ++ rest) = shownOf p lines ts ++ shownOf p more rest := by
  unfold shownOf
  rw [List.zip_append length.symm, List.flatMap_append]

/-- Nothing is shown of a call that no line is about. -/
theorem shownOf_none (none : ∀ line ∈ lines, line.callIndex ≠ some p) : shownOf p lines ts = [] := by
  unfold shownOf
  rw [List.flatMap_eq_nil_iff]
  rintro ⟨line, t⟩ mem
  exact if_neg (none line (List.of_mem_zip mem).1)

/-- Nothing is told of a call that no line is about. -/
theorem toolEventsOf_none (none : ∀ line ∈ lines, line.callIndex ≠ some p) : toolEventsOf p lines = [] := by
  induction lines with
  | nil => rfl
  | cons line lines ih =>
    rw [List.forall_mem_cons] at none
    rw [toolEventsOf_other none.1, ih none.2]

end
end PushedLine

namespace TranslationDispatcher
open PushedLine

section
variable {τ σ : Type} (translators : ToolTranslators τ) (context : TranslationContext σ)

/-- `RoundIngestion::push`, of a line that has been processed. -/
def push (d : TranslationDispatcher τ σ) (line : PushedLine) : ExecutorResult (TranslationDispatcher τ σ × Translation) :=
  match line with
  | .ignored => .ok (d, ⟨[], d.deferFromOutputIndex⟩)
  | .event frame call => d.translate translators context frame call

/-- Lines one after another, each with what came of it. -/
def run (d : TranslationDispatcher τ σ) (lines : List PushedLine) :
    ExecutorResult (TranslationDispatcher τ σ × List Translation) :=
  transduce (fun d line => (d.push translators context line).map fun (d, t) => (d, [t])) d lines

end

section
variable {τ σ : Type} {translators : ToolTranslators τ} {context : TranslationContext σ}
  {d m d' : TranslationDispatcher τ σ} {frame : EventFrame} {call : Option AccumulatedFunctionCall} {line : PushedLine}
  {lines more : List PushedLine} {t : Translation} {ts rest : List Translation} {p : Nat}

/-- A run is its first line and the rest. -/
theorem run_cons (h : run translators context d (line :: lines) = .ok (d', ts)) :
    ∃ m t rest, d.push translators context line = .ok (m, t) ∧
      run translators context m lines = .ok (d', rest) ∧ ts = t :: rest := by
  obtain ⟨m, first, rest, now, later, rfl⟩ := transduce_cons_eq_ok.1 h
  obtain ⟨⟨m', t⟩, pushed, same⟩ := map_eq_ok.1 now
  obtain ⟨rfl, rfl⟩ := Prod.mk.inj same
  exact ⟨m', t, rest, pushed, later, rfl⟩

/-- A line and a run of the rest are a run. -/
theorem run_cons_ok (now : d.push translators context line = .ok (m, t))
    (later : run translators context m lines = .ok (d', ts)) :
    run translators context d (line :: lines) = .ok (d', t :: ts) :=
  transduce_cons_eq_ok.2 ⟨m, [t], ts, by rw [now]; rfl, later, rfl⟩

/-- Lines are run one after the other. -/
theorem run_append (h : run translators context d (lines ++ more) = .ok (d', ts)) :
    ∃ m first rest, run translators context d lines = .ok (m, first) ∧
      run translators context m more = .ok (d', rest) ∧ ts = first ++ rest ∧ first.length = lines.length := by
  induction lines generalizing d ts with
  | nil => exact ⟨d, [], ts, rfl, h, rfl, rfl⟩
  | cons line lines ih =>
    obtain ⟨m, t, later, now, tail, rfl⟩ := run_cons h
    obtain ⟨m', first, rest, front, back, rfl, length⟩ := ih tail
    exact ⟨m', t :: first, rest, run_cons_ok now front, back, rfl, by simp [length]⟩

/-- A translation: what is dispatched, restored, under the barrier that then holds. -/
theorem translate_ok (h : d.translate translators context frame call = .ok (d', t)) :
    ∃ m out, Elsewhere p d m ∧ m.active = d.active ∧ m.dispatch translators context frame call = .ok (d', out) ∧
      out.mapM (restore context) = .ok t.frames ∧ t.defer_from_output_index = d'.deferFromOutputIndex := by
  unfold translate at h
  obtain ⟨_, -, h⟩ := bind_eq_ok.1 h
  obtain ⟨tool_search, -, h⟩ := bind_eq_ok.1 h
  obtain ⟨⟨d₁, out⟩, dispatched, h⟩ := bind_eq_ok.1 h
  obtain ⟨frames, restored, h⟩ := bind_eq_ok.1 h
  obtain ⟨rfl, rfl⟩ := Prod.mk.inj (pure_eq_ok.1 h)
  exact ⟨{ d with tool_search, terminal := nextTerminal d.terminal frame.event_type }, out, ⟨rfl, rfl, fun _ _ => rfl⟩, rfl,
    dispatched, restored, rfl⟩

/-- **One line** leaves what is buffered counted, and changes nothing of another call. -/
theorem push_apart (b : Buffered d) (h : d.push translators context line = .ok (d', t)) :
    Buffered d' ∧ t.defer_from_output_index = d'.deferFromOutputIndex ∧ ∀ p, line.callIndex ≠ some p →
      d'.framesAt p = d.framesAt p ∧ d'.active.lookup p = d.active.lookup p := by
  cases line with
  | ignored =>
    obtain ⟨rfl, rfl⟩ := Prod.mk.inj (Except.ok.inj h)
    exact ⟨b, rfl, fun _ _ => ⟨rfl, rfl⟩⟩
  | event frame call =>
    obtain ⟨m, out, same, active, dispatched, -, barrier⟩ := @translate_ok _ _ _ _ _ _ _ _ _ 0 h
    obtain ⟨buffered, others⟩ := dispatch_apart (same.buffered b) dispatched
    refine ⟨buffered, barrier, fun p other => ?_⟩
    obtain ⟨frames, running⟩ := others p other
    exact ⟨frames.trans same.framesAt, by rw [running, active]⟩

/-- **What is buffered is counted in every state of a round.** -/
theorem run_buffered (b : Buffered d) (h : run translators context d lines = .ok (d', ts)) : Buffered d' := by
  induction lines generalizing d ts with
  | nil =>
    obtain ⟨rfl, -⟩ := Prod.mk.inj (Except.ok.inj h)
    exact b
  | cons line lines ih =>
    obtain ⟨m, t, rest, now, later, -⟩ := run_cons h
    exact ih (push_apart b now).1 later

/-- Lines of other calls change nothing of the call at `p`. -/
theorem run_apart (b : Buffered d) (others : ∀ line ∈ lines, line.callIndex ≠ some p)
    (h : run translators context d lines = .ok (d', ts)) :
    d'.framesAt p = d.framesAt p ∧ d'.active.lookup p = d.active.lookup p := by
  induction lines generalizing d ts with
  | nil =>
    obtain ⟨rfl, -⟩ := Prod.mk.inj (Except.ok.inj h)
    exact ⟨rfl, rfl⟩
  | cons line lines ih =>
    rw [List.forall_mem_cons] at others
    obtain ⟨m, t, rest, now, later, -⟩ := run_cons h
    obtain ⟨buffered, -, same⟩ := push_apart b now
    obtain ⟨frames, active⟩ := ih buffered others.2 later
    obtain ⟨frames', active'⟩ := same p others.1
    exact ⟨frames.trans frames', active.trans active'⟩

end
end TranslationDispatcher
end AgenticStack
