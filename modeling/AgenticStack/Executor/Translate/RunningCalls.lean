import AgenticStack.Executor.Translate.DispatcherPushes

/-!
# Calls that run

A call that has its name shows what its translator makes of its events, one after
another, until it is done; the gateway's own calls show nothing.
-/

namespace AgenticStack
set_option autoImplicit false
open Library

/-- The event that ends a function call. -/
def EventFrame.isFunctionDone (frame : EventFrame) : Bool :=
  match frame.payload with
  | .outputItemDone _ .functionCall _ _ => true
  | _ => false

/-- Opens the function call at `p` as the call `item_id` of the tool `name`. -/
def EventFrame.opensNamed (frame : EventFrame) (p : Nat) (item_id name : Text) : Bool :=
  match frame.payload with
  | .outputItemAdded item_id' .functionCall output_index (some name') _ _ _ =>
    output_index = some p && item_id' = item_id && name' = name
  | _ => false

namespace PushedLine

/-- The call at `p` goes on: the line is of another call, or does not open it. -/
def GoesOn (p : Nat) : PushedLine → Prop
  | .ignored => True
  | .event frame _ => frame.callIndex = some p → frame.isFunctionAdded = false

/-- Whether the line ends its call. -/
def isDone : PushedLine → Bool
  | .ignored => false
  | .event frame _ => frame.isFunctionDone

/-- Nothing of the call at `p` comes after its end. -/
def Ends (p : Nat) (lines : List PushedLine) : Prop :=
  lines.Pairwise fun line later => line.isDone = true → line.callIndex = some p → later.callIndex ≠ some p

end PushedLine

namespace TranslationDispatcher
open PushedLine

section
variable {τ σ : Type} {translators : ToolTranslators τ} {context : TranslationContext σ}
  {d m d' : TranslationDispatcher τ σ} {frame : EventFrame} {call : Option AccumulatedFunctionCall} {line : PushedLine}
  {lines : List PushedLine} {t : Translation} {ts : List Translation} {out more shown : List EventFrame} {p : Nat}
  {item_id name : Text} {translator : τ} {running : ActiveCall τ}
  {events rest : List (ToolEvent × Option AccumulatedFunctionCall)}

variable (translators context p frame call) in
/-- What an event of the call at `p` that does not open it is to the dispatcher. -/
inductive Later : Prop where
  | delta {item_id : Text} (event : frame.toolEvent = .delta frame) (unfinished : frame.isFunctionDone = false)
      (nameless : frame.naming = none) (dispatch : ∀ d : TranslationDispatcher τ σ,
        d.dispatch translators context frame call = d.translateDelta translators item_id p frame call)
  | argumentsDone {item_id name : Text} (event : frame.toolEvent = .argumentsDone frame)
      (unfinished : frame.isFunctionDone = false) (names : frame.naming = some (item_id, name))
      (dispatch : ∀ d : TranslationDispatcher τ σ,
        d.dispatch translators context frame call = d.finishArguments translators context item_id name p frame call)
  | done {item_id name : Text} (event : frame.toolEvent = .done frame) (finished : frame.isFunctionDone = true)
      (names : frame.naming = some (item_id, name))
      (dispatch : ∀ d : TranslationDispatcher τ σ,
        d.dispatch translators context frame call = d.finishCall translators context item_id name p frame call)

/-- An event of the call that does not open it is a later one. -/
theorem later_of_index (index : frame.callIndex = some p) (later : frame.isFunctionAdded = false) :
    Later translators context frame call p := by
  unfold EventFrame.callIndex at index
  split at index
  · rename_i payload
    rw [EventFrame.isFunctionAdded, payload] at later
    cases later
  · rename_i item_id _ item payload
    subst index
    have names : frame.naming = some (item_id, ((item.get "name").bind Json.asStr).getD []) := by
      rw [EventFrame.naming, payload]
    refine .done ?_ ?_ names ?_
    · rw [EventFrame.toolEvent, payload]
    · rw [EventFrame.isFunctionDone, payload]
    · intro d
      rw [TranslationDispatcher.dispatch, payload]
      rfl
  · rename_i item_id _ payload
    subst index
    have dispatch (d : TranslationDispatcher τ σ) :
        d.dispatch translators context frame call = d.translateDelta translators item_id p frame call := by
      rw [TranslationDispatcher.dispatch, payload]
      rfl
    refine .delta ?_ ?_ ?_ dispatch
    · rw [EventFrame.toolEvent, payload]
    · rw [EventFrame.isFunctionDone, payload]
    · rw [EventFrame.naming, payload]
  · rename_i item_id name _ payload
    subst index
    have names : frame.naming = some (item_id, name) := by rw [EventFrame.naming, payload]
    refine .argumentsDone ?_ ?_ names ?_
    · rw [EventFrame.toolEvent, payload]
    · rw [EventFrame.isFunctionDone, payload]
    · intro d
      rw [TranslationDispatcher.dispatch, payload]
      rfl
  · cases index

/-- What comes of the events of a call that runs: nothing of a gateway's call, and of a client's what its translator makes
of them, restored. -/
def Shows (translators : ToolTranslators τ) (context : TranslationContext σ) (running : ActiveCall τ)
    (events : List (ToolEvent × Option AccumulatedFunctionCall)) (shown : List EventFrame) : Prop :=
  match running with
  | .gateway => shown = []
  | .client translator => ∃ translator' frames, callRun translators translator events = .ok (translator', frames) ∧
      frames.mapM (restore context) = .ok shown

/-- Nothing is shown of no events. -/
theorem shows_nil : Shows translators context running [] [] := by
  cases running with
  | gateway => rfl
  | client translator => exact ⟨translator, [], rfl, rfl⟩

/-- The events of a call are translated one after the other. -/
theorem callRun_append {translator' translator'' : τ}
    (first : callRun translators translator events = .ok (translator', out))
    (later : callRun translators translator' rest = .ok (translator'', more)) :
    callRun translators translator (events ++ rest) = .ok (translator'', out ++ more) := by
  unfold callRun at first later ⊢
  rw [transduce_append_ok first, later]
  rfl

/-- The translator goes on from what it has made so far. -/
theorem Shows.client {translator' : τ} {restored : List EventFrame}
    (first : callRun translators translator events = .ok (translator', out)) (frames : out.mapM (restore context) = .ok restored)
    (later : Shows translators context (.client translator') rest shown) :
    Shows translators context (.client translator) (events ++ rest) (restored ++ shown) := by
  obtain ⟨last, more, ran, others⟩ := later
  exact ⟨last, out ++ more, callRun_append first ran, mapM_append_eq_ok.2 ⟨restored, shown, frames, others, rfl⟩⟩

/-- **An event of a call that runs**, and what comes of the call from then on. -/
theorem dispatch_running (active : d.active.lookup p = some running) (later : Later translators context frame call p)
    (h : d.dispatch translators context frame call = .ok (d', out)) (restored : out.mapM (restore context) = .ok t.frames) :
    ∃ running', (frame.isFunctionDone = false → d'.active.lookup p = some running') ∧
      ∀ events shown, Shows translators context running' events shown →
        Shows translators context running ((frame.toolEvent, call) :: events) (t.frames ++ shown) := by
  have named : d.active.lookup p ≠ none := by rw [active]; exact Option.some_ne_none _
  cases running with
  | gateway =>
    have silent (none : out = []) (stays : frame.isFunctionDone = false → d'.active.lookup p = some .gateway) :
        ∃ running', (frame.isFunctionDone = false → d'.active.lookup p = some running') ∧
          ∀ events shown, Shows translators context running' events shown →
            Shows translators context .gateway ((frame.toolEvent, call) :: events) (t.frames ++ shown) := by
      refine ⟨.gateway, stays, ?_⟩
      intro events shown nothing
      rw [none] at restored
      show t.frames ++ shown = []
      rw [← pure_eq_ok.1 restored, nothing]
      rfl
    cases later with
    | delta event unfinished nameless dispatch =>
      rw [dispatch] at h
      obtain ⟨rfl, rfl⟩ := translateDelta_gateway active h
      exact silent rfl fun _ => active
    | argumentsDone event unfinished names dispatch =>
      rw [dispatch] at h
      obtain ⟨m, resolved, rest, resolving, rfl, -, gateway, -⟩ := finishArguments_split h
      obtain ⟨rfl, rfl⟩ := resolvePending_named named resolving
      obtain ⟨rfl, rfl⟩ := gateway active
      exact silent rfl fun _ => active
    | done event finished names dispatch =>
      rw [dispatch] at h
      obtain ⟨m, resolved, rest, resolving, rfl, -, -, gateway, -⟩ := finishCall_split h
      obtain ⟨rfl, rfl⟩ := resolvePending_named named resolving
      exact silent (gateway active) fun unfinished => absurd finished (by rw [unfinished]; exact Bool.false_ne_true)
  | client translator =>
    have told {translator' : τ} (translated : translators.translate translator frame.toolEvent call = .ok (translator', out))
        (stays : frame.isFunctionDone = false → d'.active.lookup p = some (.client translator')) :
        ∃ running', (frame.isFunctionDone = false → d'.active.lookup p = some running') ∧
          ∀ events shown, Shows translators context running' events shown →
            Shows translators context (.client translator) ((frame.toolEvent, call) :: events) (t.frames ++ shown) := by
      refine ⟨.client translator', stays, ?_⟩
      intro events shown later
      have one : callRun translators translator [(frame.toolEvent, call)] = .ok (translator', out) :=
        transduce_cons_eq_ok.2 ⟨translator', out, [], translated, rfl, (List.append_nil _).symm⟩
      exact Shows.client one restored later
    cases later with
    | delta event unfinished nameless dispatch =>
      rw [dispatch] at h
      obtain ⟨-, translator', stays, translated⟩ := translateDelta_client active h
      rw [← event] at translated
      exact told translated fun _ => stays
    | argumentsDone event unfinished names dispatch =>
      rw [dispatch] at h
      obtain ⟨m, resolved, rest, resolving, rfl, -, -, client⟩ := finishArguments_split h
      obtain ⟨rfl, rfl⟩ := resolvePending_named named resolving
      obtain ⟨translator', translated, stays⟩ := client translator active
      rw [← event] at translated
      exact told translated fun _ => stays
    | done event finished names dispatch =>
      rw [dispatch] at h
      obtain ⟨m, resolved, rest, resolving, rfl, -, -, -, client⟩ := finishCall_split h
      obtain ⟨rfl, rfl⟩ := resolvePending_named named resolving
      obtain ⟨translator', translated, -⟩ := client translator active
      rw [← event] at translated
      exact told translated fun unfinished => absurd finished (by rw [unfinished]; exact Bool.false_ne_true)

/-- An event of a running call is translated by what runs it. -/
theorem push_running {p : Nat} (active : d.active.lookup p = some running) (index : line.callIndex = some p)
    (on : line.GoesOn p) (h : d.push translators context line = .ok (d', t)) :
    ∃ running', (line.isDone = false → d'.active.lookup p = some running') ∧
      ∀ lines shown, Shows translators context running' (toolEventsOf p lines) shown →
        Shows translators context running (toolEventsOf p (line :: lines)) (t.frames ++ shown) := by
  cases line with
  | ignored => cases index
  | event frame call =>
    obtain ⟨m, out, -, same, dispatched, restored, -⟩ := @translate_ok _ _ _ _ _ _ _ _ _ p h
    rw [← same] at active
    obtain ⟨running', stays, goes⟩ := dispatch_running active (later_of_index index (on index)) dispatched restored
    refine ⟨running', stays, ?_⟩
    intro lines shown later
    rw [toolEventsOf_own index]
    exact goes _ _ later

/-- **A call that runs** shows what its translator makes of its events, whatever comes between them. -/
theorem run_running (b : Buffered d) (active : d.active.lookup p = some running) (on : ∀ line ∈ lines, line.GoesOn p)
    (ends : Ends p lines) (h : run translators context d lines = .ok (d', ts)) :
    Shows translators context running (toolEventsOf p lines) (shownOf p lines ts) := by
  induction lines generalizing d ts running with
  | nil => exact shows_nil
  | cons line lines ih =>
    rw [List.forall_mem_cons] at on
    obtain ⟨last, ends⟩ := List.pairwise_cons.1 ends
    obtain ⟨m, t, rest, now, later, rfl⟩ := run_cons h
    obtain ⟨buffered, -, others⟩ := push_apart b now
    by_cases index : line.callIndex = some p
    · obtain ⟨running', stays, goes⟩ := push_running active index on.1 now
      rw [shownOf_own index]
      refine goes lines _ ?_
      cases done : line.isDone with
      | false => exact ih buffered (stays done) on.2 ends later
      | true =>
        have none : ∀ line ∈ lines, line.callIndex ≠ some p := fun line mem => last line mem done index
        rw [toolEventsOf_none none, shownOf_none none]
        exact shows_nil
    · rw [toolEventsOf_other index, shownOf_other index]
      exact ih buffered (by rw [(others p index).2, active]) on.2 ends later

/-- What comes of a call of the tool `name`, whose new translator is given these events. -/
def ShowsCall (translators : ToolTranslators τ) (context : TranslationContext σ) (name : Text)
    (events : List (ToolEvent × Option AccumulatedFunctionCall)) (shown : List EventFrame) : Prop :=
  Shows translators context
    (if context.executes name then .gateway else .client (translators.newTranslator (context.toolType name))) events shown

/-- Nothing is shown of a call of the gateway. -/
theorem ShowsCall.gateway (executes : context.executes name = true) : ShowsCall translators context name events [] := by
  unfold ShowsCall
  rw [if_pos executes]
  rfl

/-- A call of the client shows what its translator makes of it. -/
theorem showsCall_client (client : context.executes name = false) :
    ShowsCall translators context name events shown ↔
      Shows translators context (.client (translators.newTranslator (context.toolType name))) events shown := by
  unfold ShowsCall
  rw [if_neg (by rw [client]; exact Bool.false_ne_true)]

/-- A call that is given its name with `events` so far: the gateway's call is noted, a client's translator has made `out`. -/
structure Started (translators : ToolTranslators τ) (context : TranslationContext σ) (name : Text) (p : Nat)
    (events : List (ToolEvent × Option AccumulatedFunctionCall)) (out : List EventFrame) (d : TranslationDispatcher τ σ) :
    Prop where
  started : (context.executes name = true ∧ out = [] ∧ d.active.lookup p = some .gateway) ∨
    (context.executes name = false ∧ ∃ translator, d.active.lookup p = some (.client translator) ∧
      callRun translators (translators.newTranslator (context.toolType name)) events = .ok (translator, out))

/-- A call that was started shows what it was started with. -/
theorem Started.shows {restored : List EventFrame} (h : Started translators context name p events out d)
    (frames : out.mapM (restore context) = .ok restored) :
    ∃ running, d.active.lookup p = some running ∧ ∀ rest shown, Shows translators context running rest shown →
      ShowsCall translators context name (events ++ rest) (restored ++ shown) := by
  rcases h.started with ⟨executes, rfl, active⟩ | ⟨client, translator, active, ran⟩
  · refine ⟨.gateway, active, ?_⟩
    intro rest shown nothing
    have nothing : shown = [] := nothing
    rw [← pure_eq_ok.1 frames, nothing]
    exact ShowsCall.gateway executes
  · refine ⟨.client translator, active, ?_⟩
    intro rest shown later
    exact (showsCall_client client).2 (Shows.client ran frames later)

/-- The opening of a call with a name starts it. -/
theorem opensNamed_dispatch (opens : frame.opensNamed p item_id name = true) :
    frame.callIndex = some p ∧ d.dispatch translators context frame call =
      d.startCall translators context item_id name p (some frame) call := by
  unfold EventFrame.opensNamed at opens
  split at opens
  · rename_i payload
    simp only [Bool.and_eq_true, decide_eq_true_eq] at opens
    obtain ⟨⟨rfl, rfl⟩, rfl⟩ := opens
    refine ⟨by simp [EventFrame.callIndex, payload], ?_⟩
    rw [TranslationDispatcher.dispatch, payload]
    rfl
  · cases opens

/-- **A call that is opened with its name** shows what its translator makes of the opening and of the events after it. -/
theorem run_named (b : Buffered d) (opens : frame.opensNamed p item_id name = true)
    (on : ∀ line ∈ lines, line.GoesOn p) (ends : Ends p lines)
    (h : run translators context d (.event frame call :: lines) = .ok (d', ts)) :
    ShowsCall translators context name ((.added item_id name p (some frame), call) :: toolEventsOf p lines)
      (shownOf p (.event frame call :: lines) ts) := by
  obtain ⟨m, t, rest, now, later, rfl⟩ := run_cons h
  obtain ⟨buffered, -, -⟩ := push_apart b now
  obtain ⟨m', out, -, -, dispatched, restored, -⟩ := @translate_ok _ _ _ _ _ _ _ _ _ p now
  obtain ⟨index, dispatch⟩ := @opensNamed_dispatch _ _ translators context m' frame call p item_id name opens
  rw [dispatch] at dispatched
  obtain ⟨-, outcome⟩ := startCall_ok dispatched
  have started : Started translators context name p [(.added item_id name p (some frame), call)] out m := by
    refine ⟨?_⟩
    rcases outcome with ⟨executes, none, active, -⟩ | ⟨client, translator, active, translated⟩
    · exact .inl ⟨executes, none, active⟩
    · refine .inr ⟨client, translator, active, ?_⟩
      exact transduce_cons_eq_ok.2 ⟨translator, out, [], translated, rfl, (List.append_nil _).symm⟩
  obtain ⟨running, active, goes⟩ := started.shows restored
  rw [@shownOf_own p (.event frame call) lines t rest index]
  exact goes _ _ (run_running buffered active on ends later)

end
end TranslationDispatcher
end AgenticStack
