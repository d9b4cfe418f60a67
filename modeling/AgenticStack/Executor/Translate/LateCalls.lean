import AgenticStack.Executor.Translate.CustomRuns
import AgenticStack.Executor.Translate.LateNaming

/-!
# What a client sees of a call that is named late

Nothing, and nothing after it, until an event names the call; then what the
call's translator makes of the opening event, of each delta once and in order,
and of all that comes after. The frames of a plain function are then the
upstream's own, the opening one as it was sent.
-/

namespace AgenticStack
set_option autoImplicit false
open Library TranslationDispatcher PushedLine

section
variable {τ σ : Type} {translators : ToolTranslators τ} {context : TranslationContext σ} {tool_search : σ}
  {d m : TranslationDispatcher τ σ} {p : Nat} {item_id name : Text} {prior held after lines : List PushedLine}
  {opening opening' naming : EventFrame} {first first' call : Option AccumulatedFunctionCall} {ts ts' : List Translation}

/-- The lines of a round with a call that is named late. -/
def lateLines (prior : List PushedLine) (opening : EventFrame) (first : Option AccumulatedFunctionCall)
    (held : List PushedLine) (naming : EventFrame) (call : Option AccumulatedFunctionCall) (after : List PushedLine) :
    List PushedLine :=
  (prior ++ .event opening first :: held) ++ .event naming call :: after

/-- The frames of the calls that have no name, one after another. -/
def TranslationDispatcher.unnamedFrames (d : TranslationDispatcher τ σ) : List EventFrame :=
  d.pending_unnamed.flatMap fun entry => entry.2.frames

/-- The bytes of the held frames are counted. -/
theorem TranslationDispatcher.Buffered.counts (b : Buffered d) : d.pending_bytes = (d.unnamedFrames.map EventFrame.bytes).sum := by
  rw [buffered_total b, TranslationDispatcher.unnamedFrames, List.map_flatMap]

/-- The states of a round with a call that is named late: before its name, and after. -/
theorem LateCall.states (late : LateCall p item_id name prior opening held naming call after)
    (ran : run translators context (new tool_search) (lateLines prior opening first held naming call after) = .ok (d, ts)) :
    ∃ m before rest, run translators context (new tool_search) (prior ++ .event opening first :: held) = .ok (m, before) ∧
      run translators context m (.event naming call :: after) = .ok (d, rest) ∧ ts = before ++ rest ∧
      before.length = (prior ++ .event opening first :: held).length ∧ Unnamed p (opening :: eventsOf p held) m ∧
      shownOf p (prior ++ .event opening first :: held) before = [] ∧
      ∀ t ∈ before.drop prior.length, ∃ first, t.defer_from_output_index = some first ∧ first ≤ p := by
  obtain ⟨m, before, rest, ran₀, ran₁, split, length⟩ := run_append ran
  obtain ⟨waits, silent, barriers⟩ := late.waits ran₀
  exact ⟨m, before, rest, ran₀, ran₁, split, length, waits, silent, barriers⟩

/-- What is shown of the lines so far does not depend on those that follow. -/
theorem shownOf_longer {before rest : List Translation} (length : before.length = lines.length) :
    shownOf p lines (before ++ rest) = shownOf p lines before := by
  have whole := @shownOf_append p lines [] before rest length
  rw [List.append_nil] at whole
  rw [whole]
  exact List.append_nil _

/-- What a waiting call shows comes after what came before it. -/
theorem drop_waiting {before rest : List Translation} (length : before.length = (prior ++ .event opening first :: held).length) :
    ((before ++ rest).drop prior.length).take (held.length + 1) = before.drop prior.length := by
  have shape : before.length = prior.length + (held.length + 1) := by simpa using length
  have inside : prior.length ≤ before.length := by omega
  have whole : held.length + 1 = (before.drop prior.length).length := by
    rw [List.length_drop]
    omega
  rw [List.drop_append_of_le_length inside, whole, List.take_left]

/-- **A call that is named late is replayed.** What the client is shown of it in all is what the translator of its tool
makes of the opening event, of every delta held back, each once and in order, and of the events from the one that names it
on. None of it is shown before; and as long as the name is missing, delivery sends nothing of its index or of a later one. -/
theorem late_call_replayed {ctx : Engine.RequestContext} {output_offset : Nat} {serde : SerdeJson} {values : SerdeValues}
    {registry : ToolRegistry} {delivery delivery' : StreamDelivery} {o : Outlet}
    (late : LateCall p item_id name prior opening held naming call after)
    (ran : run translators context (new tool_search) (lateLines prior opening first held naming call after) = .ok (d, ts))
    (accepted : delivery.Accepted ctx output_offset serde values registry
      ((ts.drop prior.length).take (held.length + 1)) delivery')
    (opened : delivery.outlet = some o) :
    ShowsCall translators context name
        (replayedEvents item_id name p call (opening :: eventsOf p held) ++ toolEventsOf p (.event naming call :: after))
        (shownOf p (lateLines prior opening first held naming call after) ts) ∧
      shownOf p (prior ++ .event opening first :: held) ts = [] ∧
      ∃ o' emitted, delivery'.outlet = some o' ∧ o'.shown = o.shown ++ emitted ∧
        ∀ frame ∈ emitted, hides (some p) frame.position = false := by
  obtain ⟨m, before, rest, -, ran₁, rfl, length, waits, silent, barriers⟩ := late.states ran
  rw [drop_waiting length] at accepted
  refine ⟨?_, ?_, accepted.behind barriers opened⟩
  · obtain ⟨shows, -⟩ := late.shows waits ran₁
    rw [lateLines, shownOf_append length, silent, List.nil_append]
    exact shows
  · rw [shownOf_longer length, silent]

/-- **What is held back is counted, and given back.** In every state of a round the counter is the size of the frames that
wait for a name, and within the limit; the event that names a call takes its own frames off it. -/
theorem late_call_counted (late : LateCall p item_id name prior opening held naming call after)
    (ran : run translators context (new tool_search) (lateLines prior opening first held naming call after) = .ok (d, ts)) :
    (∀ before later, lateLines prior opening first held naming call after = before ++ later →
      ∃ m ts', run translators context (new tool_search) before = .ok (m, ts') ∧
        m.pending_bytes = (m.unnamedFrames.map EventFrame.bytes).sum ∧ m.pending_bytes ≤ maxPendingFunctionBytes) ∧
    ∃ m m' t ts', run translators context (new tool_search) (prior ++ .event opening first :: held) = .ok (m, ts') ∧
      m.push translators context (.event naming call) = .ok (m', t) ∧
      m.framesAt p = some (opening :: eventsOf p held) ∧ m'.framesAt p = none ∧
      m.pending_bytes = m'.pending_bytes + ((opening :: eventsOf p held).map EventFrame.bytes).sum := by
  constructor
  · intro before later split
    rw [split] at ran
    obtain ⟨m, ts', rest, ran₀, -⟩ := run_append ran
    have buffered := run_buffered buffered_new ran₀
    exact ⟨m, ts', ran₀, buffered.counts, buffered.limit⟩
  · obtain ⟨m, before, rest, ran₀, ran₁, -, -, waits, -⟩ := late.states ran
    obtain ⟨-, m', t, _, named, -, -, gone, bytes⟩ := late.shows waits ran₁
    exact ⟨m, m', t, before, ran₀, named, waits.frames, gone, bytes⟩

/-- Between the opening and the name there is nothing of the call but deltas. -/
theorem deltas_between (between : ∀ line ∈ held, line.Between p) :
    (eventsOf p held).filter EventFrame.isArgumentsDelta = eventsOf p held := by
  rw [List.filter_eq_self]
  intro frame mem
  obtain ⟨line, inside, found⟩ := List.mem_filterMap.1 mem
  cases line with
  | ignored => cases found
  | event frame' call' =>
    obtain ⟨index, same⟩ := Option.ite_none_right_eq_some.1 found
    cases same
    exact between _ inside index

/-- The opening of a call opens it, and is no delta. -/
theorem opensUnnamed_isFunctionAdded (opens : opening.opensUnnamed p = true) :
    opening.isFunctionAdded = true ∧ opening.isArgumentsDelta = false := by
  unfold EventFrame.opensUnnamed at opens
  split at opens
  · rename_i payload
    rw [EventFrame.isFunctionAdded, EventFrame.isArgumentsDelta, payload]
    exact ⟨rfl, rfl⟩
  · cases opens

/-- A plain function passes on what is replayed: the opening event and the deltas, as they were sent. -/
theorem replayed_passes (opens : opening.opensUnnamed p = true) (between : ∀ line ∈ held, line.Between p) :
    ((replayedEvents item_id name p call (opening :: eventsOf p held)).flatMap fun event => FunctionTranslator.translate event.1) =
      opening :: eventsOf p held := by
  obtain ⟨added, delta⟩ := opensUnnamed_isFunctionAdded opens
  have first : (opening :: eventsOf p held).find? EventFrame.isFunctionAdded = some opening := List.find?_cons_of_pos added
  have deltas : (opening :: eventsOf p held).filter EventFrame.isArgumentsDelta = eventsOf p held := by
    rw [List.filter_cons_of_neg (by rw [delta]; exact Bool.false_ne_true), deltas_between between]
  rw [replayedEvents, TranslationDispatcher.deltaEvents, first, deltas, List.flatMap_cons, List.flatMap_map]
  have passed : FunctionTranslator.translate (.added item_id name p (some opening)) = [opening] := rfl
  have each : (fun frame => FunctionTranslator.translate (.delta frame)) = fun frame => [frame] := rfl
  rw [passed]
  show [opening] ++ (eventsOf p held).flatMap (fun frame => FunctionTranslator.translate (.delta frame)) = _
  rw [each, List.flatMap_singleton']
  rfl

section
variable {τ' : Type} {serde : SerdeJson} {searches : ToolTranslators τ'}
  {d d' : TranslationDispatcher (ClientTranslator τ') σ}

/-- **A plain function shows the upstream's own frames**, whether its name comes with the opening event or later: the
opening event, the deltas, the event with the name and what comes after, each once and in order. Named late, the
frames differ only in the opening one, which is shown as it was sent. -/
theorem late_function_passes (passes : (context.toolType name).passesOn = true)
    (late : LateCall p item_id name prior opening held naming call after)
    (named : NamedCall p item_id name prior opening' (held ++ .event naming call :: after))
    (ran : run (clientTranslators serde searches) context (new tool_search)
      (lateLines prior opening first held naming call after) = .ok (d, ts))
    (ran' : run (clientTranslators serde searches) context (new tool_search)
      (lateLines prior opening' first' held naming call after) = .ok (d', ts')) :
    ∃ frame frame' frames, restore context opening = .ok frame ∧ restore context opening' = .ok frame' ∧
      (eventsOf p (held ++ .event naming call :: after)).mapM (restore context) = .ok frames ∧
      shownOf p (lateLines prior opening first held naming call after) ts = frame :: frames ∧
      shownOf p (lateLines prior opening' first' held naming call after) ts' = frame' :: frames := by
  have rounds (o : EventFrame) (c : Option AccumulatedFunctionCall) :
      lateLines prior o c held naming call after = prior ++ .event o c :: (held ++ .event naming call :: after) := by
    rw [lateLines, List.append_assoc]
    rfl
  have whole : eventsOf p held ++ eventsOf p (.event naming call :: after) = eventsOf p (held ++ .event naming call :: after) :=
    List.filterMap_append.symm
  obtain ⟨m, before, rest, -, ran₁, rfl, length, waits, silent, -⟩ := late.states ran
  obtain ⟨shows, -⟩ := late.shows waits ran₁
  have restored := shows.passes passes
  rw [List.flatMap_append, replayed_passes late.opens late.between, translate_toolEventsOf, List.cons_append, whole] at restored
  rw [rounds] at ran'
  have restored' := (named.shows ran').passes passes
  rw [List.flatMap_cons, translate_toolEventsOf] at restored'
  obtain ⟨frame, frames, now, later, shape⟩ := mapM_cons_eq_ok.1 restored
  obtain ⟨frame', frames', now', later', shape'⟩ := mapM_cons_eq_ok.1 restored'
  obtain rfl : frames = frames' := Except.ok.inj (later.symm.trans later')
  refine ⟨frame, frame', frames, now, now', later, ?_, ?_⟩
  · rw [lateLines, shownOf_append length, silent, List.nil_append, shape]
  · rw [rounds, shape']

end
end

/-- Every tool is a plain function. -/
def plainContext : TranslationContext Unit where
  toolType _ := .function
  isGatewayOwned _ := false
  tool_search_active := false
  restoreStreamEventWire := .ok
  validateFrame _ := .ok ()
  trackNativeToolSearch s _ := .ok s
  startSynthetic s _ _ := .ok s
  hasUnfinishedNative _ := false

/-- Searches that are passed on. -/
def noSearches : ToolTranslators Unit := ⟨fun _ => (), fun s _ _ => .ok (s, []), fun _ => none⟩

/-- The opening of a call without a name. -/
def lateOpening : EventFrame :=
  ⟨.outputItemAdded, .outputItemAdded "fc_1" .functionCall (some 0) none none none none, ⟨none, none, some 0, []⟩⟩

/-- A delta of its arguments. -/
def lateDelta : EventFrame :=
  ⟨.functionCallArgumentsDelta, .functionCallArgsDelta "\x7b" none "fc_1" (some 0), ⟨none, none, some 0, []⟩⟩

/-- A part of a message behind it. -/
def lateMessage : EventFrame := ⟨.outputTextDelta, .none, ⟨none, none, some 1, []⟩⟩

/-- The end of its arguments, with its name. -/
def lateNaming : EventFrame :=
  ⟨.functionCallArgumentsDone, .functionCallArgsDone "\x7b\x7d" none "fc_1" "clock" (some 0), ⟨none, none, some 0, []⟩⟩

/-- The end of the call. -/
def lateDone : EventFrame :=
  ⟨.outputItemDone, .outputItemDone "fc_1" .functionCall (some 0) (.obj []), ⟨none, none, some 0, []⟩⟩

/-- The opening of a call with its name. -/
def namedOpening : EventFrame :=
  ⟨.outputItemAdded, .outputItemAdded "fc_1" .functionCall (some 0) (some "clock") none none none, ⟨none, none, some 0, []⟩⟩

/-- While the name is missing: a part of the arguments, and a part of the message behind the call. -/
def lateHeld : List PushedLine := [.event lateDelta none, .event lateMessage none]

/-- A round in which the clock is named late. -/
theorem lateCall_clock : LateCall 0 "fc_1" "clock" [.ignored] lateOpening lateHeld lateNaming none [.event lateDone none] where
  fresh := by simp [PushedLine.callIndex]
  opens := rfl
  between := by simp [lateHeld, PushedLine.Between, lateDelta, lateMessage, EventFrame.callIndex, EventFrame.isArgumentsDelta]
  names := rfl
  index := rfl
  on := by simp [PushedLine.GoesOn, lateDone, EventFrame.isFunctionAdded]
  ends := by simp [PushedLine.Ends, PushedLine.isDone, EventFrame.isFunctionDone, lateNaming]

/-- A round in which the clock is named at once. -/
theorem namedCall_clock : NamedCall 0 "fc_1" "clock" [.ignored] namedOpening
    (lateHeld ++ .event lateNaming none :: [.event lateDone none]) where
  fresh := by simp [PushedLine.callIndex]
  opens := rfl
  on := by simp [lateHeld, PushedLine.GoesOn, lateDone, lateDelta, lateMessage, lateNaming, EventFrame.isFunctionAdded]
  ends := by
    simp [lateHeld, PushedLine.Ends, PushedLine.isDone, EventFrame.isFunctionDone, lateNaming, lateDone, lateDelta, lateMessage]

/-- What comes of the round. -/
def clockRound (opening : EventFrame) :
    ExecutorResult (TranslationDispatcher (ClientTranslator Unit) Unit × List Translation) :=
  run (clientTranslators plainSerde noSearches) plainContext (new ())
    (lateLines [.ignored] opening none lateHeld lateNaming none [.event lateDone none])

/-- What comes of each line, where the clock is named late. -/
def lateTranslations : List Translation :=
  [⟨[], none⟩, ⟨[], some 0⟩, ⟨[], some 0⟩, ⟨[lateMessage], some 0⟩, ⟨[lateOpening, lateDelta, lateNaming], none⟩, ⟨[lateDone], none⟩]

/-- The round of a clock that is named late. -/
theorem clockRound_late : ∃ d, clockRound lateOpening = .ok (d, lateTranslations) := ⟨_, rfl⟩

/-- The round of a clock that is named at once. -/
theorem clockRound_named : ∃ d ts, clockRound namedOpening = .ok (d, ts) := ⟨_, _, rfl⟩

/-- A request with nothing in it. -/
def blankRequest : Engine.RequestContext :=
  let payload : RequestPayload :=
    { model := [], input := .items [], instructions := none, previous_response_id := none, conversation_id := none
      tool_choice := none, store := false, context_management := none }
  { original_request := payload, enriched_request := payload, new_input_items := [], response_id := "resp_1"
    conversation_id := none, continuation := none }

/-- A stream with room. -/
def openDelivery : StreamDelivery := ⟨some ⟨⟨0, false, false⟩, ⟨[], none⟩⟩, none, [], 0⟩

/-- Delivery of translations, one after another. -/
def acceptAll (serde : SerdeJson) (values : SerdeValues) (delivery : StreamDelivery) :
    List Translation → Option StreamDelivery
  | [] => some delivery
  | t :: ts =>
    match StreamDelivery.accept blankRequest 0 serde values .default t delivery with
    | .ok _ next => acceptAll serde values next ts
    | .error _ _ => none

/-- What is accepted one by one is accepted. -/
theorem acceptAll_accepted {serde : SerdeJson} {values : SerdeValues} {delivery delivery' : StreamDelivery}
    {ts : List Translation}
    (h : acceptAll serde values delivery ts = some delivery') :
    delivery.Accepted blankRequest 0 serde values .default ts delivery' := by
  induction ts generalizing delivery with
  | nil =>
    obtain rfl := Option.some.inj h
    exact .nil
  | cons t ts ih =>
    unfold acceptAll at h
    split at h
    · rename_i accepted
      exact .cons accepted (ih h)
    · cases h

/-- Values that are all null. -/
def nullValues : SerdeValues := ⟨fun _ => .null, fun _ => .null⟩

/-- Behind a call that waits nothing is shown. -/
theorem openDelivery_waits : ∃ delivery, acceptAll plainSerde nullValues openDelivery
    ((lateTranslations.drop 1).take 3) = some delivery :=
  Option.isSome_iff_exists.1 (by decide +kernel)

theorem late_call_replayed_clock : ∃ d, ∃ delivery : StreamDelivery, ∃ o,
    clockRound lateOpening = .ok (d, lateTranslations) ∧ delivery.outlet = some o ∧
    ShowsCall (clientTranslators plainSerde noSearches) plainContext "clock"
      [(.added "fc_1" "clock" 0 (some lateOpening), none), (.delta lateDelta, none), (.argumentsDone lateNaming, none),
        (.done lateDone, none)] [lateOpening, lateDelta, lateNaming, lateDone] := by
  obtain ⟨d, ran⟩ := clockRound_late
  obtain ⟨delivery, waits⟩ := openDelivery_waits
  obtain ⟨shows, -, o, -, opened, -⟩ := late_call_replayed lateCall_clock ran (acceptAll_accepted waits) rfl
  exact ⟨d, delivery, o, ran, opened, shows⟩

theorem late_call_counted_clock : ∃ m m' ts t,
    run (clientTranslators plainSerde noSearches) plainContext (new ())
      ([.ignored] ++ .event lateOpening none :: lateHeld) = .ok (m, ts) ∧
    m.push (clientTranslators plainSerde noSearches) plainContext (.event lateNaming none) = .ok (m', t) ∧
    m.pending_bytes = m'.pending_bytes + ([lateOpening, lateDelta].map EventFrame.bytes).sum := by
  obtain ⟨d, ran⟩ := clockRound_late
  obtain ⟨-, m, m', t, ts, held, named, -, -, bytes⟩ := late_call_counted lateCall_clock ran
  exact ⟨m, m', ts, t, held, named, bytes⟩

theorem late_function_passes_clock : ∃ frames, (eventsOf 0 (lateHeld ++ .event lateNaming none :: [.event lateDone none])).mapM
      (restore plainContext) = .ok frames ∧
    shownOf 0 (lateLines [.ignored] lateOpening none lateHeld lateNaming none [.event lateDone none]) lateTranslations =
      lateOpening :: frames := by
  obtain ⟨d, ran⟩ := clockRound_late
  obtain ⟨d', ts, ran'⟩ := clockRound_named
  obtain ⟨frame, -, frames, now, -, later, late, -⟩ := late_function_passes rfl lateCall_clock namedCall_clock ran ran'
  obtain rfl : lateOpening = frame := Except.ok.inj now
  exact ⟨frames, later, late⟩

end AgenticStack
