import AgenticStack.Executor.Accumulator.CallIds
import AgenticStack.Executor.Accumulator.Completion
import AgenticStack.Executor.Gateway
import AgenticStack.Executor.Translate.ShellCalls
import AgenticStack.Library.Outcome
import AgenticStack.Tool.PublicItemId
import AgenticStack.Types.Decode
import Mathlib.Data.List.Pairwise

/-!
# The public ids of a response

What a response shows of its custom and shell calls has ids made from those of
the function calls behind them. They are apart exactly where the upstream ids do
not clash; the frames of a call whose events name its id name the id the response
shows at the end.
-/

namespace AgenticStack
set_option autoImplicit false
open Library

variable {front id : Text}

/-- The prefix of the id an item is shown under, when it is a custom or shell call. -/
def restoredFront (registry : ToolRegistry) : OutputItem → Option Text
  | .functionCall call =>
    if registry.isClientCustomName call.name then some "ctc_"
    else if registry.isClientShellName call.name then some "sh_"
    else none
  | _ => none

/-- An item of a round and the item that stands for it in the response. -/
def Shown (serde : SerdeJson) (registry : ToolRegistry) (item shown : OutputItem) : Prop :=
  ∃ gateway_results item_index, publicOutputItem serde registry gateway_results item_index item = .ok shown

/-- A round's output, what its gateway calls gave, and what the response shows of it. -/
structure RoundOutput where
  output : List OutputItem
  gateway_results : List GatewayCallResult
  public_output : List OutputItem

/-- The items of all rounds, each with the item that stands for it. -/
def shownItems (rounds : List RoundOutput) : List (OutputItem × OutputItem) :=
  rounds.flatMap fun round => round.output.zip round.public_output

/-- The id of the function call a public call is lowered to when it is sent back as input. -/
def replayedId : OutputItem → Option Text
  | .customToolCall call => call.toInput.id
  | .shellCall call => call.toInput.id
  | _ => none

/-- The upstream ids of calls of one kind do not clash, and no other item has an id that one of them is shown as. -/
structure Apart (registry : ToolRegistry) (items : List (OutputItem × OutputItem)) : Prop where
  calls : ∀ p ∈ items, ∀ q ∈ items, ∀ front a b, restoredFront registry p.1 = some front →
    restoredFront registry q.1 = some front → p.1.id = some a → q.1.id = some b → ¬ Clash front a b
  others : ∀ p ∈ items, ∀ q ∈ items, ∀ front a other, restoredFront registry p.1 = some front →
    restoredFront registry q.1 = none → p.1.id = some a → q.2.id = some other → ¬ ShownAs front a other

/-- The ids of the public calls differ from each other and from those of all other items. -/
def DistinctShown (registry : ToolRegistry) (items : List (OutputItem × OutputItem)) : Prop :=
  items.Pairwise fun p q =>
    (restoredFront registry p.1).isSome ∨ (restoredFront registry q.1).isSome → p.2.id ≠ q.2.id

section
variable {serde : SerdeJson} {registry : ToolRegistry} {item shown : OutputItem} {items : List (OutputItem × OutputItem)}

/-- A call of the client is shown under a prefix where it is a custom tool or the shell. -/
theorem restoredFront_call (call : FunctionToolCall) : restoredFront registry (.functionCall call) =
    if registry.isClientCustomName call.name then some (utf8 "ctc_")
    else if registry.isClientShellName call.name then some (utf8 "sh_")
    else none := rfl

/-- The prefixes are those of the public ids. -/
theorem restoredFront_public (front_of : restoredFront registry item = some front) : front ∈ publicFronts := by
  cases item with
  | functionCall call =>
    rw [restoredFront_call] at front_of
    split at front_of
    · cases front_of
      exact List.mem_cons_self
    · split at front_of
      · cases front_of
        exact List.mem_cons_of_mem _ List.mem_cons_self
      · cases front_of
  | _ => cases front_of

/-- An item that is shown under another id is a function call. -/
theorem restoredFront_isCall (front_of : restoredFront registry item = some front) (named : item.id = some id) :
    ∃ call, item = .functionCall call ∧ call.id = id := by
  cases item with
  | functionCall call => exact ⟨call, rfl, Option.some.inj named⟩
  | _ => cases front_of

/-- The items of the output are shown under their public ids. -/
theorem publicOutputItems_shown {output public_output : List OutputItem} {gateway_results : List GatewayCallResult}
    (made : publicOutputItems serde output registry gateway_results = .ok public_output) :
    ∀ p ∈ output.zip public_output, Shown serde registry p.1 p.2 := by
  intro p mem
  have places : output.zip public_output = (output.zipIdx.zip public_output).map (Prod.map Prod.fst id) := by
    rw [← List.zip_map_left, List.zipIdx_map_fst]
  rw [places] at mem
  obtain ⟨q, here, rfl⟩ := List.mem_map.1 mem
  exact ⟨gateway_results, q.1.2, zip_of_mapM made q here⟩

/-- A custom or shell call is shown under the public id of the function call, and sent back under the id made of that. -/
theorem Shown.id_restored (here : Shown serde registry item shown) (front_of : restoredFront registry item = some front) :
    ∃ id, item.id = some id ∧ shown.id = some (publicItemId front id) ∧
      replayedId shown = functionCallItemId (publicItemId front id) := by
  obtain ⟨gateway_results, item_index, made⟩ := here
  cases item with
  | functionCall call =>
    refine ⟨call.id, rfl, ?_⟩
    rw [restoredFront_call] at front_of
    dsimp only [publicOutputItem] at made
    by_cases custom : registry.isClientCustomName call.name = true
    · rw [if_pos custom] at made front_of
      cases made
      cases front_of
      exact ⟨rfl, rfl⟩
    · rw [if_neg custom] at made front_of
      by_cases shell : registry.isClientShellName call.name = true
      · rw [if_pos shell] at made front_of
        cases front_of
        unfold ShellHandler.outputItem ShellHandler.outputItemWithStatus at made
        cases read : ShellCallAction.fromStr serde call.arguments with
        | none => rw [read] at made; cases made
        | some action =>
          rw [read] at made
          cases made
          exact ⟨rfl, rfl⟩
      · rw [if_neg shell] at front_of
        cases front_of
  | _ => cases front_of

/-- The items at two places with different upstream ids, one of them a public call, are shown under different ids. -/
theorem shownIds_apart (shown : ∀ p ∈ items, Shown serde registry p.1 p.2) (apart : Apart registry items)
    {p q : OutputItem × OutputItem} (p_mem : p ∈ items) (q_mem : q ∈ items) (differ : p.1.id ≠ q.1.id)
    (front_of : restoredFront registry p.1 = some front) : p.2.id ≠ q.2.id := by
  obtain ⟨a, a_id, a_shown, -⟩ := (shown p p_mem).id_restored front_of
  have front_public := restoredFront_public front_of
  rw [a_shown]
  intro same
  cases other : restoredFront registry q.1 with
  | none =>
    exact apart.others p p_mem q q_mem front a _ front_of other a_id same.symm (shownAs_publicItemId front_public a)
  | some front' =>
    obtain ⟨b, b_id, b_shown, -⟩ := (shown q q_mem).id_restored other
    have one : publicItemId front a = publicItemId front' b := Option.some.inj (same.trans b_shown)
    by_cases kinds : front = front'
    · subst kinds
      have ids : a ≠ b := by
        rintro rfl
        exact differ (a_id.trans b_id.symm)
      rcases (publicItemId_eq_iff front_public ids).1 one with clash | clash
      · exact apart.calls p p_mem q q_mem front a b front_of other a_id b_id clash
      · exact apart.calls q q_mem p p_mem front b a other front_of b_id a_id clash
    · exact fronts_apart front_public (restoredFront_public other) kinds (prefix_publicItemId front a)
        (one ▸ prefix_publicItemId front' b)

/-- Where the ids shown are distinct, nothing clashes. -/
theorem apart_of_distinctShown (shown : ∀ p ∈ items, Shown serde registry p.1 p.2) (distinct : DistinctShown registry items) :
    Apart registry items := by
  have symmetric : Std.Symm fun p q : OutputItem × OutputItem =>
      (restoredFront registry p.1).isSome ∨ (restoredFront registry q.1).isSome → p.2.id ≠ q.2.id :=
    ⟨fun p q apart either => (apart either.symm).symm⟩
  have apart : ∀ p ∈ items, ∀ q ∈ items, p ≠ q → ∀ front, restoredFront registry p.1 = some front → p.2.id ≠ q.2.id := by
    intro p p_mem q q_mem differ front front_of
    exact distinct.forall p_mem q_mem differ (.inl (by rw [front_of]; rfl))
  constructor
  · intro p p_mem q q_mem front a b p_front q_front a_id b_id clash
    have front_public := restoredFront_public p_front
    obtain ⟨a', a_id', a_shown, -⟩ := (shown p p_mem).id_restored p_front
    obtain ⟨b', b_id', b_shown, -⟩ := (shown q q_mem).id_restored q_front
    cases a_id.symm.trans a_id'
    cases b_id.symm.trans b_id'
    have places : p ≠ q := by
      rintro rfl
      exact clash.ne front_public (Option.some.inj (a_id.symm.trans b_id))
    apply apart p p_mem q q_mem places front p_front
    rw [a_shown, b_shown, publicItemId_clash front_public clash]
  · intro p p_mem q q_mem front a other p_front q_front a_id other_id as
    obtain ⟨a', a_id', a_shown, -⟩ := (shown p p_mem).id_restored p_front
    cases a_id.symm.trans a_id'
    have places : p ≠ q := by
      rintro rfl
      cases p_front.symm.trans q_front
    apply apart p p_mem q q_mem places front p_front
    rw [a_shown, other_id, (shownAs_iff (restoredFront_public p_front)).1 as]

end

/-- The id an event names: the id of its item, or the one under `item_id`. -/
def namedIn (fields : List (Text × Json)) : Option Text :=
  ((((Json.obj fields).get "item").bind fun item => item.get "id").bind Json.asStr).or
    (((Json.obj fields).get "item_id").bind Json.asStr)

/-- The id of the item a frame is about. -/
def EventFrame.namedId (frame : EventFrame) : Option Text := namedIn frame.wire.rest

/-- The frames name no other id. -/
def Names (id : Text) (frames : List EventFrame) : Prop :=
  ∀ frame ∈ frames, ∀ named, frame.namedId = some named → named = id

section
variable {type : SSEEventType} {output_index index : Nat} {fields : List (Text × Json)} {frame : EventFrame}
  {frames fs gs : List EventFrame} {serde : SerdeJson} {call : AccumulatedFunctionCall} {arguments : Text}

/-- No frame names another item. -/
theorem Names.nil : Names id [] := fun _ mem => absurd mem List.not_mem_nil

/-- Frames that name one item, one list after the other. -/
theorem Names.append (left : Names id fs) (right : Names id gs) : Names id (fs ++ gs) := by
  intro frame mem
  rcases List.mem_append.1 mem with mem | mem
  · exact left frame mem
  · exact right frame mem

/-- A frame of the gateway names the item of its fields. -/
theorem syntheticEvent_names (made : syntheticEvent type output_index fields = .ok frame)
    (here : ∀ named, namedIn fields = some named → named = id) : Names id [frame] := by
  have rest : frame.wire.rest = fields := by
    unfold syntheticEvent EventFrame.synthetic at made
    cases name : type.wireName with
    | none =>
      rw [name] at made
      cases made
    | some name' =>
      rw [name] at made
      cases made
      rfl
  intro frame' mem named
  rw [List.mem_singleton.1 mem, EventFrame.namedId, rest]
  exact here named

section
variable {state state' : CustomCallState}

/-- A part of an input names its call. -/
theorem customDeltaFrame_names {delta : Text} (made : customDeltaFrame state delta = .ok frame) :
    Names state.public_item_id [frame] := by
  refine syntheticEvent_names made ?_
  rintro named ⟨⟩
  rfl

/-- The opening of a call names it. -/
theorem customAddedFrame_names (made : customAddedFrame call = .ok frame) :
    Names (publicItemId "ctc_" call.item.id) [frame] := by
  refine syntheticEvent_names made ?_
  rintro named ⟨⟩
  rfl

/-- The end of a call names it. -/
theorem customDoneFrame_names (made : customDoneFrame state call = .ok frame) : Names state.public_item_id [frame] := by
  refine syntheticEvent_names made ?_
  rintro named ⟨⟩
  rfl

/-- Reading an input leaves the id of its call as it is. -/
theorem partialCustomInput_id {delta : Option Text} (ran : partialCustomInput serde state arguments = .ok (state', delta)) :
    state'.public_item_id = state.public_item_id := by
  have located {state₁ : CustomCallState} {start : Nat} (found : locateInput state arguments = some (state₁, start)) :
      state₁.public_item_id = state.public_item_id := by
    unfold locateInput at found
    split at found
    · cases found
      rfl
    · obtain ⟨start', -, same⟩ := Option.map_eq_some_iff.1 found
      cases same
      rfl
  unfold partialCustomInput at ran
  split at ran
  · cases ran
    rfl
  · rename_i found
    split at ran
    · cases ran
      exact located found
    · dsimp only at ran
      split at ran
      · cases ran
        exact located found
      · split at ran
        · cases ran
        · have kept := located found
          cases ran
          exact kept

/-- What is shown of an input that arrives names its call. -/
theorem incrementalCustomDelta_names (ran : incrementalCustomDelta serde state arguments = .ok (state', frames)) :
    state'.public_item_id = state.public_item_id ∧ Names state.public_item_id frames := by
  unfold incrementalCustomDelta at ran
  obtain ⟨-, -, ran⟩ := bind_eq_ok.1 ran
  obtain ⟨next, read, ran⟩ := bind_eq_ok.1 ran
  obtain ⟨state₁, delta⟩ := next
  have kept := partialCustomInput_id read
  cases delta with
  | none =>
    cases ran
    exact ⟨kept, Names.nil⟩
  | some delta =>
    obtain ⟨frame, made, ran⟩ := bind_eq_ok.1 ran
    cases ran
    exact ⟨kept, kept ▸ customDeltaFrame_names made⟩

/-- What is shown at the end of an input names its call. -/
theorem finishCustomInput_names (ran : finishCustomInput serde state arguments = .ok (state', frames)) :
    state'.public_item_id = state.public_item_id ∧ Names state.public_item_id frames := by
  unfold finishCustomInput at ran
  split at ran
  · cases ran
    exact ⟨rfl, Names.nil⟩
  · obtain ⟨-, -, ran⟩ := bind_eq_ok.1 ran
    dsimp only at ran
    split at ran
    · cases ran
    · split at ran
      · obtain ⟨deltas, streamed, ran⟩ := bind_eq_ok.1 ran
        obtain ⟨done, made, ran⟩ := bind_eq_ok.1 ran
        cases streamed
        cases ran
        refine ⟨rfl, syntheticEvent_names made ?_⟩
        rintro named ⟨⟩
        rfl
      · obtain ⟨deltas, streamed, ran⟩ := bind_eq_ok.1 ran
        obtain ⟨done, made, ran⟩ := bind_eq_ok.1 ran
        obtain ⟨frame, delta, rfl⟩ := map_eq_ok.1 streamed
        cases ran
        refine ⟨rfl, Names.append (customDeltaFrame_names delta) (syntheticEvent_names made ?_)⟩
        rintro named ⟨⟩
        rfl

end

/-- An event of the function call `id`, with the call as it is accumulated. -/
def EventOf (id : Text) (event : ToolEvent × Option AccumulatedFunctionCall) : Prop :=
  (∀ call, event.2 = some call → call.item.id = id) ∧
    (event.2 = none → ∀ item_id name output_index original, event.1 = .added item_id name output_index original → item_id = id)

section
variable {state state' : Option CustomCallState} {event : ToolEvent × Option AccumulatedFunctionCall}
  {events : List (ToolEvent × Option AccumulatedFunctionCall)}

/-- A call that is started names its public id. -/
theorem CustomCallState.started_names {step : CustomCallState → AccumulatedFunctionCall → ExecutorResult (CustomCallState × List EventFrame)}
    {public_id : Text} {call : Option AccumulatedFunctionCall}
    (steps : ∀ s call s' out, step s call = .ok (s', out) → s'.public_item_id = s.public_item_id ∧ Names s.public_item_id out)
    (holds : ∀ s, state = some s → s.public_item_id = public_id)
    (ran : CustomCallState.started state call step = .ok (state', frames)) :
    (∀ s, state' = some s → s.public_item_id = public_id) ∧ Names public_id frames := by
  cases state with
  | none => cases ran
  | some s =>
    have here := holds s rfl
    cases call with
    | none =>
      cases ran
      exact ⟨holds, Names.nil⟩
    | some call =>
      obtain ⟨next, stepped, same⟩ := map_eq_ok.1 ran
      obtain ⟨s₁, out⟩ := next
      cases same
      obtain ⟨kept, these⟩ := steps s call s₁ frames stepped
      rw [here] at kept these
      refine ⟨?_, these⟩
      rintro s' ⟨⟩
      exact kept

/-- What is shown of a custom call names its public id. -/
theorem CustomTranslator.translate_names (of : EventOf id event)
    (holds : ∀ s, state = some s → s.public_item_id = publicItemId "ctc_" id)
    (ran : CustomTranslator.translate serde state event.1 event.2 = .ok (state', frames)) :
    (∀ s, state' = some s → s.public_item_id = publicItemId "ctc_" id) ∧ Names (publicItemId "ctc_" id) frames := by
  obtain ⟨event, call⟩ := event
  obtain ⟨of_call, of_added⟩ := of
  cases event with
  | added item_id name output_index original =>
    cases call with
    | none =>
      obtain rfl := of_added rfl item_id name output_index original rfl
      cases ran
      refine ⟨?_, Names.nil⟩
      rintro s ⟨⟩
      rfl
    | some call =>
      obtain rfl := of_call call rfl
      dsimp only [CustomTranslator.translate] at ran
      obtain ⟨frame, made, same⟩ := map_eq_ok.1 ran
      cases same
      refine ⟨?_, customAddedFrame_names made⟩
      rintro s ⟨⟩
      rfl
  | delta original =>
    exact CustomCallState.started_names (fun s call s' out stepped => incrementalCustomDelta_names stepped) holds ran
  | argumentsDone original =>
    exact CustomCallState.started_names (fun s call s' out stepped => finishCustomInput_names stepped) holds ran
  | done original =>
    refine CustomCallState.started_names ?_ holds ran
    intro s call s' out stepped
    obtain ⟨next, finished, stepped⟩ := bind_eq_ok.1 stepped
    obtain ⟨s₁, frames₁⟩ := next
    obtain ⟨done, made, stepped⟩ := bind_eq_ok.1 stepped
    obtain ⟨kept, these⟩ := finishCustomInput_names finished
    cases stepped
    exact ⟨kept, these.append (kept ▸ customDoneFrame_names made)⟩

/-- Every frame of a custom call names its public id. -/
theorem CustomTranslator.run_names (of : ∀ event ∈ events, EventOf id event)
    (ran : CustomTranslator.run serde none events = .ok (state', frames)) : Names (publicItemId "ctc_" id) frames := by
  refine transduce_emits (P := fun state : Option CustomCallState => ∀ s, state = some s → s.public_item_id = publicItemId "ctc_" id)
    (A := EventOf id) ?_ of ran ?_
  · intro s event s' out of holds ran
    exact CustomTranslator.translate_names of holds ran
  · rintro s ⟨⟩

end

section
variable {state state' : ShellCallState} {cursor cursor' : Nat} {goOn : Bool}

/-- The frames of a command name no id. -/
theorem shellCommandFrame_names {value : Text} (made : shellCommandFrame type output_index index value = .ok frame) :
    Names id [frame] := by
  refine syntheticEvent_names made ?_
  intro named found
  split at found <;> cases found

/-- A command that goes on names its call. -/
theorem extendCommand_names (ran : extendCommand serde state arguments cursor = .ok (state', cursor', frames)) :
    Names id frames := by
  unfold extendCommand at ran
  dsimp only at ran
  split at ran
  · cases ran
    exact Names.nil
  · split at ran
    · cases ran
    · obtain ⟨frame, made, same⟩ := map_eq_ok.1 ran
      cases same
      exact shellCommandFrame_names made

/-- A command that is read names its call. -/
theorem readCommand_names (ran : readCommand serde state arguments cursor = .ok (state', cursor', frames, goOn)) :
    Names id frames := by
  unfold readCommand at ran
  split at ran
  · cases ran
  · split at ran
    · cases ran
    · rename_i extended
      split at ran
      · obtain ⟨frame, made, same⟩ := map_eq_ok.1 ran
        cases same
        exact (extendCommand_names extended).append (shellCommandFrame_names made)
      · cases ran
        exact extendCommand_names extended

/-- A command that is opened names its call. -/
theorem openCommand_names (ran : openCommand state arguments cursor = .ok (state', cursor', frames, goOn)) :
    Names id frames := by
  unfold openCommand at ran
  split at ran
  · cases ran
  · cases ran
    exact Names.nil
  · split at ran
    · cases ran
      exact Names.nil
    · split at ran
      · obtain ⟨frame, made, same⟩ := map_eq_ok.1 ran
        cases same
        exact shellCommandFrame_names made
      · cases ran

/-- A round of the commands names its call. -/
theorem commandRound_names (ran : commandRound serde state arguments cursor = .ok (state', cursor', frames, goOn)) :
    Names id frames := by
  unfold commandRound at ran
  split at ran
  · exact readCommand_names ran
  · split at ran
    · cases ran
    · rename_i opened
      cases ran
      exact openCommand_names opened
    · rename_i opened
      obtain ⟨next, read, same⟩ := map_eq_ok.1 ran
      obtain ⟨s, c, more, b⟩ := next
      cases same
      exact (openCommand_names opened).append (readCommand_names read)

/-- The commands that have arrived name their call. -/
theorem commandsLoop_names {fuel : Nat} (ran : commandsLoop serde fuel state arguments cursor = .ok (state', frames)) :
    Names id frames := by
  induction fuel generalizing state cursor frames with
  | zero => cases ran
  | succ fuel ih =>
    unfold commandsLoop at ran
    split at ran
    · cases ran
    · rename_i round
      cases ran
      exact commandRound_names round
    · rename_i round
      obtain ⟨next, later, same⟩ := map_eq_ok.1 ran
      obtain ⟨s, more⟩ := next
      cases same
      exact (commandRound_names round).append (ih later)

/-- The commands of a delta name their call. -/
theorem incrementalShellCommands_names (ran : incrementalShellCommands serde state arguments = .ok (state', frames)) :
    Names id frames := by
  unfold incrementalShellCommands at ran
  obtain ⟨-, -, ran⟩ := bind_eq_ok.1 ran
  split at ran
  · cases ran
    exact Names.nil
  · split at ran
    · cases ran
      exact Names.nil
    · exact commandsLoop_names ran

/-- A command that is done names its call. -/
theorem emitCommand_names {command : Text} (before : Names id fs)
    (ran : emitCommand state index command fs = .ok (state', frames)) : Names id frames := by
  unfold emitCommand at ran
  dsimp only at ran
  split at ran
  · obtain ⟨deltas, streamed, ran⟩ := bind_eq_ok.1 ran
    obtain ⟨done, made, ran⟩ := bind_eq_ok.1 ran
    cases streamed
    cases ran
    rw [List.append_nil]
    exact before.append (shellCommandFrame_names made)
  · obtain ⟨deltas, streamed, ran⟩ := bind_eq_ok.1 ran
    obtain ⟨done, made, ran⟩ := bind_eq_ok.1 ran
    obtain ⟨frame, delta, rfl⟩ := map_eq_ok.1 streamed
    cases ran
    exact (before.append (shellCommandFrame_names delta)).append (shellCommandFrame_names made)

/-- The commands that are left name their call. -/
theorem finishCommandsFrom_names {commands : List Text}
    (ran : finishCommandsFrom state index commands = .ok (state', frames)) : Names id frames := by
  induction commands generalizing state index frames with
  | nil =>
    cases ran
    exact Names.nil
  | cons command more ih =>
    unfold finishCommandsFrom at ran
    split at ran
    · dsimp only at ran
      split at ran
      · cases ran
      · split at ran
        · obtain ⟨next, none, ran⟩ := bind_eq_ok.1 ran
          obtain ⟨later, rest, ran⟩ := bind_eq_ok.1 ran
          cases none
          cases ran
          exact Names.nil.append (ih rest)
        · obtain ⟨next, emitted, ran⟩ := bind_eq_ok.1 ran
          obtain ⟨later, rest, ran⟩ := bind_eq_ok.1 ran
          cases ran
          exact (emitCommand_names Names.nil emitted).append (ih rest)
    · obtain ⟨added, made, ran⟩ := bind_eq_ok.1 ran
      obtain ⟨next, emitted, ran⟩ := bind_eq_ok.1 ran
      obtain ⟨later, rest, ran⟩ := bind_eq_ok.1 ran
      cases ran
      exact (emitCommand_names (shellCommandFrame_names made) emitted).append (ih rest)

/-- The commands at the end of the arguments name their call. -/
theorem finishShellCommands_names (ran : finishShellCommands serde state arguments = .ok (state', frames)) :
    Names id frames := by
  unfold finishShellCommands at ran
  obtain ⟨-, -, ran⟩ := bind_eq_ok.1 ran
  split at ran
  · cases ran
  · split at ran
    · cases ran
    · obtain ⟨next, finished, ran⟩ := bind_eq_ok.1 ran
      obtain ⟨s, out⟩ := next
      cases ran
      exact finishCommandsFrom_names finished

/-- The opening of a shell call names it. -/
theorem shellAddedFrame_names (made : shellAddedFrame call = .ok frame) :
    Names (publicItemId "sh_" call.item.id) [frame] := by
  refine syntheticEvent_names made ?_
  rintro named ⟨⟩
  rfl

/-- The end of a shell call names it. -/
theorem shellDoneFrame_names (made : shellDoneFrame serde call = .ok frame) :
    Names (publicItemId "sh_" call.item.id) [frame] := by
  unfold shellDoneFrame at made
  split at made
  · cases made
  · rename_i item shown
    obtain ⟨action, -, rfl⟩ := Option.map_eq_some_iff.1 shown
    refine syntheticEvent_names made ?_
    rintro named ⟨⟩
    rfl

/-- What is shown at the end of a shell call names it. -/
theorem finishShellCall_names (ran : finishShellCall serde state call = .ok (state', frames)) :
    Names (publicItemId "sh_" call.item.id) frames := by
  unfold finishShellCall at ran
  split at ran
  · obtain ⟨added, none, ran⟩ := bind_eq_ok.1 ran
    obtain ⟨next, finished, ran⟩ := bind_eq_ok.1 ran
    obtain ⟨s, out⟩ := next
    cases none
    cases ran
    exact finishShellCommands_names finished
  · obtain ⟨added, shown, ran⟩ := bind_eq_ok.1 ran
    obtain ⟨frame, made, rfl⟩ := map_eq_ok.1 shown
    obtain ⟨next, finished, ran⟩ := bind_eq_ok.1 ran
    obtain ⟨s, out⟩ := next
    cases ran
    exact (shellAddedFrame_names made).append (finishShellCommands_names finished)

end

section
variable {state state' : Option ShellCallState} {event : ToolEvent × Option AccumulatedFunctionCall}
  {events : List (ToolEvent × Option AccumulatedFunctionCall)}

/-- A shell call that is started names its public id. -/
theorem ShellCallState.started_names {step : ShellCallState → AccumulatedFunctionCall → ExecutorResult (ShellCallState × List EventFrame)}
    {call : Option AccumulatedFunctionCall} (of : ∀ c, call = some c → c.item.id = id)
    (steps : ∀ s c s' out, step s c = .ok (s', out) → Names (publicItemId "sh_" c.item.id) out)
    (ran : ShellCallState.started state call step = .ok (state', frames)) : Names (publicItemId "sh_" id) frames := by
  cases state with
  | none => cases ran
  | some s =>
    cases call with
    | none =>
      cases ran
      exact Names.nil
    | some c =>
      obtain ⟨next, stepped, same⟩ := map_eq_ok.1 ran
      obtain ⟨s₁, out⟩ := next
      cases same
      obtain rfl := of c rfl
      exact steps s c s₁ frames stepped

/-- What is shown of a shell call names its public id. -/
theorem ShellTranslator.translate_names (of : EventOf id event)
    (ran : ShellTranslator.translate serde state event.1 event.2 = .ok (state', frames)) :
    Names (publicItemId "sh_" id) frames := by
  obtain ⟨event, call⟩ := event
  obtain ⟨of_call, -⟩ := of
  cases event with
  | added item_id name output_index original =>
    cases call with
    | none =>
      cases ran
      exact Names.nil
    | some call =>
      obtain rfl := of_call call rfl
      dsimp only [ShellTranslator.translate] at ran
      obtain ⟨frame, made, same⟩ := map_eq_ok.1 ran
      cases same
      exact shellAddedFrame_names made
  | delta original =>
    exact ShellCallState.started_names of_call (fun s c s' out stepped => incrementalShellCommands_names stepped) ran
  | argumentsDone original =>
    exact ShellCallState.started_names of_call (fun s c s' out stepped => finishShellCall_names stepped) ran
  | done original =>
    refine ShellCallState.started_names of_call ?_ ran
    intro s c s' out stepped
    obtain ⟨next, finished, stepped⟩ := bind_eq_ok.1 stepped
    obtain ⟨s₁, frames₁⟩ := next
    obtain ⟨done, made, stepped⟩ := bind_eq_ok.1 stepped
    cases stepped
    exact (finishShellCall_names finished).append (shellDoneFrame_names made)

/-- Every frame of a shell call that names an id names its public id. -/
theorem ShellTranslator.run_names (of : ∀ event ∈ events, EventOf id event)
    (ran : ShellTranslator.run serde none events = .ok (state', frames)) : Names (publicItemId "sh_" id) frames := by
  refine transduce_emits (P := fun _ => True) (A := EventOf id) ?_ of ran trivial
  intro s event s' out of _ ran
  exact ⟨trivial, ShellTranslator.translate_names of ran⟩

end

end

/-- A call of a lenient round: its place in the output and the lines, each with the ids drawn for it. -/
structure StreamedRound where
  errorText : Json → Text
  sameValue : OutputItem → OutputItem → Bool
  response_id : Text
  conversation_id : Option Text
  lines : List (NewId × Text)
  output_index : Nat

namespace StreamedRound

/-- How the items of the round are read. -/
def items (round : StreamedRound) : ItemSerde := .derived round.errorText round.sameValue

/-- The round before its first line. -/
def start (round : StreamedRound) : ResponseAccumulator := .withValidation round.response_id round.conversation_id .lenient

/-- The accumulator behind these lines. -/
def behind (serde : SerdeJson) (round : StreamedRound) (read : List (NewId × Text)) : ResponseAccumulator :=
  round.start.processLines serde round.items read

/-- The round has not ended; the lines that open and finish the call name its id, and `item` is what it leaves there.
Each event is told the call as it is accumulated behind some of the lines, and the event that opens it is told one. -/
structure Streams (serde : SerdeJson) (round : StreamedRound) (item : OutputItem) (events : List (ToolEvent × Option AccumulatedFunctionCall)) :
    Prop where
  named : ResponseAccumulator.NamesItemAt serde round.items round.start round.lines round.output_index
  final : ∃ slot, (round.behind serde round.lines).slots.get round.output_index = some slot ∧ slot.state.finalize = some item
  told : ∀ event ∈ events, ∃ read, read <+: round.lines ∧ event.2 = (round.behind serde read).accumulatedFunctionCall round.output_index
  opened : ∀ event ∈ events, ∀ item_id name output_index original, event.1 = .added item_id name output_index original →
    event.2.isSome

/-- What the events of a call are told has the id it has at the end. -/
theorem Streams.eventOf {serde : SerdeJson} {round : StreamedRound} {call : FunctionToolCall}
    {events : List (ToolEvent × Option AccumulatedFunctionCall)} (streams : round.Streams serde (.functionCall call) events) :
    ∀ event ∈ events, EventOf call.id event := by
  intro event mem
  obtain ⟨slot, there, finished⟩ := streams.final
  obtain ⟨read, before, told⟩ := streams.told event mem
  refine ⟨?_, ?_⟩
  · intro accumulated here
    exact streams.named.accumulated before (told.symm.trans here) there finished
  · intro none item_id name output_index original opens
    have one := streams.opened event mem item_id name output_index original opens
    rw [none] at one
    cases one

end StreamedRound

/-- The frames the translator of such calls makes of the events. -/
def TranslatedAs (serde : SerdeJson) (front : Text) (events : List (ToolEvent × Option AccumulatedFunctionCall))
    (frames : List EventFrame) : Prop :=
  (front = "ctc_" ∧ ∃ state, CustomTranslator.run serde none events = .ok (state, frames)) ∨
    (front = "sh_" ∧ ∃ state, ShellTranslator.run serde none events = .ok (state, frames))

/-- **Public ids.** Where the upstream ids are distinct, so are the ids shown, exactly if no two clash. Every event of
a call whose lines name its id names the id the response shows. Sent back, an id is restored exactly when it was a
function call's with a suffix, or a bare public prefix. -/
theorem publicIds_exact (serde : SerdeJson) (registry : ToolRegistry) (rounds : List RoundOutput)
    (made : ∀ round ∈ rounds,
      publicOutputItems serde round.output registry round.gateway_results = .ok round.public_output) :
    (((shownItems rounds).filterMap fun p => p.1.id).Nodup →
      (DistinctShown registry (shownItems rounds) ↔ Apart registry (shownItems rounds))) ∧
    ∀ p ∈ shownItems rounds, ∀ front id, restoredFront registry p.1 = some front → p.1.id = some id →
      p.2.id = some (publicItemId front id) ∧
      (∀ round events frames, StreamedRound.Streams serde round p.1 events → TranslatedAs serde front events frames →
        Names (publicItemId front id) frames) ∧
      (replayedId p.2 = some id ↔ (∃ suffix, suffix ≠ [] ∧ id = functionFront ++ suffix) ∨ id = front) := by
  have shown : ∀ p ∈ shownItems rounds, Shown serde registry p.1 p.2 := by
    intro p mem
    obtain ⟨round, round_mem, mem⟩ := List.mem_flatMap.1 mem
    exact publicOutputItems_shown (made round round_mem) p mem
  refine ⟨?_, ?_⟩
  · intro upstream
    constructor
    · exact apart_of_distinctShown shown
    · intro apart
      have distinct := List.pairwise_filterMap.1 upstream
      refine distinct.imp_of_mem ?_
      intro p q p_mem q_mem differ restored
      rcases restored with front_of | front_of
      · obtain ⟨front, front_of⟩ := Option.isSome_iff_exists.1 front_of
        obtain ⟨a, a_id, -⟩ := (shown p p_mem).id_restored front_of
        refine shownIds_apart shown apart p_mem q_mem ?_ front_of
        intro same
        exact differ a a_id a (same ▸ a_id) rfl
      · obtain ⟨front, front_of⟩ := Option.isSome_iff_exists.1 front_of
        obtain ⟨b, b_id, -⟩ := (shown q q_mem).id_restored front_of
        refine (shownIds_apart shown apart q_mem p_mem ?_ front_of).symm
        intro same
        exact differ b (same ▸ b_id) b b_id rfl
  · intro p mem front id front_of p_id
    obtain ⟨id', here, shown_id, replayed⟩ := (shown p mem).id_restored front_of
    obtain rfl := Option.some.inj (p_id.symm.trans here)
    obtain ⟨call, is, rfl⟩ := restoredFront_isCall front_of p_id
    refine ⟨shown_id, ?_, ?_⟩
    · rintro round events frames streams (⟨rfl, state, ran⟩ | ⟨rfl, state, ran⟩)
      · rw [is] at streams
        exact CustomTranslator.run_names streams.eventOf ran
      · rw [is] at streams
        exact ShellTranslator.run_names streams.eventOf ran
    · rw [replayed]
      exact functionCallItemId_publicItemId (restoredFront_public front_of)

namespace StreamedRound

/-- The call a finished round leaves at its place. -/
def finalCall (serde : SerdeJson) (round : StreamedRound) : Option FunctionToolCall :=
  (((round.behind serde round.lines).slots.get round.output_index).bind fun slot => slot.state.finalize).bind fun
    | .functionCall call => some call
    | _ => none

/-- The call at the end of a round is the call of its slot. -/
theorem final_of_finalCall {serde : SerdeJson} {round : StreamedRound} {call : FunctionToolCall}
    (found : round.finalCall serde = some call) :
    ∃ slot, (round.behind serde round.lines).slots.get round.output_index = some slot ∧
      slot.state.finalize = some (.functionCall call) := by
  obtain ⟨item, there, is⟩ := Option.bind_eq_some_iff.1 found
  obtain ⟨slot, at_, finished⟩ := Option.bind_eq_some_iff.1 there
  refine ⟨slot, at_, ?_⟩
  cases item with
  | functionCall call' =>
    cases is
    exact finished
  | _ => cases is

/-- What a translator is told behind the first `n` lines. -/
def told (serde : SerdeJson) (round : StreamedRound) (n : Nat) : Option AccumulatedFunctionCall :=
  (round.behind serde (round.lines.take n)).accumulatedFunctionCall round.output_index

end StreamedRound

/-- A registry with one custom tool. -/
def echoRegistry : ToolRegistry := ⟨[("raw_echo", ⟨.custom, .client, rfl⟩)], []⟩

/-- A call of a custom tool. -/
def echoCallWith (id : Text) : FunctionToolCall := { echoCall with id, arguments := "\x7b\"input\":\"hi\"\x7d" }

/-- A call of the tool, opened under one id and finished under another. -/
def echoLines (id done_id : Text) : List Text :=
  [utf8 "data: \x7b\"type\":\"response.output_item.added\",\"output_index\":0,\"item\":\x7b\"type\":\"function_call\",\"id\":\"" ++ id ++
      utf8 "\",\"call_id\":\"call_1\",\"name\":\"raw_echo\",\"arguments\":\"\"\x7d\x7d",
    "data: \x7b\"type\":\"response.function_call_arguments.delta\",\"output_index\":0,\"delta\":\"\x7b\\\"inp\"\x7d",
    "data: \x7b\"type\":\"response.function_call_arguments.delta\",\"output_index\":0,\"delta\":\"ut\\\":\\\"hi\\\"\x7d\"\x7d",
    "data: \x7b\"type\":\"response.function_call_arguments.done\",\"output_index\":0,\"name\":\"raw_echo\",\"arguments\":\"\x7b\\\"input\\\":\\\"hi\\\"\x7d\"\x7d",
    utf8 "data: \x7b\"type\":\"response.output_item.done\",\"output_index\":0,\"item\":\x7b\"type\":\"function_call\",\"id\":\"" ++ done_id ++
      utf8 "\",\"call_id\":\"call_1\",\"name\":\"raw_echo\",\"arguments\":\"\x7b\\\"input\\\":\\\"hi\\\"\x7d\",\"status\":\"completed\"\x7d\x7d"]

/-- A round with it; a drawn id ends in an `x`. -/
def echoRound (id done_id : Text) : StreamedRound where
  errorText _ := []
  sameValue _ _ := false
  response_id := "resp_1"
  conversation_id := none
  lines := (echoLines id done_id).map fun line => (fun front => front ++ utf8 "x", line)
  output_index := 0

/-- What the translator is told of that call. -/
def echoEvents (round : StreamedRound) : List (ToolEvent × Option AccumulatedFunctionCall) :=
  [(.added "" "raw_echo" 0 none, round.told plainSerde 1), (.delta blankFrame, round.told plainSerde 2),
    (.delta blankFrame, round.told plainSerde 3), (.argumentsDone blankFrame, round.told plainSerde 4),
    (.done blankFrame, round.told plainSerde 5)]

/-- A message. -/
def hello : OutputItem := .message ⟨"msg_1", "assistant", .completed, []⟩

/-- A round with such a call, and one with a call of another provider and a message. -/
def twoRounds : List RoundOutput :=
  [⟨[.functionCall (echoCallWith "fc_a")], [], [CustomHandler.outputItem plainSerde (echoCallWith "fc_a")]⟩,
    ⟨[.functionCall (echoCallWith "provider_item"), hello], [],
      [CustomHandler.outputItem plainSerde (echoCallWith "provider_item"), hello]⟩]

section
variable {round : StreamedRound}

/-- What the translator is told comes of the lines. -/
theorem echoEvents_told : ∀ event ∈ echoEvents round,
    ∃ read, read <+: round.lines ∧ event.2 = (round.behind plainSerde read).accumulatedFunctionCall round.output_index := by
  intro event mem
  simp only [echoEvents, List.mem_cons, List.not_mem_nil, or_false] at mem
  rcases mem with rfl | rfl | rfl | rfl | rfl
  all_goals exact ⟨round.lines.take _, List.take_prefix _ _, rfl⟩

/-- The call is opened under its own id. -/
theorem echoEvents_opened (opens : (round.told plainSerde 1).isSome) : ∀ event ∈ echoEvents round,
    ∀ item_id name output_index original, event.1 = .added item_id name output_index original → event.2.isSome := by
  intro event mem item_id name output_index original is
  simp only [echoEvents, List.mem_cons, List.not_mem_nil, or_false] at mem
  rcases mem with rfl | rfl | rfl | rfl | rfl
  · exact opens
  all_goals cases is

end

/-- The round streams the call. -/
theorem echoRound_streams : (echoRound "fc_a" "fc_a").Streams plainSerde (.functionCall (echoCallWith "fc_a"))
    (echoEvents (echoRound "fc_a" "fc_a")) where
  named := ResponseAccumulator.namesItemAt_sound (by decide +kernel)
  final := StreamedRound.final_of_finalCall (by decide +kernel)
  told := echoEvents_told
  opened := echoEvents_opened (by decide +kernel)

/-- Two rounds with custom calls, whose ids are told apart. -/
theorem publicIds_exact_twoRounds :
    DistinctShown echoRegistry (shownItems twoRounds) ∧ Apart echoRegistry (shownItems twoRounds) ∧
    (∃ frames, TranslatedAs plainSerde "ctc_" (echoEvents (echoRound "fc_a" "fc_a")) frames ∧ frames.length = 4 ∧
      Names "ctc_a" frames) ∧
    replayedId (CustomHandler.outputItem plainSerde (echoCallWith "fc_a")) = some "fc_a" := by
  have made : ∀ round ∈ twoRounds,
      publicOutputItems plainSerde round.output echoRegistry round.gateway_results = .ok round.public_output := by
    intro round mem
    simp only [twoRounds, List.mem_cons, List.not_mem_nil, or_false] at mem
    rcases mem with rfl | rfl <;> rfl
  have ids := publicIds_exact plainSerde echoRegistry twoRounds made
  have distinct : DistinctShown echoRegistry (shownItems twoRounds) := by
    unfold DistinctShown
    decide +kernel
  obtain ⟨-, streamed, replayed⟩ := ids.2 (.functionCall (echoCallWith "fc_a"), CustomHandler.outputItem plainSerde (echoCallWith "fc_a"))
    List.mem_cons_self "ctc_" "fc_a" rfl rfl
  have ran : ((CustomTranslator.run plainSerde none (echoEvents (echoRound "fc_a" "fc_a"))).toOption.map fun out => out.2.length) =
      some 4 := by decide +kernel
  cases run : CustomTranslator.run plainSerde none (echoEvents (echoRound "fc_a" "fc_a")) with
  | error error =>
    rw [run] at ran
    cases ran
  | ok out =>
    rw [run] at ran
    have translated : TranslatedAs plainSerde "ctc_" (echoEvents (echoRound "fc_a" "fc_a")) out.2 := .inl ⟨rfl, out.1, run⟩
    refine ⟨distinct, (ids.1 (by decide)).1 distinct, ⟨out.2, translated, Option.some.inj ran, ?_⟩, ?_⟩
    · exact streamed _ _ _ echoRound_streams translated
    · exact replayed.2 (.inl ⟨"a", by decide, rfl⟩)

/-- The items of a round without gateway calls are shown under these ids. -/
def shownUnder (output : List OutputItem) : Option (List Text) :=
  (publicOutputItems plainSerde output echoRegistry []).toOption.map fun items => items.filterMap OutputItem.id

/-- Two calls with different ids are shown under one: twins, calls with one hash, a call with the hash of the other. So
is a call and an item of another kind. An id with the public prefix and one of another kind do not come back. A call
that is opened without an id streams a drawn one, which is not the id of its finished copy. -/
theorem publicIds_collide :
    (shownUnder [.functionCall (echoCallWith "fc_a"), .functionCall (echoCallWith "ctc_a")] = some [utf8 "ctc_a", utf8 "ctc_a"] ∧
      shownUnder [.functionCall (echoCallWith "8yn0iYCKYHlIj4-BwPqk"), .functionCall (echoCallWith "GReLUrM4wMqfg9yzV3KQ")] =
        some [utf8 "ctc_4eac0c95540867e4", utf8 "ctc_4eac0c95540867e4"] ∧
      shownUnder [.functionCall (echoCallWith "provider_item"), .functionCall (echoCallWith "fc_a9382fab015492d2")] =
        some [utf8 "ctc_a9382fab015492d2", utf8 "ctc_a9382fab015492d2"] ∧
      shownUnder [.functionCall (echoCallWith "fc_a"), .message ⟨"ctc_a", "assistant", .completed, []⟩] =
        some [utf8 "ctc_a", utf8 "ctc_a"]) ∧
    replayedId (CustomHandler.outputItem plainSerde (echoCallWith "provider_item")) = some "fc_a9382fab015492d2" ∧
    replayedId (CustomHandler.outputItem plainSerde (echoCallWith "ctc_a")) = some "fc_a" ∧
    (echoRound "" "fc_b").finalCall plainSerde = some (echoCallWith "fc_b") ∧
    (CustomHandler.outputItem plainSerde (echoCallWith "fc_b")).id = some "ctc_b" ∧
    ((CustomTranslator.run plainSerde none (echoEvents (echoRound "" "fc_b"))).toOption.map fun out =>
      out.2.map EventFrame.namedId) = some (List.replicate 4 (some (utf8 "ctc_x"))) := by
  refine ⟨⟨?_, ?_, ?_, ?_⟩, ?_, ?_, ?_, ?_, ?_⟩
  all_goals decide +kernel

end AgenticStack
