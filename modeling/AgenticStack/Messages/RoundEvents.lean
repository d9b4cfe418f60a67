import AgenticStack.Messages.Splitting

/-!
# A streamed round

What the accumulator has gathered when the events of a turn were pushed, whatever
the order of the blocks' events among one another: the turn's content, its gateway
calls and whether it asks for tools.
-/

namespace AgenticStack.Messages
set_option autoImplicit false
open Library

namespace MessagesStreamAccumulator

/-- The accumulator behind the events. -/
def after (acc : MessagesStreamAccumulator) (events : List Json) : MessagesStreamAccumulator :=
  events.foldl (fun acc event => (acc.pushEvent event).1) acc

/-- What the client is sent for the events. -/
def sentFor (acc : MessagesStreamAccumulator) : List Json → List ClientEvent
  | [] => []
  | event :: events => (acc.pushEvent event).2 ++ (acc.pushEvent event).1.sentFor events

/-- The first event is taken, then the others. -/
theorem after_cons (acc : MessagesStreamAccumulator) (event : Json) (events : List Json) :
    acc.after (event :: events) = (acc.pushEvent event).1.after events := rfl

end MessagesStreamAccumulator

/-- Neither a failure nor the end. -/
def Quiet (event : Json) : Prop := eventType event ≠ some (utf8 "error") ∧ eventType event ≠ some (utf8 "message_stop")

/-- What an event does to the block it is about. -/
def blockStep (map : GatewayToolMap) (buffered : Option BufferedBlock) (event : Json) : Option BufferedBlock :=
  if isStart event then some ⟨event.at_ "content_block", [], isGatewayToolUse map (event.at_ "content_block")⟩
  else if isDelta event then buffered.map (·.applyDelta (event.at_ "delta"))
  else buffered

section
variable {acc : MessagesStreamAccumulator} {event : Json} {events : List Json}

/-- **What a quiet event can be**, with what pushing it does. -/
theorem pushEvent_cases (quiet : Quiet event) :
    (isStart event = true ∧ isDelta event = false ∧ isStop event = false ∧ isMessageDelta event = false ∧
        acc.pushEvent event = acc.onBlockStart event) ∨
    (isStart event = false ∧ isDelta event = true ∧ isStop event = false ∧ isMessageDelta event = false ∧
        acc.pushEvent event = acc.onBlockDelta event) ∨
    (isStart event = false ∧ isDelta event = false ∧ isStop event = true ∧ isMessageDelta event = false ∧
        acc.pushEvent event = acc.onBlockStop event) ∨
    (isStart event = false ∧ isDelta event = false ∧ isStop event = false ∧ isMessageDelta event = true ∧
        acc.pushEvent event = (acc.onMessageDelta event, [])) ∨
    (isStart event = false ∧ isDelta event = false ∧ isStop event = false ∧ isMessageDelta event = false ∧
      (eventType event = some (utf8 "message_start") ∧ acc.pushEvent event = acc.onMessageStart event ∨
        acc.pushEvent event = (acc, []))) := by
  unfold MessagesStreamAccumulator.pushEvent
  by_cases begins : eventType event = some (utf8 "message_start")
  · simp +decide [isStart, isDelta, isStop, isMessageDelta, begins]
  by_cases starts : eventType event = some (utf8 "content_block_start")
  · simp +decide [isStart, isDelta, isStop, isMessageDelta, starts]
  by_cases goes_on : eventType event = some (utf8 "content_block_delta")
  · simp +decide [isStart, isDelta, isStop, isMessageDelta, goes_on]
  by_cases stops : eventType event = some (utf8 "content_block_stop")
  · simp +decide [isStart, isDelta, isStop, isMessageDelta, stops]
  by_cases ends : eventType event = some (utf8 "message_delta")
  · simp +decide [isStart, isDelta, isStop, isMessageDelta, ends]
  · simp [isStart, isDelta, isStop, isMessageDelta, begins, starts, goes_on, stops, ends, quiet.1, quiet.2]

/-- Whether the event stops the message for a tool. -/
def stopsForTools (event : Json) : Bool := decide (((event.at_ "delta").at_ "stop_reason").asStr = some (utf8 "tool_use"))

/-- What a quiet event changes. -/
structure Pushed (acc : MessagesStreamAccumulator) (event : Json) (acc' : MessagesStreamAccumulator) : Prop where
  map : acc'.gateway_map = acc.gateway_map
  active : acc'.round_state = acc.round_state
  blocks : acc'.blocks =
    if isStart event then
      insertEntry acc.blocks (blockIndex event)
        ⟨event.at_ "content_block", [], isGatewayToolUse acc.gateway_map (event.at_ "content_block")⟩
    else if isDelta event then
      match acc.blocks.lookup (blockIndex event) with
      | some buffered => insertEntry acc.blocks (blockIndex event) (buffered.applyDelta (event.at_ "delta"))
      | none => acc.blocks
    else acc.blocks
  client : acc'.has_client_tool_use =
    (acc.has_client_tool_use || (isStart event && isClientToolUse acc.gateway_map (event.at_ "content_block")))
  ended : acc'.ended_on_tool_use = if isMessageDelta event then stopsForTools event else acc.ended_on_tool_use

/-- A tool of the client is one that is not the gateway's. -/
theorem isClientToolUse_eq (map : GatewayToolMap) (block : Json) :
    isClientToolUse map block = (isToolUse block && !isGatewayToolUse map block) := by
  unfold isClientToolUse isGatewayToolUse
  cases isToolUse block with
  | true => rw [Bool.true_and, Bool.true_and, Bool.true_and]
  | false => rfl

/-- An event that goes on is pushed. -/
theorem pushed_of_quiet (quiet : Quiet event) : Pushed acc event (acc.pushEvent event).1 := by
  rcases @pushEvent_cases acc event quiet with ⟨start, delta, _, ended, pushed⟩ | ⟨start, delta, _, ended, pushed⟩ |
    ⟨start, delta, _, ended, pushed⟩ | ⟨start, delta, _, ended, pushed⟩ | ⟨start, delta, _, ended, ⟨_, pushed⟩ | pushed⟩
  · rw [pushed, MessagesStreamAccumulator.onBlockStart]
    have client := isClientToolUse_eq acc.gateway_map (event.at_ "content_block")
    cases gateway : isGatewayToolUse acc.gateway_map (event.at_ "content_block") with
    | true => exact ⟨rfl, rfl, by simp [start, gateway], by simp [client, gateway], by simp [ended]⟩
    | false => exact ⟨rfl, rfl, by simp [start, gateway], by simp [start, client, gateway], by simp [ended]⟩
  · rw [pushed, MessagesStreamAccumulator.onBlockDelta]
    cases found : acc.blocks.lookup (blockIndex event) with
    | none => exact ⟨rfl, rfl, by simp [start, delta, found], by simp [start], by simp [ended]⟩
    | some buffered => exact ⟨rfl, rfl, by simp [start, delta, found], by simp [start], by simp [ended]⟩
  · rw [pushed]
    exact ⟨rfl, rfl, by simp [start, delta, MessagesStreamAccumulator.onBlockStop],
      by simp [start, MessagesStreamAccumulator.onBlockStop], by simp [ended, MessagesStreamAccumulator.onBlockStop]⟩
  · rw [pushed]
    exact ⟨rfl, rfl, by simp [start, delta, MessagesStreamAccumulator.onMessageDelta],
      by simp [start, MessagesStreamAccumulator.onMessageDelta], by simp [ended, MessagesStreamAccumulator.onMessageDelta, stopsForTools]⟩
  · rw [pushed, MessagesStreamAccumulator.onMessageStart]
    cases acc.message_started with
    | true => exact ⟨rfl, rfl, by simp [start, delta], by simp [start], by simp [ended]⟩
    | false => exact ⟨rfl, rfl, by simp [start, delta], by simp [start], by simp [ended]⟩
  · rw [pushed]
    exact ⟨rfl, rfl, by simp [start, delta], by simp [start], by simp [ended]⟩

/-- The blocks keep indexes of their own. -/
theorem nodup_pushEvent (quiet : Quiet event) (once : (acc.blocks.map Prod.fst).Nodup) :
    ((acc.pushEvent event).1.blocks.map Prod.fst).Nodup := by
  rw [(pushed_of_quiet quiet).blocks]
  split
  · exact nodup_insertEntry once
  · split
    · split
      · exact nodup_insertEntry once
      · exact once
    · exact once

/-- An event changes the block it is about, and no other. -/
theorem lookup_pushEvent (quiet : Quiet event) (index : Nat) :
    (acc.pushEvent event).1.blocks.lookup index =
      if about index event then blockStep acc.gateway_map (acc.blocks.lookup index) event else acc.blocks.lookup index := by
  rw [(pushed_of_quiet quiet).blocks]
  unfold about blockStep
  cases start : isStart event with
  | true =>
    by_cases here : blockIndex event = index
    · subst here
      simp [lookup_insertEntry_self]
    · simp only [here, if_true, Bool.true_or, Bool.true_and, decide_false, Bool.false_eq_true, if_false]
      exact lookup_insertEntry_ne fun same => here same.symm
  | false =>
    cases delta : isDelta event with
    | false => simp
    | true =>
      by_cases here : blockIndex event = index
      · subst here
        simp only [Bool.false_eq_true, if_false, if_true, Bool.false_or, Bool.true_or, Bool.true_and, decide_true]
        cases found : acc.blocks.lookup (blockIndex event) with
        | none => exact found
        | some buffered => exact lookup_insertEntry_self
      · simp only [here, Bool.false_eq_true, if_false, if_true, Bool.false_or, Bool.true_or, Bool.true_and, decide_false]
        cases acc.blocks.lookup (blockIndex event) with
        | none => rfl
        | some buffered => exact lookup_insertEntry_ne fun same => here same.symm

/-- Every block that is kept takes fields. -/
def MessagesStreamAccumulator.Solid (acc : MessagesStreamAccumulator) : Prop :=
  ∀ index buffered, acc.blocks.lookup index = some buffered → takesFields buffered.block = true

/-- A block begins as one that takes fields. -/
def OpensSolid (event : Json) : Prop := isStart event = true → takesFields (event.at_ "content_block") = true

/-- A block that takes fields takes them when a text is extended. -/
theorem takesFields_appendStr {block : Json} {field : Text} {fragment : Option Json} (solid : takesFields block = true) :
    takesFields (appendStr block field fragment) = true := by
  unfold appendStr
  split
  · exact solid
  · cases block with
    | obj fields => rfl
    | null => rfl
    | bool b => cases solid
    | num n => cases solid
    | str s => cases solid
    | arr items => cases solid

/-- A block that takes fields takes them after a part of it. -/
theorem takesFields_applyDelta {buffered : BufferedBlock} {delta : Json} (solid : takesFields buffered.block = true) :
    takesFields (buffered.applyDelta delta).block = true := by
  unfold BufferedBlock.applyDelta
  dsimp only
  split
  · exact takesFields_appendStr solid
  · split
    · exact takesFields_appendStr solid
    · split
      · exact takesFields_appendStr solid
      · split
        · exact solid
        · exact solid

/-- The blocks stay solid. -/
theorem MessagesStreamAccumulator.Solid.pushEvent (solid : acc.Solid) (quiet : Quiet event) (opens : OpensSolid event) :
    (acc.pushEvent event).1.Solid := by
  intro index buffered found
  rw [lookup_pushEvent quiet] at found
  split at found
  · unfold blockStep at found
    split at found
    · rename_i start
      cases found
      exact opens start
    · split at found
      · obtain ⟨before, known, rfl⟩ := Option.map_eq_some_iff.1 found
        exact takesFields_applyDelta (solid index before known)
      · exact solid index buffered found
  · exact solid index buffered found

/-- Nothing panics on blocks that take fields. -/
theorem MessagesStreamAccumulator.Solid.stopsAt (solid : acc.Solid) : acc.stopsAt event = false := by
  unfold MessagesStreamAccumulator.stopsAt
  cases found : acc.blocks.lookup (blockIndex event) with
  | none => exact Bool.and_false _
  | some buffered =>
    rw [Option.any_some, BufferedBlock.stopsAt, solid _ buffered found]
    simp

/-- The other fields stay. -/
theorem at_setField_ne {value v : Json} {key other : Text} (apart : other ≠ key) : (setField value key v).at_ other = value.at_ other := by
  cases value with
  | obj fields => exact at_congr (lookup_insertField_ne apart)
  | null => exact congrArg (Option.getD · Json.null) (lookup_cons_ne fun same => apart same.symm)
  | _ => rfl

/-- What the events change together. -/
structure PushedAll (acc : MessagesStreamAccumulator) (events : List Json) (acc' : MessagesStreamAccumulator) : Prop where
  map : acc'.gateway_map = acc.gateway_map
  active : acc'.round_state = acc.round_state
  once : (acc.blocks.map Prod.fst).Nodup → (acc'.blocks.map Prod.fst).Nodup
  lookup : ∀ index, acc'.blocks.lookup index =
    (events.filter (about index)).foldl (blockStep acc.gateway_map) (acc.blocks.lookup index)
  client : acc'.has_client_tool_use = (acc.has_client_tool_use ||
    events.any fun event => isStart event && isClientToolUse acc.gateway_map (event.at_ "content_block"))
  ended : acc'.ended_on_tool_use = ((events.filter isMessageDelta).getLast?.map stopsForTools).getD acc.ended_on_tool_use

/-- Events that go on are pushed one after the other. -/
theorem pushedAll (quiet : ∀ event ∈ events, Quiet event) : PushedAll acc events (acc.after events) := by
  induction events generalizing acc with
  | nil => exact ⟨rfl, rfl, id, fun _ => rfl, by simp [MessagesStreamAccumulator.after], rfl⟩
  | cons event events ih =>
    have first := @pushed_of_quiet acc event (quiet event List.mem_cons_self)
    have rest := @ih (acc.pushEvent event).1 fun later mem => quiet later (List.mem_cons_of_mem _ mem)
    rw [MessagesStreamAccumulator.after_cons]
    refine ⟨rest.map.trans first.map, rest.active.trans first.active, fun once => ?_, fun index => ?_, ?_, ?_⟩
    · exact rest.once (nodup_pushEvent (quiet event List.mem_cons_self) once)
    · rw [rest.lookup, first.map, lookup_pushEvent (quiet event List.mem_cons_self), List.filter_cons]
      cases about index event <;> rfl
    · rw [rest.client, first.map, first.client, List.any_cons, Bool.or_assoc]
    · rw [rest.ended, first.ended, List.filter_cons]
      cases delta : isMessageDelta event with
      | false => rfl
      | true =>
        rw [if_pos rfl, if_pos rfl, List.getLast?_cons]
        cases (events.filter isMessageDelta).getLast? <;> rfl

variable {serde : SerdeJson}

/-- A line is pushed as its event. -/
theorem push_of_event {line : Text} (found : lineEvent serde line = some event) : acc.push serde line = acc.pushEvent event := by
  rw [MessagesStreamAccumulator.push, found]

/-- A part of a block does not open one. -/
theorem not_start_of_isDelta (delta : isDelta event = true) : isStart event = false := by
  rw [isDelta, decide_eq_true_eq] at delta
  rw [isStart, delta]
  decide

/-- The end of a block does not open one. -/
theorem not_start_of_isStop (stop : isStop event = true) : isStart event = false := by
  rw [isStop, decide_eq_true_eq] at stop
  rw [isStart, stop]
  decide

end
end AgenticStack.Messages
