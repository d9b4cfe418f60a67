import AgenticStack.Executor.Translate.ShellRuns
import AgenticStack.Executor.Translate.ShellStart

/-!
# A shell call does not depend on its chunks

Every start of the arguments leaves the translator at some point of the array of
commands, and the end of the call announces what is ahead of that point.
-/

namespace AgenticStack
set_option autoImplicit false
open Library

/-- From `state` the frames lead to `state'`, and announce the commands in between. -/
structure Follows (state state' : ShellCallState) (frames : List EventFrame) : Prop where
  index : state'.output_index = state.output_index
  added : state'.added = state.added
  announced : ∀ past, Announced state.output_index past state.commands state.command_open →
    Announced state.output_index (past ++ frames) state'.commands state'.command_open

variable {p q a command x y : Text} {cursor : Nat} {cs front sent more : List Text} {state state₁ state₂ : ShellCallState}
  {frames fs gs : List EventFrame} {serde : SerdeJson}

/-- A call follows itself. -/
theorem Follows.refl : Follows state state [] := ⟨rfl, rfl, fun past before => by rwa [List.append_nil]⟩

/-- What follows twice follows. -/
theorem Follows.trans (first : Follows state state₁ fs) (second : Follows state₁ state₂ gs) : Follows state state₂ (fs ++ gs) where
  index := by rw [second.index, first.index]
  added := by rw [second.added, first.added]
  announced past before := by
    have mid := first.announced past before
    rw [← first.index] at mid
    have last := second.announced _ mid
    rwa [first.index, List.append_assoc] at last

/-- What the translator has made of the part `p` of the arguments `a`, whose action has the commands `cs`. -/
inductive Reading (cs : List Text) (p a : Text) (state : ShellCallState) : Prop where
  | unlocated (cursor : state.cursor = none) (none : state.commands = []) (closed : state.command_open = false)
      (streaming : state.completion = .streaming)
  | located {c : Nat} (cursor : state.cursor = some c) (within : c ≤ p.length) (standing : Standing cs state (a.drop c))

/-- Where the commands begin does not change as more arrives. -/
theorem shellCommandsStart_append (h : shellCommandsStart p = some cursor) (q : Text) :
    shellCommandsStart (p ++ q) = some cursor := by
  obtain ⟨found, within⟩ := shellCommandsStart_eq_some h
  rw [shellCommandsStart, commandsArray_append found]
  simp only [Option.map_some, Option.some.injEq, List.length_append, List.length_drop]
  omega

/-- More of the arguments has arrived. -/
theorem incrementalShellCommands_ok {action : ShellCallAction} (parsed : ShellCallAction.fromStr serde a = some action)
    (size : a.length ≤ maxPendingFunctionBytes) (split : p ++ q <+: a) (reading : Reading action.commands p a state) :
    ∃ state' frames, incrementalShellCommands serde state (p ++ q) = .ok (state', frames) ∧
      Reading action.commands (p ++ q) a state' ∧ Follows state state' frames := by
  have fits : (p ++ q).length ≤ maxPendingFunctionBytes := Nat.le_trans split.length_le size
  have loop {c : Nat} (within : c ≤ (p ++ q).length) (streaming : state.completion = .streaming)
      (standing : Standing action.commands state (a.drop c)) :
      ∃ state' frames, commandsLoop serde ((p ++ q).length + 1) state (p ++ q) c = .ok (state', frames) ∧
        Reading action.commands (p ++ q) a state' ∧ Follows state state' frames := by
    obtain ⟨state', c', frames, ran, advances⟩ :=
      @commandsLoop_advances _ _ _ _ _ serde ((p ++ q).length + 1) split within (by omega) streaming standing
    refine ⟨_, frames, ran, .located rfl advances.within ?_, advances.index, advances.added, advances.announced⟩
    cases advances.standing with
    | between streaming closed left items => exact .between streaming closed left items
    | within streaming opened announced left text body items => exact .within streaming opened announced left text body items
    | after completion closed all => exact .after completion closed all
  unfold incrementalShellCommands
  simp only [ensureFunctionCallSize_ok fits, bind, Except.bind]
  cases reading with
  | unlocated unset none closed streaming =>
    rw [if_neg (not_not_intro streaming), unset, Option.none_or]
    cases start : shellCommandsStart (p ++ q) with
    | none => exact ⟨state, [], rfl, .unlocated unset none closed streaming, Follows.refl⟩
    | some c =>
      have found := start
      obtain ⟨rest, whole⟩ := split
      obtain ⟨c', r, start', items⟩ := shellCommandsStart_of_action parsed
      have same := shellCommandsStart_append start rest
      rw [whole, start', Option.some.injEq] at same
      subst same
      refine loop (shellCommandsStart_eq_some start).2 streaming
        (@Standing.between _ _ _ action.commands r streaming closed ?_ ?_)
      · rw [none, List.nil_append]
      · rw [none]
        exact items
  | @located c set within standing =>
    have inside : c ≤ (p ++ q).length := by
      rw [List.length_append]
      omega
    by_cases streaming : state.completion = .streaming
    · rw [if_neg (not_not_intro streaming), set, Option.some_or]
      exact loop inside streaming standing
    · rw [if_pos streaming]
      exact ⟨state, [], rfl, .located set inside standing, Follows.refl⟩

/-- A command that was announced is completed. -/
theorem emitCommand_ok (announced : state.commands = front ++ [x]) : ∃ gs,
    emitCommand state front.length (x ++ y) fs =
        .ok ({ state with commands := front ++ [x ++ y], command_open := false }, fs ++ gs) ∧
      ∀ past, Announced state.output_index past (front ++ [x]) true →
        Announced state.output_index (past ++ gs) (front ++ [x ++ y]) false := by
  have here : state.commands.getD front.length [] = x := by rw [announced]; simp
  have set : state.commands.set front.length (x ++ y) = front ++ [x ++ y] := by rw [announced]; simp
  obtain ⟨delta, streamed, growing⟩ := shellCommandFrame_delta state.output_index front.length y
  obtain ⟨done, made, tells⟩ := shellCommandFrame_done state.output_index front.length (x ++ y)
  unfold emitCommand
  rw [here, List.drop_left, set]
  by_cases empty : y = []
  · subst empty
    rw [List.append_nil] at made tells ⊢
    refine ⟨[done], ?_, fun past before => .done before tells⟩
    simp only [if_true, bind, Except.bind, pure, Except.pure, made, List.append_nil]
  · refine ⟨[delta, done], ?_, fun past before => ?_⟩
    · simp only [empty, if_false, streamed, Except.map, bind, Except.bind, pure, Except.pure, made, List.append_assoc]
      rfl
    · have mid := Announced.delta before growing
      have last := Announced.done mid tells
      rwa [List.append_assoc] at last

/-- Commands that are announced already are passed over, the others are announced. -/
theorem finishCommandsFrom_closed (closed : state.command_open = false) (announced : state.commands = front ++ sent) :
    ∃ state' frames, finishCommandsFrom state front.length (sent ++ more) = .ok (state', frames) ∧
      state'.commands = front ++ (sent ++ more) ∧ state'.command_open = false ∧ Follows state state' frames := by
  induction sent generalizing front with
  | cons c sent ih =>
    have here : state.commands[front.length]? = some c := by rw [announced]; simp
    have announced' : state.commands = (front ++ [c]) ++ sent := by rw [announced, List.append_assoc]; rfl
    obtain ⟨state', frames, ran, commands, closed', follows⟩ := ih announced'
    rw [List.length_append, List.length_singleton] at ran
    refine ⟨state', frames, ?_, ?_, closed', follows⟩
    · rw [List.cons_append, finishCommandsFrom, here]
      simp only [closed, bind, Except.bind]
      simp [pure, Except.pure, ran]
    · rw [commands, List.append_assoc]
      rfl
  | nil =>
    rw [List.append_nil] at announced
    rw [List.nil_append]
    induction more generalizing front state with
    | nil => exact ⟨state, [], rfl, by rw [announced, List.append_nil], closed, Follows.refl⟩
    | cons c more ih =>
      have here : state.commands[front.length]? = none := by rw [announced]; simp
      obtain ⟨added, made, tells⟩ := shellCommandFrame_added state.output_index front.length
      generalize opened_eq : ({ state with commands := state.commands ++ [[]] } : ShellCallState) = opened
      have announced' : opened.commands = front ++ [[]] := by rw [← opened_eq, ← announced]
      obtain ⟨gs, emitted, told⟩ := @emitCommand_ok [] c front opened [added] announced'
      rw [List.nil_append] at emitted told
      generalize mid_eq : ({ opened with commands := front ++ [c], command_open := false } : ShellCallState) = mid at emitted
      have commands_mid : mid.commands = front ++ [c] := by rw [← mid_eq]
      have closed_mid : mid.command_open = false := by rw [← mid_eq]
      obtain ⟨state', frames, ran, commands, closed', follows⟩ := ih closed_mid commands_mid
      rw [List.length_append, List.length_singleton] at ran
      have first : Follows state mid ([added] ++ gs) := by
        refine ⟨by rw [← mid_eq, ← opened_eq], by rw [← mid_eq, ← opened_eq], fun past before => ?_⟩
        rw [closed, announced] at before
        rw [commands_mid, closed_mid, ← List.append_assoc]
        have index : opened.output_index = state.output_index := by rw [← opened_eq]
        rw [← index]
        rw [← index] at before tells
        exact told _ (.added before tells)
      refine ⟨state', ([added] ++ gs) ++ frames, ?_, ?_, closed', first.trans follows⟩
      · rw [finishCommandsFrom, here]
        simp only [made, opened_eq, bind, Except.bind, emitted, ran]
        rfl
      · rw [commands, List.append_assoc]
        rfl

/-- The open command is announced to its end, and the others behind it. -/
theorem finishCommandsFrom_open (opened : state.command_open = true) (announced : state.commands = front ++ (sent ++ [x])) :
    ∃ state' frames, finishCommandsFrom state front.length (sent ++ (x ++ y) :: more) = .ok (state', frames) ∧
      state'.commands = front ++ (sent ++ (x ++ y) :: more) ∧ state'.command_open = false ∧ Follows state state' frames := by
  induction sent generalizing front with
  | cons c sent ih =>
    have here : state.commands[front.length]? = some c := by rw [announced]; simp
    have earlier : (front.length + 1 == state.commands.length) = false := by rw [announced]; simp
    have announced' : state.commands = (front ++ [c]) ++ (sent ++ [x]) := by rw [announced, List.append_assoc]; rfl
    obtain ⟨state', frames, ran, commands, closed', follows⟩ := ih announced'
    rw [List.length_append, List.length_singleton] at ran
    refine ⟨state', frames, ?_, ?_, closed', follows⟩
    · rw [List.cons_append, finishCommandsFrom, here]
      simp only [earlier, Bool.and_false, bind, Except.bind]
      simp [pure, Except.pure, ran]
    · rw [commands, List.append_assoc]
      rfl
  | nil =>
    rw [List.nil_append] at announced ⊢
    have here : state.commands[front.length]? = some x := by rw [announced]; simp
    have last : (front.length + 1 == state.commands.length) = true := by rw [announced]; simp
    obtain ⟨gs, emitted, told⟩ := @emitCommand_ok x y front state [] announced
    rw [List.nil_append] at emitted
    generalize mid_eq : ({ state with commands := front ++ [x ++ y], command_open := false } : ShellCallState) = mid at emitted
    have commands_mid : mid.commands = (front ++ [x ++ y]) ++ [] := by rw [← mid_eq, List.append_nil]
    have closed_mid : mid.command_open = false := by rw [← mid_eq]
    obtain ⟨state', frames, ran, commands, closed', follows⟩ := @finishCommandsFrom_closed _ _ more _ closed_mid commands_mid
    rw [List.length_append, List.length_singleton, List.nil_append] at ran
    have first : Follows state mid gs := by
      refine ⟨by rw [← mid_eq], by rw [← mid_eq], fun past before => ?_⟩
      rw [opened, announced] at before
      rw [commands_mid, closed_mid, List.append_nil]
      exact told _ before
    refine ⟨state', gs ++ frames, ?_, ?_, closed', first.trans follows⟩
    · rw [finishCommandsFrom, here]
      simp only [opened, last, bind, Except.bind]
      simp [emitted, ran, pure, Except.pure]
    · rw [commands, List.append_assoc]
      rfl

/-- The end of a call announces exactly what is left of the commands. -/
theorem finishShellCommands_ok {action : ShellCallAction} (parsed : ShellCallAction.fromStr serde a = some action)
    (size : a.length ≤ maxPendingFunctionBytes) (reading : Reading action.commands p a state) :
    ∃ state' frames, finishShellCommands serde state a = .ok (state', frames) ∧ state'.commands = action.commands ∧
      state'.command_open = false ∧ state'.completion = .argumentsDone ∧ Follows state state' frames := by
  -- whatever has been announced is a start of the commands
  obtain ⟨state', frames, ran, commands, closed, follows, fewer, unfinished⟩ :
      ∃ state' frames, finishCommandsFrom state 0 action.commands = .ok (state', frames) ∧ state'.commands = action.commands ∧
        state'.command_open = false ∧ Follows state state' frames ∧ ¬ action.commands.length < state.commands.length ∧
        state.completion ≠ .argumentsDone := by
    have between {more : List Text} (closed : state.command_open = false) (left : action.commands = state.commands ++ more) :
        ∃ state' frames, finishCommandsFrom state 0 action.commands = .ok (state', frames) ∧
          state'.commands = action.commands ∧ state'.command_open = false ∧ Follows state state' frames ∧
          ¬ action.commands.length < state.commands.length := by
      have announced : state.commands = [] ++ state.commands := rfl
      obtain ⟨state', frames, ran, commands, closed', follows⟩ := @finishCommandsFrom_closed _ _ more _ closed announced
      rw [← left] at ran commands
      exact ⟨state', frames, ran, commands, closed', follows, by rw [left, List.length_append]; omega⟩
    cases reading with
    | unlocated _ none closed streaming =>
      obtain ⟨state', frames, ran, commands, closed', follows, fewer⟩ :=
        @between action.commands closed (by rw [none, List.nil_append])
      exact ⟨state', frames, ran, commands, closed', follows, fewer, by simp [streaming]⟩
    | located _ _ standing =>
      cases standing with
      | between streaming closed left =>
        obtain ⟨state', frames, ran, commands, closed', follows, fewer⟩ := between closed left
        exact ⟨state', frames, ran, commands, closed', follows, fewer, by simp [streaming]⟩
      | after completion closed all =>
        obtain ⟨state', frames, ran, commands, closed', follows, fewer⟩ :=
          @between [] closed (by rw [all, List.append_nil])
        exact ⟨state', frames, ran, commands, closed', follows, fewer, by simp [completion]⟩
      | @within sent more x y e t r streaming opened announced left =>
        obtain ⟨state', frames, ran, commands, closed', follows⟩ :=
          @finishCommandsFrom_open x y [] sent more state opened announced
        rw [List.nil_append, ← left] at commands
        rw [List.length_nil, ← left] at ran
        refine ⟨state', frames, ran, commands, closed', follows, ?_, by simp [streaming]⟩
        rw [left, announced]
        simp
  refine ⟨{ state' with completion := .argumentsDone }, frames, ?_, commands, closed, rfl, follows.index, follows.added,
    follows.announced⟩
  unfold finishShellCommands
  simp only [ensureFunctionCallSize_ok size, bind, Except.bind, parsed]
  rw [if_neg (by rintro (longer | ⟨done, -⟩) <;> contradiction), ran]
  rfl

/-- A second end announces nothing more. -/
theorem finishShellCommands_again {action : ShellCallAction} (parsed : ShellCallAction.fromStr serde a = some action)
    (size : a.length ≤ maxPendingFunctionBytes) (commands : state.commands = action.commands)
    (closed : state.command_open = false) :
    ∃ state' frames, finishShellCommands serde state a = .ok (state', frames) ∧ state'.commands = action.commands ∧
      state'.command_open = false ∧ Follows state state' frames := by
  have announced : state.commands = [] ++ action.commands := commands
  obtain ⟨state', frames, ran, commands', closed', follows⟩ := @finishCommandsFrom_closed _ _ [] _ closed announced
  rw [List.append_nil] at ran commands'
  refine ⟨{ state' with completion := .argumentsDone }, frames, ?_, commands', closed', follows.index, follows.added,
    follows.announced⟩
  unfold finishShellCommands
  simp only [ensureFunctionCallSize_ok size, bind, Except.bind, parsed]
  rw [if_neg (by rw [commands]; simp), show finishCommandsFrom state 0 action.commands = _ from ran]
  rfl

section
variable {action : ShellCallAction} {item : FunctionToolCall} {i : Nat}

/-- The deltas of a call show the beginning of its commands. -/
theorem shellRun_deltaEvents {parts : List (EventFrame × Text)} (parsed : ShellCallAction.fromStr serde a = some action)
    (size : a.length ≤ maxPendingFunctionBytes) (split : p ++ shown parts <+: a) (reading : Reading action.commands p a state) :
    ∃ state' frames, ShellTranslator.run serde (some state) (deltaEvents item i p parts) = .ok (some state', frames) ∧
      Reading action.commands (p ++ shown parts) a state' ∧ Follows state state' frames := by
  induction parts generalizing p state with
  | nil =>
    refine ⟨state, [], rfl, ?_, Follows.refl⟩
    rw [shown, List.map_nil, List.flatten_nil, List.append_nil]
    exact reading
  | cons part parts ih =>
    obtain ⟨frame, part⟩ := part
    have cut : p ++ shown ((frame, part) :: parts) = (p ++ part) ++ shown parts := by
      rw [List.append_assoc]
      rfl
    rw [cut] at split ⊢
    have early : p ++ part <+: a := (List.prefix_append _ _).trans split
    obtain ⟨state₁, frames₁, step, reading₁, follows₁⟩ := incrementalShellCommands_ok parsed size early reading
    obtain ⟨state₂, frames₂, rest, reading₂, follows₂⟩ := ih split reading₁
    refine ⟨state₂, frames₁ ++ frames₂, ?_, reading₂, follows₁.trans follows₂⟩
    have now : ShellTranslator.translate serde (some state) (.delta frame) (some (callSoFar item i (p ++ part))) =
        .ok (some state₁, frames₁) := by
      rw [ShellTranslator.translate, ShellCallState.started, callSoFar_arguments, step]
      rfl
    unfold ShellTranslator.run at rest ⊢
    rw [deltaEvents, transduce_cons_ok now, rest]
    rfl

/-- The end of a call that was opened shows the rest of its commands. -/
theorem finishShellCall_added {call : AccumulatedFunctionCall} (added : state.added = true) :
    finishShellCall serde state call = finishShellCommands serde state call.arguments := by
  have same : ({ state with added := true } : ShellCallState) = state := by
    cases state
    simp only [ShellCallState.mk.injEq, and_true]
    exact added.symm
  unfold finishShellCall
  rw [same, if_pos added]
  cases finishShellCommands serde state call.arguments <;> rfl

/-- The item a shell call starts with: it has no command yet. -/
def openedShellItem (item : FunctionToolCall) : Json :=
  .obj [("type", .str "shell_call"), ("id", .str (publicItemId "sh_" item.id)), ("call_id", .str item.call_id),
    ("status", .str "in_progress"),
    ("action", .obj [("commands", .arr []), ("timeout_ms", .null), ("max_output_length", .null)])]

/-- The item a shell call ends with: the action its arguments spell, under the public id of the call. -/
def restoredShellCall (item : FunctionToolCall) (action : ShellCallAction) : ShellCall where
  id := some (publicItemId "sh_" item.id)
  call_id := item.call_id
  action := action
  status := some (ShellCallStatus.ofMessage item.status)
  extra := []

/-- The opening of a call is shown. -/
theorem shellAddedFrame_tells (call : AccumulatedFunctionCall) : ∃ first, shellAddedFrame call = .ok first ∧
    first.Tells .outputItemAdded "response.output_item.added" call.output_index [("item", openedShellItem call.item)] :=
  ⟨_, rfl, syntheticEvent_tells rfl rfl⟩

/-- The finished item depends on the arguments alone. -/
theorem shellDoneFrame_tells (parsed : ShellCallAction.fromStr serde a = some action) :
    ∃ last, shellDoneFrame serde (callComplete item i a) = .ok last ∧
      last.Tells .outputItemDone "response.output_item.done" i [("item", (restoredShellCall item action).toJson)] := by
  have restored : ShellHandler.outputItemWithStatus serde (callComplete item i a).item
      (ShellCallStatus.ofMessage (callComplete item i a).item.status) = some (restoredShellCall item action) := by
    unfold ShellHandler.outputItemWithStatus
    rw [show (callComplete item i a).item.arguments = a from rfl, parsed]
    rfl
  unfold shellDoneFrame
  rw [restored]
  exact ⟨_, rfl, syntheticEvent_tells rfl rfl⟩

/-- The end of a call shows its commands and the call itself. -/
theorem shellRun_done {frames : List EventFrame} {last : EventFrame} (done : EventFrame) (added : state.added = true)
    (finish : finishShellCommands serde state a = .ok (state₁, frames))
    (made : shellDoneFrame serde (callComplete item i a) = .ok last) :
    ShellTranslator.run serde (some state) [(.done done, some (callComplete item i a))] =
      .ok (some state₁, frames ++ [last]) := by
  have now : ShellTranslator.translate serde (some state) (.done done) (some (callComplete item i a)) =
      .ok (some state₁, frames ++ [last]) := by
    rw [ShellTranslator.translate, ShellCallState.started, finishShellCall_added added, callComplete_arguments, finish]
    simp only [bind, Except.bind, made]
    rfl
  rw [ShellTranslator.run, transduce_cons_ok now]
  simp only [transduce_nil, Except.map, List.append_nil]

/-- The events that end a call show the rest of its commands. -/
theorem shellRun_endEvents {argumentsDone : Option EventFrame} {last : EventFrame} (done : EventFrame)
    (parsed : ShellCallAction.fromStr serde a = some action) (size : a.length ≤ maxPendingFunctionBytes)
    (reading : Reading action.commands p a state) (added : state.added = true)
    (made : shellDoneFrame serde (callComplete item i a) = .ok last) :
    ∃ state' frames, ShellTranslator.run serde (some state) (endEvents item i a argumentsDone done) =
        .ok (some state', frames ++ [last]) ∧
      state'.commands = action.commands ∧ state'.command_open = false ∧ Follows state state' frames := by
  obtain ⟨state₁, frames₁, finish, commands₁, closed₁, -, follows₁⟩ := finishShellCommands_ok parsed size reading
  cases argumentsDone with
  | none => exact ⟨state₁, frames₁, shellRun_done done added finish made, commands₁, closed₁, follows₁⟩
  | some frame =>
    obtain ⟨state₂, frames₂, finish₂, commands₂, closed₂, follows₂⟩ :=
      finishShellCommands_again parsed size commands₁ closed₁
    have added₁ : state₁.added = true := by rw [follows₁.added, added]
    have ran := shellRun_done done added₁ finish₂ made
    have now : ShellTranslator.translate serde (some state) (.argumentsDone frame) (some (callComplete item i a)) =
        .ok (some state₁, frames₁) := by
      rw [ShellTranslator.translate, ShellCallState.started, finishShellCall_added added, callComplete_arguments, finish]
      rfl
    refine ⟨state₂, frames₁ ++ frames₂, ?_, commands₂, closed₂, follows₁.trans follows₂⟩
    unfold ShellTranslator.run at ran ⊢
    simp only [endEvents, Option.toList_some, List.map_cons, List.map_nil, List.cons_append, List.nil_append]
    rw [transduce_cons_ok now, ran, List.append_assoc]
    rfl

end

/-- What the client sees of a shell call: the item `opened` is added, its commands are announced one after the other,
and the item is done as `call`. -/
def StreamsCommands (serde : SerdeJson) (events : List (ToolEvent × Option AccumulatedFunctionCall)) (output_index : Nat)
    (opened : Json) (commands : List Text) (call : ShellCall) : Prop :=
  ∃ state first frames last, ShellTranslator.run serde none events = .ok (state, first :: (frames ++ [last])) ∧
    first.Tells .outputItemAdded "response.output_item.added" output_index [("item", opened)] ∧
    Announced output_index frames commands false ∧
    last.Tells .outputItemDone "response.output_item.done" output_index [("item", call.toJson)]

/-- The events of a call stream its commands, whatever the split. -/
theorem callEvents_streamsCommands {action : ShellCallAction} {parts : List (EventFrame × Text)}
    (item : FunctionToolCall) (started : AccumulatedFunctionCall) (added argumentsDone : Option EventFrame) (done : EventFrame)
    (parsed : ShellCallAction.fromStr serde a = some action) (size : a.length ≤ maxPendingFunctionBytes)
    (split : shown parts <+: a) :
    StreamsCommands serde (callEvents item started added parts a argumentsDone done) started.output_index
      (openedShellItem started.item) action.commands (restoredShellCall item action) := by
  obtain ⟨first, opened, starts⟩ := shellAddedFrame_tells started
  obtain ⟨last, made, ends⟩ := @shellDoneFrame_tells _ serde action item started.output_index parsed
  generalize fresh : ShellCallState.mk true started.output_index [] none false .streaming = state₀
  have now : ShellTranslator.translate serde none (.added item.id item.name started.output_index added) (some started) =
      .ok (some state₀, [first]) := by
    rw [ShellTranslator.translate, ← fresh]
    simp only [opened]
    rfl
  have reading₀ : Reading action.commands [] a state₀ := by
    rw [← fresh]
    exact .unlocated rfl rfl rfl rfl
  obtain ⟨state₁, frames₁, ran₁, reading₁, follows₁⟩ := @shellRun_deltaEvents [] a state₀ serde action item
    started.output_index parts parsed size split reading₀
  have added₁ : state₁.added = true := by rw [follows₁.added, ← fresh]
  obtain ⟨state₂, frames₂, ran₂, commands, closed, follows₂⟩ :=
    @shellRun_endEvents _ _ _ serde action item started.output_index argumentsDone last done parsed size reading₁ added₁ made
  have all := follows₁.trans follows₂
  have announced := all.announced [] (by rw [← fresh]; exact .nil)
  rw [commands, closed, List.nil_append, ← fresh] at announced
  refine ⟨some state₂, first, frames₁ ++ frames₂, last, ?_, starts, announced, ends⟩
  unfold ShellTranslator.run at ran₁ ran₂ ⊢
  rw [callEvents_eq, transduce_cons_ok now, transduce_append_ok ran₁, ran₂, List.append_assoc]
  rfl

/-- **A shell call does not depend on how its arguments are cut.** Whatever part of them the deltas have
shown, in whatever pieces, the commands of the action are announced one after the other, each once with its index, and
the call is done with the item it is done with when the arguments come as a whole. -/
theorem shellStream_chunks (serde : SerdeJson) (item : FunctionToolCall) (started : AccumulatedFunctionCall)
    (added argumentsDone : Option EventFrame) (done : EventFrame) (parts : List (EventFrame × Text)) (a : Text)
    (action : ShellCallAction) (parsed : ShellCallAction.fromStr serde a = some action)
    (size : a.length ≤ maxPendingFunctionBytes) (split : shown parts <+: a) :
    StreamsCommands serde (callEvents item started added parts a argumentsDone done) started.output_index
        (openedShellItem started.item) action.commands (restoredShellCall item action) ∧
      StreamsCommands serde (callEvents item started added [] a none done) started.output_index
        (openedShellItem started.item) action.commands (restoredShellCall item action) := by
  have none_shown : shown [] <+: a := List.nil_prefix
  exact ⟨callEvents_streamsCommands item started added argumentsDone done parsed size split,
    callEvents_streamsCommands item started added none done parsed size none_shown⟩

/-- Cuts inside a key, an escape and a number, with fields on both sides of the array. -/
theorem shellStream_chunks_cut :
    StreamsCommands plainSerde
        (callEvents echoCall (callSoFar echoCall 0 []) none
          [(blankFrame, "\x7b\"timeout_ms\":1"), (blankFrame, "2, \"comm"), (blankFrame, "ands\":[\"h\\u00"),
            (blankFrame, "e9\",\"pwd\"],\"x\":[1]\x7d")]
          "\x7b\"timeout_ms\":12, \"commands\":[\"h\\u00e9\",\"pwd\"],\"x\":[1]\x7d" (some blankFrame) blankFrame)
        0 (openedShellItem echoCall) ["h\u00e9", "pwd"]
        (restoredShellCall echoCall ⟨["h\u00e9", "pwd"], some 12, none, [("x", .arr [.num (.posInt 1)])]⟩) ∧
      StreamsCommands plainSerde
        (callEvents echoCall (callSoFar echoCall 0 []) none []
          "\x7b\"timeout_ms\":12, \"commands\":[\"h\\u00e9\",\"pwd\"],\"x\":[1]\x7d" none blankFrame)
        0 (openedShellItem echoCall) ["h\u00e9", "pwd"]
        (restoredShellCall echoCall ⟨["h\u00e9", "pwd"], some 12, none, [("x", .arr [.num (.posInt 1)])]⟩) :=
  shellStream_chunks plainSerde echoCall (callSoFar echoCall 0 []) none (some blankFrame) blankFrame _ _
    ⟨["h\u00e9", "pwd"], some 12, none, [("x", .arr [.num (.posInt 1)])]⟩ rfl (by decide) (by decide)

end AgenticStack
