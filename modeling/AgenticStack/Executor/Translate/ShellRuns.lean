import AgenticStack.Executor.Translate.Shell
import AgenticStack.Executor.Translate.CustomRuns
import AgenticStack.Library.JsonReaders

/-!
# What a shell call announces

The cursor of a shell call stands in the array of the action's commands. What
is behind it has been announced, what is ahead still reads as the rest of the
commands, whatever part of it has arrived.
-/

namespace AgenticStack
set_option autoImplicit false
open Library

/-- The frames announce the commands one after the other: each is added once, streamed in deltas and
then done, and the next is added after that. The last command is still `isOpen`. -/
inductive Announced (output_index : Nat) : List EventFrame → List Text → Bool → Prop where
  | nil : Announced output_index [] [] false
  | added {frames : List EventFrame} {cs : List Text} {frame : EventFrame} : Announced output_index frames cs false →
      frame.Tells .shellCallCommandAdded "response.shell_call_command.added" output_index
        [("command_index", .num (.posInt cs.length)), ("command", .str [])] →
      Announced output_index (frames ++ [frame]) (cs ++ [[]]) true
  | delta {frames : List EventFrame} {cs : List Text} {c d : Text} {frame : EventFrame} :
      Announced output_index frames (cs ++ [c]) true →
      frame.Tells .shellCallCommandDelta "response.shell_call_command.delta" output_index
        [("command_index", .num (.posInt cs.length)), ("delta", .str d)] →
      Announced output_index (frames ++ [frame]) (cs ++ [c ++ d]) true
  | done {frames : List EventFrame} {cs : List Text} {c : Text} {frame : EventFrame} :
      Announced output_index frames (cs ++ [c]) true →
      frame.Tells .shellCallCommandDone "response.shell_call_command.done" output_index
        [("command_index", .num (.posInt cs.length)), ("command", .str c)] →
      Announced output_index (frames ++ [frame]) (cs ++ [c]) false

/-- The opening of a command is shown. -/
theorem shellCommandFrame_added (i n : Nat) : ∃ frame, shellCommandFrame .shellCallCommandAdded i n [] = .ok frame ∧
    frame.Tells .shellCallCommandAdded "response.shell_call_command.added" i
      [("command_index", .num (.posInt n)), ("command", .str [])] :=
  ⟨_, rfl, syntheticEvent_tells rfl rfl⟩

/-- A part of a command is shown. -/
theorem shellCommandFrame_delta (i n : Nat) (d : Text) : ∃ frame, shellCommandFrame .shellCallCommandDelta i n d = .ok frame ∧
    frame.Tells .shellCallCommandDelta "response.shell_call_command.delta" i
      [("command_index", .num (.posInt n)), ("delta", .str d)] :=
  ⟨_, rfl, syntheticEvent_tells rfl rfl⟩

/-- The end of a command is shown. -/
theorem shellCommandFrame_done (i n : Nat) (c : Text) : ∃ frame, shellCommandFrame .shellCallCommandDone i n c = .ok frame ∧
    frame.Tells .shellCallCommandDone "response.shell_call_command.done" i
      [("command_index", .num (.posInt n)), ("command", .str c)] :=
  ⟨_, rfl, syntheticEvent_tells rfl rfl⟩

/-- From the cursor on, `V` has arrived of the arguments, and `U` is what they will be. -/
structure View (p a : Text) (cursor : Nat) (V U : Text) : Prop where
  seen : p.drop cursor = V
  whole : a.drop cursor = U
  within : cursor ≤ p.length

variable {p a V U : Text} {cursor : Nat}

/-- The view moves on. -/
theorem View.advance {x : Text} (view : View p a cursor (x ++ V) (x ++ U)) : View p a (cursor + x.length) V U where
  seen := by rw [← List.drop_drop, view.seen, List.drop_left]
  whole := by rw [← List.drop_drop, view.whole, List.drop_left]
  within := by
    have len := congrArg List.length view.seen
    have within := view.within
    rw [List.length_drop, List.length_append] at len
    omega

/-- The next byte is the next of what is left. -/
theorem View.getElem? (view : View p a cursor V U) : p[cursor]? = V.head? := by
  rw [← view.seen, List.head?_drop]

/-- What is visible is the beginning of what is left. -/
theorem View.isPrefix (front : p <+: a) (view : View p a cursor V U) : V <+: U := by
  obtain ⟨hidden, rfl⟩ := front
  rw [← view.seen, ← view.whole, List.drop_append_of_le_length view.within]
  exact List.prefix_append _ _

/-- What is a space to JSON is a space. -/
theorem isAsciiWhitespace_of_isJsonSpace {b : UInt8} (h : isJsonSpace b = true) : isAsciiWhitespace b = true := by
  unfold isJsonSpace at h
  unfold isAsciiWhitespace
  grind

/-- The blanks before a hard byte are skipped. -/
theorem takeWhile_blank {w rest : Text} {b : UInt8} (blank : Blank w) (hard : isAsciiWhitespace b = false) :
    (w ++ b :: rest).takeWhile isAsciiWhitespace = w := by
  induction w with
  | nil => simp [hard]
  | cons x w ih =>
    have now := isAsciiWhitespace_of_isJsonSpace (blank x (by simp))
    rw [List.cons_append, List.takeWhile_cons, now, if_pos rfl, ih fun y mem => blank y (by simp [mem])]

/-- Blanks are skipped. -/
theorem takeWhile_all_blank (blank : Blank V) : V.takeWhile isAsciiWhitespace = V := by
  induction V with
  | nil => rfl
  | cons x V ih =>
    have now := isAsciiWhitespace_of_isJsonSpace (blank x (by simp))
    rw [List.takeWhile_cons, now, if_pos rfl, ih fun y mem => blank y (by simp [mem])]

/-- Where the cursor stands once the white space that has arrived is skipped. -/
theorem View.skip {w rest : Text} {b : UInt8} (front : p <+: a) (view : View p a cursor V (w ++ b :: rest)) (blank : Blank w)
    (hard : isAsciiWhitespace b = false) :
    (∃ w', Blank w' ∧ View p a (skipAsciiWhitespace p cursor) [] (w' ++ b :: rest)) ∨
      ∃ V', V' <+: rest ∧ View p a (skipAsciiWhitespace p cursor) (b :: V') (b :: rest) := by
  unfold skipAsciiWhitespace
  rw [view.seen]
  rcases prefix_blank_cases (view.isPrefix front) with ⟨w', rfl⟩ | ⟨V', rfl, later⟩
  · refine .inl ⟨w', blank.right, ?_⟩
    rw [takeWhile_all_blank blank.left]
    have split : View p a cursor (V ++ []) (V ++ (w' ++ b :: rest)) := by
      rw [List.append_nil, ← List.append_assoc]
      exact view
    exact split.advance
  · refine .inr ⟨V', later, ?_⟩
    rw [takeWhile_blank blank hard]
    exact view.advance

/-- The text `U` from the cursor on reads as what is left of the commands `cs`. -/
inductive Standing (cs : List Text) (state : ShellCallState) (U : Text) : Prop where
  | between {more : List Text} {r : Text} (streaming : state.completion = .streaming) (closed : state.command_open = false)
      (left : cs = state.commands ++ more) (items : StringItems state.commands.isEmpty U more r)
  | within {done more : List Text} {x y e t r : Text} (streaming : state.completion = .streaming)
      (opened : state.command_open = true) (announced : state.commands = done ++ [x]) (left : cs = done ++ (x ++ y) :: more)
      (text : U = e ++ 0x22 :: t) (body : Decodes e y) (items : StringItems false t more r)
  | after (completion : state.completion = .arrayDone) (closed : state.command_open = false) (all : state.commands = cs)

/-- From `state` at `cursor` the frames lead to `state'` at `cursor'`. -/
structure Advances (p a : Text) (cs : List Text) (state : ShellCallState) (cursor : Nat) (state' : ShellCallState)
    (cursor' : Nat) (frames : List EventFrame) : Prop where
  forward : cursor ≤ cursor'
  within : cursor' ≤ p.length
  standing : Standing cs state' (a.drop cursor')
  index : state'.output_index = state.output_index
  added : state'.added = state.added
  announced : ∀ past, Announced state.output_index past state.commands state.command_open →
    Announced state.output_index (past ++ frames) state'.commands state'.command_open

variable {cs : List Text} {state : ShellCallState} {serde : SerdeJson}

/-- What advances twice advances. -/
theorem Advances.trans {state₁ state₂ : ShellCallState} {c₁ c₂ : Nat} {fs gs : List EventFrame}
    (first : Advances p a cs state cursor state₁ c₁ fs) (second : Advances p a cs state₁ c₁ state₂ c₂ gs) :
    Advances p a cs state cursor state₂ c₂ (fs ++ gs) where
  forward := Nat.le_trans first.forward second.forward
  within := second.within
  standing := second.standing
  index := by rw [second.index, first.index]
  added := by rw [second.added, first.added]
  announced past before := by
    have mid := first.announced past before
    rw [← first.index] at mid
    have last := second.announced _ mid
    rwa [first.index, List.append_assoc] at last

/-- A command whose opening quote has arrived is added. -/
theorem openCommand_quote {c : Nat} {e y t r : Text} {more : List Text} (there : View p a c (0x22 :: V) (0x22 :: (e ++ 0x22 :: t)))
    (ready : beforeCommand state p cursor = .ok (state, c, true)) (forward : cursor ≤ c)
    (streaming : state.completion = .streaming) (closed : state.command_open = false)
    (left : cs = state.commands ++ y :: more) (body : Decodes e y) (later : StringItems false t more r) :
    ∃ state' frame, openCommand state p cursor = .ok (state', c + 1, [frame], true) ∧
      Advances p a cs state cursor state' (c + 1) [frame] ∧ state'.completion = .streaming ∧ state'.command_open = true := by
  have quote : p[c]? = some 0x22 := by rw [there.getElem?]; rfl
  have past : View p a (c + 1) V (e ++ 0x22 :: t) := @View.advance _ _ _ _ _ [0x22] there
  obtain ⟨frame, made, tells⟩ := shellCommandFrame_added state.output_index state.commands.length
  refine ⟨{ state with commands := state.commands ++ [[]], command_open := true }, frame, ?_, ?_, streaming, rfl⟩
  · unfold openCommand
    simp only [ready, quote, if_true, made]
    rfl
  · refine ⟨by omega, past.within, ?_, rfl, rfl, ?_⟩
    · exact .within streaming rfl rfl left (past.whole) body later
    · intro before announced
      rw [closed] at announced
      exact .added announced tells

/-- The loop stops before a command, or opens it. -/
theorem openCommand_advances {more : List Text} {r : Text} (front : p <+: a) (view : View p a cursor V U)
    (streaming : state.completion = .streaming) (closed : state.command_open = false) (left : cs = state.commands ++ more)
    (items : StringItems state.commands.isEmpty U more r) :
    ∃ state' cursor' frames goOn, openCommand state p cursor = .ok (state', cursor', frames, goOn) ∧
      Advances p a cs state cursor state' cursor' frames ∧
      (goOn = true → cursor < cursor' ∧ state'.completion = .streaming ∧ state'.command_open = true) := by
  -- the loop stops where the rest of the commands still lies ahead
  have stops {c : Nat} {V' U' : Text} (there : View p a c V' U') (forward : cursor ≤ c)
      (ahead : StringItems state.commands.isEmpty U' more r) : Advances p a cs state cursor state c [] :=
    ⟨forward, there.within, .between streaming closed left (there.whole ▸ ahead), rfl, rfl,
      fun past before => by rwa [List.append_nil]⟩
  have forward : cursor ≤ skipAsciiWhitespace p cursor := Nat.le_add_right _ _
  generalize fresh : state.commands.isEmpty = first at items stops
  cases items with
  | close blank =>
    rcases view.skip front blank (by decide) with ⟨w', blank', there⟩ | ⟨V', -, there⟩
    · refine ⟨state, skipAsciiWhitespace p cursor, [], false, ?_, stops there forward (.close blank'), by simp⟩
      have nothing : p[skipAsciiWhitespace p cursor]? = none := by rw [there.getElem?]; rfl
      unfold openCommand beforeCommand
      by_cases none : state.commands = [] <;> simp [none, nothing]
    · have bracket : p[skipAsciiWhitespace p cursor]? = some 0x5d := by rw [there.getElem?]; rfl
      refine ⟨{ state with completion := .arrayDone }, skipAsciiWhitespace p cursor, [], false, ?_, ?_, by simp⟩
      · unfold openCommand beforeCommand
        by_cases none : state.commands = [] <;> simp [none, bracket]
      · refine ⟨forward, there.within, .after rfl closed ?_, rfl, rfl, fun past before => by rwa [List.append_nil]⟩
        rw [left, List.append_nil]
  | first blank body later =>
    have none : state.commands = [] := List.isEmpty_iff.1 fresh
    rcases view.skip front blank (by decide) with ⟨w', blank', there⟩ | ⟨V', -, there⟩
    · refine ⟨state, skipAsciiWhitespace p cursor, [], false, ?_, stops there forward (.first blank' body later), by simp⟩
      have nothing : p[skipAsciiWhitespace p cursor]? = Option.none := by rw [there.getElem?]; rfl
      unfold openCommand beforeCommand
      simp [none, nothing]
    · have quote : p[skipAsciiWhitespace p cursor]? = some 0x22 := by rw [there.getElem?]; rfl
      have ready : beforeCommand state p cursor = .ok (state, skipAsciiWhitespace p cursor, true) := by
        unfold beforeCommand
        simp [none, quote]
      obtain ⟨state', frame, ran, advances, streaming', opened⟩ :=
        openCommand_quote there ready forward streaming closed left body later
      exact ⟨state', _, [frame], true, ran, advances, fun _ => ⟨by omega, streaming', opened⟩⟩
  | @next w w' e c t _ _ blank blank' body later =>
    have some_ : state.commands ≠ [] := by
      intro none
      simp [none] at fresh
    rcases view.skip front blank (by decide) with ⟨w₁, blank₁, there⟩ | ⟨V₁, prefix_, there⟩
    · refine ⟨state, skipAsciiWhitespace p cursor, [], false, ?_, stops there forward (.next blank₁ blank' body later), by simp⟩
      have nothing : p[skipAsciiWhitespace p cursor]? = none := by rw [there.getElem?]; rfl
      unfold openCommand beforeCommand
      simp [some_, nothing]
    · have comma : p[skipAsciiWhitespace p cursor]? = some 0x2c := by rw [there.getElem?]; rfl
      have past : View p a (skipAsciiWhitespace p cursor + 1) V₁ (w' ++ 0x22 :: (e ++ 0x22 :: t)) :=
        @View.advance _ _ _ _ _ [0x2c] there
      rcases prefix_blank_cases prefix_ with ⟨w₂, cut⟩ | ⟨V₂, shape, -⟩
      · -- nothing follows the separator yet: it is not consumed
        have blank₁ : Blank V₁ := by
          rw [cut] at blank'
          exact blank'.left
        have empty : trimStart (p.drop (skipAsciiWhitespace p cursor + 1)) = [] := by
          rw [past.seen, ← List.append_nil V₁, trimStart_blank blank₁]
          rfl
        have ahead : StringItems false ([] ++ 0x2c :: (w' ++ 0x22 :: (e ++ 0x22 :: t))) _ r :=
          .next Blank.nil blank' body later
        refine ⟨state, skipAsciiWhitespace p cursor, [], false, ?_, stops there forward ahead, by simp⟩
        unfold openCommand beforeCommand
        simp [some_, comma, empty]
      · have rest : trimStart (p.drop (skipAsciiWhitespace p cursor + 1)) = 0x22 :: V₂ := by
          rw [past.seen, shape, trimStart_blank blank']
          exact trimStart_of_none (dropSpace_of_hard (by decide))
        rw [shape] at past
        have there' := past.advance
        have len : skipAsciiWhitespace p cursor + 1 + w'.length = p.length - (0x22 :: V₂).length := by
          have total := congrArg List.length there'.seen
          rw [List.length_drop, List.length_cons] at total
          have within := there'.within
          simp only [List.length_cons]
          omega
        rw [len] at there'
        have ready : beforeCommand state p cursor = .ok (state, p.length - (0x22 :: V₂).length, true) := by
          unfold beforeCommand
          simp [some_, comma, rest]
        have forward' : cursor ≤ p.length - (0x22 :: V₂).length := by omega
        obtain ⟨state', frame, ran, advances, streaming', opened⟩ :=
          openCommand_quote there' ready forward' streaming closed left body later
        exact ⟨state', _, [frame], true, ran, advances, fun _ => ⟨by omega, streaming', opened⟩⟩

/-- The last command is changed. -/
theorem modify_last {α : Type} (done : List α) (x : α) (f : α → α) : (done ++ [x]).modify done.length f = done ++ [f x] := by
  induction done with
  | nil => rfl
  | cons y done ih => rw [List.cons_append, List.length_cons, List.modify_succ_cons, ih, List.cons_append]

/-- What has arrived of the open command is streamed; with its closing quote it is done. -/
theorem readCommand_advances {done more : List Text} {x y e t r : Text} (front : p <+: a) (view : View p a cursor V (e ++ 0x22 :: t))
    (streaming : state.completion = .streaming) (opened : state.command_open = true)
    (announced : state.commands = done ++ [x]) (left : cs = done ++ (x ++ y) :: more) (body : Decodes e y)
    (later : StringItems false t more r) :
    ∃ state' cursor' frames goOn, readCommand serde state p cursor = .ok (state', cursor', frames, goOn) ∧
      Advances p a cs state cursor state' cursor' frames ∧
      (goOn = true → cursor < cursor' ∧ state'.completion = .streaming) := by
  obtain ⟨y₁, y₂, e₂, rfl, rfl, arrived, rest, closes⟩ := body.arrived (view.isPrefix front)
  have within := view.within
  have inside : ¬ p.length < cursor := by omega
  have last : state.commands.length - 1 = done.length := by rw [announced]; simp
  generalize len : scanBody V = n at *
  have le : n ≤ V.length := len ▸ scanBody_le
  -- the state and cursor once the complete part of the command is emitted
  obtain ⟨state₁, frames₁, extended, streaming₁, opened₁, announced₁, index₁, added₁, told₁⟩ :
      ∃ state₁ frames₁, extendCommand serde state p cursor = .ok (state₁, cursor + n, frames₁) ∧
        state₁.completion = .streaming ∧ state₁.command_open = true ∧ state₁.commands = done ++ [x ++ y₁] ∧
        state₁.output_index = state.output_index ∧ state₁.added = state.added ∧
        ∀ past, Announced state.output_index past (done ++ [x]) true →
          Announced state.output_index (past ++ frames₁) (done ++ [x ++ y₁]) true := by
    unfold extendCommand completeJsonStringPrefix
    simp only [view.seen, len]
    by_cases none : n = 0
    · subst none
      rw [List.take_zero] at arrived
      have empty : y₁ = [] := arrived.unique .nil
      subst empty
      refine ⟨state, [], ?_, streaming, opened, by rw [announced, List.append_nil], rfl, rfl, fun past before => ?_⟩
      · simp
      · rwa [List.append_nil, List.append_nil]
    · obtain ⟨frame, made, tells⟩ := shellCommandFrame_delta state.output_index done.length y₁
      refine ⟨{ state with commands := state.commands.modify done.length (· ++ y₁) }, [frame], ?_, streaming, opened, ?_, rfl,
        rfl, fun past before => .delta before tells⟩
      · simp only [none, if_false, decodeBody_eq_some_iff.2 arrived, last, made]
        rfl
      · show state.commands.modify done.length (· ++ y₁) = _
        rw [announced, modify_last]
  have view₁ : View p a (cursor + n) (V.drop n) (e₂ ++ 0x22 :: t) := by
    have split : View p a cursor (V.take n ++ V.drop n) (V.take n ++ (e₂ ++ 0x22 :: t)) := by
      rw [List.take_append_drop, ← List.append_assoc]
      exact view
    have ahead := split.advance
    rwa [List.length_take, Nat.min_eq_left le] at ahead
  have last₁ : state₁.commands.length - 1 = done.length := by rw [announced₁]; simp
  unfold readCommand
  simp only [inside, if_false, extended]
  by_cases quote : p[cursor + n]? = some 0x22
  · have head : (V.drop n).head? = some 0x22 := by rw [← view₁.getElem?]; exact quote
    have empty := closes head
    subst empty
    have nothing : y₂ = [] := rest.unique .nil
    subst nothing
    obtain ⟨V', shape⟩ := List.head?_eq_some_iff.1 head
    rw [shape] at view₁
    have view₂ : View p a (cursor + n + 1) V' t := @View.advance _ _ _ _ _ [0x22] view₁
    obtain ⟨frame, made, tells⟩ := shellCommandFrame_done state.output_index done.length (x ++ y₁)
    have command : state₁.commands.getD done.length [] = x ++ y₁ := by rw [announced₁]; simp
    refine ⟨{ state₁ with command_open := false }, cursor + n + 1, frames₁ ++ [frame], true, ?_, ?_,
      fun _ => ⟨by omega, streaming₁⟩⟩
    · simp only [quote, if_true, last₁, command, index₁, made]
      rfl
    · refine ⟨by omega, view₂.within, ?_, index₁, added₁, fun past before => ?_⟩
      · have closed : (state₁.commands).isEmpty = false := by rw [announced₁]; simp
        refine @Standing.between _ _ _ more r streaming₁ rfl ?_ ?_
        · show cs = state₁.commands ++ more
          rw [left, announced₁, List.append_nil, List.append_assoc]
          rfl
        · show StringItems state₁.commands.isEmpty _ more r
          rw [closed, view₂.whole]
          exact later
      · rw [opened, announced] at before
        show Announced _ _ state₁.commands false
        rw [announced₁, ← List.append_assoc]
        exact .done (told₁ past before) tells
  · refine ⟨state₁, cursor + n, frames₁, false, by simp only [quote, if_false], ?_, by simp⟩
    refine ⟨by omega, view₁.within, ?_, index₁, added₁, fun past before => ?_⟩
    · refine .within streaming₁ opened₁ announced₁ ?_ view₁.whole rest later
      rw [left, List.append_assoc]
    · rw [opened, announced] at before
      rw [opened₁, announced₁]
      exact told₁ past before

/-- One round: nothing is announced that is not there, and a round that goes on moves the cursor. -/
theorem commandRound_advances (front : p <+: a) (within : cursor ≤ p.length) (streaming : state.completion = .streaming)
    (standing : Standing cs state (a.drop cursor)) :
    ∃ state' cursor' frames goOn, commandRound serde state p cursor = .ok (state', cursor', frames, goOn) ∧
      Advances p a cs state cursor state' cursor' frames ∧
      (goOn = true → cursor < cursor' ∧ state'.completion = .streaming) := by
  have reads {state : ShellCallState} {c : Nat} (inside : c ≤ p.length) (streaming : state.completion = .streaming)
      (opened : state.command_open = true) (standing : Standing cs state (a.drop c)) :
      ∃ state' cursor' frames goOn, readCommand serde state p c = .ok (state', cursor', frames, goOn) ∧
        Advances p a cs state c state' cursor' frames ∧ (goOn = true → c < cursor' ∧ state'.completion = .streaming) := by
    cases standing with
    | between _ closed => simp [closed] at opened
    | after _ closed => simp [closed] at opened
    | within _ _ announced left text body later =>
      have view : View p a c (p.drop c) _ := ⟨rfl, text, inside⟩
      exact readCommand_advances front view streaming opened announced left body later
  unfold commandRound
  cases opened : state.command_open with
  | true =>
    simp only [if_true]
    exact reads within streaming opened standing
  | false =>
    simp only [Bool.false_eq_true, if_false]
    cases standing with
    | within _ opened' => simp [opened] at opened'
    | after done => simp [streaming] at done
    | between _ _ left items =>
      obtain ⟨state₁, c₁, frames₁, goOn₁, ran₁, advances₁, on₁⟩ :=
        openCommand_advances front ⟨rfl, rfl, within⟩ streaming opened left items
      rw [ran₁]
      cases goOn₁ with
      | false => exact ⟨state₁, c₁, frames₁, false, rfl, advances₁, by simp⟩
      | true =>
        obtain ⟨further, streaming₁, opened₁⟩ := on₁ rfl
        obtain ⟨state₂, c₂, frames₂, goOn₂, ran₂, advances₂, on₂⟩ :=
          reads advances₁.within streaming₁ opened₁ advances₁.standing
        refine ⟨state₂, c₂, frames₁ ++ frames₂, goOn₂, ?_, advances₁.trans advances₂, fun goes => ?_⟩
        · simp only [ran₂]
          rfl
        · obtain ⟨later, streaming₂⟩ := on₂ goes
          exact ⟨by omega, streaming₂⟩

/-- The loop never fails on the start of a shell action, and never runs out of fuel. -/
theorem commandsLoop_advances {fuel : Nat} (front : p <+: a) (within : cursor ≤ p.length) (enough : p.length - cursor < fuel)
    (streaming : state.completion = .streaming) (standing : Standing cs state (a.drop cursor)) :
    ∃ state' cursor' frames, commandsLoop serde fuel state p cursor = .ok ({ state' with cursor := some cursor' }, frames) ∧
      Advances p a cs state cursor state' cursor' frames := by
  induction fuel generalizing state cursor with
  | zero => omega
  | succ fuel ih =>
    obtain ⟨state₁, c₁, frames₁, goOn, ran, advances, on⟩ :=
      @commandRound_advances _ _ _ _ _ serde front within streaming standing
    rw [commandsLoop, ran]
    cases goOn with
    | false => exact ⟨state₁, c₁, frames₁, rfl, advances⟩
    | true =>
      obtain ⟨further, streaming₁⟩ := on rfl
      have inside := advances.within
      obtain ⟨state₂, c₂, frames₂, later, advances₂⟩ := ih inside (by omega) streaming₁ advances.standing
      refine ⟨state₂, c₂, frames₁ ++ frames₂, ?_, advances.trans advances₂⟩
      simp only [later]
      rfl

end AgenticStack
