import AgenticStack.Messages.ClientFrames
import AgenticStack.Messages.LoopRuns
import AgenticStack.Library.JsonRoundTrip

/-!
# The message of a stream

However many rounds it takes, what the client is sent is one message: it begins
once, its blocks have consecutive indices, and it ends with an error or a stop.
-/

namespace AgenticStack.Messages
set_option autoImplicit false
open Library

/-- How the lines of a round end. -/
inductive RoundEnd where
  | endOfStream
  | stopped
  | failed (event : Json)
  | broken (error : Text)

namespace RoundEnd

/-- Where a round that ends so leaves the message. -/
def state : RoundEnd → RoundState
  | .endOfStream | .broken _ => .active
  | .stopped => .completed
  | .failed _ => .upstreamError

/-- What the client is sent of such an end. -/
def sent : RoundEnd → List ClientEvent
  | .failed event => [.sse "error" event]
  | .endOfStream | .stopped | .broken _ => []

/-- The error of such an end. -/
def error : RoundEnd → Option Text
  | .broken error => some error
  | .endOfStream | .stopped | .failed _ => none

/-- The round did not come to its end. -/
def cut : RoundEnd → Bool
  | .failed _ | .broken _ => true
  | .endOfStream | .stopped => false

/-- An end that cuts nothing sends nothing. -/
theorem of_uncut {ending : RoundEnd} (uncut : ending.cut = false) :
    ending.sent = [] ∧ ending.error = none ∧ ending.state ≠ .upstreamError := by
  cases ending with
  | endOfStream => exact ⟨rfl, rfl, by decide⟩
  | stopped => exact ⟨rfl, rfl, by decide⟩
  | failed event => cases uncut
  | broken error => cases uncut

end RoundEnd

section
variable (serde : SerdeJson)

/-- The events that are read in a round, and what ends it. -/
def readEvents : List (Except Text Text) → List Json × RoundEnd
  | [] => ([], .endOfStream)
  | .error error :: _ => ([], .broken error)
  | .ok line :: lines => match lineEvent serde line with
    | none => readEvents lines
    | some event =>
      if eventType event = some (utf8 "error") then ([], .failed event)
      else if eventType event = some (utf8 "message_stop") then ([], .stopped)
      else (event :: (readEvents lines).1, (readEvents lines).2)

/-- The events that are read leave the message going on. -/
theorem quiet_readEvents (lines : List (Except Text Text)) : ∀ event ∈ (readEvents serde lines).1, Quiet event := by
  induction lines with
  | nil => exact fun _ member => (nomatch member)
  | cons line lines ih =>
    cases line with
    | error error => exact fun _ member => (nomatch member)
    | ok line =>
      unfold readEvents
      split
      · exact ih
      · split
        · exact fun _ member => (nomatch member)
        · rename_i sound
          split
          · exact fun _ member => (nomatch member)
          · rename_i goes_on
            exact List.forall_mem_cons.2 ⟨⟨sound, goes_on⟩, ih⟩

variable {serde} {acc : MessagesStreamAccumulator}

/-- **A round is read as its events**, and then its end. -/
theorem readRound_eq (active : acc.round_state = .active) (solid : acc.Solid) (lines : List (Except Text Text))
    (opens : ∀ event ∈ (readEvents serde lines).1, OpensSolid event) :
    readRound serde acc lines =
      ⟨{ acc.after (readEvents serde lines).1 with round_state := (readEvents serde lines).2.state },
        acc.sentFor (readEvents serde lines).1 ++ (readEvents serde lines).2.sent, (readEvents serde lines).2.error, false⟩ := by
  induction lines generalizing acc with
  | nil =>
    have same : { acc with round_state := .active } = acc := by rw [← active]
    exact congrArg (ReadRound.mk · [] none false) same.symm
  | cons line lines ih =>
    cases line with
    | error error =>
      have same : { acc with round_state := .active } = acc := by rw [← active]
      exact congrArg (ReadRound.mk · [] (some error) false) same.symm
    | ok line =>
      rw [readEvents] at opens
      rw [readRound, readEvents]
      cases found : lineEvent serde line with
      | none =>
        rw [found] at opens
        have pushed : acc.push serde line = (acc, []) := by rw [MessagesStreamAccumulator.push, found]
        rw [Option.any_none, if_neg Bool.false_ne_true, pushed]
        dsimp only
        rw [if_neg (by simp [active]), ih active solid opens]
        rfl
      | some event =>
        rw [found] at opens
        rw [Option.any_some, solid.stopsAt, if_neg Bool.false_ne_true, push_of_event found]
        dsimp only at opens ⊢
        by_cases fails : eventType event = some (utf8 "error")
        · have pushed : acc.pushEvent event = ({ acc with round_state := .upstreamError }, [.sse "error" event]) := by
            simp +decide [MessagesStreamAccumulator.pushEvent, fails]
          rw [pushed, if_pos fails]
          rfl
        · rw [if_neg fails]
          by_cases stops : eventType event = some (utf8 "message_stop")
          · have pushed : acc.pushEvent event = ({ acc with round_state := .completed }, []) := by
              simp +decide [MessagesStreamAccumulator.pushEvent, stops]
            rw [pushed, if_pos stops]
            rfl
          · have active' : (acc.pushEvent event).1.round_state = .active := (pushed_of_quiet ⟨fails, stops⟩).active.trans active
            rw [if_neg fails, if_neg stops] at opens
            have solid' := solid.pushEvent ⟨fails, stops⟩ (opens event List.mem_cons_self)
            rw [if_neg stops, if_neg (by simp [active']),
              ih active' solid' fun later member => opens later (List.mem_cons_of_mem _ member),
              MessagesStreamAccumulator.after_cons, MessagesStreamAccumulator.sentFor, List.append_assoc]

/-- The delta a round ends with. -/
def lastMessageDelta (events : List Json) : Option Json := (events.filter isMessageDelta).getLast?

/-- The last event with a stop reason is the one that is kept. -/
theorem final_after {events : List Json} (quiet : ∀ event ∈ events, Quiet event) :
    (acc.after events).final_message_delta = (lastMessageDelta events).or acc.final_message_delta := by
  induction events generalizing acc with
  | nil => rfl
  | cons event events ih =>
    have first : (acc.pushEvent event).1.final_message_delta =
        if isMessageDelta event then some event else acc.final_message_delta := by
      rcases @pushEvent_cases acc event (quiet event List.mem_cons_self) with ⟨_, _, _, ended, pushed⟩ | ⟨_, _, _, ended, pushed⟩ |
        ⟨_, _, _, ended, pushed⟩ | ⟨_, _, _, ended, pushed⟩ | ⟨_, _, _, ended, ⟨_, pushed⟩ | pushed⟩
      · rw [pushed, ended, MessagesStreamAccumulator.onBlockStart]
        dsimp only
        split
        · rfl
        · rfl
      · rw [pushed, ended, MessagesStreamAccumulator.onBlockDelta]
        dsimp only
        split
        · rfl
        · rfl
      · rw [pushed, ended]
        rfl
      · rw [pushed, ended]
        rfl
      · rw [pushed, ended, MessagesStreamAccumulator.onMessageStart]
        split
        · rfl
        · rfl
      · rw [pushed, ended]
        rfl
    rw [MessagesStreamAccumulator.after_cons, ih fun event member => quiet event (List.mem_cons_of_mem _ member), first,
      lastMessageDelta, lastMessageDelta, List.filter_cons]
    cases isMessageDelta event with
    | false => rfl
    | true =>
      rw [if_pos rfl, if_pos rfl, List.getLast?_cons]
      cases (events.filter isMessageDelta).getLast? with
      | none => rfl
      | some last => rfl

end

/-- The events of a block: it is opened with a content that text can be added to, receives its deltas and is closed, unless the
round is cut off before. -/
inductive Lifecycle (cut : Bool) : List Json → Prop
  | unused : Lifecycle cut []
  | closed {start stop : Json} {deltas : List Json} (opens : isStart start = true)
      (block : takesFields (start.at_ "content_block") = true) (all : ∀ delta ∈ deltas, isDelta delta = true)
      (closes : isStop stop = true) : Lifecycle cut (start :: (deltas ++ [stop]))
  | cutOff {start : Json} {deltas : List Json} (opens : isStart start = true) (block : takesFields (start.at_ "content_block") = true)
      (all : ∀ delta ∈ deltas, isDelta delta = true) (broken : cut = true) : Lifecycle cut (start :: deltas)

section
variable {serde : SerdeJson} {map : GatewayToolMap} {cut : Bool} {events frames : List Json} {event : Json}

/-- A block begins with its only start. -/
theorem Lifecycle.begins (h : Lifecycle cut frames) (used : frames ≠ []) :
    ∃ start rest, frames = start :: rest ∧ isStart start = true ∧ takesFields (start.at_ "content_block") = true ∧
      ∀ event ∈ rest, isStart event = false := by
  cases h with
  | unused => exact absurd rfl used
  | @closed start stop deltas opens block all closes =>
    refine ⟨start, _, rfl, opens, block, fun event member => ?_⟩
    rcases List.mem_append.1 member with delta | last
    · exact not_start_of_isDelta (all event delta)
    · exact not_start_of_isStop (List.mem_singleton.1 last ▸ closes)
  | cutOff opens block all _ => exact ⟨_, _, rfl, opens, block, fun event member => not_start_of_isDelta (all event member)⟩

/-- A block is opened before its other events. -/
theorem openedFirst_of_lifecycles (lifecycles : ∀ index, Lifecycle cut (events.filter (about index))) : OpenedFirst events := by
  intro before event later split block
  have here : about (blockIndex event) event = true := about_iff.2 ⟨block, rfl⟩
  have shape : events.filter (about (blockIndex event)) =
      before.filter (about (blockIndex event)) ++ event :: later.filter (about (blockIndex event)) := by
    rw [split, List.filter_append, List.filter_cons_of_pos here]
  obtain ⟨start, rest, same, opens, _, others⟩ := (lifecycles (blockIndex event)).begins (by rw [shape]; simp)
  rw [shape] at same
  cases none_before : before.filter (about (blockIndex event)) with
  | nil =>
    rw [none_before] at same
    cases same
    exact iff_of_true opens rfl
  | cons first earlier =>
    rw [none_before] at same
    cases same
    refine iff_of_false ?_ (List.cons_ne_nil _ _)
    rw [others event (by simp)]
    exact Bool.false_ne_true

/-- Blocks that are opened in order begin with contents that text can be added to. -/
theorem opensSolid_of_lifecycles (lifecycles : ∀ index, Lifecycle cut (events.filter (about index))) :
    ∀ event ∈ events, OpensSolid event := by
  intro event member opens
  have here : event ∈ events.filter (about (blockIndex event)) :=
    List.mem_filter.2 ⟨member, about_iff.2 ⟨isStart_isBlockEvent opens, rfl⟩⟩
  obtain ⟨start, rest, shape, _, block, others⟩ := (lifecycles (blockIndex event)).begins (List.ne_nil_of_mem here)
  rw [shape] at here
  rcases List.mem_cons.1 here with rfl | later
  · exact block
  · rw [others event later] at opens
    cases opens

/-- What is streamed of a block that the client is shown. -/
structure ShownBlock (map : GatewayToolMap) (cut : Bool) (block : List Json) : Prop where
  used : block ≠ []
  lifecycle : Lifecycle cut block
  shown : ∀ start ∈ block, isStart start = true → isGatewayToolUse map (start.at_ "content_block") = false

/-- The blocks that are forwarded are shown. -/
theorem shown_of_forwarded (lifecycles : ∀ index, Lifecycle cut (events.filter (about index))) :
    ∀ block ∈ forwardedBlocks map events, ShownBlock map cut block := by
  intro block member
  obtain ⟨index, forwarded, rfl⟩ := List.mem_map.1 member
  obtain ⟨opener, found, here⟩ := List.mem_map.1 forwarded
  obtain ⟨inside, kind⟩ := List.mem_filter.1 found
  rw [Bool.and_eq_true, Bool.not_eq_true'] at kind
  have among : opener ∈ events.filter (about index) :=
    List.mem_filter.2 ⟨inside, about_iff.2 ⟨isStart_isBlockEvent kind.1, here⟩⟩
  have used : events.filter (about index) ≠ [] := List.ne_nil_of_mem among
  refine ⟨used, lifecycles index, fun start member opens => ?_⟩
  obtain ⟨first, rest, shape, _, _, others⟩ := (lifecycles index).begins used
  have only {event : Json} (member : event ∈ events.filter (about index)) (opens : isStart event = true) : event = first := by
    rw [shape] at member
    rcases List.mem_cons.1 member with same | later
    · exact same
    · rw [others event later] at opens
      cases opens
  rw [only member opens, ← only among kind.1]
  exact kind.2

/-- The events of a round, read from its lines, are those of blocks that are opened, receive their deltas and are closed. -/
def Orderly (serde : SerdeJson) (lines : List (Except Text Text)) : Prop :=
  ∀ index, Lifecycle (readEvents serde lines).2.cut ((readEvents serde lines).1.filter (about index))

/-- The message begins before anything else. -/
def Begins (serde : SerdeJson) (lines : List (Except Text Text)) : Prop :=
  ∃ start rest, (readEvents serde lines).1 = start :: rest ∧ eventType start = some (utf8 "message_start")

end

/-- Whether the event tells of an error. -/
def ClientEvent.isError : ClientEvent → Bool
  | .sse event _ => event = utf8 "error"
  | .errorBody _ => true

/-- What the client is sent of the end of the last round. -/
def terminalEvents (events : List Json) : List ClientEvent :=
  ((lastMessageDelta events).map fun delta => ClientEvent.sse "message_delta" delta).toList ++
    [.sse "message_stop" (.obj [("type", .str "message_stop")])]

section
variable (serde : SerdeJson) (respond : Nat → ExecutorResult (List (Except Text Text)))

/-- How the stream ends that has played these rounds, from round `first` on, out of `limit`. -/
inductive Ending (limit first : Nat) (played : List (List (Except Text Text))) : List ClientEvent → Prop
  | error {event : ClientEvent} (fails : event.isError = true)
      (reason : (∃ last, played.getLast? = some last ∧ (readEvents serde last).2.cut = true) ∨
        (∃ error, respond (first + played.length) = .error error) ∨ played.length = limit) :
      Ending limit first played [event]
  | finished {last : List (Except Text Text)} (final : played.getLast? = some last)
      (sound : ∀ lines ∈ played, (readEvents serde lines).2.cut = false) :
      Ending limit first played (terminalEvents (readEvents serde last).1)

/-- What the client is sent in the rounds from `first` on: the frames of their blocks, and an end. -/
structure Streams (map : GatewayToolMap) (limit first base : Nat) (played : List (List (Except Text Text)))
    (body : List BlockFrame) (ending : List ClientEvent) : Prop where
  rounds : ∀ k lines, played[k]? = some lines → respond (first + k) = .ok lines
  shown : ∀ lines ∈ played, ∀ block ∈ forwardedBlocks map (readEvents serde lines).1, ShownBlock map (readEvents serde lines).2.cut block
  framed : BlocksFramed base (played.flatMap fun lines => forwardedBlocks map (readEvents serde lines).1) body
  blocks : ∀ frame ∈ body, isBlockEvent frame.2 = true
  ending : Ending serde respond limit first played ending

end

section
variable {serde : SerdeJson} {respond : Nat → ExecutorResult (List (Except Text Text))} {map : GatewayToolMap} {limit first base : Nat}
  {lines : List (Except Text Text)} {played : List (List (Except Text Text))} {body frames : List BlockFrame} {ending : List ClientEvent}

/-- No round was played. -/
theorem streams_nil (stopped : Ending serde respond limit first [] ending) : Streams serde respond map limit first base [] [] ending :=
  ⟨fun _ _ found => (nomatch found), fun _ member => (nomatch member), framed_nil, fun _ member => (nomatch member), stopped⟩

/-- The last round. -/
theorem streams_last (answered : respond first = .ok lines) (orderly : Orderly serde lines)
    (framed : BlocksFramed base (forwardedBlocks map (readEvents serde lines).1) frames)
    (blocks : ∀ frame ∈ frames, isBlockEvent frame.2 = true) (ends : Ending serde respond limit first [lines] ending) : Streams serde respond map limit first base [lines] frames ending := by
  refine ⟨fun k other found => ?_, fun other member => ?_, ?_, blocks, ends⟩
  · cases k with
    | zero =>
      cases found
      exact answered
    | succ k => cases found
  · rw [List.mem_singleton.1 member]
    exact shown_of_forwarded orderly
  · rw [List.flatMap_cons, List.flatMap_nil, List.append_nil]
    exact framed

/-- The rounds end as the later ones do. -/
theorem Ending.cons (h : Ending serde respond limit (first + 1) played ending) (sound : (readEvents serde lines).2.cut = false) :
    Ending serde respond (limit + 1) first (lines :: played) ending := by
  cases h with
  | error fails reason =>
    refine .error fails ?_
    rcases reason with ⟨last, final, broken⟩ | ⟨error, refused⟩ | spent
    · refine .inl ⟨last, ?_, broken⟩
      rw [List.getLast?_cons, final]
      rfl
    · refine .inr (.inl ⟨error, ?_⟩)
      have here : first + (lines :: played).length = first + 1 + played.length := by rw [List.length_cons]; omega
      rw [here]
      exact refused
    · exact .inr (.inr (congrArg (· + 1) spent))
  | finished final all =>
    refine .finished ?_ (List.forall_mem_cons.2 ⟨sound, all⟩)
    rw [List.getLast?_cons, final]
    rfl

/-- A round before others. -/
theorem streams_cons (answered : respond first = .ok lines) (orderly : Orderly serde lines)
    (framed : BlocksFramed base (forwardedBlocks map (readEvents serde lines).1) frames)
    (blocks : ∀ frame ∈ frames, isBlockEvent frame.2 = true) (sound : (readEvents serde lines).2.cut = false)
    (rest : Streams serde respond map limit (first + 1) (base + (forwardedBlocks map (readEvents serde lines).1).length) played body ending) :
    Streams serde respond map (limit + 1) first base (lines :: played) (frames ++ body) ending := by
  refine ⟨fun k other found => ?_, List.forall_mem_cons.2 ⟨shown_of_forwarded orderly, rest.shown⟩, ?_, ?_, rest.ending.cons sound⟩
  · cases k with
    | zero =>
      cases found
      exact answered
    | succ k =>
      have here : first + (k + 1) = first + 1 + k := by omega
      rw [here]
      exact rest.rounds k other found
  · rw [List.flatMap_cons]
    exact framed.append rest.framed
  · exact fun frame member => (List.mem_append.1 member).elim (blocks frame) (rest.blocks frame)

end

section
variable {serde : SerdeJson} {tools : MessagesTools} {respond : Nat → ExecutorResult (List (Except Text Text))}
  {lines : List (Except Text Text)} {acc : MessagesStreamAccumulator}

/-- What is sent behind the events of a round. -/
inductive RoundTail (serde : SerdeJson) (tools : MessagesTools) (respond : Nat → ExecutorResult (List (Except Text Text)))
    (rounds round : Nat) (lines : List (Except Text Text)) (acc : MessagesStreamAccumulator) : List ClientEvent → Prop
  | error {event : ClientEvent} (fails : event.isError = true) (broken : (readEvents serde lines).2.cut = true) :
      RoundTail serde tools respond rounds round lines acc [event]
  | finished (sound : (readEvents serde lines).2.cut = false) :
      RoundTail serde tools respond rounds round lines acc (terminalEvents (readEvents serde lines).1)
  | goesOn (ctx' : MessagesRequestContext) (acc' : MessagesStreamAccumulator) (sound : (readEvents serde lines).2.cut = false)
      (same : SameIndices (acc.beginRound.after (readEvents serde lines).1) acc') :
      RoundTail serde tools respond rounds round lines acc (streamRounds serde tools respond rounds (round + 1) ctx' acc').2

/-- **One round of the loop.** -/
theorem streamRounds_succ {round : Nat} (answered : respond round = .ok lines) (orderly : Orderly serde lines) (rounds : Nat)
    (ctx : MessagesRequestContext) (acc : MessagesStreamAccumulator) :
    ∃ tail, (streamRounds serde tools respond (rounds + 1) round ctx acc).2 = acc.beginRound.sentFor (readEvents serde lines).1 ++ tail ∧
      RoundTail serde tools respond rounds round lines acc tail := by
  have final : (acc.beginRound.after (readEvents serde lines).1).final_message_delta = lastMessageDelta (readEvents serde lines).1 := by
    rw [final_after (quiet_readEvents serde lines)]
    exact Option.or_none
  obtain ⟨read, reads⟩ : ∃ read, readRound serde acc.beginRound lines = read := ⟨_, rfl⟩
  have fresh : acc.beginRound.Solid := by
    intro index buffered found
    cases found
  have shape := @readRound_eq serde acc.beginRound rfl fresh lines (opensSolid_of_lifecycles orderly)
  rw [reads] at shape
  have same : SameIndices (acc.beginRound.after (readEvents serde lines).1) read.acc := by
    rw [shape]
    exact ⟨rfl, rfl, rfl, rfl, rfl⟩
  have finish : read.acc.finish = terminalEvents (readEvents serde lines).1 := by
    rw [terminalEvents, ← final, shape]
    rfl
  have sent : read.sent = acc.beginRound.sentFor (readEvents serde lines).1 ++ (readEvents serde lines).2.sent := by rw [shape]
  have broken : read.broken = (readEvents serde lines).2.error := by rw [shape]
  have state : read.acc.round_state = (readEvents serde lines).2.state := by rw [shape]
  have whole_read : read.panicked = false := by rw [shape]
  rw [streamRounds, answered]
  dsimp only
  rw [reads]
  cases cut : (readEvents serde lines).2.cut with
  | false =>
    obtain ⟨quiet, whole, unfailed⟩ := RoundEnd.of_uncut cut
    rw [broken, whole]
    dsimp only
    rw [whole_read, if_neg Bool.false_ne_true, state, if_neg unfailed, sent, quiet, List.append_nil]
    split
    · exact ⟨_, congrArg _ finish, .finished cut⟩
    · exact ⟨_, rfl, .goesOn _ _ cut ⟨same.map, same.started, same.next, same.index, same.suppressed⟩⟩
  | true =>
    cases ended : (readEvents serde lines).2 with
    | broken error =>
      rw [broken, sent, ended, RoundEnd.sent, List.append_nil]
      exact ⟨[errorSse error], rfl, .error rfl cut⟩
    | failed event =>
      rw [broken, whole_read, state, sent, ended]
      exact ⟨[.sse "error" event], rfl, .error rfl cut⟩
    | endOfStream =>
      rw [ended] at cut
      cases cut
    | stopped =>
      rw [ended] at cut
      cases cut

/-- The error of the executor is told as an error. -/
theorem executorErrorSse_isError (error : ExecutorError) : (executorErrorSse serde error).isError = true := by
  unfold executorErrorSse
  split
  · split
    · split
      · split
        · rfl
        · rfl
      · rfl
    · rfl
  · rfl

/-- **The rounds that are left**, in a message that has begun. -/
theorem streams_streamRounds (orderly : ∀ round lines, respond round = .ok lines → Orderly serde lines) (rounds round : Nat)
    (ctx : MessagesRequestContext) {acc : MessagesStreamAccumulator} {base : Nat} (started : acc.message_started = true)
    (same_map : acc.gateway_map = tools.map) (next : acc.next_index = base % 2 ^ 32) :
    ∃ played body ending, (streamRounds serde tools respond rounds round ctx acc).2 = body.map onWire ++ ending ∧
      Streams serde respond tools.map rounds round base played body ending := by
  induction rounds generalizing round ctx acc base with
  | zero => exact ⟨[], [], _, rfl, streams_nil (.error rfl (.inr (.inr rfl)))⟩
  | succ rounds ih =>
    cases answered : respond round with
    | error error =>
      have only : (streamRounds serde tools respond (rounds + 1) round ctx acc).2 = [executorErrorSse serde error] := by
        rw [streamRounds, answered]
      exact ⟨[], [], _, only, streams_nil (.error (executorErrorSse_isError error) (.inr (.inl ⟨error, answered⟩)))⟩
    | ok lines =>
      have in_order := orderly round lines answered
      obtain ⟨tail, sent, ends⟩ := @streamRounds_succ serde tools respond lines round answered in_order rounds ctx acc
      obtain ⟨frames, shown, forwards⟩ := (forwards_beginRound started same_map next).run (quiet_readEvents serde lines)
        (openedFirst_of_lifecycles in_order)
      rw [List.nil_append, List.nil_append] at forwards
      rw [sent, shown]
      cases ends with
      | error fails broken =>
        exact ⟨[lines], _, _, rfl, streams_last answered in_order forwards.framed forwards.blocks
          (.error fails (.inl ⟨lines, rfl, broken⟩))⟩
      | finished sound =>
        exact ⟨[lines], _, _, rfl, streams_last answered in_order forwards.framed forwards.blocks
          (.finished rfl fun other member => List.mem_singleton.1 member ▸ sound)⟩
      | goesOn ctx' acc' sound same =>
        have next' : acc'.next_index = (base + (forwardedBlocks tools.map (readEvents serde lines).1).length) % 2 ^ 32 := by
          rw [same.next, forwards.next, forwardedBlocks, List.length_map]
        obtain ⟨played, body, ending, later, rest⟩ := ih (round + 1) ctx' (same.started.trans forwards.started)
          (same.map.trans forwards.same_map) next'
        exact ⟨lines :: played, frames ++ body, ending, by rw [later, List.map_append, List.append_assoc],
          streams_cons answered in_order forwards.framed forwards.blocks sound rest⟩

/-- The first event of a message. -/
theorem forwards_begun {start : Json} {base : Nat} (typed : eventType start = some (utf8 "message_start"))
    (fresh : acc.message_started = false) (same_map : acc.gateway_map = tools.map) (next : acc.next_index = base % 2 ^ 32) :
    (acc.beginRound.pushEvent start).2 = [.sse "message_start" start] ∧
      Forwards tools.map base [start] (acc.beginRound.pushEvent start).1 [] := by
  have pushed : acc.beginRound.pushEvent start = ({ acc.beginRound with message_started := true }, [.sse "message_start" start]) := by
    have unstarted : acc.beginRound.message_started = false := fresh
    simp [MessagesStreamAccumulator.pushEvent, typed, MessagesStreamAccumulator.onMessageStart, unstarted]
  have goes_on : isStart start = false := by
    rw [isStart, typed]
    decide
  have silent : isBlockEvent start = true → blockIndex start ∉ forwardedStarts tools.map [] := fun _ => List.not_mem_nil
  have begun := @forwards_beginRound tools.map base { acc with message_started := true } rfl same_map next
  rw [pushed]
  exact ⟨rfl, begun.silent goes_on silent ⟨rfl, rfl, rfl, rfl, rfl⟩⟩

/-- What the client is sent is one message: its start, the frames of the blocks of all rounds that are no gateway calls, each under
the number of its block modulo 2^32, and an end. -/
structure OneMessage (serde : SerdeJson) (respond : Nat → ExecutorResult (List (Except Text Text))) (map : GatewayToolMap)
    (sent : List ClientEvent) : Prop where
  parts : ∃ start played body ending, sent = .sse "message_start" start :: body.map onWire ++ ending ∧
    eventType start = some (utf8 "message_start") ∧ Streams serde respond map MAX_GATEWAY_TOOL_ROUNDS 0 0 played body ending ∧
    ∀ frame ∈ body, (onWire frame).index = some (frame.1 % 2 ^ 32)

/-- **The client sees one message**, for any rounds whose blocks are opened, receive their deltas and are closed. -/
theorem stream_oneMessage (orderly : ∀ round lines, respond round = .ok lines → Orderly serde lines)
    (begins : ∀ lines, respond 0 = .ok lines → Begins serde lines) (ctx : MessagesRequestContext) {sent : List ClientEvent}
    (streamed : (runMessagesStream serde tools respond ctx).2 = .ok sent) : OneMessage serde respond tools.map sent := by
  unfold runMessagesStream at streamed
  cases answered : respond 0 with
  | error error =>
    rw [answered] at streamed
    cases streamed
  | ok lines =>
    rw [answered] at streamed
    have in_order := orderly 0 lines answered
    obtain ⟨tail, all, ends⟩ := @streamRounds_succ serde tools respond lines 0 answered in_order 9 (ctx.forceStream true) (.new tools.map)
    have split : sent = (MessagesStreamAccumulator.new tools.map).beginRound.sentFor (readEvents serde lines).1 ++ tail :=
      (Except.ok.inj streamed).symm.trans all
    obtain ⟨start, rest, events, typed⟩ := begins lines answered
    have quiet := quiet_readEvents serde lines
    have opened := openedFirst_of_lifecycles in_order
    obtain ⟨first, begun⟩ := @forwards_begun tools (.new tools.map) start 0 typed rfl rfl rfl
    rw [events] at quiet opened split
    obtain ⟨frames, shown, forwards⟩ := begun.run (fun event member => quiet event (List.mem_cons_of_mem _ member)) opened
    rw [MessagesStreamAccumulator.sentFor, first, List.singleton_append, shown] at split
    rw [List.singleton_append, ← events, List.nil_append] at forwards
    have wire {played : List (List (Except Text Text))} {body : List BlockFrame} {ending : List ClientEvent}
        (streams : Streams serde respond tools.map MAX_GATEWAY_TOOL_ROUNDS 0 0 played body ending) :
        ∀ frame ∈ body, (onWire frame).index = some (frame.1 % 2 ^ 32) := fun frame member => index_onWire (streams.blocks frame member)
    refine ⟨start, ?_⟩
    rw [split]
    cases ends with
    | error fails broken =>
      have streams := @streams_last serde respond tools.map MAX_GATEWAY_TOOL_ROUNDS 0 0 lines frames _ answered in_order forwards.framed
        forwards.blocks (.error fails (.inl ⟨lines, rfl, broken⟩))
      exact ⟨[lines], _, _, rfl, typed, streams, wire streams⟩
    | finished sound =>
      have streams := @streams_last serde respond tools.map MAX_GATEWAY_TOOL_ROUNDS 0 0 lines frames _ answered in_order forwards.framed
        forwards.blocks (.finished rfl fun other member => List.mem_singleton.1 member ▸ sound)
      exact ⟨[lines], _, _, rfl, typed, streams, wire streams⟩
    | goesOn ctx' acc' sound same =>
      rw [events] at same
      have next : acc'.next_index = (0 + (forwardedBlocks tools.map (readEvents serde lines).1).length) % 2 ^ 32 := by
        rw [same.next, MessagesStreamAccumulator.after_cons, forwards.next, forwardedBlocks, List.length_map]
      obtain ⟨played, body, ending, later, others⟩ := @streams_streamRounds serde tools respond orderly 9 1 ctx' acc' _
        (same.started.trans forwards.started) (same.map.trans forwards.same_map) next
      have streams := streams_cons answered in_order forwards.framed forwards.blocks sound others
      exact ⟨lines :: played, frames ++ body, ending, by rw [later, List.map_append, ← List.append_assoc]; rfl, typed, streams,
        wire streams⟩

end

/-- The event that opens the message. -/
def messageStart : Json := .obj [("type", .str "message_start"), ("message", .obj [("id", .str "msg"), ("content", .arr [])])]

/-- The lines of a round that stops. -/
def roundLines (turn : AssistantTurn) : List (Except Text Text) := .ok (eventLine messageStart) :: turnLines turn

/-- A turn that is streamed has blocks that are opened and ended. -/
theorem lifecycle_of_streamed {serde : SerdeJson} {turn : AssistantTurn} (streamed : turn.Streamed serde) (index : Nat) :
    Lifecycle false ((messageStart :: turn.events).filter (about index)) := by
  have elsewhere : about index messageStart = false := rfl
  rw [List.filter_cons, elsewhere]
  cases found : turn.content[index]? with
  | none =>
    have above : turn.content.length ≤ index := List.getElem?_eq_none_iff.1 found
    have nothing : turn.events.filter (about index) = [] := streamed.others index above
    rw [if_neg Bool.false_ne_true, nothing]
    exact .unused
  | some block =>
    obtain ⟨start, deltas, stop, fields, _, same, opens, all, closes, skeleton, _⟩ := streamed.blocks index block found
    have block : takesFields (start.at_ "content_block") = true := by rw [skeleton]; rfl
    rw [if_neg Bool.false_ne_true, same]
    exact .closed opens block all closes

set_option maxRecDepth 20000 in
/-- The events of the search are read. -/
theorem readEvents_search : readEvents plainSerde (roundLines (searchTurn "tool_use")) =
    (messageStart :: (searchTurn "tool_use").events, .stopped) := rfl

set_option maxRecDepth 20000 in
/-- The events of the answer are read. -/
theorem readEvents_answer : readEvents plainSerde (roundLines answerTurn) = (messageStart :: answerTurn.events, .stopped) := rfl

/-- Both rounds are in order. -/
theorem orderly_searchThenAnswer (round : Nat) : Orderly plainSerde (roundLines (searchThenAnswer round)) := by
  intro index
  unfold searchThenAnswer
  split
  · rw [readEvents_search]
    exact lifecycle_of_streamed (searchTurn_streamed _) index
  · rw [readEvents_answer]
    exact lifecycle_of_streamed answers_answerTurn.2.1 index

set_option maxRecDepth 20000 in
/-- The client sees one message. -/
theorem stream_oneMessage_search : OneMessage plainSerde (fun round => .ok (roundLines (searchThenAnswer round))) searchTools.map
    (streamRounds plainSerde searchTools (fun round => .ok (roundLines (searchThenAnswer round))) MAX_GATEWAY_TOOL_ROUNDS 0
      (rustRequest.forceStream true) (.new searchTools.map)).2 := by
  refine @stream_oneMessage plainSerde searchTools (fun round => .ok (roundLines (searchThenAnswer round))) (fun round lines same => ?_)
    (fun lines same => ?_) rustRequest _ rfl
  · cases same
    exact orderly_searchThenAnswer round
  · cases same
    exact ⟨messageStart, (searchTurn "tool_use").events, congrArg Prod.fst readEvents_search, rfl⟩

/-- An empty text block, and the stream ends behind it. -/
def shortEvents : List Json := [startEvent (.obj answerFields), stopEvent]

/-- The lines of a stream that is cut short. -/
def shortLines (events : List Json) : List (Except Text Text) := (events.map eventLine).map .ok

/-- The blocks of the short stream are opened and ended. -/
theorem lifecycle_short (index : Nat) : Lifecycle false (shortEvents.filter (about index)) := by
  have streamed : (oneBlockTurn (.obj answerFields) (.obj answerFields) [] "end_turn").Streamed plainSerde :=
    oneBlockTurn_streamed (.whole rfl) _
  have lifecycle := lifecycle_of_streamed streamed index
  have elsewhere : about index messageStart = false := rfl
  have ending : about index (messageDelta "end_turn") = false := rfl
  have events : (oneBlockTurn (.obj answerFields) (.obj answerFields) [] "end_turn").events = shortEvents ++ [messageDelta "end_turn"] := rfl
  rw [events, List.filter_cons, elsewhere, if_neg Bool.false_ne_true, List.filter_append, List.filter_singleton, ending, cond_false,
    List.append_nil] at lifecycle
  exact lifecycle

set_option maxRecDepth 20000 in
/-- The short stream is read. -/
theorem readEvents_short : readEvents plainSerde (shortLines (messageStart :: shortEvents)) = (messageStart :: shortEvents, .endOfStream) ∧
    readEvents plainSerde (shortLines shortEvents) = (shortEvents, .endOfStream) := ⟨rfl, rfl⟩

/-- The opening of an empty text. -/
def emptyText : Json := .obj [("type", .str "text"), ("text", .str [])]

/-- The opening of a block. -/
def blockStart (k : Nat) : Json :=
  .obj [("type", .str "content_block_start"), ("index", .num (.posInt k)), ("content_block", emptyText)]

/-- The end of a block. -/
def blockStop (k : Nat) : Json := .obj [("type", .str "content_block_stop"), ("index", .num (.posInt k))]

/-- The events of `n` empty text blocks. -/
def emptyBlocks (n : Nat) : List Json := (List.range n).flatMap fun k => [blockStart k, blockStop k]

/-- One more empty block. -/
theorem emptyBlocks_succ (n : Nat) : emptyBlocks (n + 1) = emptyBlocks n ++ [blockStart n, blockStop n] := by
  rw [emptyBlocks, List.range_succ, List.flatMap_append, List.flatMap_singleton, emptyBlocks]

/-- A line whose data is an object has that object as its event. -/
theorem lineEvent_eventLine {serde : SerdeJson} {fields : List (Text × Json)} (canonical : (Json.obj fields).Canonical serde.readFloat)
    (depth : (Json.obj fields).depth ≤ 127) (floats : (Json.obj fields).reread serde.readFloat = .obj fields) :
    lineEvent serde (eventLine (.obj fields)) = some (.obj fields) := by
  obtain ⟨body, written⟩ : ∃ body, (Json.obj fields).write = 0x7b :: body := ⟨_, rfl⟩
  have hard : ∀ s, dropSpace (0x7b :: s) = none := fun s => dropSpace_of_hard (by decide)
  have data : stripPrefix (utf8 "data:") (eventLine (.obj fields)) = some (utf8 " " ++ (Json.obj fields).write) :=
    stripPrefix_eq_some_iff.2 rfl
  have blank : stripPrefix (utf8 " ") (utf8 " " ++ (Json.obj fields).write) = some (Json.obj fields).write :=
    stripPrefix_eq_some_iff.2 rfl
  have full : isBlank (Json.obj fields).write = false := by
    rw [written, isBlank, List.length_cons, isBlankWithin, hard]
    simp
  have goes_on : trimsTo (utf8 "[DONE]") (Json.obj fields).write = false := by
    have other : stripPrefix (utf8 "[DONE]") (0x7b :: body) = none := rfl
    rw [trimsTo, written, trimStart_of_none (hard _), other]
  have parsed : SseLine.parse (eventLine (.obj fields)) = .data (Json.obj fields).write := by
    unfold SseLine.parse
    rw [data]
    dsimp only
    rw [blank, Option.getD_some, full, if_neg Bool.false_ne_true, goes_on, if_neg Bool.false_ne_true]
  rw [lineEvent, parsed]
  dsimp only
  rw [fromStr_write serde canonical, if_pos depth, floats]

section
variable {serde : SerdeJson} {events : List Json} {event : Json} {n : Nat}

/-- The events of an empty block are read from their lines. -/
theorem lineEvent_block {k : Nat} (fits : k < 2 ^ 64) :
    lineEvent serde (eventLine (blockStart k)) = some (blockStart k) ∧ lineEvent serde (eventLine (blockStop k)) = some (blockStop k) := by
  refine ⟨lineEvent_eventLine ?_ ?_ rfl, lineEvent_eventLine ?_ ?_ rfl⟩
  · simpa +decide [emptyText, Json.Canonical, Json.CanonicalFields, JsonNumber.Canonical] using fits
  · simp +decide [emptyText, Json.depth, Json.depthFields]
  · simpa +decide [Json.Canonical, Json.CanonicalFields, JsonNumber.Canonical] using fits
  · simp +decide [Json.depth, Json.depthFields]

/-- Lines that are events are read to their end. -/
theorem readEvents_lines (lines : ∀ event ∈ events, Quiet event ∧ lineEvent serde (eventLine event) = some event) :
    readEvents serde (shortLines events) = (events, .endOfStream) := by
  induction events with
  | nil => rfl
  | cons event events ih =>
    obtain ⟨⟨sound, goes_on⟩, here⟩ := lines event List.mem_cons_self
    have rest := ih fun later member => lines later (List.mem_cons_of_mem _ member)
    unfold shortLines at rest ⊢
    rw [List.map_cons, List.map_cons, readEvents, here]
    dsimp only
    rw [if_neg sound, if_neg goes_on, rest]

/-- The events of the empty blocks. -/
theorem mem_emptyBlocks : event ∈ emptyBlocks n ↔ ∃ k < n, event = blockStart k ∨ event = blockStop k := by
  unfold emptyBlocks
  simp only [List.mem_flatMap, List.mem_range, List.mem_cons, List.not_mem_nil, or_false]

/-- The events of an empty block leave the message going on. -/
theorem quiet_block (k : Nat) : Quiet (blockStart k) ∧ Quiet (blockStop k) := by
  refine ⟨⟨?_, ?_⟩, ?_, ?_⟩
  all_goals
    intro typed
    cases typed

/-- The events of empty blocks are read from their lines. -/
theorem lines_emptyBlocks (few : n ≤ 2 ^ 64) :
    ∀ event ∈ emptyBlocks n, Quiet event ∧ lineEvent serde (eventLine event) = some event := by
  intro event member
  obtain ⟨k, below, rfl | rfl⟩ := mem_emptyBlocks.1 member
  · exact ⟨(quiet_block k).1, (lineEvent_block (Nat.lt_of_lt_of_le below few)).1⟩
  · exact ⟨(quiet_block k).2, (lineEvent_block (Nat.lt_of_lt_of_le below few)).2⟩

/-- Empty blocks are opened and ended. -/
theorem lifecycle_emptyBlocks (index : Nat) : Lifecycle false ((emptyBlocks n).filter (about index)) := by
  have here (k : Nat) : [blockStart k, blockStop k].filter (about index) = if k = index then [blockStart k, blockStop k] else [] := by
    have start : about index (blockStart k) = decide (k = index) := rfl
    have stop : about index (blockStop k) = decide (k = index) := rfl
    rw [List.filter_cons, List.filter_singleton, start, stop]
    by_cases same : k = index
    · rw [if_pos same, if_pos (decide_eq_true same), decide_eq_true same, cond_true]
    · rw [if_neg same, if_neg (by simpa using same), decide_eq_false same, cond_false]
  have shape : (emptyBlocks n).filter (about index) = if index < n then [blockStart index, blockStop index] else [] := by
    induction n with
    | zero => rfl
    | succ n ih =>
      rw [emptyBlocks_succ, List.filter_append, ih, here]
      rcases Nat.lt_trichotomy index n with before | same | after
      · rw [if_pos before, if_neg (by omega), if_pos (by omega), List.append_nil]
      · rw [if_neg (by omega), if_pos same.symm, if_pos (by omega), List.nil_append, same]
      · rw [if_neg (by omega), if_neg (by omega), if_neg (by omega), List.nil_append]
  rw [shape]
  split
  · exact @Lifecycle.closed false (blockStart index) (blockStop index) [] rfl rfl (by simp) rfl
  · exact .unused

/-- What is sent of two lists of events is sent of both. -/
theorem sentFor_append (acc : MessagesStreamAccumulator) (later : List Json) :
    acc.sentFor (events ++ later) = acc.sentFor events ++ (acc.after events).sentFor later := by
  induction events generalizing acc with
  | nil => rfl
  | cons event events ih =>
    rw [List.cons_append, MessagesStreamAccumulator.sentFor, ih, MessagesStreamAccumulator.sentFor, List.append_assoc]
    rfl

/-- The events are taken one after the other. -/
theorem after_append (acc : MessagesStreamAccumulator) (later : List Json) :
    acc.after (events ++ later) = (acc.after events).after later := List.foldl_append

/-- **Empty text blocks are passed on one by one**, each under its number modulo 2^32. -/
theorem sentFor_emptyBlocks {acc : MessagesStreamAccumulator} (first : acc.next_index = 0) (shown : acc.suppressed_indices = []) (n : Nat) :
    acc.sentFor (emptyBlocks n) = (List.range n).flatMap (fun k => [onWire (k, blockStart k), onWire (k, blockStop k)]) ∧
      (acc.after (emptyBlocks n)).next_index = n % 2 ^ 32 ∧ (acc.after (emptyBlocks n)).suppressed_indices = [] := by
  induction n with
  | zero => exact ⟨rfl, first, shown⟩
  | succ n ih =>
    obtain ⟨sent, next, visible⟩ := ih
    have index : blockIndex (blockStop n) = n := rfl
    obtain ⟨acc', behind⟩ : ∃ acc', acc.after (emptyBlocks n) = acc' := ⟨_, rfl⟩
    rw [behind] at next visible
    have opened : acc'.pushEvent (blockStart n) = acc'.onBlockStart (blockStart n) := rfl
    have closed (acc : MessagesStreamAccumulator) : acc.pushEvent (blockStop n) = acc.onBlockStop (blockStop n) := rfl
    have text : isGatewayToolUse acc'.gateway_map ((blockStart n).at_ "content_block") = false := rfl
    obtain ⟨acc'', out, started, frame, next', known, visible'⟩ : ∃ acc'' out, acc'.onBlockStart (blockStart n) = (acc'', out) ∧
        out = [onWire (n, blockStart n)] ∧ acc''.next_index = (n + 1) % 2 ^ 32 ∧ acc''.index_map.lookup n = some (n % 2 ^ 32) ∧
        acc''.suppressed_indices = [] := by
      rw [MessagesStreamAccumulator.onBlockStart, text]
      dsimp only
      rw [if_neg Bool.false_ne_true, next]
      exact ⟨_, _, rfl, rfl, by dsimp only; omega, lookup_insertEntry_self, visible⟩
    have stopped : acc''.forwardBlockEvent "content_block_stop" (blockStop n) = [onWire (n, blockStop n)] := by
      rw [MessagesStreamAccumulator.forwardBlockEvent, visible', index, known]
      rfl
    have behind' : acc'.after [blockStart n, blockStop n] = acc'' := by
      rw [MessagesStreamAccumulator.after_cons, opened, started]
      rfl
    rw [emptyBlocks_succ, sentFor_append, after_append, behind, behind', List.range_succ, List.flatMap_append, List.flatMap_singleton, sent]
    refine ⟨?_, next', visible'⟩
    rw [MessagesStreamAccumulator.sentFor, opened, started, MessagesStreamAccumulator.sentFor, closed,
      MessagesStreamAccumulator.onBlockStop, stopped, frame]
    rfl

/-- A round that ends with its stream and has no message delta is the last. -/
theorem streamRounds_last {tools : MessagesTools} {respond : Nat → ExecutorResult (List (Except Text Text))} {round : Nat}
    {lines : List (Except Text Text)} (answered : respond round = .ok lines) (orderly : Orderly serde lines)
    (read : readEvents serde lines = (events, .endOfStream)) (unended : ∀ event ∈ events, isMessageDelta event = false) (rounds : Nat)
    (ctx : MessagesRequestContext) (acc : MessagesStreamAccumulator) :
    (streamRounds serde tools respond (rounds + 1) round ctx acc).2 =
      acc.beginRound.sentFor events ++ [.sse "message_stop" (.obj [("type", .str "message_stop")])] := by
  have fresh : acc.beginRound.Solid := by
    intro index buffered found
    cases found
  have quiet : ∀ event ∈ events, Quiet event := by
    have here := quiet_readEvents serde lines
    rw [read] at here
    exact here
  have whole := @readRound_eq serde acc.beginRound rfl fresh lines (opensSolid_of_lifecycles orderly)
  rw [read] at whole
  have undecided : events.filter isMessageDelta = [] := by simpa [List.filter_eq_nil_iff] using unended
  have ended : (acc.beginRound.after events).ended_on_tool_use = false := by
    rw [(@pushedAll acc.beginRound events quiet).ended, undecided]
    rfl
  have final : (acc.beginRound.after events).final_message_delta = none := by
    rw [final_after quiet, lastMessageDelta, undecided]
    rfl
  obtain ⟨last, behind⟩ : ∃ last, { acc.beginRound.after events with round_state := RoundEnd.endOfStream.state } = last := ⟨_, rfl⟩
  have stays : last.shouldContinueLoop = false := by
    rw [← behind, MessagesStreamAccumulator.shouldContinueLoop]
    dsimp only
    rw [ended]
    rfl
  have finish : last.finish = [.sse "message_stop" (.obj [("type", .str "message_stop")])] := by
    rw [← behind, MessagesStreamAccumulator.finish]
    dsimp only
    rw [final]
    rfl
  have active : last.round_state ≠ .upstreamError := by
    rw [← behind]
    show RoundEnd.endOfStream.state ≠ .upstreamError
    decide
  rw [behind, RoundEnd.sent, RoundEnd.error, List.append_nil] at whole
  rw [streamRounds, answered]
  dsimp only
  rw [whole]
  dsimp only
  rw [if_neg Bool.false_ne_true, if_neg active, stays, Bool.not_false, if_pos rfl, finish]

/-- Any number of empty blocks is in order. -/
theorem orderly_emptyBlocks (few : n ≤ 2 ^ 64) :
    readEvents serde (shortLines (messageStart :: emptyBlocks n)) = (messageStart :: emptyBlocks n, .endOfStream) ∧
      Orderly serde (shortLines (messageStart :: emptyBlocks n)) := by
  have first : Quiet messageStart ∧ lineEvent serde (eventLine messageStart) = some messageStart := by
    refine ⟨⟨fun typed => ?_, fun typed => ?_⟩, lineEvent_eventLine ?_ ?_ rfl⟩
    · cases typed
    · cases typed
    · simp +decide [Json.Canonical, Json.CanonicalFields, Json.CanonicalItems]
    · decide
  have read : readEvents serde (shortLines (messageStart :: emptyBlocks n)) = (messageStart :: emptyBlocks n, .endOfStream) :=
    readEvents_lines (List.forall_mem_cons.2 ⟨first, lines_emptyBlocks few⟩)
  refine ⟨read, fun index => ?_⟩
  have elsewhere : about index messageStart = false := rfl
  rw [read, List.filter_cons, elsewhere, if_neg Bool.false_ne_true]
  exact lifecycle_emptyBlocks index

/-- What the client is sent of a message of `n` empty text blocks. -/
theorem stream_emptyBlocks {tools : MessagesTools} (few : n ≤ 2 ^ 64) (ctx : MessagesRequestContext) :
    (runMessagesStream serde tools (fun _ => .ok (shortLines (messageStart :: emptyBlocks n))) ctx).2 =
      .ok (.sse "message_start" messageStart :: (List.range n).flatMap (fun k => [onWire (k, blockStart k), onWire (k, blockStop k)]) ++
        [.sse "message_stop" (.obj [("type", .str "message_stop")])]) := by
  obtain ⟨read, orderly⟩ := @orderly_emptyBlocks serde n few
  have unended : ∀ event ∈ messageStart :: emptyBlocks n, isMessageDelta event = false := by
    refine List.forall_mem_cons.2 ⟨rfl, fun event member => ?_⟩
    obtain ⟨k, _, rfl | rfl⟩ := mem_emptyBlocks.1 member
    · rfl
    · rfl
  have last := @streamRounds_last serde _ tools (fun _ => .ok (shortLines (messageStart :: emptyBlocks n))) 0 _ rfl orderly read unended 9
    (ctx.forceStream true) (.new tools.map)
  rw [runMessagesStream]
  dsimp only
  rw [MAX_GATEWAY_TOOL_ROUNDS, last, MessagesStreamAccumulator.sentFor]
  obtain ⟨acc, begun⟩ : ∃ acc, (MessagesStreamAccumulator.new tools.map).beginRound.pushEvent messageStart =
      (acc, [.sse "message_start" messageStart]) ∧ acc.next_index = 0 ∧ acc.suppressed_indices = [] := ⟨_, rfl, rfl, rfl⟩
  rw [begun.1, (sentFor_emptyBlocks begun.2.1 begun.2.2 n).1]
  rfl

end

/-- A text delta for a block that is a number. -/
def numberEvents : List Json :=
  [messageStart, startEvent (.num (.posInt 7)), deltaEvent (.obj [("type", .str "text_delta"), ("text", .str "x")]), stopEvent]

set_option maxRecDepth 20000 in
/-- A round that ends with its stream may have no delta for the client to end with, and one that does not begin its message has no start.
Behind 2^32 blocks the next one is shown under index 0 again, and text for a block that is a number stops the stream. -/
theorem short_without_delta :
    (Orderly plainSerde (shortLines (messageStart :: shortEvents)) ∧ Begins plainSerde (shortLines (messageStart :: shortEvents)) ∧
      (runMessagesStream plainSerde searchTools (fun _ => .ok (shortLines (messageStart :: shortEvents))) rustRequest).2 =
        .ok [.sse "message_start" messageStart, .sse "content_block_start" (startEvent (.obj answerFields)),
          .sse "content_block_stop" stopEvent, .sse "message_stop" (.obj [("type", .str "message_stop")])]) ∧
    (Orderly plainSerde (shortLines shortEvents) ∧
      (runMessagesStream plainSerde searchTools (fun _ => .ok (shortLines shortEvents)) rustRequest).2 =
        .ok [.sse "content_block_start" (startEvent (.obj answerFields)), .sse "content_block_stop" stopEvent,
          .sse "message_stop" (.obj [("type", .str "message_stop")])]) ∧
    (Orderly plainSerde (shortLines (messageStart :: emptyBlocks (2 ^ 32 + 1))) ∧
      (runMessagesStream plainSerde searchTools (fun _ => .ok (shortLines (messageStart :: emptyBlocks (2 ^ 32 + 1)))) rustRequest).2 =
        .ok (.sse "message_start" messageStart ::
          (List.range (2 ^ 32 + 1)).flatMap (fun k => [onWire (k, blockStart k), onWire (k, blockStop k)]) ++
          [.sse "message_stop" (.obj [("type", .str "message_stop")])]) ∧
      (onWire (2 ^ 32, blockStart (2 ^ 32))).index = some 0) ∧
    (runMessagesStream plainSerde searchTools (fun _ => .ok (shortLines numberEvents)) rustRequest).2 =
      .ok [.sse "message_start" messageStart, .sse "content_block_start" (startEvent (.num (.posInt 7)))] := by
  refine ⟨⟨fun index => ?_, ⟨messageStart, _, congrArg Prod.fst readEvents_short.1, rfl⟩, rfl⟩, ⟨fun index => ?_, rfl⟩,
    ⟨(orderly_emptyBlocks (by omega)).2, stream_emptyBlocks (by omega) rustRequest, index_onWire rfl⟩, rfl⟩
  · have elsewhere : about index messageStart = false := rfl
    rw [readEvents_short.1, List.filter_cons, elsewhere, if_neg Bool.false_ne_true]
    exact lifecycle_short index
  · rw [readEvents_short.2]
    exact lifecycle_short index

end AgenticStack.Messages
