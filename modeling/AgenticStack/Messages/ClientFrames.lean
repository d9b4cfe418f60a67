import AgenticStack.Messages.RoundEvents
import AgenticStack.Library.Framing

/-!
# What a round passes on

The blocks of a round that are no gateway calls, frame by frame, under the next
indices of the client.
-/

namespace AgenticStack.Messages
set_option autoImplicit false
open Library

/-- Whether the event is about a block. -/
def isBlockEvent (event : Json) : Bool := isStart event || isDelta event || isStop event

/-- An event of a block, with the number of the block in the message of the client. -/
abbrev BlockFrame := Nat × Json

/-- What the client is sent: the event under the number of its block, as far as 32 bits hold it. -/
def onWire (frame : BlockFrame) : ClientEvent :=
  .sse ((eventType frame.2).getD []) (setField frame.2 "index" (.num (.posInt (frame.1 % 2 ^ 32))))

/-- The index under which an event of a block stands. -/
def ClientEvent.index : ClientEvent → Option Nat
  | .sse event data =>
    if event = utf8 "content_block_start" ∨ event = utf8 "content_block_delta" ∨ event = utf8 "content_block_stop" then
      some (blockIndex data)
    else none
  | .errorBody _ => none

/-- The frames of these blocks, numbered from `base` on in the order in which they open. -/
abbrev BlocksFramed (base : Nat) (blocks : List (List Json)) (frames : List BlockFrame) : Prop :=
  Framed Prod.mk (fun frame => some frame.1) (fun frame => isStart frame.2) base blocks frames

section
variable {event : Json} {k : Nat}

/-- An event that is given an index has it. -/
theorem blockIndex_setField {type : Text} (typed : eventType event = some type) :
    blockIndex (setField event "index" (.num (.posInt k))) = k := by
  cases event with
  | obj fields =>
    have found : (setField (.obj fields) "index" (.num (.posInt k))).get "index" = some (.num (.posInt k)) := lookup_insertField_self
    rw [blockIndex, found]
    rfl
  | _ => cases typed

/-- The event of a block is its opening, a part or its end. -/
theorem eventType_of_isBlockEvent (block : isBlockEvent event = true) : ∃ type, eventType event = some type ∧
    (type = utf8 "content_block_start" ∨ type = utf8 "content_block_delta" ∨ type = utf8 "content_block_stop") := by
  unfold isBlockEvent isStart isDelta isStop at block
  simp only [Bool.or_eq_true, decide_eq_true_eq] at block
  rcases block with (start | delta) | stop
  · exact ⟨_, start, .inl rfl⟩
  · exact ⟨_, delta, .inr (.inl rfl)⟩
  · exact ⟨_, stop, .inr (.inr rfl)⟩

/-- A block is shown under its number, which is taken modulo 2^32. -/
theorem index_onWire (block : isBlockEvent event = true) : (onWire (k, event)).index = some (k % 2 ^ 32) := by
  obtain ⟨type, typed, kind⟩ := eventType_of_isBlockEvent block
  rw [onWire, typed, ClientEvent.index]
  dsimp only
  rw [blockIndex_setField typed, if_pos]
  exact kind

end

section
variable (map : GatewayToolMap) (events : List Json)

/-- The indices under which upstream opens the blocks that are passed on. -/
def forwardedStarts : List Nat :=
  (events.filter fun event => isStart event && !isGatewayToolUse map (event.at_ "content_block")).map blockIndex

/-- The blocks whose opening is kept from the client. -/
def suppressedStarts : List Nat :=
  (events.filter fun event => isStart event && isGatewayToolUse map (event.at_ "content_block")).map blockIndex

/-- The blocks that are passed on, in the order in which they open. -/
def forwardedBlocks : List (List Json) := (forwardedStarts map events).map fun index => events.filter (about index)

end

/-- Every block is opened before anything else of it, and once. -/
def OpenedFirst (events : List Json) : Prop :=
  ∀ before event later, events = before ++ event :: later → isBlockEvent event = true →
    (isStart event = true ↔ before.filter (about (blockIndex event)) = [])

section
variable {map : GatewayToolMap} {events : List Json} {event : Json} {index : Nat}

/-- An event is about a block where it is of one at that index. -/
theorem about_iff : about index event = true ↔ isBlockEvent event = true ∧ blockIndex event = index := by
  simp [about, isBlockEvent]

/-- A block is opened for the client or kept from it. -/
theorem mem_starts : index ∈ forwardedStarts map events ∨ index ∈ suppressedStarts map events ↔
    ∃ event ∈ events, isStart event = true ∧ blockIndex event = index := by
  unfold forwardedStarts suppressedStarts
  simp only [List.mem_map, List.mem_filter, Bool.and_eq_true, Bool.not_eq_true']
  constructor
  · rintro (⟨event, ⟨member, start, _⟩, here⟩ | ⟨event, ⟨member, start, _⟩, here⟩)
    · exact ⟨event, member, start, here⟩
    · exact ⟨event, member, start, here⟩
  · rintro ⟨event, member, start, here⟩
    cases gateway : isGatewayToolUse map (event.at_ "content_block") with
    | false => exact .inl ⟨event, ⟨member, start, gateway⟩, here⟩
    | true => exact .inr ⟨event, ⟨member, start, gateway⟩, here⟩

/-- The blocks that are opened by two lists are those of both. -/
theorem forwardedStarts_append {later : List Json} :
    forwardedStarts map (events ++ later) = forwardedStarts map events ++ forwardedStarts map later := by
  unfold forwardedStarts
  rw [List.filter_append, List.map_append]

/-- The blocks that are kept by two lists are those of both. -/
theorem suppressedStarts_append {later : List Json} :
    suppressedStarts map (events ++ later) = suppressedStarts map events ++ suppressedStarts map later := by
  unfold suppressedStarts
  rw [List.filter_append, List.map_append]

/-- The opening of a block is about it. -/
theorem isStart_isBlockEvent (start : isStart event = true) : isBlockEvent event = true := by rw [isBlockEvent, start]; rfl

/-- An index that nothing was about was not opened. -/
theorem not_opened (fresh : events.filter (about index) = []) :
    index ∉ forwardedStarts map events ∧ index ∉ suppressedStarts map events := by
  have none_opened : ¬ ∃ event ∈ events, isStart event = true ∧ blockIndex event = index := by
    rintro ⟨event, member, start, here⟩
    exact List.filter_eq_nil_iff.1 fresh event member (about_iff.2 ⟨isStart_isBlockEvent start, here⟩)
  exact ⟨fun member => none_opened (mem_starts.1 (.inl member)), fun member => none_opened (mem_starts.1 (.inr member))⟩

/-- Another block's event leaves the blocks as they are. -/
theorem forwardedBlocks_other (quiet : forwardedStarts map [event] = [])
    (apart : isBlockEvent event = true → blockIndex event ∉ forwardedStarts map events) :
    forwardedBlocks map (events ++ [event]) = forwardedBlocks map events := by
  rw [forwardedBlocks, forwardedStarts_append, quiet, List.append_nil]
  refine List.map_congr_left fun index member => ?_
  have elsewhere : about index event = false := by
    rw [← Bool.not_eq_true, about_iff]
    rintro ⟨block, rfl⟩
    exact apart block member
  rw [List.filter_append, List.filter_singleton, elsewhere]
  exact List.append_nil _

/-- A block that is opened. -/
theorem forwardedBlocks_open (opened : forwardedStarts map [event] = [blockIndex event]) (block : isBlockEvent event = true)
    (fresh : events.filter (about (blockIndex event)) = []) :
    forwardedBlocks map (events ++ [event]) = forwardedBlocks map events ++ [[event]] := by
  rw [forwardedBlocks, forwardedStarts_append, opened, List.map_append, forwardedBlocks]
  congr 1
  · refine List.map_congr_left fun index member => ?_
    have elsewhere : about index event = false := by
      rw [← Bool.not_eq_true, about_iff]
      rintro ⟨_, rfl⟩
      exact (not_opened fresh).1 member
    rw [List.filter_append, List.filter_singleton, elsewhere]
    exact List.append_nil _
  · rw [List.map_singleton, List.filter_append, fresh, List.filter_singleton, about_iff.2 ⟨block, rfl⟩]
    rfl

/-- One more event of a block that is passed on. -/
theorem forwardedBlocks_extend (goes_on : forwardedStarts map [event] = []) (block : isBlockEvent event = true)
    (once : (forwardedStarts map events).Nodup) {j : Nat} (here : (forwardedStarts map events)[j]? = some (blockIndex event)) :
    forwardedBlocks map (events ++ [event]) =
      (forwardedBlocks map events).set j (events.filter (about (blockIndex event)) ++ [event]) := by
  have below : j < (forwardedStarts map events).length := (List.getElem?_eq_some_iff.1 here).1
  rw [forwardedBlocks, forwardedStarts_append, goes_on, List.append_nil, forwardedBlocks]
  apply List.ext_getElem?
  intro k
  by_cases same : j = k
  · subst same
    rw [List.getElem?_set_self (by rwa [List.length_map]), List.getElem?_map, here, Option.map_some, List.filter_append,
      List.filter_singleton, about_iff.2 ⟨block, rfl⟩]
    rfl
  · rw [List.getElem?_set_ne same, List.getElem?_map, List.getElem?_map]
    cases there : (forwardedStarts map events)[k]? with
    | none => rfl
    | some index =>
      have elsewhere : about index event = false := by
        rw [← Bool.not_eq_true, about_iff]
        rintro ⟨_, rfl⟩
        exact same ((List.getElem?_inj below once).1 (here.trans there.symm))
      rw [Option.map_some, Option.map_some, List.filter_append, List.filter_singleton, elsewhere]
      exact congrArg some (List.append_nil _)

end

/-- What the accumulator keeps of the client's indices. -/
structure SameIndices (acc acc' : MessagesStreamAccumulator) : Prop where
  map : acc'.gateway_map = acc.gateway_map
  started : acc'.message_started = acc.message_started
  next : acc'.next_index = acc.next_index
  index : acc'.index_map = acc.index_map
  suppressed : acc'.suppressed_indices = acc.suppressed_indices

/-- Behind `events` of a round that began with `base` as the next number of a block, the client was sent `frames`. -/
structure Forwards (map : GatewayToolMap) (base : Nat) (events : List Json) (acc : MessagesStreamAccumulator) (frames : List BlockFrame) :
    Prop where
  same_map : acc.gateway_map = map
  started : acc.message_started = true
  next : acc.next_index = (base + (forwardedStarts map events).length) % 2 ^ 32
  once : (forwardedStarts map events).Nodup
  apart : ∀ index ∈ forwardedStarts map events, index ∉ suppressedStarts map events
  index : ∀ k index, (forwardedStarts map events)[k]? = some index → acc.index_map.lookup index = some ((base + k) % 2 ^ 32)
  suppressed : ∀ index, index ∈ acc.suppressed_indices ↔ index ∈ suppressedStarts map events
  framed : BlocksFramed base (forwardedBlocks map events) frames
  blocks : ∀ frame ∈ frames, isBlockEvent frame.2 = true

section
variable {map : GatewayToolMap} {base : Nat} {events : List Json} {event : Json} {acc acc' : MessagesStreamAccumulator}
  {frames : List BlockFrame}

/-- An event that opens no block opens none for the client. -/
theorem starts_of_not_start (goes_on : isStart event = false) : forwardedStarts map [event] = [] ∧ suppressedStarts map [event] = [] := by
  unfold forwardedStarts suppressedStarts
  simp [goes_on]

/-- An event that opens nothing leaves the indices as they are. -/
theorem Forwards.goesOn (h : Forwards map base events acc frames) {frames' : List BlockFrame} (goes_on : isStart event = false)
    (same : SameIndices acc acc') (framed : BlocksFramed base (forwardedBlocks map (events ++ [event])) frames')
    (blocks : ∀ frame ∈ frames', isBlockEvent frame.2 = true) :
    Forwards map base (events ++ [event]) acc' frames' := by
  obtain ⟨opens, suppresses⟩ := @starts_of_not_start map event goes_on
  have opened : forwardedStarts map (events ++ [event]) = forwardedStarts map events := by
    rw [forwardedStarts_append, opens, List.append_nil]
  have hidden : suppressedStarts map (events ++ [event]) = suppressedStarts map events := by
    rw [suppressedStarts_append, suppresses, List.append_nil]
  refine ⟨same.map.trans h.same_map, same.started.trans h.started, ?_, ?_, ?_, ?_, ?_, framed, blocks⟩
  · rw [opened, same.next]
    exact h.next
  · rw [opened]
    exact h.once
  · rw [opened, hidden]
    exact h.apart
  · rw [opened, same.index]
    exact h.index
  · rw [hidden, same.suppressed]
    exact h.suppressed

/-- An event that the client is not sent. -/
theorem Forwards.silent (h : Forwards map base events acc frames) (goes_on : isStart event = false)
    (elsewhere : isBlockEvent event = true → blockIndex event ∉ forwardedStarts map events) (same : SameIndices acc acc') :
    Forwards map base (events ++ [event]) acc' frames := by
  refine h.goesOn goes_on same ?_ h.blocks
  rw [forwardedBlocks_other (starts_of_not_start goes_on).1 elsewhere]
  exact h.framed

/-- A delta or a stop goes to the client when its block does. -/
theorem Forwards.passes (h : Forwards map base events acc frames) {name : Text} (typed : eventType event = some name)
    (block : isBlockEvent event = true) (goes_on : isStart event = false)
    (first : ∃ start ∈ events, isStart start = true ∧ blockIndex start = blockIndex event) (same : SameIndices acc acc') :
    ∃ out, acc.forwardBlockEvent name event = out.map onWire ∧ Forwards map base (events ++ [event]) acc' (frames ++ out) := by
  rcases @mem_starts map events (blockIndex event) |>.2 first with forwarded | hidden
  · obtain ⟨j, here⟩ := List.mem_iff_getElem?.1 forwarded
    have visible : acc.suppressed_indices.contains (blockIndex event) = false := by
      rw [← Bool.not_eq_true, List.contains_iff_mem, h.suppressed]
      exact h.apart _ forwarded
    have out : acc.forwardBlockEvent name event = [(base + j, event)].map onWire := by
      rw [MessagesStreamAccumulator.forwardBlockEvent, visible, h.index j _ here, List.map_singleton, onWire, typed]
      rfl
    have found : (forwardedBlocks map events)[j]? = some (events.filter (about (blockIndex event))) := by
      rw [forwardedBlocks, List.getElem?_map, here]
      rfl
    refine ⟨_, out, h.goesOn goes_on same ?_ ?_⟩
    · rw [forwardedBlocks_extend (starts_of_not_start goes_on).1 block h.once here]
      exact h.framed.extend found rfl goes_on
    · intro frame member
      rcases List.mem_append.1 member with before | this
      · exact h.blocks frame before
      · rw [List.mem_singleton.1 this]
        exact block
  · have contained : acc.suppressed_indices.contains (blockIndex event) = true := List.contains_iff_mem.2 ((h.suppressed _).2 hidden)
    have silent : acc.forwardBlockEvent name event = [] := by
      rw [MessagesStreamAccumulator.forwardBlockEvent, contained]
      rfl
    refine ⟨[], silent, ?_⟩
    rw [List.append_nil]
    exact h.silent goes_on (fun _ forwarded => h.apart _ forwarded hidden) same

/-- A block opens: under the client's next index, or out of its sight. -/
theorem Forwards.opens (h : Forwards map base events acc frames) (start : isStart event = true)
    (fresh : events.filter (about (blockIndex event)) = []) :
    ∃ out, (acc.onBlockStart event).2 = out.map onWire ∧
      Forwards map base (events ++ [event]) (acc.onBlockStart event).1 (frames ++ out) := by
  obtain ⟨unopened, unsuppressed⟩ := @not_opened map events (blockIndex event) fresh
  have block := isStart_isBlockEvent start
  unfold MessagesStreamAccumulator.onBlockStart
  dsimp only
  rw [h.same_map]
  cases gateway : isGatewayToolUse map (event.at_ "content_block") with
  | true =>
    have opens : forwardedStarts map [event] = [] := by simp [forwardedStarts, start, gateway]
    have suppresses : suppressedStarts map [event] = [blockIndex event] := by simp [suppressedStarts, start, gateway]
    have opened : forwardedStarts map (events ++ [event]) = forwardedStarts map events := by
      rw [forwardedStarts_append, opens, List.append_nil]
    rw [if_pos rfl]
    refine ⟨[], rfl, rfl, h.started, ?_, ?_, ?_, ?_, ?_, ?_, ?_⟩
    · rw [opened]
      exact h.next
    · rw [opened]
      exact h.once
    · rw [opened, suppressedStarts_append, suppresses]
      intro index member hidden
      rcases List.mem_append.1 hidden with before | this
      · exact h.apart index member before
      · exact unopened (List.mem_singleton.1 this ▸ member)
    · rw [opened]
      exact h.index
    · intro index
      rw [suppressedStarts_append, suppresses, List.mem_append, List.mem_singleton, List.mem_cons, h.suppressed, or_comm]
    · rw [List.append_nil, forwardedBlocks_other opens fun _ => unopened]
      exact h.framed
    · rw [List.append_nil]
      exact h.blocks
  | false =>
    have opens : forwardedStarts map [event] = [blockIndex event] := by simp [forwardedStarts, start, gateway]
    have suppresses : suppressedStarts map [event] = [] := by simp [suppressedStarts, start, gateway]
    have hidden : suppressedStarts map (events ++ [event]) = suppressedStarts map events := by
      rw [suppressedStarts_append, suppresses, List.append_nil]
    have count : (forwardedBlocks map events).length = (forwardedStarts map events).length := by rw [forwardedBlocks, List.length_map]
    have typed : eventType event = some (utf8 "content_block_start") := by simpa [isStart] using start
    rw [if_neg Bool.false_ne_true]
    refine ⟨[(base + (forwardedBlocks map events).length, event)], ?_, rfl, h.started, ?_, ?_, ?_, ?_, ?_, ?_, ?_⟩
    · rw [List.map_singleton, onWire, typed, h.next, ← count]
      rfl
    · rw [forwardedStarts_append, opens, List.length_append, List.length_singleton, h.next]
      dsimp only
      omega
    · rw [forwardedStarts_append, opens]
      exact h.once.append (List.nodup_singleton _) fun index member this => unopened (List.mem_singleton.1 this ▸ member)
    · rw [forwardedStarts_append, opens, hidden]
      intro index member
      rcases List.mem_append.1 member with before | this
      · exact h.apart index before
      · exact List.mem_singleton.1 this ▸ unsuppressed
    · intro k index found
      rw [forwardedStarts_append, opens] at found
      by_cases before : k < (forwardedStarts map events).length
      · rw [List.getElem?_append_left before] at found
        have other : index ≠ blockIndex event := fun same => unopened (same ▸ List.mem_of_getElem? found)
        exact (lookup_insertEntry_ne other).trans (h.index k index found)
      · rw [List.getElem?_append_right (Nat.le_of_not_lt before)] at found
        have last : k - (forwardedStarts map events).length = 0 := by
          have below := (List.getElem?_eq_some_iff.1 found).1
          rw [List.length_singleton] at below
          omega
        rw [last] at found
        cases found
        have this : k = (forwardedStarts map events).length := by omega
        rw [this, ← h.next]
        exact lookup_insertEntry_self
    · rw [hidden]
      exact h.suppressed
    · have framed : BlocksFramed (base + (forwardedBlocks map events).length) [[event]]
          [(base + (forwardedBlocks map events).length, event)] := framed_single rfl start
      rw [forwardedBlocks_open opens block fresh]
      exact h.framed.append framed
    · intro frame member
      rcases List.mem_append.1 member with before | this
      · exact h.blocks frame before
      · rw [List.mem_singleton.1 this]
        exact block

/-- What an event of a block stands behind. -/
theorem started_of_openedFirst {before later : List Json} (opened : OpenedFirst (before ++ event :: later)) (block : isBlockEvent event = true)
    (goes_on : isStart event = false) : ∃ start ∈ before, isStart start = true ∧ blockIndex start = blockIndex event := by
  have behind : before.filter (about (blockIndex event)) ≠ [] := by
    intro fresh
    rw [(opened before event later rfl block).2 fresh] at goes_on
    cases goes_on
  -- the first event about the index is a start, since nothing about it stands before
  obtain ⟨first, rest, shape⟩ := List.exists_cons_of_ne_nil behind
  obtain ⟨earlier, between, split, none_before, here, _⟩ := List.filter_eq_cons_iff.1 shape
  obtain ⟨block', same⟩ := about_iff.1 here
  refine ⟨first, by rw [split]; simp, ?_, same⟩
  have placed : before ++ event :: later = earlier ++ first :: (between ++ event :: later) := by rw [split]; simp
  refine (opened earlier first _ placed block').2 ?_
  rw [same, List.filter_eq_nil_iff]
  exact none_before

/-- **One event.** -/
theorem Forwards.step (h : Forwards map base events acc frames) (quiet : Quiet event) {later : List Json}
    (opened : OpenedFirst (events ++ event :: later)) :
    ∃ out, (acc.pushEvent event).2 = out.map onWire ∧
      Forwards map base (events ++ [event]) (acc.pushEvent event).1 (frames ++ out) := by
  have other (start : isStart event = false) (delta : isDelta event = false) (stop : isStop event = false) :
      isBlockEvent event = true → blockIndex event ∉ forwardedStarts map events := by
    intro block
    rw [isBlockEvent, start, delta, stop] at block
    cases block
  have unseen {acc' : MessagesStreamAccumulator} (start : isStart event = false) (delta : isDelta event = false)
      (stop : isStop event = false) (same : SameIndices acc acc') :
      ∃ out, ([] : List ClientEvent) = out.map onWire ∧ Forwards map base (events ++ [event]) acc' (frames ++ out) := by
    refine ⟨[], rfl, ?_⟩
    rw [List.append_nil]
    exact h.silent start (other start delta stop) same
  rcases @pushEvent_cases acc event quiet with ⟨start, _, _, _, pushed⟩ | ⟨start, delta, _, _, pushed⟩ | ⟨start, _, stop, _, pushed⟩ |
    ⟨start, delta, stop, _, pushed⟩ | ⟨start, delta, stop, _, ⟨_, pushed⟩ | pushed⟩
  · rw [pushed]
    exact h.opens start ((opened events event later rfl (isStart_isBlockEvent start)).1 start)
  · have block : isBlockEvent event = true := by rw [isBlockEvent, delta, Bool.or_true, Bool.true_or]
    have typed : eventType event = some (utf8 "content_block_delta") := by simpa [isDelta] using delta
    rw [pushed, MessagesStreamAccumulator.onBlockDelta]
    split
    · exact h.passes typed block start (started_of_openedFirst opened block start) ⟨rfl, rfl, rfl, rfl, rfl⟩
    · exact h.passes typed block start (started_of_openedFirst opened block start) ⟨rfl, rfl, rfl, rfl, rfl⟩
  · have block : isBlockEvent event = true := by rw [isBlockEvent, stop, Bool.or_true]
    have typed : eventType event = some (utf8 "content_block_stop") := by simpa [isStop] using stop
    rw [pushed]
    exact h.passes typed block start (started_of_openedFirst opened block start) ⟨rfl, rfl, rfl, rfl, rfl⟩
  · rw [pushed]
    exact unseen start delta stop ⟨rfl, rfl, rfl, rfl, rfl⟩
  · rw [pushed, MessagesStreamAccumulator.onMessageStart, if_pos h.started]
    exact unseen start delta stop ⟨rfl, rfl, rfl, rfl, rfl⟩
  · rw [pushed]
    exact unseen start delta stop ⟨rfl, rfl, rfl, rfl, rfl⟩

/-- **All events of a round.** -/
theorem Forwards.run {later : List Json} (h : Forwards map base events acc frames) (quiet : ∀ event ∈ later, Quiet event)
    (opened : OpenedFirst (events ++ later)) :
    ∃ out, acc.sentFor later = out.map onWire ∧ Forwards map base (events ++ later) (acc.after later) (frames ++ out) := by
  induction later generalizing events acc frames with
  | nil =>
    refine ⟨[], rfl, ?_⟩
    rw [List.append_nil, List.append_nil]
    exact h
  | cons event later ih =>
    obtain ⟨now, sent, stepped⟩ := h.step (quiet event List.mem_cons_self) opened
    have split : events ++ event :: later = events ++ [event] ++ later := by simp
    rw [split] at opened ⊢
    obtain ⟨rest, sent', ran⟩ := ih stepped (fun event member => quiet event (List.mem_cons_of_mem _ member)) opened
    refine ⟨now ++ rest, ?_, ?_⟩
    · rw [MessagesStreamAccumulator.sentFor, sent, sent', List.map_append]
    · rw [MessagesStreamAccumulator.after_cons, ← List.append_assoc]
      exact ran

/-- A round in a message that has begun. -/
theorem forwards_beginRound (started : acc.message_started = true) (same_map : acc.gateway_map = map)
    (next : acc.next_index = base % 2 ^ 32) : Forwards map base [] acc.beginRound [] :=
  ⟨same_map, started, next, List.nodup_nil, fun _ member => (nomatch member), fun _ _ found => (nomatch found),
    fun _ => Iff.rfl, framed_nil, fun _ member => (nomatch member)⟩

end

end AgenticStack.Messages
