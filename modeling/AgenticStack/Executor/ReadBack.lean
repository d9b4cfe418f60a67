import AgenticStack.Events.Normalized
import AgenticStack.Executor.Inference
import AgenticStack.Executor.StreamRun
import AgenticStack.Library.JsonOrder
import AgenticStack.Library.ObjectFields

/-!
# A stream read again

What a gateway sends its client is a stream of events like the one it reads
from a model. A reader of the gateway's own kind, behind it, has every event
that was sent, once and in order, however the bytes are cut on the way; and of
a stream that breaks off it has the events whose lines were finished.
-/

namespace AgenticStack
set_option autoImplicit false
open Library

/-- `normalize_sse_line`. -/
def normalizeSseLine (items : ItemSerde) (newId : NewId) (serde : SerdeJson) (line : Text) : Option EventFrame :=
  match SseLine.parse line with
  | .data data =>
    match normalizeSseData items newId serde data with
    | .ok frame => frame
    | .error _ => none
  | .done | .ignore => none

namespace WireEvent

/-- The keys of an event that are not among the rest of it. -/
def known : List Text := [utf8 "type", utf8 "sequence_number", utf8 "output_index"]

/-- The fields of an event before the rest of it. -/
def fields (wire : WireEvent) : List (Text × Option Json) :=
  [(utf8 "type", wire.event_type.map .str),
    (utf8 "sequence_number", wire.sequence_number.map fun number => .num (.posInt number)),
    (utf8 "output_index", wire.output_index.map fun index => .num (.posInt index))]

/-- The data line of an event. -/
def line (wire : WireEvent) : Text := utf8 "data: " ++ wire.toJson.write

/-- The type its name says. -/
def type (wire : WireEvent) : SSEEventType := wire.event_type.elim .other SSEEventType.ofStr

/-- The event as a reader makes it from its line. -/
def frame (items : ItemSerde) (newId : NewId) (wire : WireEvent) : EventFrame :=
  ⟨wire.type, extractPayload items newId wire.type wire.toJson, wire⟩

/-- An event that a reader takes as it is. It is a value the JSON crate can keep and reads back, its line is within the
limit, its index is a `u32`, and it does not complete an incomplete response. -/
structure Legible (serde : SerdeJson) (wire : WireEvent) : Prop where
  flat : Flattened known wire.rest
  canonical : wire.toJson.Canonical serde.readFloat
  floats : wire.toJson.reread serde.readFloat = wire.toJson
  depth : wire.toJson.depth ≤ 127
  chars : isUtf8 wire.toJson.write = true
  short : wire.line.length ≤ maxSseLineBytes
  index : ∀ index ∈ wire.output_index, index < 2 ^ 32
  settled : wire.type = .responseCompleted →
    ((wire.toJson.at_ "response").at_ "status").asStr ≠ some (utf8 "incomplete")

section
variable {items : ItemSerde} {newId : NewId} {serde : SerdeJson} {wire : WireEvent} {key : Text}

/-- An event is written with its fields before the rest. -/
theorem toJson_eq : wire.toJson = .obj (present wire.fields ++ wire.rest) := by
  unfold toJson fields
  rw [present_cons, present_cons, present_cons]
  simp [present, Function.comp_def]

/-- A field of the event is the one that is read back, whatever the rest has. -/
theorem lookup_toJson (flat : Flattened known wire.rest) (mine : key ∈ known) :
    (present wire.fields ++ wire.rest).lookup key = (wire.fields.lookup key).join := by
  rw [flat.lookup_append mine]
  exact lookup_present (by decide : known.Nodup)

theorem get_type (flat : Flattened known wire.rest) :
    (present wire.fields ++ wire.rest).lookup (utf8 "type") = wire.event_type.map .str :=
  lookup_toJson flat (by decide)

/-- The type is read back. -/
theorem get_sequence_number (flat : Flattened known wire.rest) :
    (present wire.fields ++ wire.rest).lookup (utf8 "sequence_number") =
      wire.sequence_number.map fun number => .num (.posInt number) :=
  lookup_toJson flat (by decide)

/-- The number is read back. -/
theorem get_output_index (flat : Flattened known wire.rest) :
    (present wire.fields ++ wire.rest).lookup (utf8 "output_index") =
      wire.output_index.map fun index => .num (.posInt index) :=
  lookup_toJson flat (by decide)

/-- An optional field that was written is read. -/
theorem optionField_map {α β : Type} {fields : List (Text × Json)} {value : Option α} {write : α → Json}
    {read : Json → Option β} {value' : Option β} (here : fields.lookup key = value.map write)
    (solid : ∀ a, write a ≠ .null) (reads : value.map (fun a => read (write a)) = value'.map some) :
    optionField fields key read = some value' := by
  unfold optionField
  rw [here]
  cases value with
  | none =>
    cases value' with
    | none => rfl
    | some b => cases reads
  | some a =>
    rw [Option.map_some] at reads ⊢
    split
    · rename_i absent
      cases absent
    · rename_i null
      exact absurd (Option.some.inj null) (solid a)
    · rename_i v _ here
      obtain ⟨b, rfl, same⟩ := Option.map_eq_some_iff.1 reads.symm
      rw [← Option.some.inj here, ← same]
      rfl

/-- An event object is read as the event it was written from. -/
theorem ofJson_toJson (flat : Flattened known wire.rest) : WireEvent.ofJson wire.toJson = some wire := by
  have type_ : optionField (present wire.fields ++ wire.rest) "type" Json.asStr = some wire.event_type :=
    optionField_map (get_type flat) (by simp) rfl
  have number : optionField (present wire.fields ++ wire.rest) "sequence_number" readSequenceNumber =
      some (wire.sequence_number.map some) :=
    optionField_map (get_sequence_number flat) (by simp) (Option.map_map ..).symm
  have index : optionField (present wire.fields ++ wire.rest) "output_index" Json.asU64 = some wire.output_index :=
    optionField_map (get_output_index flat) (by simp) rfl
  have rest : (present wire.fields ++ wire.rest).filter (fun field => !known.contains field.1) = wire.rest :=
    flat.filter_append fun key mem => mem_keys_of_present mem
  have joined : (wire.sequence_number.map some).join = wire.sequence_number := by
    cases wire.sequence_number <;> rfl
  rw [toJson_eq, WireEvent.ofJson]
  simp only [Json.asObject, Option.bind_eq_bind, Option.bind_some, type_, number, index, joined]
  exact congrArg (fun rest => some (WireEvent.mk wire.event_type wire.sequence_number wire.output_index rest)) rest

/-- An event is written between braces. -/
theorem write_toJson (wire : WireEvent) : ∃ body, wire.toJson.write = 0x7b :: (body ++ [0x7d]) := ⟨_, rfl⟩

/-- The data of an event's line is the event. -/
theorem parse_line : SseLine.parse wire.line = .data wire.toJson.write := by
  obtain ⟨body, written⟩ := write_toJson wire
  have hard : ∀ s, dropSpace (0x7b :: s) = none := fun s => dropSpace_of_hard (by decide)
  have data : stripPrefix (utf8 "data:") wire.line = some (utf8 " " ++ wire.toJson.write) := by
    rw [stripPrefix_eq_some_iff, line, ← List.append_assoc]
    congr 1
  have blank : stripPrefix (utf8 " ") (utf8 " " ++ wire.toJson.write) = some wire.toJson.write :=
    stripPrefix_eq_some_iff.2 rfl
  have full : isBlank wire.toJson.write = false := by
    rw [written, isBlank, List.length_cons, isBlankWithin, hard]
    exact nofun
  have goes_on : trimsTo (utf8 "[DONE]") wire.toJson.write = false := by
    have other : stripPrefix (utf8 "[DONE]") (0x7b :: (body ++ [0x7d])) = none := rfl
    rw [trimsTo, written, trimStart_of_none (hard _), other]
  unfold SseLine.parse
  rw [data]
  dsimp only
  rw [blank, Option.getD_some, full, if_neg Bool.false_ne_true, goes_on, if_neg Bool.false_ne_true]

/-- A legible event is read as the type it was written with. -/
theorem reconcileStatus_toJson (legible : wire.Legible serde) : reconcileStatus wire.toJson = (wire.type, wire.toJson) := by
  have type_ : ((wire.toJson.get "type").bind Json.asStr).elim .other SSEEventType.ofStr = wire.type := by
    rw [toJson_eq, Json.get, get_type legible.flat, type]
    cases wire.event_type <;> rfl
  unfold reconcileStatus
  rw [type_, if_neg]
  rintro ⟨completed, incomplete⟩
  exact legible.settled completed incomplete

/-- **A line is read as the event it was written from.** -/
theorem Legible.normalize (legible : wire.Legible serde) :
    normalizeSseLine items newId serde wire.line = some (wire.frame items newId) := by
  have value : serde.fromStr wire.toJson.write = some wire.toJson := by
    rw [fromStr_write serde legible.canonical, if_pos legible.depth, legible.floats]
  have index : ((wire.toJson.get "output_index").all fun index => (index.asU64.any (· < 2 ^ 32))) = true := by
    rw [toJson_eq, Json.get, get_output_index legible.flat]
    cases named : wire.output_index with
    | none => rfl
    | some index =>
      have fits := legible.index index named
      simpa [Json.asU64] using fits
  unfold normalizeSseLine
  rw [parse_line]
  dsimp only
  rw [normalizeSseData, value]
  dsimp only
  rw [normalizeSseValue, if_pos index, reconcileStatus_toJson legible]
  dsimp only
  rw [ofJson_toJson legible.flat]
  rfl

end

end WireEvent

/-- The line of the name of an event. -/
def nameLine (wire : WireEvent) : Option Text :=
  (wire.event_type.filter fun name => !name.isEmpty && !name.any fun b => b == 0x0d || b == 0x0a).map fun name =>
    utf8 "event: " ++ name

/-- The lines of the chunk of an event. -/
def chunkLines (wire : WireEvent) : List Text := (nameLine wire).toList ++ [wire.line, []]

section
variable {serde : SerdeJson} {wire : WireEvent} {frame : EventFrame} {name : Text}

/-- The line that names an event fits on a line. -/
theorem nameLine_eq_some (named : nameLine wire = some name) :
    ∃ event_type, wire.event_type = some event_type ∧ 0x0a ∉ event_type ∧ 0x0d ∉ event_type ∧
      name = utf8 "event: " ++ event_type := by
  obtain ⟨event_type, kept, rfl⟩ := Option.map_eq_some_iff.1 named
  obtain ⟨here, plain⟩ := Option.filter_eq_some_iff.1 kept
  rw [Bool.and_eq_true, Bool.not_eq_true', Bool.not_eq_true', List.any_eq_false] at plain
  exact ⟨event_type, here, fun mem => plain.2 0x0a mem rfl, fun mem => plain.2 0x0d mem rfl, rfl⟩

/-- The bytes of an event are its name, where it has one, and its fields. -/
theorem serializeSseFrame_eq : serializeSseFrame frame =
    ((nameLine frame.wire).map fun name => name ++ [0x0a]).elim [] id ++ (frame.wire.line ++ [0x0a, 0x0a]) := by
  unfold serializeSseFrame nameLine WireEvent.line
  have newline : utf8 "\n" = [0x0a] := by decide
  have blank : utf8 "\n\n" = [0x0a, 0x0a] := by decide
  rw [newline, blank]
  cases frame.wire.event_type.filter _ <;> simp

/-- The chunk of an event is its lines, all finished. -/
theorem feedLines_chunk (canonical : frame.wire.toJson.Canonical serde.readFloat) :
    feedLines 0x0a [] (serializeSseFrame frame) = (chunkLines frame.wire, []) := by
  have plain : (0x0a : UInt8) ∉ frame.wire.line := by
    rw [WireEvent.line, List.mem_append, not_or]
    exact ⟨by decide, newline_not_mem_write _ canonical⟩
  have data : feedLines 0x0a [] (frame.wire.line ++ [0x0a, 0x0a]) = ([frame.wire.line, []], []) := by
    rw [feedLines_line plain]
    rfl
  rw [serializeSseFrame_eq, chunkLines]
  cases named : nameLine frame.wire with
  | none => exact data
  | some name =>
    obtain ⟨event_type, -, single, -, rfl⟩ := nameLine_eq_some named
    have first : (0x0a : UInt8) ∉ utf8 "event: " ++ event_type := by
      rw [List.mem_append, not_or]
      exact ⟨by decide, single⟩
    rw [Option.map_some, Option.elim_some, id_eq, List.append_assoc, List.singleton_append, feedLines_line first, data]
    rfl

/-- A line that does not end in a carriage return is its text. -/
theorem lineText_of_bare {line : Text} (bare : line.getLast? ≠ some 0x0d) :
    lineText line = if isUtf8 line then some line else none := by
  unfold lineText
  rw [if_neg bare]

/-- What comes after an ascii prefix is text where the whole is. -/
theorem isUtf8_append_of_ascii {front s : Text} (ascii : ∀ b ∈ front, b < 0x80) : isUtf8 (front ++ s) = isUtf8 s := by
  induction front with
  | nil => rfl
  | cons b front ih =>
    rw [← ih fun b mem => ascii b (List.mem_cons_of_mem _ mem), List.cons_append, isUtf8.eq_def]
    dsimp only
    rw [if_pos (ascii b List.mem_cons_self)]

/-- A line that is no data line is not shown, and does not end the stream. -/
theorem shownLines_other {line : Text} (apart : dataField line = none) (bare : line.getLast? ≠ some 0x0d) :
    shownLines [line] = [] ∧ endsStream [line] = false := by
  have goes_on : isDoneLine line = false := by
    rw [isDoneLine, apart]
    rfl
  have hidden : shownLine line = none := by
    rw [shownLine, apart]
    rfl
  unfold shownLines endsStream
  rw [List.filterMap_cons, lineText_of_bare bare]
  cases isUtf8 line <;> simp [goes_on, hidden]

/-- The line of a legible event is shown, and is not the end. -/
theorem shownLines_line (legible : wire.Legible serde) : shownLines [wire.line] = [wire.line] ∧ endsStream [wire.line] = false := by
  obtain ⟨body, written⟩ := wire.write_toJson
  have data : dataField wire.line = some (utf8 " " ++ wire.toJson.write) := by
    rw [dataField, stripPrefix_eq_some_iff, WireEvent.line, ← List.append_assoc]
    congr 1
  have blank : stripPrefix (utf8 " ") (utf8 " " ++ wire.toJson.write) = some wire.toJson.write :=
    stripPrefix_eq_some_iff.2 rfl
  have goes_on : isDoneLine wire.line = false := by
    rw [isDoneLine, data, Option.any_some, blank, written]
    rfl
  have shown : shownLine wire.line = some wire.line := by
    rw [shownLine, data, Option.map_some, blank]
    rfl
  have bare : wire.line.getLast? ≠ some 0x0d := by
    have shape : wire.line = (utf8 "data: " ++ 0x7b :: body) ++ [0x7d] := by
      rw [WireEvent.line, written, List.append_assoc]
      rfl
    rw [shape, List.getLast?_concat]
    exact fun same => absurd (Option.some.inj same) (by decide)
  have ascii : ∀ b ∈ utf8 "data: ", b < 0x80 := by
    have all : (utf8 "data: ").all (· < 0x80) = true := rfl
    exact fun b mem => of_decide_eq_true (List.all_eq_true.1 all b mem)
  have chars : isUtf8 wire.line = true := (isUtf8_append_of_ascii ascii).trans legible.chars
  unfold shownLines endsStream
  rw [List.filterMap_cons, lineText_of_bare bare, if_pos chars]
  simp [goes_on, shown]

/-- The chunk of an event shows its line, and does not end the stream. -/
theorem shownLines_chunk (legible : wire.Legible serde) :
    shownLines (chunkLines wire) = [wire.line] ∧ endsStream (chunkLines wire) = false := by
  have blank := @shownLines_other [] rfl (by simp)
  have data := shownLines_line legible
  have rest : shownLines [wire.line, []] = [wire.line] ∧ endsStream [wire.line, []] = false := by
    rw [← List.singleton_append, shownLines_append, endsStream_append, data.1, data.2, blank.1, blank.2]
    exact ⟨rfl, rfl⟩
  unfold chunkLines
  cases named : nameLine wire with
  | none => exact rest
  | some name =>
    obtain ⟨event_type, -, -, single, rfl⟩ := nameLine_eq_some named
    have bare : (utf8 "event: " ++ event_type).getLast? ≠ some 0x0d := by
      intro last
      rcases List.mem_append.1 (List.mem_of_getLast? last) with front | back
      · exact absurd front (by decide)
      · exact single back
    have first := @shownLines_other (utf8 "event: " ++ event_type) rfl bare
    rw [Option.toList_some, shownLines_append, endsStream_append, first.1, first.2, rest.1, rest.2]
    exact ⟨rfl, rfl⟩

end

section
variable {wire : WireEvent} {name : Text}

/-- Writing a text makes it no shorter. -/
theorem length_le_flatMap_escapeByte (s : Text) : s.length ≤ (s.flatMap escapeByte).length := by
  induction s with
  | nil => exact Nat.le_refl _
  | cons b s ih =>
    have one : 0 < (escapeByte b).length := by
      unfold escapeByte
      repeat' split
      all_goals first | decide | simp
    rw [List.flatMap_cons, List.length_append, List.length_cons]
    omega

/-- A list is at least as long as its first member. -/
theorem length_le_commaSeparated (part : Text) (parts : List Text) : part.length ≤ (commaSeparated (part :: parts)).length := by
  cases parts with
  | nil => exact Nat.le_refl _
  | cons next parts =>
    rw [commaSeparated, List.length_append, List.length_append]
    · omega
    · simp

/-- The line of the name is shorter than the data line, which has the name. -/
theorem length_nameLine (named : nameLine wire = some name) : name.length ≤ wire.line.length := by
  obtain ⟨event_type, here, -, -, rfl⟩ := nameLine_eq_some named
  have first : present wire.fields ++ wire.rest =
      (utf8 "type", .str event_type) :: (present (wire.fields.drop 1) ++ wire.rest) := by
    rw [WireEvent.fields, present_cons, here]
    rfl
  have typed : (writeString (utf8 "type") ++ utf8 ":" ++ writeString event_type).length =
      7 + (writeString event_type).length := by
    rw [List.length_append]
    rfl
  have written : (writeString event_type).length = (event_type.flatMap escapeByte).length + 2 := by simp [writeString]
  have escaped := length_le_flatMap_escapeByte event_type
  have part := length_le_commaSeparated (writeString (utf8 "type") ++ utf8 ":" ++ writeString event_type)
    (Json.writeFields (present (wire.fields.drop 1) ++ wire.rest))
  have object : wire.line = utf8 "data: " ++ 0x7b :: (commaSeparated
      ((writeString (utf8 "type") ++ utf8 ":" ++ writeString event_type) ::
        Json.writeFields (present (wire.fields.drop 1) ++ wire.rest)) ++ [0x7d]) := by
    rw [WireEvent.line, WireEvent.toJson_eq, first]
    rfl
  have event : (utf8 "event: ").length = 7 := by decide
  have data : (utf8 "data: ").length = 6 := by decide
  rw [object, List.length_append, List.length_append, List.length_cons, List.length_append, event, data]
  rw [typed, written] at part
  omega

end

/-- The bytes of some events. -/
def eventBytes (frames : List EventFrame) : Text := (frames.map serializeSseFrame).flatten

/-- The bytes of a stream of events and its marker. -/
def streamBytes (frames : List EventFrame) : Text := (frames.map serializeSseFrame ++ [DONE_MARKER]).flatten

/-- The lines of some events. -/
def eventLines (frames : List EventFrame) : List Text := frames.flatMap fun frame => chunkLines frame.wire

section
variable {serde : SerdeJson} {frames : List EventFrame}

/-- The bytes of events are their lines. -/
theorem feedLines_events (legible : ∀ frame ∈ frames, frame.wire.Legible serde) :
    feedLines 0x0a [] (eventBytes frames) = (eventLines frames, []) :=
  feedLines_blocks fun frame mem => feedLines_chunk (legible frame mem).canonical

/-- The lines of events are shown, one after the other. -/
theorem shownLines_events (legible : ∀ frame ∈ frames, frame.wire.Legible serde) :
    shownLines (eventLines frames) = frames.map (·.wire.line) ∧ endsStream (eventLines frames) = false := by
  induction frames with
  | nil => exact ⟨rfl, rfl⟩
  | cons frame frames ih =>
    have first := shownLines_chunk (legible frame List.mem_cons_self)
    have rest := ih fun other mem => legible other (List.mem_cons_of_mem _ mem)
    rw [eventLines, List.flatMap_cons, shownLines_append, endsStream_append, first.1, first.2, if_neg Bool.false_ne_true]
    exact ⟨congrArg _ rest.1, rest.2⟩

/-- The bytes of a stream are the lines of its events and the mark of the end. -/
theorem feedLines_stream (legible : ∀ frame ∈ frames, frame.wire.Legible serde) :
    feedLines 0x0a [] (streamBytes frames) = (eventLines frames ++ [utf8 "data: [DONE]", []], []) := by
  have marker : feedLines 0x0a [] DONE_MARKER = ([utf8 "data: [DONE]", []], []) := by decide
  rw [streamBytes, List.flatten_append, List.flatten_singleton, feedLines_append, ← eventBytes, feedLines_events legible,
    marker]

/-- A whole stream shows the line of every event. -/
theorem shownLines_stream (legible : ∀ frame ∈ frames, frame.wire.Legible serde) :
    shownLines (bodyLines (streamBytes frames)) = frames.map (·.wire.line) ∧ endsStream (bodyLines (streamBytes frames)) = true := by
  have marker : shownLines [utf8 "data: [DONE]", []] = [] ∧ endsStream [utf8 "data: [DONE]", []] = true := by decide
  obtain ⟨shown, goes_on⟩ := shownLines_events legible
  rw [bodyLines, feedLines_stream legible, shownLines_append, endsStream_append, shown, goes_on, marker.1, marker.2,
    if_neg Bool.false_ne_true, List.append_nil]
  exact ⟨rfl, rfl⟩

/-- The lines of a stream are not too long. -/
theorem bodyWithin_stream (legible : ∀ frame ∈ frames, frame.wire.Legible serde) : BodyWithin (streamBytes frames) := by
  unfold BodyWithin LinesWithin
  rw [feedLines_stream legible]
  refine ⟨fun line mem => ?_, Nat.zero_le _⟩
  rcases List.mem_append.1 mem with event | marker
  · obtain ⟨frame, there, mine⟩ := List.mem_flatMap.1 event
    have short := (legible frame there).short
    rcases List.mem_append.1 mine with named | rest
    · exact Nat.le_trans (length_nameLine (Option.mem_toList.1 named)) short
    · rcases List.mem_cons.1 rest with rfl | blank
      · exact short
      · rw [List.mem_singleton.1 blank]
        exact Nat.zero_le _
  · have known : ∀ line ∈ [utf8 "data: [DONE]", []], line.length ≤ maxSseLineBytes := by decide
    exact known line marker

/-- **A stream that is cut anywhere, or breaks off**, is read as its first events: those whose lines have arrived, or all
of them, and then nothing more. -/
theorem responseLines_stream {cs : List Text} {failure : Option ExecutorError}
    (legible : ∀ frame ∈ frames, frame.wire.Legible serde) (cut : cs.flatten <+: streamBytes frames) :
    ∃ lines ending, responseLines [] (bodyChunks cs failure) = lines.map .ok ++ ending ∧
      lines <+: frames.map (·.wire.line) ∧
      (∀ sent, sent <+: frames → eventBytes sent <+: cs.flatten → sent.length ≤ lines.length) ∧
      (ending = failure.toList.map .error ∨ ending = [] ∧ lines = frames.map (·.wire.line)) ∧
      (cs.flatten = streamBytes frames → ending = [] ∧ lines = frames.map (·.wire.line)) := by
  have within : BodyWithin cs.flatten := (bodyWithin_stream legible).front cut
  have shown : responseLines [] (bodyChunks cs failure) = (shownLines (bodyLines cs.flatten)).map .ok ++
      if endsStream (bodyLines cs.flatten) then [] else failure.toList.map .error :=
    responseLines_within List.not_mem_nil within
  obtain ⟨all, ends⟩ := shownLines_stream legible
  obtain ⟨later, whole⟩ : bodyLines cs.flatten <+: bodyLines (streamBytes frames) := feedLines_front cut
  have front : shownLines (bodyLines cs.flatten) <+: frames.map (·.wire.line) := by
    rw [← all, ← whole]
    exact shownLines_prefix_append
  have marked (done : endsStream (bodyLines cs.flatten) = true) :
      shownLines (bodyLines cs.flatten) = frames.map (·.wire.line) := by
    rw [← all, ← whole, shownLines_append, if_pos done]
  refine ⟨shownLines (bodyLines cs.flatten), _, shown, front, ?_, ?_, ?_⟩
  · intro sent begins arrived
    have mine : ∀ frame ∈ sent, frame.wire.Legible serde := fun frame mem => legible frame (begins.subset mem)
    obtain ⟨more, same⟩ : bodyLines (eventBytes sent) <+: bodyLines cs.flatten := feedLines_front arrived
    have lines : bodyLines (eventBytes sent) = eventLines sent := by rw [bodyLines, feedLines_events mine]
    have first : shownLines (eventLines sent) <+: shownLines (bodyLines cs.flatten) := by
      rw [← same, lines]
      exact shownLines_prefix_append
    have length := first.length_le
    rwa [(shownLines_events mine).1, List.length_map] at length
  · cases done : endsStream (bodyLines cs.flatten) with
    | false => exact .inl rfl
    | true => exact .inr ⟨rfl, marked done⟩
  · intro complete
    have done : endsStream (bodyLines cs.flatten) = true := complete ▸ ends
    exact ⟨if_pos done, marked done⟩

/-- The lines of the first events are read as these events. -/
theorem normalize_lines {items : ItemSerde} {newId : NewId} {lines : List Text}
    (legible : ∀ frame ∈ frames, frame.wire.Legible serde) (front : lines <+: frames.map (·.wire.line)) :
    lines.map (normalizeSseLine items newId serde) =
      (frames.take lines.length).map fun frame => some (frame.wire.frame items newId) := by
  have first : lines = (frames.take lines.length).map (·.wire.line) := by
    rw [List.map_take]
    exact List.prefix_iff_eq_take.1 front
  conv_lhs => rw [first]
  rw [List.map_map]
  apply List.map_congr_left
  intro frame mem
  exact (legible frame (List.mem_of_mem_take mem)).normalize

end

/-- The events of a stream that has ended. -/
def StreamTask.clientEvents (values : SerdeValues) (failure : StreamFailureContext) (task : StreamTask) (turn : Persistence) :
    List EventFrame :=
  task.events.map (·.frame) ++ [lastEvent values failure task turn (eventNumber task.events.length)]

section
variable {values : SerdeValues} {failure : StreamFailureContext} {task : StreamTask} {turn : Persistence} {n : Nat}
  {s : StreamState} {services : Engine.Services} {start : Engine.State} {closes_after : Option Nat} {streamEnd : StreamEnd}
  {items : ItemSerde} {newId : NewId} {serde : SerdeJson} {cs : List Text} {broken : Option ExecutorError}

/-- The events the client is sent are numbered in sequence. -/
theorem clientEvents_inSequence (sound : task.Sound) : InSequence (task.clientEvents values failure turn) := by
  have number := (@lastEvent_ends values failure task turn sound).number
  apply sound.numbered.inSequence.concat
  rw [number, List.length_map]

/-- **What a gateway streams, a gateway reads.** However the bytes of a stream are cut on their way, and wherever they
break off, a reader of the gateway's kind has the first events of the stream as they were sent, under the numbers from zero
on, among them every event that has arrived whole; after the marker it reads nothing more. -/
theorem stream_read_back (fresh : start.delivery = .new (some (.new closes_after)))
    (plays : Engine.Tasks services start task) (run : StreamRun values failure task turn n s)
    (ended : s.ended = some streamEnd) (legible : ∀ frame ∈ task.clientEvents values failure turn, frame.wire.Legible serde)
    (cut : cs.flatten <+: s.chunks.flatten) :
    ∃ (lines : List Text) (ending : List (ExecutorResult Text)),
      responseLines [] (bodyChunks cs broken) = lines.map .ok ++ ending ∧
      lines.map (normalizeSseLine items newId serde) =
        ((task.clientEvents values failure turn).take lines.length).map (fun frame => some (frame.wire.frame items newId)) ∧
      lines.map (fun line => (normalizeSseLine items newId serde line).bind (·.wire.sequence_number)) =
        (List.range lines.length).map (fun i => some (eventNumber i)) ∧
      (∀ sent, sent <+: task.clientEvents values failure turn → eventBytes sent <+: cs.flatten → sent.length ≤ lines.length) ∧
      (ending = broken.toList.map .error ∨ ending = [] ∧ lines.length = (task.clientEvents values failure turn).length) ∧
      (cs.flatten = s.chunks.flatten → ending = [] ∧ lines.length = (task.clientEvents values failure turn).length) := by
  have sound := plays.sound (ready_start fresh)
  have whole : s.chunks.flatten = streamBytes (task.clientEvents values failure turn) :=
    congrArg List.flatten ((run.sound sound.numbered).whole ended)
  rw [whole] at cut ⊢
  obtain ⟨lines, ending, read, front, arrived, ends, complete⟩ := @responseLines_stream serde _ cs broken legible cut
  have events := @normalize_lines serde _ items newId lines legible front
  have all (same : lines = (task.clientEvents values failure turn).map (·.wire.line)) :
      lines.length = (task.clientEvents values failure turn).length := by
    rw [same, List.length_map]
  refine ⟨lines, ending, read, events, ?_, arrived, ends.imp_right fun h => ⟨h.1, all h.2⟩, fun same => ?_⟩
  · have few : lines.length ≤ (task.clientEvents values failure turn).length := by
      have length := front.length_le
      rwa [List.length_map] at length
    have numbers : InSequence (task.clientEvents values failure turn) := clientEvents_inSequence sound
    have first := congrArg (List.take lines.length) numbers
    rw [← List.map_take, ← List.map_take, List.take_range, Nat.min_eq_left few] at first
    have read := congrArg (List.map fun frame : Option EventFrame => frame.bind (·.wire.sequence_number)) events
    rw [List.map_map, List.map_map] at read
    exact read.trans first
  · obtain ⟨nothing, every⟩ := complete same
    exact ⟨nothing, all every⟩

end

deriving instance DecidableEq for WireEvent

/-- Floats that are written and read as they are. -/
def exactFloats : SerdeJson := ⟨some, fun _ => []⟩

/-- Items that are read but never compared. -/
def noItems : ItemSerde := .derived Json.write fun _ _ => false

/-- The events of the stream of a turn that is played to its end. -/
def playedEvents : EStateM.Result ExecutorError Engine.State (Option ResponsePayload) → Option (List WireEvent)
  | .ok payload s => payload.bind fun payload => s.delivery.outlet.map fun o =>
      (StreamTask.clientEvents emptyValues (.ofContext Engine.streamingTurn.request)
        ⟨o.events, o.accumulator, .completed payload s.request⟩ .skipped).map (·.wire)
  | .error _ _ => none

/-- An event of an item. -/
def itemEvent (type : SSEEventType) (n : Nat) : WireEvent := ⟨type.wireName, some n, some n, []⟩

/-- The last event of a response. -/
def completedEvent : WireEvent := ⟨SSEEventType.responseCompleted.wireName, some 2, none, [("response", .null)]⟩

/-- The opening of an item is legible. -/
theorem legible_added : (itemEvent .outputItemAdded 0).Legible exactFloats where
  flat := ⟨by decide, by decide⟩
  canonical := ⟨by decide, trivial, (by decide : 0 < 2 ^ 64), (by decide : 0 < 2 ^ 64), trivial⟩
  floats := rfl
  depth := by decide
  chars := by decide +kernel
  short := by decide +kernel
  index _ named := by
    cases named
    decide
  settled completed := nomatch completed

/-- A part of a text is legible. -/
theorem legible_delta : (itemEvent .outputTextDelta 1).Legible exactFloats where
  flat := ⟨by decide, by decide⟩
  canonical := ⟨by decide, trivial, (by decide : 1 < 2 ^ 64), (by decide : 1 < 2 ^ 64), trivial⟩
  floats := rfl
  depth := by decide
  chars := by decide +kernel
  short := by decide +kernel
  index _ named := by
    cases named
    decide
  settled completed := nomatch completed

/-- The last event is legible. -/
theorem legible_completedEvent : completedEvent.Legible exactFloats where
  flat := ⟨by decide, by decide⟩
  canonical := ⟨by decide, trivial, (by decide : 2 < 2 ^ 64), trivial, trivial⟩
  floats := rfl
  depth := by decide
  chars := by decide +kernel
  short := by decide +kernel
  index _ named := nomatch named
  settled _ := by decide

/-- A streaming turn of one round, with its events. -/
theorem heldMessage_played : ∃ (task : StreamTask),
    Engine.Tasks (Engine.answering Engine.heldMessage "completed") Engine.streamingTurn task ∧
    (task.clientEvents emptyValues (.ofContext Engine.streamingTurn.request) .skipped).map (·.wire) =
      [itemEvent .outputItemAdded 0, itemEvent .outputTextDelta 1, completedEvent] := by
  have plays : playedEvents (Engine.runUntilGatewayToolsComplete (Engine.answering Engine.heldMessage "completed") true
      Engine.streamingTurn) = some [itemEvent .outputItemAdded 0, itemEvent .outputTextDelta 1, completedEvent] := by
    decide +kernel
  cases ran : Engine.runUntilGatewayToolsComplete (Engine.answering Engine.heldMessage "completed") true
      Engine.streamingTurn with
  | error e s =>
    rw [ran] at plays
    cases plays
  | ok payload s =>
    rw [ran] at plays
    obtain ⟨payload, rfl, opened⟩ := Option.bind_eq_some_iff.1 plays
    obtain ⟨o, opened, events⟩ := Option.map_eq_some_iff.1 opened
    exact ⟨_, .completed ran opened, events⟩

/-- The first event is cut in its name. -/
theorem stream_read_back_heldMessage : ∃ (frames : List EventFrame) (s : StreamState) (lines : List Text),
    frames.map (·.wire) = [itemEvent .outputItemAdded 0, itemEvent .outputTextDelta 1, completedEvent] ∧
      s.chunks = frames.map serializeSseFrame ++ [DONE_MARKER] ∧
      responseLines [] (bodyChunks [s.chunks.flatten.take 20, s.chunks.flatten.drop 20] none) = lines.map .ok ∧
      lines.map (normalizeSseLine noItems id exactFloats) = frames.map fun frame => some (frame.wire.frame noItems id) := by
  obtain ⟨task, plays, events⟩ := heldMessage_played
  have began : StreamRun emptyValues (.ofContext Engine.streamingTurn.request) task .skipped 0 .start := .start
  obtain ⟨more, s, run, settled⟩ := began.completes
  obtain ⟨streamEnd, ended⟩ := Option.isSome_iff_exists.1 settled
  have legible : ∀ frame ∈ task.clientEvents emptyValues (.ofContext Engine.streamingTurn.request) .skipped,
      frame.wire.Legible exactFloats := by
    intro frame mem
    have sent := List.mem_map_of_mem (f := EventFrame.wire) mem
    rw [events] at sent
    simp only [List.mem_cons, List.not_mem_nil, or_false] at sent
    rcases sent with same | same | same
    · rw [same]
      exact legible_added
    · rw [same]
      exact legible_delta
    · rw [same]
      exact legible_completedEvent
  have both : [s.chunks.flatten.take 20, s.chunks.flatten.drop 20].flatten = s.chunks.flatten := by simp
  have sound := plays.sound (ready_start rfl)
  obtain ⟨lines, ending, read, normal, -, -, -, all⟩ := @stream_read_back _ _ _ _ _ _ _ _ _ _ noItems id exactFloats
    [s.chunks.flatten.take 20, s.chunks.flatten.drop 20] none rfl plays run ended legible ⟨[], by rw [both, List.append_nil]⟩
  obtain ⟨rfl, whole⟩ := all both
  rw [whole, List.take_length] at normal
  exact ⟨_, s, lines, events, (run.sound sound.numbered).whole ended, by rw [read, List.append_nil], normal⟩

end AgenticStack
