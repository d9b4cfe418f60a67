import AgenticStack.Server.Outbound
import AgenticStack.Library.JsonRoundTrip

/-!
# Committed turns and their terminal events

The terminal event of a generated turn is checked twice: as a chunk of the
stream before the turn is stored, and with its `stream_id` on the way out. The
first check says nothing about the `stream_id`; a turn without inference makes
both its events first.
-/

namespace AgenticStack.Server
set_option autoImplicit false
open Library

variable {serde : SerdeJson} {values : SerdeValues}

/-- A text that ends in a brace does so behind its white space. -/
theorem dropSpace_concat {s r : Text} (h : dropSpace (s ++ [0x7d]) = some r) : ∃ front, r = front ++ [0x7d] := by
  rcases s with _ | ⟨b, _ | ⟨c, _ | ⟨d, rest⟩⟩⟩
  · rw [List.nil_append, dropSpace_of_hard (by decide)] at h
    cases h
  · refine ⟨[], ?_⟩
    simp only [List.cons_append, List.nil_append] at h ⊢
    unfold dropSpace at h
    grind
  · simp only [List.cons_append, List.nil_append] at h
    unfold dropSpace at h
    by_cases one : r = [c, 0x7d]
    · exact ⟨[c], one⟩
    · exact ⟨[], by grind⟩
  · simp only [List.cons_append] at h
    unfold dropSpace at h
    by_cases one : r = c :: d :: (rest ++ [0x7d])
    · exact ⟨c :: d :: rest, one⟩
    · by_cases two : r = d :: (rest ++ [0x7d])
      · exact ⟨d :: rest, two⟩
      · exact ⟨rest, by grind⟩

/-- A text that ends in a brace is not blank. -/
theorem not_isBlank_concat (s : Text) : isBlank (s ++ [0x7d]) = false := by
  unfold isBlank
  generalize (s ++ [0x7d]).length = fuel
  induction fuel generalizing s with
  | zero => cases s <;> rfl
  | succ fuel ih =>
    have some_left : s ++ [0x7d] ≠ [] := List.append_ne_nil_of_right_ne_nil s (List.cons_ne_nil 0x7d [])
    cases drop : dropSpace (s ++ [0x7d]) with
    | none => rw [isBlankWithin.eq_3 _ _ some_left, drop]
    | some r =>
      rw [isBlankWithin.eq_3 _ _ some_left, drop]
      obtain ⟨front, rfl⟩ := dropSpace_concat drop
      exact ih front

/-- A text that ends in a brace has no white space behind it. -/
theorem trimEnd_concat (s : Text) : Engine.trimEnd (s ++ [0x7d]) = s ++ [0x7d] := by
  induction s with
  | nil =>
    show (if isBlank [0x7d] then [] else 0x7d :: Engine.trimEnd []) = [0x7d]
    have blank := not_isBlank_concat []
    rw [List.nil_append] at blank
    rw [blank]
    rfl
  | cons b s ih =>
    show (if isBlank ((b :: s) ++ [0x7d]) then [] else b :: Engine.trimEnd (s ++ [0x7d])) = b :: (s ++ [0x7d])
    rw [not_isBlank_concat (b :: s), ih]
    rfl

/-- The text between the braces of a written object. -/
theorem write_obj (fields : List (Text × Json)) :
    (Json.obj fields).write = 0x7b :: (commaSeparated (Json.writeFields fields) ++ [0x7d]) := rfl

/-- A written object has no white space around it. -/
theorem trim_write_obj (fields : List (Text × Json)) : Engine.trim (Json.obj fields).write = (Json.obj fields).write := by
  rw [write_obj]
  unfold Engine.trim
  rw [trimStart_of_none (dropSpace_of_hard (by decide))]
  exact trimEnd_concat (0x7b :: commaSeparated (Json.writeFields fields))

/-- A line ends at its newline. -/
theorem linesFrom_append {line s t : Text} (one : 0x0a ∉ s) :
    linesFrom line (s ++ 0x0a :: t) = stripCarriageReturn (line ++ s) :: linesFrom [] t := by
  induction s generalizing line with
  | nil =>
    show (if (0x0a : UInt8) = 0x0a then stripCarriageReturn line :: linesFrom [] t else _) = _
    rw [if_pos rfl, List.append_nil]
  | cons b s ih =>
    simp only [List.mem_cons, not_or] at one
    show (if b = 0x0a then _ else linesFrom (line ++ [b]) (s ++ 0x0a :: t)) = _
    rw [if_neg fun same => one.1 same.symm, ih one.2, List.append_assoc]
    rfl

/-- A line that ends otherwise keeps its end. -/
theorem stripCarriageReturn_concat {s : Text} {b : UInt8} (other : b ≠ 0x0d) :
    stripCarriageReturn (s ++ [b]) = s ++ [b] := by
  unfold stripCarriageReturn
  rw [List.getLast?_concat, if_neg]
  intro same
  exact other (Option.some.inj same)

/-- A terminal event by which a turn may be stored. -/
def StoredTerminal (name : Text) : Prop := name = "response.completed" ∨ name = "response.incomplete"

/-- A stored event is written on its lines. -/
theorem serializeSseFrame_stored {frame : EventFrame} {name : Text} (named : frame.wire.event_type = some name)
    (stored : StoredTerminal name) : serializeSseFrame frame =
      utf8 "event: " ++ name ++ 0x0a :: (utf8 "data: " ++ frame.wire.toJson.write ++ 0x0a :: [0x0a]) := by
  have kept : frame.wire.event_type.filter (fun name => !name.isEmpty && !name.any fun b => b == 0x0d || b == 0x0a) =
      some name := by
    rw [named]
    rcases stored with rfl | rfl <;> decide
  unfold serializeSseFrame
  rw [kept, show utf8 "\n" = [0x0a] from by decide, show utf8 "\n\n" = [0x0a, 0x0a] from by decide]
  simp

/-- An event is written as an object. -/
theorem toJson_obj (wire : WireEvent) : ∃ fields, wire.toJson = .obj fields := ⟨_, rfl⟩

/-- The one data line of a chunk is the event. -/
theorem sseJsonDataLines_stored {frame : EventFrame} {name : Text} (named : frame.wire.event_type = some name)
    (stored : StoredTerminal name) (canonical : frame.wire.toJson.Canonical serde.readFloat) :
    sseJsonDataLines (serializeSseFrame frame) = [frame.wire.toJson.write] := by
  obtain ⟨fields, object⟩ := toJson_obj frame.wire
  have one := newline_not_mem_write _ canonical
  have trimmed := trim_write_obj fields
  rw [← object] at trimmed
  have first : stripCarriageReturn ([] ++ (utf8 "event: " ++ name)) = utf8 "event: " ++ name ∧
      0x0a ∉ utf8 "event: " ++ name ∧ stripPrefix (utf8 "data: ") (utf8 "event: " ++ name) = none := by
    rcases stored with rfl | rfl <;> decide
  have second : stripCarriageReturn ([] ++ (utf8 "data: " ++ frame.wire.toJson.write)) =
      utf8 "data: " ++ frame.wire.toJson.write := by
    rw [object, write_obj]
    have shape : utf8 "data: " ++ 0x7b :: (commaSeparated (Json.writeFields fields) ++ [0x7d]) =
        (utf8 "data: " ++ 0x7b :: commaSeparated (Json.writeFields fields)) ++ [0x7d] := by simp
    rw [List.nil_append, shape]
    exact stripCarriageReturn_concat (by decide)
  have data : 0x0a ∉ utf8 "data: " ++ frame.wire.toJson.write := by
    rw [List.mem_append, not_or]
    exact ⟨by decide, one⟩
  have all : lines (serializeSseFrame frame) = [utf8 "event: " ++ name, utf8 "data: " ++ frame.wire.toJson.write, []] := by
    unfold lines
    rw [serializeSseFrame_stored named stored, linesFrom_append first.2.1, first.1, linesFrom_append data, second]
    rfl
  have read : stripPrefix (utf8 "data: ") (utf8 "data: " ++ frame.wire.toJson.write) = some frame.wire.toJson.write :=
    stripPrefix_eq_some_iff.2 rfl
  have empty : stripPrefix (utf8 "data: ") [] = none := by decide
  have other : frame.wire.toJson.write ≠ utf8 "[DONE]" := by
    rw [object, write_obj]
    intro same
    exact absurd (List.cons.inj same).1 (by decide)
  unfold sseJsonDataLines
  rw [all]
  simp [first.2.2, read, empty, trimmed, other]

/-- What attaching the `stream_id` adds to the text of an event. -/
def routingBytes : Option StreamId → Nat
  | none => 0
  | some stream_id => (utf8 ",\"stream_id\":\"\"").length + (stream_id.text.flatMap escapeByte).length

/-- The length of a written text. -/
theorem length_writeString (text : Text) : (writeString text).length = (text.flatMap escapeByte).length + 2 := by
  simp [writeString]

/-- The length of a list with one part more. -/
theorem commaSeparated_concat {parts : List Text} (some_ : parts ≠ []) (part : Text) :
    (commaSeparated (parts ++ [part])).length = (commaSeparated parts).length + 1 + part.length := by
  cases parts with
  | nil => exact absurd rfl some_
  | cons first parts =>
    have comma : (utf8 ",").length = 1 := by decide
    rw [List.cons_append, commaSeparated_cons, commaSeparated_cons]
    simp only [listText, Bool.false_eq_true, if_false, List.flatMap_append, List.length_append, List.flatMap_cons,
      List.flatMap_nil, List.length_nil, comma]
    omega

/-- A field more is written behind the others. -/
theorem writeFields_concat (fields : List (Text × Json)) (key : Text) (v : Json) :
    Json.writeFields (fields ++ [(key, v)]) = Json.writeFields fields ++ [writeString key ++ utf8 ":" ++ v.write] := by
  induction fields with
  | nil => rfl
  | cons field fields ih =>
    obtain ⟨other, w⟩ := field
    rw [List.cons_append, Json.writeFields, Json.writeFields, ih]
    rfl

/-- The length of an object with one field more. -/
theorem length_write_concat {fields : List (Text × Json)} (some_ : fields ≠ []) (key : Text) (v : Json) :
    (Json.obj (fields ++ [(key, v)])).write.length =
      (Json.obj fields).write.length + (writeString key).length + v.write.length + 2 := by
  have parts : Json.writeFields fields ≠ [] := by
    cases fields with
    | nil => exact absurd rfl some_
    | cons field fields => simp [Json.writeFields]
  rw [write_obj, write_obj, writeFields_concat, List.length_cons, List.length_cons, List.length_append,
    List.length_append, commaSeparated_concat parts]
  simp only [List.length_append]
  rw [show (utf8 ":").length = 1 from by decide]
  omega

/-- An event without a `stream_id` of its own is attached one. -/
theorem attachStreamId_length {fields : List (Text × Json)} (stream_id : Option StreamId) (some_ : fields ≠ [])
    (absent : ∀ field ∈ fields, field.1 ≠ utf8 "stream_id") :
    ∃ value, attachStreamId (.obj fields) stream_id = .ok value ∧
      value.write.length = (Json.obj fields).write.length + routingBytes stream_id := by
  have missing : fields.any (fun field => field.1 == utf8 "stream_id") = false := by
    rw [List.any_eq_false]
    intro field mem same
    exact absent field mem (beq_iff_eq.1 same)
  cases stream_id with
  | none =>
    have none : fields.findIdx? (fun field => field.1 == utf8 "stream_id") = none := by
      rw [List.findIdx?_eq_none_iff]
      intro field mem
      exact beq_eq_false_iff_ne.2 (absent field mem)
    refine ⟨.obj fields, ?_, rfl⟩
    simp [attachStreamId, Json.asObject, removeField, none]
  | some stream_id =>
    refine ⟨.obj (fields ++ [(utf8 "stream_id", .str stream_id.text)]), ?_, ?_⟩
    · simp [attachStreamId, Json.asObject, insertField, missing]
    · rw [length_write_concat some_, Json.write, length_writeString stream_id.text, routingBytes]
      rw [show (utf8 ",\"stream_id\":\"\"").length = 15 from by decide,
        show (writeString (utf8 "stream_id")).length = 11 from by decide]
      omega

/-- An event with its lane is queued where it is not too long. -/
theorem outboundEvent_isOk_iff {fields : List (Text × Json)} {stream_id : Option StreamId} (some_ : fields ≠ [])
    (absent : ∀ field ∈ fields, field.1 ≠ utf8 "stream_id") :
    (WsOutboundEvent.new (.obj fields) stream_id).isOk = true ↔
      (Json.obj fields).write.length + routingBytes stream_id ≤ WS_MAX_EVENT_BYTES := by
  obtain ⟨value, attached, len⟩ := attachStreamId_length stream_id some_ absent
  rw [← len]
  unfold WsOutboundEvent.new
  rw [attached]
  show ((if fits : value.write.length ≤ WS_MAX_EVENT_BYTES then pure ⟨value.write, fits⟩ else throw _ :
    Except WsError WsOutboundEvent)).isOk = true ↔ _
  split
  · rename_i fits
    exact ⟨fun _ => fits, fun _ => rfl⟩
  · rename_i large
    exact ⟨(fun no => nomatch no), fun fits => absurd fits large⟩

/-- Fields are read back one by one. -/
theorem rereadFields_eq_map (readFloat : Text → Option Text) (fields : List (Text × Json)) :
    Json.rereadFields readFloat fields = fields.map fun field => (field.1, field.2.reread readFloat) := by
  induction fields with
  | nil => rfl
  | cons field fields ih =>
    obtain ⟨key, v⟩ := field
    rw [Json.rereadFields, List.map_cons, ih]

/-- The event is queued, whatever is queued already. -/
def Queued (x : OutboundM Unit) : Prop := ∀ queued, ∃ queued', x queued = .ok () queued'

/-- An event is queued where it may be sent. -/
theorem queueWsJson_queued {value : Json} {stream_id : Option StreamId} :
    Queued (queueWsJson value stream_id) ↔ (WsOutboundEvent.new value stream_id).isOk = true := by
  unfold Queued queueWsJson
  cases made : WsOutboundEvent.new value stream_id with
  | ok event => exact ⟨fun _ => rfl, fun _ queued => ⟨queued ++ [event], rfl⟩⟩
  | error error =>
    refine ⟨fun queues => ?_, (fun no => nomatch no)⟩
    obtain ⟨queued', impossible⟩ := queues []
    cases impossible

/-- An event can be delivered: the server can read it, and with its `stream_id` it is not too large. Floats are
printed anew by then. -/
def Deliverable (serde : SerdeJson) (event : Json) (stream_id : Option StreamId) : Prop :=
  event.depth ≤ 127 ∧
    (event.reread serde.readFloat).write.length + routingBytes stream_id ≤ WS_MAX_EVENT_BYTES

/-- A stored event is queued where its fields and its lane fit. -/
theorem forward_queued {frame : EventFrame} {name : Text} {stream_id : Option StreamId}
    (named : frame.wire.event_type = some name) (stored : StoredTerminal name)
    (canonical : frame.wire.toJson.Canonical serde.readFloat)
    (absent : ∀ field ∈ frame.wire.rest, field.1 ≠ utf8 "stream_id") :
    Queued (forwardWsStreamChunk serde (serializeSseFrame frame) stream_id) ↔
      Deliverable serde frame.wire.toJson stream_id := by
  unfold forwardWsStreamChunk Deliverable
  rw [sseJsonDataLines_stored named stored canonical]
  have single : [frame.wire.toJson.write].forM (forwardData serde stream_id) =
      forwardData serde stream_id frame.wire.toJson.write := by
    simp [List.forM]
  rw [single]
  unfold forwardData
  rw [fromStr_write serde canonical]
  by_cases deep : frame.wire.toJson.depth ≤ 127
  · rw [if_pos deep]
    simp only [deep, true_and]
    rw [queueWsJson_queued]
    have object : frame.wire.toJson.reread serde.readFloat = .obj (Json.rereadFields serde.readFloat
      (((frame.wire.event_type.map fun type => (utf8 "type", Json.str type)).toList
      ++ (frame.wire.sequence_number.map fun number => (utf8 "sequence_number", Json.num (.posInt number))).toList)
      ++ (frame.wire.output_index.map fun index => (utf8 "output_index", Json.num (.posInt index))).toList ++
        frame.wire.rest)) := rfl
    rw [object]
    apply outboundEvent_isOk_iff
    · rw [rereadFields_eq_map, named]
      simp
    · intro field mem
      rw [rereadFields_eq_map, List.mem_map] at mem
      obtain ⟨written, mem, rfl⟩ := mem
      simp only [List.mem_append, Option.mem_toList, Option.map_eq_some_iff] at mem
      rcases mem with ((⟨type, -, rfl⟩ | ⟨number, -, rfl⟩) | ⟨index, -, rfl⟩) | rest
      · show utf8 "type" ≠ utf8 "stream_id"
        decide
      · show utf8 "sequence_number" ≠ utf8 "stream_id"
        decide
      · show utf8 "output_index" ≠ utf8 "stream_id"
        decide
      · exact absent written rest
  · rw [if_neg deep]
    simp only [deep, false_and, iff_false]
    intro queues
    obtain ⟨queued', impossible⟩ := queues []
    cases impossible

/-- A committed turn has a terminal event, which is queued. -/
def CommittedIsDelivered (serde : SerdeJson) (values : SerdeValues) (turn : Persistence) (stream_id : Option StreamId)
    (request : WsTurn) : Prop :=
  request.committed values turn stream_id = true →
    ∃ x, request.queueTerminal serde values stream_id = some x ∧ Queued x

/-- The terminal event of `payload`, under its number. -/
def terminalJson (values : SerdeValues) (accumulator : GatewayStreamAccumulator) (payload : ResponsePayload) : Json :=
  .obj [("type", .str (payload.terminalEventType.wireName.getD [])),
    ("sequence_number", .num (.posInt accumulator.next_sequence_number)), ("response", values.payload payload)]

/-- What the lines of a chunk add to the text of its event. -/
def framingBytes (payload : ResponsePayload) : Nat :=
  (utf8 "event: \ndata: \n\n").length + (payload.terminalEventType.wireName.getD []).length

/-- The response is one that is stored, and storing it succeeds in that. -/
def Stores (payload : ResponsePayload) (ctx : Engine.RequestContext) (turn : Persistence) : Prop :=
  shouldPersist ctx = true ∧ (payload.status = "completed" ∨ payload.status = "incomplete") ∧ payload.id ≠ [] ∧
    turn.committed = true

/-- **When a committed turn is delivered**: a generated response that is stored, and small enough for a chunk, is also
small enough with its `stream_id`. -/
def StoredIsDeliverable (serde : SerdeJson) (values : SerdeValues) (turn : Persistence) (stream_id : Option StreamId) :
    WsTurn → Prop
  | .generated (.completed payload ctx) _ accumulator _ _ =>
    Stores payload ctx turn →
    (terminalJson values accumulator payload).write.length + framingBytes payload ≤ maxStreamEventBytes →
      Deliverable serde (terminalJson values accumulator payload) stream_id
  | _ => True

variable {turn : Persistence} {stream_id : Option StreamId} {payload : ResponsePayload} {ctx : Engine.RequestContext}
  {accumulator : GatewayStreamAccumulator}

/-- A response is committed where it is to be stored and is. -/
theorem persistIfNeeded_committed : (persistIfNeeded payload ctx turn).committed = true ↔ Stores payload ctx turn := by
  unfold persistIfNeeded Stores
  by_cases needed : shouldPersist ctx = true
  · rw [if_pos needed]
    show (persistPreparedResponse payload turn).committed = true ↔ _
    unfold persistPreparedResponse ResponseStatus.parse
    by_cases progress : payload.status = utf8 "in_progress"
    · rw [if_pos progress, progress]
      simp [Persistence.skipped]
    · rw [if_neg progress]
      by_cases completed : payload.status = utf8 "completed"
      · rw [if_pos completed]
        by_cases id : payload.id = [] <;> simp [id, completed, needed, Persistence.skipped]
      · rw [if_neg completed]
        by_cases incomplete : payload.status = utf8 "incomplete"
        · rw [if_pos incomplete]
          by_cases id : payload.id = [] <;> simp [id, incomplete, needed, Persistence.skipped]
        · rw [if_neg incomplete]
          simp [completed, incomplete, Persistence.skipped]
  · rw [if_neg needed]
    simp [needed, Persistence.skipped]

/-- A response of a status that is stored ends with one of two events. -/
theorem wireName_stored (status : payload.status = "completed" ∨ payload.status = "incomplete") :
    ∃ name, payload.terminalEventType.wireName = some name ∧ StoredTerminal name := by
  unfold ResponsePayload.terminalEventType
  rcases status with status | status
  · rw [status]
    exact ⟨_, rfl, .inl rfl⟩
  · rw [status]
    exact ⟨_, rfl, .inr rfl⟩

/-- The terminal frame of a response that is stored. -/
theorem terminalResponseFrame_stored (status : payload.status = "completed" ∨ payload.status = "incomplete") :
    ∃ frame name, terminalResponseFrame values payload = .ok frame ∧
      (accumulator.stampEvent frame 0).1.wire.event_type = some name ∧ StoredTerminal name ∧
      payload.terminalEventType.wireName = some name ∧
      (accumulator.stampEvent frame 0).1.wire.rest = [(utf8 "response", values.payload payload)] ∧
      (accumulator.stampEvent frame 0).1.wire.toJson = terminalJson values accumulator payload := by
  obtain ⟨name, named, stored⟩ := wireName_stored status
  unfold terminalResponseFrame EventFrame.synthetic terminalJson
  rw [named]
  exact ⟨_, name, rfl, rfl, stored, rfl, rfl, rfl⟩

/-- The last event can be written. -/
theorem canonical_terminalJson (u64 : accumulator.next_sequence_number < 2 ^ 64)
    (canonical : (values.payload payload).Canonical serde.readFloat) :
    (terminalJson values accumulator payload).Canonical serde.readFloat := by
  refine ⟨?_, trivial, u64, canonical, trivial⟩
  show [utf8 "type", utf8 "sequence_number", utf8 "response"].Nodup
  decide

/-- The chunk of a response that is stored is the terminal event in its frame, if it is small enough. -/
theorem terminalResponseChunk_stored (status : payload.status = "completed" ∨ payload.status = "incomplete")
    (u64 : accumulator.next_sequence_number < 2 ^ 64)
    (canonical : (values.payload payload).Canonical serde.readFloat) :
    ((terminalJson values accumulator payload).write.length + framingBytes payload ≤ maxStreamEventBytes →
      ∃ chunk, accumulator.terminalResponseChunk values payload = .ok chunk ∧
        (Queued (forwardWsStreamChunk serde chunk stream_id) ↔
          Deliverable serde (terminalJson values accumulator payload) stream_id)) ∧
    (maxStreamEventBytes < (terminalJson values accumulator payload).write.length + framingBytes payload →
      ∃ error, accumulator.terminalResponseChunk values payload = .error error) := by
  obtain ⟨frame, name, made, named, stored, wire, rest, json⟩ :=
    @terminalResponseFrame_stored values payload accumulator status
  have len : (serializeSseFrame (accumulator.stampEvent frame 0).1).length =
      (terminalJson values accumulator payload).write.length + framingBytes payload := by
    rw [serializeSseFrame_stored named stored, json, framingBytes, wire]
    simp only [List.length_append, List.length_cons, List.length_nil, Option.getD_some]
    rw [show (utf8 "event: ").length = 7 from by decide, show (utf8 "data: ").length = 6 from by decide,
      show (utf8 "event: \ndata: \n\n").length = 16 from by decide]
    omega
  have step : accumulator.terminalResponseChunk values payload = checkedStreamEvent (accumulator.stampEvent frame 0).1 := by
    unfold GatewayStreamAccumulator.terminalResponseChunk
    rw [made]
    rfl
  rw [step]
  unfold checkedStreamEvent
  dsimp only
  rw [len]
  constructor
  · intro small
    rw [if_neg (by omega)]
    refine ⟨_, rfl, ?_⟩
    have whole := canonical_terminalJson u64 canonical
    have delivered := @forward_queued serde _ name stream_id named stored (json ▸ whole) (by
      intro field mem
      rw [rest, List.mem_singleton] at mem
      rw [mem]
      show utf8 "response" ≠ utf8 "stream_id"
      decide)
    rwa [json] at delivered
  · intro large
    rw [if_pos large]
    exact ⟨_, rfl⟩

/-- What was committed was stored before its last event was sent. -/
theorem runStreamEnd_committed {failure : StreamFailureContext} {next_sequence_number : Nat} {chunk : Text}
    (made : accumulator.terminalResponseChunk values payload = .ok chunk) :
    (runStreamEnd values failure accumulator next_sequence_number (.completed payload ctx) turn).committed =
      (persistIfNeeded payload ctx turn).committed := by
  unfold runStreamEnd
  simp only [made]
  split <;> rfl

/-- Nothing is committed before the terminal event of a turn without inference is made. -/
theorem completeWithoutInference_committed {rehydrated : ExecutorResult Engine.RequestContext} {created_at : Nat}
    (committed : (completeWithoutInference rehydrated created_at turn stream_id).committed = true) :
    ∃ ctx, rehydrated = .ok ctx ∧ (WsOutboundEvent.new (emptyCompletedEvent ctx created_at) stream_id).isOk = true := by
  unfold completeWithoutInference at committed
  cases rehydrated with
  | error error => cases committed
  | ok ctx =>
    refine ⟨ctx, rfl, ?_⟩
    dsimp only at committed
    split at committed
    · cases committed
    · split at committed
      · cases committed
      · rename_i completed_event made
        rw [made]
        rfl

/-- A generated turn that is stored and fits a chunk. -/
theorem generated_delivered_iff (canonical : (values.payload payload).Canonical serde.readFloat)
    {failure : StreamFailureContext} {next_sequence_number : Nat} (u64 : accumulator.next_sequence_number < 2 ^ 64)
    (stores : Stores payload ctx turn)
    (fits : (terminalJson values accumulator payload).write.length + framingBytes payload ≤ maxStreamEventBytes) :
    CommittedIsDelivered serde values turn stream_id
        (.generated (.completed payload ctx) failure accumulator next_sequence_number u64) ↔
      Deliverable serde (terminalJson values accumulator payload) stream_id := by
  obtain ⟨chunk, made, delivered⟩ :=
    (@terminalResponseChunk_stored serde values stream_id payload accumulator stores.2.1 u64 canonical).1 fits
  have committed := @runStreamEnd_committed values turn payload ctx accumulator failure next_sequence_number chunk made
  rw [persistIfNeeded_committed.2 stores] at committed
  unfold CommittedIsDelivered
  simp only [WsTurn.committed, WsTurn.queueTerminal, committed, made, true_imp_iff, Except.toOption, Option.map_some,
    Option.some.injEq, exists_eq_left', delivered]

/-- The response object of a response without output. -/
def emptyOutputJson (payload : ResponsePayload) : Json :=
  .obj ([(utf8 "id", Json.str payload.id), (utf8 "object", Json.str "response"), (utf8 "created_at", Json.num (.posInt 0)),
    (utf8 "model", Json.str payload.model), (utf8 "status", Json.str payload.status), (utf8 "output", Json.arr []),
    (utf8 "usage", Json.null), (utf8 "incomplete_details", Json.null), (utf8 "error", Json.null),
    (utf8 "previous_response_id", optionJson payload.previous_response_id),
    (utf8 "conversation_id", optionJson payload.conversation_id)] ++
    [(utf8 "instructions", optionJson payload.instructions)])

/-- A text of so many letters. -/
def letters (n : Nat) : Text := List.replicate n 0x61

/-- Letters are written as they are. -/
theorem length_escaped_letters (n : Nat) : ((letters n).flatMap escapeByte).length = n := by
  induction n with
  | zero => rfl
  | succ n ih =>
    show ((0x61 :: letters n).flatMap escapeByte).length = n + 1
    rw [List.flatMap_cons, List.length_append, ih, show (escapeByte 0x61).length = 1 from by decide]
    omega

/-- A letter is a character. -/
theorem charCount_letters (n : Nat) : charCount (letters n) = n := by
  unfold charCount letters
  rw [List.countP_replicate, if_pos (by decide)]

/-- A name of the greatest length. -/
def longStreamId : StreamId := ⟨letters 256, by rw [charCount_letters]; decide⟩

/-- Floats that are written as they are. -/
def plainSerde : SerdeJson := ⟨some, fun _ => []⟩

/-- Values that are null but for the output. -/
def emptyOutputValues : SerdeValues := ⟨fun _ => .null, emptyOutputJson⟩

/-- A response whose instructions have `n` letters. -/
def longPayload (n : Nat) : ResponsePayload :=
  ⟨"resp_1", "m", "completed", [], none, none, none, none, none, some (letters n)⟩

/-- A turn that is stored. -/
def storedContext : Engine.RequestContext :=
  let request : RequestPayload := ⟨"m", .text "hi", none, none, none, none, true, none⟩
  ⟨request, request, [], "resp_1", none, none⟩

/-- A turn with an answer of so many letters. -/
def longTurn (n : Nat) : WsTurn :=
  .generated (.completed (longPayload n) storedContext) (.ofContext storedContext) .new 0 (by decide)

/-- The values can be written. -/
theorem canonical_emptyOutputJson {readFloat : Text → Option Text} (payload : ResponsePayload) :
    (emptyOutputJson payload).Canonical readFloat := by
  have option : ∀ text, (optionJson text).Canonical readFloat := fun text => by cases text <;> trivial
  have zero : 0 < 2 ^ 64 := by decide
  refine ⟨?_, trivial, trivial, zero, trivial, trivial, trivial, trivial, trivial, trivial, option _, option _, option _,
    trivial⟩
  show [utf8 "id", utf8 "object", utf8 "created_at", utf8 "model", utf8 "status", utf8 "output", utf8 "usage",
    utf8 "incomplete_details", utf8 "error", utf8 "previous_response_id", utf8 "conversation_id",
    utf8 "instructions"].Nodup
  decide

/-- The length of the last event. -/
theorem length_longEvent (n : Nat) :
    (terminalJson emptyOutputValues .new (longPayload n)).write.length = n + 277 := by
  have front : (Json.obj [(utf8 "type", .str "response.completed"), (utf8 "sequence_number", .num (.posInt 0))]).write.length =
      49 := by decide +kernel
  have response : (emptyOutputJson (longPayload n)).write.length = n + 216 := by
    unfold emptyOutputJson
    rw [length_write_concat (List.cons_ne_nil _ _)]
    show _ + _ + (writeString (letters n)).length + 2 = n + 216
    rw [length_writeString (letters n), length_escaped_letters]
    have fixed : (Json.obj [(utf8 "id", Json.str "resp_1"), (utf8 "object", Json.str "response"),
        (utf8 "created_at", Json.num (.posInt 0)), (utf8 "model", Json.str "m"), (utf8 "status", Json.str "completed"),
        (utf8 "output", Json.arr []), (utf8 "usage", Json.null), (utf8 "incomplete_details", Json.null),
        (utf8 "error", Json.null), (utf8 "previous_response_id", Json.null),
        (utf8 "conversation_id", Json.null)]).write.length + (writeString (utf8 "instructions")).length = 212 := by
      decide +kernel
    show (Json.obj [(utf8 "id", Json.str "resp_1"), (utf8 "object", Json.str "response"),
        (utf8 "created_at", Json.num (.posInt 0)), (utf8 "model", Json.str "m"), (utf8 "status", Json.str "completed"),
        (utf8 "output", Json.arr []), (utf8 "usage", Json.null), (utf8 "incomplete_details", Json.null),
        (utf8 "error", Json.null), (utf8 "previous_response_id", Json.null),
        (utf8 "conversation_id", Json.null)]).write.length + (writeString (utf8 "instructions")).length + _ + 2 = _
    rw [fixed]
    omega
  have whole := @length_write_concat [(utf8 "type", .str "response.completed"), (utf8 "sequence_number", .num (.posInt 0))]
    (List.cons_ne_nil _ _) (utf8 "response") (emptyOutputJson (longPayload n))
  rw [front, response, show (writeString (utf8 "response")).length = 10 from by decide] at whole
  show (Json.obj ([(utf8 "type", .str "response.completed"), (utf8 "sequence_number", .num (.posInt 0))] ++
    [(utf8 "response", emptyOutputJson (longPayload n))])).write.length = n + 277
  omega

/-- A response that just fits a chunk is stored, and rejected with a long `stream_id`. -/
theorem stored_undelivered : ¬ CommittedIsDelivered plainSerde emptyOutputValues ⟨.ok (), true⟩ (some longStreamId)
    (longTurn 1048265) := by
  have len := length_longEvent 1048265
  have frame : framingBytes (longPayload 1048265) = 34 := by
    generalize 1048265 = n
    rfl
  have same : (terminalJson emptyOutputValues .new (longPayload 1048265)).reread plainSerde.readFloat =
      terminalJson emptyOutputValues .new (longPayload 1048265) := by
    generalize 1048265 = n
    rfl
  have stores : Stores (longPayload 1048265) storedContext ⟨.ok (), true⟩ :=
    ⟨rfl, .inl rfl, by decide, rfl⟩
  have limit : maxStreamEventBytes = 1048576 := by decide
  unfold longTurn
  rw [generated_delivered_iff (canonical_emptyOutputJson _) (by decide) stores (by rw [len, frame, limit])]
  rintro ⟨-, fits⟩
  rw [same, len, show routingBytes (some longStreamId) = 271 from by
    rw [routingBytes, longStreamId, length_escaped_letters]; rfl] at fits
  exact absurd fits (by decide)

/-- **A committed turn is delivered, exactly when** its terminal event fits with the `stream_id` whenever it fits a
chunk. -/
theorem committed_delivered_iff (canonical : ∀ payload, (values.payload payload).Canonical serde.readFloat)
    (turn : Persistence) (stream_id : Option StreamId) (request : WsTurn) :
    CommittedIsDelivered serde values turn stream_id request ↔ StoredIsDeliverable serde values turn stream_id request := by
  cases request with
  | withoutInference rehydrated created_at =>
    refine ⟨fun _ => trivial, fun _ committed => ?_⟩
    obtain ⟨ctx, rfl, made⟩ := completeWithoutInference_committed committed
    exact ⟨_, rfl, queueWsJson_queued.2 made⟩
  | generated outcome failure accumulator next_sequence_number u64 =>
    cases outcome with
    | joinError message => exact ⟨fun _ => trivial, (fun _ no => nomatch no)⟩
    | failed error => exact ⟨fun _ => trivial, (fun _ no => nomatch no)⟩
    | completed payload ctx =>
      by_cases stores : Stores payload ctx turn
      · by_cases fits : (terminalJson values accumulator payload).write.length + framingBytes payload ≤ maxStreamEventBytes
        · rw [generated_delivered_iff (canonical payload) u64 stores fits]
          exact ⟨fun deliverable _ _ => deliverable, fun holds => holds stores fits⟩
        · obtain ⟨error, made⟩ := (@terminalResponseChunk_stored serde values stream_id payload accumulator
            stores.2.1 u64 (canonical payload)).2 (by omega)
          refine ⟨fun _ _ within => absurd within fits, fun _ committed => ?_⟩
          simp only [WsTurn.committed, runStreamEnd, made, Bool.false_eq_true] at committed
      · refine ⟨fun _ no => absurd no stores, fun _ committed => ?_⟩
        refine absurd (persistIfNeeded_committed.1 ?_) stores
        simp only [WsTurn.committed] at committed
        cases made : accumulator.terminalResponseChunk values payload with
        | error error => simp only [runStreamEnd, made, Bool.false_eq_true] at committed
        | ok chunk => rwa [runStreamEnd_committed made] at committed

/-- A response with instructions of three letters. -/
theorem committed_delivered_iff_letters :
    CommittedIsDelivered plainSerde emptyOutputValues ⟨.ok (), true⟩ (some longStreamId) (longTurn 3) ↔
      StoredIsDeliverable plainSerde emptyOutputValues ⟨.ok (), true⟩ (some longStreamId) (longTurn 3) :=
  committed_delivered_iff canonical_emptyOutputJson ⟨.ok (), true⟩ (some longStreamId) (longTurn 3)

end AgenticStack.Server
