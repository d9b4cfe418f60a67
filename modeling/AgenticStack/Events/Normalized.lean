import AgenticStack.Library.Outcome
import AgenticStack.Events.Validate
import AgenticStack.Types.Decode

/-!
# Normalized frames

The payload and the wire object of a frame are read from one value, so that they
agree on the index, the id and the kind of the item the frame is about.
-/

namespace AgenticStack
set_option autoImplicit false
open Library

/-- The value at a key that the object has. -/
theorem Json.at_obj {fields : List (Text × Json)} {key : Text} {v : Json} (here : fields.lookup key = some v) :
    (Json.obj fields).at_ key = v := by
  rw [Json.at_, Json.get, here]
  rfl

/-- The value at a key that the object does not have is null. -/
theorem Json.at_obj_none {fields : List (Text × Json)} {key : Text} (absent : fields.lookup key = none) :
    (Json.obj fields).at_ key = .null := by
  rw [Json.at_, Json.get, absent]
  rfl

theorem Json.asStr_at_obj {fields : List (Text × Json)} {key : Text} :
    ((Json.obj fields).at_ key).asStr = (fields.lookup key).bind Json.asStr := by
  cases here : fields.lookup key with
  | none => rw [Json.at_obj_none here]; rfl
  | some v => rw [Json.at_obj here]; rfl

theorem bind_asNonEmptyStr {o : Option Json} : o.bind Json.asNonEmptyStr = (o.bind Json.asStr).filter (· ≠ []) := by
  cases o <;> rfl

/-- The fields that an event object keeps are those of the value, and its index is the one the value has. -/
structure WireEvent.Reads (json : Json) (fields : List (Text × Json)) (wire : WireEvent) : Prop where
  object : json = .obj fields
  rest : ∀ key, key ≠ utf8 "type" → key ≠ utf8 "sequence_number" → key ≠ utf8 "output_index" →
    wire.rest.lookup key = fields.lookup key
  output_index : wire.output_index = (fields.lookup (utf8 "output_index")).bind Json.asU64
  event_type : wire.event_type = (fields.lookup (utf8 "type")).bind Json.asStr

theorem optionField_eq {α : Type} {fields : List (Text × Json)} {key : Text} {read : Json → Option α} {value : Option α}
    (null : read .null = none) (h : optionField fields key read = some value) : value = (fields.lookup key).bind read := by
  unfold optionField at h
  split at h
  · rename_i absent
    rw [absent]
    exact (Option.some.inj h).symm
  · rename_i isNull
    rw [isNull, Option.bind_some, null]
    exact (Option.some.inj h).symm
  · rename_i v _ here
    rw [here, Option.bind_some]
    obtain ⟨a, found, same⟩ := Option.map_eq_some_iff.1 h
    rw [found, same]

/-- What was read of an event are its fields. -/
theorem WireEvent.ofJson_reads {json : Json} {wire : WireEvent} (h : WireEvent.ofJson json = some wire) :
    ∃ fields, WireEvent.Reads json fields wire := by
  cases json with
  | obj fields =>
    simp only [WireEvent.ofJson, Json.asObject, Option.bind_eq_bind, Option.bind_some, Option.bind_eq_some_iff,
      Option.pure_def, Option.some.injEq] at h
    obtain ⟨event_type, type_, sequence_number, -, output_index, index_, rfl⟩ := h
    refine ⟨fields, rfl, fun key t s o => ?_, optionField_eq rfl index_, optionField_eq rfl type_⟩
    let known : List Text := [utf8 "type", utf8 "sequence_number", utf8 "output_index"]
    have kept : (fun key => !known.contains key) key = true := by simp [known, t, s, o]
    exact @lookup_filter_keys Text Json _ _ fields key (fun key => !known.contains key) kept
  | _ => simp [WireEvent.ofJson, Json.asObject] at h

/-- A frame whose payload and wire object are those of one value. -/
def EventFrame.FromValue (items : ItemSerde) (newId : NewId) (frame : EventFrame) : Prop :=
  ∃ json fields, WireEvent.Reads json fields frame.wire ∧ frame.payload = extractPayload items newId frame.event_type json

/-- A frame that was read comes of the value it was read from. -/
theorem normalizeSseValue_ok {items : ItemSerde} {newId : NewId} {json : Json} {frame : EventFrame}
    (h : normalizeSseValue items newId json = .ok (some frame)) : frame.FromValue items newId := by
  unfold normalizeSseValue at h
  split at h
  · simp only [Except.ok.injEq, Option.map_eq_some_iff] at h
    obtain ⟨wire, read, rfl⟩ := h
    obtain ⟨fields, reads⟩ := WireEvent.ofJson_reads read
    exact ⟨_, fields, reads, rfl⟩
  · simp at h

theorem jsonStr_obj {fields : List (Text × Json)} {key : Text} :
    jsonStr (.obj fields) key = ((fields.lookup key).bind Json.asStr).getD [] := by
  rw [jsonStr, Json.asStr_at_obj]

/-- The index of the value is the index of the event that was read. -/
theorem jsonOutputIndex_eq {json : Json} {fields : List (Text × Json)} {wire : WireEvent} (reads : WireEvent.Reads json fields wire) :
    jsonOutputIndex json = wire.output_index.filter (· < 2 ^ 32) := by
  rw [reads.object, jsonOutputIndex, Json.get, reads.output_index]

/-- The id that is read of an item is the id that is checked, and it is not empty. -/
theorem outputItemId_obj {item : List (Text × Json)} {owner item_id : Text} {item_type : SSEItemType}
    (h : outputItemIdentity item owner = .ok (item_id, item_type)) :
    outputItemId (.obj item) = item_id ∧ item_id ≠ [] ∧ SSEItemType.ofStr (jsonStr (.obj item) "type") = item_type := by
  unfold outputItemIdentity at h
  cases known : ((item.lookup (utf8 "id")).bind Json.asNonEmptyStr).or ((item.lookup (utf8 "item_id")).bind Json.asNonEmptyStr) with
  | none => simp [known, throw, throwThe, MonadExceptOf.throw, bind, Except.bind] at h
  | some id =>
  cases named : requiredStr item "type" owner with
  | error error => simp [known, named, bind, Except.bind, pure, Except.pure] at h
  | ok name =>
  cases parsed : SSEItemType.parse name with
  | none => simp [known, named, parsed, throw, throwThe, MonadExceptOf.throw, bind, Except.bind, pure, Except.pure] at h
  | some kind =>
  simp only [known, named, parsed, bind, Except.bind, pure, Except.pure, Except.ok.injEq, Prod.mk.injEq] at h
  obtain ⟨rfl, rfl⟩ := h
  refine ⟨?_, ?_, ?_⟩
  · rw [outputItemId, Json.asStr_at_obj, Json.asStr_at_obj, ← bind_asNonEmptyStr, ← bind_asNonEmptyStr, known]
    rfl
  · intro empty
    subst empty
    rw [bind_asNonEmptyStr, bind_asNonEmptyStr, Option.or_eq_some_iff] at known
    rcases known with here | ⟨-, here⟩ <;> simp [Option.filter_eq_some_iff] at here
  · unfold requiredStr requiredField at named
    split at named
    · rename_i s read
      rw [Except.ok.injEq] at named
      subst named
      have str : (item.lookup (utf8 "type")).bind Json.asStr = some s := by
        rw [bind_asNonEmptyStr, Option.filter_eq_some_iff] at read
        exact read.1
      rw [jsonStr, Json.asStr_at_obj, str, Option.getD_some, SSEItemType.ofStr, parsed]
      rfl
    · simp at named

/-- A value gets the same id whether it is read to be checked or to be applied. -/
theorem canonicalFields_eq {item : List (Text × Json)} {item_id : Text} (named : item_id ≠ []) :
    canonicalFields item item_id = canonicalItem (.obj item) item_id := by
  unfold canonicalFields canonicalItem
  simp only [Json.asStr_at_obj]
  rw [bind_asNonEmptyStr]
  cases (item.lookup (utf8 "id")).bind Json.asStr with
  | none => simp [named]
  | some id => by_cases empty : id = [] <;> simp [named, empty]

/-- The item that is completed with its id keeps its type. -/
theorem canonicalItem_type {item : List (Text × Json)} {item_id : Text} :
    jsonStr (canonicalItem (.obj item) item_id) "type" = jsonStr (.obj item) "type" := by
  unfold canonicalItem
  simp only
  split
  · rw [jsonStr, jsonStr, Json.asStr_at_obj, Json.asStr_at_obj, lookup_insertField_ne (by decide)]
  · rfl

/-- A field that was found has the value that is read of it. -/
theorem requiredField_ok {α : Type} {read : Json → Option α} {fields : List (Text × Json)} {field owner : Text} {a : α}
    (h : requiredField read fields field owner = .ok a) : (fields.lookup field).bind read = some a := by
  unfold requiredField at h
  split at h
  · rename_i v found
    rw [found, Except.ok.inj h]
  · simp at h

/-- What is known of the item that an added or done event shows. -/
structure ShownItem (items : ItemSerde) (newId : NewId) (frame : EventFrame) (complete : Bool) (shown : ValidatedItem)
    (item : List (Text × Json)) : Prop where
  here : (frame.wire.rest.lookup (utf8 "item")).bind Json.asObject = some item
  index : frame.wire.output_index.filter (· < 2 ^ 32) = some shown.output_index
  identity : outputItemIdentity item "output item" = .ok (shown.item_id, shown.item_type)
  done : if complete = true then
      ∃ output, items.item newId (canonicalFields item shown.item_id) = .ok output ∧
        SSEItemType.ofItem output = some shown.item_type ∧ shown.done_item = some output
    else shown.done_item = none

/-- The index that was found is the index of the event. -/
theorem requiredOutputIndex_ok {frame : EventFrame} {owner : Text} {index : Nat} (h : requiredOutputIndex frame owner = .ok index) :
    frame.wire.output_index.filter (· < 2 ^ 32) = some index := by
  unfold requiredOutputIndex at h
  split at h
  · rename_i found
    rw [found, Except.ok.inj h]
  · simp at h

/-- What an item event was found to show is the item it carries. -/
theorem validateOutputItem_ok {items : ItemSerde} {newId : NewId} {frame : EventFrame} {event_name : Text} {complete : Bool}
    {shown : ValidatedItem} (h : validateOutputItem items newId frame event_name complete = .ok shown) :
    ∃ item, ShownItem items newId frame complete shown item := by
  unfold validateOutputItem at h
  obtain ⟨output_index, index, h⟩ := bind_eq_ok.1 h
  obtain ⟨item, found, h⟩ := bind_eq_ok.1 h
  obtain ⟨⟨item_id, item_type⟩, identity, h⟩ := bind_eq_ok.1 h
  have here := requiredField_ok found
  have index := requiredOutputIndex_ok index
  simp only at h
  split at h
  · rename_i partly
    have same := pure_eq_ok.1 h
    subst same
    exact ⟨item, ⟨here, index, identity, by simp [partly]⟩⟩
  · rename_i whole
    have whole : complete = true := by simpa using whole
    split at h
    · exact absurd h throw_ne_ok
    · rename_i output read
      split at h
      · rename_i kind
        have same := pure_eq_ok.1 h
        subst same
        exact ⟨item, ⟨here, index, identity, by rw [if_pos whole]; exact ⟨output, read, kind, rfl⟩⟩⟩
      · exact absurd h throw_ne_ok

/-- What is known of the item that another event is about. -/
structure NamedItem (frame : EventFrame) (named : ValidatedItem) : Prop where
  index : frame.wire.output_index.filter (· < 2 ^ 32) = some named.output_index
  id : ((frame.wire.rest.lookup (utf8 "item_id")).bind Json.asStr).getD [] = named.item_id
  id_given : named.item_id = [] → frame.event_type.isShellCommand = true
  kind : expectedItemType frame.event_type = some named.item_type
  done : named.done_item = none

/-- The id that was found is the id of the event. -/
theorem validateEventItemId_ok {frame : EventFrame} {event_name item_id : Text}
    (h : validateEventItemId frame event_name = .ok item_id) :
    ((frame.wire.rest.lookup (utf8 "item_id")).bind Json.asStr).getD [] = item_id ∧
      (item_id = [] → frame.event_type.isShellCommand = true) := by
  unfold validateEventItemId at h
  split at h
  · rename_i absent
    rw [Option.isNone_iff_eq_none] at absent
    rw [absent.2, ← Except.ok.inj h]
    exact ⟨rfl, fun _ => absent.1⟩
  · have found := requiredField_ok h
    rw [bind_asNonEmptyStr, Option.filter_eq_some_iff] at found
    rw [found.1]
    exact ⟨rfl, fun empty => by simp [empty] at found⟩

/-- What a frame that passes its own check says of an item. -/
inductive FrameItem (items : ItemSerde) (newId : NewId) (frame : EventFrame) : Option ValidatedItem → Prop
  | none (kind : expectedItemType frame.event_type = none) (added : frame.event_type ≠ .outputItemAdded)
      (done : frame.event_type ≠ .outputItemDone) : FrameItem items newId frame none
  | added {shown item} (type : frame.event_type = .outputItemAdded) (shows_ : ShownItem items newId frame false shown item) :
      FrameItem items newId frame (some shown)
  | done {shown item} (type : frame.event_type = .outputItemDone) (shows_ : ShownItem items newId frame true shown item) :
      FrameItem items newId frame (some shown)
  | part {named} (names : NamedItem frame named) : FrameItem items newId frame (some named)

/-- What a frame was found to show is what it carries. -/
theorem validateFrame_ok {items : ItemSerde} {newId : NewId} {frame : EventFrame} {validated : ValidatedFrame}
    (h : validateFrame items newId frame = .ok validated) : FrameItem items newId frame validated.item := by
  unfold validateFrame at h
  simp only at h
  split at h
  rotate_left
  · obtain ⟨_, failed, _⟩ := bind_eq_ok.1 h
    exact absurd failed throw_ne_ok
  simp only [pure_bind] at h
  have response {x : Except Text Unit} (kind : expectedItemType frame.event_type = none) (added : frame.event_type ≠ .outputItemAdded)
      (done : frame.event_type ≠ .outputItemDone) (h : (x >>= fun _ => pure (⟨none⟩ : ValidatedFrame)) = .ok validated) :
      FrameItem items newId frame validated.item := by
    obtain ⟨-, -, h⟩ := bind_eq_ok.1 h
    rw [← pure_eq_ok.1 h]
    exact .none kind added done
  split at h
  case h_6 type =>
    obtain ⟨shown, valid, h⟩ := bind_eq_ok.1 h
    obtain ⟨item, shows_⟩ := validateOutputItem_ok valid
    rw [← pure_eq_ok.1 h]
    exact .added type shows_
  case h_7 type =>
    obtain ⟨shown, valid, h⟩ := bind_eq_ok.1 h
    obtain ⟨item, shows_⟩ := validateOutputItem_ok valid
    rw [← pure_eq_ok.1 h]
    exact .done type shows_
  case h_8 type =>
    rw [← pure_eq_ok.1 h]
    exact .none (by rw [type]; rfl) (by simp [type]) (by simp [type])
  case h_9 =>
    obtain ⟨output_index, index, h⟩ := bind_eq_ok.1 h
    obtain ⟨item_id, id, h⟩ := bind_eq_ok.1 h
    obtain ⟨-, -, h⟩ := bind_eq_ok.1 h
    split at h
    · exact absurd h throw_ne_ok
    · rename_i item_type kind
      rw [← pure_eq_ok.1 h]
      have given := validateEventItemId_ok id
      exact .part ⟨requiredOutputIndex_ok index, given.1, given.2, kind, rfl⟩
  all_goals
    rename_i type
    exact response (by rw [type]; rfl) (by simp [type]) (by simp [type]) h

/-- A value has an id of its own. -/
def Json.HasId (v : Json) : Prop := ∃ id, (v.get "id").bind Json.asStr = some id ∧ id ≠ []

/-- The item that is completed with its id has one. -/
theorem canonicalItem_hasId {item : List (Text × Json)} {item_id : Text} (named : item_id ≠ []) :
    Json.HasId (canonicalItem (.obj item) item_id) := by
  unfold canonicalItem
  simp only [Json.asStr_at_obj]
  by_cases own : ((item.lookup (utf8 "id")).bind Json.asStr).all (· = []) = true
  · rw [if_pos ⟨named, own⟩]
    exact ⟨item_id, by rw [Json.get, lookup_insertField_self]; rfl, named⟩
  · rw [if_neg fun both => own both.2]
    cases here : (item.lookup (utf8 "id")).bind Json.asStr with
    | none => simp [here] at own
    | some id => exact ⟨id, here, by simpa [here] using own⟩

/-- A function call with an id of its own does not ask for a new one. -/
theorem FunctionToolCall.ofFields_newId {newId newId' : NewId} {fields : List (Text × Json)} {id : Text}
    (has : (fields.lookup (utf8 "id")).bind Json.asStr = some id) (named : id ≠ []) :
    FunctionToolCall.ofFields newId fields = FunctionToolCall.ofFields newId' fields := by
  unfold FunctionToolCall.ofFields
  cases read : optionField fields "id" Json.asStr with
  | none => rfl
  | some own =>
    have same := optionField_eq rfl read
    rw [has] at same
    subst same
    have kept : (some id).filter (fun s => decide (s ≠ [])) = some id := by simp [Option.filter, named]
    simp only [Option.bind_eq_bind, Option.bind_some, kept, Option.getD_some]

/-- No id is made for a value that has one. -/
theorem OutputItem.ofJson_newId {newId newId' : NewId} {v : Json} (has : Json.HasId v) :
    OutputItem.ofJson newId v = OutputItem.ofJson newId' v := by
  obtain ⟨id, here, named⟩ := has
  cases v with
  | obj fields =>
    rw [OutputItem.ofJson_obj, OutputItem.ofJson_obj]
    cases requiredOf fields "type" Json.asStr with
    | none => rfl
    | some type =>
      rw [Option.bind_some, Option.bind_some]
      unfold OutputItem.ofFields
      have kept : (fields.filter fun field => field.1 != utf8 "type").lookup (utf8 "id") = fields.lookup (utf8 "id") :=
        @lookup_filter_keys Text Json _ _ fields "id" (fun key => key != utf8 "type") (by decide)
      rw [@FunctionToolCall.ofFields_newId newId newId' _ id (by rw [kept]; exact here) named]
  | arr items => cases here
  | _ => rfl

/-- No id is made for a shell call. -/
theorem OutputItem.ofJson_shellCall {newId newId' : NewId} {v : Json} (shell : (v.at_ "type").asStr = some (utf8 "shell_call")) :
    OutputItem.ofJson newId v = OutputItem.ofJson newId' v := by
  cases v with
  | obj fields =>
    have type : requiredOf fields "type" Json.asStr = some (utf8 "shell_call") := by rwa [Json.asStr_at_obj] at shell
    have kind : SSEItemType.parse (utf8 "shell_call") = some .shellCall := by decide
    simp only [OutputItem.ofJson_obj, Option.bind_some, type, OutputItem.ofFields, kind]
  | arr items => cases shell
  | _ => rfl

section
variable {errorText : Json → Text} {sameValue : OutputItem → OutputItem → Bool} {newId newId' : NewId}

/-- An item with an id of its own does not ask for a new one. -/
theorem ItemSerde.derived_item_newId {v : Json} (has : Json.HasId v) :
    (ItemSerde.derived errorText sameValue).item newId v = (ItemSerde.derived errorText sameValue).item newId' v := by
  simp only [ItemSerde.derived, @OutputItem.ofJson_newId newId newId' v has]

/-- What an event tells does not depend on the ids that are handed out. -/
theorem extractPayload_newId {type : SSEEventType} {json : Json} :
    extractPayload (ItemSerde.derived errorText sameValue) newId type json =
      extractPayload (ItemSerde.derived errorText sameValue) newId' type json := by
  cases type
  case outputItemAdded =>
    simp only [extractPayload, extractOutputItemAdded]
    split
    · rename_i shell
      simp only [ItemSerde.itemOpt, ItemSerde.derived, @OutputItem.ofJson_shellCall newId newId' _ shell]
    · rfl
  all_goals rfl

/-- A line is the same frame whatever ids are made on it. -/
theorem normalizeSseValue_newId {json : Json} :
    normalizeSseValue (ItemSerde.derived errorText sameValue) newId json =
      normalizeSseValue (ItemSerde.derived errorText sameValue) newId' json := by
  unfold normalizeSseValue
  simp only [@extractPayload_newId errorText sameValue newId newId']

end

end AgenticStack
