import AgenticStack.Types.WrittenItems
import AgenticStack.Storage.ResponseStore

/-!
# The rows of items

A row holds an item as the text of its JSON object, with the side it came from in a field of its
own. The row is read back on that side; a row without the field, or one that its side cannot read,
is tried as an output first.
-/

namespace AgenticStack
set_option autoImplicit false
open Library

/-- The key under which the stored data keeps an item's kind. -/
def STORED_ITEM_KIND_KEY : Text := "_agentic_item_kind"

/-- Which of the two item types a row was written from. -/
inductive ItemKind where
  | input | output
deriving DecidableEq, Repr

namespace ItemKind

/-- The stored word for the kind. -/
def asStr : ItemKind → Text
  | .input => "input"
  | .output => "output"

/-- The kind that a stored word names. -/
def fromStoredStr (value : Text) : Option ItemKind :=
  if value = "input" then some .input else if value = "output" then some .output else none

end ItemKind

namespace InOutItem

/-- The kind an item is stored under. -/
def kind : InOutItem → ItemKind
  | .input _ => .input
  | .output _ => .output

/-- The fields of an item of either type. -/
def toFields : InOutItem → List (Text × Json)
  | .input item => item.toFields
  | .output item => item.toFields

/-- The object that is stored. -/
def storedValue (item : InOutItem) : Json :=
  .obj (insertField item.toFields STORED_ITEM_KIND_KEY (.str item.kind.asStr))

/-- `String::try_from`. -/
def toRow (item : InOutItem) : Text := item.storedValue.write

end InOutItem

namespace Item

section
variable (serde : SerdeJson) (newId : NewId) (data : Text)

/-- The stored value without the kind's key. -/
def dataWithoutStorageMarker : Option Json :=
  (serde.fromStr data).map fun v => match v with
    | .obj fields => .obj (fields.filter fun field => field.1 != STORED_ITEM_KIND_KEY)
    | v => v

/-- The row read as an input item. -/
def asInput : Option InputItem := (dataWithoutStorageMarker serde data).bind InputItem.ofJson

/-- The row read as an output item. -/
def asOutput : Option OutputItem := (dataWithoutStorageMarker serde data).bind (OutputItem.ofJson newId)

/-- The kind that the row names, if it names one. -/
def storedItemKind : Option ItemKind :=
  (serde.fromStr data).bind fun v => (v.get STORED_ITEM_KIND_KEY).bind fun kind => kind.asStr.bind ItemKind.fromStoredStr

/-- A row whose side is not known, or that its side cannot read. -/
def asEither : Option InOutItem :=
  match asOutput serde newId data, asInput serde data with
  | some output, input =>
    if output matches .unknown then
      match input with
      | some input => some (.input input)
      | none => some (.output output)
    else some (.output output)
  | none, some input => some (.input input)
  | none, none => none

/-- The row read by its kind first and then as either type. -/
def asInout : Option InOutItem :=
  match storedItemKind serde data with
  | some .input =>
    match asInput serde data with
    | some input => some (.input input)
    | none => asEither serde newId data
  | some .output =>
    match asOutput serde newId data with
    | some output => some (.output output)
    | none => asEither serde newId data
  | none => asEither serde newId data

end

end Item

/-- How a store writes its rows and reads them. -/
def ItemCodec.rows (serde : SerdeJson) (newId : NewId) : ItemCodec Text := ⟨InOutItem.toRow, Item.asInout serde newId⟩

section
variable {serde : SerdeJson} {newId : NewId} {item : InOutItem}

/-- The kept fields of an item, without one under the key of its side. -/
def withoutMarker (extra : List (Text × Json)) : List (Text × Json) :=
  extra.filter fun field => field.1 != STORED_ITEM_KIND_KEY

/-- The item as it comes back, without the marker among its extra fields. -/
def InputItem.withoutMarker : InputItem → InputItem
  | .shellCall call => .shellCall { call with extra := AgenticStack.withoutMarker call.extra }
  | .shellCallOutput output => .shellCallOutput { output with extra := AgenticStack.withoutMarker output.extra }
  | item => item

/-- The same of an output item. -/
def OutputItem.withoutMarker : OutputItem → OutputItem
  | .shellCall call => .shellCall { call with extra := AgenticStack.withoutMarker call.extra }
  | item => item

/-- The same of an item of either type. -/
def InOutItem.withoutMarker : InOutItem → InOutItem
  | .input item => .input item.withoutMarker
  | .output item => .output item.withoutMarker

/-- The wellformedness of an item of either type. -/
def InOutItem.WellFormed : InOutItem → Prop
  | .input item => item.WellFormed
  | .output item => item.WellFormed

/-- An item that its row can hold: it is in the form that is read, its floats are read as they are
printed, and its object nests no deeper than a text may. -/
structure InOutItem.Storable (serde : SerdeJson) (item : InOutItem) : Prop where
  wellFormed : item.WellFormed
  canonical : item.storedValue.Canonical serde.readFloat
  floats : item.storedValue.reread serde.readFloat = item.storedValue
  depth : item.storedValue.depth ≤ 127

theorem filter_marker {type : Text} {extra : List (Text × Json)} (fields : List (Text × Option Json)) (keys : List Text)
    (same : fields.map Prod.fst = keys) (once : (utf8 "type" :: keys).Nodup)
    (apart : STORED_ITEM_KIND_KEY ∉ utf8 "type" :: keys) (flat : Flattened ("type" :: keys) extra) :
    (taggedFields type fields extra).filter (fun field => field.1 != STORED_ITEM_KIND_KEY) =
      taggedFields type fields (withoutMarker extra) := by
  rw [withoutMarker, taggedFields_eq keys same once flat, taggedFields_eq keys same once (flat.filter _),
    List.filter_cons_of_pos (by show (utf8 "type" != STORED_ITEM_KIND_KEY) = true; decide), List.filter_append]
  congr 2
  apply filter_of_lookup_none
  rw [lookup_eq_none_iff_key]
  intro here
  subst same
  exact apart (List.mem_cons_of_mem _ (mem_keys_of_present here))

theorem InputItem.toFields_withoutMarker {item : InputItem} (wf : item.WellFormed) :
    item.toFields.filter (fun field => field.1 != STORED_ITEM_KIND_KEY) = item.withoutMarker.toFields := by
  cases item with
  | message m => exact filter_marker m.fields [utf8 "id", "role", "status", "content"] rfl (by decide) (by decide) .nil
  | functionCall call => exact filter_marker call.fields [utf8 "id", "call_id", "name", "namespace", "arguments", "status"] rfl (by decide) (by decide) .nil
  | functionCallOutput output => exact filter_marker output.fields [utf8 "call_id", "output"] rfl (by decide) (by decide) .nil
  | toolSearchCall call => exact filter_marker call.fields [utf8 "id", "call_id", "execution", "arguments", "status"] rfl (by decide) (by decide) .nil
  | toolSearchOutput output => exact filter_marker output.fields [utf8 "call_id", "execution", "status", "tools"] rfl (by decide) (by decide) .nil
  | customToolCall call => exact filter_marker call.fields [utf8 "id", "status", "call_id", "name", "input"] rfl (by decide) (by decide) .nil
  | customToolCallOutput output => exact filter_marker output.fields [utf8 "call_id", "name", "output"] rfl (by decide) (by decide) .nil
  | shellCall call => exact filter_marker call.fields ShellCall.known rfl (by decide) (by decide) wf.extra
  | shellCallOutput output => exact filter_marker output.fields ShellCallOutputMessage.known rfl (by decide) (by decide) wf.extra
  | reasoning r => exact filter_marker r.fields [utf8 "id", "content", "summary", "encrypted_content", "status"] rfl (by decide) (by decide) .nil
  | mcpListTools list => exact filter_marker list.fields [utf8 "id", "server_label", "tools", "error"] rfl (by decide) (by decide) .nil
  | compaction c => exact filter_marker c.fields [utf8 "id", "encrypted_content"] rfl (by decide) (by decide) .nil
  | compactionTrigger => exact filter_marker [] [] rfl (by decide) (by decide) .nil
  | unknown => exact wf.elim

theorem OutputItem.toFields_withoutMarker {item : OutputItem} (wf : item.WellFormed) :
    item.toFields.filter (fun field => field.1 != STORED_ITEM_KIND_KEY) = item.withoutMarker.toFields := by
  cases item with
  | message m => exact filter_marker m.fields [utf8 "id", "role", "status", "content"] rfl (by decide) (by decide) .nil
  | functionCall call => exact filter_marker call.fields [utf8 "id", "call_id", "name", "namespace", "arguments", "status"] rfl (by decide) (by decide) .nil
  | toolSearchCall call => exact filter_marker call.fields [utf8 "id", "call_id", "execution", "arguments", "status"] rfl (by decide) (by decide) .nil
  | customToolCall call => exact filter_marker call.fields [utf8 "id", "status", "call_id", "name", "input"] rfl (by decide) (by decide) .nil
  | shellCall call => exact filter_marker call.fields ShellCall.known rfl (by decide) (by decide) wf.extra
  | webSearchCall call => exact filter_marker call.fields [utf8 "id", "status", "action"] rfl (by decide) (by decide) .nil
  | mcpCall call =>
    exact filter_marker call.fields [utf8 "id", "server_label", "name", "arguments", "status", "approval_request_id", "output", "error"] rfl
        (by decide) (by decide) .nil
  | mcpListTools list => exact filter_marker list.fields [utf8 "id", "server_label", "tools", "error"] rfl (by decide) (by decide) .nil
  | reasoning r => exact filter_marker r.fields [utf8 "id", "content", "summary", "encrypted_content", "status"] rfl (by decide) (by decide) .nil
  | compaction c => exact filter_marker c.fields [utf8 "id", "encrypted_content"] rfl (by decide) (by decide) .nil
  | unknown => exact wf.elim

theorem InputItem.wellFormed_withoutMarker {item : InputItem} (wf : item.WellFormed) : item.withoutMarker.WellFormed := by
  cases item with
  | shellCall call => exact ⟨wf.action, wf.extra.filter _⟩
  | shellCallOutput output => exact ⟨wf.contents, wf.extra.filter _⟩
  | _ => exact wf

theorem OutputItem.wellFormed_withoutMarker {item : OutputItem} (wf : item.WellFormed) :
    item.withoutMarker.WellFormed := by
  cases item with
  | shellCall call => exact ⟨wf.action, wf.extra.filter _⟩
  | _ => exact wf

theorem Item.dataWithoutStorageMarker_toRow (stored : item.Storable serde) : dataWithoutStorageMarker serde item.toRow =
    some (.obj (item.toFields.filter fun field => field.1 != STORED_ITEM_KIND_KEY)) := by
  rw [dataWithoutStorageMarker, InOutItem.toRow, fromStr_write serde stored.canonical, if_pos stored.depth, stored.floats]
  show some (Json.obj _) = _
  rw [filter_insertField]

theorem Item.storedItemKind_toRow (stored : item.Storable serde) : storedItemKind serde item.toRow = some item.kind := by
  rw [storedItemKind, InOutItem.toRow, fromStr_write serde stored.canonical, if_pos stored.depth, stored.floats]
  show ((insertField _ _ _).lookup STORED_ITEM_KIND_KEY).bind _ = _
  rw [lookup_insertField_self]
  cases item <;> rfl

/-- A stored item is read on its side, as what was stored but for a kept field under the key of the side. -/
theorem Item.asInout_toRow (stored : item.Storable serde) :
    asInout serde newId item.toRow = some item.withoutMarker := by
  have data := dataWithoutStorageMarker_toRow stored
  have wf := stored.wellFormed
  rw [asInout, storedItemKind_toRow stored]
  cases item with
  | input item =>
    have read : asInput serde (InOutItem.input item).toRow = some item.withoutMarker := by
      rw [asInput, data, Option.bind_some]
      show InputItem.ofJson (.obj (item.toFields.filter _)) = _
      rw [InputItem.toFields_withoutMarker wf, InputItem.ofJson_toFields (InputItem.wellFormed_withoutMarker wf)]
    show (match asInput serde _ with | some input => some (InOutItem.input input) | none => _) = _
    rw [read]
    rfl
  | output item =>
    have read : asOutput serde newId (InOutItem.output item).toRow = some item.withoutMarker := by
      rw [asOutput, data, Option.bind_some]
      show OutputItem.ofJson newId (.obj (item.toFields.filter _)) = _
      rw [OutputItem.toFields_withoutMarker wf, OutputItem.ofJson_toFields (OutputItem.wellFormed_withoutMarker wf)]
    show (match asOutput serde newId _ with | some output => some (InOutItem.output output) | none => _) = _
    rw [read]
    rfl

/-- No kept field has the key of the side. -/
def InOutItem.Unmarked (item : InOutItem) : Prop := item.toFields.lookup STORED_ITEM_KIND_KEY = none

theorem withoutMarker_of_tagged {type : Text} {fields : List (Text × Option Json)} {extra : List (Text × Json)}
    (keys : List Text) (same : fields.map Prod.fst = keys) (once : (utf8 "type" :: keys).Nodup)
    (flat : Flattened ("type" :: keys) extra)
    (unmarked : (taggedFields type fields extra).lookup STORED_ITEM_KIND_KEY = none) : withoutMarker extra = extra := by
  rw [taggedFields_eq keys same once flat, lookup_eq_none_iff_key, List.map_cons, List.map_append, List.mem_cons,
    List.mem_append, not_or, not_or] at unmarked
  exact filter_of_lookup_none (lookup_eq_none_iff_key.2 unmarked.2.2)

theorem InOutItem.withoutMarker_of_unmarked (wf : item.WellFormed) (unmarked : item.Unmarked) :
    item.withoutMarker = item := by
  cases item with
  | input item =>
    cases item with
    | shellCall call =>
      have kept := withoutMarker_of_tagged ShellCall.known rfl (by decide) wf.extra unmarked
      show InOutItem.input (.shellCall { call with extra := AgenticStack.withoutMarker call.extra }) = _
      rw [kept]
    | shellCallOutput output =>
      have kept := withoutMarker_of_tagged ShellCallOutputMessage.known rfl (by decide) wf.extra unmarked
      show InOutItem.input (.shellCallOutput { output with extra := AgenticStack.withoutMarker output.extra }) = _
      rw [kept]
    | _ => rfl
  | output item =>
    cases item with
    | shellCall call =>
      have kept := withoutMarker_of_tagged ShellCall.known rfl (by decide) wf.extra unmarked
      show InOutItem.output (.shellCall { call with extra := AgenticStack.withoutMarker call.extra }) = _
      rw [kept]
    | _ => rfl

/-- **A stored item is read back** on the side it came from and with the values it had. Only a kept field under the
key of the side is not there again. -/
theorem InOutItem.readBack_of_storable (stored : item.Storable serde) :
    ∃ read, Item.asInout serde newId item.toRow = some read ∧ read.kind = item.kind ∧ read = item.withoutMarker ∧
      (item.Unmarked → read = item) := by
  refine ⟨item.withoutMarker, Item.asInout_toRow stored, ?_, rfl, InOutItem.withoutMarker_of_unmarked stored.wellFormed⟩
  cases item <;> rfl

end

/-- Text read as itself, for the rows of the examples. -/
def rowSerde : SerdeJson := ⟨some, fun _ => []⟩

/-- A new id that only shows where it was made. -/
def rowIds : NewId := fun front => front ++ utf8 "new"

/-- A call of one command that keeps the fields `extra`. -/
def listing (extra : List (Text × Json)) : ShellCall := ⟨none, "call_1", ⟨["ls"], none, none, []⟩, none, extra⟩

/-- `n` arrays, each in the one before. -/
def nested : Nat → Json
  | 0 => .null
  | n + 1 => .arr [nested n]

theorem canonical_nested (readFloat : Text → Option Text) (n : Nat) : (nested n).Canonical readFloat := by
  induction n with
  | zero => trivial
  | succ n ih => exact ⟨ih, trivial⟩

theorem depth_nested (n : Nat) : (nested n).depth = n := by
  induction n with
  | zero => rfl
  | succ n ih =>
    show max (nested n).depth 0 + 1 = n + 1
    rw [ih, Nat.max_zero]

/-- A finished client search with the given id and arguments. -/
def searchFor (id : Text) (arguments : Json) : InOutItem :=
  .output (.toolSearchCall ⟨id, "call_1", .client, arguments, .completed⟩)

theorem fromStr_nested : rowSerde.fromStr (searchFor "ts" (nested 127)).toRow = none := by
  have canonical : (searchFor "ts" (nested 127)).storedValue.Canonical rowSerde.readFloat :=
    ⟨by decide, trivial, trivial, trivial, trivial, canonical_nested _ _, trivial, trivial, trivial⟩
  have deep : ¬ (searchFor "ts" (nested 127)).storedValue.depth ≤ 127 := by
    show ¬ max 0 (max 0 (max 0 (max 0 (max (nested 127).depth (max 0 (max 0 0)))))) + 1 ≤ 127
    rw [depth_nested]
    decide
  rw [InOutItem.toRow, fromStr_write rowSerde canonical, if_neg deep]

/-- A kept field under the key of the side is gone. -/
theorem asInout_marked : Item.asInout rowSerde rowIds
    (InOutItem.output (.shellCall (listing [(STORED_ITEM_KIND_KEY, .null)]))).toRow =
    some (.output (.shellCall (listing []))) := by rfl

/-- A kept field takes the place of the struct's own. -/
theorem asInout_ownName : Item.asInout rowSerde rowIds
    (InOutItem.output (.shellCall (listing [("call_id", .str "call_2")]))).toRow =
    some (.output (.shellCall { listing [] with call_id := "call_2" })) := by rfl

set_option maxRecDepth 4000 in
/-- An empty id is replaced. -/
theorem asInout_emptyId : Item.asInout rowSerde rowIds
    (InOutItem.output (.functionCall ⟨[], "call_1", "f", none, [], .completed⟩)).toRow =
    some (.output (.functionCall ⟨"fc_new", "call_1", "f", none, [], .completed⟩)) := by rfl

set_option maxRecDepth 4000 in
/-- A blank id makes the row unreadable. -/
theorem asInout_blankId : Item.asInout rowSerde rowIds (searchFor [] .null).toRow = none := by rfl

theorem asInout_nested : Item.asInout rowSerde rowIds (searchFor "ts" (nested 127)).toRow = none := by
  simp only [Item.asInout, Item.asEither, Item.storedItemKind, Item.asInput, Item.asOutput, Item.dataWithoutStorageMarker,
    fromStr_nested]
  rfl

/-- **Not every item is read back as it was stored**: not with a kept field under the key of the side or
under a name of the struct's own, not with an empty or a blank id, and not with a value that nests too deep. -/
theorem lossy_rows :
    (∃ item, Item.asInout rowSerde rowIds (InOutItem.output (.shellCall (listing [(STORED_ITEM_KIND_KEY, .null)]))).toRow =
      some (.output (.shellCall item)) ∧ item.extra = []) ∧
    (∃ item, Item.asInout rowSerde rowIds (InOutItem.output (.shellCall (listing [("call_id", .str "call_2")]))).toRow =
      some (.output (.shellCall item)) ∧ item.call_id = utf8 "call_2" ∧ (listing []).call_id = utf8 "call_1") ∧
    (∃ item, Item.asInout rowSerde rowIds
      (InOutItem.output (.functionCall ⟨[], "call_1", "f", none, [], .completed⟩)).toRow =
      some (.output (.functionCall item)) ∧ item.id = utf8 "fc_new") ∧
    Item.asInout rowSerde rowIds (searchFor [] .null).toRow = none ∧
    Item.asInout rowSerde rowIds (searchFor "ts" (nested 127)).toRow = none :=
  ⟨⟨_, asInout_marked, rfl⟩, ⟨_, asInout_ownName, rfl, rfl⟩, ⟨_, asInout_emptyId, rfl⟩, asInout_blankId, asInout_nested⟩

/-- The listing's own field comes back, the one under the key of the side does not. -/
theorem readBack_listing : ∃ read, Item.asInout rowSerde rowIds
    (InOutItem.input (.shellCall (listing [("note", .null), (STORED_ITEM_KIND_KEY, .null)]))).toRow = some read ∧
    read.kind = .input ∧ read = .input (.shellCall (listing [("note", .null)])) := by
  have stored : (InOutItem.input (.shellCall (listing [("note", .null), (STORED_ITEM_KIND_KEY, .null)]))).Storable
      rowSerde := by
    refine ⟨⟨.nil, ?_, ?_⟩, ?_, rfl, ?_⟩
    · decide
    · decide
    · exact ⟨by decide, trivial, trivial, ⟨by decide, ⟨trivial, trivial⟩, trivial⟩, trivial, trivial, trivial⟩
    · decide
  obtain ⟨read, made, kind, same, -⟩ := @InOutItem.readBack_of_storable rowSerde rowIds _ stored
  exact ⟨read, made, kind, same⟩

end AgenticStack
