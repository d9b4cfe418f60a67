import AgenticStack.Storage.ConversationStore
import AgenticStack.Storage.ItemRow

/-!
# Rows in batches and queries

A statement binds a bounded number of values: new rows are inserted in batches, and the rows of a
history are queried in chunks. What a query returns comes in an order of the database's own.
-/

namespace AgenticStack
set_option autoImplicit false
open Library

/-- What the database answers: the rows under `ids`, in some order. -/
structure Selects {Row : Type} (select : List Row → List Nat → List (Nat × Row)) : Prop where
  mem : ∀ items ids id row, (id, row) ∈ select items ids ↔ id ∈ ids ∧ items[id]? = some row

/-- A map built from pairs: a key that comes again has the later value. -/
def collectEntries {κ α : Type} [DecidableEq κ] (entries : List (κ × α)) : List (κ × α) :=
  entries.foldl (fun kept entry => insertEntry kept entry.1 entry.2) []

namespace ResponseStore

section
variable {Row : Type} (codec : ItemCodec Row) (select : List Row → List Nat → List (Nat × Row)) (store : ResponseStore Row)

/-- `item::get_items`. -/
def getItems (items : List Row) (ids : List Nat) : List (Nat × Row) :=
  if ids = [] then []
  else select items (ids.take MAX_BIND_PARAMETERS) ++ getItems items (ids.drop MAX_BIND_PARAMETERS)
termination_by ids.length
decreasing_by
  rename_i some
  have := List.length_pos_iff.2 some
  rw [List.length_drop, MAX_BIND_PARAMETERS]
  omega

/-- The rows that can be read, under their ids. -/
def readRows (rows : List (Nat × Row)) : List (Nat × InOutItem) :=
  rows.filterMap fun row => (codec.read row.2).map fun item => (row.1, item)

/-- `rehydrate`, with its queries. -/
def rehydrateQueried (response_id : Text) : Except StorageError (List InOutItem) := do
  let response ← store.get response_id
  let rows := getItems select store.items response.history_item_ids
  let items_by_id := collectEntries (readRows codec rows)
  return removeEach (fun id => items_by_id.lookup id) response.history_item_ids

/-- `item::create_in_tx`, without a conversation. -/
def createInTx (tx : ResponseStore Row) (items : List Row) : ResponseStore Row :=
  if items = [] then tx
  else createInTx { tx with items := tx.items ++ items.take MAX_ITEMS_PER_INSERT } (items.drop MAX_ITEMS_PER_INSERT)
termination_by items.length
decreasing_by
  rename_i some
  have := List.length_pos_iff.2 some
  rw [List.length_drop, MAX_ITEMS_PER_INSERT, MAX_BIND_PARAMETERS, ITEM_COLUMN_COUNT]
  omega

/-- A response to persist. -/
structure NewResponse where
  response_id : Text
  conversation_id : Option Text
  previous_response_id : Option Text
  new_items : List InOutItem
  metadata : ResponseMetadata

/-- `persist_with_conversation_id`, with its batches: an id that is taken rolls them back. -/
def persistBatched (response : NewResponse) : Except StorageError (ResponseStore Row) := do
  let item_ids ← store.previousItemIds response.previous_response_id
  let tx := store.createInTx (response.new_items.map codec.write)
  if (tx.responses.lookup response.response_id).isSome then throw .uniqueViolation
  return { tx with responses := tx.responses ++ [(response.response_id,
    { conversation_id := response.conversation_id
      previous_response_id := response.previous_response_id
      history_item_ids := item_ids ++ store.newIds response.new_items
      metadata := response.metadata.persisted })] }

/-- One write of a sequence of writes, which a failed one leaves unchanged. -/
def persistStep (store : ResponseStore Row) (response : NewResponse) : ResponseStore Row :=
  match store.persistBatched codec response with
  | .ok store' => store'
  | .error _ => store

/-- A tree of responses, each persisted in its turn. -/
def persistAll (responses : List NewResponse) : ResponseStore Row := responses.foldl (persistStep codec) empty

end

section
variable {Row : Type} {codec : ItemCodec Row} {select : List Row → List Nat → List (Nat × Row)} {store : ResponseStore Row}
  {items : List Row} {ids : List Nat}

theorem createInTx_eq (tx : ResponseStore Row) (items : List Row) : tx.createInTx items = { tx with items := tx.items ++ items } := by
  induction tx, items using createInTx.induct with
  | case1 tx => rw [createInTx, if_pos rfl, List.append_nil]
  | case2 tx items some ih =>
    rw [createInTx, if_neg some, ih]
    dsimp only
    rw [List.append_assoc, List.take_append_drop]

theorem persistBatched_eq (response : NewResponse) : store.persistBatched codec response =
    store.persistWithConversationId codec response.response_id response.conversation_id response.previous_response_id
      response.new_items response.metadata := by
  rw [persistBatched, persistWithConversationId, createInTx_eq]

theorem mem_getItems (selects : Selects select) {id : Nat} {row : Row} :
    (id, row) ∈ getItems select items ids ↔ id ∈ ids ∧ items[id]? = some row := by
  induction ids using getItems.induct with
  | case1 =>
    rw [getItems, if_pos rfl]
    exact ⟨(fun no => nomatch no), (fun no => nomatch no.1)⟩
  | case2 ids some ih =>
    rw [getItems, if_neg some, List.mem_append, selects.mem, ih, ← or_and_right, ← List.mem_append,
      List.take_append_drop]

end

end ResponseStore

section
variable {κ α : Type} [DecidableEq κ] {f : κ → Option α}

theorem lookup_foldl_insertEntry (entries kept : List (κ × α)) (agree : ∀ entry ∈ entries, f entry.1 = some entry.2) (k : κ) :
    (entries.foldl (fun kept entry => insertEntry kept entry.1 entry.2) kept).lookup k =
      if k ∈ entries.map Prod.fst then f k else kept.lookup k := by
  induction entries generalizing kept with
  | nil => rfl
  | cons entry entries ih =>
    have here := agree entry List.mem_cons_self
    rw [List.foldl_cons, ih _ fun other mem => agree other (List.mem_cons_of_mem _ mem), List.map_cons]
    by_cases later : k ∈ entries.map Prod.fst
    · rw [if_pos later, if_pos (List.mem_cons_of_mem _ later)]
    · rw [if_neg later]
      by_cases same : entry.1 = k
      · subst same
        rw [if_pos List.mem_cons_self, lookup_insertEntry_self, here]
      · rw [lookup_insertEntry_ne fun other => same other.symm, if_neg]
        rw [List.mem_cons, not_or]
        exact ⟨fun other => same other.symm, later⟩

/-- Where equal keys have equal values, their order does not matter. -/
theorem lookup_collectEntries {entries : List (κ × α)} (agree : ∀ entry ∈ entries, f entry.1 = some entry.2) (k : κ) :
    (collectEntries entries).lookup k = if k ∈ entries.map Prod.fst then f k else none :=
  lookup_foldl_insertEntry entries [] agree k

end

namespace ResponseStore

section
variable {Row : Type} {codec : ItemCodec Row} {select : List Row → List Nat → List (Nat × Row)}
  {store store' : ResponseStore Row} {ids : List Nat}

/-- The items by id do not depend on the queries. -/
theorem lookup_queried (selects : Selects select) (id : Nat) :
    (collectEntries (readRows codec (getItems select store.items ids))).lookup id = store.itemsById codec ids id := by
  have agree : ∀ entry ∈ readRows codec (getItems select store.items ids),
      store.itemsById codec ids entry.1 = some entry.2 := by
    rintro ⟨id, item⟩ mem
    obtain ⟨⟨_, row⟩, there, made⟩ := List.mem_filterMap.1 mem
    obtain ⟨_, read, same⟩ := Option.map_eq_some_iff.1 made
    cases same
    obtain ⟨asked, found⟩ := (mem_getItems selects).1 there
    rw [itemsById, if_pos asked, found]
    exact read
  rw [lookup_collectEntries agree]
  split
  · rfl
  · rename_i absent
    symm
    by_contra there
    obtain ⟨item, here⟩ := Option.ne_none_iff_exists'.1 there
    rw [itemsById] at here
    split at here
    · rename_i asked
      obtain ⟨row, found, read⟩ := Option.bind_eq_some_iff.1 here
      apply absent
      refine List.mem_map.2 ⟨(id, item), List.mem_filterMap.2 ⟨(id, row), (mem_getItems selects).2 ⟨asked, found⟩, ?_⟩, rfl⟩
      rw [read]
      rfl
    · cases here

/-- **In whatever order the rows come**, the history is read in its own. -/
theorem rehydrateQueried_eq (selects : Selects select) (response_id : Text) :
    store.rehydrateQueried codec select response_id = store.rehydrate codec response_id := by
  unfold rehydrateQueried rehydrate
  cases store.get response_id with
  | error e => rfl
  | ok response =>
    show Except.ok _ = Except.ok _
    congr 1
    apply removeEach_congr
    intro id _
    exact lookup_queried selects id

end

section
variable {Row : Type} {codec : ItemCodec Row} {store store' : ResponseStore Row} {response : NewResponse}
  {before after : List NewResponse}

theorem persistStep_grows (wf : store.WellFormed) :
    Grows store (persistStep codec store response) ∧ (persistStep codec store response).WellFormed := by
  unfold persistStep
  split
  · rename_i stored
    rw [persistBatched_eq] at stored
    obtain ⟨grows, wf', -⟩ := persist_ok wf stored
    exact ⟨grows, wf'⟩
  · exact ⟨.refl, wf⟩

theorem persistAll_grows (wf : store.WellFormed) (responses : List NewResponse) :
    Grows store (responses.foldl (persistStep codec) store) ∧ (responses.foldl (persistStep codec) store).WellFormed := by
  induction responses generalizing store with
  | nil => exact ⟨.refl, wf⟩
  | cons response responses ih =>
    obtain ⟨first, wf'⟩ := @persistStep_grows Row codec store response wf
    obtain ⟨rest, wf''⟩ := ih wf'
    exact ⟨first.trans rest, wf''⟩

/-- A response of the tree, in the store at its end: its history is that of the response before it and what
was written with it. -/
theorem rehydrate_persistAll (persisted : (persistAll codec before).persistBatched codec response = .ok store') :
    ∃ rows, Before codec (persistAll codec (before ++ response :: after)) response.previous_response_id rows ∧
      (persistAll codec (before ++ response :: after)).rehydrate codec response.response_id =
        .ok (rows ++ readBack codec response.new_items) := by
  obtain ⟨-, wf⟩ := @persistAll_grows Row codec _ wellFormed_empty before
  have step : persistStep codec (persistAll codec before) response = store' := by
    unfold persistStep
    rw [persisted]
  have whole : persistAll codec (before ++ response :: after) = after.foldl (persistStep codec) store' := by
    rw [persistAll, List.foldl_append, List.foldl_cons]
    exact congrArg (fun store => after.foldl (persistStep codec) store) step
  rw [persistBatched_eq] at persisted
  obtain ⟨grows, wf', -, rows, earlier, read⟩ := persist_ok wf persisted
  obtain ⟨later, -⟩ := @persistAll_grows Row codec _ wf' after
  rw [whole]
  exact ⟨rows, earlier.grows (grows.trans later) wf, later.rehydrate wf' read⟩

/-- What others persist changes no history. -/
theorem rehydrate_persistAll_append {response_id : Text} {rows : List InOutItem}
    (read : (persistAll codec before).rehydrate codec response_id = .ok rows) :
    (persistAll codec (before ++ after)).rehydrate codec response_id = .ok rows := by
  obtain ⟨-, wf⟩ := @persistAll_grows Row codec _ wellFormed_empty before
  obtain ⟨later, -⟩ := @persistAll_grows Row codec _ wf after
  rw [persistAll, List.foldl_append]
  exact later.rehydrate wf read

end

section
variable {serde : SerdeJson} {newId : NewId}

theorem read_write_rows {item : InOutItem} : (ItemCodec.rows serde newId).read ((ItemCodec.rows serde newId).write item) =
    Item.asInout serde newId item.toRow := rfl

/-- Items that their rows can hold are read back, but for kept fields under the key of the side. -/
theorem readBack_rows {new_items : List InOutItem} (storable : ∀ item ∈ new_items, item.Storable serde) :
    readBack (ItemCodec.rows serde newId) new_items = new_items.map InOutItem.withoutMarker := by
  unfold readBack
  induction new_items with
  | nil => rfl
  | cons item new_items ih =>
    have here := @Item.asInout_toRow _ newId _ (storable item List.mem_cons_self)
    have rest := ih fun other mem => storable other (List.mem_cons_of_mem _ mem)
    rw [List.filterMap_cons, read_write_rows, here, rest, List.map_cons]

theorem readBack_unmarked {new_items : List InOutItem}
    (storable : ∀ item ∈ new_items, item.Storable serde ∧ item.Unmarked) :
    readBack (ItemCodec.rows serde newId) new_items = new_items := by
  rw [readBack_rows fun item mem => (storable item mem).1]
  conv_rhs => rw [← List.map_id new_items]
  apply List.map_congr_left
  intro item mem
  exact InOutItem.withoutMarker_of_unmarked (storable item mem).1.wellFormed (storable item mem).2

end

/-- The history of a response in a tree of responses, and of those before it. -/
structure RehydratesTo (codec : ItemCodec Text) (select : List Text → List Nat → List (Nat × Text))
    (before after : List NewResponse) (response : NewResponse) (items : List InOutItem) : Prop where
  /-- A response without a parent has the items written with it. -/
  root : response.previous_response_id = none →
    (persistAll codec (before ++ response :: after)).rehydrateQueried codec select response.response_id = .ok items
  /-- Any other has them behind the history of its parent. -/
  child : ∀ parent, response.previous_response_id = some parent → ∃ rows,
    (persistAll codec (before ++ response :: after)).rehydrateQueried codec select parent = .ok rows ∧
    (persistAll codec (before ++ response :: after)).rehydrateQueried codec select response.response_id =
      .ok (rows ++ items)
  /-- Nor it nor a later one changes a history that could be read. -/
  others : ∀ response_id rows, (persistAll codec before).rehydrateQueried codec select response_id = .ok rows →
    (persistAll codec (before ++ response :: after)).rehydrateQueried codec select response_id = .ok rows

/-- **The histories of a tree of responses**: each is its parent's followed by what the new rows give back, which is
the items written if their rows can hold them, and none is changed by the others. -/
theorem tree_rehydrates {serde : SerdeJson} {newId : NewId} {select : List Text → List Nat → List (Nat × Text)}
    (selects : Selects select) (before after : List NewResponse) (response : NewResponse) {store' : ResponseStore Text}
    (persisted : (persistAll (.rows serde newId) before).persistBatched (.rows serde newId) response = .ok store') :
    RehydratesTo (.rows serde newId) select before after response (readBack (.rows serde newId) response.new_items) ∧
    ((∀ item ∈ response.new_items, item.Storable serde ∧ item.Unmarked) →
      RehydratesTo (.rows serde newId) select before after response response.new_items) := by
  have reads : RehydratesTo (.rows serde newId) select before after response
      (readBack (.rows serde newId) response.new_items) := by
    obtain ⟨rows, earlier, read⟩ := @rehydrate_persistAll _ _ _ _ _ after persisted
    constructor
    · intro root
      rw [root] at earlier
      cases earlier
      rw [rehydrateQueried_eq selects]
      exact read
    · intro parent child
      rw [child] at earlier
      cases earlier with
      | after earlier =>
        refine ⟨rows, ?_, ?_⟩
        · rw [rehydrateQueried_eq selects]
          exact earlier
        · rw [rehydrateQueried_eq selects]
          exact read
    · intro response_id rows known
      rw [rehydrateQueried_eq selects] at known ⊢
      exact rehydrate_persistAll_append known
  refine ⟨reads, fun storable => ?_⟩
  rw [readBack_unmarked storable] at reads
  exact reads

/-- A table that answers in the order of its ids. -/
def rowsUnder {Row : Type} (items : List Row) (ids : List Nat) : List (Nat × Row) :=
  (List.range items.length).filterMap fun id => if id ∈ ids then items[id]?.map fun row => (id, row) else none

theorem selects_rowsUnder {Row : Type} : Selects (@rowsUnder Row) := by
  constructor
  intro items ids id row
  unfold rowsUnder
  rw [List.mem_filterMap]
  constructor
  · rintro ⟨other, -, made⟩
    split at made
    · rename_i asked
      obtain ⟨_, found, same⟩ := Option.map_eq_some_iff.1 made
      cases same
      exact ⟨asked, found⟩
    · cases made
  · rintro ⟨asked, found⟩
    refine ⟨id, List.mem_range.2 (List.getElem?_eq_some_iff.1 found).1, ?_⟩
    rw [if_pos asked, found]
    rfl

/-- A stored user message. -/
def storedMessage (text : Text) : InOutItem := .input (.message ⟨none, "user", none, .text text⟩)

theorem storable_storedMessage (text : Text) : (storedMessage text).Storable rowSerde ∧ (storedMessage text).Unmarked :=
  ⟨⟨trivial, ⟨by show ([utf8 "type", utf8 "role", utf8 "content", STORED_ITEM_KIND_KEY] : List Text).Nodup; decide,
    trivial, trivial, trivial, trivial, trivial⟩, rfl, by show 1 ≤ 127; decide⟩, rfl⟩

/-- A response that writes one item. -/
def newResponse (response_id : Text) (previous_response_id : Option Text) (item : InOutItem) : NewResponse :=
  ⟨response_id, none, previous_response_id, [item], .default⟩

/-- **An item may be lost** with its row: one that nests too deep is not read again. -/
theorem nested_item_lost :
    (persistAll (.rows rowSerde rowIds) [newResponse "resp_1" none (searchFor "ts" (nested 127))]).rehydrateQueried
      (.rows rowSerde rowIds) rowsUnder "resp_1" = .ok [] := by
  have lost : readBack (.rows rowSerde rowIds) [searchFor "ts" (nested 127)] = [] := by
    rw [readBack, List.filterMap_cons, read_write_rows, asInout_nested]
    rfl
  have persisted : ∃ store', (persistAll (.rows rowSerde rowIds) []).persistBatched (.rows rowSerde rowIds)
      (newResponse "resp_1" none (searchFor "ts" (nested 127))) = .ok store' := by
    rw [persistBatched_eq]
    exact ⟨_, rfl⟩
  obtain ⟨store', persisted⟩ := persisted
  obtain ⟨rows, earlier, read⟩ := @rehydrate_persistAll Text (.rows rowSerde rowIds) _ _ [] [] persisted
  cases earlier
  rw [rehydrateQueried_eq selects_rowsUnder]
  exact read.trans (congrArg (fun items => Except.ok ([] ++ items)) lost)

theorem tree_rehydrates_messages :
    RehydratesTo (.rows rowSerde rowIds) rowsUnder [newResponse "resp_1" none (storedMessage "one")]
      [newResponse "resp_3" (some "resp_1") (storedMessage "three")] (newResponse "resp_2" (some "resp_1") (storedMessage "two"))
      [storedMessage "two"] := by
  have persisted : ∃ store', (persistAll (.rows rowSerde rowIds)
      [newResponse "resp_1" none (storedMessage "one")]).persistBatched (.rows rowSerde rowIds)
      (newResponse "resp_2" (some "resp_1") (storedMessage "two")) = .ok store' := by
    simp only [persistAll, List.foldl_cons, List.foldl_nil, persistStep, persistBatched_eq]
    exact ⟨_, rfl⟩
  obtain ⟨store', persisted⟩ := persisted
  refine (tree_rehydrates selects_rowsUnder _ _ _ persisted).2 fun item mem => ?_
  obtain rfl := List.mem_singleton.1 mem
  exact storable_storedMessage "two"

end ResponseStore
end AgenticStack
