import AgenticStack.Types.Lowering
import AgenticStack.Types.Tools
import AgenticStack.Library.AssocList
import AgenticStack.Library.Outcome

/-!
# The response store

A stored response lists the ids of the items of its whole history. A child adds
new items to the ids of its parent; rows are never changed, so what a response
reads back as stays the same while others are written.
-/

namespace AgenticStack
set_option autoImplicit false
open Library

/-- How items are written to rows and read from them: `String::try_from` and `Item::as_inout`. -/
structure ItemCodec (Row : Type) where
  write : InOutItem → Row
  read : Row → Option InOutItem

/-- The errors of the storage layer. -/
inductive StorageError where
  | notFound (resource_type id : Text)
  | uniqueViolation
  /-- Any other failure of the database, which rolls the transaction back. -/
  | database (message : Text)
  | notConfigured
  | serialization (message : Text)
deriving DecidableEq, Repr

/-- A response row. The id of an item is its place among the item rows: a new id repeats no other. -/
structure ResponseData where
  conversation_id : Option Text
  previous_response_id : Option Text
  history_item_ids : List Nat
  metadata : ResponseMetadata

/-- The item rows and the response rows. -/
structure ResponseStore (Row : Type) where
  items : List Row
  responses : List (Text × ResponseData)

/-- What is stored of the settings: declarations without the state of the request. -/
def ResponseMetadata.persisted (metadata : ResponseMetadata) : ResponseMetadata :=
  { metadata with
    effective_tools := metadata.effective_tools.map (·.map ResponsesTool.sanitizeForPersistence)
    tool_search_loaded_tools := metadata.tool_search_loaded_tools.map (·.map ResponsesTool.sanitizeForPersistence) }

/-- The items of a map under `ids`, in their order; each is removed from the map. -/
def removeEach {Item : Type} (items_by_id : Nat → Option Item) : List Nat → List Item
  | [] => []
  | id :: ids => match items_by_id id with
    | none => removeEach items_by_id ids
    | some item => item :: removeEach (fun other => if other = id then none else items_by_id other) ids

namespace ResponseStore

section
variable {Row : Type} (codec : ItemCodec Row) (store : ResponseStore Row)

/-- The store before any write. -/
def empty : ResponseStore Row := ⟨[], []⟩

/-- Finds a response row. -/
def get (response_id : Text) : Except StorageError ResponseData :=
  match store.responses.lookup response_id with
  | some response => .ok response
  | none => .error (.notFound "Response" response_id)

/-- The items under `ids` that can be read. -/
def itemsById (ids : List Nat) (id : Nat) : Option InOutItem :=
  if id ∈ ids then store.items[id]?.bind codec.read else none

/-- The items of a response's history, in its order. -/
def rehydrate (response_id : Text) : Except StorageError (List InOutItem) := do
  let response ← store.get response_id
  return removeEach (store.itemsById codec response.history_item_ids) response.history_item_ids

/-- The history that a new response continues. -/
def previousItemIds (previous_response_id : Option Text) : Except StorageError (List Nat) :=
  match previous_response_id with
  | none => .ok []
  | some previous_id => (store.get previous_id).map (·.history_item_ids)

/-- The ids of new rows. -/
def newIds (new_items : List InOutItem) : List Nat := List.range' store.items.length new_items.length

/-- Writes a response with its new items in one transaction. -/
def persistWithConversationId (response_id : Text) (conversation_id previous_response_id : Option Text)
    (new_items : List InOutItem) (metadata : ResponseMetadata) : Except StorageError (ResponseStore Row) := do
  let item_ids ← store.previousItemIds previous_response_id
  if (store.responses.lookup response_id).isSome then throw .uniqueViolation
  return {
    items := store.items ++ new_items.map codec.write
    responses := store.responses ++ [(response_id,
      { conversation_id, previous_response_id
        history_item_ids := item_ids ++ store.newIds new_items
        metadata := metadata.persisted })] }

/-- Every id a response lists is that of a row. -/
def WellFormed : Prop :=
  ∀ entry ∈ store.responses, ∀ id ∈ entry.2.history_item_ids, id < store.items.length

end

/-- Rows and responses are only added. -/
structure Grows {Row : Type} (store store' : ResponseStore Row) : Prop where
  items : ∃ more, store'.items = store.items ++ more
  responses : ∀ id response, store.get id = .ok response → store'.get id = .ok response

end ResponseStore

section
variable {Item : Type} {m m' : Nat → Option Item} {id : Nat} {ids more : List Nat} {item : Item}

/-- A map after `ids` were removed from it. -/
def without (m : Nat → Option Item) (ids : List Nat) (id : Nat) : Option Item := if id ∈ ids then none else m id

theorem removeEach_none (absent : m id = none) : removeEach m (id :: ids) = removeEach m ids := by
  simp only [removeEach, absent]

theorem removeEach_some (found : m id = some item) :
    removeEach m (id :: ids) = item :: removeEach (fun other => if other = id then none else m other) ids := by
  simp only [removeEach, found]

theorem removeEach_congr (same : ∀ id ∈ ids, m id = m' id) : removeEach m ids = removeEach m' ids := by
  induction ids generalizing m m' with
  | nil => rfl
  | cons id ids ih =>
    have here := same id (List.mem_cons_self ..)
    have there : ∀ other ∈ ids, m other = m' other := fun other mem => same other (List.mem_cons_of_mem _ mem)
    cases found : m id with
    | none =>
      rw [removeEach_none found, removeEach_none (here.symm.trans found)]
      exact ih there
    | some item =>
      rw [removeEach_some found, removeEach_some (here.symm.trans found)]
      congr 1
      apply ih
      intro other mem
      rw [there other mem]

theorem removeEach_append : removeEach m (ids ++ more) = removeEach m ids ++ removeEach (without m ids) more := by
  induction ids generalizing m with
  | nil =>
    apply removeEach_congr
    intro id mem
    simp [without]
  | cons id ids ih =>
    rw [List.cons_append]
    cases found : m id with
    | none =>
      rw [removeEach_none found, removeEach_none found, ih]
      congr 1
      apply removeEach_congr
      intro other mem
      by_cases same : other = id
      · simp [without, same, found]
      · simp [without, same]
    | some item =>
      rw [removeEach_some found, removeEach_some found, ih, List.cons_append]
      congr 2
      apply removeEach_congr
      intro other mem
      by_cases same : other = id
      · simp [without, same]
      · simp [without, same]

/-- Without repetitions each id gives its item. -/
theorem removeEach_of_nodup (nodup : ids.Nodup) : removeEach m ids = ids.filterMap m := by
  induction ids generalizing m with
  | nil => rfl
  | cons id ids ih =>
    obtain ⟨new, nodup⟩ := List.nodup_cons.1 nodup
    cases found : m id with
    | none =>
      rw [removeEach_none found, List.filterMap_cons_none found]
      exact ih nodup
    | some item =>
      rw [removeEach_some found, List.filterMap_cons_some found, ih nodup]
      congr 1
      apply List.filterMap_congr
      intro other mem
      have other_id : other ≠ id := fun same => new (same ▸ mem)
      rw [if_neg other_id]

end

namespace ResponseStore
variable {Row : Type} {codec : ItemCodec Row} {store store' : ResponseStore Row} {response_id : Text}
  {conversation_id previous_response_id : Option Text} {new_items rows : List InOutItem} {metadata : ResponseMetadata}
  {response : ResponseData}

theorem get_ok : store.get response_id = .ok response ↔ store.responses.lookup response_id = some response := by
  unfold get
  cases store.responses.lookup response_id with
  | none => exact ⟨(fun no => nomatch no), (fun no => nomatch no)⟩
  | some found =>
    constructor
    · intro same
      cases same
      rfl
    · intro same
      cases same
      rfl

theorem rehydrate_ok : store.rehydrate codec response_id = .ok rows ↔
    ∃ response, store.get response_id = .ok response ∧
      removeEach (store.itemsById codec response.history_item_ids) response.history_item_ids = rows := by
  unfold rehydrate
  cases store.get response_id with
  | error e => exact ⟨(fun no => nomatch no), (fun ⟨_, no, _⟩ => nomatch no)⟩
  | ok response =>
    constructor
    · intro same
      cases same
      exact ⟨response, rfl, rfl⟩
    · rintro ⟨_, same, made⟩
      cases same
      exact congrArg Except.ok made

theorem Grows.refl : Grows store store := ⟨⟨[], (List.append_nil _).symm⟩, fun _ _ found => found⟩

theorem WellFormed.ids (wf : store.WellFormed) (found : store.get response_id = .ok response) :
    ∀ id ∈ response.history_item_ids, id < store.items.length := by
  intro id mem
  obtain ⟨before, after, entries, -⟩ := List.lookup_eq_some_iff.1 (get_ok.1 found)
  apply wf (response_id, response) _ id mem
  rw [entries]
  exact List.mem_append_right _ (List.mem_cons_self ..)

/-- **What a response reads back as** stays the same while the store grows. -/
theorem Grows.rehydrate (grows : Grows store store') (wf : store.WellFormed)
    (read : store.rehydrate codec response_id = .ok rows) : store'.rehydrate codec response_id = .ok rows := by
  obtain ⟨response, found, made⟩ := rehydrate_ok.1 read
  refine rehydrate_ok.2 ⟨response, grows.responses _ _ found, ?_⟩
  rw [← made]
  apply removeEach_congr
  intro id mem
  obtain ⟨more, items⟩ := grows.items
  unfold itemsById
  rw [items, List.getElem?_append_left (wf.ids found id mem)]

/-- What the rows of `new_items` read back as. -/
def readBack (codec : ItemCodec Row) (new_items : List InOutItem) : List InOutItem :=
  new_items.filterMap fun item => codec.read (codec.write item)

theorem filterMap_new_rows (items : List Row) :
    (List.range' items.length new_items.length).filterMap
      (fun id => (items ++ new_items.map codec.write)[id]?.bind codec.read) = readBack codec new_items := by
  induction new_items generalizing items with
  | nil => rfl
  | cons item new_items ih =>
    have here : (items ++ (item :: new_items).map codec.write)[items.length]?.bind codec.read =
        codec.read (codec.write item) := by simp
    have rest := ih (items ++ [codec.write item])
    rw [List.length_append, List.length_singleton, List.append_assoc] at rest
    rw [List.length_cons, List.range'_succ, List.filterMap_cons, here]
    unfold readBack
    rw [List.filterMap_cons]
    cases codec.read (codec.write item) with
    | none => exact rest
    | some read => exact congrArg (read :: ·) rest

/-- What a response is written after: nothing, or the items of the response before it. -/
inductive Before (codec : ItemCodec Row) (store : ResponseStore Row) : Option Text → List InOutItem → Prop where
  | first : Before codec store none []
  | after {previous_id : Text} {rows : List InOutItem} (read : store.rehydrate codec previous_id = .ok rows) :
      Before codec store (some previous_id) rows

variable (codec) in
theorem previousItemIds_ok {ids : List Nat} (wf : store.WellFormed)
    (h : store.previousItemIds previous_response_id = .ok ids) :
    (∀ id ∈ ids, id < store.items.length) ∧
      ∃ rows, Before codec store previous_response_id rows ∧ removeEach (store.itemsById codec ids) ids = rows := by
  unfold previousItemIds at h
  cases previous_response_id with
  | none =>
    cases h
    exact ⟨(fun id no => nomatch no), [], .first, rfl⟩
  | some previous_id =>
    dsimp only at h
    cases found : store.get previous_id with
    | error e =>
      rw [found] at h
      cases h
    | ok response =>
      rw [found] at h
      cases h
      exact ⟨wf.ids found, _, .after (rehydrate_ok.2 ⟨response, found, rfl⟩), rfl⟩

section
variable {ids : List Nat}

theorem nodup_newIds : (newIds store new_items).Nodup := List.nodup_range'

theorem le_of_mem_newIds {id : Nat} (mem : id ∈ newIds store new_items) : store.items.length ≤ id := by
  unfold newIds at mem
  rw [List.mem_range'_1] at mem
  exact mem.1

theorem lookup_snoc {entries : List (Text × ResponseData)} (free : entries.lookup response_id = none) :
    (entries ++ [(response_id, response)]).lookup response_id = some response := by
  rw [List.lookup_append, free, Option.none_or, lookup_cons_self]

/-- The items of a longer history: those listed before, and the new ones. -/
theorem removeEach_written {responses : List (Text × ResponseData)} (known : ∀ id ∈ ids, id < store.items.length) :
    removeEach (itemsById codec ⟨store.items ++ new_items.map codec.write, responses⟩ (ids ++ newIds store new_items))
      (ids ++ newIds store new_items) = removeEach (store.itemsById codec ids) ids ++ readBack codec new_items := by
  rw [removeEach_append]
  congr 1
  · apply removeEach_congr
    intro id mem
    unfold itemsById
    rw [if_pos (List.mem_append_left _ mem), if_pos mem]
    dsimp only
    rw [List.getElem?_append_left (known id mem)]
  · rw [removeEach_of_nodup nodup_newIds, ← filterMap_new_rows]
    apply List.filterMap_congr
    intro id mem
    have apart : id ∉ ids := fun old => absurd (known id old) (Nat.not_lt_of_le (le_of_mem_newIds mem))
    unfold without itemsById
    rw [if_neg apart, if_pos (List.mem_append_right _ mem)]

/-- **A response reads back** as the response before it and the items written with it. -/
theorem persist_ok (wf : store.WellFormed)
    (h : store.persistWithConversationId codec response_id conversation_id previous_response_id new_items metadata
      = .ok store') :
    Grows store store' ∧ store'.WellFormed ∧
    (∃ response, store'.get response_id = .ok response ∧ response.conversation_id = conversation_id ∧
      response.metadata = metadata.persisted) ∧
    ∃ rows, Before codec store previous_response_id rows ∧
      store'.rehydrate codec response_id = .ok (rows ++ readBack codec new_items) := by
  unfold persistWithConversationId at h
  obtain ⟨ids, previous, h⟩ := bind_eq_ok.1 h
  obtain ⟨known, rows, before, made⟩ := previousItemIds_ok codec wf previous
  cases taken : store.responses.lookup response_id with
  | some other =>
    rw [taken] at h
    cases h
  | none =>
    rw [taken] at h
    cases h
    refine ⟨⟨⟨_, rfl⟩, ?_⟩, ?_, ⟨_, get_ok.2 (lookup_snoc taken), rfl, rfl⟩, rows, before, ?_⟩
    · intro id response there
      rw [get_ok] at there ⊢
      rw [List.lookup_append, there, Option.some_or]
    · intro entry mem id listed
      rw [List.length_append, List.length_map]
      rcases List.mem_append.1 mem with old | new
      · have := wf entry old id listed
        omega
      · rw [List.mem_singleton] at new
        subst new
        rcases List.mem_append.1 listed with old | new
        · have := known id old
          omega
        · have := (List.mem_range'_1.1 new).2
          omega
    · refine rehydrate_ok.2 ⟨_, get_ok.2 (lookup_snoc taken), ?_⟩
      rw [← made]
      exact removeEach_written known

end

theorem Grows.trans {store'' : ResponseStore Row} (h : Grows store store') (h' : Grows store' store'') :
    Grows store store'' := by
  obtain ⟨more, items⟩ := h.items
  obtain ⟨more', items'⟩ := h'.items
  exact ⟨⟨more ++ more', by rw [items', items, List.append_assoc]⟩,
    fun id response found => h'.responses id response (h.responses id response found)⟩

theorem wellFormed_empty : (empty : ResponseStore Row).WellFormed := fun _ no => absurd no List.not_mem_nil

theorem Before.grows {previous_id : Option Text} (h : Before codec store previous_id rows)
    (grows : Grows store store') (wf : store.WellFormed) : Before codec store' previous_id rows := by
  cases h with
  | first => exact .first
  | after earlier => exact .after (grows.rehydrate wf earlier)

end ResponseStore
end AgenticStack
