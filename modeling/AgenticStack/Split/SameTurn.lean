import AgenticStack.Split.Handler

/-!
# A split turn stores what the engine would

The context that comes back has the input as the model was given it, not as the client sent it. So
the rows of the turn may differ from those the engine would have written, but they say the same to
whoever continues the turn.
-/

namespace AgenticStack
set_option autoImplicit false
open Library

/-- What a stored item is in the history of a continuation. -/
def InOutItem.shown (item : InOutItem) : Option InputItem := item.toHistory.bind InputItem.lower

/-- Taking items out of a map, and showing them. -/
theorem removeEach_map {Item Shown : Type} (show_ : Item → Shown) (m : Nat → Option Item) (ids : List Nat) :
    (removeEach m ids).map show_ = removeEach (fun id => (m id).map show_) ids := by
  induction ids generalizing m with
  | nil => rfl
  | cons id ids ih =>
    cases found : m id with
    | none =>
      have absent : (fun id => (m id).map show_) id = none := by
        dsimp only
        rw [found]
        rfl
      rw [removeEach_none found, removeEach_none absent, ih]
    | some item =>
      have there : (fun id => (m id).map show_) id = some (show_ item) := by
        dsimp only
        rw [found]
        rfl
      rw [removeEach_some found, removeEach_some there, List.map_cons, ih]
      congr 1
      apply removeEach_congr
      intro other _
      split <;> rfl

/-- Rows that are read as the same history. -/
def RowsAlike {Row : Type} (codec : ItemCodec Row) (row row' : ItemRow Row) : Prop :=
  (codec.read row.data).map InOutItem.shown = (codec.read row'.data).map InOutItem.shown ∧
    row.conversation_id = row'.conversation_id ∧ row.seq = row'.seq

/-- Tables that say the same of every turn. -/
structure ConversationStore.Alike {Row : Type} (codec : ItemCodec Row) (db db' : ConversationStore Row) : Prop where
  conversations : db.conversations = db'.conversations
  responses : db.responses = db'.responses
  items : List.Forall₂ (RowsAlike codec) db.items db'.items

namespace ConversationStore.Alike

section
variable {Row : Type} {codec : ItemCodec Row} {db db' : ConversationStore Row}

theorem refl : Alike codec db db :=
  ⟨rfl, rfl, List.forall₂_same.2 fun _ _ => ⟨rfl, rfl, rfl⟩⟩

theorem itemsById (alike : Alike codec db db') (ids : List Nat) (id : Nat) :
    (db.responseStore.itemsById codec ids id).map InOutItem.shown =
      (db'.responseStore.itemsById codec ids id).map InOutItem.shown := by
  unfold ResponseStore.itemsById
  by_cases asked : id ∈ ids
  · rw [if_pos asked, if_pos asked]
    show ((db.items.map (·.data))[id]?.bind codec.read).map _ = ((db'.items.map (·.data))[id]?.bind codec.read).map _
    rw [List.getElem?_map, List.getElem?_map]
    have length := alike.items.length_eq
    by_cases here : id < db.items.length
    · have there : id < db'.items.length := by omega
      have same := alike.items.get here there
      rw [List.getElem?_eq_getElem here, List.getElem?_eq_getElem there]
      exact same.1
    · rw [List.getElem?_eq_none (by omega), List.getElem?_eq_none (by omega)]
  · rw [if_neg asked, if_neg asked]

/-- **The history** of every response is the same to a continuation. -/
theorem history (alike : Alike codec db db') (response_id : Text) :
    (db.responseStore.rehydrate codec response_id).map intoInputItems =
      (db'.responseStore.rehydrate codec response_id).map intoInputItems := by
  have known : db.responseStore.get response_id = db'.responseStore.get response_id := by
    have same : db.responseStore.responses = db'.responseStore.responses := alike.responses
    unfold ResponseStore.get
    rw [same]
  unfold ResponseStore.rehydrate
  rw [known]
  cases db'.responseStore.get response_id with
  | error e => rfl
  | ok response =>
    have said (store : ResponseStore Row) (ids : List Nat) : intoInputItems (removeEach (store.itemsById codec ids) ids) =
        (removeEach (fun id => (store.itemsById codec ids id).map InOutItem.shown) ids).filterMap id := by
      rw [← removeEach_map, List.filterMap_map, intoInputItems_eq]
      rfl
    show Except.ok _ = Except.ok _
    congr 1
    rw [said, said]
    congr 1
    apply removeEach_congr
    intro id _
    exact alike.itemsById response.history_item_ids id

end
end ConversationStore.Alike

namespace ResponseStore

section
variable {Row : Type} {codec : ItemCodec Row} {store : ResponseStore Row} {response_id : Text}
  {conversation_id previous_response_id : Option Text} {new_items : List InOutItem} {metadata : ResponseMetadata}
  {ids : List Nat}

/-- The store with a response behind the items `ids`. -/
def written (codec : ItemCodec Row) (store : ResponseStore Row) (ids : List Nat) (response_id : Text)
    (conversation_id previous_response_id : Option Text) (new_items : List InOutItem) (metadata : ResponseMetadata) :
    ResponseStore Row where
  items := store.items ++ new_items.map codec.write
  responses := store.responses ++ [(response_id,
    ⟨conversation_id, previous_response_id, ids ++ store.newIds new_items, metadata.persisted⟩)]

theorem persist_orphan {e : StorageError} (previous : store.previousItemIds previous_response_id = .error e) :
    store.persistWithConversationId codec response_id conversation_id previous_response_id new_items metadata = .error e := by
  unfold persistWithConversationId
  rw [previous]
  rfl

theorem persist_taken (previous : store.previousItemIds previous_response_id = .ok ids)
    (taken : (store.responses.lookup response_id).isSome = true) :
    store.persistWithConversationId codec response_id conversation_id previous_response_id new_items metadata =
      .error .uniqueViolation := by
  unfold persistWithConversationId
  rw [previous]
  show (if (store.responses.lookup response_id).isSome = true then _ else _) = _
  rw [if_pos taken]
  rfl

theorem persist_free (previous : store.previousItemIds previous_response_id = .ok ids)
    (free : store.responses.lookup response_id = none) :
    store.persistWithConversationId codec response_id conversation_id previous_response_id new_items metadata =
      .ok (store.written codec ids response_id conversation_id previous_response_id new_items metadata) := by
  unfold persistWithConversationId
  rw [previous]
  show (if (store.responses.lookup response_id).isSome = true then _ else _) = _
  rw [free, Option.isSome_none, if_neg Bool.false_ne_true]
  rfl

end
end ResponseStore

/-- Items whose rows say the same. -/
def WrittenAlike {Row : Type} (codec : ItemCodec Row) (item item' : InOutItem) : Prop :=
  (codec.read (codec.write item)).map InOutItem.shown = (codec.read (codec.write item')).map InOutItem.shown

section
variable {Row : Type} {codec : ItemCodec Row} {db : ConversationStore Row} {response_id : Text}
  {conversation_id previous_response_id : Option Text} {new_items new_items' : List InOutItem} {metadata : ResponseMetadata}

/-- The rows that are written have no conversation. -/
theorem afterResponse_items {store : ResponseStore Row}
    (written : store.items = db.responseStore.items ++ new_items.map codec.write) :
    (db.afterResponse store).items = db.items ++ new_items.map fun item => ⟨codec.write item, none, none⟩ := by
  have length : db.items.length = db.responseStore.items.length := (List.length_map _).symm
  show db.items ++ (store.items.drop db.items.length).map _ = _
  rw [written, length, List.drop_left, List.map_map]
  rfl

theorem persist_alike (alike : List.Forall₂ (WrittenAlike codec) new_items new_items') :
    (∃ e, db.responseStore.persistWithConversationId codec response_id conversation_id previous_response_id new_items
        metadata = .error e ∧
      db.responseStore.persistWithConversationId codec response_id conversation_id previous_response_id new_items'
        metadata = .error e) ∨
    ∃ store store', db.responseStore.persistWithConversationId codec response_id conversation_id previous_response_id
        new_items metadata = .ok store ∧
      db.responseStore.persistWithConversationId codec response_id conversation_id previous_response_id new_items'
        metadata = .ok store' ∧
      ConversationStore.Alike codec (db.afterResponse store) (db.afterResponse store') := by
  cases previous : db.responseStore.previousItemIds previous_response_id with
  | error e => exact .inl ⟨e, ResponseStore.persist_orphan previous, ResponseStore.persist_orphan previous⟩
  | ok ids =>
    cases found : db.responseStore.responses.lookup response_id with
    | some response =>
      have taken : (db.responseStore.responses.lookup response_id).isSome = true := by
        rw [found]
        rfl
      exact .inl ⟨_, ResponseStore.persist_taken previous taken, ResponseStore.persist_taken previous taken⟩
    | none =>
      refine .inr ⟨_, _, ResponseStore.persist_free previous found, ResponseStore.persist_free previous found, rfl, ?_, ?_⟩
      · show db.responseStore.responses ++ _ = db.responseStore.responses ++ _
        have ids : db.responseStore.newIds new_items = db.responseStore.newIds new_items' := by
          unfold ResponseStore.newIds
          rw [alike.length_eq]
        rw [ids]
      · rw [afterResponse_items rfl, afterResponse_items rfl]
        apply List.rel_append
        · exact List.forall₂_same.2 fun _ _ => ⟨rfl, rfl, rfl⟩
        · rw [List.forall₂_map_left_iff, List.forall₂_map_right_iff]
          exact alike.imp fun _ _ same => ⟨same, rfl, rfl⟩

end

/-- A turn outside of sessions and conversations. -/
structure CommitContext.Bare (ctx : CommitContext) : Prop where
  continuation : ctx.request.continuation = none
  conversation_id : ctx.request.original_request.conversation_id = none

/-- A turn that stores the lowered items of another's input, and is the same otherwise. -/
structure CommitContext.Lowers (ctx whole : CommitContext) : Prop where
  response_id : ctx.request.response_id = whole.request.response_id
  conversation_id : ctx.request.conversation_id = whole.request.conversation_id
  original_request : ctx.request.original_request = whole.request.original_request
  metadata : ctx.metadata = whole.metadata
  new_input_items : List.Forall₂ (fun item lowered => item.lower = some lowered) whole.request.new_input_items
    ctx.request.new_input_items

/-- The rows of the items of an input are read back, as they came and lowered. -/
def ItemCodec.ReadsInput {Row : Type} (codec : ItemCodec Row) (input : ResponsesInput) : Prop :=
  ∀ item ∈ input.newInputItems ++ input.toItems, codec.read (codec.write (.input item)) = some (.input item)

namespace Commit

section
variable {Row : Type} {codec : ItemCodec Row} {retain publish : ResponseCheckpoint → ExecutorResult Unit}
  {storageText : ConversationError → Text} {fails : Bool} {db db' : ConversationStore Row} {ctx whole : CommitContext}
  {payload : ResponsePayload} {output_items : List OutputItem}

theorem retainedOutputs_bare : Engine.retainedOutputs none output_items = output_items := by
  show (output_items.zipIdx.filter fun _ => true).map Prod.fst = output_items
  rw [List.filter_eq_self.2 fun _ _ => rfl, List.zipIdx_map_fst]

/-- A bare turn is one write to the response store. -/
theorem executeTurnWithMetadata_bare (bare : ctx.Bare) :
    Engine.executeTurnWithMetadata codec retain db.responseStore ctx.request ctx.parent output_items ctx.metadata =
      match db.responseStore.persistWithConversationId codec ctx.request.response_id ctx.request.conversation_id
        ctx.request.original_request.previous_response_id
        (ctx.request.new_input_items.map .input ++ output_items.map .output) ctx.metadata with
      | .error e => .error (Engine.storageFailure ctx.request.response_id e)
      | .ok store => .ok (store, none) := by
  have saved : ctx.request.writtenItems ctx.parent output_items =
      ctx.request.new_input_items.map .input ++ output_items.map .output := by
    unfold Engine.RequestContext.writtenItems Engine.RequestContext.savedItems
    rw [bare.continuation, retainedOutputs_bare]
  have durable : ctx.request.writeDurable = true := by
    unfold Engine.RequestContext.writeDurable
    rw [bare.continuation]
    rfl
  have previous : Engine.previousDurableId none ctx.parent ctx.metadata = ctx.request.original_request.previous_response_id :=
    rfl
  unfold Engine.executeTurnWithMetadata
  rw [saved, durable, bare.continuation, previous]
  cases db.responseStore.persistWithConversationId codec ctx.request.response_id ctx.request.conversation_id
    ctx.request.original_request.previous_response_id
    (ctx.request.new_input_items.map .input ++ output_items.map .output) ctx.metadata with
  | error e => rfl
  | ok store => rfl

theorem persistPreparedTurn_bare (bare : ctx.Bare) :
    persistPreparedTurn codec retain publish storageText fails db ctx output_items =
      match db.responseStore.persistWithConversationId codec ctx.request.response_id ctx.request.conversation_id
        ctx.request.original_request.previous_response_id
        (ctx.request.new_input_items.map .input ++ output_items.map .output) ctx.metadata with
      | .error e => (.error (Engine.storageFailure ctx.request.response_id e), db)
      | .ok store => (.ok (), db.afterResponse store) := by
  unfold persistPreparedTurn executeResponseTurn
  rw [bare.conversation_id, Option.isSome_none, if_neg Bool.false_ne_true, executeTurnWithMetadata_bare bare]
  cases db.responseStore.persistWithConversationId codec ctx.request.response_id ctx.request.conversation_id
    ctx.request.original_request.previous_response_id
    (ctx.request.new_input_items.map .input ++ output_items.map .output) ctx.metadata with
  | error e => rfl
  | ok store => rfl

/-- The check looks at the ids of calls, which lowering keeps. -/
theorem validateOutputCallIds_lowers (bare : ctx.Bare) (bare' : whole.Bare) (lowers : ctx.Lowers whole) :
    validateOutputCallIds codec db ctx output_items = validateOutputCallIds codec db whole output_items := by
  unfold validateOutputCallIds
  rw [bare.continuation, bare'.continuation, lowers.response_id, lowers.original_request,
    Split.callIds_lowered lowers.new_input_items]
  rfl

/-- Rows of an input and of the lowered one say the same. -/
theorem writtenAlike_lowered {items lowered : List InputItem}
    (lowers : List.Forall₂ (fun item lowered => item.lower = some lowered) items lowered)
    (reads : ∀ item ∈ items ++ lowered, codec.read (codec.write (.input item)) = some (.input item)) :
    List.Forall₂ (WrittenAlike codec) (lowered.map .input) (items.map .input) := by
  rw [List.forall₂_map_left_iff, List.forall₂_map_right_iff]
  induction lowers with
  | nil => exact .nil
  | @cons item lowered items rest here _ ih =>
    refine .cons ?_ (ih fun other mem => reads other ?_)
    · unfold WrittenAlike
      rw [reads lowered (List.mem_append_right _ List.mem_cons_self), reads item List.mem_cons_self]
      show some (InOutItem.shown _) = some (InOutItem.shown _)
      have shown : InOutItem.shown (.input item) = some lowered := by
        cases item with
        | unknown => cases here
        | _ => exact here
      have again : InOutItem.shown (.input lowered) = some lowered := by
        have same := lower_lower here
        cases lowered with
        | unknown => cases same
        | _ => exact same
      rw [shown, again]
    · rcases List.mem_append.1 mem with first | last
      · exact List.mem_append_left _ (List.mem_cons_of_mem _ first)
      · exact List.mem_append_right _ (List.mem_cons_of_mem _ last)

theorem turn_lowers (bare : ctx.Bare) (bare' : whole.Bare) (lowers : ctx.Lowers whole)
    (reads : ∀ item ∈ whole.request.new_input_items ++ ctx.request.new_input_items,
      codec.read (codec.write (.input item)) = some (.input item)) :
    (persistPreparedTurn codec retain publish storageText fails db ctx output_items).1 =
      (persistPreparedTurn codec retain publish storageText fails db whole output_items).1 ∧
    ConversationStore.Alike codec (persistPreparedTurn codec retain publish storageText fails db ctx output_items).2
      (persistPreparedTurn codec retain publish storageText fails db whole output_items).2 := by
  have alike : List.Forall₂ (WrittenAlike codec) (ctx.request.new_input_items.map .input ++ output_items.map .output)
      (whole.request.new_input_items.map .input ++ output_items.map .output) :=
    List.rel_append (writtenAlike_lowered lowers.new_input_items reads) (List.forall₂_same.2 fun _ _ => rfl)
  rw [persistPreparedTurn_bare bare, persistPreparedTurn_bare bare', lowers.response_id, lowers.conversation_id,
    lowers.original_request, lowers.metadata]
  rcases @persist_alike _ codec db whole.request.response_id whole.request.conversation_id
    whole.request.original_request.previous_response_id _ _ whole.metadata alike with
    ⟨e, failed, failed'⟩ | ⟨store, store', stored, stored', same⟩
  · rw [failed, failed']
    exact ⟨rfl, .refl⟩
  · rw [stored, stored']
    exact ⟨rfl, same⟩

theorem needed_lowers (bare : ctx.Bare) (bare' : whole.Bare) (lowers : ctx.Lowers whole)
    (reads : ∀ item ∈ whole.request.new_input_items ++ ctx.request.new_input_items,
      codec.read (codec.write (.input item)) = some (.input item)) :
    (persistIfNeeded codec retain publish storageText fails db payload ctx).1 =
      (persistIfNeeded codec retain publish storageText fails db payload whole).1 ∧
    ConversationStore.Alike codec (persistIfNeeded codec retain publish storageText fails db payload ctx).2
      (persistIfNeeded codec retain publish storageText fails db payload whole).2 := by
  have asked : shouldPersist ctx.request = shouldPersist whole.request := by
    unfold shouldPersist
    rw [bare.continuation, bare'.continuation, lowers.original_request]
  have turn : (persistPreparedResponse codec retain publish storageText fails db payload ctx).1 =
      (persistPreparedResponse codec retain publish storageText fails db payload whole).1 ∧
      ConversationStore.Alike codec (persistPreparedResponse codec retain publish storageText fails db payload ctx).2
        (persistPreparedResponse codec retain publish storageText fails db payload whole).2 := by
    unfold persistPreparedResponse
    split
    · exact ⟨rfl, .refl⟩
    · exact turn_lowers bare bare' lowers reads
  unfold persistIfNeeded
  rw [asked]
  by_cases stored : shouldPersist whole.request = true
  · rw [if_pos stored, if_pos stored]
    dsimp only
    rw [turn.1]
    exact ⟨rfl, turn.2⟩
  · rw [if_neg stored, if_neg stored]
    exact ⟨rfl, .refl⟩

/-- **A commit of the lowered turn** answers what a commit of the other does, and leaves tables that say the same. -/
theorem commit_lowers (bare : ctx.Bare) (bare' : whole.Bare) (lowers : ctx.Lowers whole)
    (reads : ∀ item ∈ whole.request.new_input_items ++ ctx.request.new_input_items,
      codec.read (codec.write (.input item)) = some (.input item)) :
    (commit codec retain publish storageText fails db ctx payload).1 =
      (commit codec retain publish storageText fails db whole payload).1 ∧
    ConversationStore.Alike codec (commit codec retain publish storageText fails db ctx payload).2
      (commit codec retain publish storageText fails db whole payload).2 := by
  obtain ⟨answer, alike⟩ := @needed_lowers _ _ retain publish storageText fails db _ _ payload bare bare' lowers reads
  unfold commit
  rw [lowers.response_id, validateOutputCallIds_lowers bare bare' lowers]
  split
  · exact ⟨rfl, .refl⟩
  · split
    · exact ⟨rfl, .refl⟩
    · split
      · exact ⟨rfl, .refl⟩
      · dsimp only
        rw [answer]
        exact ⟨rfl, alike⟩

end
end Commit

namespace Split

/-- Two ways to store a turn come to the same: their answers, the responses and conversations, and what a
continuation reads of the histories. -/
structure SameTurn {Row : Type} (codec : ItemCodec Row) (split whole : ExecutorResult ResponsePayload × ConversationStore Row) :
    Prop where
  answer : split.1 = whole.1
  responses : split.2.responses = whole.2.responses
  conversations : split.2.conversations = whole.2.conversations
  history : ∀ response_id, (split.2.responseStore.rehydrate codec response_id).map intoInputItems =
    (whole.2.responseStore.rehydrate codec response_id).map intoInputItems

section
variable {Token Row : Type} {sealing : Sealing Token} {codec : ItemCodec Row}
  {toolsResolved : Option (List ResponsesTool) → Option ToolChoice → ExecutorResult Unit}
  {ingest : Text → Option Text → UpstreamBody → ExecutorResult ResponseAccumulator}
  {retain publish : ResponseCheckpoint → ExecutorResult Unit} {storageText : ConversationError → Text} {fails : Bool}
  {now : Nat} {store : ResponseStore Row} {db : ConversationStore Row} {request : SplitRequest} {response_id : Text}
  {hydration : Hydration Token} {persisting : PersistRequest Token} {wire : SplitContext} {ctx : TurnContext}
  {body : UpstreamBody}

theorem Resumes.bare (resumes : Resumes wire ctx) (plain : wire.original_request.payload.conversation_id = none) :
    wire.toTurn.commitContext.Bare ∧ ctx.commitContext.Bare :=
  ⟨⟨rfl, plain⟩, ⟨resumes.continuation, (congrArg RequestPayload.conversation_id resumes.original_request).symm.trans plain⟩⟩

theorem Resumes.lowers (resumes : Resumes wire ctx) : wire.toTurn.commitContext.Lowers ctx.commitContext := by
  refine ⟨resumes.response_id, resumes.conversation_id, resumes.original_request, ?_, ?_⟩
  · unfold CommitContext.metadata
    show ResponseMetadata.mk wire.original_request.payload.model wire.original_request.payload.previous_response_id
      wire.effective_tools none (wire.effective_tool_choice.getD .auto) wire.original_request.payload.instructions = _
    rw [resumes.model, resumes.instructions, resumes.tool_choice, resumes.effective_tools, resumes.original_request]
    rfl
  · show List.Forall₂ _ ctx.request.new_input_items wire.original_request.payload.input.toItems
    rw [resumes.new_input_items]
    exact newInputItems_lower _

theorem Resumes.decodes (resumes : Resumes wire ctx) :
    decodeUpstream ingest wire.toTurn body = decodeUpstream ingest ctx body := by
  unfold decodeUpstream
  show (ingest wire.response_id wire.conversation_id body >>= fun accumulator => pure (Engine.RequestContext.injectIds
    wire.toTurn.request (accumulator.finalize wire.original_request.payload.model
      wire.original_request.payload.previous_response_id wire.original_request.payload.instructions))) = _
  rw [resumes.response_id, resumes.conversation_id, resumes.model, resumes.original_request]
  unfold Engine.RequestContext.injectIds
  show (ingest _ _ body >>= fun accumulator => pure { accumulator.finalize _ _ _ with
    id := wire.response_id, conversation_id := wire.conversation_id
    previous_response_id := wire.original_request.payload.previous_response_id }) = _
  rw [resumes.response_id, resumes.conversation_id, resumes.original_request]

/-- A turn whose context has been away is stored as one whose context has not. -/
theorem Resumes.same (resumes : Resumes wire ctx) (plain : wire.original_request.payload.conversation_id = none)
    (reads : codec.ReadsInput wire.original_request.payload.input) :
    SameTurn codec (persistTurn codec ingest retain publish storageText fails db wire.toTurn body)
      (persistTurn codec ingest retain publish storageText fails db ctx body) := by
  have alike : (persistTurn codec ingest retain publish storageText fails db wire.toTurn body).1 =
        (persistTurn codec ingest retain publish storageText fails db ctx body).1 ∧
      ConversationStore.Alike codec (persistTurn codec ingest retain publish storageText fails db wire.toTurn body).2
        (persistTurn codec ingest retain publish storageText fails db ctx body).2 := by
    unfold persistTurn
    rw [resumes.decodes]
    split
    · apply Commit.commit_lowers (resumes.bare plain).1 (resumes.bare plain).2 resumes.lowers
      show ∀ item ∈ ctx.request.new_input_items ++ wire.original_request.payload.input.toItems, _
      rw [resumes.new_input_items]
      exact reads
    · exact ⟨rfl, .refl⟩
  exact ⟨alike.1, alike.2.responses, alike.2.conversations, alike.2.history⟩

theorem ensureSplittable_ok {payload : RequestPayload} {tools : Option (List ResponsesTool)}
    (splittable : ensureSplittable payload tools = .ok ()) : payload.conversation_id = none := by
  unfold ensureSplittable inProcessFeature at splittable
  cases named : payload.conversation_id with
  | none => rfl
  | some conversation_id =>
    rw [named] at splittable
    cases splittable

/-- What hydrating a turn hands out. -/
theorem buildHydration_ok
    (hydrated : buildHydration sealing codec toolsResolved now store request response_id = .ok hydration) :
    ∃ ctx, rehydrateConversation codec store request response_id = .ok ctx ∧ request.payload.conversation_id = none ∧
      sealing.sealContext now (.ofTurn ctx) = .ok hydration.context ∧ sealing.length hydration.context ≤ MAX_CONTEXT_SIZE ∧
      ctx.request.upstreamRequest (toolsResolved ctx.effective_tools) none ctx.stream = .ok hydration.request := by
  unfold buildHydration at hydrated
  obtain ⟨_, splittable, hydrated⟩ := bind_eq_ok.1 hydrated
  obtain ⟨ctx, rehydrated, hydrated⟩ := bind_eq_ok.1 hydrated
  obtain ⟨_, -, hydrated⟩ := bind_eq_ok.1 hydrated
  obtain ⟨upstream, sent, hydrated⟩ := bind_eq_ok.1 hydrated
  obtain ⟨token, sealed, hydrated⟩ := bind_eq_ok.1 hydrated
  split at hydrated
  · cases hydrated
  · rename_i short
    cases hydrated
    exact ⟨ctx, rehydrated, ensureSplittable_ok splittable, sealed, Nat.le_of_not_lt short, sent⟩

end

end Split
end AgenticStack
