import AgenticStack.Executor.CompactionRuns
import AgenticStack.Executor.Recording

/-!
# The session cache and the store

A checkpoint that a session publishes for a stored turn should be what the store
would give back for it. It is made from the parent in memory, the stored rows
from the rows of the parent: the two agree except where a compaction replaced
the history of a stored parent, of which the rows still hold messages that pass
for retained copies.
-/

namespace AgenticStack
set_option autoImplicit false
open Library

section
variable {a b items oldb keptb newb : List InputItem} {latestb : CompactionItem}

/-- The items that are kept since the last checkpoint are the listings, where no user item is among them. -/
theorem filter_kept_since (none : confusable a = []) : (sinceLast InputItem.isCompaction a).filter InputItem.isKept =
    (sinceLast InputItem.isCompaction a).filter InputItem.isMcpListTools := by
  apply List.filter_congr
  intro item mem
  have retained : item.isRetainedUser = false := by
    unfold confusable at none
    rw [List.filter_eq_nil_iff] at none
    exact eq_false_of_ne_true (none item mem)
  unfold InputItem.isKept
  rw [retained, Bool.false_or]

/-- Items are those up to the last checkpoint and those after it. -/
theorem exists_parts (a : List InputItem) : ∃ old, a = old ++ sinceLast InputItem.isCompaction a ∧
    EndsIn InputItem.isCompaction old :=
  exists_endsIn_append InputItem.isCompaction a

/-- No item is mistaken for a user item where only listings are kept. -/
theorem filter_kept_confused (same : (sinceLast InputItem.isCompaction a).filter InputItem.isKept =
    (sinceLast InputItem.isCompaction a).filter InputItem.isMcpListTools) : confusable a = [] := by
  unfold confusable
  rw [List.filter_eq_nil_iff]
  intro item mem retained
  have kept : item ∈ (sinceLast InputItem.isCompaction a).filter InputItem.isKept := by
    apply List.mem_filter.2
    refine ⟨mem, ?_⟩
    unfold InputItem.isKept
    rw [retained, Bool.true_or]
  rw [same] at kept
  have listed := (List.mem_filter.1 kept).2
  -- a message is no listing
  cases item with
  | mcpListTools list => cases retained
  | _ => cases listed

/-- **What a replaced history loses**: of a history that is followed by a compaction only the listing records matter,
exactly if nothing since its own compaction passes for a retained copy, or if more than one compaction follows. -/
theorem canonical_replaced_iff (compacted : ∃ item ∈ b, item.isCompaction = true) :
    canonicalSessionHistory (a.filter InputItem.isMcpListTools ++ b) = canonicalSessionHistory (a ++ b) ↔
      confusable a = [] ∨ 2 ≤ b.countP InputItem.isCompaction := by
  have window : latestCompactionWindow b ≠ none := by
    intro plain
    obtain ⟨item, mem, compaction⟩ := compacted
    have not_compaction := latestCompactionWindow_eq_none_iff.1 plain item mem
    rw [compaction] at not_compaction
    cases not_compaction
  obtain ⟨oldb, keptb, latestb, newb, shape⟩ := exists_checkpointed window
  have none_in {part : List InputItem} (plain : ∀ item ∈ part, item.isCompaction = false) :
      part.countP InputItem.isCompaction = 0 :=
    List.countP_eq_zero.2 fun item mem => by rw [plain item mem]; exact Bool.false_ne_true
  rcases shape.old_ends with rfl | ⟨front, x, rfl, last⟩
  · have single : b.countP InputItem.isCompaction = 1 := by
      rw [shape.parts, List.nil_append, List.countP_append, List.countP_cons, none_in shape.kept_plain, none_in shape.new_plain]
      rfl
    obtain ⟨old, split, ends⟩ := exists_parts a
    have replaced : Checkpointed (a.filter InputItem.isMcpListTools ++ b) []
        (a.filter InputItem.isMcpListTools ++ keptb) latestb newb := by
      refine ⟨by rw [shape.parts]; simp, .inl rfl, fun item mem => ?_, shape.new_plain⟩
      rcases List.mem_append.1 mem with listed | kept
      · exact isCompaction_of_isMcpListTools (List.mem_filter.1 listed).2
      · exact shape.kept_plain item kept
    have whole : Checkpointed (a ++ b) old (sinceLast InputItem.isCompaction a ++ keptb) latestb newb := by
      refine ⟨?_, ends, fun item mem => ?_, shape.new_plain⟩
      · rw [← List.append_assoc, ← split, shape.parts]
        simp
      · rcases List.mem_append.1 mem with since | kept
        · exact sinceLast_plain item since
        · exact shape.kept_plain item kept
    have listed : a.filter InputItem.isMcpListTools = old.filter InputItem.isMcpListTools ++
        (sinceLast InputItem.isCompaction a).filter InputItem.isMcpListTools := by
      rw [← List.filter_append, ← split]
    -- the two differ in what is kept since the compaction of `a`
    rw [replaced.canonical_eq, whole.canonical_eq, List.filter_append, List.filter_append, filter_kept_mcp, listed,
      List.filter_nil, List.nil_append, or_iff_left (by omega)]
    simp only [List.append_assoc, List.append_cancel_left_eq, List.append_cancel_right_eq]
    exact ⟨fun same => filter_kept_confused same.symm, fun none => (filter_kept_since none).symm⟩
  · refine iff_of_true ?_ (.inr ?_)
    · rw [(shape.append_later _).canonical_eq, (shape.append_later _).canonical_eq]
      simp only [List.filter_append, filter_mcp_mcp]
    · have earlier : InputItem.isCompaction x = true := last
      have latest : InputItem.isCompaction (.compaction latestb) = true := rfl
      rw [shape.parts]
      simp only [List.countP_append, List.countP_cons, List.countP_nil, earlier, latest, if_true]
      omega

/-- Items as the model is given them. -/
def Lowered (items : List InputItem) : Prop := ∀ item ∈ items, item.lower = some item

/-- An item is lowered once. -/
theorem lower_lower {item lowered : InputItem} (h : item.lower = some lowered) : lowered.lower = some lowered := by
  cases item <;> cases h <;> rfl

/-- The items of a stored turn are lowered. -/
theorem lowered_intoInputItems (saved : List InOutItem) : Lowered (intoInputItems saved) := by
  intro item mem
  obtain ⟨source, -, lowers⟩ := List.mem_filterMap.1 mem
  exact lower_lower lowers

/-- A canonical history has no other items. -/
theorem mem_canonical {item : InputItem} (mem : item ∈ canonicalSessionHistory items) : item ∈ items := by
  unfold canonicalSessionHistory at mem
  split at mem
  · exact mem
  · obtain ⟨⟨found, index⟩, here, same⟩ := List.mem_map.1 mem
    subst same
    exact List.fst_mem_of_mem_zipIdx (List.mem_filter.1 here).1

/-- A lowered history stays lowered when it is made canonical. -/
theorem Lowered.canonical (h : Lowered items) : Lowered (canonicalSessionHistory items) :=
  fun item mem => h item (mem_canonical mem)

/-- Two lowered lists are lowered. -/
theorem Lowered.append (ha : Lowered a) (hb : Lowered b) : Lowered (a ++ b) :=
  fun item mem => (List.mem_append.1 mem).elim (ha item) (hb item)

/-- Stored items are read one by one. -/
theorem intoInputItems_eq (saved : List InOutItem) :
    intoInputItems saved = saved.filterMap fun stored => stored.toHistory.bind InputItem.lower := by
  show (saved.filterMap InOutItem.toHistory).filterMap InputItem.lower = _
  rw [List.filterMap_filterMap]

/-- Lowered items that are stored as input come back as they are. -/
theorem intoInputItems_input (h : Lowered items) : intoInputItems (items.map .input) = items := by
  rw [intoInputItems_eq, List.filterMap_map]
  have kept : ∀ item ∈ items, (InOutItem.input item).toHistory.bind InputItem.lower = some item := by
    intro item mem
    have same := h item mem
    cases item with
    | unknown => cases same
    | _ => exact same
  exact (List.filterMap_congr kept).trans List.filterMap_some

end

/-- The parent a session restores when it holds none. -/
def ResponseStore.restore {Row : Type} (codec : ItemCodec Row) (store : ResponseStore Row) (response_id : Text) :
    Except StorageError ResponseCheckpoint := do
  let stored ← store.get response_id
  let history ← store.rehydrate codec response_id
  return { response_id, conversation_id := stored.conversation_id, history := restoredHistory history
           metadata := stored.metadata, durable := true }

/-- The store, and the checkpoints that sessions have published. -/
structure DurableWorld (Row : Type) where
  store : ResponseStore Row
  published : List ResponseCheckpoint

/-- What a turn may continue: nothing, a checkpoint that its session or another one published, or a stored response. -/
inductive DurableWorld.Parent {Row : Type} (codec : ItemCodec Row) (w : DurableWorld Row) :
    Option Text → Option ResponseCheckpoint → Prop where
  | first : Parent codec w none none
  | cached {parent : ResponseCheckpoint} (published : parent ∈ w.published) :
      Parent codec w (some parent.response_id) (some parent)
  | restored {response_id : Text} {parent : ResponseCheckpoint}
      (stored : w.store.restore codec response_id = .ok parent) : Parent codec w (some response_id) (some parent)

/-- A turn of a session that ended well: the parent of its lease, the run of the engine, and the settings to be
stored. -/
structure SessionTurn where
  parent : Option ResponseCheckpoint
  services : Engine.Services
  stream_upstream : Bool
  start : Engine.State
  finish : Engine.State
  payload : ResponsePayload
  metadata : ResponseMetadata
  retain : ResponseCheckpoint → ExecutorResult Unit

/-- The items a turn stores as its own. -/
def SessionTurn.savedItems (turn : SessionTurn) : List InOutItem := turn.finish.request.savedItems turn.payload.output

/-- What a turn writes. -/
def SessionTurn.writtenItems (turn : SessionTurn) : List InOutItem :=
  turn.finish.request.writtenItems turn.parent turn.payload.output

section
variable {Row : Type} (codec : ItemCodec Row)

/-- The turn is played from `w` to `w'`. -/
structure SessionTurn.Plays (turn : SessionTurn) (w w' : DurableWorld Row) : Prop where
  parent : w.Parent codec turn.start.request.original_request.previous_response_id turn.parent
  leased : turn.start.request.continuation = some ⟨turn.parent.map (·.history), false, 0⟩
  ran : Engine.runUntilGatewayToolsComplete turn.services turn.stream_upstream turn.start
    = .ok (some turn.payload) turn.finish
  settings : turn.metadata.previous_response_id = turn.finish.request.original_request.previous_response_id
  recorded : ∃ checkpoint, Engine.executeTurnWithMetadata codec turn.retain w.store turn.finish.request turn.parent
      turn.payload.output turn.metadata = .ok (w'.store, some checkpoint) ∧ w'.published = w.published ++ [checkpoint]

/-- The turns of the sessions, from an empty store on; between them others may write responses too. -/
inductive DurableWorld.Run : List SessionTurn → DurableWorld Row → Prop where
  | start : Run [] ⟨ResponseStore.empty, []⟩
  | turn {turns : List SessionTurn} {w w' : DurableWorld Row} {turn : SessionTurn} (before : Run turns w)
      (played : turn.Plays codec w w') : Run (turns ++ [turn]) w'
  | others {turns : List SessionTurn} {w : DurableWorld Row} {store : ResponseStore Row} {response_id : Text}
      {conversation_id previous_response_id : Option Text} {new_items : List InOutItem} {metadata : ResponseMetadata}
      (before : Run turns w)
      (written : w.store.persistWithConversationId codec response_id conversation_id previous_response_id new_items
        metadata = .ok store) : Run turns { w with store }

/-- The items the turn writes read back as the history they stand for. -/
def SessionTurn.ReadsBack (turn : SessionTurn) : Prop :=
  ∀ item ∈ turn.writtenItems, (codec.read (codec.write item)).bind InOutItem.toHistory = item.toHistory

/-- If the history of the turn was replaced, its stored parent has nothing that passes for a message the compaction
retained, unless another compaction follows. -/
def SessionTurn.Unconfused (turn : SessionTurn) : Prop :=
  ∀ lease parent, turn.finish.request.continuation = some lease → lease.history_replaced = true →
    turn.parent = some parent → parent.durable = true →
    confusable parent.history = [] ∨ 2 ≤ (intoInputItems turn.savedItems).countP InputItem.isCompaction

/-- What a turn has to meet if it is stored; a turn that writes nothing meets it as it is. -/
structure SessionTurn.KeepsImage (turn : SessionTurn) : Prop where
  readable : turn.finish.request.writeDurable = true → turn.ReadsBack codec
  unconfused : turn.finish.request.writeDurable = true → turn.Unconfused

/-- The store gives back the history of a checkpoint, and all of it as the parent of a turn. -/
structure FaithfulImage (store : ResponseStore Row) (checkpoint : ResponseCheckpoint) : Prop where
  history : ∃ rows, store.rehydrate codec checkpoint.response_id = .ok rows ∧
    checkpoint.history = canonicalSessionHistory (intoInputItems rows)
  fallback : store.restore codec checkpoint.response_id
    = .ok { checkpoint with metadata := checkpoint.metadata.persisted }

/-- What holds along a run: the store is well formed, and stored checkpoints are images of it. -/
structure DurableWorld.Faithful (w : DurableWorld Row) : Prop where
  wellFormed : w.store.WellFormed
  lowered : ∀ checkpoint ∈ w.published, Lowered checkpoint.history
  image : ∀ checkpoint ∈ w.published, checkpoint.durable = true → FaithfulImage codec w.store checkpoint

variable {codec} {store store' : ResponseStore Row} {w w' : DurableWorld Row} {turn : SessionTurn}
  {turns : List SessionTurn} {checkpoint parent : ResponseCheckpoint} {response_id : Text} {rows saved : List InOutItem}
  {metadata : ResponseMetadata} {previous_id : Option Text}

open ResponseStore

/-- A response that is restored is stored, and its items are read. -/
theorem restore_ok (h : store.restore codec response_id = .ok checkpoint) :
    ∃ stored rows, store.get response_id = .ok stored ∧ store.rehydrate codec response_id = .ok rows ∧
      checkpoint = ⟨response_id, stored.conversation_id, restoredHistory rows, stored.metadata, true⟩ := by
  unfold restore at h
  obtain ⟨stored, found, h⟩ := bind_eq_ok.1 h
  obtain ⟨rows, read, h⟩ := bind_eq_ok.1 h
  cases h
  exact ⟨stored, rows, found, read, rfl⟩

/-- A stored response whose items are read is restored. -/
theorem restore_of {stored : ResponseData} (found : store.get response_id = .ok stored)
    (read : store.rehydrate codec response_id = .ok rows) : store.restore codec response_id =
      .ok ⟨response_id, stored.conversation_id, restoredHistory rows, stored.metadata, true⟩ := by
  unfold restore
  rw [found, read]
  rfl

/-- A declaration is kept once. -/
theorem sanitize_sanitize (tool : ResponsesTool) :
    tool.sanitizeForPersistence.sanitizeForPersistence = tool.sanitizeForPersistence := by
  cases tool <;> rfl

/-- Declarations are kept once. -/
theorem sanitize_tools (tools : Option (List ResponsesTool)) :
    (tools.map (·.map ResponsesTool.sanitizeForPersistence)).map (·.map ResponsesTool.sanitizeForPersistence) =
      tools.map (·.map ResponsesTool.sanitizeForPersistence) := by
  cases tools with
  | none => rfl
  | some tools =>
    rw [Option.map_some, Option.map_some, List.map_map]
    congr 2
    funext tool
    exact sanitize_sanitize tool

/-- Items that read back stand for the same history. -/
theorem intoInputItems_readBack (readable : ∀ item ∈ saved,
      (codec.read (codec.write item)).bind InOutItem.toHistory = item.toHistory) :
    intoInputItems (readBack codec saved) = intoInputItems saved := by
  unfold intoInputItems readBack
  rw [List.filterMap_filterMap]
  congr 2
  exact List.filterMap_congr readable

/-- A faithful image stays faithful as more is stored. -/
theorem FaithfulImage.grows (h : FaithfulImage codec store checkpoint) (grows : store.Grows store')
    (wf : store.WellFormed) : FaithfulImage codec store' checkpoint := by
  obtain ⟨rows, read, history⟩ := h.history
  obtain ⟨stored, rows', found, read', same⟩ := restore_ok h.fallback
  refine ⟨⟨rows, grows.rehydrate wf read, history⟩, ?_⟩
  rw [same]
  exact restore_of (grows.responses _ _ found) (grows.rehydrate wf read')

/-- What a turn of a session has done when it ended well. -/
theorem executeTurn_ok {ctx : Engine.RequestContext} {parent : Option ResponseCheckpoint}
    {output_items : List OutputItem} {retain : ResponseCheckpoint → ExecutorResult Unit}
    (h : Engine.executeTurnWithMetadata codec retain store ctx parent output_items metadata
      = .ok (store', some checkpoint)) :
    ∃ lease, ctx.continuation = some lease ∧
      checkpoint = lease.checkpoint parent ctx.response_id ctx.conversation_id metadata (ctx.savedItems output_items)
        ctx.writeDurable ∧
      ((ctx.writeDurable = false ∧ store' = store) ∨ (ctx.writeDurable = true ∧
        store.persistWithConversationId codec ctx.response_id ctx.conversation_id
          (Engine.previousDurableId ctx.continuation parent metadata) (ctx.writtenItems parent output_items) metadata
          = .ok store')) := by
  unfold Engine.executeTurnWithMetadata at h
  obtain ⟨_, -, h⟩ := bind_eq_ok.1 h
  cases durable : ctx.writeDurable with
  | false =>
    rw [durable, if_neg Bool.false_ne_true] at h
    obtain ⟨rfl, made⟩ := Prod.mk.inj (pure_eq_ok.1 h)
    obtain ⟨lease, leased, same⟩ := Option.map_eq_some_iff.1 made
    exact ⟨lease, leased, same.symm, .inl ⟨rfl, rfl⟩⟩
  | true =>
    rw [durable, if_pos rfl] at h
    cases written : store.persistWithConversationId codec ctx.response_id ctx.conversation_id
        (Engine.previousDurableId ctx.continuation parent metadata) (ctx.writtenItems parent output_items) metadata with
    | error e =>
      rw [written] at h
      cases h
    | ok saved =>
      rw [written] at h
      obtain ⟨rfl, made⟩ := Prod.mk.inj (pure_eq_ok.1 h)
      obtain ⟨lease, leased, same⟩ := Option.map_eq_some_iff.1 made
      exact ⟨lease, leased, same.symm, .inr ⟨rfl, rfl⟩⟩

/-- The history of what a turn continues. -/
theorem DurableWorld.Faithful.parent_lowered (h : w.Faithful codec) (continues : w.Parent codec previous_id (some parent)) :
    Lowered parent.history := by
  cases continues with
  | cached published => exact h.lowered parent published
  | restored stored =>
    obtain ⟨_, rows, -, -, same⟩ := restore_ok stored
    rw [same]
    exact (lowered_intoInputItems rows).canonical

/-- A stored parent is what its response reads back as. -/
theorem DurableWorld.Faithful.parent_image (h : w.Faithful codec) (continues : w.Parent codec previous_id (some parent))
    (durable : parent.durable = true) : previous_id = some parent.response_id ∧
      ∃ rows, w.store.rehydrate codec parent.response_id = .ok rows ∧
        parent.history = canonicalSessionHistory (intoInputItems rows) := by
  cases continues with
  | cached published => exact ⟨rfl, (h.image parent published durable).history⟩
  | restored stored =>
    obtain ⟨_, rows, -, read, same⟩ := restore_ok stored
    subst same
    exact ⟨rfl, rows, read, rfl⟩

/-- What was written before the items of a turn. -/
theorem before_none (h : Before codec store none rows) : rows = [] := by
  cases h
  rfl

/-- What comes before a response that is continued is what is stored of it. -/
theorem before_some (h : Before codec store (some response_id) rows) :
    store.rehydrate codec response_id = .ok rows := by
  cases h with
  | after read => exact read

/-- The history a turn resumes with is lowered. -/
theorem Lowered.parentItems (h : Lowered parent.history) (lease : Engine.ResponseContinuation) :
    Lowered (lease.parentItems (some parent)) :=
  fun item mem => h item (List.mem_filter.1 mem).1

/-- **The history in memory and the stored one** agree exactly for a turn that nothing confuses. -/
theorem SessionTurn.Plays.history_iff (h : turn.Plays codec w w') (before : w.Faithful codec)
    (readable : turn.ReadsBack codec) {lease : Engine.ResponseContinuation}
    (leased : turn.finish.request.continuation = some lease)
    (chain : Before codec w.store (Engine.previousDurableId turn.finish.request.continuation turn.parent turn.metadata)
      rows) :
    canonicalSessionHistory (lease.parentItems turn.parent ++ intoInputItems turn.savedItems) =
        canonicalSessionHistory (intoInputItems (rows ++ readBack codec turn.writtenItems)) ↔ turn.Unconfused := by
  obtain ⟨request, stores⟩ := Engine.turn_records h.leased ⟨rfl, rfl⟩ h.ran
  have continues := h.parent
  have previous := h.settings
  rw [request] at previous
  rw [intoInputItems_append, intoInputItems_readBack readable]
  unfold Engine.previousDurableId Engine.transientParent at chain
  unfold writtenItems Engine.RequestContext.writtenItems Engine.transientParent Unconfused
  rw [leased] at chain ⊢
  dsimp only
  cases parent_is : turn.parent with
  | none =>
    rw [parent_is] at continues chain
    have first : turn.metadata.previous_response_id = none := by
      rw [previous]
      generalize turn.start.request.original_request.previous_response_id = id at continues
      cases continues
      rfl
    have chain : Before codec w.store turn.metadata.previous_response_id rows := chain
    rw [first] at chain
    rw [before_none chain]
    refine iff_of_true rfl fun _ _ _ _ no => ?_
    cases no
  | some parent =>
    rw [parent_is] at continues chain
    cases durable : parent.durable with
    | false =>
      have transient : (Option.isSome (some lease) && (some parent).any fun parent => !parent.durable) = true := by
        simp [durable]
      rw [if_pos transient] at chain
      rw [if_pos transient, before_none chain, intoInputItems_append,
        intoInputItems_input ((before.parent_lowered continues).parentItems lease)]
      refine iff_of_true rfl fun _ _ _ _ same stored => ?_
      rw [← Option.some.inj same, durable] at stored
      cases stored
    | true =>
      have stored : (Option.isSome (some lease) && (some parent).any fun parent => !parent.durable) = false := by
        simp [durable]
      rw [stored] at chain
      rw [if_neg (by rw [stored]; exact Bool.false_ne_true)]
      obtain ⟨id, rows', read, image⟩ := before.parent_image continues durable
      have chain : Before codec w.store turn.metadata.previous_response_id rows := chain
      rw [previous, id] at chain
      have same : rows = rows' := Except.ok.inj ((before_some chain).symm.trans read)
      subst same
      rw [← @canonical_append (intoInputItems rows), ← image]
      show canonicalSessionHistory (List.filter _ parent.history ++ _) = _ ↔ _
      cases replaced : lease.history_replaced with
      | false =>
        have kept : (parent.history.filter fun item => !false || item.isMcpListTools) = parent.history :=
          List.filter_eq_self.2 fun item _ => rfl
        rw [kept]
        refine iff_of_true rfl fun _ _ same lost => ?_
        rw [← Option.some.inj same, replaced] at lost
        cases lost
      | true =>
        have lost := @canonical_replaced_iff parent.history _ (stores lease leased replaced)
        refine lost.trans ⟨fun clean _ _ _ _ same _ => Option.some.inj same ▸ clean, fun clean => ?_⟩
        exact clean lease parent rfl replaced rfl durable

/-- A turn that is stored publishes a checkpoint that the store gives back, exactly if nothing confuses it. -/
theorem SessionTurn.Plays.image_iff (h : turn.Plays codec w w') (before : w.Faithful codec)
    (durable : turn.finish.request.writeDurable = true) (readable : turn.ReadsBack codec)
    (published : w'.published = w.published ++ [checkpoint]) : FaithfulImage codec w'.store checkpoint ↔ turn.Unconfused := by
  obtain ⟨checkpoint', recorded, published'⟩ := h.recorded
  have same : checkpoint' = checkpoint := by
    rw [published'] at published
    exact List.singleton_inj.1 (List.append_cancel_left published)
  subst same
  obtain ⟨lease, leased, made, outcome⟩ := executeTurn_ok recorded
  rcases outcome with ⟨transient, -⟩ | ⟨-, written⟩
  · exact absurd (transient.symm.trans durable) Bool.false_ne_true
  obtain ⟨-, -, ⟨response, found, conversation, settings⟩, rows, chain, read⟩ := persist_ok before.wellFormed written
  have history := h.history_iff before readable leased chain
  have id : checkpoint'.response_id = turn.finish.request.response_id := by rw [made]; rfl
  have held : checkpoint'.history =
      canonicalSessionHistory (lease.parentItems turn.parent ++ intoInputItems turn.savedItems) := by
    rw [made]
    rfl
  rw [← history, ← held]
  constructor
  · intro image
    obtain ⟨rows', read', given⟩ := image.history
    rw [id] at read'
    rw [given, Except.ok.inj (read'.symm.trans read)]
    rfl
  · intro image
    refine ⟨⟨_, id ▸ read, image⟩, ?_⟩
    rw [id, restore_of found read, conversation, settings]
    have shape : checkpoint' = ⟨turn.finish.request.response_id, turn.finish.request.conversation_id,
        checkpoint'.history, { turn.metadata with
          effective_tools := turn.metadata.effective_tools.map (·.map ResponsesTool.sanitizeForPersistence) }, true⟩ := by
      rw [made]
      unfold Engine.ResponseContinuation.checkpoint
      rw [durable]
    rw [shape]
    dsimp only
    rw [image]
    unfold ResponseMetadata.persisted restoredHistory
    dsimp only
    rw [sanitize_tools]
    rfl

/-- **One turn** that keeps the image leaves all images faithful. -/
theorem SessionTurn.Plays.faithful (h : turn.Plays codec w w') (before : w.Faithful codec)
    (keeps : turn.KeepsImage codec) : w'.Faithful codec := by
  obtain ⟨checkpoint, recorded, published⟩ := h.recorded
  obtain ⟨lease, leased, made, outcome⟩ := executeTurn_ok recorded
  have new_lowered : Lowered checkpoint.history := by
    rw [made]
    apply Lowered.canonical
    refine Lowered.append ?_ (lowered_intoInputItems _)
    have continues := h.parent
    cases parent_is : turn.parent with
    | none => exact fun item no => nomatch no
    | some parent =>
      rw [parent_is] at continues
      exact (before.parent_lowered continues).parentItems lease
  have lowered : ∀ checkpoint ∈ w'.published, Lowered checkpoint.history := by
    intro other mem
    rw [published] at mem
    rcases List.mem_append.1 mem with old | new
    · exact before.lowered other old
    · rw [List.mem_singleton] at new
      rw [new]
      exact new_lowered
  rcases outcome with ⟨transient, same⟩ | ⟨durable, written⟩
  · refine ⟨same ▸ before.wellFormed, lowered, fun other mem stored => ?_⟩
    rw [published] at mem
    rcases List.mem_append.1 mem with old | new
    · rw [same]
      exact before.image other old stored
    · rw [List.mem_singleton] at new
      rw [new, made] at stored
      exact absurd (transient.symm.trans stored) Bool.false_ne_true
  · obtain ⟨grows, wf, -⟩ := persist_ok before.wellFormed written
    refine ⟨wf, lowered, fun other mem stored => ?_⟩
    rw [published] at mem
    rcases List.mem_append.1 mem with old | new
    · exact (before.image other old stored).grows grows before.wellFormed
    · rw [List.mem_singleton] at new
      rw [new]
      exact (h.image_iff before durable (keeps.readable durable) published).2 (keeps.unconfused durable)

/-- What others write leaves the images faithful. -/
theorem DurableWorld.Faithful.others (h : w.Faithful codec) {conversation_id previous_response_id : Option Text}
    (written : w.store.persistWithConversationId codec response_id conversation_id previous_response_id saved metadata
      = .ok store) : DurableWorld.Faithful codec { w with store } := by
  obtain ⟨grows, wf, -⟩ := persist_ok h.wellFormed written
  exact ⟨wf, h.lowered, fun checkpoint mem durable => (h.image checkpoint mem durable).grows grows h.wellFormed⟩

/-- Whatever turns are stored, every checkpoint that is durable is read back as it is. -/
theorem DurableWorld.Run.faithful (h : DurableWorld.Run codec turns w) (keeps : ∀ turn ∈ turns, turn.KeepsImage codec) :
    w.Faithful codec := by
  induction h with
  | start =>
    refine ⟨?_, ?_, ?_⟩
    · intro entry no
      cases no
    · intro checkpoint no
      cases no
    · intro checkpoint no
      cases no
  | turn before played ih =>
    have earlier := ih fun turn mem => keeps turn (List.mem_append_left _ mem)
    exact played.faithful earlier (keeps _ (List.mem_append_right _ (List.mem_singleton_self _)))
  | others before written ih => exact (ih keeps).others written

/-- **The session cache is a faithful image of the store**, in every run whose turns all keep it. After such a run, the
next turn that is stored with items that read back publishes a faithful image exactly if nothing confuses it. -/
theorem cache_faithful (run : DurableWorld.Run codec turns w) (keeps : ∀ turn ∈ turns, turn.KeepsImage codec) :
    (∀ checkpoint ∈ w.published, checkpoint.durable = true → FaithfulImage codec w.store checkpoint) ∧
      ∀ (turn : SessionTurn) (w' : DurableWorld Row) (checkpoint : ResponseCheckpoint), turn.Plays codec w w' → w'.published = w.published ++ [checkpoint] →
        turn.finish.request.writeDurable = true → turn.ReadsBack codec →
        (FaithfulImage codec w'.store checkpoint ↔ turn.Unconfused) := by
  have before := run.faithful keeps
  refine ⟨before.image, ?_⟩
  intro turn w' checkpoint played published durable readable
  exact played.image_iff before durable readable published

end

/-- Rows that are the items themselves. -/
def plainCodec : ItemCodec InOutItem := ⟨id, some⟩

/-- Whatever is asked, the model has noted it. -/
def notingServices : Engine.Services where
  serde := ⟨fun _ => none, fun _ => []⟩
  values := ⟨fun _ => .null, fun _ => .null⟩
  toolsResolved _ := .ok ()
  namespaces := none
  estimateInputTokens _ := 1
  uuid7 _ _ := []
  upstream _ :=
    { lines := []
      body_bytes := 0
      result := .ok
        { id := [], model := [], status := "completed"
          output := [.message { id := "msg_a", role := "assistant", status := .completed
                                content := [{ type_ := "output_text", text := "noted", annotations := [] }] }]
          usage := none, incomplete_details := none, error := none, previous_response_id := none
          conversation_id := none, instructions := none } }

/-- The state in which a turn of a session starts. -/
def sessionStart (parent : Option ResponseCheckpoint) (response_id : Text) (store : Bool) (compact_threshold : Option Nat)
    (input : List InputItem) : Engine.State :=
  let payload : RequestPayload :=
    { model := [], input := .items input, instructions := none, previous_response_id := parent.map (·.response_id)
      conversation_id := none, tool_choice := none, store
      context_management := some [⟨"compaction", compact_threshold⟩] }
  let history := parent.elim [] (·.history)
  { request :=
      { original_request := payload
        enriched_request := { payload with
          input := .items (canonicalSessionHistory (history ++ (ResponsesInput.items input).toItems)) }
        new_input_items := input, response_id, conversation_id := none
        continuation := some ⟨parent.map (·.history), false, 0⟩ }
    delivery := .new none
    registry := .default
    budget := maxExecutorResponseBytes
    sent := [] }

/-- The next turn after the latest checkpoint. -/
def playTurn (w : DurableWorld InOutItem) (response_id : Text) (store : Bool) (compact_threshold : Option Nat)
    (input : List InputItem) : Option (SessionTurn × DurableWorld InOutItem) :=
  let parent := w.published.getLast?
  let start := sessionStart parent response_id store compact_threshold input
  match Engine.runUntilGatewayToolsComplete notingServices false start with
  | .ok (some payload) finish =>
    let metadata := { ResponseMetadata.default with
      previous_response_id := finish.request.original_request.previous_response_id }
    match Engine.executeTurnWithMetadata plainCodec (fun _ => .ok ()) w.store finish.request parent payload.output
      metadata with
    | .ok (store, some checkpoint) => some
        (⟨parent, notingServices, false, start, finish, payload, metadata, fun _ => .ok ()⟩,
          ⟨store, w.published ++ [checkpoint]⟩)
    | _ => none
  | _ => none

/-- The turn that is played is a turn of the world. -/
theorem playTurn_plays {w w' : DurableWorld InOutItem} {response_id : Text} {store : Bool} {compact_threshold : Option Nat}
    {input : List InputItem} {turn : SessionTurn}
    (h : playTurn w response_id store compact_threshold input = some (turn, w')) :
    turn.Plays plainCodec w w' ∧ turn.parent = w.published.getLast? := by
  unfold playTurn at h
  dsimp only at h
  split at h
  · rename_i payload finish ran
    split at h
    · rename_i store checkpoint recorded
      cases h
      refine ⟨⟨?_, rfl, ran, rfl, checkpoint, recorded, rfl⟩, rfl⟩
      dsimp only [sessionStart]
      cases latest : w.published.getLast? with
      | none => exact .first
      | some parent => exact .cached (List.mem_of_getLast? latest)
    · cases h
  · cases h

/-- A message with this id and status, and then a turn that is compacted and may be stored. -/
def compactedSession (id : Option Text) (status : Option MessageStatus) (store : Bool) :
    Option (SessionTurn × SessionTurn × DurableWorld InOutItem × DurableWorld InOutItem) := do
  let (first, w₁) ← playTurn ⟨ResponseStore.empty, []⟩ "resp_1" true none [userMessage id status "hi"]
  let (second, w₂) ← playTurn w₁ "resp_2" store (some 0) [userMessage none none "go on"]
  return (first, second, w₁, w₂)

/-- The session that is played is a run of the world. -/
theorem compactedSession_run {id : Option Text} {status : Option MessageStatus} {store : Bool} {first second : SessionTurn}
    {w₁ w₂ : DurableWorld InOutItem} (h : compactedSession id status store = some (first, second, w₁, w₂)) :
    DurableWorld.Run plainCodec [first, second] w₂ ∧ first.parent = none ∧
      second.parent = w₁.published.getLast? := by
  unfold compactedSession at h
  obtain ⟨⟨turn, w⟩, played, h⟩ := Option.bind_eq_some_iff.1 h
  obtain ⟨⟨next, w'⟩, continued, h⟩ := Option.bind_eq_some_iff.1 h
  cases h
  obtain ⟨plays, new⟩ := playTurn_plays played
  obtain ⟨plays', parent⟩ := playTurn_plays continued
  exact ⟨.turn (.turn .start plays) plays', new, parent⟩

/-- How long the histories are that the sessions hold of stored turns, and those that the store gives back. -/
def historyLengths (w : DurableWorld InOutItem) : List Nat × List Nat :=
  let stored := w.published.filter (·.durable)
  (stored.map (·.history.length), stored.map fun checkpoint =>
    match w.store.restore plainCodec checkpoint.response_id with
    | .ok image => image.history.length
    | .error _ => 0)

/-- A faithful image has a history of the length that the session holds. -/
theorem historyLengths_eq {w : DurableWorld InOutItem}
    (faithful : ∀ checkpoint ∈ w.published, checkpoint.durable = true → FaithfulImage plainCodec w.store checkpoint) :
    (historyLengths w).1 = (historyLengths w).2 := by
  apply List.map_congr_left
  intro checkpoint mem
  obtain ⟨published, durable⟩ := List.mem_filter.1 mem
  rw [(faithful checkpoint published durable).fallback]

/-- A compaction keeps the image of a stored parent whose message has no id; and a turn that is not stored keeps that of
every parent. -/
theorem cache_faithful_compacted :
    (∃ first second w₁ w₂, compactedSession none none true = some (first, second, w₁, w₂) ∧
      ∀ checkpoint ∈ w₂.published, checkpoint.durable = true → FaithfulImage plainCodec w₂.store checkpoint) ∧
    ∃ first second w₁ w₂, compactedSession (some "msg_client") (some .completed) false = some (first, second, w₁, w₂) ∧
      ∀ checkpoint ∈ w₂.published, checkpoint.durable = true → FaithfulImage plainCodec w₂.store checkpoint := by
  constructor
  · have clean : (compactedSession none none true).map (fun (_, _, w₁, _) =>
        w₁.published.all fun checkpoint => (confusable checkpoint.history).isEmpty) = some true := by decide +kernel
    cases played : compactedSession none none true with
    | none =>
      rw [played] at clean
      cases clean
    | some session =>
      obtain ⟨first, second, w₁, w₂⟩ := session
      rw [played] at clean
      obtain ⟨run, none, parent⟩ := compactedSession_run played
      refine ⟨first, second, w₁, w₂, rfl, (cache_faithful run fun turn mem => ⟨fun _ item _ => rfl, ?_⟩).1⟩
      intro _ lease checkpoint leased replaced continues durable
      rcases List.mem_cons.1 mem with same | rest
      · rw [same, none] at continues
        cases continues
      · rw [List.mem_singleton.1 rest, parent] at continues
        have all_clean := Option.some.inj clean
        rw [List.all_eq_true] at all_clean
        exact .inl (List.isEmpty_iff.1 (all_clean checkpoint (List.mem_of_getLast? continues)))
  · have transient : (compactedSession (some "msg_client") (some .completed) false).map (fun (_, second, _, _) =>
        second.finish.request.writeDurable) = some false := by decide +kernel
    cases played : compactedSession (some "msg_client") (some .completed) false with
    | none =>
      rw [played] at transient
      cases transient
    | some session =>
      obtain ⟨first, second, w₁, w₂⟩ := session
      rw [played] at transient
      have transient : second.finish.request.writeDurable = false := Option.some.inj transient
      obtain ⟨run, none, -⟩ := compactedSession_run played
      refine ⟨first, second, w₁, w₂, rfl, (cache_faithful run fun turn mem => ⟨fun _ item _ => rfl, ?_⟩).1⟩
      intro stored lease checkpoint leased replaced continues durable
      rcases List.mem_cons.1 mem with same | rest
      · rw [same, none] at continues
        cases continues
      · rw [List.mem_singleton.1 rest, transient] at stored
        cases stored

/-- A message that the client sent with an id and completed is in the stored history again after a compaction. -/
theorem cache_unfaithful : ∃ turns w, DurableWorld.Run plainCodec turns w ∧
    ∃ checkpoint ∈ w.published, checkpoint.durable = true ∧ ¬ FaithfulImage plainCodec w.store checkpoint := by
  have lengths : (compactedSession (some "msg_client") (some .completed) true).map (fun (_, _, _, w) => historyLengths w) =
      some ([2, 4], [2, 5]) := by decide +kernel
  cases played : compactedSession (some "msg_client") (some .completed) true with
  | none =>
    rw [played] at lengths
    cases lengths
  | some session =>
    obtain ⟨first, second, w₁, w₂⟩ := session
    rw [played] at lengths
    have lengths : historyLengths w₂ = ([2, 4], [2, 5]) := Option.some.inj lengths
    refine ⟨_, w₂, (compactedSession_run played).1, ?_⟩
    by_contra faithful
    have same := historyLengths_eq fun checkpoint mem durable => by
      by_contra diverges
      exact faithful ⟨checkpoint, mem, durable, diverges⟩
    rw [lengths] at same
    cases same

end AgenticStack
