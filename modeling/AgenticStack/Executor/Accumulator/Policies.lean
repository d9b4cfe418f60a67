import AgenticStack.Events.Normalized
import AgenticStack.Executor.Accumulator.ReadJson
import AgenticStack.Executor.Accumulator.SlotRuns

/-!
# Strict and lenient ingestion

What strict validation accepts, lenient validation accepts as well, and makes the
same of it. The two policies are compared event by event; the accumulators differ
in the call ids that only the strict one records.
-/

namespace AgenticStack
set_option autoImplicit false
open Library

variable {items : ItemSerde} {newId newId' : NewId} {frame : EventFrame}

/-- The item of an event is in the value the event was read from. -/
theorem FromValue.item {fields : List (Text × Json)} {json : Json} {item : List (Text × Json)}
    (reads : WireEvent.Reads json fields frame.wire)
    (here : (frame.wire.rest.lookup (utf8 "item")).bind Json.asObject = some item) : json.at_ "item" = .obj item := by
  rw [reads.rest "item" (by decide) (by decide) (by decide)] at here
  obtain ⟨v, found, object⟩ := Option.bind_eq_some_iff.1 here
  rw [reads.object, Json.at_obj found]
  cases v with
  | obj fields =>
    rw [Json.asObject, Option.some.injEq] at object
    rw [object]
  | _ => simp [Json.asObject] at object

/-- The check and the payload name the same item. -/
theorem itemIdentity_eq {validated : ValidatedFrame} (value : frame.FromValue items newId)
    (checked : FrameItem items newId frame validated.item) : itemIdentity frame (some validated) = itemIdentity frame none := by
  obtain ⟨json, fields, reads, payload⟩ := value
  have index := jsonOutputIndex_eq reads
  obtain ⟨item⟩ := validated
  cases checked with
  | none => rfl
  | added type shows_ =>
    rename_i shown item
    obtain ⟨id, named, kind⟩ := outputItemId_obj shows_.identity
    have at_ := FromValue.item reads shows_.here
    rw [type, extractPayload, extractOutputItemAdded] at payload
    simp only [itemIdentity, payload, EventFrame.outputIndex, index, shows_.index, at_, id, kind, Option.bind_some,
      Option.bind_none]
  | done type shows_ =>
    rename_i shown item
    obtain ⟨id, named, kind⟩ := outputItemId_obj shows_.identity
    have at_ := FromValue.item reads shows_.here
    rw [type, extractPayload, extractOutputItemDone] at payload
    simp only [itemIdentity, payload, EventFrame.outputIndex, index, shows_.index, at_, id, canonicalItem_type, kind,
      Option.bind_some, Option.bind_none]
  | part names =>
    rename_i named
    have id := names.id
    rw [reads.rest "item_id" (by decide) (by decide) (by decide), ← jsonStr_obj, ← reads.object] at id
    have raw := names.id
    have at_ := names.index
    have kind := names.kind
    cases type : frame.event_type <;> rw [type] at kind payload
    all_goals first
      | (simp [expectedItemType] at kind; done)
      | (simp only [itemIdentity, payload, extractPayload, extractShellCommand, EventFrame.outputIndex, index, at_, id, raw, type,
          kind, Option.bind_some, Option.bind_none, Option.map_some])

namespace SlotMap

variable {m : SlotMap} {identity : ItemIdentity} {action : SlotAction} {index : Nat} {slot : Slot}

/-- The slot a strict reader finds is the slot a lenient one finds. -/
theorem resolveSlot_relaxed {found : Option Nat} (h : resolveSlot slot index identity action .strict = .ok found) :
    found = some index ∧ resolveSlot slot index identity action .lenient = .ok (some index) ∧
      ¬ differ slot.item_id identity.item_id = true ∧ slot.state.isDone = false := by
  unfold resolveSlot at h ⊢
  split_ifs at h with opens apart kind skip done strict
  · simp at skip
  · exact absurd rfl strict
  · have active : ¬ slot.state.isDone = true := fun closed => done ⟨closed, .inr rfl⟩
    rw [if_neg opens, if_neg apart, if_neg kind, if_neg fun closed => active closed.1]
    exact ⟨(Except.ok.inj h).symm, rfl, apart, by simpa using active⟩

/-- What is known of the slot that strict validation resolves. -/
structure StrictlyResolved (m : SlotMap) (identity : ItemIdentity) (action : SlotAction) (index : Nat) : Prop where
  named : identity.index = some index
  item_id : identity.item_id = none → identity.item_type = .shellCall ∧ action = .mutate
  lenient : m.resolve identity action .lenient = .ok (some index)
  absent : m.get index = none → action = .open
  slot : ∀ slot, m.get index = some slot → ¬ differ slot.item_id identity.item_id = true ∧ slot.state.isDone = false

/-- What strict validation resolves, lenient validation resolves to the same slot. -/
theorem resolve_strict {found : Option Nat} (h : m.resolve identity action .strict = .ok found) :
    ∃ index, found = some index ∧ StrictlyResolved m identity action index := by
  unfold resolve at h
  split at h
  · simp at h
  rename_i given
  split at h
  · simp at h
  rename_i agree
  cases named : identity.index with
  | none => exact absurd ⟨rfl, .inl named⟩ given
  | some index =>
    have direct : m.resolveIndex identity action = .ok (some index) := by
      rw [resolveIndex, named]
      rfl
    have item_id (anonymous : identity.item_id = none) : identity.item_type = .shellCall ∧ action = .mutate := by
      by_contra other
      exact given ⟨rfl, .inr ⟨anonymous, other⟩⟩
    rw [direct] at h
    simp only at h
    cases here : m.get index with
    | none =>
      rw [here] at h
      simp only at h
      split_ifs at h with opens whole
      · have relaxed : m.resolve identity action .lenient = .ok (some index) := by
          rw [resolve, if_neg (by simp), if_neg agree, direct]
          simp only [here, if_pos opens]
        refine ⟨index, (Except.ok.inj h).symm, named, item_id, relaxed, fun _ => opens, fun slot there => ?_⟩
        rw [here] at there
        simp at there
      · simp at whole
    | some slot =>
      rw [here] at h
      simp only at h
      obtain ⟨same, again, agrees, active⟩ := resolveSlot_relaxed h
      have relaxed : m.resolve identity action .lenient = .ok (some index) := by
        rw [resolve, if_neg (by simp), if_neg agree, direct]
        simp only [here]
        exact again
      refine ⟨index, same, named, item_id, relaxed, fun none => ?_, fun other there => ?_⟩
      · rw [here] at none
        simp at none
      · rw [here, Option.some.injEq] at there
        subst there
        exact ⟨agrees, active⟩

end SlotMap

/-- An item with an id is opened without a new one. -/
theorem ActiveItem.fromAdded_newId {item_id : Text} {item_type : SSEItemType} {output_index : Option Nat}
    {name namespace_ call_id : Option Text} {shell_call : Option ShellCall} (named : item_id ≠ []) :
    fromAdded newId (.outputItemAdded item_id item_type output_index name namespace_ call_id shell_call) =
      fromAdded newId' (.outputItemAdded item_id item_type output_index name namespace_ call_id shell_call) := by
  cases item_type <;> simp only [fromAdded, addedId, if_neg named]

/-- The events of an item do not ask for an id. -/
theorem ActiveItem.applyEvent_newId {active : ActiveItem} {payload : EventPayload} :
    active.applyEvent items newId payload = active.applyEvent items newId' payload := by
  cases active <;> cases payload
  case shellCall.shellCallCommand update => cases update <;> rfl
  all_goals rfl

/-- An item with an id is completed without a new one. -/
theorem SlotState.completionCandidate_newId {state : SlotState} {payload : EventPayload} {done_item : OutputItem} {item_id : Text}
    (named : item_id ≠ []) : state.completionCandidate items newId payload (some done_item) item_id =
      state.completionCandidate items newId' payload (some done_item) item_id := by
  have same (active : ActiveItem) : active.applyOutputItemDone items newId payload (some done_item) item_id =
      active.applyOutputItemDone items newId' payload (some done_item) item_id := by
    cases active <;> cases done_item
    case webSearchCall.webSearchCall => simp only [ActiveItem.applyOutputItemDone, WebSearchCall.mergeDone, if_neg named]
    all_goals rfl
  simp only [completionCandidate, same]

namespace SlotMap

variable {m m' : SlotMap} {identity : ItemIdentity} {found : Option Nat}

/-- What a strict reader opens a lenient one opens. -/
theorem open_relaxed {payload : EventPayload} (same : ActiveItem.fromAdded newId payload = ActiveItem.fromAdded newId' payload)
    (h : m.open newId identity payload .strict = (m', .ok found)) : m.open newId' identity payload .lenient = (m', .ok found) := by
  unfold SlotMap.open at h ⊢
  cases resolved : m.resolve identity .open .strict with
  | error error => simp [resolved] at h
  | ok target =>
    obtain ⟨index, rfl, at_⟩ := resolve_strict resolved
    rw [resolved] at h
    rw [at_.lenient, ← same]
    exact h

/-- An event that a strict reader takes a lenient one takes alike. -/
theorem apply_relaxed {payload : EventPayload} (h : m.apply items newId identity payload .strict = (m', .ok found)) :
    m.apply items newId' identity payload .lenient = (m', .ok found) := by
  unfold apply at h ⊢
  cases resolved : m.resolve identity .mutate .strict with
  | error error => simp [resolved] at h
  | ok target =>
    obtain ⟨index, rfl, at_⟩ := resolve_strict resolved
    rw [resolved] at h
    rw [at_.lenient]
    simp only [@ActiveItem.applyEvent_newId items newId' newId]
    exact h

/-- An item that a strict reader completes a lenient one completes alike. -/
theorem complete_relaxed {item_id : Text} {item_type : SSEItemType} {output_index : Option Nat} {raw : Json} {done_item : OutputItem}
    (named : identity.item_id ≠ some []) (read : items.itemOpt newId' raw = some done_item)
    (h : m.complete items newId identity (.outputItemDone item_id item_type output_index raw) (some done_item) .strict = (m', .ok found)) :
    m.complete items newId' identity (.outputItemDone item_id item_type output_index raw) none .lenient = (m', .ok found) := by
  unfold complete at h ⊢
  cases resolved : m.resolve identity .complete .strict with
  | error error => simp [resolved] at h
  | ok target =>
    obtain ⟨index, rfl, at_⟩ := resolve_strict resolved
    rw [resolved] at h
    rw [at_.lenient]
    have parsed : parsedDone items newId' identity.item_type raw none = some done_item := by
      rw [parsedDone, read]
      rfl
    have validated : parsedDone items newId identity.item_type raw (some done_item) = some done_item := rfl
    cases here : m.get index with
    | none => exact absurd (at_.absent here) (by simp)
    | some slot =>
      simp only [here, parsed, validated] at h ⊢
      obtain ⟨agree, -⟩ := at_.slot slot here
      have carried : (slot.item_id.or identity.item_id).getD [] ≠ [] := by
        cases own : identity.item_id with
        | none => exact absurd (at_.item_id own).2 (by simp)
        | some id =>
          have id_ne : id ≠ [] := fun empty => named (by rw [own, empty])
          cases bound : slot.item_id with
          | none => exact id_ne
          | some carried =>
            have same : carried = id := not_differ agree bound own
            rw [same]
            exact id_ne
      unfold completeSlot at h ⊢
      rw [SlotState.completionCandidate_newId carried] at h
      exact h

end SlotMap

/-- The id that an event names is not empty. -/
theorem itemIdentity_named {validated : Option ValidatedFrame} {identity : ItemIdentity}
    (h : itemIdentity frame validated = some identity) : identity.item_id ≠ some [] := by
  have known (item_id : Text) : (if item_id = [] then none else some item_id) ≠ some ([] : Text) := by
    split
    · simp
    · simpa using ‹_›
  unfold itemIdentity at h
  simp only at h
  split at h
  · rw [← Option.some.inj h]
    exact known _
  · split at h
    · rw [← Option.some.inj h]
      exact known _
    · rw [← Option.some.inj h]
      exact known _
    · obtain ⟨item_type, -, rfl⟩ := Option.map_eq_some_iff.1 h
      exact known _

namespace ResponseAccumulator

/-- The accumulator as lenient validation has it: it records no call ids. -/
def relaxed (acc : ResponseAccumulator) : ResponseAccumulator := { acc with validation := .lenient, strict_call_ids := [] }

variable {errorText : Json → Text} {sameValue : OutputItem → OutputItem → Bool} {acc acc' : ResponseAccumulator}
  {validated : ValidatedFrame} {disposition : EventDisposition}

/-- An opening is handed to the slots as an opening. -/
theorem applyToSlots_added {m : SlotMap} {identity : ItemIdentity} {validated : Option ValidatedFrame} {validation : Validation}
    (type : frame.event_type = .outputItemAdded) :
    applyToSlots items newId m frame identity validated validation = m.open newId identity frame.payload validation := by
  rw [applyToSlots, type]

/-- The last event of an item is handed to the slots as its end. -/
theorem applyToSlots_done {m : SlotMap} {identity : ItemIdentity} {validated : Option ValidatedFrame} {validation : Validation}
    (type : frame.event_type = .outputItemDone) : applyToSlots items newId m frame identity validated validation =
      m.complete items newId identity frame.payload ((validated.bind ValidatedFrame.item).bind ValidatedItem.done_item) validation := by
  rw [applyToSlots, type]

/-- Any other event is handed to the slot it is about. -/
theorem applyToSlots_part {m : SlotMap} {identity : ItemIdentity} {validated : Option ValidatedFrame} {validation : Validation}
    (added : frame.event_type ≠ .outputItemAdded) (done : frame.event_type ≠ .outputItemDone) :
    applyToSlots items newId m frame identity validated validation = m.apply items newId identity frame.payload validation := by
  unfold applyToSlots
  split
  · exact absurd ‹_› added
  · exact absurd ‹_› done
  · rfl

/-- An item event that a strict reader takes a lenient one takes alike. -/
theorem applyToSlots_relaxed {m m' : SlotMap} {identity : ItemIdentity} {found : Option Nat}
    (value : frame.FromValue (ItemSerde.derived errorText sameValue) newId)
    (checked : FrameItem (ItemSerde.derived errorText sameValue) newId frame validated.item) (named : identity.item_id ≠ some [])
    (h : applyToSlots (ItemSerde.derived errorText sameValue) newId m frame identity (some validated) .strict = (m', .ok found)) :
    applyToSlots (ItemSerde.derived errorText sameValue) newId' m frame identity none .lenient = (m', .ok found) := by
  obtain ⟨json, fields, reads, payload⟩ := value
  obtain ⟨item⟩ := validated
  have part (added : frame.event_type ≠ .outputItemAdded) (done : frame.event_type ≠ .outputItemDone) :
      applyToSlots (ItemSerde.derived errorText sameValue) newId' m frame identity none .lenient = (m', .ok found) := by
    rw [applyToSlots_part added done] at h ⊢
    exact SlotMap.apply_relaxed h
  cases checked with
  | none _ added done => exact part added done
  | part names =>
    have kind := names.kind
    exact part (fun type => by simp [type, expectedItemType] at kind) fun type => by simp [type, expectedItemType] at kind
  | added type shows_ =>
    rename_i shown item
    rw [applyToSlots_added type] at h ⊢
    refine SlotMap.open_relaxed ?_ h
    rw [payload, type, extractPayload, extractOutputItemAdded, FromValue.item reads shows_.here, (outputItemId_obj shows_.identity).1]
    exact ActiveItem.fromAdded_newId (outputItemId_obj shows_.identity).2.1
  | done type shows_ =>
    rename_i shown item
    obtain ⟨id, own, -⟩ := outputItemId_obj shows_.identity
    have whole := shows_.done
    rw [if_pos rfl] at whole
    obtain ⟨output, read, -, same⟩ := whole
    rw [applyToSlots_done type, payload, type, extractPayload, extractOutputItemDone, FromValue.item reads shows_.here, id] at h ⊢
    simp only [Option.bind_some, same] at h
    refine SlotMap.complete_relaxed named ?_ h
    rw [canonicalFields_eq own, @ItemSerde.derived_item_newId errorText sameValue newId newId' _ (canonicalItem_hasId own)] at read
    rw [ItemSerde.itemOpt, read]
    rfl

/-- A lenient reader notes no call ids. -/
theorem observeEvent_relaxed {index : Nat} {payload : EventPayload} : (acc.observeEvent index payload).relaxed = acc.relaxed := by
  unfold observeEvent
  split <;> rfl

/-- An item event that a strict reader takes leaves a lenient one with the same output. -/
theorem processItemEvent_relaxed (strict : acc.validation = .strict) (value : frame.FromValue (ItemSerde.derived errorText sameValue) newId)
    (checked : FrameItem (ItemSerde.derived errorText sameValue) newId frame validated.item)
    (h : acc.processItemEvent (ItemSerde.derived errorText sameValue) newId frame (some validated) = (acc', .ok disposition)) :
    acc.relaxed.processItemEvent (ItemSerde.derived errorText sameValue) newId' frame none = (acc'.relaxed, .ok disposition) := by
  unfold processItemEvent at h ⊢
  rw [itemIdentity_eq value checked] at h
  cases about : itemIdentity frame none with
  | none =>
    rw [about] at h
    rw [← (Prod.mk.inj h).1, ← (Prod.mk.inj h).2]
  | some identity =>
    rw [about, strict] at h
    simp only at h ⊢
    cases applied : applyToSlots (ItemSerde.derived errorText sameValue) newId acc.slots frame identity (some validated) .strict with
    | mk slots result =>
      rw [applied] at h
      cases result with
      | error error => simp at h
      | ok found =>
        have relaxed := @applyToSlots_relaxed newId newId' frame _ _ validated _ _ _ _ value checked (itemIdentity_named about) applied
        have same : acc.relaxed.slots = acc.slots := rfl
        have lenient : acc.relaxed.validation = .lenient := rfl
        rw [same, lenient, relaxed]
        cases found with
        | none =>
          rw [← (Prod.mk.inj h).1, ← (Prod.mk.inj h).2]
          rfl
        | some index =>
          simp only [if_true, Prod.mk.injEq] at h
          rw [← h.1, ← h.2, observeEvent_relaxed]
          rfl

/-- An event that a strict reader takes leaves a lenient one with the same response. -/
theorem processEventChecked_relaxed (strict : acc.validation = .strict) (value : frame.FromValue (ItemSerde.derived errorText sameValue) newId)
    (checked : FrameItem (ItemSerde.derived errorText sameValue) newId frame validated.item)
    (h : acc.processEventChecked (ItemSerde.derived errorText sameValue) newId frame (some validated) = (acc', .ok disposition)) :
    acc.relaxed.processEventChecked (ItemSerde.derived errorText sameValue) newId' frame none = (acc'.relaxed, .ok disposition) := by
  unfold processEventChecked at h ⊢
  split at h
  · split at h
    · rename_i empty
      rw [if_pos empty]
      exact processItemEvent_relaxed strict value checked h
    · rename_i named
      rw [if_neg named, ← (Prod.mk.inj h).1, ← (Prod.mk.inj h).2]
      rfl
  case h_6 => exact processItemEvent_relaxed strict value checked h
  all_goals
    rw [← (Prod.mk.inj h).1, ← (Prod.mk.inj h).2]
    rfl

/-- An item event does not change the policy. -/
theorem processItemEvent_validation {validated : Option ValidatedFrame} :
    (acc.processItemEvent items newId frame validated).1.validation = acc.validation := by
  unfold processItemEvent
  split
  · rfl
  · simp only
    split
    · rfl
    · rfl
    · split
      · unfold observeEvent
        split <;> rfl
      · rfl

/-- An event does not change the policy. -/
theorem processEventChecked_validation {validated : Option ValidatedFrame} :
    (acc.processEventChecked items newId frame validated).1.validation = acc.validation := by
  unfold processEventChecked
  split
  · split
    · exact processItemEvent_validation
    · rfl
  case h_6 => exact processItemEvent_validation
  all_goals rfl

/-- The details of the last event do not change the policy. -/
theorem captureTerminalDetailsIfNeeded_validation : (acc.captureTerminalDetailsIfNeeded items frame).validation = acc.validation := by
  unfold captureTerminalDetailsIfNeeded captureTerminalDetails
  split
  · split <;> rfl
  · rfl

/-- The last event tells both readers the same details. -/
theorem captureTerminalDetailsIfNeeded_relaxed (records : acc.RecordsCalls acc') :
    acc.relaxed.captureTerminalDetailsIfNeeded items frame = (acc'.captureTerminalDetailsIfNeeded items frame).relaxed := by
  rw [records]
  unfold captureTerminalDetailsIfNeeded captureTerminalDetails
  split
  · split <;> rfl
  · rfl

/-- An event that a strict reader takes a lenient one takes alike, whatever the strict one checked before. -/
theorem processNormalizedEvent_relaxed (strict : acc.validation = .strict)
    (value : frame.FromValue (ItemSerde.derived errorText sameValue) newId)
    (h : acc.processNormalizedEvent (ItemSerde.derived errorText sameValue) newId frame = (acc', .ok disposition)) :
    acc.relaxed.processNormalizedEvent (ItemSerde.derived errorText sameValue) newId' frame = (acc'.relaxed, .ok disposition) ∧
      acc'.validation = .strict := by
  unfold processNormalizedEvent at h
  rw [strict] at h
  simp only at h
  cases valid : validateFrame (ItemSerde.derived errorText sameValue) newId frame with
  | error error => simp [valid] at h
  | ok validated =>
    have records := @validateStrictTransition_records (ItemSerde.derived errorText sameValue) newId acc frame
    cases moved : acc.validateStrictTransition (ItemSerde.derived errorText sameValue) newId frame with
    | mk between result =>
      rw [moved] at records
      cases result with
      | error error => simp [valid, moved] at h
      | ok _ =>
        rw [valid, moved] at h
        simp only at h
        have policy : (between.captureTerminalDetailsIfNeeded (ItemSerde.derived errorText sameValue) frame).validation = .strict := by
          rw [captureTerminalDetailsIfNeeded_validation, congrArg validation records]
          exact strict
        have lenient : acc.relaxed.validation = .lenient := rfl
        rw [processNormalizedEvent, lenient]
        simp only
        rw [captureTerminalDetailsIfNeeded_relaxed records]
        refine ⟨processEventChecked_relaxed policy value (validateFrame_ok valid) h, ?_⟩
        have kept := @processEventChecked_validation (ItemSerde.derived errorText sameValue) newId frame
          (between.captureTerminalDetailsIfNeeded (ItemSerde.derived errorText sameValue) frame) (some validated)
        rw [h] at kept
        exact kept.trans policy

/-- **One line**: what strict validation accepts, lenient validation accepts, with the same effect and the same frame,
whatever ids are made on it. -/
theorem processLine_relaxed {serde : SerdeJson} {line : ClassifiedSseLine} {sent : Option EventFrame} (strict : acc.validation = .strict)
    (h : acc.processLine (ItemSerde.derived errorText sameValue) newId serde line = (acc', .ok sent)) :
    acc.relaxed.processLine (ItemSerde.derived errorText sameValue) newId' serde line = (acc'.relaxed, .ok sent) ∧
      acc'.validation = .strict := by
  unfold processLine at h ⊢
  cases line with
  | data data =>
    have again : normalizeSseData (ItemSerde.derived errorText sameValue) newId' serde data =
        normalizeSseData (ItemSerde.derived errorText sameValue) newId serde data := by
      unfold normalizeSseData
      split
      · rfl
      · exact normalizeSseValue_newId
    simp only at h ⊢
    rw [again]
    cases normalized : normalizeSseData (ItemSerde.derived errorText sameValue) newId serde data with
    | error error => simp [normalized] at h
    | ok found =>
      rw [normalized] at h
      cases found with
      | none => simp [strict] at h
      | some frame =>
        have value : frame.FromValue (ItemSerde.derived errorText sameValue) newId := by
          unfold normalizeSseData at normalized
          split at normalized
          · simp at normalized
          · exact normalizeSseValue_ok normalized
        cases processed : acc.processNormalizedEvent (ItemSerde.derived errorText sameValue) newId frame with
        | mk after result =>
          cases result with
          | error error => simp [processed, Except.map] at h
          | ok disposition =>
            obtain ⟨relaxed, policy⟩ := @processNormalizedEvent_relaxed newId newId' frame _ _ _ _ _ strict value processed
            simp only [processed, Except.map, Prod.mk.injEq, Except.ok.injEq] at h
            obtain ⟨rfl, rfl⟩ := h
            simp only [relaxed]
            exact ⟨rfl, policy⟩
  | done | ignore =>
    rw [← (Prod.mk.inj h).1, ← (Prod.mk.inj h).2]
    exact ⟨rfl, strict⟩

/-- The lines of a stream up to its first error: what is left, and the frames that are sent on. -/
def ingest (serde : SerdeJson) (items : ItemSerde) (acc : ResponseAccumulator) :
    List (NewId × Text) → ExecutorResult (ResponseAccumulator × List EventFrame)
  | [] => .ok (acc, [])
  | line :: lines =>
    match acc.processLine items line.1 serde (SseLine.parse line.2) with
    | (_, .error error) => .error error
    | (acc, .ok sent) => (ingest serde items acc lines).map fun (acc, frames) => (acc, sent.toList ++ frames)

variable {serde : SerdeJson} {frames : List EventFrame}

/-- **A whole stream** that strict validation accepts, line by line. -/
theorem ingest_relaxed {lines : List (NewId × NewId × Text)} (strict : acc.validation = .strict)
    (h : acc.ingest serde (ItemSerde.derived errorText sameValue) (lines.map fun line => (line.1, line.2.2)) = .ok (acc', frames)) :
    acc.relaxed.ingest serde (ItemSerde.derived errorText sameValue) (lines.map fun line => (line.2.1, line.2.2)) =
      .ok (acc'.relaxed, frames) ∧ acc'.validation = .strict := by
  induction lines generalizing acc frames with
  | nil =>
    obtain ⟨rfl, rfl⟩ := Prod.mk.inj (Except.ok.inj h)
    exact ⟨rfl, strict⟩
  | cons line lines ih =>
    obtain ⟨newId, newId', text⟩ := line
    rw [List.map_cons, ingest] at h ⊢
    simp only at h ⊢
    cases processed : acc.processLine (ItemSerde.derived errorText sameValue) newId serde (SseLine.parse text) with
    | mk after result =>
      cases result with
      | error error => simp [processed] at h
      | ok sent =>
        obtain ⟨relaxed, policy⟩ := @processLine_relaxed newId newId' _ _ _ _ _ _ _ strict processed
        rw [processed] at h
        simp only [Except.map] at h
        split at h
        · simp at h
        · rename_i rest later
          obtain ⟨end_, sentLater⟩ := rest
          obtain ⟨rfl, rfl⟩ := Prod.mk.inj (Except.ok.inj h)
          obtain ⟨again, policy'⟩ := ih policy later
          rw [relaxed]
          simp only [again, Except.map]
          exact ⟨trivial, policy'⟩

/-- The response of a strict reader is the response of a lenient one. -/
theorem finish_relaxed {model : Text} {previous_response_id instructions : Option Text} {payload : ResponsePayload}
    (strict : acc.validation = .strict) (h : acc.finish model previous_response_id instructions = .ok payload) :
    acc.relaxed.finish model previous_response_id instructions = .ok payload := by
  unfold finish finishStrictStream at h
  rw [strict] at h
  simp only at h
  split_ifs at h
  · simp [Except.map] at h
  · exact h

/-- Under strict validation every item of a response has an id of its own. -/
theorem strictItemId_hasId {index : Nat} {item : Json} {item_id : Text} (h : strictItemId items newId index item = .ok item_id) :
    Json.HasId item := by
  unfold strictItemId at h
  obtain ⟨id, required, -⟩ := bind_eq_ok.1 h
  simp only at required
  split at required
  · rename_i s found
    rw [bind_asNonEmptyStr, Option.filter_eq_some_iff] at found
    exact ⟨s, found.1, by simpa using found.2⟩
  · simp at required

/-- Every item of a body that is read strictly has an id. -/
theorem ensureStrictItems_hasId {newIds : Nat → NewId} {output : List Json} {index : Nat} {seen : List Text}
    (h : ensureStrictItems items newIds index seen output = .ok ()) : ∀ item ∈ output, Json.HasId item := by
  induction output generalizing index seen with
  | nil => simp
  | cons item output ih =>
    rw [ensureStrictItems] at h
    obtain ⟨item_id, own, h⟩ := bind_eq_ok.1 h
    simp only at h
    split at h
    · simp [throw, throwThe, MonadExceptOf.throw, bind, Except.bind] at h
    · intro other member
      rcases List.mem_cons.1 member with rfl | later
      · exact strictItemId_hasId own
      · exact ih h other later

/-- Every item of a body that is read strictly has an id. -/
theorem ensureStrictResponse_hasId {newIds : Nat → NewId} {json : Json} (h : ensureStrictResponse items newIds json = .ok ()) :
    ∀ item ∈ (json.at_ "output").asArray.getD [], Json.HasId item := by
  unfold ensureStrictResponse at h
  split at h
  · simp at h
  split at h
  · simp at h
  split at h
  · simp at h
  · rename_i output found
    rw [found]
    exact ensureStrictItems_hasId h

/-- Items with ids of their own are read without new ones. -/
theorem readItemsOpt_newIds {newIds newIds' : Nat → NewId} {output : List Json} (has : ∀ item ∈ output, Json.HasId item) :
    readItemsOpt (ItemSerde.derived errorText sameValue) newIds output =
      readItemsOpt (ItemSerde.derived errorText sameValue) newIds' output := by
  refine List.filterMap_congr fun item member => ?_
  have own : Json.HasId item.1 := has _ (List.fst_mem_of_mem_zipIdx member)
  rw [ItemSerde.itemOpt, ItemSerde.itemOpt, @ItemSerde.derived_item_newId errorText sameValue _ (newIds' item.2) _ own]

/-- A body that is read strictly is read alike without the checks. -/
theorem readJson_relaxed {newIds newIds' : Nat → NewId} {body : Text} {conversation_id : Option Text}
    (h : readJson (ItemSerde.derived errorText sameValue) serde newIds body conversation_id .strict = .ok acc) :
    readJson (ItemSerde.derived errorText sameValue) serde newIds' body conversation_id .lenient = .ok acc.relaxed ∧
      acc.validation = .strict := by
  unfold readJson at h ⊢
  cases parsed : serde.fromStr body with
  | none => simp [parsed, throw, throwThe, MonadExceptOf.throw, bind, Except.bind] at h
  | some json =>
  simp only [parsed, pure_bind, if_true] at h ⊢
  obtain ⟨_, ensured, h⟩ := bind_eq_ok.1 h
  have has := ensureStrictResponse_hasId ensured
  cases id : (json.at_ "id").asStr with
  | none => simp [id, throw, throwThe, MonadExceptOf.throw, bind, Except.bind] at h
  | some response_id =>
  simp only [id] at h ⊢
  have same := pure_eq_ok.1 h
  subst same
  rw [if_neg (by simp), @readItemsOpt_newIds _ _ newIds' newIds _ has]
  exact ⟨rfl, rfl⟩

end ResponseAccumulator

/-- What a stream is made into under a policy: the response, and the frames that are sent on. -/
def streamPayload (serde : SerdeJson) (items : ItemSerde) (validation : Validation) (response_id : Text) (conversation_id : Option Text)
    (model : Text) (previous_response_id instructions : Option Text) (lines : List (NewId × Text)) :
    ExecutorResult (ResponsePayload × List EventFrame) :=
  match (ResponseAccumulator.withValidation response_id conversation_id validation).ingest serde items lines with
  | .error error => .error error
  | .ok (acc, frames) => (acc.finish model previous_response_id instructions).map fun payload => (payload, frames)

/-- What a body is made into under a policy. -/
def bodyPayload (serde : SerdeJson) (items : ItemSerde) (validation : Validation) (newIds : Nat → NewId) (conversation_id : Option Text)
    (model : Text) (previous_response_id instructions : Option Text) (body : Text) : ExecutorResult ResponsePayload :=
  match ResponseAccumulator.readJson items serde newIds body conversation_id validation with
  | .error error => .error error
  | .ok acc => acc.finish model previous_response_id instructions

/-- **Lenient validation extends strict validation**, on streams and on bodies: the same response and the same frames,
whatever ids are made on either side. -/
theorem lenient_extends_strict (serde : SerdeJson) (errorText : Json → Text) (sameValue : OutputItem → OutputItem → Bool)
    (response_id : Text) (conversation_id : Option Text) (model : Text) (previous_response_id instructions : Option Text) :
    let items := ItemSerde.derived errorText sameValue
    (∀ (lines : List (NewId × NewId × Text)) result,
      streamPayload serde items .strict response_id conversation_id model previous_response_id instructions
          (lines.map fun line => (line.1, line.2.2)) = .ok result →
        streamPayload serde items .lenient response_id conversation_id model previous_response_id instructions
          (lines.map fun line => (line.2.1, line.2.2)) = .ok result) ∧
    ∀ (newIds newIds' : Nat → NewId) (body : Text) payload,
      bodyPayload serde items .strict newIds conversation_id model previous_response_id instructions body = .ok payload →
        bodyPayload serde items .lenient newIds' conversation_id model previous_response_id instructions body = .ok payload := by
  intro items
  constructor
  · intro lines result h
    unfold streamPayload at h ⊢
    split at h
    · simp at h
    · rename_i acc frames read
      obtain ⟨relaxed, strict⟩ := ResponseAccumulator.ingest_relaxed rfl read
      have start : (ResponseAccumulator.withValidation response_id conversation_id .strict).relaxed =
          ResponseAccumulator.withValidation response_id conversation_id .lenient := rfl
      rw [start] at relaxed
      rw [relaxed]
      cases finished : acc.finish model previous_response_id instructions with
      | error error => simp [finished, Except.map] at h
      | ok payload =>
        rw [finished] at h
        simp only [ResponseAccumulator.finish_relaxed strict finished]
        exact h
  · intro newIds newIds' body payload h
    unfold bodyPayload at h ⊢
    split at h
    · simp at h
    · rename_i acc read
      obtain ⟨relaxed, strict⟩ := @ResponseAccumulator.readJson_relaxed _ _ _ _ newIds newIds' _ _ read
      rw [relaxed]
      exact ResponseAccumulator.finish_relaxed strict h

/-- A response with a function call, whose arguments come in two pieces, and a message. -/
def callAndMessageLines : List (NewId × NewId × Text) :=
  [(id, id, "data: \x7b\"type\":\"response.created\",\"response\":\x7b\"id\":\"r\",\"status\":\"in_progress\"\x7d\x7d"),
    (id, id, "data: \x7b\"type\":\"response.in_progress\",\"response\":\x7b\"id\":\"r\",\"status\":\"in_progress\"\x7d\x7d"),
    (id, id, "data: \x7b\"type\":\"response.output_item.added\",\"output_index\":0,\"item\":\x7b\"type\":\"function_call\",\"id\":\"fc\",\"call_id\":\"call_1\",\"name\":\"lookup\",\"arguments\":\"\"\x7d\x7d"),
    (id, id, "data: \x7b\"type\":\"response.output_item.added\",\"output_index\":1,\"item\":\x7b\"type\":\"message\",\"id\":\"msg\",\"role\":\"assistant\",\"status\":\"in_progress\",\"content\":[]\x7d\x7d"),
    (id, id, "data: \x7b\"type\":\"response.function_call_arguments.delta\",\"output_index\":0,\"item_id\":\"fc\",\"delta\":\"[1\"\x7d"),
    (id, id, "data: \x7b\"type\":\"response.function_call_arguments.delta\",\"output_index\":0,\"item_id\":\"fc\",\"delta\":\"]\"\x7d"),
    (id, id, "data: \x7b\"type\":\"response.output_text.delta\",\"output_index\":1,\"item_id\":\"msg\",\"content_index\":0,\"delta\":\"hi\"\x7d"),
    (id, id, "data: \x7b\"type\":\"response.function_call_arguments.done\",\"output_index\":0,\"item_id\":\"fc\",\"name\":\"lookup\",\"arguments\":\"[1]\"\x7d"),
    (id, id, "data: \x7b\"type\":\"response.output_text.done\",\"output_index\":1,\"item_id\":\"msg\",\"content_index\":0,\"text\":\"hi\"\x7d"),
    (id, id, "data: \x7b\"type\":\"response.output_item.done\",\"output_index\":0,\"item\":\x7b\"type\":\"function_call\",\"id\":\"fc\",\"call_id\":\"call_1\",\"name\":\"lookup\",\"arguments\":\"[1]\",\"status\":\"completed\"\x7d\x7d"),
    (id, id, "data: \x7b\"type\":\"response.output_item.done\",\"output_index\":1,\"item\":\x7b\"type\":\"message\",\"id\":\"msg\",\"role\":\"assistant\",\"status\":\"completed\",\"content\":[\x7b\"type\":\"output_text\",\"text\":\"hi\",\"annotations\":[]\x7d]\x7d\x7d"),
    (id, id, "data: \x7b\"type\":\"response.completed\",\"response\":\x7b\"id\":\"r\",\"status\":\"completed\",\"output\":[\x7b\"type\":\"function_call\",\"id\":\"fc\",\"call_id\":\"call_1\",\"name\":\"lookup\",\"arguments\":\"[1]\",\"status\":\"completed\"\x7d,\x7b\"type\":\"message\",\"id\":\"msg\",\"role\":\"assistant\",\"status\":\"completed\",\"content\":[\x7b\"type\":\"output_text\",\"text\":\"hi\",\"annotations\":[]\x7d]\x7d]\x7d\x7d")]

/-- The same response as a body. -/
def callAndMessageBody : Text :=
  "\x7b\"id\":\"r\",\"status\":\"completed\",\"output\":[\x7b\"type\":\"function_call\",\"id\":\"fc\",\"call_id\":\"call_1\",\"name\":\"lookup\",\"arguments\":\"[1]\",\"status\":\"completed\"\x7d,\x7b\"type\":\"message\",\"id\":\"msg\",\"role\":\"assistant\",\"status\":\"completed\",\"content\":[\x7b\"type\":\"output_text\",\"text\":\"hi\",\"annotations\":[]\x7d]\x7d]\x7d"

theorem lenient_extends_strict_items :
    let serde : SerdeJson := ⟨fun _ => none, fun _ => []⟩
    let items := ItemSerde.derived (fun _ => []) fun _ _ => false
    (∃ result, streamPayload serde items .strict "r" none "m" none none (callAndMessageLines.map fun line => (line.1, line.2.2)) =
        .ok result ∧
      streamPayload serde items .lenient "r" none "m" none none (callAndMessageLines.map fun line => (line.2.1, line.2.2)) =
        .ok result) ∧
    ∃ payload, bodyPayload serde items .strict (fun _ => id) none "m" none none callAndMessageBody = .ok payload ∧
      bodyPayload serde items .lenient (fun _ => id) none "m" none none callAndMessageBody = .ok payload := by
  intro serde items
  obtain ⟨streams, bodies⟩ := lenient_extends_strict serde (fun _ => []) (fun _ _ => false) "r" none "m" none none
  have accepted : (streamPayload serde items .strict "r" none "m" none none
      (callAndMessageLines.map fun line => (line.1, line.2.2))).isOk = true := by decide +kernel
  have accepted' : (bodyPayload serde items .strict (fun _ => id) none "m" none none callAndMessageBody).isOk = true := by
    decide +kernel
  obtain ⟨result, read⟩ := exists_of_isOk accepted
  obtain ⟨payload, read'⟩ := exists_of_isOk accepted'
  exact ⟨⟨result, read, streams callAndMessageLines result read⟩, payload, read', bodies _ _ _ payload read'⟩

end AgenticStack
