import AgenticStack.Executor.Accumulator.ItemIds
import AgenticStack.Executor.Translate.Calls

/-!
# The id of a streamed call

A call whose events name its id when they open and when they finish it has that
id from its first event to the output, and so has what its translator is told.
-/

namespace AgenticStack
set_option autoImplicit false
open Library

/-- The function call that is streamed or finished in a slot, with the deltas of its arguments. -/
def SlotState.functionCall : SlotState → Option (FunctionToolCall × Text)
  | .active (.functionCall item arguments) => some (item, arguments)
  | .done (.functionCall item) => some (item, item.arguments)
  | _ => none

/-- `accumulated_function_call`. -/
def ResponseAccumulator.accumulatedFunctionCall (acc : ResponseAccumulator) (output_index : Nat) : Option AccumulatedFunctionCall :=
  ((acc.slots.get output_index).bind fun slot => slot.state.functionCall).map fun call => ⟨call.1, output_index, call.2⟩

/-- An event that opens or finishes an item names its id, a finished copy within itself. -/
def EventPayload.NamesItem : EventPayload → Prop
  | .outputItemAdded item_id _ _ _ _ _ _ => item_id ≠ []
  | .outputItemDone item_id _ _ item => item_id ≠ [] ∧ (item.get "id").bind Json.asStr = some item_id
  | _ => True

instance EventPayload.decidableNamesItem (payload : EventPayload) : Decidable payload.NamesItem :=
  match payload with
  | .outputItemAdded item_id _ _ _ _ _ _ => inferInstanceAs (Decidable (item_id ≠ []))
  | .outputItemDone item_id _ _ item =>
    inferInstanceAs (Decidable (item_id ≠ [] ∧ (item.get "id").bind Json.asStr = some item_id))
  | .response .. | .textDelta .. | .textDone .. | .functionCallArgsDelta .. | .functionCallArgsDone .. | .shellCallCommand ..
  | .customToolCallInputDelta .. | .customToolCallInputDone .. | .reasoningTextDelta .. | .reasoningTextDone ..
  | .reasoningSummaryTextDelta .. | .reasoningSummaryTextDone .. | .raw .. | .none => isTrue trivial

/-- `EventPayload.NamesItem` of the event's payload. -/
def EventFrame.NamesItem (frame : EventFrame) : Prop := frame.payload.NamesItem

instance EventFrame.decidableNamesItem (frame : EventFrame) : Decidable frame.NamesItem :=
  inferInstanceAs (Decidable frame.payload.NamesItem)

/-- An event still names its item once it was given another index. -/
theorem namesItem_setOutputIndex {frame : EventFrame} {index : Nat} (named : (frame.setOutputIndex index).NamesItem) : frame.NamesItem := by
  unfold EventFrame.NamesItem EventFrame.setOutputIndex at named
  unfold EventFrame.NamesItem
  cases payload : frame.payload with
  | outputItemAdded item_id item_type output_index name namespace_ call_id shell_call =>
    rw [payload] at named
    exact named
  | outputItemDone item_id item_type output_index item =>
    rw [payload] at named
    exact named
  | _ => trivial

section
variable {newId : NewId} {fields : List (Text × Json)} {x : Text} {raw : Json} {call : FunctionToolCall}

/-- A call that has an id is read with it. -/
theorem FunctionToolCall.ofFields_named (named : (fields.lookup (utf8 "id")).bind Json.asStr = some x) (full : x ≠ [])
    (read : FunctionToolCall.ofFields newId fields = some call) : call.id = x := by
  simp only [FunctionToolCall.ofFields, Option.bind_eq_bind, Option.bind_eq_some_iff, Option.pure_def, Option.some.injEq] at read
  obtain ⟨id, found, _, -, _, -, _, -, _, -, _, -, rfl⟩ := read
  have same : id = some x := (optionField_id found).symm.trans named
  subst same
  have kept : (some x).filter (fun id => decide (id ≠ [])) = some x := by simp [Option.filter, full]
  show ((some x).filter _).getD _ = x
  rw [kept, Option.getD_some]

/-- A call that was read keeps the id that the item names. -/
theorem OutputItem.ofJson_named (named : (raw.get "id").bind Json.asStr = some x) (full : x ≠ [])
    (read : OutputItem.ofJson newId raw = some (.functionCall call)) : call.id = x := by
  obtain ⟨fields, rfl⟩ : ∃ fields, raw = .obj fields := by
    cases raw with
    | obj fields => exact ⟨fields, rfl⟩
    | _ => cases named
  rw [OutputItem.ofJson_obj] at read
  obtain ⟨type, -, read⟩ := Option.bind_eq_some_iff.1 read
  have here : ((fields.filter fun field => field.1 != utf8 "type").lookup (utf8 "id")).bind Json.asStr = some x := by
    rw [lookup_id_untyped]
    exact named
  unfold OutputItem.ofFields at read
  split at read
  case h_2 =>
    obtain ⟨found, read, same⟩ := Option.map_eq_some_iff.1 read
    cases same
    exact FunctionToolCall.ofFields_named here full read
  case h_11 => cases read
  all_goals
    obtain ⟨found, -, same⟩ := Option.map_eq_some_iff.1 read
    cases same

end

namespace ActiveItem

variable {items : ItemSerde} {newId : NewId} {payload : EventPayload} {active : ActiveItem} {call : FunctionToolCall} {arguments : Text}

/-- A call that is opened under an id has it. -/
theorem fromAdded_call {item_id : Text} {item_type : SSEItemType} {output_index : Option Nat} {name namespace_ call_id : Option Text}
    {shell_call : Option ShellCall} (full : item_id ≠ [])
    (added : fromAdded newId (.outputItemAdded item_id item_type output_index name namespace_ call_id shell_call) =
      some (.functionCall call arguments)) : call.id = item_id := by
  unfold fromAdded at added
  cases item_type with
  | functionCall =>
    cases added
    exact if_neg full
  | shellCall =>
    obtain ⟨_, -, same⟩ := Option.map_eq_some_iff.1 added
    cases same
  | toolSearchCall =>
    dsimp only at added
    split at added
    · cases added
    · split at added
      · cases added
      · cases added
  | _ => cases added

/-- An event that is no finished copy leaves a call its id. -/
theorem applyEvent_call (after : (active.applyEvent items newId payload).1 = .functionCall call arguments) :
    ∃ before buffer, active = .functionCall before buffer ∧ before.id = call.id := by
  have kind := (@ActiveItem.applyEvent_spec items newId payload active).1
  rw [after] at kind
  cases active with
  | functionCall before buffer =>
    refine ⟨before, buffer, rfl, ?_⟩
    have same := (@id_applyEvent items newId (.functionCall before buffer) payload).symm
    rw [after] at same
    exact Option.some.inj same
  | _ => cases kind

section
variable {errorText : Json → Text} {sameValue : OutputItem → OutputItem → Bool} {raw : Json} {item_type : SSEItemType}
  {output_index : Option Nat} {x : Text} {item_id : Text}

/-- A finished copy that cannot be read as an item leaves the call its id. -/
theorem applyDone_named {old : FunctionToolCall} {buffer : Text} (named : (raw.get "id").bind Json.asStr = some x) (full : x ≠ [])
    (own : old.id = x) : (FunctionToolCall.applyDone (ItemSerde.derived errorText sameValue) newId old
      (.outputItemDone x item_type output_index raw) buffer).1.id = x := by
  unfold FunctionToolCall.applyDone
  dsimp only
  split
  · exact own
  · rename_i copy read
    have theirs : copy.id = x := by
      cases raw with
      | obj fields => exact FunctionToolCall.ofFields_named named full read
      | _ => cases named
    have blank : ¬ ((raw.get "id").bind Json.asStr).all (· = []) = true := by
      rw [named]
      simpa using full
    rw [if_neg blank]
    split
    · split
      · exact theirs
      · exact theirs
    · exact theirs

/-- A finished copy that names the call's id leaves it. -/
theorem completed_call (named : (raw.get "id").bind Json.asStr = some x) (full : x ≠ [])
    (before : ∀ call arguments, active = .functionCall call arguments → call.id = x)
    (after : (active.applyOutputItemDone (ItemSerde.derived errorText sameValue) newId (.outputItemDone x item_type output_index raw)
      (OutputItem.ofJson newId raw) item_id).finalize = some (.functionCall call)) : call.id = x := by
  have kind : active.itemType = .functionCall := by
    have ofItem := ActiveItem.finalize_ofItem after
    rw [ActiveItem.applyOutputItemDone_itemType] at ofItem
    exact (Option.some.inj ofItem).symm
  cases active with
  | functionCall old buffer =>
    have own := before old buffer rfl
    cases read : OutputItem.ofJson newId raw with
    | none =>
      rw [read] at after
      have finished : (FunctionToolCall.applyDone (ItemSerde.derived errorText sameValue) newId old
          (.outputItemDone x item_type output_index raw) buffer).1.id = call.id := by
        cases after
        rfl
      rw [← finished]
      exact applyDone_named named full own
    | some done =>
      rw [read] at after
      cases done with
      | functionCall done =>
        have theirs := OutputItem.ofJson_named named full read
        have merged : (FunctionToolCall.joined old done buffer).id = call.id := by
          have same := (finalize_mergeDone old done buffer).symm.trans after
          cases same
          rfl
        rw [← merged]
        show (if done.id = [] then old.id else done.id) = x
        rw [theirs, if_neg full]
      | _ =>
        cases after
        exact own
  | _ => cases kind

end
end ActiveItem

namespace SlotMap

section
variable {m : SlotMap} {index : Nat} {slot : Slot} {identity : ItemIdentity} {validation : Validation} {newId : NewId}
  {items : ItemSerde} {raw : Json}

/-- An event and the slot it is about do not name two ids. -/
theorem resolve_agree {action : SlotAction} (resolved : m.resolve identity action validation = .ok (some index))
    (here : m.get index = some slot) : ¬ differ slot.item_id identity.item_id = true := by
  unfold resolve at resolved
  split at resolved
  · cases resolved
  split at resolved
  · cases resolved
  cases found : m.resolveIndex identity action with
  | error error => simp [found] at resolved
  | ok named =>
    rw [found] at resolved
    cases named with
    | none => simp at resolved
    | some target =>
      simp only at resolved
      cases there : m.get target with
      | none =>
        rw [there] at resolved
        simp only at resolved
        split_ifs at resolved <;> simp at resolved <;> subst resolved <;> rw [here] at there <;> cases there
      | some slot' =>
        rw [there] at resolved
        simp only at resolved
        obtain ⟨same, -⟩ := resolveSlot_ok resolved
        subst same
        rw [here, Option.some.injEq] at there
        subst there
        unfold resolveSlot at resolved
        split_ifs at resolved with opens apart
        all_goals exact apart

/-- A finished copy is read as an item, or not at all. -/
theorem parsedDone_eq {item_type : SSEItemType} : parsedDone items newId item_type raw none = items.itemOpt newId raw := by
  unfold parsedDone
  rw [Option.none_or]
  cases read : items.itemOpt newId raw with
  | some item => rfl
  | none =>
    have unread : ReasoningOutput.ofDone items newId raw = none := by rw [ReasoningOutput.ofDone, read]
    rw [unread]
    split <;> rfl

/-- What is read of an item is what the reader of an item gives. -/
theorem derived_itemOpt {errorText : Json → Text} {sameValue : OutputItem → OutputItem → Bool} :
    (ItemSerde.derived errorText sameValue).itemOpt newId raw = OutputItem.ofJson newId raw := by
  unfold ItemSerde.itemOpt ItemSerde.derived
  dsimp only
  cases OutputItem.ofJson newId raw <;> rfl

end

/-- The slot at `k`, if there is one, carries an id, which is that of its call. -/
def Named (k : Nat) (m : SlotMap) : Prop :=
  ∀ slot, m.get k = some slot →
    ∃ x, slot.item_id = some x ∧ ∀ call arguments, slot.state.functionCall = some (call, arguments) → call.id = x

section
variable {m : SlotMap} {k index : Nat} {slot : Slot} {item_id : Option Text} {state : SlotState} {identity : ItemIdentity}
  {payload : EventPayload} {validation : Validation} {newId : NewId} {items : ItemSerde}

/-- A slot stays named when one is inserted, unless it is its own, and then the new one must be. -/
theorem Named.insert (named : m.Named k)
    (here : index = k → ∃ x, item_id = some x ∧ ∀ call arguments, state.functionCall = some (call, arguments) → call.id = x) :
    (m.insert index item_id state).Named k := by
  intro slot there
  by_cases at_ : k = index
  · subst at_
    rw [get_insert_self] at there
    cases there
    exact here rfl
  · rw [get_insert_ne at_] at there
    exact named slot there

/-- Binding an id leaves a named slot named. -/
theorem Named.bindId (named : m.Named k) : (m.bindId index item_id).Named k := by
  rcases @bindId_cases m index item_id with same | ⟨id, state, -, here, bound⟩
  · rw [same]
    exact named
  · rw [bound]
    refine named.insert fun at_ => ?_
    subst at_
    obtain ⟨x, none, -⟩ := named _ here
    cases none

/-- A slot stays named when its state is replaced by one with the calls of that id. -/
theorem Named.setState (named : m.Named k) (here : m.get index = some slot)
    (calls : ∀ x, index = k → slot.item_id = some x → ∀ call arguments, state.functionCall = some (call, arguments) → call.id = x) :
    (m.setState index state).Named k := by
  intro slot' there
  rw [get_setState here] at there
  split at there
  · rename_i at_
    subst at_
    cases there
    obtain ⟨x, carried, -⟩ := named slot here
    exact ⟨x, carried, calls x rfl carried⟩
  · exact named slot' there

/-- Opening an item leaves a named slot named, or opens it under its id. -/
theorem Named.opens {item_id : Text} {item_type : SSEItemType} {output_index : Option Nat} {name namespace_ call_id : Option Text}
    {shell_call : Option ShellCall} (named : m.Named k)
    (ids : identity.item_id = if item_id = [] then none else some item_id)
    (full : (m.open newId identity (.outputItemAdded item_id item_type output_index name namespace_ call_id shell_call) validation).2 =
      .ok (some k) → item_id ≠ []) :
    (m.open newId identity (.outputItemAdded item_id item_type output_index name namespace_ call_id shell_call) validation).1.Named k := by
  unfold SlotMap.open at full ⊢
  split
  · exact named
  · exact named
  · rename_i index resolved
    split
    · rename_i item added
      refine named.insert fun at_ => ?_
      subst at_
      rw [resolved] at full
      dsimp only at full
      rw [added] at full
      have given : item_id ≠ [] := full rfl
      rw [if_neg given] at ids
      refine ⟨item_id, ids, fun call arguments here => ?_⟩
      cases item with
      | functionCall call' arguments' =>
        cases here
        exact ActiveItem.fromAdded_call given added
      | _ => cases here
    · exact named

/-- An event of an item leaves a named slot named. -/
theorem Named.applies (named : m.Named k) : (m.apply items newId identity payload validation).1.Named k := by
  unfold SlotMap.apply
  split
  · exact named
  · exact named
  · rename_i index resolved
    split
    · rename_i active at_
      obtain ⟨slot, here, state⟩ := Option.map_eq_some_iff.1 at_
      have kept : (m.setState index (.active (active.applyEvent items newId payload).1)).Named k := by
        refine named.setState here fun x at_k carried call arguments after => ?_
        subst at_k
        obtain ⟨x', carried', calls⟩ := named slot here
        cases carried.symm.trans carried'
        have shape : (active.applyEvent items newId payload).1 = .functionCall call arguments := by
          cases folded : (active.applyEvent items newId payload).1 with
          | functionCall call' arguments' =>
            rw [folded] at after
            cases after
            rfl
          | _ =>
            rw [folded] at after
            cases after
        obtain ⟨before, buffer, rfl, same⟩ := ActiveItem.applyEvent_call shape
        rw [← same]
        exact calls before buffer (by rw [state]; rfl)
      dsimp only
      split
      · exact kept
      · exact kept.bindId
    · exact named.bindId

end

section
variable {errorText : Json → Text} {sameValue : OutputItem → OutputItem → Bool} {m : SlotMap} {k index : Nat} {slot : Slot}
  {identity : ItemIdentity} {validation : Validation} {newId : NewId} {pid : Text} {item_type : SSEItemType} {output_index : Option Nat}
  {raw : Json}

/-- Completing a slot leaves it named. -/
theorem Named.completesSlot (named : m.Named k) (here : m.get index = some slot)
    (agree : ¬ differ slot.item_id identity.item_id = true) (ids : identity.item_id = if pid = [] then none else some pid)
    (full : (completeSlot (ItemSerde.derived errorText sameValue) newId m slot index identity
      (.outputItemDone pid item_type output_index raw) (OutputItem.ofJson newId raw)).2 = .ok (some k) →
        pid ≠ [] ∧ (raw.get "id").bind Json.asStr = some pid) :
    (completeSlot (ItemSerde.derived errorText sameValue) newId m slot index identity (.outputItemDone pid item_type output_index raw)
      (OutputItem.ofJson newId raw)).1.Named k := by
  unfold completeSlot at full ⊢
  split
  · exact named
  · rename_i sound
    rw [if_neg sound] at full
    obtain ⟨carried, state⟩ := slot
    cases state with
    | done previous =>
      dsimp only
      split
      · exact named.bindId
      · exact named
    | active active =>
      dsimp only at full ⊢
      split
      · rename_i item candidate
        rw [candidate] at full
        obtain ⟨slot', there, -⟩ := @get_bindId m index _ identity.item_id here
        refine named.bindId.setState there fun x at_ carries call arguments after => ?_
        subst at_
        obtain ⟨given, copy⟩ := full rfl
        obtain ⟨x', known, calls⟩ := named _ here
        -- the slot had an id before, so the event's own is not bound
        have kept : m.bindId index identity.item_id = m := by
          rcases @bindId_cases m index identity.item_id with same | ⟨id, state, -, unbound, -⟩
          · exact same
          · rw [here] at unbound
            cases unbound
            cases known
        rw [kept, here] at there
        cases there
        cases known.symm.trans carries
        rw [if_neg given] at ids
        obtain rfl := not_differ agree known ids
        cases item with
        | functionCall call' =>
          cases after
          exact ActiveItem.completed_call copy given (fun old buffer own => calls old buffer (by rw [own]; rfl)) candidate
        | _ => cases after
      · exact named

/-- **A finished copy that names its item** leaves the slot named. -/
theorem Named.completes (named : m.Named k) (ids : identity.item_id = if pid = [] then none else some pid)
    (full : (m.complete (ItemSerde.derived errorText sameValue) newId identity (.outputItemDone pid item_type output_index raw) none
      validation).2 = .ok (some k) → pid ≠ [] ∧ (raw.get "id").bind Json.asStr = some pid) :
    (m.complete (ItemSerde.derived errorText sameValue) newId identity (.outputItemDone pid item_type output_index raw) none
      validation).1.Named k := by
  unfold complete at full ⊢
  cases resolved : m.resolve identity .complete validation with
  | error error => exact named
  | ok found =>
    rw [resolved] at full
    cases found with
    | none => exact named
    | some index =>
      dsimp only at full ⊢
      rw [parsedDone_eq, derived_itemOpt] at full ⊢
      cases here : m.get index with
      | some slot =>
        rw [here] at full
        exact named.completesSlot here (resolve_agree resolved here) ids full
      | none =>
        rw [here] at full
        dsimp only at full ⊢
        split
        · rename_i item read
          rw [read] at full
          refine named.insert fun at_ => ?_
          subst at_
          obtain ⟨given, copy⟩ := full rfl
          rw [if_neg given] at ids
          refine ⟨pid, ids, fun call arguments after => ?_⟩
          cases item with
          | functionCall call' =>
            cases after
            exact OutputItem.ofJson_named copy given (Option.filter_eq_some_iff.1 read).1
          | _ => cases after
        · exact named

end
end SlotMap

namespace ResponseAccumulator

section
variable {errorText : Json → Text} {sameValue : OutputItem → OutputItem → Bool} {items : ItemSerde} {acc : ResponseAccumulator}
  {k : Nat} {m : SlotMap} {newId : NewId} {serde : SerdeJson} {frame : EventFrame} {identity : ItemIdentity} {validation : Validation}
  {line : ClassifiedSseLine}

/-- Whatever an item event does leaves a named slot named. -/
theorem named_applyToSlots (named : m.Named k) (about : itemIdentity frame none = some identity)
    (names : (applyToSlots (ItemSerde.derived errorText sameValue) newId m frame identity none validation).2 = .ok (some k) →
      frame.NamesItem) :
    (applyToSlots (ItemSerde.derived errorText sameValue) newId m frame identity none validation).1.Named k := by
  unfold applyToSlots at names ⊢
  unfold itemIdentity at about
  unfold EventFrame.NamesItem at names
  split
  · rename_i added
    rw [added] at names
    cases payload : frame.payload with
    | outputItemAdded item_id item_type output_index name namespace_ call_id shell_call =>
      rw [payload] at about names
      cases about
      exact named.opens rfl names
    | _ =>
      -- no other payload opens a slot
      unfold SlotMap.open
      split
      · exact named
      · exact named
      · exact named
  · rename_i done
    rw [done] at names
    cases payload : frame.payload with
    | outputItemDone pid item_type output_index raw =>
      rw [payload] at about names
      cases about
      exact named.completes rfl names
    | _ =>
      unfold SlotMap.complete
      split
      · exact named
      · rename_i other
        cases other
      · exact named
  · exact named.applies

variable (items newId acc) in
/-- What an event does to the slots under lenient validation: nothing, or what it does to the slot it is about, under whose
index it is sent on. -/
def Touches (acc' : ResponseAccumulator) (sent : ExecutorResult (Option EventFrame)) : Prop :=
  acc'.validation = .lenient ∧ (acc'.slots = acc.slots ∨ ∃ frame identity, itemIdentity frame none = some identity ∧
    acc'.slots = (applyToSlots items newId acc.slots frame identity none .lenient).1 ∧
    ∀ index, (applyToSlots items newId acc.slots frame identity none .lenient).2 = .ok (some index) →
      sent = .ok (some (frame.setOutputIndex index)))

/-- An item event touches the slot it is about and no other. -/
theorem touches_processItemEvent (lenient : acc.validation = .lenient) :
    acc.Touches items newId (acc.processItemEvent items newId frame none).1
      ((acc.processItemEvent items newId frame none).2.map (EventDisposition.intoFrame frame)) := by
  unfold processItemEvent
  cases about : itemIdentity frame none with
  | none => exact ⟨lenient, .inl rfl⟩
  | some identity =>
    dsimp only
    rw [lenient]
    obtain ⟨applied, is⟩ : ∃ applied, applyToSlots items newId acc.slots frame identity none .lenient = applied := ⟨_, rfl⟩
    rw [is]
    have slots : applied.1 = (applyToSlots items newId acc.slots frame identity none .lenient).1 := by rw [is]
    obtain ⟨m, result⟩ := applied
    cases result with
    | error error =>
      refine ⟨rfl, .inr ⟨frame, identity, about, slots, fun index here => ?_⟩⟩
      rw [is] at here
      cases here
    | ok found =>
      cases found with
      | none =>
        refine ⟨rfl, .inr ⟨frame, identity, about, slots, fun index here => ?_⟩⟩
        rw [is] at here
        cases here
      | some index =>
        dsimp only
        rw [if_neg (by decide)]
        refine ⟨rfl, .inr ⟨frame, identity, about, slots, fun index here => ?_⟩⟩
        rw [is] at here
        cases here
        rfl

/-- An event that does not end the response touches at most the slot it is about. -/
theorem touches_processEventChecked (lenient : acc.validation = .lenient)
    (going : (acc.processEventChecked items newId frame none).1.stream_lifecycle ≠ .terminal) :
    acc.Touches items newId (acc.processEventChecked items newId frame none).1
      ((acc.processEventChecked items newId frame none).2.map (EventDisposition.intoFrame frame)) := by
  unfold processEventChecked at going ⊢
  split
  · split
    · exact touches_processItemEvent lenient
    · exact ⟨lenient, .inl rfl⟩
  · exact ⟨lenient, .inl rfl⟩
  · rename_i type payload
    rw [type, payload] at going
    exact absurd rfl going
  · rename_i type payload
    rw [type, payload] at going
    exact absurd rfl going
  · rename_i type payload
    rw [type, payload] at going
    exact absurd rfl going
  · exact touches_processItemEvent lenient

/-- **What a line does to the slots** under lenient validation, unless it ends the response. -/
theorem touches_processLine (lenient : acc.validation = .lenient)
    (going : (acc.processLine items newId serde line).1.stream_lifecycle ≠ .terminal) :
    acc.Touches items newId (acc.processLine items newId serde line).1 (acc.processLine items newId serde line).2 := by
  unfold processLine at going ⊢
  split
  · rename_i data
    dsimp only at going
    split
    · exact ⟨lenient, .inl rfl⟩
    · exact ⟨lenient, .inl rfl⟩
    · rename_i frame read
      rw [read] at going
      dsimp only at going ⊢
      unfold processNormalizedEvent at going ⊢
      rw [lenient] at going ⊢
      dsimp only at going ⊢
      have slots := @captureTerminalDetailsIfNeeded_slots items acc frame
      have lenient' : (acc.captureTerminalDetailsIfNeeded items frame).validation = .lenient := by
        unfold captureTerminalDetailsIfNeeded captureTerminalDetails
        split
        · split <;> exact lenient
        · exact lenient
      have touches := touches_processEventChecked lenient' going
      unfold Touches at touches ⊢
      rw [slots] at touches
      exact touches
  · exact ⟨lenient, .inl rfl⟩

/-- What goes on before the response ends leaves every slot the id it has. -/
theorem Touches.extends {acc' : ResponseAccumulator} {sent : ExecutorResult (Option EventFrame)} (touches : acc.Touches items newId acc' sent)
    (wf : acc.slots.WellFormed) : acc.slots.Extends acc'.slots := by
  rcases touches.2 with same | ⟨frame, identity, -, slots, -⟩
  · rw [same]
    exact SlotMap.Extends.refl
  · rw [slots]
    exact applyToSlots_step.kept wf

/-- What an event touches stays named. -/
theorem Touches.named {acc' : ResponseAccumulator} {sent : ExecutorResult (Option EventFrame)}
    (touches : acc.Touches (ItemSerde.derived errorText sameValue) newId acc' sent) (named : acc.slots.Named k)
    (names : ∀ frame, sent = .ok (some frame) → frame.wire.output_index = some k → frame.NamesItem) : acc'.slots.Named k := by
  rcases touches.2 with same | ⟨frame, identity, about, slots, sent⟩
  · rw [same]
    exact named
  · rw [slots]
    exact named_applyToSlots named about fun here => namesItem_setOutputIndex (names _ (sent k here) rfl)

end

section
variable {errorText : Json → Text} {sameValue : OutputItem → OutputItem → Bool} {response_id : Text} {conversation_id : Option Text}
  {serde : SerdeJson} {lines : List (NewId × Text)} {k : Nat}

/-- The lines of a round, up to the end of its response, in which every event that opens or finishes item `k` names its id. -/
structure NamesItemAt (serde : SerdeJson) (items : ItemSerde) (acc : ResponseAccumulator) (lines : List (NewId × Text)) (k : Nat) : Prop where
  going : ∀ read, read <+: lines → (acc.processLines serde items read).stream_lifecycle ≠ .terminal
  named : ∀ read line, read ++ [line] <+: lines → ∀ frame,
    ((acc.processLines serde items read).processLine items line.1 serde (SseLine.parse line.2)).2 = .ok (some frame) →
    frame.wire.output_index = some k → frame.NamesItem

/-- Lines are read one after the other. -/
theorem processLines_append {items : ItemSerde} {acc : ResponseAccumulator} {more : List (NewId × Text)} :
    acc.processLines serde items (lines ++ more) = (acc.processLines serde items lines).processLines serde items more :=
  List.foldl_append

/-- The lines read one by one, and whether they all do. -/
def namesItemAt (serde : SerdeJson) (items : ItemSerde) (k : Nat) (acc : ResponseAccumulator) : List (NewId × Text) → Bool
  | [] => acc.stream_lifecycle ≠ .terminal
  | line :: lines =>
    let next := acc.processLine items line.1 serde (SseLine.parse line.2)
    acc.stream_lifecycle ≠ .terminal &&
      next.2.toOption.join.all (fun frame => frame.wire.output_index ≠ some k ∨ frame.NamesItem) &&
      namesItemAt serde items k next.1 lines

/-- The check that a round names its item is sound. -/
theorem namesItemAt_sound {items : ItemSerde} {acc : ResponseAccumulator} (checked : namesItemAt serde items k acc lines = true) :
    NamesItemAt serde items acc lines k := by
  induction lines generalizing acc with
  | nil =>
    refine ⟨?_, ?_⟩
    · intro read before
      rw [List.prefix_nil.1 before]
      exact of_decide_eq_true checked
    · intro read line before
      have none := List.prefix_nil.1 before
      simp at none
  | cons line lines ih =>
    simp only [namesItemAt, Bool.and_eq_true, decide_eq_true_eq] at checked
    obtain ⟨⟨going, here⟩, checked⟩ := checked
    have rest := ih checked
    refine ⟨?_, ?_⟩
    · intro read before
      cases read with
      | nil => exact going
      | cons first read =>
        obtain ⟨rfl, more⟩ := List.cons_prefix_cons.1 before
        exact rest.going read more
    · intro read last before frame sent index
      cases read with
      | nil =>
        obtain ⟨rfl, -⟩ := List.cons_prefix_cons.1 before
        rw [processLines, List.foldl_nil] at sent
        rw [sent] at here
        have either : frame.wire.output_index ≠ some k ∨ frame.NamesItem := by
          simpa [Except.toOption] using here
        exact either.resolve_left (not_not_intro index)
      | cons first read =>
        obtain ⟨rfl, more⟩ := List.cons_prefix_cons.1 before
        exact rest.named read last more frame sent index

/-- **Behind any lines of such a round** the slot of the item is named, and what a slot is named it stays. -/
theorem NamesItemAt.run (round : NamesItemAt serde (ItemSerde.derived errorText sameValue)
      (.withValidation response_id conversation_id .lenient) lines k) {read : List (NewId × Text)} (before : read <+: lines) :
    let acc := (withValidation response_id conversation_id .lenient).processLines serde (ItemSerde.derived errorText sameValue) read
    acc.validation = .lenient ∧ acc.slots.WellFormed ∧ acc.slots.Named k := by
  induction read using List.reverseRecOn with
  | nil => exact ⟨rfl, SlotMap.WellFormed.empty, fun slot here => by cases here⟩
  | append_singleton read line ih =>
    obtain ⟨lenient, wf, named⟩ := ih ((List.prefix_append read [line]).trans before)
    rw [processLines_append]
    have going := round.going _ before
    rw [processLines_append] at going
    have touches := touches_processLine lenient going
    exact ⟨touches.1, processLine_step.wellFormed wf, touches.named named (round.named read line before)⟩

/-- The call at an index keeps the id that the lines name. -/
theorem NamesItemAt.keeps (round : NamesItemAt serde (ItemSerde.derived errorText sameValue)
      (.withValidation response_id conversation_id .lenient) lines k) {read more : List (NewId × Text)} (before : read ++ more <+: lines) :
    ((withValidation response_id conversation_id .lenient).processLines serde (ItemSerde.derived errorText sameValue) read).slots.Extends
      ((withValidation response_id conversation_id .lenient).processLines serde (ItemSerde.derived errorText sameValue)
        (read ++ more)).slots := by
  induction more using List.reverseRecOn with
  | nil =>
    rw [List.append_nil]
    exact SlotMap.Extends.refl
  | append_singleton more line ih =>
    rw [← List.append_assoc] at before ⊢
    have earlier := (List.prefix_append (read ++ more) [line]).trans before
    obtain ⟨lenient, wf, -⟩ := round.run earlier
    have going := round.going _ before
    rw [processLines_append] at going ⊢
    exact (ih earlier).trans ((touches_processLine lenient going).extends wf)

/-- **What a translator is told of a call** has the id that the call has in the output. -/
theorem NamesItemAt.accumulated (round : NamesItemAt serde (ItemSerde.derived errorText sameValue)
      (.withValidation response_id conversation_id .lenient) lines k) {read : List (NewId × Text)} (before : read <+: lines)
    {call : AccumulatedFunctionCall}
    (told : ((withValidation response_id conversation_id .lenient).processLines serde (ItemSerde.derived errorText sameValue)
      read).accumulatedFunctionCall k = some call) {slot : Slot} {final : FunctionToolCall}
    (last : ((withValidation response_id conversation_id .lenient).processLines serde (ItemSerde.derived errorText sameValue)
      lines).slots.get k = some slot) (finished : slot.state.finalize = some (.functionCall final)) : call.item.id = final.id := by
  obtain ⟨more, rfl⟩ := before
  obtain ⟨-, -, named⟩ := round.run (List.prefix_append read more)
  obtain ⟨-, -, named'⟩ := round.run (List.prefix_refl (read ++ more))
  obtain ⟨pair, there, rfl⟩ := Option.map_eq_some_iff.1 told
  obtain ⟨earlier, at_, held⟩ := Option.bind_eq_some_iff.1 there
  obtain ⟨x, carried, calls⟩ := named earlier at_
  obtain ⟨later, at_', keeps⟩ := round.keeps (List.prefix_refl (read ++ more)) k earlier at_
  cases last.symm.trans at_'
  obtain ⟨x', carried', calls'⟩ := named' slot last
  cases (keeps.id x carried).symm.trans carried'
  have ends : final.id = x := by
    obtain ⟨carrier, state⟩ := slot
    cases state with
    | done item =>
      cases finished
      exact calls' final final.arguments rfl
    | active active =>
      have kind := ActiveItem.finalize_ofItem finished
      cases active with
      | functionCall item arguments =>
        cases finished
        exact calls' item arguments rfl
      | _ => cases kind
  exact (calls pair.1 pair.2 held).trans ends.symm

end
end ResponseAccumulator
end AgenticStack
