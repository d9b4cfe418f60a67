import AgenticStack.Executor.Accumulator.Policies

/-!
# What strict validation accepts

A stream that is accepted to its end has the shape of one response: its lifecycle
events in order, one life for each item, and a terminal event whose output lists
the completed items. The shape is stated over the frames the lines are normalized
to; the slots follow it event by event.
-/

namespace AgenticStack
set_option autoImplicit false
open Library

/-- A frame, with the ids that are made on its line. -/
abbrev StreamEvent := NewId × EventFrame

namespace StreamEvent

/-- The type of the event. -/
def type (event : StreamEvent) : SSEEventType := event.2.event_type

/-- The index of the item that an event is about. -/
def index (event : StreamEvent) : Option Nat := (itemIdentity event.2 none).bind ItemIdentity.index

/-- An added event that opens nothing: a tool search call without a call id, or a shell call that cannot be read. -/
def Unopened (event : StreamEvent) : Prop :=
  match event.2.payload with
  | .outputItemAdded item_id item_type _ _ _ call_id shell_call =>
    (item_type = .shellCall ∧ shell_call = none) ∨
      (item_type = .toolSearchCall ∧ ((call_id.filter fun call_id => !isBlank call_id) = none ∨ isBlank item_id = true))
  | _ => False

/-- The call id that an event shows for its item. -/
def callId (items : ItemSerde) (event : StreamEvent) : Option Text :=
  let shown := match event.2.payload with
    | .outputItemAdded _ _ _ _ _ call_id _ | .functionCallArgsDelta _ call_id _ _ | .functionCallArgsDone _ call_id _ _ _ => call_id
    | .outputItemDone _ _ _ item => (items.itemOpt event.1 item).bind OutputItem.callId
    | _ => none
  shown.filter (· ≠ [])

/-- The output that the response of a terminal event lists. -/
def listed (event : StreamEvent) : Option (List Json) :=
  ((event.2.wire.rest.lookup (utf8 "response")).bind fun response => response.get "output").bind Json.asArray

/-- The call id of the item that is listed at an index. -/
def listedCallId (items : ItemSerde) (event : StreamEvent) (k : Nat) : Option Text := do
  let output ← event.listed
  let item ← output[k]?
  let fields ← item.asObject
  match outputItemIdentity fields "terminal output item" with
  | .error _ => none
  | .ok (item_id, _) => ((items.itemOpt event.1 (canonicalFields fields item_id)).bind OutputItem.callId).filter (· ≠ [])

/-- An event is about the item of a kind and an id; only a shell command may leave out the id. -/
def About (event : StreamEvent) (kind : SSEItemType) (id : Text) : Prop :=
  ∃ identity, itemIdentity event.2 none = some identity ∧ identity.item_type = kind ∧
    (identity.item_id = some id ∨ identity.item_id = none ∧ event.type.isShellCommand = true)

end StreamEvent

/-- Whether the event is one of the response rather than of an item. -/
def isResponseEvent : SSEEventType → Bool
  | .responseCreated | .responseInProgress | .responseCompleted | .responseFailed | .responseIncomplete => true
  | _ => false

/-- The life of one item so far: it is added, then parts of it come. -/
structure Streaming (events : List StreamEvent) (kind : SSEItemType) (id : Text) : Prop where
  shape : ∃ added parts, events = added :: parts ∧ added.type = .outputItemAdded ∧ ¬ added.Unopened ∧
    ∀ part ∈ parts, expectedItemType part.type = some kind
  about : ∀ event ∈ events, event.About kind id

/-- The whole life of one item: its last event completes it. -/
def Completed (events : List StreamEvent) (kind : SSEItemType) (id : Text) : Prop :=
  ∃ before done, events = before ++ [done] ∧ Streaming before kind id ∧ done.type = .outputItemDone ∧ done.About kind id

/-- The events of a body by the index they name; those of an item come after the added events that open nothing. -/
structure Sorted (body : List StreamEvent) (own : Nat → List StreamEvent) : Prop where
  inner : ∀ event ∈ body, isResponseEvent event.type = false ∧ (itemIdentity event.2 none ≠ none → event.index ≠ none)
  own : ∀ k, ∃ ignored, body.filter (fun event => event.index == some k) = ignored ++ own k ∧
    ∀ event ∈ ignored, event.type = .outputItemAdded ∧ event.Unopened

/-- The shape of a whole response. -/
structure WellShaped (items : ItemSerde) (events body : List StreamEvent) (terminal : StreamEvent) (own : Nat → List StreamEvent)
    (kind : Nat → SSEItemType) (id : Nat → Text) : Prop where
  lifecycle : ∃ created inProgress, events = created :: inProgress :: (body ++ [terminal]) ∧
    created.type = .responseCreated ∧ inProgress.type = .responseInProgress
  ends : terminal.type = .responseCompleted ∨ terminal.type = .responseFailed ∨ terminal.type = .responseIncomplete
  sorted : Sorted body own
  completed : ∀ k, own k = [] ∨ Completed (own k) (kind k) (id k)
  distinct : ∀ j k, own j ≠ [] → own k ≠ [] → id j = id k → j = k
  listed : ∀ output, terminal.listed = some output → (∀ k, own k ≠ [] ↔ k < output.length) ∧
    ∃ ids : List Text, ids.Nodup ∧ ids.length = output.length ∧
      ∀ k item item_id, output[k]? = some item → ids[k]? = some item_id →
        ∃ fields, item = .obj fields ∧ outputItemIdentity fields "terminal output item" = .ok (item_id, kind k)
  calls : terminal.type ≠ .responseFailed → ∀ k, ∃ call_id,
    (∀ event ∈ own k, ∀ shown, event.callId items = some shown → shown = call_id) ∧
      ∀ shown, terminal.listedCallId items k = some shown → shown = call_id

variable {items : ItemSerde} {newId : NewId} {payload : EventPayload}

/-- An item is opened with the type it is announced with. -/
theorem ActiveItem.fromAdded_itemType {item_id : Text} {item_type : SSEItemType} {output_index : Option Nat}
    {name namespace_ call_id : Option Text} {shell_call : Option ShellCall} {item : ActiveItem}
    (h : fromAdded newId (.outputItemAdded item_id item_type output_index name namespace_ call_id shell_call) = some item) :
    item.itemType = item_type := by
  cases item_type <;> simp only [fromAdded, Option.some.injEq, Option.map_eq_some_iff] at h
  case shellCall =>
    obtain ⟨_, -, rfl⟩ := h
    rfl
  case toolSearchCall =>
    split at h
    · simp at h
    · split at h
      · simp at h
      · rw [← Option.some.inj h]
        rfl
  all_goals
    rw [← h]
    rfl

/-- An added event opens nothing exactly when there is no item to be made of it. -/
theorem ActiveItem.fromAdded_none {event : StreamEvent} (type : ∃ item_id item_type index name namespace_ call_id shell_call,
      event.2.payload = .outputItemAdded item_id item_type index name namespace_ call_id shell_call) :
    fromAdded newId event.2.payload = none ↔ event.Unopened := by
  obtain ⟨item_id, item_type, index, name, namespace_, call_id, shell_call, payload⟩ := type
  rw [StreamEvent.Unopened, payload]
  cases item_type <;> simp only [fromAdded, reduceCtorEq, false_and, false_or, or_false, true_and, Option.map_eq_none_iff]
  case toolSearchCall =>
    cases known : call_id.filter fun call_id => !isBlank call_id with
    | none => simp
    | some call_id => by_cases blank : isBlank item_id = true <;> simp [blank]

namespace SlotMap

variable {m m' : SlotMap} {identity : ItemIdentity} {found : Option Nat}

/-- Strict validation opens an item where there is none, under an id. -/
theorem open_strict (h : m.open newId identity payload .strict = (m', .ok found)) :
    ∃ k id, identity.index = some k ∧ identity.item_id = some id ∧ m.get k = none ∧
      ((found = none ∧ m' = m ∧ ActiveItem.fromAdded newId payload = none) ∨
        ∃ item, found = some k ∧ ActiveItem.fromAdded newId payload = some item ∧ m' = m.insert k (some id) (.active item)) := by
  unfold SlotMap.open at h
  cases resolved : m.resolve identity .open .strict with
  | error error => simp [resolved] at h
  | ok target =>
    obtain ⟨k, rfl, at_⟩ := resolve_strict resolved
    have absent : m.get k = none := by
      cases here : m.get k with
      | none => rfl
      | some slot => exact absurd rfl ((resolve_ok resolved).slot slot here).1
    cases own : identity.item_id with
    | none => exact absurd (at_.item_id own).2 (by simp)
    | some id =>
      rw [resolved, own] at h
      simp only at h
      refine ⟨k, id, at_.named, rfl, absent, ?_⟩
      cases added : ActiveItem.fromAdded newId payload with
      | none =>
        rw [added] at h
        obtain ⟨rfl, same⟩ := Prod.mk.inj h
        exact .inl ⟨(Except.ok.inj same).symm, rfl, rfl⟩
      | some item =>
        rw [added] at h
        obtain ⟨rfl, same⟩ := Prod.mk.inj h
        exact .inr ⟨item, (Except.ok.inj same).symm, rfl, rfl⟩

/-- What an accepted event finds at its index. -/
structure FindsActive (m : SlotMap) (identity : ItemIdentity) (action : SlotAction) (k : Nat) (id : Text) (item : ActiveItem) :
    Prop where
  named : identity.index = some k
  here : m.get k = some ⟨some id, .active item⟩
  kind : item.itemType = identity.item_type
  id : identity.item_id = some id ∨ identity.item_id = none ∧ identity.item_type = .shellCall ∧ action = .mutate

/-- An event that does not open an item finds the open slot it is about. -/
theorem resolve_active {action : SlotAction} (known : ∀ k slot, m.get k = some slot → slot.item_id ≠ none) (opens : action ≠ .open)
    (resolved : m.resolve identity action .strict = .ok found) :
    ∃ k id item, found = some k ∧ FindsActive m identity action k id item := by
  obtain ⟨k, rfl, at_⟩ := resolve_strict resolved
  cases here : m.get k with
  | none => exact absurd (at_.absent here) opens
  | some slot =>
    obtain ⟨agree, active⟩ := at_.slot slot here
    obtain ⟨carried, state⟩ := slot
    cases state with
    | done item => simp [SlotState.isDone] at active
    | active item =>
      cases carried with
      | none => exact absurd rfl (known k _ here)
      | some id =>
        have kind := ((resolve_ok resolved).slot _ here).2.1
        refine ⟨k, id, item, rfl, at_.named, here, Option.some.inj kind, ?_⟩
        cases own : identity.item_id with
        | none => exact .inr ⟨rfl, at_.item_id own⟩
        | some id' => exact .inl (by rw [not_differ agree rfl own])

/-- An id that is bound already is not bound again. -/
theorem bindId_of_known {k : Nat} {id : Text} {state : SlotState} {item_id : Option Text} (here : m.get k = some ⟨some id, state⟩) :
    m.bindId k item_id = m := by
  rcases @bindId_cases m k item_id with same | ⟨id', state', -, there, -⟩
  · exact same
  · rw [here] at there
    simp at there

/-- An event that is accepted finds the open slot it is about. -/
theorem apply_strict (known : ∀ k slot, m.get k = some slot → slot.item_id ≠ none)
    (h : m.apply items newId identity payload .strict = (m', .ok found)) :
    ∃ k id item item', found = some k ∧ FindsActive m identity .mutate k id item ∧ item'.itemType = item.itemType ∧
      m' = m.setState k (.active item') := by
  unfold apply at h
  cases resolved : m.resolve identity .mutate .strict with
  | error error => simp [resolved] at h
  | ok target =>
    obtain ⟨k, id, item, rfl, finds⟩ := resolve_active known (by simp) resolved
    rw [resolved] at h
    simp only [finds.here, Option.map_some] at h
    have kept := (@ActiveItem.applyEvent_spec items newId payload item).1
    cases applied : item.applyEvent items newId payload with
    | mk item' result =>
      rw [applied] at h kept
      cases result with
      | error error => simp at h
      | ok _ =>
        simp only at h
        have there : (m.setState k (.active item')).get k = some ⟨some id, .active item'⟩ := by
          rw [get_setState finds.here, if_pos rfl]
        rw [bindId_of_known there] at h
        obtain ⟨rfl, same⟩ := Prod.mk.inj h
        exact ⟨k, id, item, item', (Except.ok.inj same).symm, finds, kept, rfl⟩

end SlotMap

/-- The call id at the end of a call stands where it has one. -/
theorem FunctionToolCall.mergeDone_call_id {self done : FunctionToolCall} {arguments : Text} :
    (self.mergeDone done arguments).1.call_id = if done.call_id = [] then self.call_id else done.call_id := by
  unfold mergeDone
  simp only
  split
  · split <;> rfl
  · rfl

/-- The call id at the end of a call stands where it has one. -/
theorem CustomToolCall.mergeDone_call_id {self done : CustomToolCall} {input : Text} :
    (self.mergeDone done input).1.call_id = if done.call_id = [] then self.call_id else done.call_id := by
  unfold mergeDone
  simp only
  split
  · split <;> rfl
  · rfl

/-- A finished copy completes a streamed item of its kind, and its call id is kept. -/
theorem SlotState.completionCandidate_some {active : ActiveItem} {done_item : OutputItem} {item_id : Text}
    (kind : SSEItemType.ofItem done_item = some active.itemType) :
    ∃ item, (SlotState.active active).completionCandidate items newId payload (some done_item) item_id = some item ∧
      ∀ call_id, done_item.callId = some call_id → call_id ≠ [] → item.callId = some call_id := by
  cases active <;> cases done_item <;>
    simp only [SSEItemType.ofItem, ActiveItem.itemType, Option.some.injEq, reduceCtorEq] at kind
  case functionCall.functionCall item arguments call =>
    refine ⟨_, rfl, fun call_id shows_ named => ?_⟩
    rw [OutputItem.callId, Option.some.injEq] at shows_
    subst shows_
    have merged := @FunctionToolCall.mergeDone_call_id item call arguments
    rw [if_neg named] at merged
    exact congrArg some merged
  case customToolCall.customToolCall item input call =>
    refine ⟨_, rfl, fun call_id shows_ named => ?_⟩
    rw [OutputItem.callId, Option.some.injEq] at shows_
    subst shows_
    have merged := @CustomToolCall.mergeDone_call_id item call input
    rw [if_neg named] at merged
    exact congrArg some merged
  all_goals
    exact ⟨_, rfl, fun call_id shows_ _ => shows_⟩

namespace SlotMap

variable {m m' : SlotMap} {identity : ItemIdentity} {found : Option Nat}

/-- An item that is completed had an open slot, and ends in what its event shows. -/
theorem complete_strict {item_id : Text} {item_type : SSEItemType} {output_index : Option Nat} {raw : Json} {done_item : OutputItem}
    (known : ∀ k slot, m.get k = some slot → slot.item_id ≠ none) (kind : SSEItemType.ofItem done_item = some identity.item_type)
    (h : m.complete items newId identity (.outputItemDone item_id item_type output_index raw) (some done_item) .strict = (m', .ok found)) :
    ∃ k id active item, found = some k ∧ FindsActive m identity .complete k id active ∧
      SSEItemType.ofItem item = some identity.item_type ∧ m' = m.setState k (.done item) ∧
      ∀ call_id, done_item.callId = some call_id → call_id ≠ [] → item.callId = some call_id := by
  unfold complete at h
  cases resolved : m.resolve identity .complete .strict with
  | error error => simp [resolved] at h
  | ok target =>
    obtain ⟨k, id, active, rfl, finds⟩ := resolve_active known (by simp) resolved
    have parsed : parsedDone items newId identity.item_type raw (some done_item) = some done_item := rfl
    rw [resolved] at h
    simp only [finds.here, parsed, completeSlot] at h
    split at h
    · simp at h
    · obtain ⟨item, candidate, call⟩ := @SlotState.completionCandidate_some items newId
        (.outputItemDone item_id item_type output_index raw) active done_item (((some id).or identity.item_id).getD [])
        (kind.trans (congrArg some finds.kind.symm))
      rw [candidate, bindId_of_known finds.here] at h
      obtain ⟨rfl, same⟩ := Prod.mk.inj h
      refine ⟨k, id, active, item, (Except.ok.inj same).symm, finds, ?_, rfl, call⟩
      rw [SlotState.completionCandidate_active candidate, finds.kind]

end SlotMap

/-- A call id that did not change is still the first one that was seen. -/
theorem CallIdObservation.observe_kept {self : CallIdObservation} {call_id : Option Text} (stable : (self.observe call_id).changed = false) :
    self.changed = false ∧ ∀ first, self.first = some first → (self.observe call_id).first = some first := by
  unfold observe at stable ⊢
  split
  · rename_i nothing
    rw [nothing] at stable
    exact ⟨stable, fun first same => same⟩
  · rename_i shown first named seen
    rw [named, seen] at stable
    simp only at stable
    split at stable
    · rename_i same
      rw [if_pos same]
      exact ⟨stable, fun first' same' => same'⟩
    · simp at stable
  · rename_i shown named unseen
    rw [named, unseen] at stable
    exact ⟨stable, fun first same => by rw [unseen] at same; simp at same⟩

/-- A call id that is shown and did not change is the first one. -/
theorem CallIdObservation.observe_shown {self : CallIdObservation} {call_id : Option Text} {shown : Text}
    (named : call_id.filter (· ≠ []) = some shown) (stable : (self.observe call_id).changed = false) :
    (self.observe call_id).first = some shown := by
  unfold observe at stable ⊢
  rw [named] at stable ⊢
  cases seen : self.first with
  | none => rfl
  | some first =>
    rw [seen] at stable
    simp only at stable ⊢
    split at stable
    · rename_i same
      rw [if_pos same, seen, same]
    · simp at stable

/-- Unless it has changed, the call id of an item is the one that every event of it shows. -/
def Observes (calls : List (Nat × CallIdObservation)) (k : Nat) (shown : Text) : Prop :=
  ∃ seen, calls.lookup k = some seen ∧ (seen.changed = false → seen.first = some shown)

namespace ResponseAccumulator

variable {acc : ResponseAccumulator} {k : Nat} {shown : Text} {call_id : Option Text}

/-- What an event shows of one item changes what is noted of that item only. -/
theorem observeStrictCallId_lookup {j : Nat} : (acc.observeStrictCallId k call_id).strict_call_ids.lookup j =
    if j = k then some (((acc.strict_call_ids.lookup k).getD ⟨none, false⟩).observe call_id) else acc.strict_call_ids.lookup j := by
  unfold observeStrictCallId
  split
  · rename_i same
    subst same
    exact lookup_insertEntry_self
  · exact lookup_insertEntry_ne ‹_›

/-- A call id that was seen stays seen. -/
theorem observes_kept {j : Nat} (observed : Observes acc.strict_call_ids j shown) :
    Observes (acc.observeStrictCallId k call_id).strict_call_ids j shown := by
  obtain ⟨seen, here, first⟩ := observed
  rw [Observes, observeStrictCallId_lookup]
  by_cases same : j = k
  · subst same
    rw [if_pos rfl, here]
    refine ⟨_, rfl, fun stable => ?_⟩
    obtain ⟨stable', kept⟩ := CallIdObservation.observe_kept stable
    exact kept shown (first stable')
  · rw [if_neg same]
    exact ⟨seen, here, first⟩

/-- A call id that is shown is seen. -/
theorem observes_shown (named : call_id.filter (· ≠ []) = some shown) :
    Observes (acc.observeStrictCallId k call_id).strict_call_ids k shown := by
  rw [Observes, observeStrictCallId_lookup, if_pos rfl]
  exact ⟨_, rfl, CallIdObservation.observe_shown named⟩

/-- Two ids of one item are the same, once the call ids are found stable. -/
theorem observes_unique {shown' : Text} (stable : acc.ensureStableStrictCallIds = .ok ()) (first : Observes acc.strict_call_ids k shown)
    (second : Observes acc.strict_call_ids k shown') : shown = shown' := by
  obtain ⟨seen, here, same⟩ := first
  obtain ⟨seen', here', same'⟩ := second
  rw [here, Option.some.injEq] at here'
  subst here'
  have unchanged : seen.changed = false := by
    unfold ensureStableStrictCallIds at stable
    split at stable
    · simp at stable
    · rename_i none
      obtain ⟨before, after, entries, -⟩ := List.lookup_eq_some_iff.1 here
      rw [List.min?_eq_none_iff, List.map_eq_nil_iff, List.filter_eq_nil_iff] at none
      have unchanged := none (k, seen) (by rw [entries]; simp)
      simpa using unchanged
  have left := same unchanged
  rw [same' unchanged, Option.some.injEq] at left
  exact left.symm

end ResponseAccumulator

section
variable {body : List StreamEvent} {own : Nat → List StreamEvent} {event : StreamEvent} {k : Nat}

/-- An event of no item leaves the events of the items as they are. -/
theorem Sorted.skip (sorted : Sorted body own) (inner : isResponseEvent event.type = false)
    (none : itemIdentity event.2 .none = .none) : Sorted (body ++ [event]) own := by
  have nowhere : event.index = .none := by rw [StreamEvent.index, none]; rfl
  refine ⟨fun other member => ?_, fun k => ?_⟩
  · rcases List.mem_append.1 member with before | last
    · exact sorted.inner other before
    · rw [List.mem_singleton.1 last]
      exact ⟨inner, fun some => absurd none some⟩
  · obtain ⟨ignored, split, opens⟩ := sorted.own k
    refine ⟨ignored, ?_, opens⟩
    rw [List.filter_append, split, List.filter_cons_of_neg (by simp [nowhere]), List.filter_nil, List.append_nil]

/-- An opening that is not taken is the first event at its index. -/
theorem Sorted.ignore (sorted : Sorted body own) (type : event.type = .outputItemAdded) (unopened : event.Unopened)
    (at_ : event.index = some k) (first : own k = []) : Sorted (body ++ [event]) own := by
  refine ⟨fun other member => ?_, fun j => ?_⟩
  · rcases List.mem_append.1 member with before | last
    · exact sorted.inner other before
    · rw [List.mem_singleton.1 last]
      exact ⟨by rw [type]; rfl, fun _ => by simp [at_]⟩
  · obtain ⟨ignored, split, opens⟩ := sorted.own j
    rw [List.filter_append, split]
    by_cases same : j = k
    · subst same
      refine ⟨ignored ++ [event], ?_, fun other member => ?_⟩
      · rw [first, List.append_nil, List.append_nil, List.filter_cons_of_pos (by simp [at_]), List.filter_nil]
      · rcases List.mem_append.1 member with before | last
        · exact opens other before
        · rw [List.mem_singleton.1 last]
          exact ⟨type, unopened⟩
    · refine ⟨ignored, ?_, opens⟩
      rw [List.filter_cons_of_neg (by simpa [at_] using fun h => same h.symm), List.filter_nil, List.append_nil]

/-- An event of an item is the next event at its index. -/
theorem Sorted.push (sorted : Sorted body own) (inner : isResponseEvent event.type = false) (at_ : event.index = some k) :
    Sorted (body ++ [event]) (Function.update own k (own k ++ [event])) := by
  refine ⟨fun other member => ?_, fun j => ?_⟩
  · rcases List.mem_append.1 member with before | last
    · exact sorted.inner other before
    · rw [List.mem_singleton.1 last]
      exact ⟨inner, fun _ => by simp [at_]⟩
  · obtain ⟨ignored, split, opens⟩ := sorted.own j
    refine ⟨ignored, ?_, opens⟩
    rw [List.filter_append, split]
    by_cases same : j = k
    · subst same
      rw [Function.update_self, List.filter_cons_of_pos (by simp [at_]), List.filter_nil, List.append_assoc]
    · rw [Function.update_of_ne same, List.filter_cons_of_neg (by simpa [at_] using fun h => same h.symm), List.filter_nil,
        List.append_nil]

end

/-- The slot at an index, and the events that have made it. -/
inductive SlotStage (slots : SlotMap) (k : Nat) (own : List StreamEvent) (kind : SSEItemType) (id : Text) : Prop
  | absent (here : slots.get k = none) (nothing : own = [])
  | active (item : ActiveItem) (here : slots.get k = some ⟨some id, .active item⟩) (same : item.itemType = kind)
      (life : Streaming own kind id)
  | done (item : OutputItem) (here : slots.get k = some ⟨some id, .done item⟩) (same : SSEItemType.ofItem item = some kind)
      (life : Completed own kind id)

/-- The state of the accumulator after the events of a body. -/
structure Progress (items : ItemSerde) (acc : ResponseAccumulator) (body : List StreamEvent) (own : Nat → List StreamEvent)
    (kind : Nat → SSEItemType) (id : Nat → Text) : Prop where
  sorted : Sorted body own
  stage : ∀ k, SlotStage acc.slots k (own k) (kind k) (id k)
  once : (acc.slots.slots.map Prod.fst).Nodup
  wellFormed : acc.slots.WellFormed
  calls : ∀ k, ∀ event ∈ own k, ∀ shown, event.callId items = some shown → Observes acc.strict_call_ids k shown

section
variable {acc acc' : ResponseAccumulator} {body : List StreamEvent} {own : Nat → List StreamEvent} {kind : Nat → SSEItemType}
  {id : Nat → Text} {event : StreamEvent}

/-- Every slot has an id. -/
theorem Progress.known (progress : Progress items acc body own kind id) (k : Nat) (slot : Slot) (here : acc.slots.get k = some slot) :
    slot.item_id ≠ none := by
  cases progress.stage k with
  | absent none _ => simp [none] at here
  | active item there _ _ | done item there _ _ =>
    rw [there, Option.some.injEq] at here
    rw [← here]
    simp

/-- Noting one call id keeps the others. -/
theorem ResponseAccumulator.observeEvent_kept {k j : Nat} {shown : Text} (observed : Observes acc.strict_call_ids j shown) :
    Observes (acc.observeEvent k payload).strict_call_ids j shown := by
  unfold observeEvent
  split
  all_goals first
    | exact observes_kept observed
    | exact observed

/-- The call id that an event shows is recorded for its slot. -/
theorem ResponseAccumulator.observeEvent_shown {k : Nat} {shown : Text} (shows_ : event.callId items = some shown)
    (done : ∀ item_id item_type index raw, event.2.payload = .outputItemDone item_id item_type index raw →
      ∃ slot_id item, acc.slots.get k = some ⟨slot_id, .done item⟩ ∧ item.callId = some shown) :
    Observes (acc.observeEvent k event.2.payload).strict_call_ids k shown := by
  unfold StreamEvent.callId at shows_
  unfold observeEvent
  cases payload : event.2.payload <;> rw [payload] at shows_ <;> simp only [Option.filter_none, reduceCtorEq] at shows_
  case outputItemDone =>
    obtain ⟨slot_id, item, here, call⟩ := done _ _ _ _ payload
    simp only [here, Option.bind_some, SlotState.doneItem, call]
    rw [Option.filter_eq_some_iff] at shows_
    refine observes_shown ?_
    rw [Option.filter_eq_some_iff]
    exact ⟨rfl, shows_.2⟩
  all_goals exact observes_shown shows_

/-- The stages of the other slots stay, when a slot is changed. -/
theorem Progress.update {m : SlotMap} {k : Nat} {events : List StreamEvent} {kind' : SSEItemType} {id' : Text}
    (progress : Progress items acc body own kind id) (others : ∀ j, j ≠ k → m.get j = acc.slots.get j)
    (stage : SlotStage m k events kind' id') :
    ∀ j, SlotStage m j (Function.update own k events j) (Function.update kind k kind' j) (Function.update id k id' j) := by
  intro j
  by_cases same : j = k
  · subst same
    rw [Function.update_self, Function.update_self, Function.update_self]
    exact stage
  · rw [Function.update_of_ne same, Function.update_of_ne same, Function.update_of_ne same]
    cases progress.stage j with
    | absent here nothing => exact .absent ((others j same).trans here) nothing
    | active item here kind life => exact .active item ((others j same).trans here) kind life
    | done item here kind life => exact .done item ((others j same).trans here) kind life

/-- An event that belongs to the item at an index, and is accepted there. -/
theorem Progress.push {m : SlotMap} {k : Nat} {kind' : SSEItemType} {id' : Text} (progress : Progress items acc body own kind id)
    (inner : isResponseEvent event.type = false) (at_ : event.index = some k) (others : ∀ j, j ≠ k → m.get j = acc.slots.get j)
    (stage : SlotStage m k (own k ++ [event]) kind' id') (once : (m.slots.map Prod.fst).Nodup) (wellFormed : m.WellFormed)
    (recorded : ∀ shown, event.callId items = some shown →
      Observes (({ acc with slots := m } : ResponseAccumulator).observeEvent k event.2.payload).strict_call_ids k shown) :
    Progress items (({ acc with slots := m } : ResponseAccumulator).observeEvent k event.2.payload) (body ++ [event])
      (Function.update own k (own k ++ [event])) (Function.update kind k kind') (Function.update id k id') := by
  have slots : (({ acc with slots := m } : ResponseAccumulator).observeEvent k event.2.payload).slots = m :=
    ResponseAccumulator.observeEvent_slots
  refine ⟨progress.sorted.push inner at_, ?_, ?_, ?_, fun j other member shown shows_ => ?_⟩
  · rw [slots]
    exact progress.update others stage
  · rw [slots]
    exact once
  · rw [slots]
    exact wellFormed
  · by_cases same : j = k
    · subst same
      rw [Function.update_self] at member
      rcases List.mem_append.1 member with before | last
      · exact ResponseAccumulator.observeEvent_kept (progress.calls j other before shown shows_)
      · rw [List.mem_singleton.1 last] at shows_
        exact recorded shown shows_
    · rw [Function.update_of_ne same] at member
      exact ResponseAccumulator.observeEvent_kept (progress.calls j other member shown shows_)

/-- The event of a part names its item. -/
theorem itemIdentity_part {frame : EventFrame} {identity : ItemIdentity} (value : frame.FromValue items newId)
    (added : frame.event_type ≠ .outputItemAdded) (done : frame.event_type ≠ .outputItemDone)
    (h : itemIdentity frame none = some identity) : expectedItemType frame.event_type = some identity.item_type := by
  obtain ⟨json, fields, -, payload⟩ := value
  cases type : frame.event_type <;> rw [type] at payload added done <;>
    simp only [itemIdentity, payload, extractPayload, extractResponsePayload, extractShellCommand, type, expectedItemType,
      Option.bind_none, Option.map_some, Option.map_none, Option.some.injEq, reduceCtorEq] at h ⊢
  case outputItemAdded => exact absurd rfl added
  case outputItemDone => exact absurd rfl done
  all_goals rw [← h]

/-- An event that shows an item names that item. -/
theorem itemIdentity_shown {complete : Bool} {shown : ValidatedItem} {item : List (Text × Json)} {identity : ItemIdentity}
    (shows_ : ShownItem items newId event.2 complete shown item) (h : itemIdentity event.2 (some ⟨some shown⟩) = some identity) :
    identity.item_type = shown.item_type ∧ identity.item_id = some shown.item_id := by
  rw [itemIdentity, Option.bind_some, Option.some.injEq] at h
  rw [← h]
  exact ⟨rfl, if_neg (outputItemId_obj shows_.identity).2.1⟩

/-- An event that is about an open slot is about the item at its index. -/
theorem Progress.active {identity : ItemIdentity} {action : SlotAction} {k : Nat} {slot_id : Text} {item : ActiveItem}
    (progress : Progress items acc body own kind id) (finds : SlotMap.FindsActive acc.slots identity action k slot_id item) :
    slot_id = id k ∧ identity.item_type = kind k ∧ Streaming (own k) (kind k) (id k) := by
  have there := finds.here
  cases progress.stage k with
  | absent here _ => simp [here] at there
  | done item' here _ _ => simp [here] at there
  | active item' here same life =>
    rw [here] at there
    simp only [Option.some.injEq, Slot.mk.injEq, SlotState.active.injEq] at there
    obtain ⟨same_id, rfl⟩ := there
    exact ⟨same_id.symm, finds.kind.symm.trans same, life⟩

/-- The accumulator behind an event about an item. -/
def ResponseAccumulator.afterItem (acc : ResponseAccumulator) (m : SlotMap) (found : Option Nat) (payload : EventPayload) :
    ResponseAccumulator :=
  match found with
  | some k => ({ acc with slots := m } : ResponseAccumulator).observeEvent k payload
  | none => { acc with slots := m }

variable {m : SlotMap} {identity : ItemIdentity} {found : Option Nat}

/-- An opening goes on with the item at its index. -/
theorem Progress.added (progress : Progress items acc body own kind id) (value : event.2.FromValue items event.1)
    (type : event.type = .outputItemAdded) (about : itemIdentity event.2 none = some identity)
    (h : acc.slots.open event.1 identity event.2.payload .strict = (m, .ok found)) :
    ∃ own' kind' id', Progress items (acc.afterItem m found event.2.payload) (body ++ [event]) own' kind' id' := by
  obtain ⟨json, fields, -, payload⟩ := value
  have wellFormed := (@SlotMap.open_step acc.slots event.1 event.2.payload identity .strict).wellFormed progress.wellFormed
  rw [h] at wellFormed
  obtain ⟨k, slot_id, named, own_id, absent, opened⟩ := SlotMap.open_strict h
  have at_ : event.index = some k := by rw [StreamEvent.index, about]; exact named
  have type' : event.2.event_type = .outputItemAdded := type
  rw [type', extractPayload, extractOutputItemAdded] at payload
  have first : own k = [] := by
    cases progress.stage k with
    | absent _ nothing => exact nothing
    | active _ here _ _ | done _ here _ _ => simp [absent] at here
  rcases opened with ⟨rfl, rfl, none⟩ | ⟨item, rfl, some, rfl⟩
  · have unopened := (ActiveItem.fromAdded_none ⟨_, _, _, _, _, _, _, payload⟩).1 none
    exact ⟨own, kind, id, progress.sorted.ignore type unopened at_ first, progress.stage, progress.once, progress.wellFormed,
      progress.calls⟩
  · have opens : ¬ event.Unopened := fun unopened => by
      rw [(@ActiveItem.fromAdded_none event.1 event ⟨_, _, _, _, _, _, _, payload⟩).2 unopened] at some
      simp at some
    have same : item.itemType = identity.item_type := by
      rw [payload] at some
      rw [ActiveItem.fromAdded_itemType some]
      rw [itemIdentity, payload] at about
      rw [← Option.some.inj about]
    have life : Streaming (own k ++ [event]) identity.item_type slot_id := by
      rw [first, List.nil_append]
      refine ⟨⟨event, [], rfl, type, opens, fun part member => by simp at member⟩, fun other member => ?_⟩
      rw [List.mem_singleton.1 member]
      exact ⟨identity, about, rfl, .inl own_id⟩
    refine ⟨_, _, _, progress.push (by rw [type]; rfl) at_ (fun j apart => SlotMap.get_insert_ne apart)
      (.active item SlotMap.get_insert_self same life) (nodup_insertEntry progress.once) wellFormed fun shown shows_ => ?_⟩
    refine ResponseAccumulator.observeEvent_shown shows_ fun item_id item_type index raw done => ?_
    rw [payload] at done
    simp at done

/-- The event of a part goes on with the item at its index. -/
theorem Progress.part (progress : Progress items acc body own kind id) (value : event.2.FromValue items event.1)
    (inner : isResponseEvent event.type = false) (added : event.type ≠ .outputItemAdded) (done : event.type ≠ .outputItemDone)
    (about : itemIdentity event.2 none = some identity)
    (h : acc.slots.apply items event.1 identity event.2.payload .strict = (m, .ok found)) :
    ∃ own' kind' id', Progress items (acc.afterItem m found event.2.payload) (body ++ [event]) own' kind' id' := by
  have wellFormed := (@SlotMap.apply_step acc.slots items event.1 event.2.payload identity .strict).wellFormed progress.wellFormed
  rw [h] at wellFormed
  obtain ⟨k, slot_id, item, item', rfl, finds, kept, rfl⟩ := SlotMap.apply_strict progress.known h
  obtain ⟨rfl, same_kind, life⟩ := progress.active finds
  have at_ : event.index = some k := by rw [StreamEvent.index, about]; exact finds.named
  have expected := itemIdentity_part value added done about
  have names : event.About (kind k) (id k) := by
    refine ⟨identity, about, same_kind, ?_⟩
    rcases finds.id with given | ⟨missing, shell, -⟩
    · exact .inl given
    · refine .inr ⟨missing, ?_⟩
      rw [shell] at expected
      have commands (type : SSEEventType) (h : expectedItemType type = some .shellCall) : type.isShellCommand = true := by
        cases type <;> simp [expectedItemType, SSEEventType.isShellCommand] at h ⊢
      exact commands _ expected
  have life' : Streaming (own k ++ [event]) (kind k) (id k) := by
    obtain ⟨⟨first, parts, shape, type, opens, all⟩, abouts⟩ := life
    refine ⟨⟨first, parts ++ [event], by rw [shape, List.cons_append], type, opens, fun part member => ?_⟩, fun other member => ?_⟩
    · rcases List.mem_append.1 member with before | last
      · exact all part before
      · rw [List.mem_singleton.1 last]
        exact expected.trans (congrArg some same_kind)
    · rcases List.mem_append.1 member with before | last
      · exact abouts other before
      · rw [List.mem_singleton.1 last]
        exact names
  have there : (acc.slots.setState k (.active item')).get k = some ⟨some (id k), .active item'⟩ := by
    rw [SlotMap.get_setState finds.here, if_pos rfl]
  refine ⟨_, _, _, progress.push inner at_ (fun j apart => ?_)
    (.active item' there (kept.trans (finds.kind.trans same_kind)) life') ?_ wellFormed fun shown shows_ => ?_⟩
  · rw [SlotMap.get_setState finds.here, if_neg apart]
  · rw [SlotMap.setState_of_get finds.here]
    exact nodup_insertEntry progress.once
  · refine ResponseAccumulator.observeEvent_shown shows_ fun item_id item_type index raw payload => ?_
    obtain ⟨json, fields, -, payload'⟩ := value
    rw [payload'] at payload
    have type : event.2.event_type = .outputItemDone := by
      cases type : event.2.event_type <;> rw [type] at payload <;>
        simp [extractPayload, extractResponsePayload, extractOutputItemAdded, extractShellCommand] at payload ⊢
    exact absurd type done

/-- The last event of an item goes on with the item at its index. -/
theorem Progress.done {shown : ValidatedItem} {item : List (Text × Json)} (progress : Progress items acc body own kind id)
    (value : event.2.FromValue items event.1) (type : event.type = .outputItemDone) (shows_ : ShownItem items event.1 event.2 true shown item)
    (about : itemIdentity event.2 none = some identity) (checked : itemIdentity event.2 (some ⟨some shown⟩) = some identity)
    (h : acc.slots.complete items event.1 identity event.2.payload shown.done_item .strict = (m, .ok found)) :
    ∃ own' kind' id', Progress items (acc.afterItem m found event.2.payload) (body ++ [event]) own' kind' id' := by
  have wellFormed := (@SlotMap.complete_step acc.slots items event.1 event.2.payload identity .strict shown.done_item).wellFormed
    progress.wellFormed
  rw [h] at wellFormed
  obtain ⟨json, fields, reads, payload⟩ := value
  obtain ⟨shown_id, own_id, -⟩ := outputItemId_obj shows_.identity
  obtain ⟨same_type, same_id⟩ := itemIdentity_shown shows_ checked
  have whole := shows_.done
  rw [if_pos rfl] at whole
  obtain ⟨output, read, output_kind, done⟩ := whole
  have type' : event.2.event_type = .outputItemDone := type
  rw [type', extractPayload, extractOutputItemDone, FromValue.item reads shows_.here, shown_id] at payload
  rw [payload, done] at h
  obtain ⟨k, slot_id, active, completed, rfl, finds, completed_kind, rfl, calls⟩ :=
    SlotMap.complete_strict progress.known (output_kind.trans (congrArg some same_type.symm)) h
  obtain ⟨rfl, same_kind, life⟩ := progress.active finds
  have at_ : event.index = some k := by rw [StreamEvent.index, about]; exact finds.named
  have names : event.About (kind k) (id k) := by
    refine ⟨identity, about, same_kind, ?_⟩
    rcases finds.id with given | ⟨missing, -, mutates⟩
    · exact .inl given
    · simp at mutates
  have there : (acc.slots.setState k (.done completed)).get k = some ⟨some (id k), .done completed⟩ := by
    rw [SlotMap.get_setState finds.here, if_pos rfl]
  refine ⟨_, _, _, progress.push (by rw [type]; rfl) at_ (fun j apart => ?_)
    (.done completed there (completed_kind.trans (congrArg some same_kind)) ⟨own k, event, rfl, life, type, names⟩) ?_ wellFormed
    fun call_id shows_call => ?_⟩
  · rw [SlotMap.get_setState finds.here, if_neg apart]
  · rw [SlotMap.setState_of_get finds.here]
    exact nodup_insertEntry progress.once
  · have parsed : items.itemOpt event.1 (canonicalItem (.obj item) shown.item_id) = some output := by
      rw [ItemSerde.itemOpt, ← canonicalFields_eq own_id, read]
      rfl
    refine ResponseAccumulator.observeEvent_shown shows_call fun _ _ _ _ _ => ?_
    simp only [StreamEvent.callId, payload, parsed, Option.bind_some] at shows_call
    rw [Option.filter_eq_some_iff] at shows_call
    exact ⟨_, completed, there, calls call_id shows_call.1 (by simpa using shows_call.2)⟩

/-- Every event of an item that is accepted goes on with the item at its index. -/
theorem Progress.item {validated : ValidatedFrame} {disposition : EventDisposition} (progress : Progress items acc body own kind id)
    (strict : acc.validation = .strict) (value : event.2.FromValue items event.1) (checked : FrameItem items event.1 event.2 validated.item)
    (inner : isResponseEvent event.type = false)
    (h : acc.processItemEvent items event.1 event.2 (some validated) = (acc', .ok disposition)) :
    ∃ own' kind' id', Progress items acc' (body ++ [event]) own' kind' id' := by
  have same := itemIdentity_eq value checked
  unfold ResponseAccumulator.processItemEvent at h
  cases about : itemIdentity event.2 none with
  | none =>
    rw [same, about] at h
    rw [← (Prod.mk.inj h).1]
    exact ⟨own, kind, id, progress.sorted.skip inner about, progress.stage, progress.once, progress.wellFormed, progress.calls⟩
  | some identity =>
    rw [same, about] at h
    simp only at h
    cases applied : ResponseAccumulator.applyToSlots items event.1 acc.slots event.2 identity (some validated) acc.validation with
    | mk m result =>
      rw [applied] at h
      rw [strict] at applied
      cases result with
      | error error => simp at h
      | ok found =>
        have after : acc' = acc.afterItem m found event.2.payload := by
          cases found with
          | none => exact (Prod.mk.inj h).1.symm
          | some k =>
            simp only [if_pos strict] at h
            exact (Prod.mk.inj h).1.symm
        rw [after]
        obtain ⟨item⟩ := validated
        cases checked with
        | none _ added done =>
          rw [ResponseAccumulator.applyToSlots_part added done] at applied
          exact progress.part value inner added done about applied
        | part names =>
          have expected := names.kind
          have added : event.2.event_type ≠ .outputItemAdded := fun type => by simp [type, expectedItemType] at expected
          have done : event.2.event_type ≠ .outputItemDone := fun type => by simp [type, expectedItemType] at expected
          rw [ResponseAccumulator.applyToSlots_part added done] at applied
          exact progress.part value inner added done about applied
        | added type _ =>
          rw [ResponseAccumulator.applyToSlots_added type] at applied
          exact progress.added value type about applied
        | done type shows_ =>
          rw [ResponseAccumulator.applyToSlots_done type] at applied
          exact progress.done value type shows_ about (same.trans about) applied

/-- What the check of a listed output has seen. -/
structure ListsSlots (items : ItemSerde) (newId : NewId) (acc acc' : ResponseAccumulator) (first : Nat) (output : List Json)
    (ids : List Text) : Prop where
  length : ids.length = output.length
  nodup : ids.Nodup
  entry : ∀ k item item_id, output[k]? = some item → ids[k]? = some item_id →
    ∃ fields completed kind, item = .obj fields ∧ outputItemIdentity fields "terminal output item" = .ok (item_id, kind) ∧
      (acc.slots.get (first + k)).bind (fun slot => slot.state.doneItem) = some completed ∧
      SSEItemType.ofItem completed = some kind ∧
      ∀ shown, ((items.itemOpt newId (canonicalFields fields item_id)).bind OutputItem.callId).filter (· ≠ []) = some shown →
        Observes acc'.strict_call_ids (first + k) shown
  kept : ∀ k shown, Observes acc.strict_call_ids k shown → Observes acc'.strict_call_ids k shown

/-- An item that the last event lists is a completed item of the stream. -/
theorem ResponseAccumulator.checkTerminalItem_ok {output_index : Nat} {seen : List Text} {item : Json} {item_id : Text}
    {terminal_item : OutputItem} (h : checkTerminalItem items newId acc output_index seen item = .ok (item_id, terminal_item)) :
    item_id ∉ seen ∧ ∃ fields completed kind, item = .obj fields ∧
      outputItemIdentity fields "terminal output item" = .ok (item_id, kind) ∧
      (acc.slots.get output_index).bind (fun slot => slot.state.doneItem) = some completed ∧
      SSEItemType.ofItem completed = some kind ∧ items.itemOpt newId (canonicalFields fields item_id) = some terminal_item := by
  unfold checkTerminalItem at h
  split at h
  · simp at h
  cases item with
  | obj fields =>
    simp only [Json.asObject] at h
    cases identity : outputItemIdentity fields "terminal output item" with
    | error error => simp [identity] at h
    | ok known =>
      obtain ⟨own_id, kind⟩ := known
      simp only [identity] at h
      split at h
      · simp at h
      rename_i fresh
      cases slot : (acc.slots.get output_index).bind fun slot => slot.state.doneItem with
      | none => simp [slot] at h
      | some completed =>
        simp only [slot] at h
        split at h
        · simp at h
        rename_i same
        cases read : items.item newId (canonicalFields fields own_id) with
        | error error => simp [read] at h
        | ok output =>
          simp only [read, Except.ok.injEq, Prod.mk.injEq] at h
          obtain ⟨rfl, rfl⟩ := h
          refine ⟨fresh, fields, completed, kind, rfl, identity, rfl, not_not.1 same, ?_⟩
          rw [ItemSerde.itemOpt, read]
          rfl
  | _ => simp [Json.asObject] at h

/-- The items that the last event lists are completed items of the stream, in order. -/
theorem ResponseAccumulator.checkTerminalItems_ok {output : List Json} {first : Nat} {seen : List Text}
    (h : checkTerminalItems items newId acc first seen output = (acc', .ok ())) :
    ∃ ids, ListsSlots items newId acc acc' first output ids ∧ ∀ item_id ∈ ids, item_id ∉ seen := by
  induction output generalizing acc first seen with
  | nil =>
    rw [← (Prod.mk.inj h).1]
    exact ⟨[], ⟨rfl, List.nodup_nil, fun k item item_id none => by simp at none, fun k shown observed => observed⟩, by simp⟩
  | cons item output ih =>
    rw [checkTerminalItems] at h
    split at h
    · simp at h
    rename_i item_id terminal_item checked
    obtain ⟨fresh, fields, completed, kind, rfl, identity, slot, same, read⟩ := checkTerminalItem_ok checked
    obtain ⟨ids, lists, later⟩ := ih h
    refine ⟨item_id :: ids, ⟨by simp [lists.length], ?_, fun k other other_id there named => ?_, fun k shown observed => ?_⟩, ?_⟩
    · rw [List.nodup_cons]
      exact ⟨fun again => later item_id again (List.mem_cons_self ..), lists.nodup⟩
    · cases k with
      | zero =>
        simp only [List.getElem?_cons_zero, Option.some.injEq] at there named
        subst there
        subst named
        refine ⟨fields, completed, kind, rfl, identity, slot, same, fun shown shows_ => lists.kept _ _ ?_⟩
        rw [read, Option.bind_some] at shows_
        exact observes_shown shows_
      | succ k =>
        rw [List.getElem?_cons_succ] at there named
        obtain ⟨fields', completed', kind', entry⟩ := lists.entry k other other_id there named
        have shift : first + 1 + k = first + (k + 1) := by omega
        rw [shift] at entry
        exact ⟨fields', completed', kind', entry⟩
    · exact lists.kept k shown (observes_kept observed)
    · intro other member
      rcases List.mem_cons.1 member with rfl | member
      · exact fresh
      · exact fun again => later other member (List.mem_cons_of_mem _ again)

/-- What an accepted terminal event has been checked for. -/
structure TerminalChecked (items : ItemSerde) (acc acc' : ResponseAccumulator) (event : StreamEvent) : Prop where
  idle : acc.slots.hasActive = false
  records : acc.RecordsCalls acc'
  listed : ∀ output, event.listed = some output → output.length = acc.slots.slots.length ∧
    ∃ ids, ListsSlots items event.1 acc acc' 0 output ids
  kept : ∀ k shown, Observes acc.strict_call_ids k shown → Observes acc'.strict_call_ids k shown
  stable : event.type ≠ .responseFailed → acc'.ensureStableStrictCallIds = .ok ()

/-- The last event lists the items of the stream and no other. -/
theorem ResponseAccumulator.validateTerminalOutput_ok {enforce : Bool}
    (h : acc.validateTerminalOutput items event.1 event.2 enforce = (acc', .ok ())) :
    (∀ output, event.listed = some output → output.length = acc.slots.slots.length ∧
      ∃ ids, ListsSlots items event.1 acc acc' 0 output ids) ∧
    (∀ k shown, Observes acc.strict_call_ids k shown → Observes acc'.strict_call_ids k shown) ∧
    (enforce = true → acc'.ensureStableStrictCallIds = .ok ()) := by
  unfold validateTerminalOutput at h
  simp only at h
  split at h
  · simp at h
  rename_i before
  have stable (on : enforce = true) : acc.ensureStableStrictCallIds = .ok () := by rwa [if_pos on] at before
  cases found : (event.2.wire.rest.lookup (utf8 "response")).bind Json.asObject with
  | none => simp [found] at h
  | some response =>
    simp only [found] at h
    have lists (v : Option Json) (here : response.lookup (utf8 "output") = v) : event.listed = v.bind Json.asArray := by
      obtain ⟨value, there, object⟩ := Option.bind_eq_some_iff.1 found
      cases value with
      | obj fields =>
        rw [Json.asObject, Option.some.injEq] at object
        rw [StreamEvent.listed, there, Option.bind_some, Json.get, object, here]
      | _ => simp [Json.asObject] at object
    split at h
    · rename_i nothing
      rw [← (Prod.mk.inj h).1]
      refine ⟨fun output there => ?_, fun k shown observed => observed, stable⟩
      rw [lists none nothing] at there
      simp at there
    · rename_i nothing
      rw [← (Prod.mk.inj h).1]
      refine ⟨fun output there => ?_, fun k shown observed => observed, stable⟩
      rw [lists (some .null) nothing] at there
      simp [Json.asArray] at there
    · rename_i output here
      split at h
      · simp at h
      rename_i same
      split at h
      · simp at h
      rename_i after checked
      obtain ⟨ids, listed, -⟩ := checkTerminalItems_ok checked
      obtain ⟨rfl, after_stable⟩ := Prod.mk.inj h
      refine ⟨fun output' there => ?_, listed.kept, fun on => by rwa [if_pos on] at after_stable⟩
      rw [lists _ here] at there
      have equal : output = output' := Option.some.inj there
      subst equal
      exact ⟨not_not.1 same, ids, listed⟩
    · simp at h

/-- The body that precedes an accepted terminal event is whole. -/
theorem Progress.wellShaped {created inProgress : StreamEvent} (progress : Progress items acc body own kind id)
    (checked : TerminalChecked items acc acc' event) (starts : created.type = .responseCreated)
    (goes : inProgress.type = .responseInProgress)
    (ends : event.type = .responseCompleted ∨ event.type = .responseFailed ∨ event.type = .responseIncomplete) :
    WellShaped items (created :: inProgress :: (body ++ [event])) body event own kind id := by
  have inactive (k : Nat) (slot_id : Option Text) (item : ActiveItem) : acc.slots.get k ≠ some ⟨slot_id, .active item⟩ := by
    intro here
    have member := (mem_iff_lookup progress.once).2 here
    have active : acc.slots.hasActive = true := List.any_eq_true.2 ⟨_, member, rfl⟩
    rw [checked.idle] at active
    simp at active
  have stage (k : Nat) : own k = [] ∧ acc.slots.get k = none ∨ Completed (own k) (kind k) (id k) ∧
      ∃ item, acc.slots.get k = some ⟨some (id k), .done item⟩ ∧ SSEItemType.ofItem item = some (kind k) := by
    cases progress.stage k with
    | absent here nothing => exact .inl ⟨nothing, here⟩
    | active item here _ _ => exact absurd here (inactive k _ item)
    | done item here same life => exact .inr ⟨life, item, here, same⟩
  have nonempty (k : Nat) : own k ≠ [] ↔ acc.slots.get k ≠ none := by
    rcases stage k with ⟨nothing, none⟩ | ⟨⟨before, done, shape, -⟩, item, here, -⟩
    · simp [nothing, none]
    · simp [shape, here]
  refine ⟨⟨created, inProgress, rfl, starts, goes⟩, ends, progress.sorted, fun k => ?_, fun j k left right same => ?_,
    fun output there => ?_, fun succeeded k => ?_⟩
  · rcases stage k with ⟨nothing, -⟩ | ⟨life, -⟩
    · exact .inl nothing
    · exact .inr life
  · rcases stage j with ⟨nothing, -⟩ | ⟨-, item, here, -⟩
    · exact absurd nothing left
    rcases stage k with ⟨nothing, -⟩ | ⟨-, item', here', -⟩
    · exact absurd nothing right
    exact progress.wellFormed.id_unique here here' rfl (congrArg some same.symm)
  · obtain ⟨length, ids, lists⟩ := checked.listed output there
    have covered (k : Nat) (below : k < output.length) : ∃ fields completed kind', output[k]? = some (.obj fields) ∧
        (∃ item_id, ids[k]? = some item_id ∧ outputItemIdentity fields "terminal output item" = .ok (item_id, kind')) ∧
        (acc.slots.get k).bind (fun slot => slot.state.doneItem) = some completed ∧ SSEItemType.ofItem completed = some kind' := by
      have within : k < ids.length := by rw [lists.length]; exact below
      obtain ⟨fields, completed, kind', item, identity, slot, same, -⟩ := lists.entry k output[k] ids[k]
        (List.getElem?_eq_getElem below) (List.getElem?_eq_getElem within)
      rw [Nat.zero_add] at slot
      refine ⟨fields, completed, kind', ?_, ⟨ids[k], List.getElem?_eq_getElem within, identity⟩, slot, same⟩
      rw [List.getElem?_eq_getElem below, item]
    refine ⟨fun k => ?_, ids, lists.nodup, lists.length, fun k item item_id at_ named => ?_⟩
    · rw [nonempty]
      constructor
      · intro here
        obtain ⟨slot, here⟩ := Option.ne_none_iff_exists'.1 here
        rw [length]
        refine lookup_below progress.once (fun j below => ?_) here
        rw [← length] at below
        obtain ⟨_, _, _, _, _, slot, -⟩ := covered j below
        intro none
        rw [SlotMap.get, none] at slot
        simp at slot
      · intro below none
        obtain ⟨_, _, _, _, _, slot, -⟩ := covered k below
        rw [none] at slot
        simp at slot
    · have below : k < output.length := (List.getElem?_eq_some_iff.1 at_).1
      obtain ⟨fields, completed, kind', there', ⟨item_id', named', identity⟩, slot, same⟩ := covered k below
      rw [at_, Option.some.injEq] at there'
      rw [named, Option.some.injEq] at named'
      rcases stage k with ⟨-, none⟩ | ⟨-, item', here, same'⟩
      · rw [none] at slot
        simp at slot
      · rw [here, Option.bind_some, SlotState.doneItem, Option.some.injEq] at slot
        rw [slot, same, Option.some.injEq] at same'
        exact ⟨fields, there', by rw [identity, named', same']⟩
  · have stable := checked.stable succeeded
    have every (event' : StreamEvent) (member : event' ∈ own k) (shown : Text) (shows_ : event'.callId items = some shown) :
        Observes acc'.strict_call_ids k shown := checked.kept k shown (progress.calls k event' member shown shows_)
    have listed (shown : Text) (shows_ : event.listedCallId items k = some shown) : Observes acc'.strict_call_ids k shown := by
      simp only [StreamEvent.listedCallId, Option.bind_eq_bind, Option.bind_eq_some_iff] at shows_
      obtain ⟨output, there, item, at_, fields, object, shows_⟩ := shows_
      obtain ⟨-, ids, lists⟩ := checked.listed output there
      have below : k < output.length := (List.getElem?_eq_some_iff.1 at_).1
      have within : k < ids.length := by rw [lists.length]; exact below
      obtain ⟨fields', completed, kind', rfl, identity, -, -, observed⟩ := lists.entry k item ids[k] at_ (List.getElem?_eq_getElem within)
      rw [Json.asObject, Option.some.injEq] at object
      subst object
      rw [identity] at shows_
      rw [Nat.zero_add] at observed
      exact observed shown shows_
    by_cases some : ∃ shown, Observes acc'.strict_call_ids k shown
    · obtain ⟨call_id, known⟩ := some
      exact ⟨call_id, fun event' member shown shows_ => ResponseAccumulator.observes_unique stable (every event' member shown shows_) known,
        fun shown shows_ => ResponseAccumulator.observes_unique stable (listed shown shows_) known⟩
    · exact ⟨[], fun event' member shown shows_ => absurd ⟨shown, every event' member shown shows_⟩ some,
        fun shown shows_ => absurd ⟨shown, listed shown shows_⟩ some⟩

/-- The payload of a lifecycle event. -/
theorem response_payload {frame : EventFrame} (value : frame.FromValue items newId) (response : isResponseEvent frame.event_type = true) :
    ∃ id status usage, frame.payload = .response id status usage := by
  obtain ⟨json, fields, -, payload⟩ := value
  cases type : frame.event_type <;> rw [type] at payload response <;> simp only [isResponseEvent, Bool.false_eq_true] at response <;>
    exact ⟨_, _, _, payload⟩

/-- The response of a lifecycle event that passes its own check has an id. -/
theorem response_named {frame : EventFrame} {validated : ValidatedFrame} {response_id status : Text} {usage : Option ResponseUsage}
    (value : frame.FromValue items newId) (valid : validateFrame items newId frame = .ok validated)
    (type : frame.event_type = .responseCreated) (payload : frame.payload = .response response_id status usage) : response_id ≠ [] := by
  unfold validateFrame at valid
  simp only at valid
  split at valid
  rotate_left
  · obtain ⟨_, failed, _⟩ := bind_eq_ok.1 valid
    exact absurd failed throw_ne_ok
  simp only [pure_bind, type] at valid
  obtain ⟨_, checked, -⟩ := bind_eq_ok.1 valid
  unfold validateResponseEvent at checked
  obtain ⟨response, object, checked⟩ := bind_eq_ok.1 checked
  obtain ⟨own_id, named, -⟩ := bind_eq_ok.1 checked
  have here := requiredField_ok object
  have id := requiredField_ok named
  rw [bind_asNonEmptyStr, Option.filter_eq_some_iff] at id
  obtain ⟨json, fields, reads, payload'⟩ := value
  rw [payload, type, extractPayload, extractResponsePayload] at payload'
  rw [reads.rest "response" (by decide) (by decide) (by decide)] at here
  obtain ⟨v, found, is_object⟩ := Option.bind_eq_some_iff.1 here
  rw [reads.object, Json.at_obj found] at payload'
  cases v with
  | obj inner =>
    rw [Json.asObject, Option.some.injEq] at is_object
    subst is_object
    rw [jsonStr_obj, id.1] at payload'
    have same := (EventPayload.response.inj payload').1
    rw [same]
    simpa using id.2
  | _ => simp [Json.asObject] at is_object

/-- The events that have been accepted, by the lifecycle they have led to. -/
inductive History (items : ItemSerde) (acc : ResponseAccumulator) (past : List StreamEvent) : Prop
  | awaitingCreated (at_ : acc.stream_lifecycle = .awaitingCreated) (nothing : past = []) (fresh : acc.slots = .empty)
  | created (event : StreamEvent) (at_ : acc.stream_lifecycle = .created) (only : past = [event]) (starts : event.type = .responseCreated)
      (fresh : acc.slots = .empty)
  | inProgress (created inProgress : StreamEvent) (body : List StreamEvent) (own : Nat → List StreamEvent) (kind : Nat → SSEItemType)
      (id : Nat → Text) (at_ : acc.stream_lifecycle = .inProgress) (events : past = created :: inProgress :: body)
      (starts : created.type = .responseCreated) (goes : inProgress.type = .responseInProgress)
      (progress : Progress items acc body own kind id)
  | terminal (body : List StreamEvent) (event : StreamEvent) (own : Nat → List StreamEvent) (kind : Nat → SSEItemType)
      (id : Nat → Text) (at_ : acc.stream_lifecycle = .terminal) (shaped : WellShaped items past body event own kind id)

/-- Before any event the items have shown nothing. -/
theorem Progress.start (fresh : acc.slots = .empty) :
    Progress items acc [] (fun _ => []) (fun _ => .message) fun _ => [] := by
  refine ⟨⟨by simp, fun k => ⟨[], rfl, by simp⟩⟩, fun k => .absent ?_ rfl, ?_, ?_, fun k event none => by simp at none⟩
  · rw [fresh]
    rfl
  · rw [fresh]
    exact List.nodup_nil
  · rw [fresh]
    exact SlotMap.WellFormed.empty

/-- When an event may come. -/
inductive Allowed (items : ItemSerde) (acc between : ResponseAccumulator) (event : StreamEvent) : Prop
  | created (type : event.type = .responseCreated) (at_ : acc.stream_lifecycle = .awaitingCreated) (same : between = acc)
  | inProgress (type : event.type = .responseInProgress) (at_ : acc.stream_lifecycle = .created) (same : between = acc)
  | terminal (type : event.type = .responseCompleted ∨ event.type = .responseFailed ∨ event.type = .responseIncomplete)
      (at_ : acc.stream_lifecycle = .inProgress) (checked : TerminalChecked items acc between event)
  | inner (type : isResponseEvent event.type = false) (at_ : acc.stream_lifecycle = .inProgress) (same : between = acc)

/-- An event that is let through is in its place. -/
theorem ResponseAccumulator.validateStrictTransition_ok {between : ResponseAccumulator} (value : event.2.FromValue items event.1)
    (h : acc.validateStrictTransition items event.1 event.2 = (between, .ok ())) : Allowed items acc between event := by
  have records := @validateStrictTransition_records items event.1 acc event.2
  rw [h] at records
  unfold validateStrictTransition at h
  simp only at h
  split at h
  · simp at h
  have ends (response_id : Text)
      (type : event.type = .responseCompleted ∨ event.type = .responseFailed ∨ event.type = .responseIncomplete)
      (h : (if acc.stream_lifecycle ≠ .inProgress ∨ response_id ≠ acc.response_id then
          (acc, .error (invalidLifecycleOrId (event.2.wire.event_type.getD "streaming event")))
        else if acc.slots.hasActive = true then (acc, .error (invalid "upstream stream ended with unfinished output items"))
        else acc.validateTerminalOutput items event.1 event.2 (event.2.event_type ≠ .responseFailed)) = (between, .ok ())) :
      Allowed items acc between event := by
    split_ifs at h with early unfinished
    · simp at h
    · simp at h
    · obtain ⟨listed, kept, stable⟩ := validateTerminalOutput_ok h
      refine .terminal type ?_ ⟨by simpa using unfinished, records, listed, kept, fun succeeded => stable (decide_eq_true succeeded)⟩
      by_contra other
      exact early (.inl other)
  split at h
  case h_1 _ _ _ _ _ type _ =>
    split_ifs at h with early
    · simp at h
    · exact .created type (not_not.1 early) (Prod.mk.inj h).1.symm
  case h_2 _ _ _ _ _ type _ =>
    split_ifs at h with early
    · simp at h
    · refine .inProgress type ?_ (Prod.mk.inj h).1.symm
      by_contra other
      exact early (.inl other)
  case h_3 _ _ _ _ _ type _ => exact ends _ (.inl type) h
  case h_4 _ _ _ _ _ type _ => exact ends _ (.inr (.inl type)) h
  case h_5 _ _ _ _ _ type _ => exact ends _ (.inr (.inr type)) h
  case h_6 others₁ others₂ others₃ others₄ others₅ =>
    unfold requireInProgress at h
    split_ifs at h with going
    · refine .inner ?_ going (Prod.mk.inj h).1.symm
      by_contra response
      rw [Bool.not_eq_false] at response
      obtain ⟨response_id, status, usage, payload⟩ := response_payload value response
      cases type : event.2.event_type <;> rw [StreamEvent.type, type] at response <;> simp only [isResponseEvent, Bool.false_eq_true] at response
      · exact others₁ _ _ _ type payload
      · exact others₂ _ _ _ type payload
      · exact others₃ _ _ _ type payload
      · exact others₄ _ _ _ type payload
      · exact others₅ _ _ _ type payload
    · simp at h

/-- An item event leaves the place in the response as it is. -/
theorem processItemEvent_lifecycle {validated : Option ValidatedFrame} :
    (acc.processItemEvent items event.1 event.2 validated).1.stream_lifecycle = acc.stream_lifecycle := by
  unfold ResponseAccumulator.processItemEvent
  split
  · rfl
  · simp only
    split
    · rfl
    · rfl
    · split
      · unfold ResponseAccumulator.observeEvent
        split <;> rfl
      · rfl

/-- Only the last event tells the details of the response. -/
theorem captureTerminalDetailsIfNeeded_other {frame : EventFrame} (type : ResponseAccumulator.isTerminalEvent frame.event_type = false) :
    acc.captureTerminalDetailsIfNeeded items frame = acc := by
  rw [ResponseAccumulator.captureTerminalDetailsIfNeeded, if_neg (by simp [type])]

/-- **One event** that strict validation accepts. -/
theorem History.step {past : List StreamEvent} {disposition : EventDisposition} (history : History items acc past)
    (strict : acc.validation = .strict) (value : event.2.FromValue items event.1)
    (h : acc.processNormalizedEvent items event.1 event.2 = (acc', .ok disposition)) : History items acc' (past ++ [event]) := by
  unfold ResponseAccumulator.processNormalizedEvent at h
  rw [strict] at h
  simp only at h
  cases valid : validateFrame items event.1 event.2 with
  | error error => simp [valid] at h
  | ok validated =>
  cases moved : acc.validateStrictTransition items event.1 event.2 with
  | mk between result =>
  cases result with
  | error error => simp [valid, moved] at h
  | ok _ =>
  rw [valid, moved] at h
  simp only at h
  have allowed := ResponseAccumulator.validateStrictTransition_ok value moved
  cases allowed with
  | created type at_ same =>
    subst same
    have type' : event.2.event_type = .responseCreated := type
    obtain ⟨response_id, status, usage, payload⟩ := response_payload value (by rw [type']; rfl)
    have named := response_named value valid type' payload
    rw [captureTerminalDetailsIfNeeded_other (by rw [type']; rfl), ResponseAccumulator.processEventChecked, type', payload] at h
    simp only [if_neg named] at h
    rw [← (Prod.mk.inj h).1]
    cases history with
    | awaitingCreated _ nothing fresh => exact .created event rfl (by rw [nothing]; rfl) type fresh
    | created _ at' _ _ _ | inProgress _ _ _ _ _ _ at' _ _ _ _ | terminal _ _ _ _ _ at' _ =>
      rw [at_] at at'
      simp at at'
  | inProgress type at_ same =>
    subst same
    have type' : event.2.event_type = .responseInProgress := type
    obtain ⟨response_id, status, usage, payload⟩ := response_payload value (by rw [type']; rfl)
    rw [captureTerminalDetailsIfNeeded_other (by rw [type']; rfl), ResponseAccumulator.processEventChecked, type', payload] at h
    rw [← (Prod.mk.inj h).1]
    cases history with
    | created first _ only starts fresh =>
      exact .inProgress first event [] _ _ _ rfl (by rw [only]; rfl) starts type (Progress.start fresh)
    | awaitingCreated at' _ _ | inProgress _ _ _ _ _ _ at' _ _ _ _ | terminal _ _ _ _ _ at' _ =>
      rw [at_] at at'
      simp at at'
  | terminal type at_ checked =>
    have finishes : acc'.stream_lifecycle = .terminal := by
      obtain ⟨response_id, status, usage, payload⟩ := response_payload value (by
        rcases type with type | type | type <;> rw [show event.2.event_type = _ from type] <;> rfl)
      rcases type with type | type | type <;>
        rw [ResponseAccumulator.processEventChecked, show event.2.event_type = _ from type, payload] at h <;>
        rw [← (Prod.mk.inj h).1] <;> rfl
    cases history with
    | inProgress first second body own kind id _ events starts goes progress =>
      refine .terminal body event own kind id finishes ?_
      rw [events]
      exact progress.wellShaped checked starts goes type
    | awaitingCreated at' _ _ | created _ at' _ _ _ | terminal _ _ _ _ _ at' _ =>
      rw [at_] at at'
      simp at at'
  | inner type at_ same =>
    subst same
    have other : ResponseAccumulator.isTerminalEvent event.2.event_type = false := by
      cases kind : event.2.event_type <;> rw [StreamEvent.type, kind] at type <;> simp only [isResponseEvent, Bool.true_eq_false] at type <;> rfl
    have item : between.processEventChecked items event.1 event.2 (some validated) =
        between.processItemEvent items event.1 event.2 (some validated) := by
      unfold ResponseAccumulator.processEventChecked
      cases kind : event.2.event_type <;> rw [StreamEvent.type, kind] at type <;> simp only [isResponseEvent, Bool.true_eq_false] at type
    rw [captureTerminalDetailsIfNeeded_other other, item] at h
    have kept : acc'.stream_lifecycle = between.stream_lifecycle := by
      have after := @processItemEvent_lifecycle items between event (some validated)
      rw [h] at after
      exact after
    cases history with
    | inProgress first second body own kind id _ events starts goes progress =>
      obtain ⟨own', kind', id', progress'⟩ := progress.item strict value (validateFrame_ok valid) type h
      refine .inProgress first second (body ++ [event]) own' kind' id' (kept.trans at_) ?_ starts goes progress'
      rw [events]
      rfl
    | awaitingCreated at' _ _ | created _ at' _ _ _ | terminal _ _ _ _ _ at' _ =>
      rw [at_] at at'
      simp at at'

/-- A strict reader stays strict. -/
theorem processNormalizedEvent_validation {disposition : EventDisposition} (strict : acc.validation = .strict)
    (h : acc.processNormalizedEvent items event.1 event.2 = (acc', .ok disposition)) : acc'.validation = .strict := by
  unfold ResponseAccumulator.processNormalizedEvent at h
  rw [strict] at h
  simp only at h
  cases valid : validateFrame items event.1 event.2 with
  | error error => simp [valid] at h
  | ok validated =>
    have records := @ResponseAccumulator.validateStrictTransition_records items event.1 acc event.2
    cases moved : acc.validateStrictTransition items event.1 event.2 with
    | mk between result =>
      rw [moved] at records
      cases result with
      | error error => simp [valid, moved] at h
      | ok _ =>
        rw [valid, moved] at h
        simp only at h
        have kept := @ResponseAccumulator.processEventChecked_validation items event.1 event.2
          (between.captureTerminalDetailsIfNeeded items event.2) (some validated)
        rw [h, ResponseAccumulator.captureTerminalDetailsIfNeeded_validation] at kept
        rw [kept, congrArg ResponseAccumulator.validation records]
        exact strict

end

/-- The events of the lines of a stream. -/
def readEvents (serde : SerdeJson) (items : ItemSerde) (lines : List (NewId × Text)) : List StreamEvent :=
  lines.filterMap fun line =>
    match SseLine.parse line.2 with
    | .data data =>
      match normalizeSseData items line.1 serde data with
      | .ok (some frame) => some (line.1, frame)
      | _ => none
    | _ => none

variable {serde : SerdeJson} {acc acc' : ResponseAccumulator} {past : List StreamEvent} {frames : List EventFrame}

/-- **The lines that strict validation accepts** are remembered as the history of their events. -/
theorem History.lines {lines : List (NewId × Text)} (history : History items acc past) (strict : acc.validation = .strict)
    (h : acc.ingest serde items lines = .ok (acc', frames)) :
    History items acc' (past ++ readEvents serde items lines) ∧ acc'.validation = .strict := by
  induction lines generalizing acc past frames with
  | nil =>
    rw [← (Prod.mk.inj (Except.ok.inj h)).1, readEvents, List.filterMap_nil, List.append_nil]
    exact ⟨history, strict⟩
  | cons line lines ih =>
    rw [ResponseAccumulator.ingest] at h
    cases processed : acc.processLine items line.1 serde (SseLine.parse line.2) with
    | mk after result =>
    cases result with
    | error error => simp [processed] at h
    | ok sent =>
    rw [processed] at h
    simp only [Except.map] at h
    split at h
    · simp at h
    rename_i rest later
    obtain ⟨rfl, rfl⟩ := Prod.mk.inj (Except.ok.inj h)
    rw [readEvents, List.filterMap_cons]
    unfold ResponseAccumulator.processLine at processed
    cases parsed : SseLine.parse line.2 with
    | data data =>
      rw [parsed] at processed
      simp only at processed ⊢
      cases normalized : normalizeSseData items line.1 serde data with
      | error error => simp [normalized] at processed
      | ok read =>
        rw [normalized] at processed
        cases read with
        | none => simp [strict] at processed
        | some frame =>
          have value : frame.FromValue items line.1 := by
            unfold normalizeSseData at normalized
            split at normalized
            · simp at normalized
            · exact normalizeSseValue_ok normalized
          cases event : acc.processNormalizedEvent items line.1 frame with
          | mk next outcome =>
            cases outcome with
            | error error => simp [event, Except.map] at processed
            | ok disposition =>
              simp only [event, Prod.mk.injEq] at processed
              obtain ⟨rfl, -⟩ := processed
              have step := @History.step items acc next (line.1, frame) past disposition history strict value event
              have policy := @processNormalizedEvent_validation items acc next (line.1, frame) disposition strict event
              have run := ih step policy later
              rw [List.append_assoc] at run
              exact run
    | done | ignore =>
      rw [parsed] at processed
      obtain ⟨rfl, -⟩ := Prod.mk.inj processed
      exact ih history strict later

/-- **Strict validation accepts only well-shaped streams.** The events of an accepted stream are the two that start the
response, a body, and one terminal event. In the body every item that is opened is completed once, and every other event
about it comes in between, with the id and the kind of the item. A listed output has one entry for each completed item, at
its index and of its kind, with ids that are distinct. Unless the response has failed, no two call ids of an item differ. -/
theorem strict_wellShaped (serde : SerdeJson) (items : ItemSerde) (response_id : Text) (conversation_id : Option Text) (model : Text)
    (previous_response_id instructions : Option Text) (lines : List (NewId × Text)) (result : ResponsePayload × List EventFrame)
    (accepted : streamPayload serde items .strict response_id conversation_id model previous_response_id instructions lines =
      .ok result) :
    ∃ body terminal own kind id, WellShaped items (readEvents serde items lines) body terminal own kind id := by
  unfold streamPayload at accepted
  split at accepted
  · simp at accepted
  rename_i acc frames read
  have start : History items (ResponseAccumulator.withValidation response_id conversation_id .strict) [] :=
    .awaitingCreated rfl rfl rfl
  obtain ⟨history, strict⟩ := start.lines rfl read
  have ended : acc.stream_lifecycle = .terminal := by
    by_contra going
    simp [ResponseAccumulator.finish, strict, ResponseAccumulator.finishStrictStream, going, Except.map] at accepted
  rw [List.nil_append] at history
  cases history with
  | terminal body event own kind id _ shaped => exact ⟨body, event, own, kind, id, shaped⟩
  | awaitingCreated at_ _ _ | created _ at_ _ _ _ | inProgress _ _ _ _ _ _ at_ _ _ _ _ =>
    rw [ended] at at_
    simp at at_

/-- A tool search call without a call id is added and never completed; a function call has no call id at all. -/
def callsWithoutIds : List (NewId × Text) :=
  [(id, "data: \x7b\"type\":\"response.created\",\"response\":\x7b\"id\":\"r\",\"status\":\"in_progress\"\x7d\x7d"),
    (id, "data: \x7b\"type\":\"response.in_progress\",\"response\":\x7b\"id\":\"r\",\"status\":\"in_progress\"\x7d\x7d"),
    (id, "data: \x7b\"type\":\"response.output_item.added\",\"output_index\":1,\"item\":\x7b\"type\":\"tool_search_call\",\"id\":\"ts\"\x7d\x7d"),
    (id, "data: \x7b\"type\":\"response.output_item.added\",\"output_index\":0,\"item\":\x7b\"type\":\"function_call\",\"id\":\"fc\",\"name\":\"f\"\x7d\x7d"),
    (id, "data: \x7b\"type\":\"response.output_item.done\",\"output_index\":0,\"item\":\x7b\"type\":\"function_call\",\"id\":\"fc\",\"name\":\"f\",\"arguments\":\"\x7b\x7d\"\x7d\x7d"),
    (id, "data: \x7b\"type\":\"response.completed\",\"response\":\x7b\"id\":\"r\",\"status\":\"completed\"\x7d\x7d")]

theorem strict_wellShaped_calls :
    let serde : SerdeJson := ⟨fun _ => none, fun _ => []⟩
    let items := ItemSerde.derived (fun _ => []) fun _ _ => false
    ∃ body terminal own kind id, WellShaped items (readEvents serde items callsWithoutIds) body terminal own kind id := by
  intro serde items
  have accepted : (streamPayload serde items .strict "r" none "m" none none callsWithoutIds).isOk = true := by decide +kernel
  obtain ⟨result, read⟩ := exists_of_isOk accepted
  exact strict_wellShaped serde items "r" none "m" none none callsWithoutIds result read

/-- Strict validation accepts an added tool search call that nothing completes, and a function call without a call id. -/
theorem callsWithoutIds_accepted :
    let serde : SerdeJson := ⟨fun _ => none, fun _ => []⟩
    let items := ItemSerde.derived (fun _ => []) fun _ _ => false
    let events := readEvents serde items callsWithoutIds
    (streamPayload serde items .strict "r" none "m" none none callsWithoutIds).isOk = true ∧
      (∃ added ∈ events, added.type = .outputItemAdded ∧ added.index = some 1 ∧
        (itemIdentity added.2 none).map ItemIdentity.item_type = some .toolSearchCall) ∧
      (∀ event ∈ events, event.type = .outputItemDone → event.index ≠ some 1) ∧
      ∃ done ∈ events, done.type = .outputItemDone ∧ (itemIdentity done.2 none).map ItemIdentity.item_type = some .functionCall ∧
        done.callId items = none := by
  decide +kernel

end AgenticStack
