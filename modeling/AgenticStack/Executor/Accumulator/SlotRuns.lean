import AgenticStack.Executor.Accumulator.Accumulator

/-!
# The slots over a stream

The two maps of a round stay consistent, and what is known of a slot stays known,
whatever lines come. What an event may do to the slots is said once, in
`SlotStep`.
-/

namespace AgenticStack
set_option autoImplicit false
open Library

/-- An id is mapped to an index exactly when the slot at that index carries it. -/
def SlotMap.WellFormed (m : SlotMap) : Prop :=
  ∀ id index, m.indexes_by_id.lookup id = some index ↔ ∃ slot, m.get index = some slot ∧ slot.item_id = some id

/-- No slots are well formed. -/
theorem SlotMap.WellFormed.empty : SlotMap.empty.WellFormed := by
  intro id index
  simp [SlotMap.empty, SlotMap.get]

/-- No two slots carry the same id. -/
theorem SlotMap.WellFormed.id_unique {m : SlotMap} {id : Text} {i j : Nat} {slot slot' : Slot} (wf : m.WellFormed)
    (at_i : m.get i = some slot) (at_j : m.get j = some slot') (left : slot.item_id = some id) (right : slot'.item_id = some id) :
    i = j := by
  have first := (wf id i).2 ⟨slot, at_i, left⟩
  have second := (wf id j).2 ⟨slot', at_j, right⟩
  rw [first, Option.some.injEq] at second
  exact second

/-- The id a slot has, its kind and its completion are there to stay. -/
structure Slot.Keeps (slot slot' : Slot) : Prop where
  id : ∀ id, slot.item_id = some id → slot'.item_id = some id
  kind : slot'.state.itemType = slot.state.itemType
  done : slot.state.isDone = true → slot'.state.isDone = true

/-- Slots are only added, and those that are there go on. -/
def SlotMap.Extends (m m' : SlotMap) : Prop :=
  ∀ index slot, m.get index = some slot → ∃ slot', m'.get index = some slot' ∧ slot.Keeps slot'

/-- What an event may do to the slots, with the `result` it has. -/
structure SlotStep {α : Type} (m m' : SlotMap) (result : ExecutorResult α) : Prop where
  wellFormed : m.WellFormed → m'.WellFormed
  kept : m.WellFormed → m' = .empty ∨ m.Extends m'
  rejected : ∀ error, result = .error error → m' = m

/-- What an event about an item may do to the slots: they are not drained. -/
structure ItemStep {α : Type} (m m' : SlotMap) (result : ExecutorResult α) : Prop where
  wellFormed : m.WellFormed → m'.WellFormed
  kept : m.WellFormed → m.Extends m'
  rejected : ∀ error, result = .error error → m' = m

variable {m : SlotMap} {index : Nat} {slot : Slot} {item_id : Option Text} {state : SlotState} {α : Type}

/-- A slot goes on as it is. -/
theorem Slot.Keeps.refl : slot.Keeps slot := ⟨fun _ same => same, rfl, fun done => done⟩

/-- The same slots extend themselves. -/
theorem SlotMap.Extends.refl : m.Extends m := fun _ slot here => ⟨slot, here, Slot.Keeps.refl⟩

/-- A step that changes nothing is a step. -/
theorem SlotStep.same {result : ExecutorResult α} : SlotStep m m result :=
  ⟨fun wf => wf, fun _ => .inr SlotMap.Extends.refl, fun _ _ => rfl⟩

/-- A step that changes nothing is a step at an item. -/
theorem ItemStep.same {result : ExecutorResult α} : ItemStep m m result :=
  ⟨fun wf => wf, fun _ => SlotMap.Extends.refl, fun _ _ => rfl⟩

/-- A step at an item is a step. -/
theorem ItemStep.step {m' : SlotMap} {result : ExecutorResult α} (step : ItemStep m m' result) : SlotStep m m' result :=
  ⟨step.wellFormed, fun wf => .inr (step.kept wf), step.rejected⟩

/-- The result of a step may be read in another way, as long as errors stay errors. -/
theorem SlotStep.map {β : Type} {m' : SlotMap} {result : ExecutorResult α} (step : SlotStep m m' result) (f : α → β) :
    SlotStep m m' (result.map f) := by
  refine ⟨step.wellFormed, step.kept, fun error failed => ?_⟩
  cases result with
  | error error => exact step.rejected error rfl
  | ok _ => simp [Except.map] at failed

namespace SlotMap

/-- The slot that was inserted is found at its index. -/
theorem get_insert_self : (m.insert index item_id state).get index = some ⟨item_id, state⟩ := lookup_insertEntry_self

/-- The other slots are found as before. -/
theorem get_insert_ne {other : Nat} (apart : other ≠ index) : (m.insert index item_id state).get other = m.get other :=
  lookup_insertEntry_ne apart

/-- An id is bound to the index it was inserted under, or as before. -/
theorem lookup_insert (id : Text) : (m.insert index item_id state).indexes_by_id.lookup id =
    if item_id = some id then some index else m.indexes_by_id.lookup id := by
  cases item_id with
  | none => rfl
  | some bound =>
    by_cases same : bound = id
    · subst same
      rw [if_pos rfl]
      exact lookup_insertEntry_self
    · rw [if_neg (by simpa using same)]
      exact lookup_insertEntry_ne fun h => same h.symm

/-- A slot may be put where no id is bound, under an id that is not bound. -/
theorem WellFormed.insert (wf : m.WellFormed) (unbound : ∀ slot, m.get index = some slot → slot.item_id = none)
    (fresh : ∀ id, item_id = some id → m.indexes_by_id.lookup id = none) : (m.insert index item_id state).WellFormed := by
  intro id other
  rw [lookup_insert]
  by_cases bound : item_id = some id
  · rw [if_pos bound, Option.some.injEq]
    constructor
    · rintro rfl
      exact ⟨_, get_insert_self, bound⟩
    · rintro ⟨slot, here, carries⟩
      by_contra apart
      rw [get_insert_ne fun same => apart same.symm] at here
      have known := (wf id other).2 ⟨slot, here, carries⟩
      rw [fresh id bound] at known
      simp at known
  · rw [if_neg bound, wf id other]
    by_cases here : other = index
    · subst here
      rw [get_insert_self]
      constructor
      · rintro ⟨slot, there, carries⟩
        rw [unbound slot there] at carries
        simp at carries
      · rintro ⟨slot, same, carries⟩
        rw [Option.some.injEq] at same
        subst same
        exact absurd carries bound
    · rw [get_insert_ne here]

/-- A slot is inserted where there is none, or where the one there goes on as the new one. -/
theorem extends_insert (keeps : ∀ slot, m.get index = some slot → slot.Keeps ⟨item_id, state⟩) :
    m.Extends (m.insert index item_id state) := by
  intro other slot there
  by_cases here : other = index
  · subst here
    exact ⟨_, get_insert_self, keeps slot there⟩
  · exact ⟨slot, by rw [get_insert_ne here, there], Slot.Keeps.refl⟩

/-- The state of a slot that is there is replaced. -/
theorem setState_of_get (here : m.get index = some slot) :
    m.setState index state = { m with slots := insertEntry m.slots index { slot with state } } := by
  rw [setState, here]

/-- The other slots stay as they are when the state of one is replaced. -/
theorem get_setState {other : Nat} (here : m.get index = some slot) :
    (m.setState index state).get other = if other = index then some { slot with state } else m.get other := by
  rw [setState_of_get here]
  by_cases same : other = index
  · subst same
    rw [if_pos rfl]
    exact lookup_insertEntry_self
  · rw [if_neg same]
    exact lookup_insertEntry_ne same

/-- The slots stay well formed when the state of one is replaced. -/
theorem WellFormed.setState (wf : m.WellFormed) (here : m.get index = some slot) : (m.setState index state).WellFormed := by
  intro id other
  have same : (m.setState index state).indexes_by_id = m.indexes_by_id := by rw [setState_of_get here]
  rw [same, wf id other, get_setState here]
  by_cases at_ : other = index
  · subst at_
    simp [here]
  · rw [if_neg at_]

/-- The state of a slot is replaced by one it goes on as. -/
theorem extends_setState (here : m.get index = some slot) (keeps : slot.Keeps { slot with state }) :
    m.Extends (m.setState index state) := by
  intro other there atOther
  rw [get_setState here]
  by_cases at_ : other = index
  · subst at_
    rw [here, Option.some.injEq] at atOther
    subst atOther
    exact ⟨_, if_pos rfl, keeps⟩
  · exact ⟨there, by rw [if_neg at_, atOther], Slot.Keeps.refl⟩

/-- Setting the state that is there changes nothing. -/
theorem setState_same (here : m.get index = some slot) : m.setState index slot.state = m := by
  rw [setState_of_get here]
  have same : insertEntry m.slots index slot = m.slots := insertEntry_of_lookup here
  exact congrArg (fun slots => { m with slots }) same

/-- An id is bound where the slot has none, or nothing changes. -/
theorem bindId_cases : m.bindId index item_id = m ∨
    ∃ id state, item_id = some id ∧ m.get index = some ⟨none, state⟩ ∧ m.bindId index item_id = m.insert index (some id) state := by
  unfold bindId
  split
  · rename_i id state here
    exact .inr ⟨id, state, rfl, here, rfl⟩
  · exact .inl rfl

/-- The slot an id is bound to keeps its state. -/
theorem get_bindId (here : m.get index = some slot) :
    ∃ slot', (m.bindId index item_id).get index = some slot' ∧ slot'.state = slot.state := by
  rcases @bindId_cases m index item_id with same | ⟨id, state, -, there, bound⟩
  · exact ⟨slot, by rw [same, here], rfl⟩
  · rw [here, Option.some.injEq] at there
    subst there
    rw [bound]
    exact ⟨_, get_insert_self, rfl⟩

variable {identity : ItemIdentity} {action : SlotAction} {validation : Validation}

/-- Two values that are both there and do not differ are the same. -/
theorem not_differ {β : Type} [DecidableEq β] {x y : Option β} (h : differ x y ≠ true) {a b : β} (left : x = some a)
    (right : y = some b) : a = b := by
  subst left
  subst right
  by_contra apart
  exact h (by simpa [differ] using apart)

/-- The index that is found is the index an id is bound to. -/
theorem resolveIndex_known {known : Nat} (agree : ¬ differ identity.index (m.knownIndex identity) = true)
    (found : m.resolveIndex identity action = .ok (some index)) (bound : m.knownIndex identity = some known) : known = index := by
  unfold resolveIndex at found
  rw [bound] at found agree
  cases given : identity.index with
  | none =>
    rw [given, Option.none_or] at found
    simpa using found
  | some supplied =>
    rw [given, Option.some_or] at found
    rw [← not_differ agree given rfl]
    simpa using found

/-- What is known of the slot an event may change. -/
structure Resolved (m : SlotMap) (identity : ItemIdentity) (action : SlotAction) (index : Nat) : Prop where
  known : ∀ id known, identity.item_id = some id → m.indexes_by_id.lookup id = some known → known = index
  slot : ∀ slot, m.get index = some slot → action ≠ .open ∧ slot.state.itemType = some identity.item_type ∧
    (slot.state.isDone = true → action = .complete)

/-- The slot that an event is about has its type, and the action suits its state. -/
theorem resolveSlot_ok {other : Nat} (resolved : resolveSlot slot index identity action validation = .ok (some other)) :
    other = index ∧ action ≠ .open ∧ slot.state.itemType = some identity.item_type ∧
      (slot.state.isDone = true → action = .complete) := by
  unfold resolveSlot at resolved
  split_ifs at resolved with opens apart kind skip done strict <;> try simp at resolved
  refine ⟨resolved.symm, opens, not_not.1 kind, fun isDone => ?_⟩
  by_contra other
  exact done ⟨isDone, .inl other⟩

/-- The slot that is found is one that the event is about. -/
theorem resolve_ok (resolved : m.resolve identity action validation = .ok (some index)) : Resolved m identity action index := by
  unfold resolve at resolved
  split at resolved
  · simp at resolved
  split at resolved
  · simp at resolved
  rename_i _ agree
  cases found : m.resolveIndex identity action with
  | error error => simp [found] at resolved
  | ok named =>
    rw [found] at resolved
    cases named with
    | none => simp at resolved
    | some target =>
      simp only at resolved
      have known {id : Text} {known : Nat} (has : identity.item_id = some id) (bound : m.indexes_by_id.lookup id = some known) :
          known = target := by
        refine resolveIndex_known agree found ?_
        rw [knownIndex, has]
        exact bound
      cases here : m.get target with
      | none =>
        rw [here] at resolved
        simp only at resolved
        have same : target = index := by
          split_ifs at resolved <;> simp at resolved
          · exact resolved
          · exact resolved
        subst same
        refine ⟨fun id other has bound => known has bound, fun slot there => ?_⟩
        rw [here] at there
        simp at there
      | some slot =>
        rw [here] at resolved
        simp only at resolved
        obtain ⟨rfl, allowed⟩ := resolveSlot_ok resolved
        refine ⟨fun id other has bound => known has bound, fun slot' there => ?_⟩
        rw [here, Option.some.injEq] at there
        subst there
        exact allowed

/-- Where there is no slot, the id of the event is not bound. -/
theorem Resolved.fresh (wf : m.WellFormed) (resolved : Resolved m identity action index)
    (unbound : ∀ slot, m.get index = some slot → slot.item_id = none) (id : Text) (has : identity.item_id = some id) :
    m.indexes_by_id.lookup id = none := by
  cases bound : m.indexes_by_id.lookup id with
  | none => rfl
  | some known =>
    obtain ⟨slot, here, carries⟩ := (wf id known).1 bound
    have same := resolved.known id known has bound
    subst same
    rw [unbound slot here] at carries
    simp at carries

/-- Binding the id of an event to the slot it is about keeps the slots well formed. -/
theorem Resolved.bindId (wf : m.WellFormed) (resolved : Resolved m identity action index) :
    (m.bindId index identity.item_id).WellFormed ∧ m.Extends (m.bindId index identity.item_id) := by
  rcases @bindId_cases m index identity.item_id with same | ⟨id, state, has, here, bound⟩
  · rw [same]
    exact ⟨wf, Extends.refl⟩
  · have unbound (slot : Slot) (there : m.get index = some slot) : slot.item_id = none := by
      rw [here, Option.some.injEq] at there
      rw [← there]
    rw [bound]
    refine ⟨wf.insert unbound fun id' same => ?_, extends_insert fun slot there => ?_⟩
    · exact resolved.fresh wf unbound id' (has.trans same)
    · rw [here, Option.some.injEq] at there
      subst there
      exact ⟨fun _ none => by simp at none, rfl, fun done => done⟩

end SlotMap

/-- Slots that were extended twice were extended. -/
theorem SlotMap.Extends.trans {m' m'' : SlotMap} (first : m.Extends m') (second : m'.Extends m'') : m.Extends m'' := by
  intro index slot here
  obtain ⟨slot', here', keeps⟩ := first index slot here
  obtain ⟨slot'', here'', keeps'⟩ := second index slot' here'
  exact ⟨slot'', here'', fun id same => keeps'.id id (keeps.id id same), keeps'.kind.trans keeps.kind,
    fun done => keeps'.done (keeps.done done)⟩

variable {items : ItemSerde} {newId : NewId} {payload : EventPayload} {active : ActiveItem}

/-- An event of a shell command leaves a shell call. -/
theorem ActiveItem.applyShellCommand_spec (item : ShellCall) (stream : Option (List Bool)) (buffer : Text) (i : Nat)
    (update : ShellCommandUpdate) :
    (applyShellCommand items newId item stream buffer payload i update).1.itemType = .shellCall ∧
      ∀ error, (applyShellCommand items newId item stream buffer payload i update).2 = .error error →
        (applyShellCommand items newId item stream buffer payload i update).1 = .shellCall item stream buffer := by
  cases update <;> simp only [applyShellCommand] <;> split_ifs <;> simp [itemType]

/-- Folding an event keeps the kind of an item; one that fails changes nothing. -/
theorem ActiveItem.applyEvent_spec : (active.applyEvent items newId payload).1.itemType = active.itemType ∧
    ∀ error, (active.applyEvent items newId payload).2 = .error error → (active.applyEvent items newId payload).1 = active := by
  unfold applyEvent
  split
  · exact applyShellCommand_spec ..
  all_goals exact ⟨rfl, fun _ none => by simp at none⟩

/-- The last event of an item leaves its type as it is. -/
theorem ActiveItem.applyOutputItemDone_itemType (done_item : Option OutputItem) (item_id : Text) :
    (active.applyOutputItemDone items newId payload done_item item_id).itemType = active.itemType := by
  unfold applyOutputItemDone
  split <;> rfl

/-- An item that is finished has the type it was opened with. -/
theorem ActiveItem.finalize_ofItem {item : OutputItem} (finished : active.finalize = some item) :
    SSEItemType.ofItem item = some active.itemType := by
  cases active <;> simp only [finalize, Option.some.injEq, Option.map_eq_some_iff] at finished
  case webSearchCall =>
    obtain ⟨_, -, rfl⟩ := finished
    rfl
  all_goals
    subst finished
    rfl

/-- What would complete an open item is of its type. -/
theorem SlotState.completionCandidate_active {done_item : Option OutputItem} {id : Text} {item : OutputItem}
    (candidate : (SlotState.active active).completionCandidate items newId payload done_item id = some item) :
    SSEItemType.ofItem item = some active.itemType := by
  have finished : (active.applyOutputItemDone items newId payload done_item id).finalize = some item := candidate
  rw [ActiveItem.finalize_ofItem finished, ActiveItem.applyOutputItemDone_itemType]

variable {identity : ItemIdentity} {validation : Validation}

/-- A step that never fails may change the slots. -/
theorem ItemStep.ok {m' : SlotMap} {a : α} (wellFormed : m.WellFormed → m'.WellFormed) (kept : m.WellFormed → m.Extends m') :
    ItemStep m m' (.ok a : ExecutorResult α) :=
  ⟨wellFormed, kept, fun _ none => by simp at none⟩

namespace SlotMap

/-- Opening an item is a step at that item. -/
theorem open_step : ItemStep m (m.open newId identity payload validation).1 (m.open newId identity payload validation).2 := by
  unfold SlotMap.open
  cases resolved : m.resolve identity .open validation with
  | error error => exact ItemStep.same
  | ok named =>
    cases named with
    | none => exact ItemStep.same
    | some index =>
      cases added : ActiveItem.fromAdded newId payload with
      | none => exact ItemStep.same
      | some item =>
        have at_ := resolve_ok resolved
        have nothing (slot : Slot) (here : m.get index = some slot) : False := (at_.slot slot here).1 rfl
        refine ItemStep.ok (fun wf => ?_) (fun _ => ?_)
        · refine wf.insert (fun slot here => (nothing slot here).elim) ?_
          exact at_.fresh wf fun slot here => (nothing slot here).elim
        · exact extends_insert fun slot here => (nothing slot here).elim

/-- An event of an item is a step at that item. -/
theorem apply_step : ItemStep m (m.apply items newId identity payload validation).1
    (m.apply items newId identity payload validation).2 := by
  unfold apply
  cases resolved : m.resolve identity .mutate validation with
  | error error => exact ItemStep.same
  | ok named =>
    cases named with
    | none => exact ItemStep.same
    | some index =>
      have at_ := resolve_ok resolved
      have binds : ItemStep m (m.bindId index identity.item_id) (.ok (some index) : ExecutorResult (Option Nat)) :=
        ItemStep.ok (fun wf => (at_.bindId wf).1) fun wf => (at_.bindId wf).2
      simp only
      cases here : m.get index with
      | none => exact binds
      | some slot =>
        obtain ⟨carried, state⟩ := slot
        cases state with
        | done item => exact binds
        | active item =>
          simp only [Option.map_some]
          obtain ⟨kind, unchanged⟩ := @ActiveItem.applyEvent_spec items newId payload item
          generalize item.applyEvent items newId payload = folded at kind unchanged
          obtain ⟨item', result⟩ := folded
          simp only at kind unchanged ⊢
          cases result with
          | error error =>
            have same := unchanged error rfl
            subst same
            rw [setState_same here]
            exact ItemStep.same
          | ok done =>
            have keeps : Slot.Keeps ⟨carried, .active item⟩ ⟨carried, .active item'⟩ :=
              ⟨fun _ same => same, congrArg some kind, fun done => done⟩
            -- the slot still has the id it had, so the event's id is bound as it would have been before
            have extended := extends_setState here keeps
            have later : Resolved (m.setState index (.active item')) identity .mutate index := by
              refine ⟨fun id known has bound => ?_, fun slot' there => ?_⟩
              · rw [setState_of_get here] at bound
                exact at_.known id known has bound
              · obtain ⟨opens, kind', isDone⟩ := at_.slot _ here
                rw [get_setState here, if_pos rfl, Option.some.injEq] at there
                subst there
                exact ⟨opens, (congrArg some kind).trans kind', fun done => by simp [SlotState.isDone] at done⟩
            refine ItemStep.ok (fun wf => ?_) (fun wf => ?_)
            · exact (later.bindId (wf.setState here)).1
            · exact extended.trans (later.bindId (wf.setState here)).2

/-- Completing a slot is a step at its item. -/
theorem completeSlot_step {index : Nat} {parsed : Option OutputItem} {action : SlotAction} (here : m.get index = some slot)
    (at_ : Resolved m identity action index) :
    ItemStep m (completeSlot items newId m slot index identity payload parsed).1
      (completeSlot items newId m slot index identity payload parsed).2 := by
  unfold completeSlot
  split
  · exact ItemStep.same
  obtain ⟨carried, state⟩ := slot
  cases state with
  | done previous =>
    simp only
    split
    · exact ItemStep.ok (fun wf => (at_.bindId wf).1) fun wf => (at_.bindId wf).2
    · exact ItemStep.same
  | active item =>
    simp only
    split
    · rename_i finished candidate
      obtain ⟨slot', there, same⟩ := @get_bindId m index _ identity.item_id here
      have kind := SlotState.completionCandidate_active candidate
      have keeps : slot'.Keeps { slot' with state := .done finished } := by
        refine ⟨fun _ same => same, ?_, fun _ => rfl⟩
        rw [same]
        exact kind
      refine ItemStep.ok (fun wf => ?_) (fun wf => ?_)
      · exact (at_.bindId wf).1.setState there
      · exact (at_.bindId wf).2.trans (extends_setState there keeps)
    · exact ItemStep.same

/-- Completing an item is a step at that item. -/
theorem complete_step {validated : Option OutputItem} :
    ItemStep m (m.complete items newId identity payload validated validation).1
      (m.complete items newId identity payload validated validation).2 := by
  unfold complete
  split
  · exact ItemStep.same
  · rename_i index _ _ _ raw resolved
    have at_ := resolve_ok resolved
    cases here : m.get index with
    | some slot => exact completeSlot_step here at_
    | none =>
      have nothing (slot : Slot) (there : m.get index = some slot) : False := by simp [here] at there
      simp only
      split
      · refine ItemStep.ok (fun wf => ?_) (fun _ => ?_)
        · refine wf.insert (fun slot there => (nothing slot there).elim) ?_
          exact at_.fresh wf fun slot there => (nothing slot there).elim
        · exact extends_insert fun slot there => (nothing slot there).elim
      · exact ItemStep.same
  · exact ItemStep.same

end SlotMap

namespace ResponseAccumulator

variable {acc : ResponseAccumulator} {frame : EventFrame} {validated : Option ValidatedFrame}

/-- Whatever an item event does is a step at that item. -/
theorem applyToSlots_step : ItemStep m (applyToSlots items newId m frame identity validated validation).1
    (applyToSlots items newId m frame identity validated validation).2 := by
  unfold applyToSlots
  split
  · exact SlotMap.open_step
  · exact SlotMap.complete_step
  · exact SlotMap.apply_step

/-- Noting a call id leaves the slots as they are. -/
theorem observeEvent_slots {index : Nat} : (acc.observeEvent index payload).slots = acc.slots := by
  unfold observeEvent
  split <;> rfl

/-- The event of an item takes a step. -/
theorem processItemEvent_step : SlotStep acc.slots (acc.processItemEvent items newId frame validated).1.slots
    (acc.processItemEvent items newId frame validated).2 := by
  unfold processItemEvent
  cases itemIdentity frame validated with
  | none => exact SlotStep.same
  | some identity =>
    have step := (@applyToSlots_step acc.slots items newId identity acc.validation frame validated).step
    simp only
    generalize applyToSlots items newId acc.slots frame identity validated acc.validation = applied at step
    obtain ⟨slots, result⟩ := applied
    have again := step.map fun index => EventDisposition.item index
    cases result with
    | error error => exact again
    | ok named =>
      cases named with
      | none => exact again
      | some index =>
        simp only
        split
        · rw [observeEvent_slots]
          exact again
        · exact again

/-- Ending the response takes a step. -/
theorem finished_step {status : ResponseStatus} {usage : Option ResponseUsage} {disposition : EventDisposition} :
    SlotStep acc.slots (acc.finishResponse status usage).slots (.ok disposition : ExecutorResult EventDisposition) := by
  have drained : (acc.finishResponse status usage).slots = .empty := rfl
  rw [drained]
  exact ⟨fun _ => SlotMap.WellFormed.empty, fun _ => .inl rfl, fun _ none => by simp at none⟩

/-- An event that is in its place takes a step. -/
theorem processEventChecked_step : SlotStep acc.slots (acc.processEventChecked items newId frame validated).1.slots
    (acc.processEventChecked items newId frame validated).2 := by
  unfold processEventChecked
  split
  · split
    · exact processItemEvent_step
    · exact SlotStep.same
  · exact SlotStep.same
  · exact finished_step
  · exact finished_step
  · exact finished_step
  · exact processItemEvent_step

/-- Nothing has changed, the call ids that are recorded aside. -/
def RecordsCalls (acc acc' : ResponseAccumulator) : Prop := acc' = { acc with strict_call_ids := acc'.strict_call_ids }

/-- Checking the items of the last event only notes call ids. -/
theorem checkTerminalItems_records {output : List Json} {output_index : Nat} {seen : List Text} :
    acc.RecordsCalls (acc.checkTerminalItems items newId output_index seen output).1 := by
  induction output generalizing acc output_index seen with
  | nil => rfl
  | cons item output ih =>
    rw [checkTerminalItems]
    split
    · rfl
    · exact ih

/-- Checking the last event only notes call ids. -/
theorem validateTerminalOutput_records {enforce : Bool} :
    acc.RecordsCalls (acc.validateTerminalOutput items newId frame enforce).1 := by
  unfold validateTerminalOutput
  simp only
  split
  · rfl
  · split
    · rfl
    · split
      · rfl
      · rfl
      · split
        · rfl
        · rename_i output _ _
          have same := @checkTerminalItems_records items newId acc output 0 []
          generalize acc.checkTerminalItems items newId 0 [] output = checked at same
          obtain ⟨acc', result⟩ := checked
          cases result <;> exact same
      · rfl

/-- What comes when only changes the call ids that are recorded. -/
theorem validateStrictTransition_records : acc.RecordsCalls (acc.validateStrictTransition items newId frame).1 := by
  unfold validateStrictTransition
  simp only
  split
  · rfl
  · split
    · rfl
    · rfl
    all_goals first
      | rfl
      | split
        · rfl
        · split
          · rfl
          · exact validateTerminalOutput_records

/-- The details of the last event leave the slots as they are. -/
theorem captureTerminalDetailsIfNeeded_slots : (acc.captureTerminalDetailsIfNeeded items frame).slots = acc.slots := by
  unfold captureTerminalDetailsIfNeeded captureTerminalDetails
  split
  · split <;> rfl
  · rfl

/-- Every event takes a step. -/
theorem processNormalizedEvent_step : SlotStep acc.slots (acc.processNormalizedEvent items newId frame).1.slots
    (acc.processNormalizedEvent items newId frame).2 := by
  have checked {acc' : ResponseAccumulator} (same : acc'.slots = acc.slots) (validated : Option ValidatedFrame) :
      SlotStep acc.slots ((acc'.captureTerminalDetailsIfNeeded items frame).processEventChecked items newId frame validated).1.slots
        ((acc'.captureTerminalDetailsIfNeeded items frame).processEventChecked items newId frame validated).2 := by
    have step := @processEventChecked_step items newId (acc'.captureTerminalDetailsIfNeeded items frame) frame validated
    rwa [captureTerminalDetailsIfNeeded_slots, same] at step
  unfold processNormalizedEvent
  split
  · exact checked rfl none
  · split
    · exact SlotStep.same
    · have same := congrArg slots (@validateStrictTransition_records items newId acc frame)
      generalize acc.validateStrictTransition items newId frame = transition at same
      obtain ⟨acc', result⟩ := transition
      cases result with
      | error error =>
        simp only at same ⊢
        rw [same]
        exact SlotStep.same
      | ok _ => exact checked same _

/-- What one line may do to the slots. -/
theorem processLine_step {serde : SerdeJson} {line : ClassifiedSseLine} :
    SlotStep acc.slots (acc.processLine items newId serde line).1.slots (acc.processLine items newId serde line).2 := by
  unfold processLine
  split
  · split
    · exact SlotStep.same
    · exact SlotStep.same
    · exact processNormalizedEvent_step.map _
  · exact SlotStep.same

/-- The lines of a stream one after the other, each with the ids that are made on it. -/
def processLines (serde : SerdeJson) (items : ItemSerde) (acc : ResponseAccumulator) (lines : List (NewId × Text)) :
    ResponseAccumulator :=
  lines.foldl (fun acc line => (acc.processLine items line.1 serde (SseLine.parse line.2)).1) acc

/-- The slots stay well formed whatever lines are read. -/
theorem processLines_wellFormed {serde : SerdeJson} {lines : List (NewId × Text)} (wf : acc.slots.WellFormed) :
    (processLines serde items acc lines).slots.WellFormed := by
  induction lines generalizing acc with
  | nil => exact wf
  | cons line lines ih => exact ih (processLine_step.wellFormed wf)

end ResponseAccumulator

/-- **The slots stay well formed over any stream**, under either policy, and go on from the errors in it:
an id is mapped to the slot that carries it and no other slot does; a line keeps every slot's id and kind
and leaves a completed slot completed, or drains the slots; a rejected line leaves both maps as they were. -/
theorem slots_wellFormed (serde : SerdeJson) (items : ItemSerde) (validation : Validation) (response_id : Text)
    (conversation_id : Option Text) (lines : List (NewId × Text)) :
    let acc := (ResponseAccumulator.withValidation response_id conversation_id validation).processLines serde items lines
    acc.slots.WellFormed ∧
      (∀ i j slot slot' id, acc.slots.get i = some slot → acc.slots.get j = some slot' → slot.item_id = some id →
        slot'.item_id = some id → i = j) ∧
      ∀ newId line, let (acc', result) := acc.processLine items newId serde (SseLine.parse line)
        (acc'.slots = .empty ∨ acc.slots.Extends acc'.slots) ∧
          ∀ error, result = .error error → acc'.slots = acc.slots := by
  intro acc
  have wf : acc.slots.WellFormed := ResponseAccumulator.processLines_wellFormed SlotMap.WellFormed.empty
  refine ⟨wf, fun i j slot slot' id at_i at_j => wf.id_unique at_i at_j, fun newId line => ?_⟩
  have step := @ResponseAccumulator.processLine_step items newId acc serde (SseLine.parse line)
  exact ⟨step.kept wf, step.rejected⟩

end AgenticStack
