import AgenticStack.Executor.Commit
import AgenticStack.Storage.ConversationRuns

/-!
# The calls of committed turns

A history can be continued while each of its calls has an id and no two have the same. A committed
turn adds calls that keep this; a turn that does not is refused before anything is stored.
-/

namespace AgenticStack
set_option autoImplicit false
open Library

/-- Each call has an id of its own. -/
structure CleanCalls (call_ids : List Text) : Prop where
  named : [] ∉ call_ids
  once : call_ids.Nodup

/-- The ids of the calls of an output. -/
def outputCallIds (output_items : List OutputItem) : List Text := output_items.filterMap OutputItem.callId

/-- The ids of the calls of an input. -/
def inputCallIds (items : List InputItem) : List Text := items.filterMap InputItem.callId

/-- The calls of an output can be stored behind the calls `continued`. -/
structure Admissible (continued : List Text) (output_items : List OutputItem) : Prop extends
    CleanCalls (outputCallIds output_items) where
  fresh : ∀ id ∈ continued, id ∉ outputCallIds output_items

/-- A row of the item gives back no other call id. -/
def ItemCodec.KeepsCall {Row : Type} (codec : ItemCodec Row) (item : InOutItem) : Prop :=
  ∀ read, codec.read (codec.write item) = some read → read.callId = item.callId

/-- The mark of the store leaves the id of a call as it is. -/
theorem InOutItem.callId_withoutMarker (item : InOutItem) : item.withoutMarker.callId = item.callId := by
  cases item with
  | input item => cases item <;> rfl
  | output item => cases item <;> rfl

/-- An item that its row can hold. -/
theorem InOutItem.Storable.keepsCall {serde : SerdeJson} {newId : NewId} {item : InOutItem} (stored : item.Storable serde) :
    (ItemCodec.rows serde newId).KeepsCall item := by
  intro read here
  have made : some item.withoutMarker = some read := (Item.asInout_toRow stored).symm.trans here
  cases made
  exact item.callId_withoutMarker

section
variable {items more : List InOutItem} {output_items : List OutputItem} {input_items : List InputItem}
  {continued call_ids : List Text}

/-- The calls of two lists are those of both. -/
theorem callIdsOf_append : callIdsOf (items ++ more) = callIdsOf items ++ callIdsOf more := List.filterMap_append

/-- The calls of an output are those of its items. -/
theorem callIdsOf_output : callIdsOf (output_items.map .output) = outputCallIds output_items := by
  rw [callIdsOf, List.filterMap_map]
  rfl

/-- The calls of an input are those of its items. -/
theorem callIdsOf_input : callIdsOf (input_items.map .input) = inputCallIds input_items := by
  rw [callIdsOf, List.filterMap_map]
  rfl

/-- Fewer calls are clean where all are. -/
theorem CleanCalls.sublist {fewer : List Text} (clean : CleanCalls call_ids) (sub : fewer.Sublist call_ids) : CleanCalls fewer :=
  ⟨fun here => clean.named (sub.subset here), clean.once.sublist sub⟩

/-- Some of an admissible output. -/
theorem Admissible.sublist {fewer : List OutputItem} (h : Admissible continued output_items)
    (sub : fewer.Sublist output_items) : Admissible continued fewer :=
  have sub := sub.filterMap OutputItem.callId
  ⟨h.toCleanCalls.sublist sub, fun id known here => h.fresh id known (sub.subset here)⟩

/-- Behind calls that were checked, an admissible output keeps the history clean. -/
theorem Admissible.append (h : Admissible continued output_items) (clean : CleanCalls call_ids)
    (checked : ∀ id ∈ call_ids, id ∈ continued) : CleanCalls (call_ids ++ outputCallIds output_items) := by
  constructor
  · intro here
    rcases List.mem_append.1 here with earlier | new
    · exact clean.named earlier
    · exact h.named new
  · refine List.nodup_append'.2 ⟨clean.once, h.once, ?_⟩
    intro id earlier new
    exact h.fresh id (checked id earlier) new

/-- What rows give back has no other calls than what was written to them. -/
theorem callIdsOf_readBack {Row : Type} {codec : ItemCodec Row} (keeps : ∀ item ∈ items, codec.KeepsCall item) :
    (callIdsOf (ResponseStore.readBack codec items)).Sublist (callIdsOf items) := by
  induction items with
  | nil => exact .slnil
  | cons item items ih =>
    have rest := ih fun other mem => keeps other (List.mem_cons_of_mem _ mem)
    have here := keeps item List.mem_cons_self
    have written : callIdsOf (item :: items) = (item.callId).toList ++ callIdsOf items := by
      rw [callIdsOf, List.filterMap_cons]
      cases item.callId <;> rfl
    rw [written, ResponseStore.readBack, List.filterMap_cons]
    cases read : codec.read (codec.write item) with
    | none => exact rest.trans (List.sublist_append_right _ _)
    | some found =>
      have same : callIdsOf (found :: ResponseStore.readBack codec items) =
          (item.callId).toList ++ callIdsOf (ResponseStore.readBack codec items) := by
        rw [callIdsOf, List.filterMap_cons, here found read]
        cases item.callId <;> rfl
      exact same ▸ rest.append_left _

end

section
variable {index : Nat} {call_ids all : OutputCalls} {output_items : List OutputItem}

/-- The call of an item is the call it is stored as. -/
theorem OutputItem.call_id (item : OutputItem) : item.call.map Prod.snd = item.callId := by cases item <;> rfl

/-- The calls that are collected have ids of their own. -/
theorem collectCallIds_ok (h : collectCallIds index call_ids output_items = .ok all) :
    CleanCalls (outputCallIds output_items) ∧ (∀ id ∈ outputCallIds output_items, id ∉ call_ids.map Prod.fst) ∧
      ∀ id, id ∈ all.map Prod.fst ↔ id ∈ call_ids.map Prod.fst ∨ id ∈ outputCallIds output_items := by
  induction output_items generalizing index call_ids with
  | nil =>
    cases h
    exact ⟨⟨List.not_mem_nil, .nil⟩, fun id no => absurd no List.not_mem_nil, fun id => by simp [outputCallIds]⟩
  | cons item items ih =>
    rw [collectCallIds] at h
    have named := item.call_id
    cases call : item.call with
    | none =>
      rw [call] at h named
      have skipped : outputCallIds (item :: items) = outputCallIds items := List.filterMap_cons_none named.symm
      rw [skipped]
      exact ih h
    | some found =>
      obtain ⟨item_type, call_id⟩ := found
      rw [call] at h named
      have taken : outputCallIds (item :: items) = call_id :: outputCallIds items := List.filterMap_cons_some named.symm
      dsimp only at h
      split at h
      · cases h
      · rename_i nonempty
        split at h
        · cases h
        · rename_i unknown
          obtain ⟨clean, apart, listed⟩ := ih h
          have absent : call_id ∉ call_ids.map Prod.fst := lookup_eq_none_iff_key.1 unknown
          rw [taken]
          refine ⟨⟨?_, List.nodup_cons.2 ⟨fun again => ?_, clean.once⟩⟩, ?_, ?_⟩
          · intro here
            rcases List.mem_cons.1 here with same | later
            · exact nonempty same.symm
            · exact clean.named later
          · exact apart call_id again (mem_keys_insertEntry.2 (.inl rfl))
          · intro id here known
            rcases List.mem_cons.1 here with rfl | later
            · exact absent known
            · exact apart id later (mem_keys_insertEntry.2 (.inr known))
          · intro id
            rw [listed, mem_keys_insertEntry, List.mem_cons]
            constructor
            · rintro ((same | known) | later)
              · exact .inr (.inl same)
              · exact .inl known
              · exact .inr (.inr later)
            · rintro (known | same | later)
              · exact .inl (.inr known)
              · exact .inl (.inl same)
              · exact .inr later

/-- An id that passes the check is the id of no call of the output. -/
theorem validateCallIds_ok {place : Text} {ids : List (Option Text)} (h : validateCallIds call_ids place index ids = .ok ()) :
    ∀ id ∈ ids.filterMap (fun id => id), id ∉ call_ids.map Prod.fst := by
  induction ids generalizing index with
  | nil => exact fun id no => absurd no List.not_mem_nil
  | cons id ids ih =>
    rw [validateCallIds] at h
    split at h
    · cases h
    · rename_i apart
      have rest := ih h
      cases id with
      | none => exact rest
      | some call_id =>
        intro other here
        rcases List.mem_cons.1 here with rfl | later
        · exact lookup_eq_none_iff_key.1 apart
        · exact rest other later

end

namespace Commit

section
variable {Row : Type} (codec : ItemCodec Row)

/-- The calls that the check holds the output against: those of a session's effective window, else
those of the response before and of the request's input. -/
def continuedCallIds (db : ConversationStore Row) (ctx : CommitContext) : Except StorageError (List Text) :=
  if ctx.request.continuation.isSome then .ok (inputCallIds ctx.request.enriched_request.input.modelItems)
  else (rehydratePrevious codec db.responseStore ctx.request.original_request.previous_response_id).map fun history =>
    callIdsOf history ++ inputCallIds ctx.request.new_input_items

end

section
variable {Row : Type} {codec : ItemCodec Row} {db : ConversationStore Row} {ctx : CommitContext} {output_items : List OutputItem}
  {continued : List Text}

/-- An output without calls may follow anything. -/
theorem admissible_nil (no : outputCallIds output_items = []) : Admissible continued output_items := by
  refine ⟨⟨?_, ?_⟩, ?_⟩
  · rw [no]
    exact List.not_mem_nil
  · rw [no]
    exact .nil
  · intro id _
    rw [no]
    exact List.not_mem_nil

/-- **What the check accepts** can be stored behind the calls it looked at. -/
theorem validateOutputCallIds_ok (h : validateOutputCallIds codec db ctx output_items = .ok ())
    (known : continuedCallIds codec db ctx = .ok continued) : Admissible continued output_items := by
  unfold validateOutputCallIds at h
  obtain ⟨call_ids, collected, h⟩ := bind_eq_ok.1 h
  obtain ⟨clean, -, listed⟩ := collectCallIds_ok collected
  have keys (id : Text) : id ∈ call_ids.map Prod.fst ↔ id ∈ outputCallIds output_items := by
    rw [listed]
    simp
  by_cases empty : call_ids = []
  · subst empty
    apply admissible_nil
    apply List.eq_nil_iff_forall_not_mem.2
    intro id here
    exact absurd ((keys id).2 here) List.not_mem_nil
  · have some : call_ids.isEmpty = false := by
      cases call_ids with
      | nil => exact absurd rfl empty
      | cons entry entries => rfl
    rw [some] at h
    refine ⟨clean, fun id there here => ?_⟩
    have listed : id ∈ call_ids.map Prod.fst := (keys id).2 here
    unfold continuedCallIds at known
    cases leased : ctx.request.continuation.isSome with
    | true =>
      rw [leased] at h known
      cases known
      refine validateCallIds_ok h id ?_ listed
      rw [List.filterMap_map]
      exact there
    | false =>
      rw [leased] at h known
      cases read : rehydratePrevious codec db.responseStore ctx.request.original_request.previous_response_id with
      | error e =>
        rw [read] at known
        cases known
      | ok history =>
        rw [read] at h known
        cases known
        obtain ⟨_, earlier, h⟩ := bind_eq_ok.1 h
        rcases List.mem_append.1 there with before | new
        · refine validateCallIds_ok earlier id ?_ listed
          rw [List.filterMap_map]
          exact before
        · refine validateCallIds_ok h id ?_ listed
          rw [List.filterMap_map]
          exact new

/-- The check leaves nothing to the order of the calls: without a session it sees all of them. -/
theorem continuedCallIds_response {rows : List InOutItem} (bare : ctx.request.continuation = none)
    (before : ResponseStore.Before codec db.responseStore ctx.request.original_request.previous_response_id rows) :
    continuedCallIds codec db ctx = .ok (callIdsOf rows ++ inputCallIds ctx.request.new_input_items) := by
  unfold continuedCallIds
  rw [bare, Option.isSome_none, if_neg Bool.false_ne_true]
  cases before' : ctx.request.original_request.previous_response_id with
  | none =>
    rw [before'] at before
    cases before
    rfl
  | some previous_id =>
    rw [before'] at before
    cases before with
    | after read =>
      show (db.responseStore.rehydrate codec previous_id).map _ = _
      rw [read]
      rfl

end
end Commit

namespace CommitContext

/-- What a turn writes before its output: a parent that was never stored, and its input. -/
def writtenBefore (ctx : CommitContext) : List InOutItem :=
  (match ctx.request.continuation with
    | some lease => if Engine.transientParent ctx.request.continuation ctx.parent then
        (lease.parentItems ctx.parent).map .input else []
    | none => []) ++ ctx.request.new_input_items.map .input

/-- The items that a commit writes. -/
def writtenItems (ctx : CommitContext) (output_items : List OutputItem) : List InOutItem :=
  if ctx.request.original_request.conversation_id.isSome then
    ctx.request.new_input_items.map .input ++ output_items.map .output
  else ctx.request.writtenItems ctx.parent output_items

/-- A session's window has the calls `call_ids`. Without a session nothing is asked. -/
def Covers (ctx : CommitContext) (call_ids : List Text) : Prop :=
  ctx.request.continuation.isSome = true → ∀ id ∈ call_ids, id ∈ inputCallIds ctx.request.enriched_request.input.modelItems

/-- A payload that is stored, or made a checkpoint. -/
def Stores (ctx : CommitContext) (payload : ResponsePayload) : Prop :=
  Commit.isStoredStatus payload.status = true ∧ payload.id ≠ [] ∧ shouldPersist ctx.request = true

end CommitContext

section
variable {ctx : CommitContext} {output_items : List OutputItem}

/-- A turn keeps items of its output, in order. -/
theorem Engine.retainedOutputs_sublist (continuation : Option ResponseContinuation) (output_items : List OutputItem) :
    (Engine.retainedOutputs continuation output_items).Sublist output_items := by
  have sub := (List.filter_sublist (p := fun (entry : OutputItem × Nat) =>
    continuation.all fun lease => lease.retainsOutput entry.2 entry.1) (l := output_items.zipIdx)).map Prod.fst
  rw [List.zipIdx_map_fst] at sub
  exact sub

/-- What is written of a turn is its input and what it keeps of its output. -/
theorem writtenItems_eq : ctx.request.writtenItems ctx.parent output_items =
    ctx.writtenBefore ++ (Engine.retainedOutputs ctx.request.continuation output_items).map .output := by
  unfold Engine.RequestContext.writtenItems CommitContext.writtenBefore Engine.RequestContext.savedItems
  cases leased : ctx.request.continuation with
  | none => rfl
  | some lease =>
    dsimp only
    split
    · rw [List.append_assoc]
    · rfl

/-- History as input has no other calls. -/
theorem inputCallIds_intoInputItems (items : List InOutItem) : (inputCallIds (intoInputItems items)).Sublist (callIdsOf items) := by
  induction items with
  | nil => exact .slnil
  | cons item items ih =>
    have split : intoInputItems (item :: items) = intoInputItems [item] ++ intoInputItems items := intoInputItems_append [item] items
    have here : (inputCallIds (intoInputItems [item])).Sublist (callIdsOf [item]) := by
      cases item with
      | input item => cases item <;> exact List.Sublist.refl _
      | output item =>
        cases item with
        | toolSearchCall call =>
          by_cases completed : call.status = .completed
          · have made : call.toInput = some ⟨call.id, call.call_id, call.execution, call.arguments, .completed⟩ := by
              rw [ToolSearchCall.toInput, if_neg fun no => no completed]
            have history : InOutItem.toHistory (.output (.toolSearchCall call)) =
                some (.toolSearchCall ⟨call.id, call.call_id, call.execution, call.arguments, .completed⟩) := by
              show call.toInput.map InputItem.toolSearchCall = _
              rw [made]
              rfl
            rw [intoInputItems, List.filterMap_cons_some history]
            exact List.Sublist.refl _
          · have history : InOutItem.toHistory (.output (.toolSearchCall call)) = none := by
              show call.toInput.map InputItem.toolSearchCall = none
              rw [ToolSearchCall.toInput, if_pos completed]
              rfl
            rw [intoInputItems, List.filterMap_cons_none history]
            exact List.nil_sublist _
        | _ => exact List.Sublist.refl _
    rw [split, inputCallIds, List.filterMap_append, show callIdsOf (item :: items) = callIdsOf [item] ++ callIdsOf items from
      @callIdsOf_append [item] items]
    exact here.append ih

/-- A canonical history leaves items out and moves none. -/
theorem canonicalSessionHistory_sublist (history : List InputItem) : (canonicalSessionHistory history).Sublist history := by
  unfold canonicalSessionHistory
  split
  · exact .refl _
  · rename_i window _
    have sub := (List.filter_sublist (p := fun (entry : InputItem × Nat) =>
      window.latest_index ≤ entry.2 || window.retainsUserItem entry.2 entry.1 || entry.1.isMcpListTools)
      (l := history.zipIdx)).map Prod.fst
    rw [List.zipIdx_map_fst] at sub
    exact sub

end

namespace Commit

section
variable {Row : Type} {codec : ItemCodec Row} {retain publish : ResponseCheckpoint → ExecutorResult Unit}
  {storageText : ConversationError → Text} {fails : Bool} {db db' : ConversationStore Row} {ctx : CommitContext}
  {payload : ResponsePayload} {output_items : List OutputItem} {continued : List Text}

/-- A turn fails by a storage error where the store fails. -/
theorem mapError_ok {turn : Persistence} : turn.mapError.result = .ok () ↔ turn.result = .ok () := by
  unfold Persistence.mapError
  dsimp only
  split <;> simp_all

/-- A committed turn was checked, and written if it is to be stored. -/
theorem commit_ok {p : ResponsePayload} (h : commit codec retain publish storageText fails db ctx payload = (.ok p, db')) :
    (isStoredStatus payload.status = true → validateOutputCallIds codec db ctx payload.output = .ok ()) ∧
    (ctx.Stores payload → persistPreparedTurn codec retain publish storageText fails db ctx payload.output = (.ok (), db')) ∧
    (¬ctx.Stores payload → db' = db) := by
  unfold commit at h
  split at h
  · cases h
  · split at h
    · cases h
    · split at h
      · cases h
      · rename_i checked
        refine ⟨fun stored => ?_, ?_⟩
        · rw [if_pos stored] at checked
          exact checked
        · unfold persistIfNeeded persistPreparedResponse at h
          by_cases asked : shouldPersist ctx.request = true
          · rw [if_pos asked] at h
            by_cases skipped : (!isStoredStatus payload.status || payload.id.isEmpty) = true
            · rw [if_pos skipped] at h
              cases h
              refine ⟨fun ⟨status, id, _⟩ => ?_, fun _ => rfl⟩
              rw [status] at skipped
              exact absurd (List.isEmpty_iff.1 skipped) id
            · rw [if_neg skipped] at h
              cases turn : persistPreparedTurn codec retain publish storageText fails db ctx payload.output with
              | mk result last =>
                rw [turn] at h
                obtain ⟨result_ok, same⟩ := Prod.mk.inj h
                refine ⟨fun _ => ?_, fun no => ?_⟩
                · cases reported : (Persistence.mapError ⟨result, result.isOk⟩).result with
                  | error e =>
                    rw [reported] at result_ok
                    cases result_ok
                  | ok _ =>
                    have done : result = .ok () := mapError_ok.1 reported
                    rw [done, same]
                · rw [Bool.or_eq_true, not_or, Bool.not_eq_true', Bool.not_eq_false, List.isEmpty_iff] at skipped
                  exact absurd ⟨skipped.1, skipped.2, asked⟩ no
          · rw [if_neg asked] at h
            cases h
            exact ⟨fun ⟨_, _, yes⟩ => absurd yes asked, fun _ => rfl⟩

/-- Calls that cannot be stored behind those checked: nothing is. -/
theorem commit_refuses (known : continuedCallIds codec db ctx = .ok continued)
    (stored : isStoredStatus payload.status = true) (bad : ¬Admissible continued payload.output) :
    ∃ e, commit codec retain publish storageText fails db ctx payload = (.error e, db) := by
  unfold commit
  split
  · exact ⟨_, rfl⟩
  · split
    · exact ⟨_, rfl⟩
    · cases checked : validateOutputCallIds codec db ctx payload.output with
      | error e => exact ⟨e, rfl⟩
      | ok _ => exact absurd (validateOutputCallIds_ok checked known) bad

/-- A response turn that was stored. -/
theorem executeResponseTurn_ok
    (h : executeResponseTurn codec retain publish db ctx output_items = (.ok (), db')) :
    (∀ lease, ctx.request.continuation = some lease → publish (lease.checkpoint ctx.parent ctx.request.response_id
        ctx.request.conversation_id ctx.metadata (ctx.request.savedItems output_items) ctx.request.writeDurable) = .ok ()) ∧
    (ctx.request.writeDurable = false → db' = db) ∧
    (ctx.request.writeDurable = true → ∃ store, db' = db.afterResponse store ∧
      db.responseStore.persistWithConversationId codec ctx.request.response_id ctx.request.conversation_id
        (Engine.previousDurableId ctx.request.continuation ctx.parent ctx.metadata)
        (ctx.request.writtenItems ctx.parent output_items) ctx.metadata = .ok store) := by
  unfold executeResponseTurn at h
  split at h
  · cases h
  · rename_i store checkpoint executed
    obtain ⟨published, rfl⟩ := Prod.mk.inj h
    unfold Engine.executeTurnWithMetadata at executed
    obtain ⟨_, retained, executed⟩ := bind_eq_ok.1 executed
    have made : checkpoint = ctx.request.continuation.map (fun lease => lease.checkpoint ctx.parent ctx.request.response_id
        ctx.request.conversation_id ctx.metadata (ctx.request.savedItems output_items) ctx.request.writeDurable) ∧
        (ctx.request.writeDurable = false → store = db.responseStore) ∧
        (ctx.request.writeDurable = true → db.responseStore.persistWithConversationId codec ctx.request.response_id
          ctx.request.conversation_id (Engine.previousDurableId ctx.request.continuation ctx.parent ctx.metadata)
          (ctx.request.writtenItems ctx.parent output_items) ctx.metadata = .ok store) := by
      split at executed
      · rename_i durable
        split at executed
        · cases executed
        · rename_i written persisted
          cases executed
          exact ⟨rfl, fun no => absurd (durable.symm.trans no) (fun no => nomatch no), fun _ => persisted⟩
      · rename_i transient
        cases executed
        exact ⟨rfl, fun _ => rfl, fun yes => absurd yes transient⟩
    obtain ⟨same, transient, durable⟩ := made
    refine ⟨fun lease leased => ?_, fun no => ?_, fun yes => ⟨store, rfl, durable yes⟩⟩
    · rw [same, leased] at published
      exact published
    · rw [transient no]
      exact ConversationStore.afterResponse_self db

/-- A conversation turn that was stored: the rows of the conversation are followed by its own. -/
theorem executeConversationTurn_ok
    (h : executeConversationTurn codec storageText fails db ctx output_items = (.ok (), db')) :
    ∃ conversation_id, ctx.request.conversation_id = some conversation_id ∧
      ∀ snapshot, db.rehydrateSnapshot codec conversation_id = .ok snapshot →
      ∃ version, db'.rehydrateSnapshot codec conversation_id = .ok ⟨snapshot.items ++ ResponseStore.readBack codec
        (ctx.request.new_input_items.map .input ++ output_items.map .output), version⟩ := by
  unfold executeConversationTurn at h
  split at h
  · cases h
  · cases h
  · rename_i conversation_id version named _
    refine ⟨conversation_id, named, fun snapshot read => ?_⟩
    split at h
    · rename_i store written
      obtain ⟨-, rfl⟩ := Prod.mk.inj h
      exact ConversationStore.persistIfVersion_rehydrates written read
    · cases h
    · cases h

/-- An input that the check looked at, of a turn outside a session. -/
theorem admissible_input (bare : ctx.request.continuation = none)
    (h : validateOutputCallIds codec db ctx output_items = .ok ()) :
    Admissible (inputCallIds ctx.request.new_input_items) output_items := by
  cases read : rehydratePrevious codec db.responseStore ctx.request.original_request.previous_response_id with
  | ok history =>
    have known : continuedCallIds codec db ctx = .ok (callIdsOf history ++ inputCallIds ctx.request.new_input_items) := by
      unfold continuedCallIds
      rw [bare, Option.isSome_none, if_neg Bool.false_ne_true, read]
      rfl
    have all := validateOutputCallIds_ok h known
    exact ⟨all.toCleanCalls, fun id here => all.fresh id (List.mem_append_right _ here)⟩
  | error e =>
    -- without the history only an output without calls is let through
    unfold validateOutputCallIds at h
    obtain ⟨call_ids, collected, h⟩ := bind_eq_ok.1 h
    obtain ⟨-, -, listed⟩ := collectCallIds_ok collected
    rw [bare, Option.isSome_none, read] at h
    cases call_ids with
    | nil =>
      apply admissible_nil
      apply List.eq_nil_iff_forall_not_mem.2
      intro id here
      exact absurd ((listed id).2 (.inr here)) List.not_mem_nil
    | cons entry entries => cases h

/-- What the check accepts, whichever calls it looked at. -/
theorem admissible_checked {call_ids : List Text} (h : validateOutputCallIds codec db ctx output_items = .ok ())
    (bare : ctx.request.continuation = none → Admissible call_ids output_items) (covers : ctx.Covers call_ids) :
    Admissible call_ids output_items := by
  cases leased : ctx.request.continuation with
  | none => exact bare leased
  | some lease =>
    have session : ctx.request.continuation.isSome = true := by
      rw [leased]
      rfl
    have known : continuedCallIds codec db ctx = .ok (inputCallIds ctx.request.enriched_request.input.modelItems) := by
      unfold continuedCallIds
      rw [if_pos session]
    have all := validateOutputCallIds_ok h known
    exact ⟨all.toCleanCalls, fun id here => all.fresh id (covers session id here)⟩

/-- The rows stay well formed when a turn of a conversation is written. -/
theorem wellFormed_conversation {conversation_id : Text} {version : ConversationVersion} {response_id : Text}
    {previous_response_id : Option Text} {new_items : List InOutItem} {metadata : ResponseMetadata}
    (wf : db.responseStore.WellFormed)
    (written : db.persistIfVersion codec conversation_id version response_id previous_response_id new_items metadata fails
      = .ok db') : db'.responseStore.WellFormed := by
  unfold ConversationStore.persistIfVersion ConversationStore.persistImpl at written
  split at written
  · cases written
  · split at written
    · cases written
    · split at written
      · cases written
      · split at written
        · cases written
        · cases written
          rw [ConversationStore.createInTx_eq]
          intro entry mem id listed
          have length : ((db.createWithNextConversationSeq conversation_id (new_items.map codec.write)).items.map (·.data)).length =
              (db.items.map (·.data)).length + new_items.length := by
            rw [ConversationStore.createWithNextConversationSeq, List.length_map, List.length_append, length_numbered,
              List.length_map, List.length_map]
          show id < ((db.createWithNextConversationSeq conversation_id (new_items.map codec.write)).items.map (·.data)).length
          rw [length]
          rcases List.mem_append.1 mem with old | new
          · have := wf entry old id listed
            have here : id < (db.items.map (·.data)).length := this
            omega
          · rw [List.mem_singleton] at new
            subst new
            have := (List.mem_range'_1.1 listed).2
            have places : (db.items.map (·.data)).length = db.items.length := List.length_map _
            omega

/-- The rows stay well formed when a response is written. -/
theorem wellFormed_response {store : ResponseStore Row} {response_id : Text} {conversation_id previous_response_id : Option Text}
    {new_items : List InOutItem} {metadata : ResponseMetadata} (wf : db.responseStore.WellFormed)
    (written : db.responseStore.persistWithConversationId codec response_id conversation_id previous_response_id new_items
      metadata = .ok store) : (db.afterResponse store).responseStore.WellFormed := by
  obtain ⟨grows, wf', -⟩ := ResponseStore.persist_ok wf written
  rw [ConversationStore.responseStore_afterResponse grows]
  exact wf'

/-- The tables after a turn, stored or not. -/
theorem wellFormed_turn (wf : db.responseStore.WellFormed) :
    (persistPreparedTurn codec retain publish storageText fails db ctx output_items).2.responseStore.WellFormed := by
  unfold persistPreparedTurn
  split
  · unfold executeConversationTurn
    split
    · exact wf
    · exact wf
    · split
      · rename_i written
        exact wellFormed_conversation wf written
      · exact wf
      · exact wf
  · unfold executeResponseTurn Engine.executeTurnWithMetadata
    split
    · exact wf
    · rename_i store checkpoint executed
      obtain ⟨_, -, executed⟩ := bind_eq_ok.1 executed
      split at executed
      · split at executed
        · cases executed
        · rename_i written
          cases executed
          exact wellFormed_response wf written
      · cases executed
        show (db.afterResponse db.responseStore).responseStore.WellFormed
        rw [ConversationStore.afterResponse_self]
        exact wf

/-- The rows stay well formed whether or not a response is stored. -/
theorem wellFormed_prepared (wf : db.responseStore.WellFormed) :
    (persistPreparedResponse codec retain publish storageText fails db payload ctx).2.responseStore.WellFormed := by
  unfold persistPreparedResponse
  split
  · exact wf
  · exact wellFormed_turn wf

/-- The rows stay well formed whether or not a response is asked to be stored. -/
theorem wellFormed_needed (wf : db.responseStore.WellFormed) :
    (persistIfNeeded codec retain publish storageText fails db payload ctx).2.responseStore.WellFormed := by
  unfold persistIfNeeded
  by_cases asked : shouldPersist ctx.request = true
  · rw [if_pos asked]
    exact wellFormed_prepared wf
  · rw [if_neg asked]
    exact wf

/-- The rows stay well formed when a response is committed. -/
theorem wellFormed_commit (wf : db.responseStore.WellFormed) :
    (commit codec retain publish storageText fails db ctx payload).2.responseStore.WellFormed := by
  unfold commit
  split
  · exact wf
  · split
    · exact wf
    · split
      · exact wf
      · exact wellFormed_needed wf

end

/-- What a commit does to the calls of the histories. -/
structure KeepsCalls {Row : Type} (codec : ItemCodec Row) (publish : ResponseCheckpoint → ExecutorResult Unit)
    (db : ConversationStore Row) (ctx : CommitContext) (payload : ResponsePayload)
    (outcome : ExecutorResult ResponsePayload × ConversationStore Row) : Prop where
  wellFormed : outcome.2.responseStore.WellFormed
  /-- An output with a call without an id, two with the same, or one that the calls before it have. -/
  refused : ∀ continued, continuedCallIds codec db ctx = .ok continued → isStoredStatus payload.status = true →
    ¬Admissible continued payload.output → (∃ e, outcome.1 = .error e) ∧ outcome.2 = db
  unstored : outcome.1.isOk = true → ¬ctx.Stores payload → outcome.2 = db
  /-- A stored response continues the history of the one before, without a clash. -/
  response : outcome.1.isOk = true → ctx.Stores payload → ctx.request.original_request.conversation_id = none →
    ctx.request.writeDurable = true → ∃ rows,
      ResponseStore.Before codec db.responseStore (Engine.previousDurableId ctx.request.continuation ctx.parent ctx.metadata) rows ∧
      let added := ResponseStore.readBack codec (ctx.request.writtenItems ctx.parent payload.output)
      outcome.2.responseStore.rehydrate codec ctx.request.response_id = .ok (rows ++ added) ∧
      (CleanCalls (callIdsOf (rows ++ ctx.writtenBefore)) → ctx.Covers (callIdsOf (rows ++ ctx.writtenBefore)) →
        CleanCalls (callIdsOf (rows ++ added)))
  /-- So does the checkpoint that a session publishes. -/
  session : outcome.1.isOk = true → ctx.Stores payload → ctx.request.original_request.conversation_id = none →
    ∀ lease, ctx.request.continuation = some lease →
      let checkpoint := lease.checkpoint ctx.parent ctx.request.response_id ctx.request.conversation_id ctx.metadata
        (ctx.request.savedItems payload.output) ctx.request.writeDurable
      let before := inputCallIds (lease.parentItems ctx.parent ++ ctx.request.new_input_items)
      publish checkpoint = .ok () ∧ (CleanCalls before → ctx.Covers before → CleanCalls (inputCallIds checkpoint.history))
  /-- What a turn adds to a conversation has no clash in itself. -/
  conversation : outcome.1.isOk = true → ctx.Stores payload → ctx.request.original_request.conversation_id.isSome = true →
    ∃ conversation_id, ctx.request.conversation_id = some conversation_id ∧
      ∀ snapshot, db.rehydrateSnapshot codec conversation_id = .ok snapshot →
      let added := ResponseStore.readBack codec (ctx.request.new_input_items.map .input ++ payload.output.map .output)
      ∃ version, outcome.2.rehydrateSnapshot codec conversation_id = .ok ⟨snapshot.items ++ added, version⟩ ∧
        (CleanCalls (inputCallIds ctx.request.new_input_items) → ctx.Covers (inputCallIds ctx.request.new_input_items) →
          CleanCalls (callIdsOf added))

section
variable {Row : Type} {codec : ItemCodec Row} {retain publish : ResponseCheckpoint → ExecutorResult Unit}
  {storageText : ConversationError → Text} {fails : Bool} {db db' : ConversationStore Row} {ctx : CommitContext}
  {payload : ResponsePayload} {output_items : List OutputItem}

/-- A stored response. -/
theorem response_clean {rows : List InOutItem} (keeps : ∀ item ∈ ctx.request.writtenItems ctx.parent output_items, codec.KeepsCall item)
    (checked : validateOutputCallIds codec db ctx output_items = .ok ())
    (before : ResponseStore.Before codec db.responseStore
      (Engine.previousDurableId ctx.request.continuation ctx.parent ctx.metadata) rows)
    (clean : CleanCalls (callIdsOf (rows ++ ctx.writtenBefore))) (covers : ctx.Covers (callIdsOf (rows ++ ctx.writtenBefore))) :
    CleanCalls (callIdsOf (rows ++ ResponseStore.readBack codec (ctx.request.writtenItems ctx.parent output_items))) := by
  have admissible : Admissible (callIdsOf (rows ++ ctx.writtenBefore)) output_items := by
    refine admissible_checked checked (fun bare => ?_) covers
    have earlier : ResponseStore.Before codec db.responseStore ctx.request.original_request.previous_response_id rows := by
      rw [bare] at before
      exact before
    have known := continuedCallIds_response bare earlier
    have own : callIdsOf (rows ++ ctx.writtenBefore) = callIdsOf rows ++ inputCallIds ctx.request.new_input_items := by
      rw [callIdsOf_append, CommitContext.writtenBefore, bare, List.nil_append, callIdsOf_input]
    rw [own]
    exact validateOutputCallIds_ok checked known
  have whole := (admissible.sublist (Engine.retainedOutputs_sublist ctx.request.continuation output_items)).append clean
    fun id here => here
  rw [← callIdsOf_output, ← callIdsOf_append, List.append_assoc, ← writtenItems_eq, callIdsOf_append] at whole
  rw [callIdsOf_append]
  exact whole.sublist ((callIdsOf_readBack keeps).append_left _)

/-- The checkpoint of a session. -/
theorem checkpoint_clean {lease : Engine.ResponseContinuation} (leased : ctx.request.continuation = some lease)
    (checked : validateOutputCallIds codec db ctx output_items = .ok ())
    (clean : CleanCalls (inputCallIds (lease.parentItems ctx.parent ++ ctx.request.new_input_items)))
    (covers : ctx.Covers (inputCallIds (lease.parentItems ctx.parent ++ ctx.request.new_input_items))) :
    CleanCalls (inputCallIds (canonicalSessionHistory (lease.parentItems ctx.parent ++
      intoInputItems (ctx.request.savedItems output_items)))) := by
  have admissible : Admissible (inputCallIds (lease.parentItems ctx.parent ++ ctx.request.new_input_items)) output_items :=
    admissible_checked checked (fun bare => nomatch leased.symm.trans bare) covers
  have whole := (admissible.sublist (Engine.retainedOutputs_sublist ctx.request.continuation output_items)).append clean
    fun id here => here
  have saved : callIdsOf (ctx.request.savedItems output_items) = inputCallIds ctx.request.new_input_items ++
      outputCallIds (Engine.retainedOutputs ctx.request.continuation output_items) := by
    rw [Engine.RequestContext.savedItems, callIdsOf_append, callIdsOf_input, callIdsOf_output]
  have split : inputCallIds (lease.parentItems ctx.parent ++ ctx.request.new_input_items) =
      inputCallIds (lease.parentItems ctx.parent) ++ inputCallIds ctx.request.new_input_items := List.filterMap_append
  rw [split, List.append_assoc, ← saved] at whole
  apply whole.sublist
  refine ((canonicalSessionHistory_sublist _).filterMap InputItem.callId).trans ?_
  rw [List.filterMap_append]
  exact (inputCallIds_intoInputItems _).append_left _

/-- A conversation turn. -/
theorem conversation_clean
    (keeps : ∀ item ∈ ctx.request.new_input_items.map .input ++ output_items.map .output, codec.KeepsCall item)
    (checked : validateOutputCallIds codec db ctx output_items = .ok ())
    (clean : CleanCalls (inputCallIds ctx.request.new_input_items)) (covers : ctx.Covers (inputCallIds ctx.request.new_input_items)) :
    CleanCalls (callIdsOf (ResponseStore.readBack codec
      (ctx.request.new_input_items.map .input ++ output_items.map .output))) := by
  have admissible := admissible_checked checked (fun bare => admissible_input bare checked) covers
  have whole := admissible.append clean fun id here => here
  rw [← callIdsOf_output, ← callIdsOf_input, ← callIdsOf_append] at whole
  exact whole.sublist (callIdsOf_readBack keeps)

/-- **A commit keeps histories usable**: the output adds no call that clashes with what the check looked at. -/
theorem commit_keepsCalls (codec : ItemCodec Row) (retain publish : ResponseCheckpoint → ExecutorResult Unit)
    (storageText : ConversationError → Text) (fails : Bool) (db : ConversationStore Row) (ctx : CommitContext)
    (payload : ResponsePayload) (wf : db.responseStore.WellFormed)
    (keeps : ∀ item ∈ ctx.writtenItems payload.output, codec.KeepsCall item) :
    KeepsCalls codec publish db ctx payload (commit codec retain publish storageText fails db ctx payload) := by
  obtain ⟨outcome, made⟩ : ∃ outcome, commit codec retain publish storageText fails db ctx payload = outcome := ⟨_, rfl⟩
  have last : outcome.2.responseStore.WellFormed := made ▸ wellFormed_commit wf
  have refuses : ∀ continued, continuedCallIds codec db ctx = .ok continued → isStoredStatus payload.status = true →
      ¬Admissible continued payload.output → (∃ e, outcome.1 = .error e) ∧ outcome.2 = db := by
    intro continued known stored bad
    obtain ⟨e, failed⟩ := commit_refuses known stored bad
    cases made.symm.trans failed
    exact ⟨⟨e, rfl⟩, rfl⟩
  rw [made]
  obtain ⟨result, db'⟩ := outcome
  cases result with
  | error e =>
    exact ⟨last, refuses, (fun no => nomatch no), (fun no => nomatch no), (fun no => nomatch no), (fun no => nomatch no)⟩
  | ok p =>
    obtain ⟨checked, stored, unstored⟩ := commit_ok made
    refine ⟨last, refuses, fun _ => unstored, fun _ stores bare durable => ?_, fun _ stores bare lease leased => ?_,
      fun _ stores named => ?_⟩
    · have turn := stored stores
      unfold persistPreparedTurn at turn
      rw [bare, Option.isSome_none, if_neg Bool.false_ne_true] at turn
      obtain ⟨-, -, written⟩ := executeResponseTurn_ok turn
      obtain ⟨store, rfl, persisted⟩ := written durable
      obtain ⟨grows, -, -, rows, before, read⟩ := ResponseStore.persist_ok wf persisted
      refine ⟨rows, before, ?_, fun clean covers => ?_⟩
      · show (db.afterResponse store).responseStore.rehydrate codec _ = _
        rw [ConversationStore.responseStore_afterResponse grows]
        exact read
      · have keeps' : ∀ item ∈ ctx.request.writtenItems ctx.parent payload.output, codec.KeepsCall item := by
          rw [CommitContext.writtenItems, bare, Option.isSome_none, if_neg Bool.false_ne_true] at keeps
          exact keeps
        exact response_clean keeps' (checked stores.1) before clean covers
    · have turn := stored stores
      unfold persistPreparedTurn at turn
      rw [bare, Option.isSome_none, if_neg Bool.false_ne_true] at turn
      obtain ⟨published, -⟩ := executeResponseTurn_ok turn
      exact ⟨published lease leased, checkpoint_clean leased (checked stores.1)⟩
    · have turn := stored stores
      unfold persistPreparedTurn at turn
      rw [if_pos named] at turn
      obtain ⟨conversation_id, addressed, reads⟩ := executeConversationTurn_ok turn
      refine ⟨conversation_id, addressed, fun snapshot read => ?_⟩
      obtain ⟨version, read'⟩ := reads snapshot read
      refine ⟨version, read', conversation_clean ?_ (checked stores.1)⟩
      rw [CommitContext.writtenItems, if_pos named] at keeps
      exact keeps

end

/-- A turn that continues nothing. -/
def turnOf (new_input_items : List InputItem) : CommitContext where
  request :=
    let payload : RequestPayload :=
      { model := [], input := .items new_input_items, instructions := none, previous_response_id := none
        conversation_id := none, tool_choice := none, store := true, context_management := none }
    { original_request := payload, enriched_request := payload, new_input_items, response_id := "resp_1"
      conversation_id := none, continuation := none }
  conversation_version := none
  parent := none
  tools := none

/-- A response that ended well. -/
def completed (output : List OutputItem) : ResponsePayload where
  id := "resp_1"
  model := []
  status := "completed"
  output := output
  usage := none
  incomplete_details := none
  error := none
  previous_response_id := none
  conversation_id := none
  instructions := none

/-- A call of an input. -/
def calling (call_id : Text) : InputItem := .functionCall ⟨none, call_id, "lookup", none, "x", none⟩

/-- A call of an output. -/
def called (call_id : Text) : OutputItem := .functionCall ⟨"fc_1", call_id, "lookup", none, "x", .completed⟩

/-- No rows. -/
def noTables : ConversationStore Text := ⟨[], [], []⟩

/-- A call of an input is kept by the rows. -/
theorem storable_calling (call_id : Text) : (InOutItem.input (calling call_id)).Storable rowSerde :=
  ⟨trivial, ⟨by show ([utf8 "type", utf8 "call_id", utf8 "name", utf8 "arguments", STORED_ITEM_KIND_KEY] : List Text).Nodup; decide,
    trivial, trivial, trivial, trivial, trivial, trivial⟩, rfl, by show 1 ≤ 127; decide⟩

/-- A call of an output is kept by the rows. -/
theorem storable_called (call_id : Text) : (InOutItem.output (called call_id)).Storable rowSerde :=
  ⟨by show utf8 "fc_1" ≠ []; decide, ⟨by
    show ([utf8 "type", utf8 "id", utf8 "call_id", utf8 "name", utf8 "arguments", utf8 "status", STORED_ITEM_KIND_KEY] : List Text).Nodup
    decide, trivial, trivial, trivial, trivial, trivial, trivial, trivial, trivial⟩, rfl, by show 1 ≤ 127; decide⟩

/-- **Calls of the input are not checked**: two with one id are stored. -/
theorem repeated_input_stored : ∃ db' items,
    commit (.rows rowSerde rowIds) (fun _ => .ok ()) (fun _ => .ok ()) (fun _ => []) false noTables
      (turnOf [calling "call_1", calling "call_1"]) (completed []) = (.ok (completed []), db') ∧
    db'.responseStore.rehydrate (.rows rowSerde rowIds) "resp_1" = .ok items ∧ callIdsOf items = [utf8 "call_1", utf8 "call_1"] := by
  have committed : ∃ db', commit (.rows rowSerde rowIds) (fun _ => .ok ()) (fun _ => .ok ()) (fun _ => []) false noTables
      (turnOf [calling "call_1", calling "call_1"]) (completed []) = (.ok (completed []), db') := ⟨_, rfl⟩
  obtain ⟨db', committed⟩ := committed
  obtain ⟨-, stored, -⟩ := commit_ok committed
  have turn : executeResponseTurn (.rows rowSerde rowIds) (fun _ => .ok ()) (fun _ => .ok ()) noTables
      (turnOf [calling "call_1", calling "call_1"]) [] = (.ok (), db') := stored ⟨rfl, by decide, rfl⟩
  obtain ⟨-, -, written⟩ := executeResponseTurn_ok turn
  obtain ⟨store, rfl, persisted⟩ := written rfl
  obtain ⟨grows, -, -, rows, before, read⟩ := ResponseStore.persist_ok (fun _ no => absurd no List.not_mem_nil) persisted
  cases before
  have back : ResponseStore.readBack (.rows rowSerde rowIds)
      ((turnOf [calling "call_1", calling "call_1"]).request.writtenItems none []) =
      [.input (calling "call_1"), .input (calling "call_1")] := by
    refine ResponseStore.readBack_unmarked fun item mem => ?_
    have same : item = .input (calling "call_1") := by
      rcases List.mem_cons.1 mem with same | mem
      · exact same
      · exact List.mem_singleton.1 mem
    rw [same]
    exact ⟨storable_calling _, rfl⟩
  refine ⟨_, [.input (calling "call_1"), .input (calling "call_1")], committed, ?_, rfl⟩
  rw [ConversationStore.responseStore_afterResponse grows]
  exact read.trans (congrArg (fun items => Except.ok ([] ++ items)) back)

/-- A turn whose output calls a function. -/
theorem commit_keepsCalls_called :
    KeepsCalls (.rows rowSerde rowIds) (fun _ => .ok ()) noTables (turnOf [calling "call_1"]) (completed [called "call_2"])
      (commit (.rows rowSerde rowIds) (fun _ => .ok ()) (fun _ => .ok ()) (fun _ => []) false noTables
        (turnOf [calling "call_1"]) (completed [called "call_2"])) := by
  refine commit_keepsCalls _ _ _ _ _ _ _ _ (fun _ no => absurd no List.not_mem_nil) fun item mem => ?_
  rcases List.mem_cons.1 mem with rfl | mem
  · exact (storable_calling _).keepsCall
  · obtain rfl := List.mem_singleton.1 mem
    exact (storable_called _).keepsCall

end Commit
end AgenticStack
