import AgenticStack.Split.SameTurn

/-!
# The two halves of a commit

A commit first looks at the stored history, then writes. Between the two others may write, but they
change nothing that was looked at: what was accepted still is when the turn is written.
-/

namespace AgenticStack
namespace Commit
set_option autoImplicit false
open Library

section
variable {Row : Type} (codec : ItemCodec Row)

/-- What a commit asks before it writes. -/
def checks (db : ConversationStore Row) (ctx : CommitContext) (payload : ResponsePayload) : ExecutorResult Unit :=
  if ctx.request.response_id = [] then .error (invalid "context has no reserved response id")
  else if ResponseStatus.parse payload.status = .inProgress then
    .error (invalid (utf8 "upstream response status '" ++ payload.status ++ utf8 "' is not terminal"))
  else if isStoredStatus payload.status then validateOutputCallIds codec db ctx payload.output else .ok ()

end

section
variable {Row : Type} {codec : ItemCodec Row} {retain publish : ResponseCheckpoint → ExecutorResult Unit}
  {storageText : ConversationError → Text} {fails : Bool} {db db' : ConversationStore Row} {ctx : CommitContext}
  {payload : ResponsePayload} {output_items : List OutputItem}

theorem commit_eq : commit codec retain publish storageText fails db ctx payload =
    match checks codec db ctx payload with
    | .error e => (.error e, db)
    | .ok () => ((persistIfNeeded codec retain publish storageText fails db payload ctx).1.map fun _ => payload,
        (persistIfNeeded codec retain publish storageText fails db payload ctx).2) := by
  unfold commit checks
  split
  · rfl
  · split
    · rfl
    · cases (if isStoredStatus payload.status then validateOutputCallIds codec db ctx payload.output else .ok ()) with
      | error e => rfl
      | ok _ => rfl

/-- **What was accepted is accepted later**, whatever has been written meanwhile. -/
theorem checks_grows (bare : ctx.Bare) (wf : db.responseStore.WellFormed) (grows : db.responseStore.Grows db'.responseStore)
    (accepted : checks codec db ctx payload = .ok ()) : checks codec db' ctx payload = .ok () := by
  unfold checks at accepted ⊢
  split at accepted
  · cases accepted
  · rename_i reserved
    split at accepted
    · cases accepted
    · rename_i terminal
      rw [if_neg reserved, if_neg terminal]
      split at accepted
      · rename_i stored
        rw [if_pos stored]
        unfold validateOutputCallIds at accepted ⊢
        rw [bare.continuation] at accepted ⊢
        obtain ⟨call_ids, collected, accepted⟩ := bind_eq_ok.1 accepted
        rw [collected]
        show (if call_ids.isEmpty = true then _ else _) = _
        by_cases none : call_ids.isEmpty = true
        · rw [if_pos none]
          rfl
        · rw [if_neg none] at accepted ⊢
          cases continued : ctx.request.original_request.previous_response_id with
          | none =>
            rw [continued] at accepted
            exact accepted
          | some previous_id =>
            rw [continued] at accepted
            have previous (db : ConversationStore Row) :
                rehydratePrevious codec db.responseStore (some previous_id) = db.responseStore.rehydrate codec previous_id :=
              rfl
            rw [previous] at accepted ⊢
            cases read : db.responseStore.rehydrate codec previous_id with
            | error e =>
              rw [read] at accepted
              cases accepted
            | ok rows =>
              rw [read] at accepted
              rw [grows.rehydrate wf read]
              exact accepted
      · rename_i unstored
        rw [if_neg unstored]

/-- The response that a turn continues can be read. -/
def Continues (codec : ItemCodec Row) (db : ConversationStore Row) (ctx : CommitContext) : Prop :=
  ∀ previous_id, ctx.request.original_request.previous_response_id = some previous_id →
    ∃ rows, db.responseStore.rehydrate codec previous_id = .ok rows

theorem Continues.grows (continues : Continues codec db ctx) (wf : db.responseStore.WellFormed)
    (grows : db.responseStore.Grows db'.responseStore) : Continues codec db' ctx := by
  intro previous_id named
  obtain ⟨rows, read⟩ := continues previous_id named
  exact ⟨rows, grows.rehydrate wf read⟩

theorem Continues.previousItemIds (continues : Continues codec db ctx) :
    ∃ ids, db.responseStore.previousItemIds ctx.request.original_request.previous_response_id = .ok ids := by
  unfold ResponseStore.previousItemIds
  cases named : ctx.request.original_request.previous_response_id with
  | none => exact ⟨[], rfl⟩
  | some previous_id =>
    obtain ⟨rows, read⟩ := continues previous_id named
    obtain ⟨response, found, -⟩ := ResponseStore.rehydrate_ok.1 read
    dsimp only
    rw [found]
    exact ⟨_, rfl⟩

/-- A turn that is not to be stored. -/
theorem needed_unstored (unstored : ¬ctx.Stores payload) :
    persistIfNeeded codec retain publish storageText fails db payload ctx = (.ok (), db) := by
  unfold persistIfNeeded persistPreparedResponse
  by_cases asked : shouldPersist ctx.request = true
  · rw [if_pos asked]
    by_cases skipped : (!isStoredStatus payload.status || payload.id.isEmpty) = true
    · rw [if_pos skipped]
      rfl
    · rw [Bool.or_eq_true, not_or, Bool.not_eq_true', Bool.not_eq_false, List.isEmpty_iff] at skipped
      exact absurd ⟨skipped.1, skipped.2, asked⟩ unstored
  · rw [if_neg asked]

theorem needed_stored (bare : ctx.Bare) (stores : ctx.Stores payload) :
    persistIfNeeded codec retain publish storageText fails db payload ctx =
      match db.responseStore.persistWithConversationId codec ctx.request.response_id ctx.request.conversation_id
        ctx.request.original_request.previous_response_id
        (ctx.request.new_input_items.map .input ++ payload.output.map .output) ctx.metadata with
      | .error e => ((Persistence.mapError ⟨.error (Engine.storageFailure ctx.request.response_id e), false⟩).result, db)
      | .ok store => (.ok (), db.afterResponse store) := by
  obtain ⟨status, named, asked⟩ := stores
  have kept : (!isStoredStatus payload.status || payload.id.isEmpty) = false := by
    rw [status, Bool.not_true, Bool.false_or]
    exact Bool.eq_false_iff.2 fun empty => named (List.isEmpty_iff.1 empty)
  unfold persistIfNeeded persistPreparedResponse
  rw [if_pos asked, kept, if_neg Bool.false_ne_true, persistPreparedTurn_bare bare]
  cases db.responseStore.persistWithConversationId codec ctx.request.response_id ctx.request.conversation_id
    ctx.request.original_request.previous_response_id
    (ctx.request.new_input_items.map .input ++ payload.output.map .output) ctx.metadata with
  | error e => rfl
  | ok store => rfl

/-- What a turn is told whose id is taken. -/
def alreadyStored (response_id : Text) : ExecutorError :=
  .conflict (utf8 "a turn is already stored under '" ++ response_id ++ utf8 "'")

/-- An id that is taken: nothing is written. -/
theorem needed_taken (bare : ctx.Bare) (stores : ctx.Stores payload) (continues : Continues codec db ctx)
    (taken : (db.responses.lookup ctx.request.response_id).isSome = true) :
    persistIfNeeded codec retain publish storageText fails db payload ctx =
      (.error (alreadyStored ctx.request.response_id), db) := by
  obtain ⟨ids, previous⟩ := continues.previousItemIds
  rw [needed_stored bare stores, ResponseStore.persist_taken previous taken]
  rfl

/-- An id that is free: the turn is written, and reads back behind the response it continues. -/
theorem needed_free (bare : ctx.Bare) (stores : ctx.Stores payload) (continues : Continues codec db ctx)
    (wf : db.responseStore.WellFormed) (free : db.responses.lookup ctx.request.response_id = none) :
    ∃ after : ConversationStore Row,
      persistIfNeeded codec retain publish storageText fails db payload ctx = (.ok (), after) ∧
      db.responseStore.Grows after.responseStore ∧ after.responseStore.WellFormed ∧
      (∀ id, (after.responses.lookup id).isSome = true ↔
        (db.responses.lookup id).isSome = true ∨ id = ctx.request.response_id) ∧
      ∃ rows, ResponseStore.Before codec after.responseStore ctx.request.original_request.previous_response_id rows ∧
        after.responseStore.rehydrate codec ctx.request.response_id = .ok (rows ++ ResponseStore.readBack codec
          (ctx.request.new_input_items.map .input ++ payload.output.map .output)) := by
  obtain ⟨ids, previous⟩ := continues.previousItemIds
  let store := db.responseStore.written codec ids ctx.request.response_id ctx.request.conversation_id
    ctx.request.original_request.previous_response_id
    (ctx.request.new_input_items.map .input ++ payload.output.map .output) ctx.metadata
  have persisted : db.responseStore.persistWithConversationId codec ctx.request.response_id ctx.request.conversation_id
      ctx.request.original_request.previous_response_id
      (ctx.request.new_input_items.map .input ++ payload.output.map .output) ctx.metadata = .ok store :=
    ResponseStore.persist_free previous free
  obtain ⟨grows, wf', -, rows, before, read⟩ := ResponseStore.persist_ok wf persisted
  have tables := ConversationStore.responseStore_afterResponse grows
  refine ⟨db.afterResponse store, ?_, ?_, ?_, fun id => ?_, rows, ?_, ?_⟩
  · rw [needed_stored bare stores, persisted]
  · rw [tables]
    exact grows
  · rw [tables]
    exact wf'
  · show ((db.responses ++ [_]).lookup id).isSome = true ↔ _
    rw [List.lookup_append, Option.isSome_or, Bool.or_eq_true]
    apply or_congr Iff.rfl
    by_cases same : id = ctx.request.response_id
    · subst same
      rw [lookup_cons_self]
      exact ⟨fun _ => rfl, fun _ => rfl⟩
    · rw [lookup_cons_ne fun here => same here.symm]
      exact ⟨(fun no => nomatch no), fun yes => absurd yes same⟩
  · rw [tables]
    exact before.grows grows wf
  · rw [tables]
    exact read

/-- The write of a turn that continues what is stored. -/
theorem needed_cases (bare : ctx.Bare) (continues : Continues codec db ctx) (wf : db.responseStore.WellFormed) :
    (¬ctx.Stores payload ∧ persistIfNeeded codec retain publish storageText fails db payload ctx = (.ok (), db)) ∨
    (ctx.Stores payload ∧ (db.responses.lookup ctx.request.response_id).isSome = true ∧
      persistIfNeeded codec retain publish storageText fails db payload ctx =
        (.error (alreadyStored ctx.request.response_id), db)) ∨
    (ctx.Stores payload ∧ db.responses.lookup ctx.request.response_id = none ∧ ∃ after : ConversationStore Row,
      persistIfNeeded codec retain publish storageText fails db payload ctx = (.ok (), after) ∧
      db.responseStore.Grows after.responseStore ∧ after.responseStore.WellFormed ∧
      (∀ id, (after.responses.lookup id).isSome = true ↔
        (db.responses.lookup id).isSome = true ∨ id = ctx.request.response_id) ∧
      ∃ rows, ResponseStore.Before codec after.responseStore ctx.request.original_request.previous_response_id rows ∧
        after.responseStore.rehydrate codec ctx.request.response_id = .ok (rows ++ ResponseStore.readBack codec
          (ctx.request.new_input_items.map .input ++ payload.output.map .output))) := by
  by_cases stores : ctx.Stores payload
  · cases found : db.responses.lookup ctx.request.response_id with
    | some response =>
      have taken : (db.responses.lookup ctx.request.response_id).isSome = true := by
        rw [found]
        rfl
      exact .inr (.inl ⟨stores, rfl, needed_taken bare stores continues taken⟩)
    | none => exact .inr (.inr ⟨stores, rfl, needed_free bare stores continues wf found⟩)
  · exact .inl ⟨stores, needed_unstored stores⟩

end
end Commit
end AgenticStack
