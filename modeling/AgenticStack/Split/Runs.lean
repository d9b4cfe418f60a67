import AgenticStack.Split.Writes
import Mathlib.Logic.Relation

/-!
# The service under many callers

Whoever has the token of the workload may hydrate turns and persist them, in any order and at the
same time. The service holds nothing between two calls but the tables and its key, so what it knows
of a turn is what the caller hands back.
-/

namespace AgenticStack
namespace Split
set_option autoImplicit false
open Library

/-- A turn that reached the tables, and what its caller was answered. -/
structure Written where
  context : SplitContext
  payload : ResponsePayload
  answer : ExecutorResult ResponsePayload

/-- The facts of a context that the conversation's commit reads. -/
def SplitContext.commitContext (context : SplitContext) : CommitContext := context.toTurn.commitContext

/-- The turn is stored. -/
def Written.Stored (w : Written) : Prop := w.answer = .ok w.payload ∧ w.context.commitContext.Stores w.payload

/-- The items that are written of a turn. -/
def Written.items (w : Written) : List InOutItem :=
  w.context.commitContext.request.new_input_items.map .input ++ w.payload.output.map .output

/-- The tables, the contexts that were handed out, and the turns that were accepted and still are to be written. -/
structure Backend (Token Row : Type) where
  db : ConversationStore Row
  issued : List (Token × SplitContext)
  persisting : List (SplitContext × ResponsePayload)
  written : List Written

/-- The backend before any request. -/
def Backend.start {Token Row : Type} (db : ConversationStore Row) : Backend Token Row := ⟨db, [], [], []⟩

section
variable {Token Row : Type} (workload_token : Text) (sealing : Sealing Token) (codec : ItemCodec Row)
  (toolsResolved : Option (List ResponsesTool) → Option ToolChoice → ExecutorResult Unit)
  (ingest : Text → Option Text → UpstreamBody → ExecutorResult ResponseAccumulator)
  (retain publish : ResponseCheckpoint → ExecutorResult Unit) (storageText : ConversationError → Text) (fails : Bool)

/-- What a call does. A call that is answered with an error does nothing, and any other has the token of the workload.
The ids of responses are new, and nobody else makes a context that can be opened. -/
inductive Backend.Step (b : Backend Token Row) : Backend Token Row → Prop where
  | hydrate {presented : Text} {now : Nat} {request : SplitRequest} {response_id : Text} {ctx : TurnContext}
      {hydration : Hydration Token} (admitted : tokenMatches presented workload_token = true)
      (unissued : ∀ entry ∈ b.issued, entry.2.response_id ≠ response_id)
      (unstored : b.db.responses.lookup response_id = none)
      (rehydrated : rehydrateConversation codec b.db.responseStore request response_id = .ok ctx)
      (hydrated : buildHydration sealing codec toolsResolved now b.db.responseStore request response_id = .ok hydration) :
      Step b { b with issued := b.issued ++ [(hydration.context, .ofTurn ctx)] }
  /-- The body of a response is decoded and looked at. -/
  | check {presented : Text} {now : Nat} {request : PersistRequest Token} {context : SplitContext} {body : UpstreamBody}
      {payload : ResponsePayload} (admitted : tokenMatches presented workload_token = true)
      (unforged : ∃ entry ∈ b.issued, entry.1 = request.context)
      (opened : openContext sealing now request = .ok (context, body))
      (decoded : decodeUpstream ingest context.toTurn body = .ok payload)
      (accepted : Commit.checks codec b.db context.commitContext payload = .ok ()) :
      Step b { b with persisting := b.persisting ++ [(context, payload)] }
  /-- One of the turns that were looked at is written. -/
  | write {before after : List (SplitContext × ResponsePayload)} {context : SplitContext} {payload : ResponsePayload}
      (waiting : b.persisting = before ++ (context, payload) :: after) :
      Step b
        (let turn := Commit.persistIfNeeded codec retain publish storageText fails b.db payload context.commitContext
        { b with
          db := turn.2
          persisting := before ++ after
          written := b.written ++ [⟨context, payload, turn.1.map fun _ => payload⟩] })

/-- The turns were committed one after another, each answered as it was. -/
inductive Serial (db : ConversationStore Row) : List Written → ConversationStore Row → Prop where
  | start : Serial db [] db
  | commit {ws : List Written} {w : Written} {now after : ConversationStore Row} (earlier : Serial db ws now)
      (committed : Commit.commit codec retain publish storageText fails now w.context.commitContext w.payload =
        (w.answer, after)) : Serial db (ws ++ [w]) after

/-- What a turn that was to be stored is answered: the first of a context is stored, every later one is a conflict. -/
structure Decided (earlier : List Written) (w : Written) : Prop where
  first : (∀ v ∈ earlier, v.context = w.context → ¬v.Stored) → w.answer = .ok w.payload
  again : (∃ v ∈ earlier, v.context = w.context ∧ v.Stored) → w.answer = .error (Commit.alreadyStored w.context.response_id)

/-- What any number of callers can bring about. -/
structure Sound (initial : ConversationStore Row) (b : Backend Token Row) : Prop where
  serial : Serial codec retain publish storageText fails initial b.written b.db
  /-- Only turns that were hydrated are written. -/
  known : ∀ w ∈ b.written, ∃ entry ∈ b.issued, entry.2 = w.context
  decided : ∀ before w after, b.written = before ++ w :: after → w.context.commitContext.Stores w.payload → Decided before w
  /-- The responses are those that were there and those of the stored turns. -/
  stored : ∀ response_id, (b.db.responses.lookup response_id).isSome = true ↔
    (initial.responses.lookup response_id).isSome = true ∨ ∃ w ∈ b.written, w.Stored ∧ w.context.response_id = response_id
  /-- A stored turn stands behind the response it continues, for good. -/
  history : ∀ w ∈ b.written, w.Stored → ∃ rows,
    ResponseStore.Before codec b.db.responseStore w.context.original_request.payload.previous_response_id rows ∧
    b.db.responseStore.rehydrate codec w.context.response_id = .ok (rows ++ ResponseStore.readBack codec w.items)
  grows : initial.responseStore.Grows b.db.responseStore

/-- The invariant: what was handed out opens only as itself and can still be stored once, and what was accepted still is. -/
structure Inv (initial : ConversationStore Row) (b : Backend Token Row) : Prop
    extends Sound codec retain publish storageText fails initial b where
  wellFormed : b.db.responseStore.WellFormed
  sealed : ∀ entry ∈ b.issued, ∃ at_, sealing.sealContext at_ entry.2 = .ok entry.1
  plain : ∀ entry ∈ b.issued, entry.2.original_request.payload.conversation_id = none
  continues : ∀ entry ∈ b.issued, Commit.Continues codec b.db entry.2.commitContext
  distinct : (b.issued.map fun entry => entry.2.response_id).Nodup
  unused : ∀ entry ∈ b.issued, initial.responses.lookup entry.2.response_id = none
  waiting : ∀ turn ∈ b.persisting, (∃ entry ∈ b.issued, entry.2 = turn.1) ∧
    Commit.checks codec b.db turn.1.commitContext turn.2 = .ok ()

end

section
variable {Token Row : Type} {workload_token : Text} {sealing : Sealing Token} {codec : ItemCodec Row}
  {toolsResolved : Option (List ResponsesTool) → Option ToolChoice → ExecutorResult Unit}
  {ingest : Text → Option Text → UpstreamBody → ExecutorResult ResponseAccumulator}
  {retain publish : ResponseCheckpoint → ExecutorResult Unit} {storageText : ConversationError → Text} {fails : Bool}
  {initial after : ConversationStore Row} {b b' : Backend Token Row} {w : Written}
  {ahead behind : List (SplitContext × ResponsePayload)} {context : SplitContext} {payload : ResponsePayload}

/-- Two contexts under one id are one. -/
theorem Inv.context_of_id (inv : Inv sealing codec retain publish storageText fails initial b)
    {entry other : Token × SplitContext} (here : entry ∈ b.issued) (there : other ∈ b.issued)
    (same : entry.2.response_id = other.2.response_id) : entry = other :=
  List.inj_on_of_nodup_map inv.distinct here there same

/-- What the write of a turn has to keep. -/
structure Writes (codec : ItemCodec Row) (db after : ConversationStore Row) (w : Written) : Prop where
  grows : db.responseStore.Grows after.responseStore
  wellFormed : after.responseStore.WellFormed
  stored : ∀ response_id, (after.responses.lookup response_id).isSome = true ↔
    (db.responses.lookup response_id).isSome = true ∨ w.Stored ∧ w.context.response_id = response_id
  history : w.Stored → ∃ rows,
    ResponseStore.Before codec after.responseStore w.context.original_request.payload.previous_response_id rows ∧
    after.responseStore.rehydrate codec w.context.response_id = .ok (rows ++ ResponseStore.readBack codec w.items)

theorem Writes.refl (wf : after.responseStore.WellFormed) (unstored : ¬w.Stored) : Writes codec after after w :=
  ⟨.refl, wf, fun _ => ⟨.inl, fun | .inl here => here | .inr no => absurd no.1 unstored⟩, fun stored => absurd stored unstored⟩

/-- A split of a list with one more element is at its end or before it. -/
theorem append_singleton_split {α : Type} {front before after : List α} {last a : α}
    (split : front ++ [last] = before ++ a :: after) :
    (before = front ∧ a = last) ∨ ∃ rest, front = before ++ a :: rest := by
  rcases List.eq_nil_or_concat after with rfl | ⟨rest, final, rfl⟩
  · obtain ⟨rfl, same⟩ := List.append_inj' split rfl
    exact .inl ⟨rfl, (List.cons.inj same).1.symm⟩
  · rw [List.concat_eq_append, ← List.cons_append, ← List.append_assoc] at split
    exact .inr ⟨rest, (List.append_inj' split rfl).1⟩

theorem Inv.write {result : ExecutorResult Unit} (inv : Inv sealing codec retain publish storageText fails initial b)
    (waiting : b.persisting = ahead ++ (context, payload) :: behind)
    (run : Commit.persistIfNeeded codec retain publish storageText fails b.db payload context.commitContext = (result, after))
    (writes : Writes codec b.db after ⟨context, payload, result.map fun _ => payload⟩)
    (decided : context.commitContext.Stores payload → Decided b.written ⟨context, payload, result.map fun _ => payload⟩) :
    Inv sealing codec retain publish storageText fails initial
      { b with db := after, persisting := ahead ++ behind
               written := b.written ++ [⟨context, payload, result.map fun _ => payload⟩] } := by
  have accepted := inv.waiting (context, payload) (by rw [waiting]; exact List.mem_append_right _ List.mem_cons_self)
  constructor
  · constructor
    · refine .commit inv.serial ?_
      rw [Commit.commit_eq, accepted.2]
      show ((Commit.persistIfNeeded codec retain publish storageText fails b.db payload context.commitContext).1.map _, _) = _
      rw [run]
    · intro w mem
      rcases List.mem_append.1 mem with old | new
      · exact inv.known w old
      · rw [List.mem_singleton.1 new]
        exact accepted.1
    · intro before w rest split stores
      rcases append_singleton_split split with ⟨rfl, rfl⟩ | ⟨more, earlier⟩
      · exact decided stores
      · exact inv.decided before w more earlier stores
    · intro response_id
      rw [writes.stored, inv.stored, or_assoc]
      apply or_congr Iff.rfl
      constructor
      · rintro (⟨w, mem, stored⟩ | stored)
        · exact ⟨w, List.mem_append_left _ mem, stored⟩
        · exact ⟨_, List.mem_append_right _ (List.mem_singleton.2 rfl), stored⟩
      · rintro ⟨w, mem, stored⟩
        rcases List.mem_append.1 mem with old | new
        · exact .inl ⟨w, old, stored⟩
        · rw [List.mem_singleton.1 new] at stored
          exact .inr stored
    · intro w mem stored
      rcases List.mem_append.1 mem with old | new
      · obtain ⟨rows, before, read⟩ := inv.history w old stored
        exact ⟨rows, before.grows writes.grows inv.wellFormed, writes.grows.rehydrate inv.wellFormed read⟩
      · rw [List.mem_singleton.1 new] at stored ⊢
        exact writes.history stored
    · exact inv.grows.trans writes.grows
  · exact writes.wellFormed
  · exact inv.sealed
  · exact inv.plain
  · exact fun entry mem => (inv.continues entry mem).grows inv.wellFormed writes.grows
  · exact inv.distinct
  · exact inv.unused
  · intro turn mem
    have still : turn ∈ b.persisting := by
      rw [waiting]
      rcases List.mem_append.1 mem with front | back
      · exact List.mem_append_left _ front
      · exact List.mem_append_right _ (List.mem_cons_of_mem _ back)
    obtain ⟨⟨entry, issued, same⟩, checked⟩ := inv.waiting turn still
    refine ⟨⟨entry, issued, same⟩, Commit.checks_grows ⟨rfl, ?_⟩ inv.wellFormed writes.grows checked⟩
    rw [← same]
    exact inv.plain entry issued

/-- **One turn is written**, or found to be stored already. -/
theorem Inv.write_step (inv : Inv sealing codec retain publish storageText fails initial b)
    (waiting : b.persisting = ahead ++ (context, payload) :: behind) :
    Inv sealing codec retain publish storageText fails initial
      (let turn := Commit.persistIfNeeded codec retain publish storageText fails b.db payload context.commitContext
      { b with
        db := turn.2
        persisting := ahead ++ behind
        written := b.written ++ [⟨context, payload, turn.1.map fun _ => payload⟩] }) := by
  obtain ⟨⟨entry, issued, rfl⟩, -⟩ :=
    inv.waiting (context, payload) (by rw [waiting]; exact List.mem_append_right _ List.mem_cons_self)
  have bare : entry.2.commitContext.Bare := ⟨rfl, inv.plain entry issued⟩
  -- whoever has stored the id has stored this context
  have mine : ∀ w ∈ b.written, w.context.response_id = entry.2.response_id → w.context = entry.2 := by
    intro w mem same
    obtain ⟨other, there, here⟩ := inv.known w mem
    rw [← here] at same ⊢
    rw [inv.context_of_id there issued same]
  rcases @Commit.needed_cases _ codec retain publish storageText fails b.db _ payload bare (inv.continues entry issued)
    inv.wellFormed with ⟨unstored, run⟩ | ⟨stores, taken, run⟩ | ⟨stores, free, after, run, grows, wf, stored, history⟩
  · dsimp only
    rw [run]
    exact inv.write waiting run (.refl inv.wellFormed fun stored => unstored stored.2) fun stores => absurd stores unstored
  · dsimp only
    rw [run]
    refine inv.write waiting run (.refl inv.wellFormed fun stored => nomatch stored.1) fun _ => ⟨fun first => ?_, fun _ => rfl⟩
    rcases (inv.stored _).1 taken with old | ⟨w, mem, stored, same⟩
    · have unused := inv.unused entry issued
      change (initial.responses.lookup entry.2.response_id).isSome = true at old
      rw [unused] at old
      cases old
    · exact absurd stored (first w mem (mine w mem same))
  · dsimp only
    rw [run]
    refine inv.write waiting run ⟨grows, wf, fun id => ?_, fun _ => history⟩ fun _ => ⟨fun _ => rfl, fun ⟨w, mem, same, done⟩ => ?_⟩
    · rw [stored]
      apply or_congr Iff.rfl
      exact ⟨fun same => ⟨⟨rfl, stores⟩, same.symm⟩, fun same => same.2.symm⟩
    · have taken := (inv.stored entry.2.response_id).2 (.inr ⟨w, mem, done, by rw [same]⟩)
      change b.db.responses.lookup entry.2.response_id = none at free
      rw [free] at taken
      cases taken

/-- **A step of the service** keeps the invariant. -/
theorem Inv.step (faithful : sealing.Faithful) (inv : Inv sealing codec retain publish storageText fails initial b)
    (step : b.Step workload_token sealing codec toolsResolved ingest retain publish storageText fails b') :
    Inv sealing codec retain publish storageText fails initial b' := by
  cases step with
  | hydrate admitted unissued unstored rehydrated hydrated =>
    rename_i presented now request response_id ctx hydration
    obtain ⟨found, again, plain, sealed, -⟩ := buildHydration_ok hydrated
    obtain rfl : found = ctx := Except.ok.inj (again.symm.trans rehydrated)
    obtain ⟨-, named, same⟩ := rehydrateConversation_resumes rehydrated
    have named : (SplitContext.ofTurn found).response_id = response_id := named
    constructor
    · exact { inv.toSound with
        known := fun w mem =>
          let ⟨entry, issued, same⟩ := inv.known w mem
          ⟨entry, List.mem_append_left _ issued, same⟩ }
    · exact inv.wellFormed
    · intro entry mem
      rcases List.mem_append.1 mem with old | new
      · exact inv.sealed entry old
      · rw [List.mem_singleton.1 new]
        exact ⟨now, sealed⟩
    · intro entry mem
      rcases List.mem_append.1 mem with old | new
      · exact inv.plain entry old
      · rw [List.mem_singleton.1 new]
        exact (congrArg RequestPayload.conversation_id same).trans plain
    · intro entry mem
      rcases List.mem_append.1 mem with old | new
      · exact inv.continues entry old
      · rw [List.mem_singleton.1 new]
        intro previous_id continues
        exact rehydrateConversation_previous rehydrated
          ((congrArg RequestPayload.previous_response_id same).symm.trans continues)
    · show ((b.issued ++ [_]).map _).Nodup
      rw [List.map_append, List.nodup_append]
      refine ⟨inv.distinct, List.nodup_singleton _, fun id here other there => ?_⟩
      obtain ⟨entry, issued, rfl⟩ := List.mem_map.1 here
      rw [List.map_singleton, List.mem_singleton] at there
      rw [there]
      exact fun clash => unissued entry issued (clash.trans named)
    · intro entry mem
      rcases List.mem_append.1 mem with old | new
      · exact inv.unused entry old
      · rw [List.mem_singleton.1 new]
        show initial.responses.lookup (SplitContext.ofTurn found).response_id = none
        rw [named]
        by_contra there
        have old := (inv.stored response_id).2 (.inl (Option.isSome_iff_ne_none.2 there))
        rw [unstored] at old
        cases old
    · intro turn mem
      obtain ⟨⟨entry, issued, same⟩, checked⟩ := inv.waiting turn mem
      exact ⟨⟨entry, List.mem_append_left _ issued, same⟩, checked⟩
  | check admitted unforged opened decoded accepted =>
    rename_i presented now request context body payload
    obtain ⟨entry, issued, handed⟩ := unforged
    obtain ⟨at_, sealed⟩ := inv.sealed entry issued
    have unsealed : sealing.unsealContext now request.context = .ok context := by
      unfold openContext at opened
      obtain ⟨upstream, -, opened⟩ := bind_eq_ok.1 opened
      split at opened
      · cases opened
      · split at opened
        · cases opened
        · obtain ⟨unsealed, there, opened⟩ := bind_eq_ok.1 opened
          cases opened
          exact there
    rw [← handed] at unsealed
    have same : context = entry.2 := faithful _ _ _ _ _ sealed unsealed
    refine { inv with waiting := fun turn mem => ?_ }
    rcases List.mem_append.1 mem with old | new
    · exact inv.waiting turn old
    · rw [List.mem_singleton.1 new]
      exact ⟨⟨entry, issued, same.symm⟩, accepted⟩
  | write waiting => exact inv.write_step waiting

end

end Split
end AgenticStack
