import AgenticStack.Storage.ResponseRows

/-!
# Turns of a conversation follow one another

However turns of a conversation overlap, those that are written are written one
after the other, each on what it has read.
-/

namespace AgenticStack
set_option autoImplicit false
open Library

section
variable {α : Type} {r : α → α → Prop} [DecidableRel r] {xs ys : List α}

theorem orderedInsert_append {x : α} (below : ∀ y ∈ ys, r x y) : (xs ++ ys).orderedInsert r x = xs.orderedInsert r x ++ ys := by
  induction xs with
  | nil =>
    cases ys with
    | nil => rfl
    | cons y ys => exact List.orderedInsert_cons_of_le r ys (below y List.mem_cons_self)
  | cons a xs ih =>
    rw [List.cons_append, List.orderedInsert_cons, List.orderedInsert_cons, ih]
    split <;> rfl

/-- What comes after everything else in order stays where it is. -/
theorem insertionSort_append (sorted : ys.Pairwise r) (below : ∀ x ∈ xs, ∀ y ∈ ys, r x y) :
    (xs ++ ys).insertionSort r = xs.insertionSort r ++ ys := by
  induction xs with
  | nil =>
    induction ys with
    | nil => rfl
    | cons y ys ih =>
      obtain ⟨first, sorted⟩ := List.pairwise_cons.1 sorted
      have rest := ih sorted fun _ no => nomatch no
      rw [List.nil_append] at rest ⊢
      rw [List.insertionSort_cons_of_forall_rel r first, rest]
      rfl
  | cons x xs ih =>
    rw [List.cons_append, List.insertionSort_cons, List.insertionSort_cons, ih fun a here => below a (List.mem_cons_of_mem _ here)]
    exact orderedInsert_append (below x List.mem_cons_self)

end

section
variable {Row : Type} {c c' : Text} {start : Int} {data more : List Row}

theorem numbered_append : numbered c start (data ++ more) = numbered c start data ++ numbered c (start + data.length) more := by
  induction data generalizing start with
  | nil => simp [numbered]
  | cons d data ih =>
    rw [List.cons_append, numbered, numbered, ih, List.cons_append, List.length_cons]
    congr 3
    omega

theorem mem_numbered {row : ItemRow Row} (here : row ∈ numbered c start data) :
    row.conversation_id = some c ∧ ∃ k : Nat, k < data.length ∧ row.seq = some (start + k) := by
  induction data generalizing start with
  | nil => cases here
  | cons d data ih =>
    rcases List.mem_cons.1 here with rfl | there
    · exact ⟨rfl, 0, Nat.succ_pos _, by simp⟩
    · obtain ⟨own, k, within, seq⟩ := ih there
      refine ⟨own, k + 1, Nat.succ_lt_succ within, ?_⟩
      rw [seq]
      congr 1
      omega

theorem filterMap_seq_numbered :
    (numbered c start data).filterMap (·.seq) = (List.range data.length).map fun k : Nat => start + (k : Int) := by
  induction data generalizing start with
  | nil => rfl
  | cons d data ih =>
    rw [numbered, List.filterMap_cons, ih, List.length_cons, List.range_succ_eq_map, List.map_cons, List.map_map]
    dsimp only
    congr 1
    · simp
    · apply List.map_congr_left
      intro k _
      simp only [Function.comp_apply, Nat.succ_eq_add_one]
      omega

theorem numbered_sorted : (numbered c start data).Pairwise fun a b => seqLe a.seq b.seq = true := by
  induction data generalizing start with
  | nil => exact .nil
  | cons d data ih =>
    refine List.pairwise_cons.2 ⟨fun row here => ?_, ih⟩
    obtain ⟨-, k, -, seq⟩ := mem_numbered here
    simp only [seq, seqLe, decide_eq_true_eq]
    omega

theorem length_numbered : (numbered c start data).length = data.length := by
  induction data generalizing start with
  | nil => rfl
  | cons d data ih => rw [numbered, List.length_cons, List.length_cons, ih]

/-- What numbered rows read back as. -/
theorem filterMap_read_numbered {codec : ItemCodec Row} :
    (numbered c start data).filterMap (fun row => codec.read row.data) = data.filterMap codec.read := by
  induction data generalizing start with
  | nil => rfl
  | cons d data ih => rw [numbered, List.filterMap_cons, List.filterMap_cons, ih]

theorem lastOf_ok {last s : Option Int} {rows : List (ItemRow Row)} (read : lastOf last rows = .ok s) :
    s = ((rows.filterMap (·.seq)).getLast?).or last := by
  induction rows generalizing last with
  | nil =>
    cases read
    rfl
  | cons row rows ih =>
    rw [lastOf] at read
    cases seq : row.seq with
    | none => simp [seq] at read
    | some sequence =>
      rw [seq] at read
      rw [ih read, List.filterMap_cons_some seq, List.getLast?_cons]
      cases (rows.filterMap (·.seq)).getLast? <;> rfl

theorem lastOf_isOk (last : Option Int) {rows : List (ItemRow Row)} (all : ∀ row ∈ rows, row.seq ≠ none) :
    ∃ s, lastOf last rows = .ok s := by
  induction rows generalizing last with
  | nil => exact ⟨last, rfl⟩
  | cons row rows ih =>
    obtain ⟨sequence, found⟩ := Option.ne_none_iff_exists'.1 (all row List.mem_cons_self)
    rw [lastOf, found]
    exact ih _ fun other here => all other (List.mem_cons_of_mem _ here)

theorem lastOf_all {last s : Option Int} {rows : List (ItemRow Row)} (read : lastOf last rows = .ok s) :
    ∀ row ∈ rows, row.seq ≠ none := by
  induction rows generalizing last with
  | nil => exact fun _ no => nomatch no
  | cons row rows ih =>
    rw [lastOf] at read
    cases seq : row.seq with
    | none => simp [seq] at read
    | some sequence =>
      rw [seq] at read
      intro other here
      rcases List.mem_cons.1 here with rfl | there
      · rw [seq]
        exact fun no => nomatch no
      · exact ih read other there

theorem getLast?_eq_max? {l : List Int} (sorted : l.Pairwise (· ≤ ·)) : l.getLast? = l.max? := by
  cases last : l.getLast? with
  | none =>
    rw [List.getLast?_eq_none_iff.1 last]
    rfl
  | some a =>
    symm
    obtain ⟨front, rfl⟩ := List.getLast?_eq_some_iff.1 last
    rw [List.max?_eq_some_iff]
    refine ⟨by simp, fun b here => ?_⟩
    rcases List.mem_append.1 here with before | this
    · exact (List.pairwise_append.1 sorted).2.2 b before a (List.mem_singleton.2 rfl)
    · rw [List.mem_singleton.1 this]

theorem max?_perm {l l' : List Int} (perm : l.Perm l') : l.max? = l'.max? := by
  cases most : l'.max? with
  | none =>
    rw [List.max?_eq_none_iff] at most
    rw [List.max?_eq_none_iff, ← List.length_eq_zero_iff, perm.length_eq, most]
    rfl
  | some a =>
    rw [List.max?_eq_some_iff] at most ⊢
    exact ⟨perm.mem_iff.2 most.1, fun b here => most.2 b (perm.mem_iff.1 here)⟩

namespace ConversationStore

variable {codec : ItemCodec Row} {store store' : ConversationStore Row}

theorem seqLe_total (a b : Option Int) : (seqLe a b || seqLe b a) = true := by
  cases a <;> cases b <;> simp [seqLe]
  omega

theorem seqLe_trans {a b d : Option Int} (ab : seqLe a b = true) (bd : seqLe b d = true) : seqLe a d = true := by
  cases a <;> cases b <;> cases d <;> simp [seqLe] at *
  omega

theorem ordered_perm : (store.ordered c).Perm (store.rowsOf c) := List.perm_insertionSort _ _

theorem ordered_sorted : ((store.ordered c).filterMap (·.seq)).Pairwise (· ≤ ·) := by
  have sorted : (store.ordered c).Pairwise fun a b => seqLe a.seq b.seq = true := by
    have : Std.Total fun a b : ItemRow Row => seqLe a.seq b.seq = true := ⟨fun a b => by
      simpa using seqLe_total a.seq b.seq⟩
    have : IsTrans (ItemRow Row) fun a b => seqLe a.seq b.seq = true := ⟨fun _ _ _ => seqLe_trans⟩
    exact List.pairwise_insertionSort _ _
  refine List.Pairwise.filterMap _ (fun a b le x xa y yb => ?_) sorted
  rw [xa, yb] at le
  simpa [seqLe] using le

theorem rowsOf_append {rows : List (ItemRow Row)} : rowsOf { store with items := store.items ++ rows } c =
    store.rowsOf c ++ rows.filter fun row => row.conversation_id = some c := List.filter_append ..

theorem filter_numbered : (numbered c start data).filter (fun row => row.conversation_id = some c') =
    if c = c' then numbered c start data else [] := by
  by_cases same : c = c'
  · rw [if_pos same, List.filter_eq_self]
    intro row here
    simpa [(mem_numbered here).1] using same
  · rw [if_neg same, List.filter_eq_nil_iff]
    intro row here
    simpa [(mem_numbered here).1] using same

theorem le_lastConversationSequence {s : Int} (here : s ∈ (store.rowsOf c).filterMap (·.seq)) : s < store.nextSequence c := by
  rw [nextSequence]
  cases last : store.lastConversationSequence c with
  | none =>
    rw [lastConversationSequence, List.max?_eq_none_iff] at last
    rw [last] at here
    cases here
  | some top =>
    rw [lastConversationSequence, List.max?_eq_some_iff] at last
    have := last.2 s here
    show s < top + 1
    omega

/-- A batch takes the next numbers. -/
theorem nextSequence_create : (store.createWithNextConversationSeq c data).nextSequence c = store.nextSequence c + data.length := by
  have rows : ((store.createWithNextConversationSeq c data).rowsOf c).filterMap (·.seq) =
      (store.rowsOf c).filterMap (·.seq) ++ (List.range data.length).map fun k : Nat => store.nextSequence c + (k : Int) := by
    rw [createWithNextConversationSeq, rowsOf_append, filter_numbered, if_pos rfl, List.filterMap_append, filterMap_seq_numbered]
  cases data with
  | nil =>
    rw [List.length_nil, List.range_zero, List.map_nil, List.append_nil] at rows
    rw [nextSequence, lastConversationSequence, rows]
    exact (Int.add_zero _).symm
  | cons d data =>
    have last : (store.createWithNextConversationSeq c (d :: data)).lastConversationSequence c =
        some (store.nextSequence c + data.length) := by
      rw [lastConversationSequence, rows, List.max?_eq_some_iff]
      constructor
      · exact List.mem_append_right _ (List.mem_map.2 ⟨data.length, List.mem_range.2 (Nat.lt_succ_self _), rfl⟩)
      · intro s here
        rcases List.mem_append.1 here with before | new
        · have := le_lastConversationSequence before
          omega
        · obtain ⟨k, within, rfl⟩ := List.mem_map.1 new
          have := List.mem_range.1 within
          rw [List.length_cons] at this
          omega
    rw [nextSequence, last, List.length_cons, Option.getD_some]
    omega

/-- However many batches it takes, the rows are numbered in one go. -/
theorem createInTx_eq : store.createInTx c data = store.createWithNextConversationSeq c data := by
  induction store, data using createInTx.induct c with
  | case1 tx => rw [createInTx, if_pos rfl, createWithNextConversationSeq, numbered, List.append_nil]
  | case2 tx items some ih =>
    rw [createInTx, if_neg some, ih]
    conv_rhs => rw [← List.take_append_drop MAX_ITEMS_PER_INSERT items]
    rw [createWithNextConversationSeq, nextSequence_create]
    simp only [createWithNextConversationSeq]
    rw [numbered_append, List.append_assoc]

variable (store c c' data) in
/-- The rows of a turn come last. -/
theorem ordered_create : (store.createWithNextConversationSeq c data).ordered c' =
    store.ordered c' ++ if c = c' then numbered c (store.nextSequence c) data else [] := by
  rw [ordered, createWithNextConversationSeq, rowsOf_append, filter_numbered]
  by_cases same : c = c'
  · subst same
    rw [if_pos rfl]
    refine insertionSort_append numbered_sorted fun row before new after => ?_
    obtain ⟨-, k, -, seq⟩ := mem_numbered after
    rw [seq]
    cases earlier : row.seq with
    | none => rfl
    | some s =>
      have := le_lastConversationSequence (List.mem_filterMap.2 ⟨row, before, earlier⟩)
      simp only [seqLe, decide_eq_true_eq]
      omega
  · rw [if_neg same, List.append_nil, List.append_nil]
    rfl

/-- The version a conversation is at. -/
def version (store : ConversationStore Row) (c : Text) : ConversationVersion :=
  .fromSnapshot (store.lastConversationSequence c) (store.conversations.lookup c).join

/-- The foreign keys of the schema. -/
structure Consistent (store : ConversationStore Row) : Prop where
  conversation : ∀ row ∈ store.items, ∀ c, row.conversation_id = some c → store.conversations.lookup c ≠ none
  latest : ∀ c r, store.conversations.lookup c = some (some r) → store.responses.lookup r ≠ none

theorem Consistent.rowsOf_nil (h : store.Consistent) (unknown : store.conversations.lookup c = none) : store.rowsOf c = [] := by
  rw [rowsOf, List.filter_eq_nil_iff]
  intro row here
  simpa using fun own => h.conversation row here c own unknown

/-- A snapshot is taken at the current version. -/
theorem rehydrateSnapshot_ok {snapshot : ConversationSnapshot} (h : store.Consistent)
    (read : store.rehydrateSnapshot codec c = .ok snapshot) :
    snapshot.version = store.version c ∧ snapshot.items = (store.ordered c).filterMap fun row => codec.read row.data := by
  unfold rehydrateSnapshot at read
  rw [version, lastConversationSequence]
  cases known : store.conversations.lookup c with
  | none =>
    have rows : store.getSnapshot c = (none, []) := by rw [getSnapshot, known]
    rw [rows] at read
    cases read
    rw [ordered, h.rowsOf_nil known]
    exact ⟨rfl, rfl⟩
  | some latest =>
    have rows : store.getSnapshot c = (latest, store.ordered c) := by rw [getSnapshot, known]
    rw [rows] at read
    obtain ⟨last, found, made⟩ := bind_eq_ok.1 read
    rw [pure_eq_ok] at made
    rw [← made]
    refine ⟨?_, rfl⟩
    rw [lastOf_ok found, Option.or_none, getLast?_eq_max? ordered_sorted, max?_perm (ordered_perm.filterMap _)]
    rfl

theorem rehydrateSnapshot_items {snapshot : ConversationSnapshot} (known : store.conversations.lookup c ≠ none)
    (read : store.rehydrateSnapshot codec c = .ok snapshot) :
    snapshot.items = (store.ordered c).filterMap fun row => codec.read row.data := by
  obtain ⟨latest, found⟩ := Option.ne_none_iff_exists'.1 known
  have rows : store.getSnapshot c = (latest, store.ordered c) := by rw [getSnapshot, found]
  unfold rehydrateSnapshot at read
  rw [rows] at read
  obtain ⟨last, -, made⟩ := bind_eq_ok.1 read
  cases made
  rfl

variable (codec) in
/-- A conversation that exists can be read when each of its rows is numbered. -/
theorem rehydrateSnapshot_isOk (known : store.conversations.lookup c ≠ none) :
    (∃ snapshot, store.rehydrateSnapshot codec c = .ok snapshot) ↔ ∀ row ∈ store.ordered c, row.seq ≠ none := by
  obtain ⟨latest, found⟩ := Option.ne_none_iff_exists'.1 known
  have rows : store.getSnapshot c = (latest, store.ordered c) := by rw [getSnapshot, found]
  unfold rehydrateSnapshot
  rw [rows]
  constructor
  · rintro ⟨snapshot, read⟩
    obtain ⟨last, numbers, -⟩ := bind_eq_ok.1 read
    exact lastOf_all numbers
  · intro all
    obtain ⟨last, numbers⟩ := lastOf_isOk none all
    exact ⟨_, bind_eq_ok.2 ⟨last, numbers, rfl⟩⟩

/-- A turn is written only on a conversation that is still at the version it has read. -/
theorem persistIfVersion_ok {expected : ConversationVersion} {response_id : Text} {previous_response_id : Option Text}
    {new_items : List InOutItem} {metadata : ResponseMetadata} {fails : Bool}
    (written : store.persistIfVersion codec c expected response_id previous_response_id new_items metadata fails = .ok store') :
    store.conversations.lookup c ≠ none ∧ expected = store.version c ∧ store.responses.lookup response_id = none ∧
      store'.conversations = insertEntry store.conversations c (some response_id) ∧
      (∃ response, store'.responses = store.responses ++ [(response_id, response)]) ∧
      store'.items = (store.createWithNextConversationSeq c (new_items.map codec.write)).items := by
  unfold persistIfVersion persistImpl at written
  split at written
  · cases written
  · split at written
    · cases written
    · rename_i latest known
      split at written
      · cases written
      · rename_i same
        split at written
        · cases written
        · rename_i free
          cases written
          rw [createInTx_eq]
          refine ⟨by simp [known], ?_, Option.not_isSome_iff_eq_none.1 free, rfl, ⟨_, rfl⟩, rfl⟩
          rw [version, known]
          simpa using same

/-- A written turn adds its rows behind those of the conversation. -/
theorem persistIfVersion_ordered {expected : ConversationVersion} {response_id : Text} {previous_response_id : Option Text}
    {new_items : List InOutItem} {metadata : ResponseMetadata} {fails : Bool}
    (written : store.persistIfVersion codec c expected response_id previous_response_id new_items metadata fails = .ok store') :
    store'.ordered c = store.ordered c ++ numbered c (store.nextSequence c) (new_items.map codec.write) := by
  obtain ⟨-, -, -, -, -, items⟩ := persistIfVersion_ok written
  have created := ordered_create c c (new_items.map codec.write) store
  rw [if_pos rfl] at created
  rw [← created, ordered, ordered, rowsOf, rowsOf, items]

/-- **A conversation reads back** as what it was before the turn and the items written with it. -/
theorem persistIfVersion_rehydrates {expected : ConversationVersion} {response_id : Text} {previous_response_id : Option Text}
    {new_items : List InOutItem} {metadata : ResponseMetadata} {fails : Bool} {snapshot : ConversationSnapshot}
    (written : store.persistIfVersion codec c expected response_id previous_response_id new_items metadata fails = .ok store')
    (read : store.rehydrateSnapshot codec c = .ok snapshot) :
    ∃ version, store'.rehydrateSnapshot codec c =
      .ok ⟨snapshot.items ++ ResponseStore.readBack codec new_items, version⟩ := by
  obtain ⟨known, -, -, conversations, -⟩ := persistIfVersion_ok written
  have rows := persistIfVersion_ordered written
  have known' : store'.conversations.lookup c ≠ none := by
    rw [conversations, lookup_insertEntry_ne_none]
    exact .inl rfl
  have numbers : ∀ row ∈ store'.ordered c, row.seq ≠ none := by
    intro row here
    rw [rows] at here
    rcases List.mem_append.1 here with old | new
    · exact (rehydrateSnapshot_isOk codec known).1 ⟨_, read⟩ row old
    · obtain ⟨-, k, -, seq⟩ := mem_numbered new
      rw [seq]
      exact fun no => nomatch no
  obtain ⟨snapshot', read'⟩ := (rehydrateSnapshot_isOk codec known').2 numbers
  have same : snapshot'.items = snapshot.items ++ ResponseStore.readBack codec new_items := by
    rw [rehydrateSnapshot_items known' read', rehydrateSnapshot_items known read, rows, List.filterMap_append,
      filterMap_read_numbered, List.filterMap_map]
    rfl
  refine ⟨snapshot'.version, ?_⟩
  rw [read', ← same]

/-- A stale version is a conflict. -/
theorem persistIfVersion_stale {expected : ConversationVersion} {response_id : Text} {previous_response_id : Option Text}
    {new_items : List InOutItem} {metadata : ResponseMetadata} (known : store.conversations.lookup c ≠ none)
    (stale : expected ≠ store.version c) :
    store.persistIfVersion codec c expected response_id previous_response_id new_items metadata false
      = .error .conversationConflict := by
  obtain ⟨latest, found⟩ := Option.ne_none_iff_exists'.1 known
  rw [version, found] at stale
  unfold persistIfVersion persistImpl
  rw [if_neg Bool.false_ne_true, found]
  dsimp only
  rw [if_pos (by simpa using stale)]

/-- What depends on the rows of `c` and on its latest response only. -/
structure SameOn (store store' : ConversationStore Row) (c : Text) : Prop where
  rows : store'.rowsOf c = store.rowsOf c
  snapshot : store'.getSnapshot c = store.getSnapshot c
  latest : (store'.conversations.lookup c).join = (store.conversations.lookup c).join

namespace SameOn

variable (same : store.SameOn store' c)
include same

theorem ordered : store'.ordered c = store.ordered c := by rw [ConversationStore.ordered, same.rows]; rfl

theorem nextSequence : store'.nextSequence c = store.nextSequence c := by
  rw [ConversationStore.nextSequence, lastConversationSequence, same.rows]
  rfl

theorem version : store'.version c = store.version c := by
  rw [ConversationStore.version, lastConversationSequence, same.rows, same.latest]
  rfl

theorem rehydrateSnapshot : store'.rehydrateSnapshot codec c = store.rehydrateSnapshot codec c := by
  unfold ConversationStore.rehydrateSnapshot
  rw [same.snapshot]

end SameOn

theorem getOrCreate_same (h : store.Consistent) : store.SameOn (store.getOrCreate c) c' := by
  rw [getOrCreate]
  split
  · exact ⟨rfl, rfl, rfl⟩
  · rename_i new
    by_cases same : c' = c
    · subst same
      have added : (store.conversations ++ [(c', none)]).lookup c' = some none := by
        rw [List.lookup_append, new, Option.none_or, lookup_cons_self]
      refine ⟨rfl, ?_, by rw [added, new]; rfl⟩
      rw [getSnapshot, getSnapshot, new, added]
      dsimp only
      rw [ordered]
      show (none, List.insertionSort _ (store.rowsOf c')) = _
      rw [h.rowsOf_nil new]
      rfl
    · have kept : (store.conversations ++ [(c, none)]).lookup c' = store.conversations.lookup c' := by
        rw [List.lookup_append, lookup_cons_ne fun here => same here.symm]
        exact Option.or_none
      refine ⟨rfl, ?_, by rw [kept]⟩
      rw [getSnapshot, getSnapshot, kept]
      rfl

theorem getOrCreate_kept (here : store.conversations.lookup c' ≠ none) :
    (store.getOrCreate c).conversations.lookup c' ≠ none := by
  rw [getOrCreate]
  split
  · exact here
  · obtain ⟨latest, found⟩ := Option.ne_none_iff_exists'.1 here
    show (store.conversations ++ _).lookup c' ≠ none
    rw [List.lookup_append, found]
    exact fun no => nomatch no

theorem getOrCreate_consistent (h : store.Consistent) : (store.getOrCreate c).Consistent := by
  constructor
  · intro row here c' own
    have items : (store.getOrCreate c).items = store.items := by rw [getOrCreate]; split <;> rfl
    exact getOrCreate_kept (h.conversation row (items ▸ here) c' own)
  · intro c' r latest
    have responses : (store.getOrCreate c).responses = store.responses := by rw [getOrCreate]; split <;> rfl
    rw [responses]
    apply h.latest c' r
    rw [getOrCreate] at latest
    split at latest
    · exact latest
    · rw [List.lookup_append] at latest
      cases found : store.conversations.lookup c' with
      | some _ => rwa [found, Option.some_or] at latest
      | none =>
        rw [found, Option.none_or] at latest
        by_cases same : c = c'
        · rw [same, lookup_cons_self] at latest
          cases latest
        · rw [lookup_cons_ne same] at latest
          cases latest

theorem version_lastResponse {r : Text} {last : Option Int} (at_response : store.version c = .lastResponse r last) :
    store.conversations.lookup c = some (some r) := by
  rw [version] at at_response
  cases found : store.conversations.lookup c with
  | none =>
    rw [found] at at_response
    cases sequence : store.lastConversationSequence c <;> simp [sequence, ConversationVersion.fromSnapshot] at at_response
  | some latest =>
    rw [found] at at_response
    cases latest with
    | none => cases sequence : store.lastConversationSequence c <;> simp [sequence, ConversationVersion.fromSnapshot] at at_response
    | some r' =>
      simp only [Option.join_some, ConversationVersion.fromSnapshot, ConversationVersion.lastResponse.injEq] at at_response
      rw [at_response.1]

theorem lookup_snoc_ne_none {responses : List (Text × ResponseData)} {r response_id : Text} {response : ResponseData}
    (here : responses.lookup r ≠ none) : (responses ++ [(response_id, response)]).lookup r ≠ none := by
  obtain ⟨found, there⟩ := Option.ne_none_iff_exists'.1 here
  rw [List.lookup_append, there]
  exact fun no => nomatch no

end ConversationStore

namespace ConversationWorld

open ConversationStore

variable {codec : ItemCodec Row} {initial : ConversationStore Row} {w : ConversationWorld Row}

/-- What a turn that has read its conversation knows: whether it is still current. -/
structure Knows (codec : ItemCodec Row) (w : ConversationWorld Row) (t : CapturedTurn) : Prop where
  before : t.turns ≤ (w.committedOn t.conversation_id).length
  current : t.turns = (w.committedOn t.conversation_id).length →
    w.store.rehydrateSnapshot codec t.conversation_id = .ok t.snapshot
  stale : t.turns < (w.committedOn t.conversation_id).length →
    w.store.conversations.lookup t.conversation_id ≠ none ∧ t.snapshot.version ≠ w.store.version t.conversation_id
  stored : ∀ r last, t.snapshot.version = .lastResponse r last → w.store.responses.lookup r ≠ none

/-- What every reachable world keeps of the one it started from: each conversation holds its old rows and then the
items of its committed turns, numbered on without a gap. -/
structure Serial (codec : ItemCodec Row) (initial : ConversationStore Row) (w : ConversationWorld Row) : Prop where
  consistent : w.store.Consistent
  ordered : ∀ c, w.store.ordered c = initial.ordered c ++ numbered c (initial.nextSequence c) (w.writtenOn codec c)
  next : ∀ c, w.store.nextSequence c = initial.nextSequence c + (w.writtenOn codec c).length
  knows : ∀ turn t, w.captured.lookup turn = some t → w.Knows codec t

/-- A step that commits nothing. -/
theorem Serial.of_same {store : ConversationStore Row} (h : w.Serial codec initial) (consistent : store.Consistent)
    (same : ∀ c, w.store.SameOn store c) (kept : ∀ c, w.store.conversations.lookup c ≠ none → store.conversations.lookup c ≠ none)
    (grown : ∀ r, w.store.responses.lookup r ≠ none → store.responses.lookup r ≠ none) :
    ({ w with store } : ConversationWorld Row).Serial codec initial := by
  refine ⟨consistent, fun c => ?_, fun c => ?_, fun turn t found => ?_⟩
  · exact (same c).ordered.trans (h.ordered c)
  · exact (same c).nextSequence.trans (h.next c)
  · obtain ⟨before, current, stale, stored⟩ := h.knows turn t found
    refine ⟨before, fun now => ?_, fun late => ?_, fun r last here => grown r (stored r last here)⟩
    · rw [(same t.conversation_id).rehydrateSnapshot]
      exact current now
    · rw [(same t.conversation_id).version]
      exact ⟨kept _ (stale late).1, (stale late).2⟩

theorem committedOn_append {store : ConversationStore Row} {turn : CommittedTurn} :
    committedOn { w with store, committed := w.committed ++ [turn] } c =
      w.committedOn c ++ if turn.conversation_id = c then [turn] else [] := by
  rw [committedOn, List.filter_append]
  by_cases here : turn.conversation_id = c <;> simp [here, committedOn]

theorem writtenOn_append {store : ConversationStore Row} {turn : CommittedTurn} :
    writtenOn codec { w with store, committed := w.committed ++ [turn] } c =
      w.writtenOn codec c ++ if turn.conversation_id = c then turn.new_items.map codec.write else [] := by
  rw [writtenOn, committedOn_append, List.flatMap_append]
  split
  · rw [List.flatMap_singleton]
    rfl
  · rfl

/-- A turn that is committed makes every other one that has read its conversation stale. -/
theorem commit_serial {t : CapturedTurn} {store : ConversationStore Row} {response_id : Text} {previous_response_id : Option Text}
    {new_items : List InOutItem} {metadata : ResponseMetadata} {fails : Bool} (h : w.Serial codec initial)
    (written : w.store.persistIfVersion codec t.conversation_id t.snapshot.version response_id previous_response_id new_items
      metadata fails = .ok store) :
    Serial codec initial
      { w with store, committed := w.committed ++ [{ conversation_id := t.conversation_id, new_items }] } := by
  obtain ⟨known, -, free, conversations, ⟨response, responses⟩, items⟩ := persistIfVersion_ok written
  have rows (c : Text) : store.rowsOf c =
      (w.store.createWithNextConversationSeq t.conversation_id (new_items.map codec.write)).rowsOf c := by
    rw [rowsOf, items]
    rfl
  have next (c : Text) : store.nextSequence c =
      (w.store.createWithNextConversationSeq t.conversation_id (new_items.map codec.write)).nextSequence c := by
    rw [ConversationStore.nextSequence, lastConversationSequence, rows]
    rfl
  have apart {c : Text} (other : t.conversation_id ≠ c) : w.store.SameOn store c := by
    have kept : store.rowsOf c = w.store.rowsOf c := by
      rw [rows, createWithNextConversationSeq, rowsOf_append, filter_numbered, if_neg other, List.append_nil]
    have latest : store.conversations.lookup c = w.store.conversations.lookup c := by
      rw [conversations, lookup_insertEntry_ne fun same => other same.symm]
    refine ⟨kept, ?_, by rw [latest]⟩
    rw [getSnapshot, getSnapshot, latest, ConversationStore.ordered, ConversationStore.ordered, kept]
  constructor
  · constructor
    · intro row here c own
      rw [conversations, lookup_insertEntry_ne_none]
      rw [items] at here
      rcases List.mem_append.1 here with before | new
      · exact .inr (h.consistent.conversation row before c own)
      · rw [(mem_numbered new).1, Option.some.injEq] at own
        exact .inl own.symm
    · intro c r latest
      rw [responses]
      rw [conversations] at latest
      by_cases same : c = t.conversation_id
      · rw [same, lookup_insertEntry_self, Option.some.injEq, Option.some.injEq] at latest
        rw [← latest, ResponseStore.lookup_snoc free]
        exact fun no => nomatch no
      · rw [lookup_insertEntry_ne same] at latest
        exact lookup_snoc_ne_none (h.consistent.latest c r latest)
  · intro c
    show store.ordered c = _
    rw [ConversationStore.ordered, rows, writtenOn_append, ← ConversationStore.ordered, ordered_create, h.ordered c]
    by_cases same : t.conversation_id = c
    · rw [if_pos same, if_pos same, numbered_append, same, ← h.next c, List.append_assoc]
    · rw [if_neg same, if_neg same, List.append_nil, List.append_nil]
  · intro c
    show store.nextSequence c = _
    rw [writtenOn_append]
    by_cases same : t.conversation_id = c
    · subst same
      rw [if_pos rfl, next, nextSequence_create, h.next, List.length_append]
      dsimp only
      omega
    · rw [if_neg same, List.append_nil, (apart same).nextSequence, h.next]
  · intro turn t' found
    obtain ⟨before, current, stale, stored⟩ := h.knows turn t' found
    have grown : ∀ r last, t'.snapshot.version = .lastResponse r last → store.responses.lookup r ≠ none := by
      intro r last here
      rw [responses]
      exact lookup_snoc_ne_none (stored r last here)
    by_cases same : t.conversation_id = t'.conversation_id
    · have longer : (committedOn { w with store, committed := w.committed ++ [⟨t.conversation_id, new_items⟩] } t'.conversation_id).length
          = (w.committedOn t'.conversation_id).length + 1 := by
        rw [committedOn_append, if_pos same, List.length_append]
        rfl
      refine ⟨by omega, fun no => by omega, fun _ => ⟨?_, fun no => ?_⟩, grown⟩
      · show store.conversations.lookup _ ≠ none
        rw [conversations, lookup_insertEntry_ne_none]
        exact .inl same.symm
      · rw [version, ← same, conversations, lookup_insertEntry_self] at no
        exact stored response_id _ no free
    · have still : committedOn { w with store, committed := w.committed ++ [⟨t.conversation_id, new_items⟩] } t'.conversation_id
          = w.committedOn t'.conversation_id := by
        rw [committedOn_append, if_neg same, List.append_nil]
      refine ⟨by rw [still]; exact before, fun now => ?_, fun late => ?_, grown⟩
      · rw [still] at now
        rw [(apart same).rehydrateSnapshot]
        exact current now
      · rw [still] at late
        obtain ⟨there, changed⟩ := stale late
        refine ⟨?_, by rw [(apart same).version]; exact changed⟩
        show store.conversations.lookup _ ≠ none
        rw [conversations, lookup_insertEntry_ne_none]
        exact .inr there

theorem step_serial (op : ConversationOp Row) (h : w.Serial codec initial) : (w.step codec op).Serial codec initial := by
  cases op with
  | create c =>
    exact h.of_same (getOrCreate_consistent h.consistent) (fun _ => getOrCreate_same h.consistent)
      (fun _ => getOrCreate_kept) fun r here => by
        have responses : (w.store.getOrCreate c).responses = w.store.responses := by rw [getOrCreate]; split <;> rfl
        rwa [responses]
  | capture turn c =>
    rw [step]
    split
    · exact h
    · rename_i snapshot read
      refine ⟨h.consistent, h.ordered, h.next, fun turn' t found => ?_⟩
      by_cases this : turn' = turn
      · subst this
        rw [lookup_insertEntry_self, Option.some.injEq] at found
        subst found
        refine ⟨Nat.le_refl _, fun _ => read, fun late => absurd late (Nat.lt_irrefl _), fun r last at_response => ?_⟩
        rw [(rehydrateSnapshot_ok h.consistent read).1] at at_response
        exact h.consistent.latest c r (version_lastResponse at_response)
      · rw [lookup_insertEntry_ne this] at found
        obtain ⟨before, current, stale, stored⟩ := h.knows turn' t found
        exact ⟨before, current, stale, stored⟩
  | persist turn response_id previous_response_id new_items metadata fails =>
    rw [step]
    split
    · exact h
    · rename_i t found
      split
      · exact h
      · rename_i store written
        exact commit_serial h written
  | respond response_id response rows =>
    rw [step]
    split
    · exact h
    · have none_here (c : Text) : (rows.map fun data => ({ data, conversation_id := none, seq := none } : ItemRow Row)).filter
          (fun row => row.conversation_id = some c) = [] := by
        rw [List.filter_eq_nil_iff]
        intro row here
        obtain ⟨data, -, rfl⟩ := List.mem_map.1 here
        simp
      have same (c : Text) : w.store.SameOn { w.store with
          items := w.store.items ++ rows.map fun data => { data, conversation_id := none, seq := none }
          responses := w.store.responses ++ [(response_id, response)] } c := by
        have kept : rowsOf { w.store with
            items := w.store.items ++ rows.map fun data => { data, conversation_id := none, seq := none }
            responses := w.store.responses ++ [(response_id, response)] } c = w.store.rowsOf c := by
          show (w.store.items ++ _).filter _ = _
          rw [List.filter_append, none_here, List.append_nil]
          rfl
        refine ⟨kept, ?_, rfl⟩
        rw [getSnapshot, getSnapshot, ConversationStore.ordered, ConversationStore.ordered, kept]
      refine h.of_same ⟨fun row here c own => ?_, fun c r here => ?_⟩ same (fun _ here => here) fun _ => lookup_snoc_ne_none
      · rcases List.mem_append.1 here with before | new
        · exact h.consistent.conversation row before c own
        · obtain ⟨data, -, rfl⟩ := List.mem_map.1 new
          cases own
      · exact lookup_snoc_ne_none (h.consistent.latest c r here)

theorem run_serial (ops : List (ConversationOp Row)) (h : w.Serial codec initial) : (w.run codec ops).Serial codec initial := by
  induction ops generalizing w with
  | nil => exact h
  | cons op ops ih => exact ih (step_serial op h)

theorem flatMap_read {turns : List CommittedTurn} :
    (turns.flatMap fun turn => turn.new_items.map codec.write).filterMap codec.read =
      turns.flatMap fun turn => ResponseStore.readBack codec turn.new_items := by
  rw [List.filterMap_flatMap]
  congr 1
  funext turn
  rw [List.filterMap_map]
  rfl

/-- The turns that were committed are a serial history of each conversation, and a
turn joins it only if it has read all of it. -/
structure Serializable (codec : ItemCodec Row) (initial : ConversationStore Row) (w : ConversationWorld Row) : Prop where
  /-- The rows of the turns follow in the order of their commits, numbered without a gap. -/
  ordered : ∀ c, w.store.ordered c = initial.ordered c ++ numbered c (initial.nextSequence c) (w.writtenOn codec c)
  read : ∀ c snapshot, w.store.rehydrateSnapshot codec c = .ok snapshot →
    snapshot.items = (initial.ordered c).filterMap (fun row => codec.read row.data) ++
      (w.committedOn c).flatMap fun turn => ResponseStore.readBack codec turn.new_items
  /-- Where the items of its turns read back as they were, a conversation loses none of them. -/
  lossless : ∀ c, (∀ turn ∈ w.committedOn c, ∀ item ∈ turn.new_items, codec.read (codec.write item) = some item) → ∀ snapshot,
    w.store.rehydrateSnapshot codec c = .ok snapshot →
    snapshot.items = (initial.ordered c).filterMap (fun row => codec.read row.data) ++
      (w.committedOn c).flatMap (·.new_items)
  /-- A turn that is written has seen every turn before it, and its items follow what it has read. -/
  written : ∀ turn t response_id previous_response_id new_items metadata fails store, w.captured.lookup turn = some t →
    w.store.persistIfVersion codec t.conversation_id t.snapshot.version response_id previous_response_id new_items metadata
      fails = .ok store →
    (w.committedOn t.conversation_id).length = t.turns ∧
    w.store.rehydrateSnapshot codec t.conversation_id = .ok t.snapshot ∧
    store.ordered t.conversation_id = w.store.ordered t.conversation_id ++
      numbered t.conversation_id (w.store.nextSequence t.conversation_id) (new_items.map codec.write) ∧
    ∃ snapshot, store.rehydrateSnapshot codec t.conversation_id = .ok snapshot ∧
      snapshot.items = t.snapshot.items ++ ResponseStore.readBack codec new_items
  /-- A turn that has missed one writes nothing. -/
  stale : ∀ turn t response_id previous_response_id new_items metadata fails, w.captured.lookup turn = some t →
    (w.committedOn t.conversation_id).length ≠ t.turns →
    w.step codec (.persist turn response_id previous_response_id new_items metadata fails) = w ∧
    w.store.persistIfVersion codec t.conversation_id t.snapshot.version response_id previous_response_id new_items metadata
      false = .error .conversationConflict

/-- **Conversation turns are serializable**, whatever the conversations held before,
and however turns, failures and other writes are interleaved. -/
theorem turns_serializable (codec : ItemCodec Row) (initial : ConversationStore Row) (consistent : initial.Consistent)
    (ops : List (ConversationOp Row)) :
    Serializable codec initial (run codec { store := initial, captured := [], committed := [] } ops) := by
  have h : (run codec { store := initial, captured := [], committed := [] } ops).Serial codec initial := by
    refine run_serial ops ⟨consistent, fun c => ?_, fun c => (Int.add_zero _).symm, fun _ _ no => nomatch no⟩
    exact (List.append_nil _).symm
  generalize run codec { store := initial, captured := [], committed := [] } ops = w at h
  have reading (c : Text) (snapshot : ConversationSnapshot) (read : w.store.rehydrateSnapshot codec c = .ok snapshot) :
      snapshot.items = (initial.ordered c).filterMap (fun row => codec.read row.data) ++
        (w.committedOn c).flatMap fun turn => ResponseStore.readBack codec turn.new_items := by
    rw [(rehydrateSnapshot_ok h.consistent read).2, h.ordered c, List.filterMap_append, filterMap_read_numbered, writtenOn,
      flatMap_read]
  refine ⟨h.ordered, reading, fun c faithful snapshot read => ?_, ?_, ?_⟩
  · have whole : (w.committedOn c).flatMap (fun turn => ResponseStore.readBack codec turn.new_items) =
        (w.committedOn c).flatMap (·.new_items) := by
      refine List.flatMap_congr fun turn here => ?_
      rw [ResponseStore.readBack, List.filterMap_congr fun item mem => faithful turn here item mem]
      exact List.filterMap_some
    rw [reading c snapshot read, whole]
  · intro turn t response_id previous_response_id new_items metadata fails store found written
    obtain ⟨before, current, stale, -⟩ := h.knows turn t found
    obtain ⟨-, same, -⟩ := persistIfVersion_ok written
    have now : t.turns = (w.committedOn t.conversation_id).length :=
      Nat.le_antisymm before (Nat.le_of_not_lt fun late => (stale late).2 same)
    refine ⟨now.symm, current now, persistIfVersion_ordered written, ?_⟩
    obtain ⟨version, read⟩ := persistIfVersion_rehydrates written (current now)
    exact ⟨_, read, rfl⟩
  · intro turn t response_id previous_response_id new_items metadata fails found missed
    obtain ⟨before, -, stale, -⟩ := h.knows turn t found
    obtain ⟨known, changed⟩ := stale (by omega)
    refine ⟨?_, persistIfVersion_stale known changed⟩
    rw [step, found]
    dsimp only
    split
    · rfl
    · rename_i store written
      exact absurd (persistIfVersion_ok written).2.1 changed

open ResponseStore (storedMessage) in
/-- A conversation with a message, and two turns on it that read it at once: the second is a conflict, reads again and follows. -/
theorem turns_serializable_messages :
    let initial : ConversationStore Text := ⟨[("conv_1", none)], numbered "conv_1" 0 [(storedMessage "zero").toRow], []⟩
    let w := run (.rows rowSerde rowIds) { store := initial, captured := [], committed := [] }
      [.capture 0 "conv_1", .capture 1 "conv_1", .persist 0 "resp_1" none [storedMessage "one", storedMessage "two"] .default false,
        .persist 1 "resp_2" none [storedMessage "three"] .default false, .capture 1 "conv_1",
        .persist 1 "resp_2" none [storedMessage "three"] .default false]
    Serializable (.rows rowSerde rowIds) initial w ∧
      (w.committedOn "conv_1").map (·.new_items) = [[storedMessage "one", storedMessage "two"], [storedMessage "three"]] := by
  refine ⟨turns_serializable _ _ ⟨fun row here c own => ?_, fun c r latest => ?_⟩ _, ?_⟩
  · rw [(mem_numbered here).1] at own
    cases own
    decide
  · rw [List.lookup_cons] at latest
    split at latest
    · cases latest
    · cases latest
  · simp only [run, List.foldl_cons, List.foldl_nil, step, persistIfVersion, persistImpl, createInTx_eq]
    rfl

open ResponseStore (storedMessage) in
set_option maxRecDepth 20000 in
/-- An item whose row nests too deep is written with its turn, and the conversation reads back without it. -/
theorem nested_item_unread :
    let w := run (.rows rowSerde rowIds) { store := ⟨[], [], []⟩, captured := [], committed := [] }
      [.create "conv_1", .capture 0 "conv_1",
        .persist 0 "resp_1" none [storedMessage "one", searchFor "ts" (nested 127)] .default false]
    (w.committedOn "conv_1").map (·.new_items) = [[storedMessage "one", searchFor "ts" (nested 127)]] ∧
      (w.store.rehydrateSnapshot (.rows rowSerde rowIds) "conv_1").map (·.items) = .ok [storedMessage "one"] := by
  constructor
  · simp only [run, List.foldl_cons, List.foldl_nil, step, persistIfVersion, persistImpl, createInTx_eq]
    rfl
  · simp only [run, List.foldl_cons, List.foldl_nil, step, persistIfVersion, persistImpl, createInTx_eq]
    show Except.ok ([(storedMessage "one").toRow, (searchFor "ts" (nested 127)).toRow].filterMap (Item.asInout rowSerde rowIds)) = _
    rw [List.filterMap_cons, List.filterMap_cons, asInout_nested]
    rfl

end ConversationWorld
end
end AgenticStack
