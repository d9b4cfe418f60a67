import AgenticStack.Library.AssocList
import Mathlib.Data.List.Induction

/-!
# Ledgers of calls and answers

A ledger is read from left to right. A call opens an obligation under a fresh
id, an answer of the same kind closes it. `Book` is what a reader has to
remember: the ids used so far and the obligations still pending, in the order
they were opened.
-/

namespace AgenticStack.Library
set_option autoImplicit false

/-- One line of a ledger. -/
inductive Entry (ι κ : Type) where
  | call (id : ι) (kind : κ)
  | answer (id : ι) (kind : κ)
deriving DecidableEq, Repr

/-- The ids a ledger opens, in order. -/
def callIds {ι κ : Type} (xs : List (Entry ι κ)) : List ι :=
  xs.filterMap fun
    | .call id _ => some id
    | .answer _ _ => none

/-- The ids a ledger answers, in order. -/
def answerIds {ι κ : Type} (xs : List (Entry ι κ)) : List ι :=
  xs.filterMap fun
    | .call _ _ => none
    | .answer id _ => some id

/-- What has been read: the ids seen, latest first, and the calls still pending. -/
structure Book (ι κ : Type) where
  seen : List ι
  pending : List (ι × κ)
deriving DecidableEq, Repr

namespace Book

section
variable {ι κ : Type}

/-- No entries. -/
def empty : Book ι κ := ⟨[], []⟩

/-- The book with the obligations of `outer` before its own. -/
def under (outer b : Book ι κ) : Book ι κ := ⟨b.seen ++ outer.seen, outer.pending ++ b.pending⟩

/-- Pending calls have been seen, each under an id of its own. -/
structure Sound (b : Book ι κ) : Prop where
  pending_seen : ∀ p ∈ b.pending, p.1 ∈ b.seen
  keys : (b.pending.map Prod.fst).Nodup

/-- An empty book is sound. -/
theorem sound_empty : (empty : Book ι κ).Sound := ⟨by simp [empty], by simp [empty]⟩

end

variable {ι κ : Type} [DecidableEq ι] [DecidableEq κ] (valid : ι → Prop) [DecidablePred valid]

/-- Read one line. A call needs a valid fresh id, an answer a pending call of its kind. -/
def post (b : Book ι κ) : Entry ι κ → Option (Book ι κ)
  | .call id kind =>
    if valid id ∧ id ∉ b.seen then some ⟨id :: b.seen, b.pending ++ [(id, kind)]⟩ else none
  | .answer id kind =>
    if (id, kind) ∈ b.pending then some ⟨b.seen, b.pending.filter (·.1 ≠ id)⟩ else none

/-- Read a whole ledger. -/
def run (b : Book ι κ) : List (Entry ι κ) → Option (Book ι κ)
  | [] => some b
  | e :: xs => (b.post valid e).bind fun b' => run b' xs

variable {valid} {b b' outer : Book ι κ} {e : Entry ι κ} {xs ys : List (Entry ι κ)}

/-- Everything one line can do. -/
theorem post_cases (h : b.post valid e = some b') :
    (∃ id kind, e = .call id kind ∧ valid id ∧ id ∉ b.seen ∧ b' = ⟨id :: b.seen, b.pending ++ [(id, kind)]⟩) ∨
    (∃ id kind, e = .answer id kind ∧ (id, kind) ∈ b.pending ∧ b' = ⟨b.seen, b.pending.filter (·.1 ≠ id)⟩) := by
  cases e with
  | call id kind =>
    simp only [post, Option.ite_none_right_eq_some, Option.some.injEq] at h
    exact .inl ⟨id, kind, rfl, h.1.1, h.1.2, h.2.symm⟩
  | answer id kind =>
    simp only [post, Option.ite_none_right_eq_some, Option.some.injEq] at h
    exact .inr ⟨id, kind, rfl, h.1, h.2.symm⟩

@[simp] theorem run_nil : b.run valid [] = some b := rfl

theorem run_cons : b.run valid (e :: xs) = (b.post valid e).bind fun b' => b'.run valid xs := rfl

/-- Entries are posted one after the other. -/
theorem run_append : b.run valid (xs ++ ys) = (b.run valid xs).bind fun b' => b'.run valid ys := by
  induction xs generalizing b with
  | nil => rfl
  | cons e xs ih =>
    rw [List.cons_append, run_cons, run_cons]
    cases b.post valid e with
    | none => rfl
    | some b' => exact ih

theorem run_append_eq_some :
    b.run valid (xs ++ ys) = some b' ↔ ∃ m, b.run valid xs = some m ∧ m.run valid ys = some b' := by
  rw [run_append, Option.bind_eq_some_iff]

theorem run_cons_eq_some :
    b.run valid (e :: xs) = some b' ↔ ∃ m, b.post valid e = some m ∧ m.run valid xs = some b' := by
  rw [run_cons, Option.bind_eq_some_iff]

/-- Posting keeps a book sound. -/
theorem Sound.post (sound : b.Sound) (h : b.post valid e = some b') : b'.Sound := by
  obtain ⟨id, kind, -, -, fresh, rfl⟩ | ⟨id, kind, -, -, rfl⟩ := post_cases h
  · refine ⟨fun p hp => ?_, ?_⟩
    · rcases List.mem_append.1 hp with old | new
      · exact List.mem_cons_of_mem _ (sound.pending_seen p old)
      · rw [List.mem_singleton.1 new]
        exact List.mem_cons_self
    · have unused : id ∉ b.pending.map Prod.fst := by
        intro mem
        obtain ⟨p, hp, same⟩ := List.mem_map.1 mem
        exact fresh (same ▸ sound.pending_seen p hp)
      rw [List.map_append, List.nodup_append]
      refine ⟨sound.keys, List.nodup_singleton _, ?_⟩
      intro other mem new last same
      rw [List.map_singleton, List.mem_singleton] at last
      rw [same, last] at mem
      exact unused mem
  · refine ⟨fun p hp => sound.pending_seen p (List.mem_of_mem_filter hp), ?_⟩
    exact sound.keys.sublist (List.filter_sublist.map _)

/-- The run rule: what every line keeps, a whole ledger keeps. -/
theorem run_invariant {I : Book ι κ → Prop} (step : ∀ {b b' e}, I b → b.post valid e = some b' → I b')
    (start : I b) (h : b.run valid xs = some b') : I b' := by
  induction xs generalizing b with
  | nil => exact Option.some.inj h ▸ start
  | cons e xs ih =>
    obtain ⟨m, first, rest⟩ := run_cons_eq_some.1 h
    exact ih (step start first) rest

/-- Posting entries keeps a book sound. -/
theorem Sound.run (sound : b.Sound) (h : b.run valid xs = some b') : b'.Sound :=
  run_invariant (fun s p => s.post p) sound h

/-- A ledger that can be read has seen exactly its calls, after what was seen before. -/
theorem run_seen (h : b.run valid xs = some b') : b'.seen = (callIds xs).reverse ++ b.seen := by
  induction xs generalizing b with
  | nil => rw [← Option.some.inj h]; rfl
  | cons e xs ih =>
    obtain ⟨m, first, rest⟩ := run_cons_eq_some.1 h
    rw [ih rest]
    obtain ⟨id, kind, rfl, -, -, rfl⟩ | ⟨id, kind, rfl, -, rfl⟩ := post_cases first <;> simp [callIds]

/-- The calls of a readable ledger are fresh: none was seen before it. -/
theorem run_fresh (h : b.run valid xs = some b') : ∀ id ∈ callIds xs, id ∉ b.seen := by
  induction xs generalizing b with
  | nil => simp [callIds]
  | cons e xs ih =>
    obtain ⟨m, first, rest⟩ := run_cons_eq_some.1 h
    obtain ⟨id, kind, rfl, -, fresh, rfl⟩ | ⟨id, kind, rfl, -, rfl⟩ := post_cases first
    · intro other mem
      rcases List.mem_cons.1 mem with rfl | later
      · exact fresh
      · exact fun old => ih rest other later (List.mem_cons_of_mem _ old)
    · exact fun other mem old => ih rest other mem old

/-- One line read under an outer book that knows none of its ids. -/
theorem post_under (sound : b.Sound) (souter : outer.Sound) (apart : ∀ id ∈ b.seen, id ∉ outer.seen)
    (fresh : ∀ id kind, e = .call id kind → id ∉ outer.seen) (h : b.post valid e = some b') :
    (outer.under b).post valid e = some (outer.under b') := by
  obtain ⟨id, kind, rfl, ok, new, rfl⟩ | ⟨id, kind, rfl, mem, rfl⟩ := post_cases h
  · have unseen : id ∉ b.seen ++ outer.seen := by
      simp only [List.mem_append, not_or]
      exact ⟨new, fresh id kind rfl⟩
    simp [post, under, ok, unseen]
  · have kept : outer.pending.filter (·.1 ≠ id) = outer.pending := by
      rw [List.filter_eq_self]
      intro p hp
      have other : p.1 ≠ id := fun same =>
        apart id (sound.pending_seen _ mem) (same ▸ souter.pending_seen p hp)
      simpa using other
    have found : (id, kind) ∈ outer.pending ++ b.pending := List.mem_append_right _ mem
    simp only [post, under, found, if_true, List.filter_append, kept]

/-- **The frame rule**: a ledger readable by itself is readable under any outer
book that saw none of its ids, and leaves the outer obligations as they were. -/
theorem run_under (sound : b.Sound) (souter : outer.Sound) (apart : ∀ id ∈ b.seen, id ∉ outer.seen)
    (fresh : ∀ id ∈ callIds xs, id ∉ outer.seen) (h : b.run valid xs = some b') :
    (outer.under b).run valid xs = some (outer.under b') := by
  induction xs generalizing b with
  | nil => rw [← Option.some.inj h]; rfl
  | cons e xs ih =>
    obtain ⟨m, first, rest⟩ := run_cons_eq_some.1 h
    have freshHead : ∀ id kind, e = .call id kind → id ∉ outer.seen := by
      rintro id kind rfl
      exact fresh id (by simp [callIds])
    have freshTail : ∀ id ∈ callIds xs, id ∉ outer.seen := fun id mem =>
      fresh id (by cases e <;> simp [callIds] at mem ⊢ <;> simp [mem])
    have apartMid : ∀ id ∈ m.seen, id ∉ outer.seen := by
      obtain ⟨id, kind, rfl, -, -, rfl⟩ | ⟨id, kind, -, -, rfl⟩ := post_cases first
      · intro other mem
        rcases List.mem_cons.1 mem with rfl | old
        · exact freshHead _ kind rfl
        · exact apart other old
      · exact apart
    rw [run_cons, post_under sound souter apart freshHead first]
    exact ih (sound.post first) apartMid freshTail rest

/-- An outer book without obligations can be taken away again. -/
theorem run_of_under_seen {seen : List ι} {t : Book ι κ}
    (h : (under ⟨seen, []⟩ b).run valid xs = some t) :
    ∃ b', b.run valid xs = some b' ∧ t = under ⟨seen, []⟩ b' := by
  induction xs generalizing b with
  | nil => exact ⟨b, rfl, (Option.some.inj h).symm⟩
  | cons e xs ih =>
    obtain ⟨m, first, rest⟩ := run_cons_eq_some.1 h
    have inner : ∃ m', b.post valid e = some m' ∧ m = under ⟨seen, []⟩ m' := by
      obtain ⟨id, kind, rfl, ok, new, rfl⟩ | ⟨id, kind, rfl, mem, rfl⟩ := post_cases first
      · have unseen : id ∉ b.seen := fun old => new (List.mem_append_left _ old)
        exact ⟨⟨id :: b.seen, b.pending ++ [(id, kind)]⟩, by simp [post, ok, unseen], by simp [under]⟩
      · have mem : (id, kind) ∈ b.pending := by simpa [under] using mem
        exact ⟨⟨b.seen, b.pending.filter (·.1 ≠ id)⟩, by simp only [post, mem, if_true], by simp [under]⟩
    obtain ⟨m', post', rfl⟩ := inner
    obtain ⟨b', run', same⟩ := ih rest
    exact ⟨b', run_cons_eq_some.2 ⟨m', post', run'⟩, same⟩

end Book

/-- The id of a line. -/
def Entry.id {ι κ : Type} : Entry ι κ → ι
  | .call id _ => id
  | .answer id _ => id

/-- The calls that no line answers, in order. -/
def openCalls {ι κ : Type} [DecidableEq ι] (xs : List (Entry ι κ)) : List (ι × κ) :=
  xs.filterMap fun
    | .call id kind => if id ∈ answerIds xs then none else some (id, kind)
    | .answer _ _ => none

/-- Ids are valid, every call has its own, and every answer comes after the call it alone answers. -/
structure Matched {ι κ : Type} (valid : ι → Prop) (xs : List (Entry ι κ)) : Prop where
  valid : ∀ e ∈ xs, valid e.id
  once : (callIds xs).Nodup
  called : ∀ before id kind after, xs = before ++ .answer id kind :: after → .call id kind ∈ before
  alone : (answerIds xs).Nodup

section
variable {ι κ : Type} {valid : ι → Prop} {xs ys before after : List (Entry ι κ)} {e : Entry ι κ} {id : ι} {kind kind' : κ}

theorem callIds_append : callIds (xs ++ ys) = callIds xs ++ callIds ys := List.filterMap_append

theorem answerIds_append : answerIds (xs ++ ys) = answerIds xs ++ answerIds ys := List.filterMap_append

/-- The ids of the calls are those of call entries. -/
theorem mem_callIds : id ∈ callIds xs ↔ ∃ kind, .call id kind ∈ xs := by
  constructor
  · intro mem
    obtain ⟨e, here, own⟩ := List.mem_filterMap.1 mem
    cases e with
    | call other kind =>
      cases own
      exact ⟨kind, here⟩
    | answer => cases own
  · rintro ⟨kind, here⟩
    exact List.mem_filterMap.2 ⟨_, here, rfl⟩

/-- The ids of the answers are those of answer entries. -/
theorem mem_answerIds : id ∈ answerIds xs ↔ ∃ kind, .answer id kind ∈ xs := by
  constructor
  · intro mem
    obtain ⟨e, here, own⟩ := List.mem_filterMap.1 mem
    cases e with
    | call => cases own
    | answer other kind =>
      cases own
      exact ⟨kind, here⟩
  · rintro ⟨kind, here⟩
    exact List.mem_filterMap.2 ⟨_, here, rfl⟩

/-- A last line, seen as one line among others: it is that line, or the line is before it. -/
theorem snoc_split (h : xs ++ [e] = before ++ .answer id kind :: after) :
    (xs = before ∧ e = .answer id kind) ∨ ∃ rest, xs = before ++ .answer id kind :: rest := by
  rcases List.eq_nil_or_concat after with rfl | ⟨rest, last, rfl⟩
  · obtain ⟨same, last⟩ := List.append_inj' h rfl
    exact .inl ⟨same, List.singleton_inj.1 last⟩
  · have cut : xs ++ [e] = (before ++ .answer id kind :: rest) ++ [last] := by simpa using h
    exact .inr ⟨rest, (List.append_inj' cut rfl).1⟩

/-- Nothing is matched. -/
theorem Matched.nil : Matched valid ([] : List (Entry ι κ)) := by
  refine ⟨fun e here => absurd here List.not_mem_nil, List.nodup_nil, ?_, List.nodup_nil⟩
  intro before id kind after same
  exact absurd same (by simp)

/-- What is matched was matched before its last line. -/
theorem Matched.init (h : Matched valid (xs ++ [e])) : Matched valid xs := by
  refine ⟨fun other here => h.valid other (List.mem_append_left _ here), ?_, ?_, ?_⟩
  · exact (callIds_append ▸ h.once).sublist (List.sublist_append_left _ _)
  · rintro before id kind after rfl
    exact h.called before id kind (after ++ [e]) (by simp)
  · exact (answerIds_append ▸ h.alone).sublist (List.sublist_append_left _ _)

/-- A call is matched behind others where its id is new. -/
theorem matched_call_iff : Matched valid (xs ++ [.call id kind]) ↔ Matched valid xs ∧ valid id ∧ id ∉ callIds xs := by
  have calls : callIds (xs ++ [.call id kind]) = callIds xs ++ [id] := callIds_append
  have answers : answerIds (xs ++ [.call id kind]) = answerIds xs := answerIds_append.trans (List.append_nil _)
  constructor
  · intro h
    refine ⟨h.init, h.valid (.call id kind) (List.mem_append_right _ List.mem_cons_self), fun seen => ?_⟩
    have once := calls ▸ h.once
    exact (List.nodup_append.1 once).2.2 id seen id List.mem_cons_self rfl
  · rintro ⟨h, ok, fresh⟩
    refine ⟨?_, ?_, ?_, answers ▸ h.alone⟩
    · intro e here
      rcases List.mem_append.1 here with old | new
      · exact h.valid e old
      · rw [List.mem_singleton.1 new]
        exact ok
    · rw [calls, List.nodup_append]
      refine ⟨h.once, List.nodup_singleton _, ?_⟩
      rintro a old b new rfl
      exact fresh (List.mem_singleton.1 new ▸ old)
    · intro before id' kind' after same
      rcases snoc_split same with ⟨-, last⟩ | ⟨rest, rfl⟩
      · cases last
      · exact h.called before id' kind' rest rfl

/-- An answer is matched behind others where its call is open. -/
theorem matched_answer_iff : Matched valid (xs ++ [.answer id kind]) ↔
    Matched valid xs ∧ .call id kind ∈ xs ∧ id ∉ answerIds xs := by
  have calls : callIds (xs ++ [.answer id kind]) = callIds xs := callIds_append.trans (List.append_nil _)
  have answers : answerIds (xs ++ [.answer id kind]) = answerIds xs ++ [id] := answerIds_append
  constructor
  · intro h
    refine ⟨h.init, h.called xs id kind [] rfl, fun seen => ?_⟩
    have alone := answers ▸ h.alone
    exact (List.nodup_append.1 alone).2.2 id seen id List.mem_cons_self rfl
  · rintro ⟨h, called, fresh⟩
    refine ⟨?_, calls ▸ h.once, ?_, ?_⟩
    · intro e here
      rcases List.mem_append.1 here with old | new
      · exact h.valid e old
      · rw [List.mem_singleton.1 new]
        exact h.valid (.call id kind) called
    · intro before id' kind' after same
      rcases snoc_split same with ⟨rfl, last⟩ | ⟨rest, rfl⟩
      · cases last
        exact called
      · exact h.called before id' kind' rest rfl
    · rw [answers, List.nodup_append]
      refine ⟨h.alone, List.nodup_singleton _, ?_⟩
      rintro a old b new rfl
      exact fresh (List.mem_singleton.1 new ▸ old)

/-- Only calls are answered. -/
theorem Matched.answered (h : Matched valid xs) (answered : id ∈ answerIds xs) : id ∈ callIds xs := by
  obtain ⟨kind, here⟩ := mem_answerIds.1 answered
  obtain ⟨before, after, same⟩ := List.append_of_mem here
  have called := h.called before id kind after same
  exact mem_callIds.2 ⟨kind, same ▸ List.mem_append_left _ called⟩

end

section
variable {ι κ : Type} [DecidableEq ι] {xs : List (Entry ι κ)} {id : ι} {kind : κ}

/-- A call is open where it has no answer. -/
theorem mem_openCalls : (id, kind) ∈ openCalls xs ↔ .call id kind ∈ xs ∧ id ∉ answerIds xs := by
  constructor
  · intro mem
    obtain ⟨e, here, own⟩ := List.mem_filterMap.1 mem
    cases e with
    | call other kind' =>
      simp only [Option.ite_none_left_eq_some, Option.some.injEq, Prod.mk.injEq] at own
      obtain ⟨unanswered, rfl, rfl⟩ := own
      exact ⟨here, unanswered⟩
    | answer => cases own
  · rintro ⟨here, unanswered⟩
    exact List.mem_filterMap.2 ⟨_, here, by simp only [unanswered, if_false]⟩

/-- A call opens. -/
theorem openCalls_call (fresh : id ∉ answerIds xs) : openCalls (xs ++ [.call id kind]) = openCalls xs ++ [(id, kind)] := by
  have answers : answerIds (xs ++ [.call id kind]) = answerIds xs := answerIds_append.trans (List.append_nil _)
  unfold openCalls
  rw [answers, List.filterMap_append]
  simp [fresh]

/-- An answer closes its call. -/
theorem openCalls_answer : openCalls (xs ++ [.answer id kind]) = (openCalls xs).filter (·.1 ≠ id) := by
  have answers : answerIds (xs ++ [.answer id kind]) = answerIds xs ++ [id] := answerIds_append
  unfold openCalls
  rw [answers, List.filterMap_append, List.filter_filterMap, List.filterMap_cons, List.filterMap_nil, List.append_nil]
  apply List.filterMap_congr
  intro e _
  cases e with
  | call other kind' =>
    by_cases answered : other ∈ answerIds xs
    · simp [answered]
    · by_cases same : other = id
      · subst same
        simp [answered, Option.filter]
      · simp [answered, same, Option.filter]
  | answer => rfl

end

section
variable {ι κ : Type} [DecidableEq ι] [DecidableEq κ] {valid : ι → Prop} [DecidablePred valid] {xs : List (Entry ι κ)}
  {b : Book ι κ}

/-- **A ledger can be read exactly when it is matched**; the calls that no line answers are then pending. -/
theorem run_empty_iff : Book.empty.run valid xs = some b ↔ Matched valid xs ∧ b = ⟨(callIds xs).reverse, openCalls xs⟩ := by
  induction xs using List.reverseRecOn generalizing b with
  | nil =>
    rw [Book.run_nil, Option.some.injEq, eq_comm]
    exact ⟨fun same => ⟨.nil, same⟩, And.right⟩
  | append_singleton xs e ih =>
    rw [Book.run_append_eq_some]
    simp only [ih, Book.run_cons_eq_some, Book.run_nil, Option.some.injEq, exists_eq_right]
    cases e with
    | call id kind =>
      have calls : callIds (xs ++ [.call id kind]) = callIds xs ++ [id] := callIds_append
      rw [matched_call_iff, calls, List.reverse_append]
      constructor
      · rintro ⟨m, ⟨matched, rfl⟩, posted⟩
        simp only [Book.post, List.mem_reverse, Option.ite_none_right_eq_some, Option.some.injEq] at posted
        obtain ⟨⟨ok, fresh⟩, rfl⟩ := posted
        have unanswered : id ∉ answerIds xs := fun answered => fresh (matched.answered answered)
        exact ⟨⟨matched, ok, fresh⟩, by rw [openCalls_call unanswered]; rfl⟩
      · rintro ⟨⟨matched, ok, fresh⟩, rfl⟩
        have unanswered : id ∉ answerIds xs := fun answered => fresh (matched.answered answered)
        refine ⟨_, ⟨matched, rfl⟩, ?_⟩
        rw [openCalls_call unanswered]
        simp [Book.post, ok, fresh]
    | answer id kind =>
      have calls : callIds (xs ++ [.answer id kind]) = callIds xs := callIds_append.trans (List.append_nil _)
      rw [matched_answer_iff, calls, openCalls_answer, ← mem_openCalls]
      constructor
      · rintro ⟨m, ⟨matched, rfl⟩, posted⟩
        simp only [Book.post, Option.ite_none_right_eq_some, Option.some.injEq] at posted
        exact ⟨⟨matched, posted.1⟩, posted.2.symm⟩
      · rintro ⟨⟨matched, pending⟩, rfl⟩
        exact ⟨_, ⟨matched, rfl⟩, by simp [Book.post, pending]⟩

end

section
variable {ι κ : Type} [DecidableEq ι] [DecidableEq κ] (valid : ι → Prop) [DecidablePred valid]

/-- Every call is fresh and answered once, by a later answer of its kind, and nothing else is answered. -/
def Settled (xs : List (Entry ι κ)) : Prop := ∃ b, Book.empty.run valid xs = some b ∧ b.pending = []

/-- The second ledger answers calls that the first one leaves pending, and then nothing is pending. -/
def AnswersPending (xs ys : List (Entry ι κ)) : Prop :=
  ∃ m b, Book.empty.run valid xs = some m ∧ m.pending ≠ [] ∧ m.run valid ys = some b ∧ b.pending = []

variable {valid} {xs ys : List (Entry ι κ)}

/-- A ledger that answers pending calls of an earlier one is not settled by itself. -/
theorem not_settled_of_answersPending (h : AnswersPending valid xs ys) : ¬ Settled valid ys := by
  rintro ⟨b, alone, -⟩
  obtain ⟨m, t, first, open_, rest, closed⟩ := h
  have joint := Book.run_under Book.sound_empty (Book.sound_empty.run first) (by simp [Book.empty])
    (Book.run_fresh rest) alone
  have start : m.under Book.empty = m := by simp [Book.under, Book.empty]
  rw [start, rest] at joint
  have pending : t.pending = m.pending ++ b.pending := by rw [Option.some.inj joint]; rfl
  rw [closed] at pending
  exact open_ (List.append_eq_nil_iff.1 pending.symm).1

/-- **Settled ledgers in two parts**: either each part is settled and they share no
call, or the second part answers what the first leaves pending. -/
theorem settled_append_iff : Settled valid (xs ++ ys) ↔
    (Settled valid xs ∧ Settled valid ys ∧ ∀ id ∈ callIds ys, id ∉ callIds xs) ∨ AnswersPending valid xs ys := by
  constructor
  · rintro ⟨b, whole, closed⟩
    obtain ⟨m, first, rest⟩ := Book.run_append_eq_some.1 whole
    by_cases none_open : m.pending = []
    · left
      have seen := Book.run_seen first
      have start : Book.under ⟨m.seen, []⟩ Book.empty = m := by
        cases m
        simp_all [Book.under, Book.empty]
      obtain ⟨t, alone, same⟩ := Book.run_of_under_seen (start ▸ rest)
      refine ⟨⟨m, first, none_open⟩, ⟨t, alone, ?_⟩, fun id mem old => ?_⟩
      · simpa [same, Book.under] using closed
      · refine Book.run_fresh rest id mem ?_
        simp [seen, Book.empty, old]
    · exact .inr ⟨m, b, first, none_open, rest, closed⟩
  · rintro (⟨⟨m, first, closed⟩, ⟨t, alone, closed'⟩, apart⟩ | ⟨m, b, first, -, rest, closed⟩)
    · have start : m.under Book.empty = m := by simp [Book.under, Book.empty]
      have fresh : ∀ id ∈ callIds ys, id ∉ m.seen := fun id mem old =>
        apart id mem (by simpa [Book.run_seen first, Book.empty] using old)
      have joint := Book.run_under Book.sound_empty (Book.sound_empty.run first) (by simp [Book.empty]) fresh alone
      rw [start] at joint
      exact ⟨m.under t, Book.run_append_eq_some.2 ⟨m, first, joint⟩, by simp [Book.under, closed, closed']⟩
    · exact ⟨b, Book.run_append_eq_some.2 ⟨m, first, rest⟩, closed⟩

end

/-- A round of a ledger: calls of one kind, then the answers to some of them. -/
structure CallRound (ι : Type) where
  calls : List ι
  answers : List ι

namespace CallRound

section
variable {ι κ : Type} [DecidableEq ι]

/-- The calls of a round and then their answers. -/
def entries (kind : κ) (round : CallRound ι) : List (Entry ι κ) :=
  round.calls.map (.call · kind) ++ round.answers.map (.answer · kind)

/-- The calls that the round does not answer. -/
def left (round : CallRound ι) : List ι := round.calls.filter (· ∉ round.answers)

/-- The round answers calls of its own, each once. -/
structure Closes (round : CallRound ι) : Prop where
  own : ∀ id ∈ round.answers, id ∈ round.calls
  once : round.answers.Nodup

end

end CallRound

section
variable {ι κ : Type} {ids : List ι} {kind : κ} {xs : List (Entry ι κ)}

@[simp] theorem callIds_calls : callIds (ids.map fun id => Entry.call id kind) = ids := by
  unfold callIds
  rw [List.filterMap_map]
  exact List.filterMap_some

@[simp] theorem callIds_answers : callIds (ids.map fun id => Entry.answer id kind) = [] := by
  unfold callIds
  rw [List.filterMap_map]
  exact List.filterMap_none _

@[simp] theorem answerIds_calls : answerIds (ids.map fun id => Entry.call id kind) = [] := by
  unfold answerIds
  rw [List.filterMap_map]
  exact List.filterMap_none _

@[simp] theorem answerIds_answers : answerIds (ids.map fun id => Entry.answer id kind) = ids := by
  unfold answerIds
  rw [List.filterMap_map]
  exact List.filterMap_some

end

namespace Book

variable {ι κ : Type} [DecidableEq ι] [DecidableEq κ] {valid : ι → Prop} [DecidablePred valid] {b b' : Book ι κ}
  {ids : List ι} {kind : κ} {round : CallRound ι} {rounds : List (CallRound ι)}

/-- Fresh calls are all put down, in their order. -/
theorem run_calls (ok : ∀ id ∈ ids, valid id) (fresh : ∀ id ∈ ids, id ∉ b.seen) (apart : ids.Nodup) :
    b.run valid (ids.map (.call · kind)) = some ⟨ids.reverse ++ b.seen, b.pending ++ ids.map (·, kind)⟩ := by
  induction ids generalizing b with
  | nil => simp
  | cons id ids ih =>
    rw [List.forall_mem_cons] at ok fresh
    obtain ⟨new, apart⟩ := List.nodup_cons.1 apart
    have first : b.post valid (.call id kind) = some ⟨id :: b.seen, b.pending ++ [(id, kind)]⟩ := if_pos ⟨ok.1, fresh.1⟩
    have later : ∀ other ∈ ids, other ∉ id :: b.seen := by
      intro other mem seen
      rcases List.mem_cons.1 seen with same | old
      · exact new (same ▸ mem)
      · exact fresh.2 other mem old
    rw [List.map_cons, run_cons, first, Option.bind_some, ih ok.2 later apart]
    simp

/-- Answers to pending calls take them away. -/
theorem run_answers (owed : ∀ id ∈ ids, (id, kind) ∈ b.pending) (apart : ids.Nodup) :
    b.run valid (ids.map (.answer · kind)) = some ⟨b.seen, b.pending.filter (·.1 ∉ ids)⟩ := by
  induction ids generalizing b with
  | nil => simp
  | cons id ids ih =>
    rw [List.forall_mem_cons] at owed
    obtain ⟨new, apart⟩ := List.nodup_cons.1 apart
    have first : b.post valid (.answer id kind) = some ⟨b.seen, b.pending.filter (·.1 ≠ id)⟩ := if_pos owed.1
    have later : ∀ other ∈ ids, (other, kind) ∈ b.pending.filter (·.1 ≠ id) := by
      intro other mem
      refine List.mem_filter.2 ⟨owed.2 other mem, decide_eq_true ?_⟩
      rintro rfl
      exact new mem
    rw [List.map_cons, run_cons, first, Option.bind_some, ih later apart, List.filter_filter]
    congr 3
    funext p
    simp [Bool.and_comm]

/-- **One round** puts its calls down, and leaves those pending that it does not answer. -/
theorem run_round (sound : b.Sound) (ok : ∀ id ∈ round.calls, valid id) (fresh : ∀ id ∈ round.calls, id ∉ b.seen)
    (apart : round.calls.Nodup) (closes : round.Closes) :
    b.run valid (round.entries kind) = some ⟨round.calls.reverse ++ b.seen, b.pending ++ round.left.map (·, kind)⟩ := by
  have owed : ∀ id ∈ round.answers, (id, kind) ∈ b.pending ++ round.calls.map (·, kind) := fun id mem =>
    List.mem_append_right _ (List.mem_map_of_mem (closes.own id mem))
  have kept : b.pending.filter (·.1 ∉ round.answers) = b.pending := by
    rw [List.filter_eq_self]
    intro p mem
    exact decide_eq_true fun answered => fresh p.1 (closes.own p.1 answered) (sound.pending_seen p mem)
  unfold CallRound.entries
  rw [run_append, run_calls ok fresh apart, Option.bind_some, run_answers owed closes.once]
  dsimp only
  rw [List.filter_append, kept, List.filter_map]
  rfl

/-- **Rounds one after another** leave what each of them leaves. -/
theorem run_rounds (sound : b.Sound) (ok : ∀ id ∈ rounds.flatMap CallRound.calls, valid id)
    (fresh : ∀ id ∈ rounds.flatMap CallRound.calls, id ∉ b.seen) (apart : (rounds.flatMap CallRound.calls).Nodup)
    (closes : ∀ round ∈ rounds, round.Closes) :
    b.run valid (rounds.flatMap (CallRound.entries kind)) = some
      ⟨(rounds.flatMap CallRound.calls).reverse ++ b.seen, b.pending ++ (rounds.flatMap CallRound.left).map (·, kind)⟩ := by
  induction rounds generalizing b with
  | nil => simp
  | cons round rounds ih =>
    rw [List.flatMap_cons] at ok fresh apart
    rw [List.forall_mem_append] at ok fresh
    obtain ⟨apart, apart', differ⟩ := List.nodup_append.1 apart
    rw [List.forall_mem_cons] at closes
    have first := @run_round _ _ _ _ valid _ b kind round sound ok.1 fresh.1 apart closes.1
    have later : ∀ id ∈ rounds.flatMap CallRound.calls, id ∉ round.calls.reverse ++ b.seen := by
      intro id mem seen
      rcases List.mem_append.1 seen with here | old
      · exact differ id (List.mem_reverse.1 here) id mem rfl
      · exact fresh.2 id mem old
    rw [List.flatMap_cons, run_append, first, Option.bind_some, ih (sound.run first) ok.2 later apart' closes.2]
    simp

end Book
end AgenticStack.Library
