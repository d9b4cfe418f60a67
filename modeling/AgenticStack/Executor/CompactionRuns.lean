import AgenticStack.Executor.Compaction

/-!
# Repeated compactions

A compaction appends its window to the stored history: copies of the visible
user messages, and the summary. Read back, the history shows that window, plus
every message since the previous compaction that looks like a retained copy
because a client sent it completed and with an id.
-/

namespace AgenticStack
set_option autoImplicit false
open Library

/-- An item without its generated id and status. -/
def InputItem.anonymous : InputItem → InputItem
  | .message m => .message { m with id := none, status := none }
  | .compaction c => .compaction { c with id := none }
  | item => item

/-- Whether the item is a message of the user. -/
def InputItem.isUserMessage : InputItem → Bool
  | .message m => m.role = "user"
  | _ => false

/-- The user messages the model sees, as the clients wrote them. -/
def visibleUsers (items : List InputItem) : List InputItem :=
  ((modelItems items).filter InputItem.isUserMessage).map InputItem.anonymous

/-- The user messages among `items`, as the clients wrote them. -/
def userMessages (items : List InputItem) : List InputItem :=
  (items.filter InputItem.isUserMessage).map InputItem.anonymous

/-- The window of one compaction of `items`, as it is stored. -/
def compactedWindow (uuid7 : Nat → Text) (items : List InputItem) (summary : Text) : List InputItem :=
  finishCompactedWindow (uuid7 items.length) (retainedUserWindow uuid7 items) summary

/-- The items of `h` after its latest compaction that pass for retained copies. -/
def confusable (h : List InputItem) : List InputItem :=
  (sinceLast InputItem.isCompaction h).filter InputItem.isRetainedUser

/-- After a compaction the stored history reads as its window, and the window
holds each visible user message once, in order, and then the summary. -/
structure StableWindow (uuid7 : Nat → Text) (h : List InputItem) (summary : Text) : Prop where
  reads : (modelItems (h ++ compactedWindow uuid7 h summary)).map InputItem.anonymous =
    (compactedWindow uuid7 h summary).map InputItem.anonymous
  holds : (compactedWindow uuid7 h summary).map InputItem.anonymous =
    visibleUsers h ++ [.compaction { id := none, encrypted_content := summary }]

variable {uuid7 : Nat → Text} {h items : List InputItem} {summary : Text}

/-- A user item that is kept is a message of the user. -/
theorem InputItem.isUserMessage_of_isRetainedUser {i : InputItem} (hi : i.isRetainedUser = true) :
    i.isUserMessage = true := by
  cases i <;> simp_all [isRetainedUser, isUserMessage]

/-- A message of the user is shown to the model. -/
theorem InputItem.isModelVisible_of_isUserMessage {i : InputItem} (hi : i.isUserMessage = true) :
    i.isModelVisible = true := by
  cases i <;> simp_all [isUserMessage, isModelVisible]

/-- Hiding items hides no message of the user. -/
theorem filter_user_visible : (items.filter InputItem.isModelVisible).filter InputItem.isUserMessage =
    items.filter InputItem.isUserMessage := by
  rw [List.filter_filter]
  congr 1
  funext i
  cases user : i.isUserMessage with
  | false => rfl
  | true => simp [InputItem.isModelVisible_of_isUserMessage user]

/-- The items that are kept are messages of the user. -/
theorem filter_user_retained : (items.filter InputItem.isRetainedUser).filter InputItem.isUserMessage =
    items.filter InputItem.isRetainedUser := by
  rw [List.filter_filter]
  congr 1
  funext i
  cases retained : i.isRetainedUser with
  | false => simp
  | true => simp [InputItem.isUserMessage_of_isRetainedUser retained]

/-- Everything a window retains is a retained copy. -/
theorem isRetainedUser_of_mem_retainedUserWindow {i : InputItem} (mem : i ∈ retainedUserWindow uuid7 items) :
    i.isRetainedUser = true := by
  unfold retainedUserWindow at mem
  simp only [List.mem_filterMap] at mem
  obtain ⟨⟨item, index⟩, -, kept⟩ := mem
  cases item with
  | message m =>
    simp only [Option.ite_none_left_eq_some, Option.some.injEq, Bool.or_eq_true, not_or] at kept
    obtain ⟨⟨user, -⟩, rfl⟩ := kept
    simp only [decide_eq_true_eq, ne_eq, not_not] at user
    simp [InputItem.isRetainedUser, InputMessage.retain, user]
  | _ => simp at kept

/-- A user item is no checkpoint. -/
theorem isCompaction_of_isRetainedUser {i : InputItem} (hi : i.isRetainedUser = true) : i.isCompaction = false := by
  cases i <;> simp_all [InputItem.isRetainedUser, InputItem.isCompaction]

/-- The rule by which a window keeps an item. -/
def keepsUser (window : Option CompactionWindow) (p : InputItem × Nat) : Bool :=
  p.1.isUserMessage && match window with
    | none => true
    | some w => w.latest_index ≤ p.2 || w.retainsUserItem p.2 p.1

/-- The user items of a window are those that its checkpoints keep. -/
theorem retainedUserWindow_eq_filter : (retainedUserWindow uuid7 items).map InputItem.anonymous =
    ((items.zipIdx.filter (keepsUser (latestCompactionWindow items))).map Prod.fst).map InputItem.anonymous := by
  unfold retainedUserWindow
  rw [List.map_map]
  refine map_filterMap_eq fun p => ?_
  obtain ⟨item, index⟩ := p
  cases item with
  | message m =>
    by_cases user : m.role = "user"
    · cases latestCompactionWindow items with
      | none => simp [keepsUser, InputItem.isUserMessage, user, InputMessage.retain, InputItem.anonymous]
      | some w =>
        by_cases late : w.latest_index ≤ index
        · have notEarly : ¬ index < w.latest_index := by omega
          simp [keepsUser, InputItem.isUserMessage, user, late, notEarly, InputMessage.retain, InputItem.anonymous]
        · have early : index < w.latest_index := by omega
          cases retained : w.retainsUserItem index (.message m) <;>
            simp [keepsUser, InputItem.isUserMessage, user, late, early, retained, InputMessage.retain,
              InputItem.anonymous]
    · simp [keepsUser, InputItem.isUserMessage, user]
  | _ => simp [keepsUser, InputItem.isUserMessage]

/-- A window retains the user messages the model sees. -/
theorem retainedUserWindow_anonymous : (retainedUserWindow uuid7 items).map InputItem.anonymous = visibleUsers items := by
  rw [retainedUserWindow_eq_filter, visibleUsers]
  congr 1
  by_cases plain : latestCompactionWindow items = none
  · rw [modelItems_of_plain (latestCompactionWindow_eq_none_iff.1 plain), filter_user_visible, plain]
    exact map_fst_filter_zipIdx fun _ _ _ => by simp [keepsUser]
  · obtain ⟨old, kept, latest, new, shape⟩ := exists_checkpointed plain
    rw [shape.modelItems_eq, shape.window, shape.filter_zipIdx (fun _ => false) InputItem.isRetainedUser
      InputItem.isUserMessage]
    · have notUser : (InputItem.compaction latest).isUserMessage = false := rfl
      simp only [List.filter_append, List.filter_cons, notUser, filter_user_retained, filter_user_visible]
      simp
    · intro x i lt
      have early : ¬ old.length + kept.length ≤ i := by omega
      have notRetained : ¬ old.length ≤ i := by omega
      simp [keepsUser, CompactionWindow.retainsUserItem, early, notRetained]
    · intro x i ge lt
      have early : ¬ (old ++ kept).length ≤ i := by omega
      simp only [keepsUser, CompactionWindow.retainsUserItem, early, ge, lt, decide_true, decide_false,
        Bool.true_and, Bool.false_or]
      cases retained : x.isRetainedUser with
      | false => simp
      | true => simp [InputItem.isUserMessage_of_isRetainedUser retained]
    · intro x i ge
      simp only [keepsUser, ge, decide_true, Bool.true_or, Bool.and_true]

/-- **What a compacted history reads as**: the messages since the previous
compaction that pass for copies, and then the window. -/
theorem modelItems_append_compactedWindow : modelItems (h ++ compactedWindow uuid7 items summary) =
    confusable h ++ compactedWindow uuid7 items summary := by
  obtain ⟨old, split, ends⟩ := exists_endsIn_append InputItem.isCompaction h
  have retained : ∀ i ∈ retainedUserWindow uuid7 items, i.isRetainedUser = true :=
    fun i mem => isRetainedUser_of_mem_retainedUserWindow mem
  have shape : Checkpointed (h ++ compactedWindow uuid7 items summary) old
      (sinceLast InputItem.isCompaction h ++ retainedUserWindow uuid7 items)
      { id := some (utf8 "cmp_" ++ uuid7 items.length), encrypted_content := summary } [] := by
    refine ⟨?_, ends, ?_, by simp⟩
    · rw [← List.append_assoc, ← split]
      simp [compactedWindow, finishCompactedWindow]
    · intro i mem
      rcases List.mem_append.1 mem with since | copy
      · exact sinceLast_plain i since
      · exact isCompaction_of_isRetainedUser (retained i copy)
  rw [shape.modelItems_eq, List.filter_append, List.filter_eq_self.2 retained]
  simp [confusable, compactedWindow, finishCompactedWindow]

/-- The user messages of a window are the visible ones of what it compacts. -/
theorem userMessages_compactedWindow : userMessages (compactedWindow uuid7 items summary) = visibleUsers items := by
  have notUser (c : CompactionItem) : (InputItem.compaction c).isUserMessage = false := rfl
  have users : ∀ i ∈ retainedUserWindow uuid7 items, i.isUserMessage = true := fun i mem =>
    InputItem.isUserMessage_of_isRetainedUser (isRetainedUser_of_mem_retainedUserWindow mem)
  rw [← @retainedUserWindow_anonymous uuid7, userMessages, compactedWindow, finishCompactedWindow,
    List.filter_append, List.filter_eq_self.2 users]
  simp [notUser]

/-- A compacted window is the messages of the user and a checkpoint, up to ids. -/
theorem compactedWindow_anonymous : (compactedWindow uuid7 h summary).map InputItem.anonymous =
    visibleUsers h ++ [.compaction { id := none, encrypted_content := summary }] := by
  simp [compactedWindow, finishCompactedWindow, retainedUserWindow_anonymous, InputItem.anonymous]

/-- The window is stable exactly when no stored message since the previous compaction passes for a copy. -/
theorem stableWindow_iff : StableWindow uuid7 h summary ↔ confusable h = [] := by
  constructor
  · intro stable
    have same := congrArg List.length stable.reads
    rw [modelItems_append_compactedWindow] at same
    simp only [List.length_map, List.length_append] at same
    exact List.length_eq_zero_iff.1 (by omega)
  · intro none
    exact ⟨by rw [modelItems_append_compactedWindow, none, List.nil_append], compactedWindow_anonymous⟩

/-- What happens to a stored history: a turn appends its items, or a turn whose
input was compacted appends its window in place of that input. -/
inductive HistoryStep where
  | turn (items : List InputItem)
  | compactedTurn (input : List InputItem) (summary : Text) (uuid7 : Nat → Text)

/-- What a step makes of a history. -/
def HistoryStep.apply (h : List InputItem) : HistoryStep → List InputItem
  | .turn items => h ++ items
  | .compactedTurn input summary uuid7 =>
    h ++ compactedWindow uuid7 (h ++ input) summary

/-- The items a step brings in. -/
def HistoryStep.supplied : HistoryStep → List InputItem
  | .turn items => items
  | .compactedTurn input _ _ => input

/-- The user messages a history should show after a step: those shown before
and the new ones, unless the step itself supplies a compaction item. -/
def HistoryStep.usersAfter (h users : List InputItem) (s : HistoryStep) : List InputItem :=
  if s.supplied.any InputItem.isCompaction then visibleUsers (h ++ s.supplied) else users ++ userMessages s.supplied

/-- The user messages a run should show in the end. -/
def usersOfRun : List InputItem → List InputItem → List HistoryStep → List InputItem
  | _, users, [] => users
  | h, users, s :: steps => usersOfRun (s.apply h) (s.usersAfter h users) steps

/-- The history after every step. -/
def runHistory : List InputItem → List HistoryStep → List InputItem
  | h, [] => h
  | h, s :: steps => runHistory (s.apply h) steps

/-- At every compaction of the run, no stored message passes for a copy. -/
def CompactsClean : List InputItem → List HistoryStep → Prop
  | _, [] => True
  | h, s :: steps => (match s with
      | .turn _ => True
      | .compactedTurn .. => confusable h = []) ∧ CompactsClean (s.apply h) steps

/-- New items without a compaction add their user messages to the visible ones. -/
theorem visibleUsers_append (plain : ∀ i ∈ items, i.isCompaction = false) :
    visibleUsers (h ++ items) = visibleUsers h ++ userMessages items := by
  unfold visibleUsers userMessages
  rw [← List.map_append]
  congr 1
  by_cases none : latestCompactionWindow h = none
  · have plain_h := latestCompactionWindow_eq_none_iff.1 none
    rw [modelItems_of_plain plain_h, modelItems_of_plain, filter_user_visible, filter_user_visible, List.filter_append]
    intro i mem
    exact (List.mem_append.1 mem).elim (plain_h i) (plain i)
  · obtain ⟨old, kept, latest, new, shape⟩ := exists_checkpointed none
    have longer : Checkpointed (h ++ items) old kept latest (new ++ items) := by
      refine ⟨by rw [shape.parts]; simp, shape.old_ends, shape.kept_plain, fun i mem => ?_⟩
      exact (List.mem_append.1 mem).elim (shape.new_plain i) (plain i)
    have notUser : (InputItem.compaction latest).isUserMessage = false := rfl
    rw [shape.modelItems_eq, longer.modelItems_eq]
    simp only [List.filter_append, List.filter_cons, notUser, filter_user_visible]
    simp

/-- One step shows the user messages it should. -/
theorem visibleUsers_apply {s : HistoryStep} (clean : match s with
      | .turn _ => True
      | .compactedTurn .. => confusable h = []) :
    visibleUsers (s.apply h) = s.usersAfter h (visibleUsers h) := by
  have after : visibleUsers (h ++ s.supplied) = s.usersAfter h (visibleUsers h) := by
    unfold HistoryStep.usersAfter
    split
    · rfl
    · rename_i plain
      exact visibleUsers_append (by simpa using plain)
  rw [← after]
  cases s with
  | turn items => rfl
  | compactedTurn input summary uuid7 =>
    have none : confusable h = [] := clean
    unfold visibleUsers HistoryStep.apply
    rw [modelItems_append_compactedWindow, none, List.nil_append]
    exact userMessages_compactedWindow

/-- **Compactions lose and repeat no user message**, in every run that compacts cleanly. -/
theorem visibleUsers_runHistory {steps : List HistoryStep} (clean : CompactsClean h steps) :
    visibleUsers (runHistory h steps) = usersOfRun h (visibleUsers h) steps := by
  induction steps generalizing h with
  | nil => rfl
  | cons s steps ih =>
    rw [runHistory, usersOfRun, ih clean.2, visibleUsers_apply clean.1]

/-- **Compaction windows are stable** exactly when no stored message since the
previous compaction passes for a retained copy; and a run that keeps to this at
every compaction shows each user message once, in order. -/
theorem compactions_stable (uuid7 : Nat → Text) (h : List InputItem) (summary : Text) (steps : List HistoryStep) :
    (StableWindow uuid7 h summary ↔ confusable h = []) ∧
    (CompactsClean h steps → visibleUsers (runHistory h steps) = usersOfRun h (visibleUsers h) steps) :=
  ⟨stableWindow_iff, visibleUsers_runHistory⟩

/-- A user message, by its id, status and text. -/
def userMessage (id : Option Text) (status : Option MessageStatus) (text : Text) : InputItem :=
  .message { id, role := "user", status, content := .text text }

/-- Two compactions between plain turns keep all three messages. -/
theorem compactions_stable_twice :
    let steps : List HistoryStep := [.turn [userMessage none none "one"],
      .compactedTurn [userMessage none none "two"] "first" fun _ => "a",
      .turn [userMessage none none "three"], .compactedTurn [] "second" fun _ => "b"]
    visibleUsers (runHistory [] steps) =
      [userMessage none none "one", userMessage none none "two", userMessage none none "three"] :=
  (compactions_stable (fun _ => []) [] [] _).2 ⟨trivial, rfl, trivial, rfl, trivial⟩

/-- A message the client sent completed and with an id is doubled by a compaction. -/
theorem clientMessage_doubled :
    ¬ StableWindow (fun _ => "a") [userMessage (some "msg_client") (some .completed) "hi"] "summary" := by
  rw [stableWindow_iff]
  exact List.cons_ne_nil _ _

end AgenticStack
