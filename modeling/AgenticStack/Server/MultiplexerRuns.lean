import AgenticStack.Server.Multiplexer

/-!
# Lane order and accounts of a connection

What holds of a connection from its first message on, whatever its client sends,
however its tasks end and whenever it is shut down.
-/

namespace AgenticStack.Server
set_option autoImplicit false
open Library

section
variable {P : Type}

/-- The requests of one lane. -/
def onLane (lane : Lane) (works : List (WsWorkItem P)) : List (WsWorkItem P) := works.filter fun work => work.lane = lane

/-- The work of a lane in two lists is that of both. -/
@[simp] theorem onLane_append {lane : Lane} {works works' : List (WsWorkItem P)} :
    onLane lane (works ++ works') = onLane lane works ++ onLane lane works' := List.filter_append ..

theorem onLane_singleton {lane : Lane} {work : WsWorkItem P} :
    onLane lane [work] = if work.lane = lane then [work] else [] := by
  by_cases here : work.lane = lane <;> simp [onLane, here]

namespace WsMultiplexer

variable {mx mx' : WsMultiplexer P} {admitted : List (WsWorkItem P)} {draining : Bool} {lane : Lane} {work : WsWorkItem P}

/-- The requests that run. -/
def running (mx : WsMultiplexer P) : List (WsWorkItem P) := mx.request_tasks.map (·.work)

/-- The requests that were started, in that order. -/
def started (mx : WsMultiplexer P) : List (WsWorkItem P) := mx.spawned.map (·.work)

/-- The requests that wait on a lane. -/
def queue (mx : WsMultiplexer P) (lane : Lane) : List (WsWorkItem P) := (mx.lanes.lookup lane).getD []

/-- The bytes of some work. -/
def bytes (works : List (WsWorkItem P)) : Nat := (works.map WsWorkItem.inputBytes).sum

/-- The counters say what runs and what waits. -/
structure Accounted (mx : WsMultiplexer P) : Prop where
  used : mx.byte_budget.used = bytes mx.running + bytes mx.queued
  count : mx.queued_requests = mx.queued.length
  outstanding : mx.running.length + mx.queued.length ≤ WS_MAX_OUTSTANDING_REQUESTS
  budget : mx.byte_budget.used ≤ WS_MAX_OUTSTANDING_BYTES

/-- The maps belong together. -/
structure Routed (mx : WsMultiplexer P) (draining : Bool) : Prop where
  once : (mx.lanes.map Prod.fst).Nodup
  opened : ∀ lane, mx.lanes.lookup lane ≠ none → mx.sessions.lookup lane ≠ none
  own : ∀ task ∈ mx.request_tasks, task.work.lane = task.lane
  queued : ∀ lane, ∀ work ∈ mx.queue lane, work.lane = lane
  active : draining = false → ∀ work ∈ mx.running, mx.lanes.lookup work.lane ≠ none
  drained : draining = true → mx.lanes = []

/-- Every lane runs one request at a time, in the order of their admission. -/
structure Ordered (mx : WsMultiplexer P) (admitted : List (WsWorkItem P)) (draining : Bool) : Prop where
  one : (mx.running.map WsWorkItem.lane).Nodup
  started : ∀ lane, onLane lane mx.started <+: onLane lane admitted
  waiting : draining = false → ∀ lane, onLane lane admitted = onLane lane mx.started ++ mx.queue lane

/-- A lane of the map runs something, the given one apart. -/
def BusyBut (mx : WsMultiplexer P) (idle : Option Lane) : Prop :=
  ∀ lane, some lane ≠ idle → mx.lanes.lookup lane ≠ none → lane ∈ mx.running.map WsWorkItem.lane

/-- What holds between two branches of the loop. -/
structure Sound (mx : WsMultiplexer P) (admitted : List (WsWorkItem P)) (draining : Bool) : Prop where
  accounted : mx.Accounted
  routed : mx.Routed draining
  ordered : mx.Ordered admitted draining

/-- The multiplexer of a connection that goes on. -/
structure Live (mx : WsMultiplexer P) (admitted : List (WsWorkItem P)) (draining : Bool) : Prop where
  sound : mx.Sound admitted draining
  busy : draining = false → mx.shutdown_token = false → mx.BusyBut none

/-- The bytes do not depend on the order. -/
theorem bytes_perm {works works' : List (WsWorkItem P)} (perm : works.Perm works') : bytes works = bytes works' :=
  (perm.map _).sum_nat

theorem bytes_append {works works' : List (WsWorkItem P)} : bytes (works ++ works') = bytes works + bytes works' := by
  simp [bytes]

theorem bytes_nil : bytes ([] : List (WsWorkItem P)) = 0 := rfl

theorem bytes_cons : bytes (work :: admitted) = work.inputBytes + bytes admitted := rfl

theorem queue_insertEntry {lanes : List (Lane × List (WsWorkItem P))} {waiting : List (WsWorkItem P)} {l : Lane} :
    ((insertEntry lanes lane waiting).lookup l).getD [] = if l = lane then waiting else (lanes.lookup l).getD [] := by
  by_cases here : l = lane
  · subst here
    rw [if_pos rfl, lookup_insertEntry_self]
    rfl
  · rw [if_neg here, lookup_insertEntry_ne here]

variable (lane) in
/-- What waits: what waits on the lane, and on the others. -/
theorem queued_perm (once : (mx.lanes.map Prod.fst).Nodup) :
    mx.queued.Perm (mx.queue lane ++ (mx.lanes.filter fun entry => entry.1 != lane).flatMap Prod.snd) := by
  rw [queue, queued]
  cases found : mx.lanes.lookup lane with
  | none => simp [filter_of_lookup_none found]
  | some waiting => exact (perm_of_lookup once found).flatMap_right Prod.snd

/-- A lane whose queue is replaced. -/
theorem queued_insertEntry (lane : Lane) (waiting : List (WsWorkItem P)) (once : (mx.lanes.map Prod.fst).Nodup) :
    bytes ((insertEntry mx.lanes lane waiting).flatMap Prod.snd) + bytes (mx.queue lane) = bytes mx.queued + bytes waiting ∧
      ((insertEntry mx.lanes lane waiting).flatMap Prod.snd).length + (mx.queue lane).length =
        mx.queued.length + waiting.length := by
  have before := queued_perm lane once
  have after : ((insertEntry mx.lanes lane waiting).flatMap Prod.snd).Perm
      (waiting ++ (mx.lanes.filter fun entry => entry.1 != lane).flatMap Prod.snd) :=
    (perm_insertEntry once).flatMap_right Prod.snd
  constructor
  · rw [bytes_perm before, bytes_perm after, bytes_append, bytes_append]
    omega
  · rw [before.length_eq, after.length_eq, List.length_append, List.length_append]
    omega

variable (mx work) in
/-- Work starts where its lane has a session. -/
theorem spawn_of_session (opened : mx.sessions.lookup lane ≠ none) : ∃ session, mx.spawn lane work = some { mx with
    request_tasks := mx.request_tasks ++ [{ lane, session, work }], spawned := mx.spawned ++ [{ lane, session, work }] } := by
  obtain ⟨session, found⟩ := Option.ne_none_iff_exists'.1 opened
  exact ⟨session, by rw [spawn, found]; rfl⟩

/-- A refused admission changes nothing. -/
theorem schedule_refused {error : WsAdmissionError} (refused : mx.schedule work = some (.error error, mx')) : mx' = mx := by
  rw [schedule] at refused
  split at refused
  · cases refused
    rfl
  · split at refused
    · cases refused
      rfl
    · simp only [Option.bind_eq_bind, Option.bind_eq_some_iff] at refused
      obtain ⟨_, -, refused⟩ := refused
      split at refused
      · cases refused
      · obtain ⟨_, -, refused⟩ := Option.bind_eq_some_iff.1 refused
        cases refused

/-- The session is there, and nothing else has changed. -/
theorem openSession_ok (opened : mx.openSession lane = .ok mx') :
    mx'.sessions.lookup lane ≠ none ∧ (∀ l, mx.sessions.lookup l ≠ none → mx'.sessions.lookup l ≠ none) ∧
      ∃ sessions session_group, mx' = { mx with sessions, session_group } := by
  rw [openSession] at opened
  split at opened
  · rename_i there
    cases opened
    exact ⟨by simpa [Option.ne_none_iff_isSome] using there, fun _ here => here, _, _, rfl⟩
  · split at opened
    · cases opened
    · split at opened
      · cases opened
      · cases opened
        exact ⟨lookup_insertEntry_ne_none.2 (.inl rfl), fun _ here => lookup_insertEntry_ne_none.2 (.inr here), _, _, rfl⟩

/-- What is sound depends on the lanes, the tasks and the bytes only. -/
theorem Sound.of_same (h : mx.Sound admitted draining) (lanes : mx'.lanes = mx.lanes)
    (tasks : mx'.request_tasks = mx.request_tasks) (spawned : mx'.spawned = mx.spawned)
    (count : mx'.queued_requests = mx.queued_requests) (budget : mx'.byte_budget = mx.byte_budget)
    (kept : ∀ lane, mx.sessions.lookup lane ≠ none → mx'.sessions.lookup lane ≠ none) : mx'.Sound admitted draining := by
  obtain ⟨lanes', sessions', group', tasks', count', budget', token', spawned'⟩ := mx'
  dsimp only at lanes tasks spawned count budget kept
  subst lanes tasks spawned count budget
  obtain ⟨⟨used, counted, outstanding, within⟩, ⟨once, opened, own, queued, active, drained⟩, ⟨one, started, waiting⟩⟩ := h
  exact ⟨⟨used, counted, outstanding, within⟩,
    ⟨once, fun lane here => kept lane (opened lane here), own, queued, active, drained⟩, ⟨one, started, waiting⟩⟩

/-- The work joins the queue of its lane. -/
theorem Sound.enqueue (h : mx.Sound admitted false) (room : mx.hasCapacityFor work.inputBytes = true)
    (there : mx.lanes.lookup work.lane ≠ none) :
    Sound { mx with
      byte_budget := { used := mx.byte_budget.used + work.inputBytes }
      lanes := insertEntry mx.lanes work.lane (mx.queue work.lane ++ [work])
      queued_requests := mx.queued_requests + 1 } (admitted ++ [work]) false := by
  obtain ⟨⟨used, count, outstanding, budget⟩, ⟨once, opened, own, queued, active, drained⟩, ⟨one, started, waiting⟩⟩ := h
  obtain ⟨room, fits⟩ := Bool.and_eq_true_iff.1 room
  simp only [decide_eq_true_eq, WsByteBudget.canReserve] at room fits
  obtain ⟨moreBytes, moreWork⟩ := queued_insertEntry work.lane (mx.queue work.lane ++ [work]) once
  have tasks : mx.running.length = mx.request_tasks.length := List.length_map _
  rw [bytes_append, bytes_cons, bytes_nil] at moreBytes
  rw [List.length_append, List.length_singleton] at moreWork
  constructor
  · constructor
    · show mx.byte_budget.used + work.inputBytes = bytes mx.running + bytes (List.flatMap _ (insertEntry ..))
      omega
    · show mx.queued_requests + 1 = (List.flatMap _ (insertEntry ..)).length
      omega
    · show mx.running.length + (List.flatMap _ (insertEntry ..)).length ≤ _
      omega
    · show mx.byte_budget.used + work.inputBytes ≤ _
      omega
  · constructor
    · exact nodup_insertEntry once
    · intro l here
      rcases lookup_insertEntry_ne_none.1 here with rfl | before
      · exact opened _ there
      · exact opened _ before
    · exact own
    · intro l other here
      rw [queue, queue_insertEntry] at here
      split at here
      · rename_i same
        rcases List.mem_append.1 here with before | this
        · rw [same]
          exact queued _ _ before
        · rw [List.mem_singleton.1 this, same]
      · exact queued l other here
    · exact fun _ other here => lookup_insertEntry_ne_none.2 (.inr (active rfl other here))
    · exact fun no => nomatch no
  · constructor
    · exact one
    · intro l
      rw [onLane_append]
      exact (started l).trans (List.prefix_append _ _)
    · intro _ l
      show _ = onLane l mx.started ++ ((insertEntry ..).lookup l).getD []
      rw [onLane_append, waiting rfl l, onLane_singleton, queue_insertEntry, List.append_assoc]
      by_cases same : work.lane = l
      · rw [if_pos same, if_pos same.symm, same]
      · rw [if_neg same, if_neg fun h => same h.symm, List.append_nil]
        rfl

/-- Work is started on a lane that runs nothing; its queue is replaced. -/
theorem Sound.start (task : RequestTask P) {waiting : List (WsWorkItem P)} {used count : Nat} {admitted' : List (WsWorkItem P)}
    (h : mx.Sound admitted false) (own : task.work.lane = task.lane)
    (idle : task.lane ∉ mx.running.map WsWorkItem.lane) (there : mx.sessions.lookup task.lane ≠ none)
    (spent : used + bytes (mx.queue task.lane) = mx.byte_budget.used + task.work.inputBytes + bytes waiting)
    (counted : count + (mx.queue task.lane).length = mx.queued_requests + waiting.length)
    (outstanding' : mx.running.length + 1 + count ≤ WS_MAX_OUTSTANDING_REQUESTS) (budget' : used ≤ WS_MAX_OUTSTANDING_BYTES)
    (apart : ∀ work ∈ waiting, work.lane = task.lane)
    (order : ∀ l, onLane l admitted' =
      onLane l mx.started ++ onLane l [task.work] ++ if l = task.lane then waiting else mx.queue l) :
    Sound { mx with
      byte_budget := { used }, queued_requests := count, lanes := insertEntry mx.lanes task.lane waiting
      request_tasks := mx.request_tasks ++ [task], spawned := mx.spawned ++ [task] } admitted' false := by
  obtain ⟨⟨used₀, count₀, outstanding, budget⟩, ⟨once, opened, owns, queued, active, drained⟩, ⟨one, started, waits⟩⟩ := h
  obtain ⟨moreBytes, moreWork⟩ := queued_insertEntry task.lane waiting once
  have runs : List.map (·.work) (mx.request_tasks ++ [task]) = mx.running ++ [task.work] := List.map_append
  have starts : List.map (·.work) (mx.spawned ++ [task]) = mx.started ++ [task.work] := List.map_append
  constructor
  · constructor
    · show used = bytes (List.map _ (_ ++ [task])) + bytes (List.flatMap _ (insertEntry ..))
      rw [runs, bytes_append, bytes_cons, bytes_nil]
      omega
    · show count = (List.flatMap _ (insertEntry ..)).length
      omega
    · show (List.map _ (_ ++ [task])).length + (List.flatMap _ (insertEntry ..)).length ≤ _
      rw [runs, List.length_append, List.length_singleton]
      omega
    · exact budget'
  · constructor
    · exact nodup_insertEntry once
    · intro l here
      rcases lookup_insertEntry_ne_none.1 here with rfl | before
      · exact there
      · exact opened _ before
    · intro other here
      rcases List.mem_append.1 here with before | this
      · exact owns other before
      · rw [List.mem_singleton.1 this, own]
    · intro l other here
      rw [queue, queue_insertEntry] at here
      split at here
      · rename_i same
        rw [same]
        exact apart other here
      · exact queued l other here
    · intro _ other here
      apply lookup_insertEntry_ne_none.2
      rw [running, runs] at here
      rcases List.mem_append.1 here with before | this
      · exact .inr (active rfl other before)
      · rw [List.mem_singleton.1 this, own]
        exact .inl rfl
    · exact fun no => nomatch no
  · constructor
    · rw [running, runs, List.map_append, List.map_singleton, own]
      exact List.nodup_append.2 ⟨one, List.nodup_singleton _, fun a here b this same =>
        idle (by rw [← List.mem_singleton.1 this, ← same]; exact here)⟩
    · intro l
      rw [WsMultiplexer.started, starts, order, onLane_append]
      exact List.prefix_append _ _
    · intro _ l
      show _ = onLane l (List.map _ (_ ++ [task])) ++ ((insertEntry ..).lookup l).getD []
      rw [starts, order, onLane_append, queue_insertEntry]
      rfl

variable (work) in
/-- The lane of new work is known to be free or to have a queue. -/
theorem schedule_sound (h : mx.Sound admitted false) :
    ∃ result, mx.schedule work = some result ∧ (∀ mx', result = (.ok (), mx') →
      mx'.Sound (admitted ++ [work]) false ∧ mx'.shutdown_token = mx.shutdown_token ∧
        (mx.BusyBut none → mx'.BusyBut none)) := by
  rw [schedule]
  by_cases room : mx.hasCapacityFor work.inputBytes = true
  swap
  · rw [if_pos (by simpa using room)]
    exact ⟨_, rfl, fun _ no => by cases no⟩
  rw [if_neg (by simp [room])]
  cases session : mx.openSession work.lane with
  | error error => exact ⟨_, rfl, fun _ no => by cases no⟩
  | ok mx₁ =>
    obtain ⟨there, kept, sessions, session_group, rfl⟩ := openSession_ok session
    have h₁ : Sound { mx with sessions, session_group } admitted false := h.of_same rfl rfl rfl rfl rfl kept
    obtain ⟨space, fits⟩ := Bool.and_eq_true_iff.1 room
    simp only [WsByteBudget.reserve, if_pos fits, Option.bind_eq_bind, Option.bind_some]
    split
    · rename_i waiting found
      refine ⟨_, rfl, fun mx' done => ?_⟩
      cases done
      have same : queue { mx with sessions, session_group } work.lane = waiting := by rw [queue, found]; rfl
      refine ⟨same ▸ h₁.enqueue room (by rw [found]; exact fun no => nomatch no), rfl, fun busy l other here => ?_⟩
      rcases lookup_insertEntry_ne_none.1 here with rfl | before
      · exact busy _ other (by rw [found]; exact fun no => nomatch no)
      · exact busy l other before
    · rename_i absent
      have idle : work.lane ∉ mx.running.map WsWorkItem.lane := by
        intro here
        obtain ⟨other, runs, same⟩ := List.mem_map.1 here
        exact h.routed.active rfl other runs (same ▸ absent)
      have empty : mx.queue work.lane = [] := by rw [queue, absent]; rfl
      obtain ⟨session, spawned⟩ := spawn_of_session { mx with
        sessions, session_group, byte_budget := ⟨mx.byte_budget.used + work.inputBytes⟩
        lanes := insertEntry mx.lanes work.lane [] } work there
      rw [spawned]
      refine ⟨_, rfl, fun mx' done => ?_⟩
      cases done
      simp only [decide_eq_true_eq, WsByteBudget.canReserve] at space fits
      have tasks : mx.running.length = mx.request_tasks.length := List.length_map _
      have grown : mx.byte_budget.used ≤ WS_MAX_OUTSTANDING_BYTES := h.accounted.budget
      refine ⟨?_, rfl, fun busy l other here => ?_⟩
      · apply h₁.start { lane := work.lane, session, work } rfl idle there
        · show mx.byte_budget.used + work.inputBytes + bytes (mx.queue work.lane) = _
          rw [empty]
        · show mx.queued_requests + (mx.queue work.lane).length = _
          rw [empty]
        · show mx.running.length + 1 + mx.queued_requests ≤ _
          omega
        · show mx.byte_budget.used + work.inputBytes ≤ _
          omega
        · exact fun _ no => nomatch no
        · intro l
          show _ = onLane l mx.started ++ onLane l [work] ++ if l = work.lane then [] else mx.queue l
          rw [onLane_append, h.ordered.waiting rfl l]
          by_cases same : l = work.lane
          · rw [if_pos same, same, empty, List.append_nil, List.append_nil]
          · rw [if_neg same, onLane_singleton, if_neg fun here => same here.symm, List.append_nil, List.append_nil]
      · rw [running, List.map_append, List.map_append]
        rcases lookup_insertEntry_ne_none.1 here with rfl | before
        · exact List.mem_append_right _ (List.mem_singleton.2 rfl)
        · exact List.mem_append_left _ (busy l other before)

/-- The lane whose request has just ended goes on with its next one, or goes. -/
theorem scheduleNext_sound (h : mx.Sound admitted false) (idle : lane ∉ mx.running.map WsWorkItem.lane) :
    ∃ mx', mx.scheduleNext lane = some mx' ∧ mx'.Sound admitted false ∧ mx'.shutdown_token = mx.shutdown_token ∧
      (mx.BusyBut (some lane) → mx'.BusyBut none) := by
  rw [scheduleNext]
  split
  · rename_i work waiting found
    have same : mx.queue lane = work :: waiting := by rw [queue, found]; rfl
    have own : work.lane = lane := h.routed.queued lane work (by rw [same]; exact List.mem_cons_self)
    have there : mx.lanes.lookup lane ≠ none := by rw [found]; exact fun no => nomatch no
    obtain ⟨less, fewer⟩ := queued_insertEntry lane waiting h.routed.once
    have count := h.accounted.count
    have outstanding := h.accounted.outstanding
    rw [same, List.length_cons] at fewer
    rw [if_neg (by omega)]
    obtain ⟨session, spawned⟩ := spawn_of_session
      { mx with lanes := insertEntry mx.lanes lane waiting, queued_requests := mx.queued_requests - 1 } work
      (h.routed.opened lane there)
    rw [spawned]
    refine ⟨_, rfl, ?_, rfl, fun busy l _ here => ?_⟩
    · apply h.start { lane, session, work } own idle (h.routed.opened lane there)
      · show _ = mx.byte_budget.used + work.inputBytes + bytes waiting
        rw [same, bytes_cons, Nat.add_assoc]
      · show mx.queued_requests - 1 + (mx.queue lane).length = _
        rw [same, List.length_cons]
        omega
      · show mx.running.length + 1 + (mx.queued_requests - 1) ≤ _
        omega
      · exact h.accounted.budget
      · exact fun other here => h.routed.queued lane other (by rw [same]; exact List.mem_cons_of_mem _ here)
      · intro l
        show _ = onLane l mx.started ++ onLane l [work] ++ if l = lane then waiting else mx.queue l
        rw [h.ordered.waiting rfl l, onLane_singleton]
        by_cases here : l = lane
        · rw [if_pos (own.trans here.symm), if_pos here, here, same, List.append_assoc]
          rfl
        · rw [if_neg fun no => here (no.symm.trans own), if_neg here, List.append_nil]
    · rw [running, List.map_append, List.map_append]
      by_cases this : l = lane
      · exact List.mem_append_right _ (List.mem_singleton.2 (this.trans own.symm))
      · refine List.mem_append_left _ (busy l (fun no => this (Option.some.inj no)) ?_)
        rcases lookup_insertEntry_ne_none.1 here with no | before
        · exact absurd no this
        · exact before
  · rename_i nothing
    have empty : mx.queue lane = [] := by
      rw [queue]
      cases found : mx.lanes.lookup lane with
      | none => rfl
      | some waiting =>
        cases waiting with
        | nil => rfl
        | cons work rest => exact absurd found (nothing work rest)
    have other {l : Lane} (apart : l ≠ lane) : (mx.lanes.filter fun entry => entry.1 != lane).lookup l = mx.lanes.lookup l :=
      @lookup_filter_keys _ _ _ _ mx.lanes l (fun l => l != lane) (by simpa using apart)
    have queues (l : Lane) : queue { mx with lanes := mx.lanes.filter fun entry => entry.1 != lane } l = mx.queue l := by
      by_cases this : l = lane
      · rw [this, empty, queue, lookup_filter_self]
        rfl
      · rw [queue, other this]
        rfl
    have rest := queued_perm lane h.routed.once
    rw [empty, List.nil_append] at rest
    have kept {l : Lane} (here : (mx.lanes.filter fun entry => entry.1 != lane).lookup l ≠ none) :
        l ≠ lane ∧ mx.lanes.lookup l ≠ none := by
      by_cases this : l = lane
      · rw [this, lookup_filter_self] at here
        exact absurd rfl here
      · exact ⟨this, other this ▸ here⟩
    refine ⟨_, rfl, ⟨⟨?_, ?_, ?_, h.accounted.budget⟩, ⟨?_, ?_, h.routed.own, ?_, ?_, fun no => nomatch no⟩,
      ⟨h.ordered.one, h.ordered.started, ?_⟩⟩, rfl, ?_⟩
    · rw [h.accounted.used, bytes_perm rest]
      rfl
    · rw [h.accounted.count, rest.length_eq]
      rfl
    · have outstanding := h.accounted.outstanding
      rw [rest.length_eq] at outstanding
      exact outstanding
    · exact h.routed.once.sublist (List.filter_sublist.map _)
    · exact fun l here => h.routed.opened l (kept here).2
    · intro l
      rw [queues]
      exact h.routed.queued l
    · intro _ work here
      show (mx.lanes.filter fun entry => entry.1 != lane).lookup work.lane ≠ none
      rw [other fun this => idle (List.mem_map.2 ⟨work, here, this⟩)]
      exact h.routed.active rfl work here
    · intro _ l
      rw [queues]
      exact h.ordered.waiting rfl l
    · exact fun busy l _ here => busy l (fun no => (kept here).1 (Option.some.inj no)) (kept here).2

/-- Joining a task takes it out and leaves its lane idle. -/
theorem join_sound {done : TaskEnd} {completion : Joined} (h : mx.Sound admitted draining)
    (joined : mx.join done = some (completion, mx')) :
    mx'.shutdown_token = (mx.shutdown_token || done.cancelled) ∧ mx'.started = mx.started ∧
      mx'.Ordered admitted draining ∧
      ∀ c, completion = .returned c →
        Sound { mx' with byte_budget := mx'.byte_budget.release c.input_bytes } admitted draining ∧
        c.lane ∉ mx'.running.map WsWorkItem.lane ∧ (mx.BusyBut none → mx'.BusyBut (some c.lane)) := by
  obtain ⟨task, found, made⟩ := Option.map_eq_some_iff.1 joined
  simp only [Prod.mk.injEq] at made
  obtain ⟨rfl, rfl⟩ := made
  obtain ⟨within, rfl⟩ := List.getElem?_eq_some_iff.1 found
  have perm : mx.request_tasks.Perm (mx.request_tasks[done.task] :: mx.request_tasks.eraseIdx done.task) :=
    (List.getElem_cons_eraseIdx_perm within).symm
  have own := h.routed.own _ (List.getElem_mem within)
  generalize mx.request_tasks[done.task] = task at *
  have runs : mx.running.Perm (task.work :: (mx.request_tasks.eraseIdx done.task).map (·.work)) := perm.map _
  have one := (runs.map WsWorkItem.lane).nodup h.ordered.one
  rw [List.map_cons, List.nodup_cons] at one
  have still {work : WsWorkItem P} (here : work ∈ (mx.request_tasks.eraseIdx done.task).map (·.work)) : work ∈ mx.running :=
    runs.mem_iff.2 (List.mem_cons_of_mem _ here)
  refine ⟨rfl, rfl, ⟨one.2, h.ordered.started, h.ordered.waiting⟩, fun c returned => ?_⟩
  cases result : done.result with
  | none => simp [result] at returned
  | some result' =>
    simp only [result, Joined.returned.injEq] at returned
    subst returned
    refine ⟨⟨⟨?_, h.accounted.count, ?_, ?_⟩, ⟨h.routed.once, h.routed.opened, ?_, h.routed.queued, ?_, h.routed.drained⟩,
      ⟨one.2, h.ordered.started, h.ordered.waiting⟩⟩, ?_, ?_⟩
    · show mx.byte_budget.used - task.work.inputBytes = bytes ((mx.request_tasks.eraseIdx done.task).map (·.work)) + bytes mx.queued
      have used := h.accounted.used
      rw [bytes_perm runs, bytes_cons] at used
      omega
    · have outstanding := h.accounted.outstanding
      rw [runs.length_eq, List.length_cons] at outstanding
      show ((mx.request_tasks.eraseIdx done.task).map (·.work)).length + mx.queued.length ≤ _
      omega
    · show mx.byte_budget.used - task.work.inputBytes ≤ _
      have budget := h.accounted.budget
      omega
    · exact fun other here => h.routed.own other (List.mem_of_mem_eraseIdx here)
    · exact fun calm work here => h.routed.active calm work (still here)
    · show task.lane ∉ _
      rw [← own]
      exact one.1
    · intro busy l apart here
      have before := (runs.map WsWorkItem.lane).mem_iff.1 (busy l (fun no => nomatch no) here)
      rcases List.mem_cons.1 before with this | there
      · exact absurd (by rw [this, own]) apart
      · exact there

/-- A task that ends while nothing drains lets the next request of its lane start; otherwise nothing starts. -/
theorem finish_live {done : TaskEnd} {completion : Joined} {mx₁ : WsMultiplexer P} (h : mx.Live admitted draining)
    (joined : mx.join done = some (completion, mx₁)) :
    ∃ alive mx', mx₁.finish completion draining = some (alive, mx') ∧ mx'.Ordered admitted draining ∧
      (alive = true → mx'.Live admitted draining) ∧ (draining = true → mx'.started = mx.started) := by
  obtain ⟨token, same, ordered, returned⟩ := join_sound h.sound joined
  cases completion with
  | joinError => exact ⟨false, mx₁, rfl, ordered, (fun no => nomatch no), fun _ => same⟩
  | returned c =>
    obtain ⟨sound, idle, busy⟩ := returned c rfl
    rw [finish]
    dsimp only
    cases c.result with
    | error _ => exact ⟨false, _, rfl, sound.ordered, (fun no => nomatch no), fun _ => same⟩
    | ok _ =>
      dsimp only
      by_cases calm : (!draining && !mx₁.shutdown_token) = true
      · rw [if_pos calm]
        simp only [Bool.and_eq_true, Bool.not_eq_true'] at calm
        obtain ⟨rfl, running⟩ := calm
        obtain ⟨mx', next, sound', token', busy'⟩ := scheduleNext_sound sound idle
        rw [next]
        refine ⟨true, mx', rfl, sound'.ordered, fun _ => ⟨sound', fun _ _ => busy' ?_⟩, (fun no => nomatch no)⟩
        refine busy (h.busy rfl ?_)
        rw [running] at token
        exact (Bool.or_eq_false_iff.1 token.symm).1
      · rw [if_neg calm]
        refine ⟨true, _, rfl, sound.ordered, fun _ => ⟨sound, fun still running => ?_⟩, fun _ => same⟩
        have running : mx₁.shutdown_token = false := running
        simp [still, running] at calm

/-- Reaping tasks that have ended leaves the lanes in order. -/
theorem reapReady_live (ready : List TaskEnd) (h : mx.Live admitted draining) :
    ∃ alive mx', mx.reapReady draining ready = some (alive, mx') ∧ mx'.Ordered admitted draining ∧
      (alive = true → mx'.Live admitted draining) ∧ (draining = true → mx'.started = mx.started) := by
  induction ready generalizing mx with
  | nil => exact ⟨true, mx, rfl, h.sound.ordered, fun _ => h, fun _ => rfl⟩
  | cons done ready ih =>
    rw [reapReady]
    cases joined : mx.join done with
    | none => exact ⟨true, mx, rfl, h.sound.ordered, fun _ => h, fun _ => rfl⟩
    | some result =>
      obtain ⟨completion, mx₁⟩ := result
      obtain ⟨alive, mx₂, finished, ordered, live, same⟩ := finish_live h joined
      dsimp only
      rw [finished]
      cases alive with
      | false => exact ⟨false, mx₂, rfl, ordered, (fun no => nomatch no), same⟩
      | true =>
        obtain ⟨alive', mx', reaped, ordered', live', same'⟩ := ih (live rfl)
        exact ⟨alive', mx', reaped, ordered', live', fun drains => (same' drains).trans (same drains)⟩

/-- Discarding what waits leaves the lanes in order. -/
theorem discardQueued_live (h : mx.Sound admitted draining) : mx.discardQueued.Live admitted true := by
  have used := h.accounted.used
  have outstanding := h.accounted.outstanding
  have budget := h.accounted.budget
  refine ⟨⟨⟨?_, rfl, ?_, ?_⟩, ⟨List.nodup_nil, fun _ no => absurd rfl no, h.routed.own, (fun _ _ no => nomatch no),
    (fun no => nomatch no), fun _ => rfl⟩, ⟨h.ordered.one, h.ordered.started, (fun no => nomatch no)⟩⟩, (fun no => nomatch no)⟩
  · show mx.byte_budget.used - bytes mx.queued = bytes mx.running + 0
    omega
  · show mx.running.length + 0 ≤ _
    omega
  · show mx.byte_budget.used - bytes mx.queued ≤ _
    omega

/-- Seeing the shutdown leaves the lanes in order. -/
theorem Live.observe (h : mx.Live admitted draining) (cancelled : Bool) : (mx.observe cancelled).Live admitted draining := by
  refine ⟨h.sound.of_same rfl rfl rfl rfl rfl fun _ here => here, fun still running => ?_⟩
  exact h.busy still (Bool.or_eq_false_iff.1 running).1

/-- Aborting the tasks leaves the lanes in order. -/
theorem Ordered.abortAll (h : mx.Ordered admitted draining) : mx.abortAll.Ordered admitted draining :=
  ⟨List.nodup_nil, h.started, h.waiting⟩

end WsMultiplexer

namespace WsConnection

variable {c c' : WsConnection P} {parse : Text → Except WsRequestParseError (WsRequest P)}

/-- What every round keeps. -/
structure Kept (c : WsConnection P) : Prop where
  ordered : c.multiplexer.Ordered c.admitted c.draining
  live : c.client_disconnected = false → c.multiplexer.Live c.admitted c.draining
  going : c.ended = false → c.client_disconnected = false

/-- Nothing starts while a connection drains, and it goes on draining. -/
def Drains (c c' : WsConnection P) : Prop :=
  c.draining = true → c'.draining = true ∧ c'.multiplexer.started = c.multiplexer.started

/-- A connection drains into itself. -/
theorem Drains.refl : c.Drains c := fun drains => ⟨drains, rfl⟩

/-- Draining is transitive. -/
theorem Drains.trans {c'' : WsConnection P} (h : c.Drains c') (h' : c'.Drains c'') : c.Drains c'' := by
  intro drains
  obtain ⟨drains', same⟩ := h drains
  obtain ⟨drains'', same'⟩ := h' drains'
  exact ⟨drains'', same'.trans same⟩

/-- A message is handled without a panic. -/
structure Handled (c : WsConnection P) (alive : Bool) (c' : WsConnection P) : Prop where
  ordered : c'.multiplexer.Ordered c'.admitted c'.draining
  live : alive = true → c'.multiplexer.Live c'.admitted c'.draining
  going : c'.client_disconnected = c.client_disconnected
  drains : c.Drains c'

/-- A connection that goes on keeps its lanes in order. -/
theorem Kept.of_live (h : c.multiplexer.Live c.admitted c.draining) (going : c.client_disconnected = false) : c.Kept :=
  ⟨h.sound.ordered, fun _ => h, fun _ => going⟩

/-- A connection that is left keeps its lanes in order. -/
theorem Kept.disconnect (h : c.multiplexer.Ordered c.admitted c.draining) : c.disconnect.Kept :=
  ⟨h.abortAll, (fun no => nomatch no), (fun no => nomatch no)⟩

/-- What was handled has its lanes in order. -/
theorem Handled.of_live (h : c.multiplexer.Live c.admitted c.draining) {alive : Bool} : c.Handled alive c :=
  ⟨h.sound.ordered, fun _ => h, rfl, .refl⟩

/-- What is handled goes on or ends the loop. -/
theorem Handled.andThen {alive : Bool} (h : c.Handled alive c') (going : c.client_disconnected = false) :
    (c'.andThen alive).Kept ∧ c.Drains (c'.andThen alive) := by
  cases alive with
  | false => exact ⟨.disconnect h.ordered, h.drains⟩
  | true => exact ⟨.of_live (h.live rfl) (h.going.trans going), h.drains⟩

/-- A connection that takes no more requests has its lanes in order. -/
theorem beginWsDraining_live (h : c.multiplexer.Live c.admitted c.draining) :
    c.beginWsDraining.multiplexer.Live c.admitted true := WsMultiplexer.discardQueued_live h.sound

/-- A connection that takes no more requests drains. -/
theorem beginWsDraining_drains : c.Drains c.beginWsDraining := fun _ => ⟨rfl, rfl⟩

/-- A connection that takes no more requests is handled. -/
theorem beginWsDraining_handled (h : c.multiplexer.Live c.admitted c.draining) {alive : Bool} :
    c.Handled alive c.beginWsDraining :=
  ⟨(beginWsDraining_live h).sound.ordered, fun _ => beginWsDraining_live h, rfl, beginWsDraining_drains⟩

variable (parse) in
/-- A message that is admitted is handled. -/
theorem admitText_handled (text : Text) (env : MessageEnv) (h : c.multiplexer.Live c.admitted c.draining)
    (calm : c.draining = false) : ∃ alive c', c.admitText parse text env = some (alive, c') ∧ c.Handled alive c' := by
  rw [admitText]
  by_cases room : c.multiplexer.hasCapacityFor text.length = false
  · rw [if_pos room]
    exact ⟨_, c, rfl, .of_live h⟩
  rw [if_neg room]
  have observed : (c.observe env.parsed).multiplexer.Live c.admitted c.draining := h.observe env.parsed
  by_cases down : (c.observe env.parsed).multiplexer.shutdown_token = true
  · exact ⟨true, _, if_pos down, ⟨(beginWsDraining_live observed).sound.ordered, fun _ => beginWsDraining_live observed,
      rfl, fun no => absurd no (by simp [calm])⟩⟩
  · rw [if_neg down]
    have sound : (c.observe env.parsed).multiplexer.Sound c.admitted false := calm ▸ observed.sound
    obtain ⟨result, scheduled, ok⟩ := WsMultiplexer.schedule_sound (parseWork parse text) sound
    rw [scheduled]
    obtain ⟨outcome, mx'⟩ := result
    cases outcome with
    | error error =>
      rw [WsMultiplexer.schedule_refused scheduled]
      exact ⟨_, _, rfl, observed.sound.ordered, fun _ => observed, rfl, fun no => absurd no (by simp [calm])⟩
    | ok done =>
      obtain ⟨sound', token, busy⟩ := ok mx' rfl
      refine ⟨true, _, rfl, ?_⟩
      have live : mx'.Live (c.admitted ++ [parseWork parse text]) c.draining :=
        ⟨calm ▸ sound', fun still running => busy (observed.busy still (by rw [← token, running]))⟩
      exact ⟨live.sound.ordered, fun _ => live, rfl, fun no => absurd no (by simp [calm])⟩

variable (parse) in
/-- A message is handled. -/
theorem handleWsClientMessage_handled (env : MessageEnv) (message : WsMessage)
    (h : c.multiplexer.Live c.admitted c.draining) :
    ∃ alive c', c.handleWsClientMessage parse env message = some (alive, c') ∧ c.Handled alive c' := by
  cases message with
  | close => exact ⟨_, _, rfl, .of_live h⟩
  | ping => exact ⟨_, _, rfl, .of_live h⟩
  | pong => exact ⟨_, _, rfl, .of_live h⟩
  | binary =>
    rw [handleWsClientMessage]
    split
    · exact ⟨_, _, rfl, .of_live h⟩
    · exact ⟨_, _, rfl, .of_live h⟩
  | text text =>
    rw [handleWsClientMessage]
    by_cases calm : c.draining = true
    · rw [if_pos calm]
      exact ⟨_, _, rfl, .of_live h⟩
    rw [if_neg calm]
    rw [Bool.not_eq_true] at calm
    by_cases expired : env.expired = true
    · rw [if_pos expired]
      exact ⟨_, _, rfl, beginWsDraining_handled h⟩
    rw [if_neg expired]
    obtain ⟨alive, mx', reaped, ordered, live, same⟩ := WsMultiplexer.reapReady_live env.ready h
    rw [reaped]
    cases alive with
    | false => exact ⟨_, _, rfl, ordered, (fun no => nomatch no), rfl, fun no => absurd no (by simp [calm])⟩
    | true =>
      have live' : (observe { c with multiplexer := mx' } env.reaped).multiplexer.Live c.admitted c.draining :=
        (live rfl).observe env.reaped
      dsimp only
      split
      · exact ⟨_, _, rfl, (beginWsDraining_live live').sound.ordered, fun _ => beginWsDraining_live live', rfl,
          fun no => absurd no (by simp [calm])⟩
      · obtain ⟨alive, c', handled, done⟩ := admitText_handled parse text env
          (c := observe { c with multiplexer := mx' } env.reaped) live' calm
        exact ⟨alive, c', handled, done.ordered, done.live, done.going, fun no => absurd no (by simp [calm])⟩

variable (parse) in
/-- A branch of the loop keeps the lanes in order. -/
theorem select_kept (branch : WsSelect) (h : c.multiplexer.Live c.admitted c.draining) (going : c.client_disconnected = false) :
    ∃ c', c.select parse branch = some c' ∧ c'.Kept ∧ c.Drains c' := by
  cases branch with
  | shutdown =>
    rw [select]
    split
    · exact ⟨c, rfl, .of_live h going, .refl⟩
    · rename_i calm
      have observed : (c.observe true).multiplexer.Live c.admitted c.draining := h.observe true
      exact ⟨_, rfl, .of_live (beginWsDraining_live observed) going, fun no => absurd no calm⟩
  | outbound sent => exact ⟨_, rfl, (Handled.of_live h).andThen going⟩
  | completion done =>
    rw [select]
    cases joined : c.multiplexer.join done with
    | none => exact ⟨c, rfl, .of_live h going, .refl⟩
    | some result =>
      obtain ⟨completion, mx₁⟩ := result
      obtain ⟨alive, mx', finished, ordered, live, same⟩ := WsMultiplexer.finish_live h joined
      dsimp only
      rw [finished]
      refine ⟨_, rfl, ?_⟩
      dsimp only
      split
      · rename_i down
        simp only [Bool.and_eq_true, Bool.not_eq_true'] at down
        exact ⟨.of_live (beginWsDraining_live (c := { c with multiplexer := mx' }) (live down.1.1)) going,
          fun no => absurd no (by simp [down.2])⟩
      · have handled : c.Handled alive { c with multiplexer := mx' } :=
          ⟨ordered, live, rfl, fun drains => ⟨drains, same drains⟩⟩
        exact handled.andThen going
  | message cancelled message env =>
    rw [select.eq_def]
    have observed : (c.observe cancelled).multiplexer.Live c.admitted c.draining := h.observe cancelled
    dsimp only
    split
    · exact ⟨_, rfl, .of_live (beginWsDraining_live observed) going, fun _ => ⟨rfl, rfl⟩⟩
    · split
      · exact ⟨_, rfl, .disconnect observed.sound.ordered, fun drains => ⟨drains, rfl⟩⟩
      · exact ⟨_, rfl, .disconnect observed.sound.ordered, fun drains => ⟨drains, rfl⟩⟩
      · rename_i message
        obtain ⟨alive, c', handled, done⟩ := handleWsClientMessage_handled parse env message
          (c := c.observe cancelled) observed
        rw [handled]
        obtain ⟨kept, drains⟩ := done.andThen going
        exact ⟨_, rfl, kept, drains⟩

variable (parse) in
/-- A turn of the loop keeps the lanes in order. -/
theorem iteration_kept (i : WsIteration) (h : c.Kept) : ∃ c', c.iteration parse i = some c' ∧ c'.Kept ∧ c.Drains c' := by
  rw [iteration]
  by_cases ended : c.ended = true
  · rw [if_pos ended]
    exact ⟨c, rfl, h, .refl⟩
  rw [if_neg ended]
  have going := h.going (by simpa using ended)
  have observed : (c.observe i.cancelled).multiplexer.Live c.admitted c.draining := (h.live going).observe i.cancelled
  -- the head of the loop
  obtain ⟨c₁, head, live, going', drains⟩ : ∃ c₁, (if (c.observe i.cancelled).multiplexer.shutdown_token && !(c.observe i.cancelled).draining then
      (c.observe i.cancelled).beginWsDraining else c.observe i.cancelled) = c₁ ∧
      c₁.multiplexer.Live c₁.admitted c₁.draining ∧ c₁.client_disconnected = false ∧ c.Drains c₁ := by
    split
    · exact ⟨_, rfl, beginWsDraining_live observed, going, fun _ => ⟨rfl, rfl⟩⟩
    · exact ⟨_, rfl, observed, going, fun drains => ⟨drains, rfl⟩⟩
  dsimp only
  rw [head]
  split
  · exact ⟨_, rfl, ⟨live.sound.ordered, fun _ => live, fun _ => going'⟩, drains⟩
  · obtain ⟨c', selected, kept, drains'⟩ := select_kept parse i.select live going'
    exact ⟨c', selected, kept, drains.trans drains'⟩

variable (parse) in
/-- The loop keeps the lanes in order. -/
theorem responsesWsLoop_kept (rounds : List WsIteration) (h : c.Kept) :
    ∃ c', c.responsesWsLoop parse rounds = some c' ∧ c'.Kept ∧ c.Drains c' := by
  induction rounds generalizing c with
  | nil => exact ⟨c, rfl, h, .refl⟩
  | cons i rest ih =>
    obtain ⟨c₁, once, kept, drains⟩ := iteration_kept parse i h
    obtain ⟨c', more, kept', drains'⟩ := ih kept
    refine ⟨c', ?_, kept', drains.trans drains'⟩
    rw [responsesWsLoop, once]
    exact more

/-- A connection that was just opened has its lanes in order. -/
theorem open_kept (shutdown_token : Bool) : («open» shutdown_token : WsConnection P).Kept := by
  refine .of_live ⟨⟨⟨rfl, rfl, Nat.zero_le _, Nat.zero_le _⟩, ⟨List.nodup_nil, ?_, ?_, ?_, ?_, ?_⟩, ⟨List.nodup_nil, ?_, ?_⟩⟩, ?_⟩ rfl
  · exact fun _ no => absurd rfl no
  · exact fun _ no => nomatch no
  · exact fun _ _ no => nomatch no
  · exact fun _ _ no => nomatch no
  · exact fun _ => rfl
  · exact fun _ => List.prefix_refl _
  · exact fun _ _ => rfl
  · exact fun _ _ _ _ no => absurd rfl no

/-- A text message that is neither admitted nor met by a shutdown changes nothing. -/
theorem admitText_refused {text : Text} {env : MessageEnv} {alive : Bool} (done : c.admitText parse text env = some (alive, c'))
    (refused : c'.admitted = c.admitted) (calm : c'.draining = false) : c' = c := by
  rw [admitText] at done
  split at done
  · cases done
    rfl
  · dsimp only at done
    split at done
    · cases done
      cases calm
    · rename_i running
      have same : c.observe env.parsed = c := by
        have quiet : (c.multiplexer.shutdown_token || env.parsed) = false := Bool.eq_false_iff.2 running
        rw [observe, WsMultiplexer.observe, quiet, ← (Bool.or_eq_false_iff.1 quiet).1]
      rw [same] at done
      split at done
      · cases done
      · cases done
        exact absurd refused (by simp)
      · rename_i scheduled
        cases done
        rw [WsMultiplexer.schedule_refused scheduled]

/-- No lane has two of the tasks. -/
theorem onLane_length_le_one {lane : Lane} {works : List (WsWorkItem P)} (once : (works.map WsWorkItem.lane).Nodup) :
    (onLane lane works).length ≤ 1 := by
  have same : (onLane lane works).map WsWorkItem.lane = List.replicate (onLane lane works).length lane := by
    rw [List.eq_replicate_iff, List.length_map]
    refine ⟨rfl, fun l here => ?_⟩
    obtain ⟨work, there, rfl⟩ := List.mem_map.1 here
    simpa using (List.mem_filter.1 there).2
  have nodup := once.sublist (List.filter_sublist.map WsWorkItem.lane : ((onLane lane works).map WsWorkItem.lane).Sublist _)
  rw [onLane] at same
  rw [same] at nodup
  exact List.nodup_replicate.1 nodup

/-- A connection never panics. On every lane one request runs at a time and what
was started are the first requests that were admitted, all but those that wait
unless draining has discarded them. Until the connection is lost the counters are
exact and within their bounds, and a lane with a queue runs something unless a
shutdown was requested. Nothing starts while it drains, and a refusal changes nothing. -/
theorem lanes_in_order_and_accounted (parse : Text → Except WsRequestParseError (WsRequest P)) (shutdown_token : Bool)
    (rounds : List WsIteration) :
    ∃ c, («open» shutdown_token).responsesWsLoop parse rounds = some c ∧
      (∀ lane, (onLane lane c.multiplexer.running).length ≤ 1 ∧ onLane lane c.multiplexer.started <+: onLane lane c.admitted) ∧
      (c.draining = false → ∀ lane, onLane lane c.admitted = onLane lane c.multiplexer.started ++ c.multiplexer.queue lane) ∧
      (∀ later c', c.draining = true → c.responsesWsLoop parse later = some c' →
        c'.multiplexer.started = c.multiplexer.started) ∧
      (c.client_disconnected = false → c.multiplexer.Accounted ∧
        (c.multiplexer.shutdown_token = false → ∀ lane, c.multiplexer.queue lane ≠ [] →
          lane ∈ c.multiplexer.running.map WsWorkItem.lane)) ∧
      (∀ work error mx', c.multiplexer.schedule work = some (.error error, mx') → mx' = c.multiplexer) ∧
      ∀ text env alive c', c.admitText parse text env = some (alive, c') → c'.admitted = c.admitted →
        c'.draining = false → c' = c := by
  obtain ⟨c, reached, kept, -⟩ := responsesWsLoop_kept parse rounds (open_kept (P := P) shutdown_token)
  refine ⟨c, reached, fun lane => ⟨onLane_length_le_one kept.ordered.one, kept.ordered.started lane⟩,
    kept.ordered.waiting, fun later c' drains more => ?_, fun going => ⟨(kept.live going).sound.accounted, ?_⟩,
    fun _ _ _ => WsMultiplexer.schedule_refused, fun _ _ _ _ => admitText_refused⟩
  · obtain ⟨c'', more', -, still⟩ := responsesWsLoop_kept parse later kept
    rw [more', Option.some.injEq] at more
    exact more ▸ (still drains).2
  · intro running lane waits
    have there : c.multiplexer.lanes.lookup lane ≠ none := by
      intro absent
      exact waits (by rw [WsMultiplexer.queue, absent]; rfl)
    cases draining : c.draining with
    | false => exact (kept.live going).busy draining running lane (fun no => nomatch no) there
    | true =>
      rw [(kept.live going).sound.routed.drained draining] at there
      exact absurd rfl there

/-- A message that cannot be parsed, of two bytes. -/
def garbage : WsIteration :=
  { cancelled := false, outboundEmpty := true
    select := .message false (some (.ok (.text [0, 0]))) ⟨false, true, [], false, false⟩ }

/-- Two requests on one lane. When the task of the first panics, its bytes stay
reserved and the second stays in the queue of a lane that runs nothing. -/
theorem panic_unaccounted : ∃ (c : WsConnection Unit) (completion : Joined) (mx₁ mx₂ : WsMultiplexer Unit),
    («open» false).responsesWsLoop (fun _ => .error ⟨none, .unexpectedType, none⟩) [garbage, garbage] = some c ∧
      c.multiplexer.join { task := 0, result := none, cancelled := false } = some (completion, mx₁) ∧
      mx₁.finish completion c.draining = some (false, mx₂) ∧ mx₂.shutdown_token = false ∧
      mx₂.byte_budget.used = 4 ∧ WsMultiplexer.bytes mx₂.running + WsMultiplexer.bytes mx₂.queued = 2 ∧
      mx₂.queue none ≠ [] ∧ mx₂.running = [] :=
  ⟨_, _, _, _, rfl, rfl, rfl, rfl, rfl, rfl, (fun no => nomatch no), rfl⟩

end WsConnection
end
end AgenticStack.Server
