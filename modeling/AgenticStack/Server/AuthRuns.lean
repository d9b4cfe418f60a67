import AgenticStack.Server.Auth

/-!
# Refreshing the keys is safe

One call refreshes at a time, and not before the backoff of a failed refresh is
over; a refresh that is given up leaves neither a backoff nor a trace in the cache.
-/

namespace AgenticStack.Server
set_option autoImplicit false
open Library

section
variable {K : Type}

namespace KeyCall

/-- The call holds the permit. -/
def holds : KeyCall K → Bool
  | .admitted _ | .cleared _ | .refreshing .. | .fetched .. | .installed .. => true
  | _ => false

/-- The `retry_after` that a refreshing call has put down for a failure of its own. -/
def attempt : KeyCall K → Option Nat
  | .refreshing _ retry_after | .fetched _ retry_after _ | .installed _ retry_after _ => some retry_after
  | _ => none

/-- The look at the cache under the permit has decided to refresh. -/
def mayRefresh : KeyCall K → Bool
  | .cleared _ | .refreshing .. | .fetched .. | .installed .. => true
  | _ => false

/-- Whether the call has installed the fetched keys and has still to return. -/
def isInstalled : KeyCall K → Bool
  | .installed .. => true
  | _ => false

theorem holds_of_attempt {call : KeyCall K} {R : Nat} (here : call.attempt = some R) : call.holds = true := by
  cases call <;> first | rfl | cases here

theorem holds_of_mayRefresh {call : KeyCall K} (here : call.mayRefresh = true) : call.holds = true := by
  cases call <;> first | rfl | cases here

end KeyCall

/-- The backoffs of the refreshes that have failed since one was completed. -/
def failedSince : List (RefreshEvent K) → List Nat :=
  List.foldl (fun backoffs event => match event with
    | .failed _ retry_after => backoffs ++ [retry_after]
    | .completed .. => []
    | _ => backoffs) []

/-- The last refresh that was completed: by which call, when and with which keys. -/
def lastCompleted : List (RefreshEvent K) → Option (Option Nat × Nat × CachedJwks K) :=
  List.foldl (fun last event => match event with
    | .completed call instant jwks => some (call, instant, jwks)
    | _ => last) none

section
variable {log : List (RefreshEvent K)} {i R t : Nat} {kid : Text} {call : Option Nat} {jwks : CachedJwks K}

@[simp] theorem failedSince_started : failedSince (log ++ [.started i kid t]) = failedSince log := by
  simp only [failedSince, List.foldl_append, List.foldl_cons, List.foldl_nil]

@[simp] theorem failedSince_cancelled : failedSince (log ++ [.cancelled i]) = failedSince log := by
  simp only [failedSince, List.foldl_append, List.foldl_cons, List.foldl_nil]

@[simp] theorem failedSince_failed : failedSince (log ++ [.failed i R]) = failedSince log ++ [R] := by
  simp only [failedSince, List.foldl_append, List.foldl_cons, List.foldl_nil]

@[simp] theorem failedSince_completed : failedSince (log ++ [.completed call t jwks]) = [] := by
  simp only [failedSince, List.foldl_append, List.foldl_cons, List.foldl_nil]

@[simp] theorem lastCompleted_started : lastCompleted (log ++ [.started i kid t]) = lastCompleted log := by
  simp only [lastCompleted, List.foldl_append, List.foldl_cons, List.foldl_nil]

@[simp] theorem lastCompleted_cancelled : lastCompleted (log ++ [.cancelled i]) = lastCompleted log := by
  simp only [lastCompleted, List.foldl_append, List.foldl_cons, List.foldl_nil]

@[simp] theorem lastCompleted_failed : lastCompleted (log ++ [.failed i R]) = lastCompleted log := by
  simp only [lastCompleted, List.foldl_append, List.foldl_cons, List.foldl_nil]

@[simp] theorem lastCompleted_completed : lastCompleted (log ++ [.completed call t jwks]) = some (call, t, jwks) := by
  simp only [lastCompleted, List.foldl_append, List.foldl_cons, List.foldl_nil]

end

namespace OidcAuthenticator

variable {w : OidcAuthenticator K} {i j : Nat} {p q : KeyCall K}

/-- What every step keeps. -/
structure Guarded (w : OidcAuthenticator K) : Prop where
  gate : ∀ (j : Nat) q, w.calls[j]? = some q → q.holds = true → w.refresh_gate = some j
  attempt : ∀ (j : Nat) q R, w.calls[j]? = some q → q.attempt = some R → w.refresh_state.retry_after = some R
  clear : ∀ (j : Nat) q, w.calls[j]? = some q → q.mayRefresh = true → ∀ R ∈ failedSince w.log, R ≤ w.now
  allowed : ∀ (j : Nat) kid, w.calls[j]? = some (.cleared kid) → w.fresh = true →
    w.keys.keys.lookup kid = none ∧ w.refresh_state.last_completed + JWKS_REFRESH_COOLDOWN ≤ w.now
  installed : ∀ (j : Nat) kid R key, w.calls[j]? = some (.installed kid R key) → key = w.keys.keys.lookup kid
  backoff : ∀ R ∈ failedSince w.log, w.now < R → ∃ R', w.refresh_state.retry_after = some R' ∧ R ≤ R'
  coalesce : ∀ u, w.refresh_state.coalesce_until = some u →
    u = w.refresh_state.last_completed + JWKS_REFRESH_COALESCE_WINDOW
  completed : ∃ call jwks, lastCompleted w.log = some (call, w.refresh_state.last_completed, jwks) ∧
    ((∀ (j : Nat) q, w.calls[j]? = some q → q.isInstalled = false) → w.keys = jwks)

theorem calls_set (found : (w.calls.set i q)[j]? = some p) : (j = i ∧ p = q) ∨ (j ≠ i ∧ w.calls[j]? = some p) := by
  rw [List.getElem?_set] at found
  by_cases same : i = j
  · rw [if_pos same] at found
    split at found
    · cases found
      exact .inl ⟨same.symm, rfl⟩
    · cases found
  · rw [if_neg same] at found
    exact .inr ⟨fun here => same here.symm, found⟩

theorem Guarded.only (h : w.Guarded) (here : w.calls[i]? = some p) (holds : p.holds = true)
    (there : w.calls[j]? = some q) (holds' : q.holds = true) : j = i := by
  have first := h.gate i p here holds
  have second := h.gate j q there holds'
  exact Option.some.inj (second.symm.trans first)

/-- Nobody has installed keys that are not recorded, unless it is the holder of the permit. -/
theorem Guarded.not_installed (h : w.Guarded) (here : w.calls[i]? = some p) (holds : p.holds = true)
    (calm : p.isInstalled = false) : ∀ (j : Nat) q, w.calls[j]? = some q → q.isInstalled = false := by
  intro j q there
  cases installed : q.isInstalled with
  | false => rfl
  | true =>
    have holds' : q.holds = true := by cases q <;> first | rfl | cases installed
    have same := h.only here holds there holds'
    rw [same, here, Option.some.injEq] at there
    rw [← there, calm] at installed
    cases installed

/-- A call moves on and touches nothing else. -/
theorem Guarded.setCall (h : w.Guarded) (here : w.calls[i]? = some p) (holds : q.holds = true → p.holds = true)
    (attempt : ∀ R, q.attempt = some R → p.attempt = some R)
    (clear : q.mayRefresh = true → ∀ R ∈ failedSince w.log, R ≤ w.now)
    (allowed : ∀ kid, q = .cleared kid → w.fresh = true →
      w.keys.keys.lookup kid = none ∧ w.refresh_state.last_completed + JWKS_REFRESH_COOLDOWN ≤ w.now)
    (before : p.isInstalled = false) (after : q.isInstalled = false) : (w.setCall i q).Guarded := by
  constructor
  · intro j r found holds'
    rcases calls_set found with ⟨rfl, rfl⟩ | ⟨-, there⟩
    · exact h.gate j p here (holds holds')
    · exact h.gate j r there holds'
  · intro j r R found attempt'
    rcases calls_set found with ⟨rfl, rfl⟩ | ⟨-, there⟩
    · exact h.attempt j p R here (attempt R attempt')
    · exact h.attempt j r R there attempt'
  · intro j r found may
    rcases calls_set found with ⟨rfl, rfl⟩ | ⟨-, there⟩
    · exact clear may
    · exact h.clear j r there may
  · intro j kid found fresh
    rcases calls_set found with ⟨rfl, same⟩ | ⟨-, there⟩
    · exact allowed kid same.symm fresh
    · exact h.allowed j kid there fresh
  · intro j kid R key found
    rcases calls_set found with ⟨rfl, same⟩ | ⟨-, there⟩
    · rw [← same] at after
      cases after
    · exact h.installed j kid R key there
  · exact h.backoff
  · exact h.coalesce
  · obtain ⟨call, jwks, last, keys⟩ := h.completed
    refine ⟨call, jwks, last, fun calm => keys fun j r there => ?_⟩
    by_cases same : j = i
    · rw [same, here, Option.some.injEq] at there
      rw [← there]
      exact before
    · apply calm j r
      show (w.calls.set i q)[j]? = some r
      rw [List.getElem?_set_ne fun here => same here.symm]
      exact there

/-- The call that holds the permit ends. -/
theorem Guarded.ended (h : w.Guarded) (here : w.calls[i]? = some p) (holds : p.holds = true) (released : q.holds = false)
    {s : RefreshState} {log : List (RefreshEvent K)}
    (backoff : ∀ R ∈ failedSince log, w.now < R → ∃ R', s.retry_after = some R' ∧ R ≤ R')
    (coalesce : ∀ u, s.coalesce_until = some u → u = s.last_completed + JWKS_REFRESH_COALESCE_WINDOW)
    (completed : ∃ call, lastCompleted log = some (call, s.last_completed, w.keys)) :
    Guarded { w.leave i q with refresh_state := s, log := log } := by
  have nobody (j : Nat) (r : KeyCall K) (found : (w.calls.set i q)[j]? = some r) : r.holds = false := by
    rcases calls_set found with ⟨-, rfl⟩ | ⟨apart, there⟩
    · exact released
    · cases holds' : r.holds with
      | false => rfl
      | true => exact absurd (h.only here holds there holds') apart
  constructor
  · intro j r found holds'
    rw [nobody j r found] at holds'
    cases holds'
  · intro j r R found attempt
    have := KeyCall.holds_of_attempt attempt
    rw [nobody j r found] at this
    cases this
  · intro j r found may
    have := KeyCall.holds_of_mayRefresh may
    rw [nobody j r found] at this
    cases this
  · intro j kid found
    have := nobody j _ found
    cases this
  · intro j kid R key found
    have := nobody j _ found
    cases this
  · exact backoff
  · exact coalesce
  · obtain ⟨call, last⟩ := completed
    exact ⟨call, w.keys, last, fun _ => rfl⟩

/-- The call that holds the permit ends without a trace. -/
theorem Guarded.leave (h : w.Guarded) (here : w.calls[i]? = some p) (holds : p.holds = true) (released : q.holds = false)
    (calm : p.isInstalled = false) : (w.leave i q).Guarded := by
  obtain ⟨call, jwks, last, keys⟩ := h.completed
  have same := keys (h.not_installed here holds calm)
  exact h.ended here holds released h.backoff h.coalesce ⟨call, same ▸ last⟩

theorem Guarded.cancelRefresh {R : Nat} (h : w.Guarded) (here : w.calls[i]? = some p) (attempt : p.attempt = some R)
    (refresh : p.mayRefresh = true) (calm : p.isInstalled = false) : (w.cancelRefresh i R).Guarded := by
  have holds := KeyCall.holds_of_attempt attempt
  obtain ⟨call, jwks, last, keys⟩ := h.completed
  have same := keys (h.not_installed here holds calm)
  have dropped : w.refresh_state.dropAttempt R = { w.refresh_state with retry_after := none } := by
    rw [RefreshState.dropAttempt, if_pos (h.attempt i p R here attempt)]
  refine h.ended here holds rfl (fun R' failed late => ?_) ?_ ⟨call, ?_⟩
  · rw [failedSince_cancelled] at failed
    have := h.clear i p here refresh R' failed
    omega
  · rw [dropped]
    exact h.coalesce
  · rw [lastCompleted_cancelled, dropped, last, same]

theorem decision_none {kid : Text} (go : w.decision kid = none) :
    (w.fresh = true → w.keys.keys.lookup kid = none ∧ w.refresh_state.last_completed + JWKS_REFRESH_COOLDOWN ≤ w.now) ∧
      ∀ R, w.refresh_state.retry_after = some R → R ≤ w.now := by
  rw [decision] at go
  split at go
  · cases go
  · rename_i unknown
    split at go
    · cases go
    · rename_i cooled
      split at go
      · cases go
      · split at go
        · cases go
        · rename_i calm
          refine ⟨fun fresh => ⟨?_, ?_⟩, fun R same => ?_⟩
          · rw [fresh, Bool.true_and] at unknown
            exact Option.not_isSome_iff_eq_none.1 unknown
          · rw [fresh, Bool.true_and, decide_eq_true_eq] at cooled
            have positive : 0 < JWKS_REFRESH_COOLDOWN := by decide
            omega
          · rw [same, Option.any_some, decide_eq_true_eq] at calm
            omega

theorem fresh_tick {elapsed : Nat} (fresh : OidcAuthenticator.fresh { w with now := w.now + elapsed } = true) : w.fresh = true := by
  simp only [OidcAuthenticator.fresh, decide_eq_true_eq] at fresh ⊢
  omega

theorem Guarded.tick (h : w.Guarded) (elapsed : Nat) : Guarded { w with now := w.now + elapsed } := by
  refine ⟨h.gate, h.attempt, fun j q there may R failed => ?_, fun j kid there fresh => ?_, h.installed, fun R failed late => ?_,
    h.coalesce, h.completed⟩
  · have := h.clear j q there may R failed
    show R ≤ w.now + elapsed
    omega
  · obtain ⟨unknown, cooled⟩ := h.allowed j kid there (fresh_tick fresh)
    exact ⟨unknown, Nat.le_trans cooled (Nat.le_add_right _ _)⟩
  · exact h.backoff R failed (Nat.lt_of_le_of_lt (Nat.le_add_right _ _) late)

theorem Guarded.call (h : w.Guarded) (kid : Text) : Guarded { w with calls := w.calls ++ [.reading kid] } := by
  have old {j : Nat} {q : KeyCall K} (found : (w.calls ++ [.reading kid])[j]? = some q) :
      w.calls[j]? = some q ∨ q = .reading kid := by
    rw [List.getElem?_append] at found
    split at found
    · exact .inl found
    · have := List.mem_of_getElem? found
      exact .inr (List.mem_singleton.1 this)
  have kept {j : Nat} {q : KeyCall K} (found : w.calls[j]? = some q) : (w.calls ++ [.reading kid])[j]? = some q := by
    rw [List.getElem?_append_left (List.getElem?_eq_some_iff.1 found).1]
    exact found
  constructor
  · intro j q found holds
    rcases old found with there | rfl
    · exact h.gate j q there holds
    · cases holds
  · intro j q R found attempt
    rcases old found with there | rfl
    · exact h.attempt j q R there attempt
    · cases attempt
  · intro j q found may
    rcases old found with there | rfl
    · exact h.clear j q there may
    · cases may
  · intro j kid' found
    rcases old found with there | no
    · exact h.allowed j kid' there
    · cases no
  · intro j kid' R key found
    rcases old found with there | no
    · exact h.installed j kid' R key there
    · cases no
  · exact h.backoff
  · exact h.coalesce
  · obtain ⟨call, jwks, last, keys⟩ := h.completed
    exact ⟨call, jwks, last, fun calm => keys fun j q there => calm j q (kept there)⟩

/-- The permit goes to a call that waits for it. -/
theorem Guarded.acquire {kid : Text} (h : w.Guarded) (free : w.refresh_gate = none) :
    Guarded { w.setCall i (.admitted kid) with refresh_gate := some i } := by
  have nobody {j : Nat} {q : KeyCall K} (there : w.calls[j]? = some q) : q.holds = false := by
    cases holds : q.holds with
    | false => rfl
    | true =>
      have := h.gate j q there holds
      rw [free] at this
      cases this
  constructor
  · intro j q found holds
    rcases calls_set found with ⟨rfl, rfl⟩ | ⟨-, there⟩
    · rfl
    · rw [nobody there] at holds
      cases holds
  · intro j q R found attempt
    rcases calls_set found with ⟨-, rfl⟩ | ⟨-, there⟩
    · cases attempt
    · exact h.attempt j q R there attempt
  · intro j q found may
    rcases calls_set found with ⟨-, rfl⟩ | ⟨-, there⟩
    · cases may
    · exact h.clear j q there may
  · intro j kid' found
    rcases calls_set found with ⟨-, no⟩ | ⟨-, there⟩
    · cases no
    · exact h.allowed j kid' there
  · intro j kid' R key found
    rcases calls_set found with ⟨-, no⟩ | ⟨-, there⟩
    · cases no
    · exact h.installed j kid' R key there
  · exact h.backoff
  · exact h.coalesce
  · obtain ⟨call, jwks, last, keys⟩ := h.completed
    refine ⟨call, jwks, last, fun _ => keys fun j q there => ?_⟩
    have := nobody there
    cases q <;> first | rfl | cases this

/-- A call that holds the permit goes on and changes what only it may change. -/
theorem Guarded.advance (h : w.Guarded) (s : RefreshState) (log : List (RefreshEvent K)) (keys : CachedJwks K)
    (here : w.calls[i]? = some p) (holds : p.holds = true)
    (attempt : ∀ R, q.attempt = some R → s.retry_after = some R) (clear : ∀ R ∈ failedSince log, R ≤ w.now)
    (allowed : ∀ kid, q ≠ .cleared kid) (installed : ∀ kid R key, q = .installed kid R key → key = keys.keys.lookup kid)
    (coalesce : s.coalesce_until = w.refresh_state.coalesce_until) (last : s.last_completed = w.refresh_state.last_completed)
    (same : lastCompleted log = lastCompleted w.log) (current : q.isInstalled = false → p.isInstalled = false ∧ keys = w.keys) :
    Guarded { w.setCall i q with refresh_state := s, log := log, keys := keys } := by
  have apart {j : Nat} {r : KeyCall K} (other : j ≠ i) (there : w.calls[j]? = some r) : r.holds = false := by
    cases holds' : r.holds with
    | false => rfl
    | true => exact absurd (h.only here holds there holds') other
  constructor
  · intro j r found holds'
    rcases calls_set found with ⟨rfl, -⟩ | ⟨other, there⟩
    · exact h.gate j p here holds
    · rw [apart other there] at holds'
      cases holds'
  · intro j r R found attempt'
    rcases calls_set found with ⟨-, rfl⟩ | ⟨other, there⟩
    · exact attempt R attempt'
    · have := KeyCall.holds_of_attempt attempt'
      rw [apart other there] at this
      cases this
  · exact fun _ _ _ _ => clear
  · intro j kid found
    rcases calls_set found with ⟨-, no⟩ | ⟨other, there⟩
    · exact absurd no.symm (allowed kid)
    · have := apart other there
      cases this
  · intro j kid R key found
    rcases calls_set found with ⟨-, now⟩ | ⟨other, there⟩
    · exact installed kid R key now.symm
    · have := apart other there
      cases this
  · intro R failed late
    exact absurd (clear R failed) (Nat.not_le_of_lt late)
  · intro u found
    rw [last]
    exact h.coalesce u (coalesce ▸ found)
  · obtain ⟨call, jwks, known, cached⟩ := h.completed
    refine ⟨call, jwks, by rw [same, last, known], fun calm => ?_⟩
    have within : i < w.calls.length := (List.getElem?_eq_some_iff.1 here).1
    obtain ⟨before, kept⟩ := current (calm i q (by
      show (w.calls.set i q)[i]? = some q
      rw [List.getElem?_set_self within]))
    exact kept.trans (cached (h.not_installed here holds before))

theorem step_guarded (h : w.Guarded) (op : KeyOp K) : (w.step op).Guarded := by
  cases op with
  | tick elapsed => exact h.tick elapsed
  | call kid => exact h.call kid
  | lookup i =>
    rw [step]
    split
    · rename_i kid here
      split
      · exact h.setCall here (fun no => nomatch no) (fun _ no => nomatch no) (fun no => nomatch no) (fun _ no => nomatch no) rfl rfl
      · exact h.setCall here (fun no => nomatch no) (fun _ no => nomatch no) (fun no => nomatch no) (fun _ no => nomatch no) rfl rfl
    · exact h
  | acquire i =>
    rw [step]
    split
    · rename_i kid deadline here free
      exact h.acquire free
    · exact h
  | timeOut i =>
    rw [step]
    split
    · rename_i kid deadline here
      split
      · exact h.setCall here (fun no => nomatch no) (fun _ no => nomatch no) (fun no => nomatch no) (fun _ no => nomatch no) rfl rfl
      · exact h
    · exact h
  | check i =>
    rw [step]
    split
    · rename_i kid here
      split
      · exact h.leave here rfl rfl rfl
      · rename_i go
        obtain ⟨allowed, calm⟩ := decision_none go
        refine h.setCall here (fun _ => rfl) (fun _ no => nomatch no) (fun _ R failed => ?_) (fun kid' same => ?_) rfl rfl
        · by_cases late : w.now < R
          · obtain ⟨R', backoff, le⟩ := h.backoff R failed late
            exact Nat.le_trans le (calm R' backoff)
          · exact Nat.le_of_not_lt late
        · cases same
          exact allowed
    · exact h
  | start i =>
    rw [step]
    split
    · rename_i kid here
      refine h.advance _ _ w.keys here rfl (fun _ same => same) (fun R failed => ?_) (fun _ no => nomatch no)
        (fun _ _ _ no => nomatch no) rfl rfl lastCompleted_started fun _ => ⟨rfl, rfl⟩
      rw [failedSince_started] at failed
      exact h.clear i _ here rfl R failed
    · exact h
  | answer i answer =>
    rw [step]
    split
    · rename_i kid R here
      split
      · obtain ⟨call, jwks, last, keys⟩ := h.completed
        have same := keys (h.not_installed here rfl rfl)
        refine h.ended (s := w.refresh_state) here rfl rfl (fun R' failed late => ?_) h.coalesce
          ⟨call, by rw [lastCompleted_failed, last, same]⟩
        rw [failedSince_failed] at failed
        rcases List.mem_append.1 failed with before | this
        · exact h.backoff R' before late
        · rw [List.mem_singleton.1 this]
          exact ⟨R, h.attempt i _ R here rfl, Nat.le_refl R⟩
      · exact h.setCall here (fun _ => rfl) (fun _ same => same) (fun _ => h.clear i _ here rfl) (fun _ no => nomatch no) rfl rfl
    · exact h
  | install i =>
    rw [step]
    split
    · rename_i kid R refreshed here
      refine h.advance w.refresh_state w.log _ here rfl (fun R' same => ?_) (h.clear i _ here rfl)
        (fun _ no => nomatch no) (fun _ _ _ same => ?_) rfl rfl rfl fun no => nomatch no
      · exact h.attempt i _ R' here same
      · cases same
        rfl
    · exact h
  | record i =>
    rw [step]
    split
    · rename_i kid R key here
      exact h.ended here rfl rfl (fun R failed => by simp at failed) (fun u same => (Option.some.inj same).symm)
        ⟨some i, lastCompleted_completed⟩
    · exact h
  | cancel i =>
    rw [step]
    split
    · rename_i kid here
      exact h.setCall here (fun no => nomatch no) (fun _ no => nomatch no) (fun no => nomatch no) (fun _ no => nomatch no) rfl rfl
    · rename_i kid deadline here
      exact h.setCall here (fun no => nomatch no) (fun _ no => nomatch no) (fun no => nomatch no) (fun _ no => nomatch no) rfl rfl
    · rename_i kid here
      exact h.leave here rfl rfl rfl
    · rename_i kid R here
      exact h.cancelRefresh here rfl rfl rfl
    · rename_i kid R refreshed here
      exact h.cancelRefresh here rfl rfl rfl
    · exact h

theorem discover_guarded {jwks : CachedJwks K} {now : Nat} : (discover jwks now).Guarded := by
  refine ⟨(fun _ _ no => nomatch no), (fun _ _ _ no => nomatch no), (fun _ _ no => nomatch no), (fun _ _ no => nomatch no),
    (fun _ _ _ _ no => nomatch no), (fun _ no => nomatch no), (fun _ no => nomatch no), none, jwks, rfl, fun _ => rfl⟩

theorem run_guarded (h : w.Guarded) (ops : List (KeyOp K)) : (w.run ops).Guarded := by
  induction ops generalizing w with
  | nil => exact h
  | cons op ops ih => exact ih (step_guarded h op)

/-- The call has a fetch in flight. -/
def fetching (w : OidcAuthenticator K) (i : Nat) : Prop := ∃ kid R, w.calls[i]? = some (.refreshing kid R)

/-- The call has an attempt that was neither answered with a failure nor recorded, and can be given up. -/
def attempting (w : OidcAuthenticator K) (i : Nat) : Prop :=
  w.fetching i ∨ ∃ kid R refreshed, w.calls[i]? = some (.fetched kid R refreshed)

/-- Where a returned key comes from: an unexpired cache, or the keys of the last completed
refresh, which is that of the call itself or not older than the coalesce window. -/
def Source (w w' : OidcAuthenticator K) (i : Nat) (kid : Text) (key : CachedKey K) : Prop :=
  (w.fresh = true ∧ w.keys.keys.lookup kid = some key) ∨
  ∃ call t jwks, lastCompleted w'.log = some (call, t, jwks) ∧ jwks.keys.lookup kid = some key ∧
    (call = some i ∧ t = w.now ∨ w.now < t + JWKS_REFRESH_COALESCE_WINDOW)

theorem knownKey_ok {found : Option (CachedKey K)} {key : CachedKey K} (known : knownKey found = .ok key) : found = some key := by
  cases found with
  | none => cases known
  | some _ =>
    cases known
    rfl

theorem decision_source {kid : Text} {key : CachedKey K} (h : w.Guarded) (here : w.calls[i]? = some (.admitted kid))
    (decided : w.decision kid = some (.ok key)) : w.Source w i kid key := by
  rw [decision] at decided
  split at decided
  · rename_i known
    rw [Bool.and_eq_true] at known
    exact .inl ⟨known.1, knownKey_ok (Option.some.inj decided)⟩
  · split at decided
    · cases decided
    · split at decided
      · rename_i coalesced
        obtain ⟨call, jwks, last, keys⟩ := h.completed
        have same := keys (h.not_installed here rfl rfl)
        refine .inr ⟨call, _, jwks, last, same ▸ knownKey_ok (Option.some.inj decided), .inr ?_⟩
        cases found : w.refresh_state.coalesce_until with
        | none =>
          rw [found] at coalesced
          cases coalesced
        | some u =>
          rw [found, Option.any_some, decide_eq_true_eq] at coalesced
          rw [← h.coalesce u found]
          exact coalesced
      · split at decided
        · cases decided
        · cases decided

/-- Where a step brings a call. -/
inductive Moves (w : OidcAuthenticator K) : KeyOp K → Nat → KeyCall K → Prop where
  | call {i : Nat} (kid : Text) : Moves w (.call kid) i (.reading kid)
  | found {i : Nat} {kid : Text} (fresh : w.fresh = true) :
    Moves w (.lookup i) i (.returned kid (knownKey (w.keys.keys.lookup kid)))
  | wait {i : Nat} {kid : Text} : Moves w (.lookup i) i (.waiting kid (w.now + JWKS_REFRESH_WAIT_TIMEOUT))
  | acquire {i : Nat} {kid : Text} : Moves w (.acquire i) i (.admitted kid)
  | timeOut {i : Nat} {kid : Text} : Moves w (.timeOut i) i (.returned kid (.error .jwksRefreshBackoff))
  | decided {i : Nat} {kid : Text} {result : Except OidcAuthError (CachedKey K)} (here : w.calls[i]? = some (.admitted kid))
    (decision : w.decision kid = some result) : Moves w (.check i) i (.returned kid result)
  | cleared {i : Nat} {kid : Text} : Moves w (.check i) i (.cleared kid)
  | start {i : Nat} {kid : Text} (here : w.calls[i]? = some (.cleared kid)) :
    Moves w (.start i) i (.refreshing kid (w.now + JWKS_REFRESH_COOLDOWN))
  | failed {i : Nat} {kid : Text} {answer : Except OidcAuthError (List (Jwk K) × Nat)} {error : OidcAuthError} :
    Moves w (.answer i answer) i (.returned kid (.error error))
  | fetched {i : Nat} {kid : Text} {answer : Except OidcAuthError (List (Jwk K) × Nat)} {R : Nat} {refreshed : CachedJwks K} :
    Moves w (.answer i answer) i (.fetched kid R refreshed)
  | install {i : Nat} {kid : Text} {R : Nat} {key : Option (CachedKey K)} : Moves w (.install i) i (.installed kid R key)
  | record {i : Nat} {kid : Text} {R : Nat} {key : Option (CachedKey K)} (here : w.calls[i]? = some (.installed kid R key)) :
    Moves w (.record i) i (.returned kid (knownKey key))
  | cancel {i : Nat} : Moves w (.cancel i) i .cancelled

theorem moves_of_set {op : KeyOp K} (move : w.Moves op i q) (found : (w.calls.set i q)[j]? = some p) :
    w.calls[j]? = some p ∨ w.Moves op j p := by
  rcases calls_set found with ⟨rfl, rfl⟩ | ⟨-, there⟩
  · exact .inr move
  · exact .inl there

/-- A call stays where it is, or moves. -/
theorem step_moves {op : KeyOp K} (found : (w.step op).calls[j]? = some p) : w.calls[j]? = some p ∨ w.Moves op j p := by
  cases op with
  | tick elapsed => exact .inl found
  | call kid =>
    rw [step, List.getElem?_append] at found
    split at found
    · exact .inl found
    · rw [List.mem_singleton.1 (List.mem_of_getElem? found)]
      exact .inr (.call kid)
  | lookup i =>
    rw [step] at found
    split at found
    · split at found
      · rename_i known
        exact moves_of_set (.found (Bool.and_eq_true_iff.1 known).1) found
      · exact moves_of_set .wait found
    · exact .inl found
  | acquire i =>
    rw [step] at found
    split at found
    · exact moves_of_set .acquire found
    · exact .inl found
  | timeOut i =>
    rw [step] at found
    split at found
    · split at found
      · exact moves_of_set .timeOut found
      · exact .inl found
    · exact .inl found
  | check i =>
    rw [step] at found
    split at found
    · rename_i here
      split at found
      · rename_i decision
        exact moves_of_set (.decided here decision) found
      · exact moves_of_set .cleared found
    · exact .inl found
  | start i =>
    rw [step] at found
    split at found
    · rename_i here
      exact moves_of_set (.start here) found
    · exact .inl found
  | answer i answer =>
    rw [step] at found
    split at found
    · split at found
      · exact moves_of_set .failed found
      · exact moves_of_set .fetched found
    · exact .inl found
  | install i =>
    rw [step] at found
    split at found
    · exact moves_of_set .install found
    · exact .inl found
  | record i =>
    rw [step] at found
    split at found
    · rename_i here
      exact moves_of_set (.record here) found
    · exact .inl found
  | cancel i =>
    rw [step] at found
    split at found
    · exact moves_of_set .cancel found
    · exact moves_of_set .cancel found
    · exact moves_of_set .cancel found
    · exact moves_of_set .cancel found
    · exact moves_of_set .cancel found
    · exact .inl found

theorem step_source {op : KeyOp K} {kid : Text} {key : CachedKey K} (h : w.Guarded)
    (returns : (w.step op).calls[i]? = some (.returned kid (.ok key))) (before : w.calls[i]? ≠ some (.returned kid (.ok key))) :
    w.Source (w.step op) i kid key := by
  rcases step_moves returns with same | move
  · exact absurd same before
  generalize result : Except.ok key = r at move
  cases move with
  | found fresh => exact .inl ⟨fresh, knownKey_ok result.symm⟩
  | timeOut => cases result
  | failed => cases result
  | decided here decision =>
    have same : (w.step (.check i)).log = w.log := by
      rw [step, here]
      dsimp only
      rw [decision]
      rfl
    rw [← result] at decision
    rcases decision_source h here decision with cached | ⟨call, t, jwks, last, known, window⟩
    · exact .inl cached
    · exact .inr ⟨call, t, jwks, by rw [same, last], known, window⟩
  | record here =>
    have log : (w.step (.record i)).log = w.log ++ [.completed (some i) w.now w.keys] := by
      rw [step, here]
    refine .inr ⟨some i, w.now, w.keys, by rw [log, lastCompleted_completed], ?_, .inl ⟨rfl, rfl⟩⟩
    rw [← h.installed i kid _ _ here]
    exact knownKey_ok result.symm

/-- What holds in every state of the authenticator, and of every step from it. -/
structure RefreshSafe (w : OidcAuthenticator K) : Prop where
  /-- At most one fetch is in flight. -/
  single : ∀ i j, w.fetching i → w.fetching j → i = j
  source : ∀ op (i : Nat) kid key, (w.step op).calls[i]? = some (.returned kid (.ok key)) →
    w.calls[i]? ≠ some (.returned kid (.ok key)) → w.Source (w.step op) i kid key
  /-- A key that the fresh cache holds is returned at once. -/
  cached : ∀ (i : Nat) kid key, w.calls[i]? = some (.reading kid) → w.fresh = true → w.keys.keys.lookup kid = some key →
    (w.step (.lookup i)).calls[i]? = some (.returned kid (.ok key))
  /-- A fetch that starts is allowed to: the cache has expired, or does not hold the key and
  the cooldown is over; and so is the backoff of every refresh that has failed since one was completed. -/
  started : ∀ op i kid R, ¬ w.fetching i → (w.step op).calls[i]? = some (.refreshing kid R) →
    (w.step op).log = w.log ++ [.started i kid w.now] ∧
    (w.fresh = true → w.keys.keys.lookup kid = none ∧
      ∀ call t jwks, lastCompleted w.log = some (call, t, jwks) → t + JWKS_REFRESH_COOLDOWN ≤ w.now) ∧
    ∀ R ∈ failedSince w.log, R ≤ w.now
  /-- Until then the backoff of a failed refresh is in force. -/
  backoff : ∀ R ∈ failedSince w.log, w.now < R → ∃ R', w.refresh_state.retry_after = some R' ∧ R ≤ R'
  failed : ∀ (i : Nat) kid R answer error, w.calls[i]? = some (.refreshing kid R) → fetchJwks answer w.now = .error error →
    (w.step (.answer i answer)).keys = w.keys ∧ (w.step (.answer i answer)).log = w.log ++ [.failed i R] ∧
    (w.step (.answer i answer)).refresh_state.retry_after = some R
  /-- A cancelled call leaves the cache and the backoffs of others, and none of its own. -/
  cancelled : ∀ i, (w.step (.cancel i)).keys = w.keys ∧ failedSince (w.step (.cancel i)).log = failedSince w.log ∧
    (w.attempting i → (w.step (.cancel i)).refresh_state.retry_after = none) ∧
    (¬ w.attempting i → (w.step (.cancel i)).refresh_state = w.refresh_state)

theorem cancel_attempt (h : w.Guarded) (attempting : w.attempting i) :
    ∃ R, w.step (.cancel i) = w.cancelRefresh i R ∧ w.refresh_state.retry_after = some R := by
  rcases attempting with ⟨kid, R, here⟩ | ⟨kid, R, refreshed, here⟩
  · exact ⟨R, by rw [step, here], h.attempt i _ R here rfl⟩
  · exact ⟨R, by rw [step, here], h.attempt i _ R here rfl⟩

theorem cancel_other (other : ¬ w.attempting i) : (w.step (.cancel i)).keys = w.keys ∧
    (w.step (.cancel i)).log = w.log ∧ (w.step (.cancel i)).refresh_state = w.refresh_state := by
  rw [step]
  split
  · exact ⟨rfl, rfl, rfl⟩
  · exact ⟨rfl, rfl, rfl⟩
  · exact ⟨rfl, rfl, rfl⟩
  · rename_i here
    exact absurd (.inl ⟨_, _, here⟩) other
  · rename_i here
    exact absurd (.inr ⟨_, _, _, here⟩) other
  · exact ⟨rfl, rfl, rfl⟩

theorem Guarded.safe (h : w.Guarded) : w.RefreshSafe := by
  constructor
  · rintro i j ⟨_, _, here⟩ ⟨_, _, there⟩
    exact (h.only here rfl there rfl).symm
  · exact fun op i kid key => step_source h
  · intro i kid key here fresh known
    have within : i < w.calls.length := (List.getElem?_eq_some_iff.1 here).1
    rw [step, here]
    dsimp only
    rw [fresh, known, Option.isSome_some, Bool.and_self, if_pos rfl]
    exact List.getElem?_set_self within
  · intro op i kid R calm now
    rcases step_moves now with same | move
    · exact absurd ⟨kid, R, same⟩ calm
    · cases move with
      | start here =>
        refine ⟨by rw [step, here], fun fresh => ?_, h.clear i _ here rfl⟩
        obtain ⟨unknown, cooled⟩ := h.allowed i kid here fresh
        refine ⟨unknown, fun call t jwks last => ?_⟩
        obtain ⟨_, _, last', -⟩ := h.completed
        rw [last', Option.some.injEq, Prod.mk.injEq, Prod.mk.injEq] at last
        rw [← last.2.1]
        exact cooled
  · exact h.backoff
  · intro i kid R answer error here failing
    have done : w.step (.answer i answer) =
        { w.leave i (.returned kid (.error error)) with log := w.log ++ [.failed i R] } := by
      rw [step, here]
      dsimp only
      rw [failing]
    rw [done]
    exact ⟨rfl, rfl, h.attempt i _ R here rfl⟩
  · intro i
    by_cases attempting : w.attempting i
    · obtain ⟨R, done, own⟩ := cancel_attempt h attempting
      rw [done]
      refine ⟨rfl, failedSince_cancelled, fun _ => ?_, fun no => absurd attempting no⟩
      show (w.refresh_state.dropAttempt R).retry_after = none
      rw [RefreshState.dropAttempt, if_pos own]
    · obtain ⟨keys, log, state⟩ := cancel_other attempting
      exact ⟨keys, by rw [log], fun no => absurd no attempting, fun _ => state⟩

/-- **Refreshing is safe** under any interleaving of calls, answers, timeouts and cancellations. -/
theorem refresh_safe (jwks : CachedJwks K) (now : Nat) (ops : List (KeyOp K)) : ((discover jwks now).run ops).RefreshSafe :=
  (run_guarded discover_guarded ops).safe

end OidcAuthenticator
end
end AgenticStack.Server
