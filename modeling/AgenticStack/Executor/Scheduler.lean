import AgenticStack.Executor.Gateway
import AgenticStack.Library.Outcome
import AgenticStack.Library.Spending
import Mathlib.Algebra.BigOperators.Fin
import Mathlib.Data.Fintype.Sigma
import Mathlib.Data.Fintype.Sum

/-!
# The calls of many requests at once

The calls of a round run side by side, and so do the rounds of all requests. A
call of a handler that must not overlap with itself waits for its tool name, then
every call waits for a slot of its round, and then for one of the permits of the
process, which the discovery of MCP tools takes too. Whatever the order, a round
comes to what its calls come to one after another.
-/

namespace AgenticStack
set_option autoImplicit false
open Library Finset

/-- So many calls may run at a time. -/
def maxConcurrentMaterializations : Nat := 16

/-- The error of answers that are too long together. -/
def responseBudgetExceeded : ExecutorError :=
  .streamError (utf8 "executor response budget exceeded " ++ decimal maxExecutorResponseBytes ++ utf8 " bytes")

/-- What a call comes to before it is charged to the budget, with its bytes. -/
def GatewayCallPlan.charge (plan : GatewayCallPlan) (round : Nat) : ExecutorResult (Nat × GatewayCallResult) :=
  match plan.execution with
  | none => do
    let output := executionErrorOutput plan.call
      (utf8 "gateway tool '" ++ plan.call.name ++ utf8 "' has no registered handler")
    enforceGatewayToolOutputSize output.output.length
    return (output.output.length, { item_index := plan.item_index, input_item := output.toInput, public_output := none })
  | some binding => do
    let (output, status) ← settleDispatch plan.call
      (binding.execute round plan.item_index plan.call.call_id plan.call.name plan.call.arguments)
    enforceGatewayToolOutputSize output.output.length
    return (output.output.length, { item_index := plan.item_index, input_item := output.toInput
                                    public_output := binding.publicOutput plan.call output status })

/-- What a computation with the budget comes to. -/
def withRemaining {α : Type} : ExecutorResult α × Nat → EStateM.Result ExecutorError Nat α
  | (.ok a, remaining) => .ok a remaining
  | (.error e, remaining) => .error e remaining

/-- Spending of the budget is settling it. -/
theorem consume_eq {α : Type} (remaining bytes : Nat) (a : α) :
    (do consumeBudget bytes; return a : EStateM ExecutorError Nat α) remaining =
      withRemaining (Spending.settle responseBudgetExceeded remaining (.ok (bytes, a))) := by
  rw [Spending.settle]
  by_cases enough : bytes ≤ remaining
  · have spent : consumeBudget bytes remaining = .ok () (remaining - bytes) := by
      show (if bytes ≤ remaining then set (remaining - bytes) else throw responseBudgetExceeded :
        EStateM ExecutorError Nat Unit) remaining = _
      rw [if_pos enough]
      rfl
    rw [if_pos enough]
    exact bind_ok.2 ⟨(), remaining - bytes, spent, rfl⟩
  · have refused : consumeBudget bytes remaining = .error responseBudgetExceeded remaining := by
      show (if bytes ≤ remaining then set (remaining - bytes) else throw responseBudgetExceeded :
        EStateM ExecutorError Nat Unit) remaining = _
      rw [if_neg enough]
      rfl
    rw [if_neg enough]
    exact bind_error.2 (.inl refused)

/-- A call is run, and then charged. -/
theorem runOne_eq (plan : GatewayCallPlan) (round remaining : Nat) :
    plan.runOne round remaining = withRemaining (Spending.settle responseBudgetExceeded remaining (plan.charge round)) := by
  rw [GatewayCallPlan.runOne, GatewayCallPlan.charge]
  cases plan.execution with
  | none =>
    dsimp only
    cases enforceGatewayToolOutputSize _ with
    | error e => rfl
    | ok _ => exact consume_eq remaining _ _
  | some binding =>
    dsimp only
    cases settleDispatch plan.call
        (binding.execute round plan.item_index plan.call.call_id plan.call.name plan.call.arguments) with
    | error e => rfl
    | ok made =>
      obtain ⟨output, status⟩ := made
      have checked (size : ExecutorResult Unit) : (do
          ofExcept size
          consumeBudget output.output.length
          return ({ item_index := plan.item_index, input_item := output.toInput
                    public_output := binding.publicOutput plan.call output status } : GatewayCallResult) :
            EStateM ExecutorError Nat GatewayCallResult) remaining =
          withRemaining (Spending.settle responseBudgetExceeded remaining (do
            size
            return (output.output.length, { item_index := plan.item_index, input_item := output.toInput
                                            public_output := binding.publicOutput plan.call output status }))) := by
        cases size with
        | error e => rfl
        | ok _ => exact consume_eq remaining _ _
      exact checked _

/-- The bytes that calls spend together. -/
def chargedBytes (calls : List GatewayCallPlan) (round : Nat) : Nat :=
  (calls.map fun plan => Spending.cost (plan.charge round)).sum

/-- The calls one after another: all are charged, and the budget is enough for them. -/
theorem executeWithBudget_iff {calls : List GatewayCallPlan} {round budget budget' : Nat} {results : List GatewayCallResult} :
    executeWithBudget calls round budget = .ok results budget' ↔
      List.Forall₂ (fun plan result => ∃ bytes, GatewayCallPlan.charge plan round = .ok (bytes, result)) calls results ∧
        chargedBytes calls round ≤ budget ∧ budget' = budget - chargedBytes calls round := by
  rw [executeWithBudget]
  induction calls generalizing budget results with
  | nil =>
    rw [List.mapM_nil, pure_ok]
    simp only [List.forall₂_nil_left_iff, chargedBytes, List.map_nil, List.sum_nil, Nat.zero_le, true_and, Nat.sub_zero, eq_comm]
  | cons plan calls ih =>
    have bytes_cons : chargedBytes (plan :: calls) round = Spending.cost (plan.charge round) + chargedBytes calls round :=
      List.sum_cons
    rw [List.mapM_cons, bind_ok, bytes_cons]
    constructor
    · rintro ⟨result, middle, first, h⟩
      obtain ⟨rest, _, later, h⟩ := bind_ok.1 h
      obtain ⟨rfl, rfl⟩ := pure_ok.1 h
      obtain ⟨each, enough, rfl⟩ := ih.1 later
      rw [runOne_eq] at first
      cases settled : Spending.settle responseBudgetExceeded budget (plan.charge round) with
      | mk outcome remaining =>
        rw [settled] at first
        cases outcome with
        | error e => cases first
        | ok value =>
          cases first
          obtain ⟨bytes, charged, fits, rfl⟩ := Spending.settle_ok_iff.1 settled
          have cost : Spending.cost (plan.charge round) = bytes := by rw [charged]; rfl
          refine ⟨.cons ⟨bytes, charged⟩ each, ?_, ?_⟩ <;> omega
    · rintro ⟨each, enough, rfl⟩
      cases each with
      | cons head each =>
        rename_i result rest
        obtain ⟨bytes, charged⟩ := head
        have cost : Spending.cost (plan.charge round) = bytes := by rw [charged]; rfl
        refine ⟨result, budget - bytes, ?_, ?_⟩
        · rw [runOne_eq, Spending.settle_ok_iff.2 ⟨bytes, charged, by omega, rfl⟩]
          rfl
        · refine bind_ok.2 ⟨rest, budget - (Spending.cost (plan.charge round) + chargedBytes calls round), ?_, pure_ok.2 ⟨rfl, rfl⟩⟩
          exact ih.2 ⟨each, by omega, by omega⟩

/-- A round of a request: its calls, the names whose handlers may overlap with themselves, how many calls it may run at
once, and what remains of the budget of its response. -/
structure ScheduledRound where
  calls : List GatewayCallPlan
  round : Nat
  parallel : Text → Bool
  max_concurrent_calls : Nat
  nonzero : 0 < max_concurrent_calls
  budget : Nat

/-- What a call waits for. -/
inductive Permit (requests : Nat) where
  | exclusion (request : Fin requests) (name : Text)
  | slot (request : Fin requests)
  | materialization
deriving DecidableEq

namespace Permit
variable {requests : Nat}

/-- The order in which permits are acquired. -/
def rank : Permit requests → Nat
  | .exclusion _ _ => 0
  | .slot _ => 1
  | .materialization => 2

end Permit

section
variable {requests : Nat} (rounds : Fin requests → ScheduledRound) (discoveries : Nat)

/-- The calls of all rounds, and the discoveries. -/
abbrev Task : Type := ((request : Fin requests) × Fin (rounds request).calls.length) ⊕ Fin discoveries

/-- `self_exclusion`, `execution_slots` and `acquire_materialization_permit`; a call without a handler needs nothing. -/
def ScheduledRound.needs (round : ScheduledRound) (request : Fin requests) (plan : GatewayCallPlan) : List (Permit requests) :=
  match plan.execution with
  | none => []
  | some _ => (if round.parallel plan.call.name then [] else [.exclusion request plan.call.name]) ++
      [.slot request, .materialization]

/-- The permits a task must hold, and how many of each there are. -/
def schedulerPermits : Permits (Task rounds discoveries) (Permit requests) where
  needs
    | .inl ⟨request, index⟩ => (rounds request).needs request ((rounds request).calls.get index)
    | .inr _ => [.materialization]
  capacity
    | .exclusion _ _ => 1
    | .slot request => (rounds request).max_concurrent_calls
    | .materialization => maxConcurrentMaterializations

/-- The results are those of the calls that have finished. -/
structure SchedulerState where
  stage : Task rounds discoveries → Permits.Stage
  budgets : Fin requests → Nat
  results : (request : Fin requests) → Fin (rounds request).calls.length → Option (ExecutorResult GatewayCallResult)

/-- Nothing has run yet. -/
def SchedulerState.initial : SchedulerState rounds discoveries where
  stage _ := .holding 0
  budgets request := (rounds request).budget
  results _ _ := none

end

section
variable {requests : Nat} {rounds : Fin requests → ScheduledRound} {discoveries : Nat}

/-- What a call of a round comes to, with what remains of the budget. -/
def ScheduledRound.settle (round : ScheduledRound) (index : Fin round.calls.length) (remaining : Nat) :
    ExecutorResult GatewayCallResult × Nat :=
  match (round.calls.get index).runOne round.round remaining with
  | .ok result rest => (.ok result, rest)
  | .error e rest => (.error e, rest)

/-- A call that finishes has run: its result is charged to the budget of its response. -/
def SchedulerState.after (s : SchedulerState rounds discoveries) (move : Permits.Move (Task rounds discoveries))
    (stage : Task rounds discoveries → Permits.Stage) : SchedulerState rounds discoveries :=
  match move with
  | .finish (.inl ⟨request, index⟩) =>
    let (result, remaining) := (rounds request).settle index (s.budgets request)
    { stage
      budgets := Function.update s.budgets request remaining
      results := Function.update s.results request (Function.update (s.results request) index (some result)) }
  | _ => { s with stage }

/-- The steps of the process in any order. A call is abandoned where its request is dropped. -/
inductive SchedulerRun : List (Permits.Move (Task rounds discoveries)) → SchedulerState rounds discoveries → Prop where
  | start : SchedulerRun [] (.initial rounds discoveries)
  | step {moves : List (Permits.Move (Task rounds discoveries))} {s : SchedulerState rounds discoveries}
      {move : Permits.Move (Task rounds discoveries)} {stage : Task rounds discoveries → Permits.Stage}
      (before : SchedulerRun moves s) (now : (schedulerPermits rounds discoveries).Step s.stage move stage) :
      SchedulerRun (moves ++ [move]) (s.after move stage)

variable {moves : List (Permits.Move (Task rounds discoveries))} {s : SchedulerState rounds discoveries}
  {move : Permits.Move (Task rounds discoveries)} {stage : Task rounds discoveries → Permits.Stage}
  {request : Fin requests} {index index' : Fin (rounds request).calls.length}

/-- A step moves the tasks as the permits allow. -/
@[simp] theorem after_stage : (s.after move stage).stage = stage := by
  cases move with
  | finish task => cases task <;> rfl
  | acquire task => rfl
  | abandon task => rfl

/-- A run of the scheduler is a run of its permits. -/
theorem SchedulerRun.permits (run : SchedulerRun moves s) : (schedulerPermits rounds discoveries).Run moves s.stage := by
  induction run with
  | start => exact .start
  | step _ now ih =>
    rw [after_stage]
    exact ih.step now

/-- The permits are taken in one order. -/
theorem schedulerPermits_ordered : (schedulerPermits rounds discoveries).Ordered Permit.rank := by
  rintro (⟨request, index⟩ | discovery)
  · show List.Pairwise _ (ScheduledRound.needs _ _ _)
    rw [ScheduledRound.needs]
    split
    · exact .nil
    · split <;> simp [Permit.rank]
  · exact List.pairwise_singleton _ _

/-- There is at least one permit of each kind. -/
theorem schedulerPermits_available (k : Permit requests) : 0 < (schedulerPermits rounds discoveries).capacity k := by
  cases k with
  | exclusion request name => exact Nat.one_pos
  | slot request => exact (rounds request).nonzero
  | materialization =>
    show 0 < maxConcurrentMaterializations
    decide

/-- The task has all that it needs, and is at work. -/
def SchedulerState.Executing (s : SchedulerState rounds discoveries) (task : Task rounds discoveries) : Prop :=
  (schedulerPermits rounds discoveries).needs task ≠ [] ∧
    s.stage task = .holding ((schedulerPermits rounds discoveries).needs task).length

instance : DecidablePred s.Executing := fun task =>
  inferInstanceAs (Decidable (_ ≠ [] ∧ s.stage task = _))

/-- A call that runs holds what it needs. -/
theorem held_of_executing {task : Task rounds discoveries} (executing : s.Executing task) :
    (schedulerPermits rounds discoveries).held task (s.stage task) = (schedulerPermits rounds discoveries).needs task := by
  rw [executing.2, Permits.held, List.take_length]

/-- What a call needs. -/
theorem call_needs (executing : s.Executing (.inl ⟨request, index⟩)) :
    (schedulerPermits rounds discoveries).needs (.inl ⟨request, index⟩) =
      (if (rounds request).parallel ((rounds request).calls.get index).call.name then []
        else [.exclusion request ((rounds request).calls.get index).call.name]) ++ [.slot request, .materialization] := by
  have some_needs := executing.1
  change ScheduledRound.needs _ _ _ ≠ [] at some_needs
  show ScheduledRound.needs _ _ _ = _
  rw [ScheduledRound.needs] at some_needs ⊢
  split at some_needs
  · exact absurd rfl some_needs
  · rfl

/-- A call that runs holds a permit to do so. -/
theorem materialization_held {task : Task rounds discoveries} (executing : s.Executing task) :
    .materialization ∈ (schedulerPermits rounds discoveries).held task (s.stage task) := by
  rw [held_of_executing executing]
  cases task with
  | inl call =>
    obtain ⟨request, index⟩ := call
    rw [call_needs executing]
    simp
  | inr discovery => exact List.mem_singleton.2 rfl

/-- A handler that answers every call with `now`. -/
def clockBinding : GatewayBinding where
  execute _ _ call_id _ _ := .ok { call_id, output := "now" }
  answers_call _ _ _ _ _ _ answered := by
    cases answered
    rfl
  startedOutput _ := none
  publicOutput _ _ _ := none

/-- A call of the clock. -/
def clockPlan (item_index : Nat) (execution : Option GatewayBinding) : GatewayCallPlan where
  item_index
  call := { id := "fc", call_id := "call", name := "clock", «namespace» := none, arguments := "{}", status := .completed }
  execution
  events := { output_index := item_index, started_output := none, completed_output := none, arguments := none }

/-- Two calls of a handler that must not overlap with itself, and one without a handler, in each of two requests. -/
def clockRounds (_ : Fin 2) : ScheduledRound where
  calls := [clockPlan 0 (some clockBinding), clockPlan 1 (some clockBinding), clockPlan 2 none]
  round := 0
  parallel _ := false
  max_concurrent_calls := 2
  nonzero := Nat.two_pos
  budget := 1000

/-- A call of the clock. -/
def clockCall (request : Fin 2) (index : Fin 3) : Task clockRounds 1 := .inl ⟨request, index⟩

/-- A discovery of the clock. -/
def clockDiscovery : Task clockRounds 1 := .inr 0

/-- A call of either request is executed, and the discovery. -/
def clockMoves : List (Permits.Move (Task clockRounds 1)) :=
  [.acquire (clockCall 0 0), .acquire (clockCall 0 0), .acquire (clockCall 0 0), .acquire (clockCall 1 1),
    .acquire (clockCall 1 1), .acquire (clockCall 1 1), .finish (clockCall 0 2), .acquire clockDiscovery]

/-- The first request is ended. -/
def clockMore : List (Permits.Move (Task clockRounds 1)) :=
  [.finish (clockCall 0 0), .acquire (clockCall 0 1), .acquire (clockCall 0 1), .acquire (clockCall 0 1), .finish (clockCall 0 1)]

/-- A run in which two requests and a discovery go on together. -/
theorem clock_run : ∃ s, SchedulerRun clockMoves s ∧
    univ.filter s.Executing = {clockCall 0 0, clockCall 1 1, clockDiscovery} ∧
    ∃ s', SchedulerRun (clockMoves ++ clockMore) s' ∧ ∀ index, s'.stage (clockCall 0 index) = .ended := by
  have one : SchedulerRun [Permits.Move.acquire (clockCall 0 0)] _ :=
    .step .start (.acquire (clockCall 0 0) 0 (.exclusion 0 "clock") rfl rfl (by decide))
  have two := one.step (.acquire (clockCall 0 0) 1 (.slot 0) rfl rfl (by decide))
  have three := two.step (.acquire (clockCall 0 0) 2 .materialization rfl rfl (by decide))
  have four := three.step (.acquire (clockCall 1 1) 0 (.exclusion 1 "clock") rfl rfl (by decide))
  have five := four.step (.acquire (clockCall 1 1) 1 (.slot 1) rfl rfl (by decide))
  have six := five.step (.acquire (clockCall 1 1) 2 .materialization rfl rfl (by decide))
  have seven := six.step (.finish (clockCall 0 2) rfl)
  have begun := seven.step (.acquire clockDiscovery 0 .materialization rfl rfl (by decide))
  have nine := begun.step (.finish (clockCall 0 0) rfl)
  have ten := nine.step (.acquire (clockCall 0 1) 0 (.exclusion 0 "clock") rfl rfl (by decide))
  have eleven := ten.step (.acquire (clockCall 0 1) 1 (.slot 0) rfl rfl (by decide))
  have twelve := eleven.step (.acquire (clockCall 0 1) 2 .materialization rfl rfl (by decide))
  have ended := twelve.step (.finish (clockCall 0 1) rfl)
  refine ⟨_, begun, by decide, _, ended, fun index => ?_⟩
  revert index
  decide

/-- **The limits hold at every moment**, whatever the order of the steps and whichever requests are dropped: the process
runs at most sixteen calls and discoveries at once, a round no more of its calls than it is allowed, and a handler that must
not overlap with itself one call of its name. -/
theorem scheduler_limits (run : SchedulerRun moves s) :
    (univ.filter s.Executing).card ≤ maxConcurrentMaterializations ∧
    (∀ request, (univ.filter fun index => s.Executing (.inl ⟨request, index⟩)).card ≤ (rounds request).max_concurrent_calls) ∧
    ∀ request index index', s.Executing (.inl ⟨request, index⟩) → s.Executing (.inl ⟨request, index'⟩) →
      ((rounds request).calls.get index).call.name = ((rounds request).calls.get index').call.name →
      (rounds request).parallel ((rounds request).calls.get index).call.name = false → index = index' := by
  have sound := run.permits.sound
  refine ⟨?_, fun request => ?_, fun request index index' first second same exclusive => ?_⟩
  · have taken : (univ.filter s.Executing).card ≤ (schedulerPermits rounds discoveries).inUse s.stage .materialization :=
      Permits.card_le_inUse fun task mem => materialization_held (mem_filter.1 mem).2
    exact taken.trans (sound.bounded .materialization)
  · let callOf : Fin (rounds request).calls.length ↪ Task rounds discoveries :=
      ⟨fun index => .inl ⟨request, index⟩, fun _ _ same => by simpa using same⟩
    have taken : ((univ.filter fun index => s.Executing (.inl ⟨request, index⟩)).map callOf).card ≤
        (schedulerPermits rounds discoveries).inUse s.stage (.slot request) := by
      apply Permits.card_le_inUse
      intro task mem
      obtain ⟨index, chosen, rfl⟩ := mem_map.1 mem
      have executing := (mem_filter.1 chosen).2
      show _ ∈ (schedulerPermits rounds discoveries).held (.inl ⟨request, index⟩) (s.stage (.inl ⟨request, index⟩))
      rw [held_of_executing executing, call_needs executing]
      simp
    rw [card_map] at taken
    exact taken.trans (sound.bounded (.slot request))
  · by_contra apart
    have taken : ({.inl ⟨request, index⟩, .inl ⟨request, index'⟩} : Finset (Task rounds discoveries)).card ≤
        (schedulerPermits rounds discoveries).inUse s.stage (.exclusion request ((rounds request).calls.get index).call.name) := by
      apply Permits.card_le_inUse
      intro task mem
      rcases mem_insert.1 mem with rfl | mem
      · rw [held_of_executing first, call_needs first, exclusive]
        simp
      · cases mem_singleton.1 mem
        rw [held_of_executing second, call_needs second, ← same, exclusive]
        simp
    rw [card_pair (by simpa using apart)] at taken
    have bound : _ ≤ 1 := sound.bounded (.exclusion request ((rounds request).calls.get index).call.name)
    omega

/-- The limits of that run. -/
theorem clock_limits : ∃ s : SchedulerState clockRounds 1, SchedulerRun clockMoves s ∧
    univ.filter s.Executing = {clockCall 0 0, clockCall 1 1, clockDiscovery} ∧ (univ.filter s.Executing).card ≤ 16 ∧
    (univ.filter fun index => s.Executing (clockCall 0 index)).card ≤ 2 ∧
    (s.Executing (clockCall 0 0) → s.Executing (clockCall 0 1) → False) := by
  obtain ⟨s, run, executing, _⟩ := clock_run
  obtain ⟨process, slots, exclusive⟩ := scheduler_limits run
  refine ⟨s, run, executing, process, slots 0, fun first second => ?_⟩
  have same : (0 : Fin 3) = 1 := exclusive 0 (0 : Fin 3) (1 : Fin 3) first second rfl rfl
  exact absurd same (by decide)

/-- **The calls never block each other**: from wherever the process has got to, it can be run on until every call has
finished and no call has to be abandoned for it; and no run is longer than four steps for each call and discovery. -/
theorem scheduler_completes (run : SchedulerRun moves s) :
    moves.length ≤ 4 * Fintype.card (Task rounds discoveries) ∧
    ∃ more s', SchedulerRun (moves ++ more) s' ∧ (∀ task, s'.stage task = .ended) ∧ ∀ task, .abandon task ∉ more := by
  constructor
  · have short : ∑ task, (((schedulerPermits rounds discoveries).needs task).length + 1) ≤ ∑ _task : Task rounds discoveries, 4 := by
      apply sum_le_sum
      rintro (⟨request, index⟩ | discovery) _
      · show (ScheduledRound.needs _ _ _).length + 1 ≤ 4
        rw [ScheduledRound.needs]
        split
        · simp
        · split <;> simp
      · show [Permit.materialization].length + 1 ≤ 4
        simp
    have long := run.permits.length_le
    rw [sum_const_nat (fun _ _ => rfl), card_univ] at short
    omega
  · apply Permits.completes schedulerPermits_ordered (fun _ k _ => schedulerPermits_available k) (fun run => run.permits.sound) _ run
    exact fun run now => ⟨_, run.step now, after_stage⟩

/-- That run goes on to its end. -/
theorem clock_completes : ∃ more, ∃ s s' : SchedulerState clockRounds 1, SchedulerRun clockMoves s ∧
    univ.filter s.Executing = {clockCall 0 0, clockCall 1 1, clockDiscovery} ∧ SchedulerRun (clockMoves ++ more) s' ∧
    ∀ task, s'.stage task = .ended := by
  obtain ⟨s, run, executing, _⟩ := clock_run
  obtain ⟨_, more, s', longer, ended, _⟩ := scheduler_completes run
  exact ⟨more, s, s', run, executing, longer, ended⟩

/-- Settling a call is spending its bytes. -/
theorem settle_eq {round : ScheduledRound} {index : Fin round.calls.length} {remaining : Nat} : round.settle index remaining =
    Spending.settle responseBudgetExceeded remaining ((round.calls.get index).charge round.round) := by
  rw [ScheduledRound.settle, runOne_eq]
  cases Spending.settle responseBudgetExceeded remaining ((round.calls.get index).charge round.round) with
  | mk outcome rest => cases outcome <;> rfl

/-- The results are charged to the budgets, and are those of calls that have ended. -/
structure SchedulerState.Charged (s : SchedulerState rounds discoveries) : Prop where
  spent : ∀ request, Spending.Spent responseBudgetExceeded
    (fun index => ((rounds request).calls.get index).charge (rounds request).round) (rounds request).budget
    (s.budgets request) (s.results request)
  ended : ∀ request index, (s.results request index).isSome = true → s.stage (.inl ⟨request, index⟩) = .ended

/-- What has ended stays ended. -/
theorem ended_of_step {task : Task rounds discoveries} (step : (schedulerPermits rounds discoveries).Step s.stage move stage)
    (ended : s.stage task = .ended) : stage task = .ended := by
  cases step with
  | acquire i count k now =>
    rw [Function.update_of_ne, ended]
    rintro rfl
    rw [ended] at now
    cases now
  | finish i now =>
    by_cases same : task = i
    · rw [same, Function.update_self]
    · rw [Function.update_of_ne same, ended]
  | abandon i count now =>
    by_cases same : task = i
    · rw [same, Function.update_self]
    · rw [Function.update_of_ne same, ended]

/-- A step charges what its call answers. -/
theorem SchedulerState.Charged.step (h : s.Charged) (step : (schedulerPermits rounds discoveries).Step s.stage move stage) :
    (s.after move stage).Charged := by
  have unchanged (kept : s.after move stage = { s with stage }) : (s.after move stage).Charged := by
    rw [kept]
    exact ⟨h.spent, fun request index done => ended_of_step step (h.ended request index done)⟩
  cases move with
  | acquire task => exact unchanged rfl
  | abandon task => exact unchanged rfl
  | finish task =>
    cases task with
    | inr discovery => exact unchanged rfl
    | inl call =>
      obtain ⟨request, index⟩ := call
      have fresh : s.results request index = none := by
        by_contra done
        have ended := h.ended request index (Option.isSome_iff_ne_none.2 done)
        cases step with
        | finish i now =>
          rw [ended] at now
          cases now
      have here : stage (.inl ⟨request, index⟩) = .ended := by
        cases step with
        | finish i now => exact Function.update_self _ _ _
      refine ⟨fun other => ?_, fun other index' done => ?_⟩
      · by_cases same : other = request
        · subst same
          have next := (h.spent other).step fresh
          rw [← settle_eq] at next
          dsimp only [SchedulerState.after]
          rw [Function.update_self, Function.update_self]
          exact next
        · dsimp only [SchedulerState.after]
          rw [Function.update_of_ne same, Function.update_of_ne same]
          exact h.spent other
      · dsimp only [SchedulerState.after] at done ⊢
        by_cases same : other = request
        · subst same
          rw [Function.update_self] at done
          by_cases same' : index' = index
          · rw [same', here]
          · rw [Function.update_of_ne same'] at done
            exact ended_of_step step (h.ended other index' done)
        · rw [Function.update_of_ne same] at done
          exact ended_of_step step (h.ended other index' done)

/-- In every state the calls that have ended are charged. -/
theorem SchedulerRun.charged (run : SchedulerRun moves s) : s.Charged := by
  induction run with
  | start => exact ⟨fun _ => .initial, fun _ _ done => nomatch done⟩
  | step _ now ih => exact ih.step now

/-- What is done stays done. -/
theorem done_after (done : (s.results request index).isSome = true) : ((s.after move stage).results request index).isSome = true := by
  cases move with
  | acquire task => exact done
  | abandon task => exact done
  | finish task =>
    cases task with
    | inr discovery => exact done
    | inl call =>
      obtain ⟨other, index'⟩ := call
      dsimp only [SchedulerState.after]
      by_cases same : request = other
      · subst same
        rw [Function.update_self]
        by_cases same' : index = index'
        · rw [same', Function.update_self]
          rfl
        · rwa [Function.update_of_ne same']
      · rwa [Function.update_of_ne same]

/-- A call that has ended without being abandoned has a result. -/
theorem SchedulerRun.done (run : SchedulerRun moves s) (kept : .abandon (.inl ⟨request, index⟩) ∉ moves)
    (ended : s.stage (.inl ⟨request, index⟩) = .ended) : (s.results request index).isSome = true := by
  induction run with
  | start => cases ended
  | @step moves s move stage before now ih =>
    rw [after_stage] at ended
    have earlier := ih fun mem => kept (List.mem_append_left _ mem)
    cases now with
    | acquire task count k now next free =>
      apply done_after
      apply earlier
      rwa [Function.update_of_ne] at ended
      rintro rfl
      rw [Function.update_self] at ended
      cases ended
    | abandon task count now =>
      apply done_after
      apply earlier
      rwa [Function.update_of_ne] at ended
      rintro rfl
      exact kept (List.mem_append_right _ (List.mem_singleton.2 rfl))
    | finish task now =>
      by_cases same : task = .inl ⟨request, index⟩
      · subst same
        dsimp only [SchedulerState.after]
        rw [Function.update_self, Function.update_self]
        rfl
      · apply done_after
        apply earlier
        rwa [Function.update_of_ne (Ne.symm same)] at ended

/-- `join_all(..).into_iter().collect()`: the results in the order of the calls, or the first failure among them. -/
def SchedulerState.collected (s : SchedulerState rounds discoveries) (request : Fin requests) :
    Option (ExecutorResult (List GatewayCallResult)) :=
  ((List.finRange (rounds request).calls.length).mapM (s.results request)).map fun outcomes => outcomes.mapM id

/-- The results are there where each of them is. -/
theorem collect_iff {ι ε α : Type} {outcome : ι → Option (Except ε α)} {l : List ι} {results : List α} :
    (l.mapM outcome).map (fun outcomes => outcomes.mapM id) = some (.ok results) ↔
      List.Forall₂ (fun i a => outcome i = some (.ok a)) l results := by
  induction l generalizing results with
  | nil =>
    rw [List.mapM_nil, List.forall₂_nil_left_iff]
    show some (Except.ok []) = some (Except.ok results) ↔ _
    rw [Option.some.injEq, Except.ok.injEq, eq_comm]
  | cons i l ih =>
    rw [List.mapM_cons]
    constructor
    · intro h
      obtain ⟨outcomes, collected, all⟩ := Option.map_eq_some_iff.1 h
      obtain ⟨first, now, collected⟩ := Option.bind_eq_some_iff.1 collected
      obtain ⟨rest, later, collected⟩ := Option.bind_eq_some_iff.1 collected
      cases collected
      rw [List.mapM_cons] at all
      obtain ⟨a, good, all⟩ := bind_eq_ok.1 all
      obtain ⟨others, goods, all⟩ := bind_eq_ok.1 all
      rw [pure_eq_ok] at all
      subst all
      refine .cons (by rw [now]; exact congrArg some good) (ih.1 ?_)
      rw [later, Option.map_some, goods]
    · intro h
      cases h with
      | cons good goods =>
        rename_i a others
        obtain ⟨rest, later, all⟩ := Option.map_eq_some_iff.1 (ih.2 goods)
        have made : (Except.ok a :: rest).mapM id = .ok (a :: others) := by
          rw [List.mapM_cons, all]
          rfl
        rw [good, later]
        exact congrArg some made

/-- A related member. -/
theorem exists_of_forall₂ {ι α : Type} {R : ι → α → Prop} {l : List ι} {results : List α} (each : List.Forall₂ R l results) {i : ι}
    (mem : i ∈ l) : ∃ a, R i a := by
  induction each with
  | nil => cases mem
  | cons first _ ih =>
    rcases List.mem_cons.1 mem with rfl | mem
    · exact ⟨_, first⟩
    · exact ih mem

/-- The calls are those at their places. -/
theorem calls_eq_map (calls : List GatewayCallPlan) : (List.finRange calls.length).map calls.get = calls := by
  simp

/-- **The order does not matter**: a round whose calls have all finished has come to just what its calls come to one
after another, with the same left of the budget; it has failed where they fail. -/
theorem scheduler_refines (run : SchedulerRun moves s) (kept : ∀ index, .abandon (.inl ⟨request, index⟩) ∉ moves)
    (ended : ∀ index, s.stage (.inl ⟨request, index⟩) = .ended) {results : List GatewayCallResult} {remaining : Nat} :
    executeWithBudget (rounds request).calls (rounds request).round (rounds request).budget = .ok results remaining ↔
      s.collected request = some (.ok results) ∧ s.budgets request = remaining := by
  have spent := run.charged.spent request
  have done (index : Fin (rounds request).calls.length) : (s.results request index).isSome = true :=
    run.done (kept index) (ended index)
  have bytes : ∑ index : Fin (rounds request).calls.length,
      Spending.cost (((rounds request).calls.get index).charge (rounds request).round) =
      chargedBytes (rounds request).calls (rounds request).round := by
    rw [chargedBytes]
    exact Fin.sum_univ_fun_getElem _ fun plan : GatewayCallPlan => Spending.cost (plan.charge (rounds request).round)
  have charges : List.Forall₂ (fun plan result => ∃ bytes, GatewayCallPlan.charge plan (rounds request).round = .ok (bytes, result))
      (rounds request).calls results ↔ List.Forall₂ (fun index result =>
        ∃ bytes, ((rounds request).calls.get index).charge (rounds request).round = .ok (bytes, result))
          (List.finRange (rounds request).calls.length) results := by
    conv_lhs => rw [← calls_eq_map (rounds request).calls]
    exact List.forall₂_map_left_iff
  rw [executeWithBudget_iff, SchedulerState.collected, collect_iff, charges]
  constructor
  · rintro ⟨each, enough, rfl⟩
    have charged (index : Fin (rounds request).calls.length) :
        ∃ made, ((rounds request).calls.get index).charge (rounds request).round = .ok made := by
      obtain ⟨result, bytes, same⟩ := exists_of_forall₂ each (List.mem_finRange index)
      exact ⟨_, same⟩
    have good := (spent.all_ok_iff done).2 ⟨charged, by omega⟩
    refine ⟨each.imp fun index result known => ?_, ?_⟩
    · obtain ⟨bytes, known⟩ := known
      obtain ⟨a, same⟩ := good index
      obtain ⟨bytes', known'⟩ := spent.value same
      rw [known] at known'
      cases known'
      exact same
    · have rest := spent.remaining_eq good
      omega
  · rintro ⟨each, rfl⟩
    have good (index : Fin (rounds request).calls.length) : ∃ a, s.results request index = some (.ok a) :=
      exists_of_forall₂ each (List.mem_finRange index)
    obtain ⟨_, enough⟩ := (spent.all_ok_iff done).1 good
    have rest := spent.remaining_eq good
    refine ⟨each.imp fun index result known => spent.value known, ?_, ?_⟩ <;> omega

/-- The results of that run are those of the calls one after the other. -/
theorem clock_refines : ∃ s : SchedulerState clockRounds 1, SchedulerRun (clockMoves ++ clockMore) s ∧ ∀ results remaining,
    executeWithBudget (clockRounds 0).calls 0 1000 = .ok results remaining ↔
      s.collected 0 = some (.ok results) ∧ s.budgets 0 = remaining := by
  obtain ⟨_, _, _, s, run, ended⟩ := clock_run
  have kept (index : Fin 3) : .abandon (clockCall 0 index) ∉ clockMoves ++ clockMore := by
    revert index
    decide
  exact ⟨s, run, fun results remaining => scheduler_refines run kept ended⟩

end

end AgenticStack
