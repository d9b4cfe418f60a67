import Mathlib.Algebra.BigOperators.Group.Finset.Basic
import Mathlib.Algebra.Order.BigOperators.Group.Finset
import Mathlib.Data.Fintype.Basic
import Mathlib.Data.Finset.Max

/-!
# Permits

Tasks run side by side. Each takes the permits it needs one after another, in an
order of its own, and holds them until it has finished or is abandoned. There
are only so many permits of a kind. No kind is ever taken more often than that,
and where all tasks take the kinds in one order, some task can always go on.
-/

namespace AgenticStack.Library
set_option autoImplicit false
open Finset

/-- What each task needs, in the order in which it takes it, and how much there is of each kind. -/
structure Permits (ι κ : Type) where
  needs : ι → List κ
  capacity : κ → Nat

namespace Permits

/-- A task holds the first of what it needs, or has ended and holds nothing. -/
inductive Stage where
  | holding (count : Nat)
  | ended
deriving DecidableEq

/-- A task takes its next permit, ends with all of them, or gives up. -/
inductive Move (ι : Type) where
  | acquire (i : ι)
  | finish (i : ι)
  | abandon (i : ι)
deriving DecidableEq

/-- One term of a sum changes. -/
theorem sum_update {ι σ : Type} [Fintype ι] [DecidableEq ι] (f : ι → σ → Nat) (s : ι → σ) (i : ι) (now : σ) :
    ∑ j, f j (Function.update s i now j) + f i (s i) = ∑ j, f j (s j) + f i now := by
  have others : ∑ j ∈ univ.erase i, f j (Function.update s i now j) = ∑ j ∈ univ.erase i, f j (s j) := by
    apply sum_congr rfl
    intro j mem
    rw [Function.update_of_ne (ne_of_mem_erase mem)]
  have after := add_sum_erase univ (fun j => f j (Function.update s i now j)) (mem_univ i)
  have before := add_sum_erase univ (fun j => f j (s j)) (mem_univ i)
  rw [Function.update_self] at after
  omega

section
variable {ι κ : Type}

/-- The permits a task holds. -/
def held (p : Permits ι κ) (i : ι) : Stage → List κ
  | .holding count => (p.needs i).take count
  | .ended => []

/-- The next permit is added to those it holds. -/
theorem held_succ {p : Permits ι κ} {i : ι} {k : κ} {count : Nat} (next : (p.needs i)[count]? = some k) :
    p.held i (.holding (count + 1)) = p.held i (.holding count) ++ [k] := by
  rw [held, held, List.take_add_one, next]
  rfl

variable [Fintype ι] [DecidableEq κ]

/-- How many permits of a kind are taken. -/
def inUse (p : Permits ι κ) (stage : ι → Stage) (k : κ) : Nat := ∑ i, (p.held i (stage i)).count k

/-- No task holds more than it needs, and no kind is taken more often than there is of it. -/
structure Sound (p : Permits ι κ) (stage : ι → Stage) : Prop where
  within : ∀ i count, stage i = .holding count → count ≤ (p.needs i).length
  bounded : ∀ k, p.inUse stage k ≤ p.capacity k

variable {p : Permits ι κ} {stage : ι → Stage} {k : κ}

/-- Nothing is held at the start. -/
theorem Sound.start : p.Sound fun _ => .holding 0 where
  within i count now := by
    cases now
    exact Nat.zero_le _
  bounded k := by
    have none : p.inUse (fun _ => .holding 0) k = 0 := by simp [inUse, held]
    omega

/-- Tasks that hold a kind take part in its use. -/
theorem card_le_inUse {holders : Finset ι} (holding : ∀ i ∈ holders, k ∈ p.held i (stage i)) : holders.card ≤ p.inUse stage k := by
  calc holders.card = ∑ _i ∈ holders, 1 := card_eq_sum_ones holders
    _ ≤ ∑ i ∈ holders, (p.held i (stage i)).count k := sum_le_sum fun i mem => List.count_pos_iff.2 (holding i mem)
    _ ≤ p.inUse stage k := sum_le_sum_of_subset (subset_univ holders)

/-- A permit in use has a holder. -/
theorem exists_holder (taken : 0 < p.inUse stage k) : ∃ i, k ∈ p.held i (stage i) := by
  by_contra nobody
  have none : p.inUse stage k = 0 := by
    apply sum_eq_zero
    intro i _
    apply List.count_eq_zero.2
    intro mem
    exact nobody ⟨i, mem⟩
  omega

end

section
variable {ι κ : Type} [Fintype ι] [DecidableEq ι] [DecidableEq κ]

/-- A permit is taken where one is left; a task ends with every permit it needs, and may give up before. -/
inductive Step (p : Permits ι κ) (stage : ι → Stage) : Move ι → (ι → Stage) → Prop where
  | acquire (i : ι) (count : Nat) (k : κ) (now : stage i = .holding count) (next : (p.needs i)[count]? = some k)
      (free : p.inUse stage k < p.capacity k) : Step p stage (.acquire i) (Function.update stage i (.holding (count + 1)))
  | finish (i : ι) (now : stage i = .holding (p.needs i).length) : Step p stage (.finish i) (Function.update stage i .ended)
  | abandon (i : ι) (count : Nat) (now : stage i = .holding count) : Step p stage (.abandon i) (Function.update stage i .ended)

/-- All tasks start with nothing. -/
inductive Run (p : Permits ι κ) : List (Move ι) → (ι → Stage) → Prop where
  | start : Run p [] fun _ => .holding 0
  | step {moves : List (Move ι)} {stage stage' : ι → Stage} {move : Move ι} (before : Run p moves stage)
      (now : p.Step stage move stage') : Run p (moves ++ [move]) stage'

variable {p : Permits ι κ} {stage stage' : ι → Stage} {move : Move ι} {moves : List (Move ι)} {i : ι} {k : κ}

/-- A task that ends gives back what it held. -/
theorem Sound.ended (h : p.Sound stage) : p.Sound (Function.update stage i .ended) where
  within j count now := by
    by_cases same : j = i
    · subst same
      rw [Function.update_self] at now
      cases now
    · rw [Function.update_of_ne same] at now
      exact h.within j count now
  bounded k := by
    have moved := sum_update (fun j now => (p.held j now).count k) stage i .ended
    have before := h.bounded k
    rw [inUse] at before ⊢
    rw [held, List.count_nil] at moved
    omega

/-- What one step preserves. -/
theorem Sound.step (h : p.Sound stage) (step : p.Step stage move stage') : p.Sound stage' := by
  cases step with
  | acquire i count k now next free =>
    refine ⟨fun j other there => ?_, fun k' => ?_⟩
    · by_cases same : j = i
      · subst same
        rw [Function.update_self] at there
        cases there
        obtain ⟨inside, _⟩ := List.getElem?_eq_some_iff.1 next
        omega
      · rw [Function.update_of_ne same] at there
        exact h.within j other there
    · have moved := sum_update (fun j now => (p.held j now).count k') stage i (.holding (count + 1))
      have before := h.bounded k'
      rw [now, held_succ next, List.count_append] at moved
      rw [inUse] at before free ⊢
      by_cases same : k' = k
      · subst same
        rw [List.count_singleton_self] at moved
        omega
      · rw [List.count_singleton, if_neg (by simpa using Ne.symm same)] at moved
        omega
  | finish i now => exact h.ended
  | abandon i count now => exact h.ended

/-- Every run keeps the permits sound. -/
theorem Run.sound (run : p.Run moves stage) : p.Sound stage := by
  induction run with
  | start => exact .start
  | step _ now ih => exact ih.step now

/-- The rank of what a task takes next. -/
def nextRank (p : Permits ι κ) (rank : κ → Nat) (stage : ι → Stage) (i : ι) : Nat :=
  match stage i with
  | .holding count => ((p.needs i)[count]?.map rank).getD 0
  | .ended => 0

/-- All tasks take the kinds in the order of their ranks. -/
def Ordered (p : Permits ι κ) (rank : κ → Nat) : Prop := ∀ i, (p.needs i).Pairwise fun a b => rank a < rank b

/-- **No deadlock**: while some task has not ended, some task can take its next permit, or finish. The task that is
looked for is one that waits for a kind of the highest rank: who holds it is past waiting for any lower one. -/
theorem progress {rank : κ → Nat} (ordered : p.Ordered rank) (available : ∀ i, ∀ k ∈ p.needs i, 0 < p.capacity k)
    (sound : p.Sound stage) (pending : stage i ≠ .ended) :
    ∃ j stage', p.Step stage (.acquire j) stage' ∨ p.Step stage (.finish j) stage' := by
  by_contra stuck
  -- every task that has not ended waits for a kind that is used up
  have waits (j : ι) (open_ : stage j ≠ .ended) : ∃ count k, stage j = .holding count ∧ (p.needs j)[count]? = some k ∧
      0 < p.inUse stage k := by
    cases now : stage j with
    | ended => exact absurd now open_
    | holding count =>
      have within := sound.within j count now
      cases next : (p.needs j)[count]? with
      | none =>
        rw [List.getElem?_eq_none_iff] at next
        have all : count = (p.needs j).length := by omega
        subst all
        exact absurd ⟨j, _, .inr (.finish j now)⟩ stuck
      | some k =>
        refine ⟨count, k, rfl, next, ?_⟩
        by_contra unused
        have free : p.inUse stage k < p.capacity k := by
          have some_left := available j k (List.mem_of_getElem? next)
          omega
        exact stuck ⟨j, _, .inl (.acquire j count k now next free)⟩
  have nonempty : (univ.filter fun j => stage j ≠ .ended).Nonempty := ⟨i, mem_filter.2 ⟨mem_univ i, pending⟩⟩
  obtain ⟨top, mem, highest⟩ := exists_max_image _ (p.nextRank rank stage) nonempty
  obtain ⟨count, k, now, next, taken⟩ := waits top (mem_filter.1 mem).2
  obtain ⟨holder, holds⟩ := exists_holder taken
  have running : stage holder ≠ .ended := by
    intro settled
    rw [settled] at holds
    cases holds
  obtain ⟨count', k', now', next', _⟩ := waits holder running
  have below := highest holder (mem_filter.2 ⟨mem_univ holder, running⟩)
  rw [nextRank, nextRank, now, now'] at below
  dsimp only at below
  rw [next, next', Option.map_some, Option.map_some, Option.getD_some, Option.getD_some] at below
  rw [now', held] at holds
  have above : rank k < rank k' := by
    obtain ⟨position, inside, same⟩ := List.mem_take_iff_getElem.1 holds
    obtain ⟨inside', same'⟩ := List.getElem?_eq_some_iff.1 next'
    have apart := List.pairwise_iff_getElem.1 (ordered holder) position count' (by omega) inside' (by omega)
    rwa [same, same'] at apart
  omega

/-- The moves a task can still make. -/
def movesLeft (p : Permits ι κ) (i : ι) : Stage → Nat
  | .holding count => (p.needs i).length - count + 1
  | .ended => 0

/-- So many moves are left to all tasks. -/
def left (p : Permits ι κ) (stage : ι → Stage) : Nat := ∑ i, p.movesLeft i (stage i)

/-- Every step uses up a move. -/
theorem left_step (step : p.Step stage move stage') : p.left stage' < p.left stage := by
  cases step with
  | acquire i count k now next free =>
    have moved := sum_update p.movesLeft stage i (.holding (count + 1))
    obtain ⟨inside, _⟩ := List.getElem?_eq_some_iff.1 next
    rw [now, movesLeft, movesLeft] at moved
    rw [left, left]
    omega
  | finish i now =>
    have moved := sum_update p.movesLeft stage i .ended
    rw [now, movesLeft, movesLeft] at moved
    rw [left, left]
    omega
  | abandon i count now =>
    have moved := sum_update p.movesLeft stage i .ended
    rw [now, movesLeft, movesLeft] at moved
    rw [left, left]
    omega

/-- A run has so many moves at most. -/
theorem Run.length_le (run : p.Run moves stage) : moves.length + p.left stage ≤ ∑ i, ((p.needs i).length + 1) := by
  induction run with
  | start =>
    rw [List.length_nil, Nat.zero_add, left]
    rfl
  | step _ now ih =>
    have less := left_step now
    rw [List.length_append, List.length_singleton]
    omega

/-- A system whose tasks take permits can always be run on until all of them have ended, and none has to be abandoned
for it. -/
theorem completes {σ : Type} {reached : List (Move ι) → σ → Prop} {stageOf : σ → ι → Stage} {rank : κ → Nat} {s : σ}
    (ordered : p.Ordered rank) (available : ∀ i, ∀ k ∈ p.needs i, 0 < p.capacity k)
    (sound : ∀ {moves s}, reached moves s → p.Sound (stageOf s))
    (extends_ : ∀ {moves s move stage}, reached moves s → p.Step (stageOf s) move stage →
      ∃ s', reached (moves ++ [move]) s' ∧ stageOf s' = stage) (now : reached moves s) :
    ∃ more s', reached (moves ++ more) s' ∧ (∀ i, stageOf s' i = .ended) ∧ ∀ i, .abandon i ∉ more := by
  induction measure : p.left (stageOf s) using Nat.strong_induction_on generalizing moves s with
  | _ n ih =>
    by_cases settled : ∀ i, stageOf s i = .ended
    · exact ⟨[], s, (List.append_nil moves).symm ▸ now, settled, fun _ mem => (nomatch mem)⟩
    · obtain ⟨i, pending⟩ := not_forall.1 settled
      obtain ⟨j, stage₁, goes_on⟩ := progress ordered available (sound now) pending
      obtain ⟨move, step, kept⟩ : ∃ move, p.Step (stageOf s) move stage₁ ∧ ∀ i, .abandon i ≠ move := by
        rcases goes_on with step | step
        · exact ⟨_, step, fun _ => nofun⟩
        · exact ⟨_, step, fun _ => nofun⟩
      obtain ⟨s₁, next, same⟩ := extends_ now step
      obtain ⟨more, s', all, ended, none⟩ := ih _ (measure ▸ same ▸ left_step step) next rfl
      refine ⟨move :: more, s', ?_, ended, fun i mem => ?_⟩
      · rwa [List.append_assoc, List.singleton_append] at all
      · rcases List.mem_cons.1 mem with same | mem
        · exact kept i same
        · exact none i mem

end

end Permits
end AgenticStack.Library
