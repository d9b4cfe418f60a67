import AgenticStack.Library.AssocList

/-!
# Names that are given out

A table says who holds each name. Candidates are tried in their order, and the
first that nobody else holds is taken. Two names that were given to different
owners are different.
-/

namespace AgenticStack.Library
set_option autoImplicit false

section
variable {N O A : Type}

/-- The items with their names, each named by `step`. -/
def nameAll (step : List (N × O) → A → Option (N × List (N × O))) : List (N × O) → List A → Option (List (A × N) × List (N × O))
  | used, [] => some ([], used)
  | used, item :: items => do
    let (name, used) ← step used item
    let (named, used) ← nameAll step used items
    return ((item, name) :: named, used)

variable {step : List (N × O) → A → Option (N × List (N × O))} {used used' : List (N × O)} {items : List A}
  {named : List (A × N)}

/-- A list is named by its first item and then the rest. -/
theorem nameAll_cons {item : A} : nameAll step used (item :: items) = some (named, used') ↔
    ∃ name used₁ rest, step used item = some (name, used₁) ∧ nameAll step used₁ items = some (rest, used') ∧
      named = (item, name) :: rest := by
  rw [nameAll]
  constructor
  · intro h
    simp only [Option.bind_eq_bind, Option.bind_eq_some_iff] at h
    obtain ⟨⟨name, used₁⟩, first, ⟨rest, used₂⟩, later, h⟩ := h
    cases h
    exact ⟨name, used₁, rest, first, later, rfl⟩
  · rintro ⟨name, used₁, rest, first, later, rfl⟩
    rw [first]
    show (nameAll step used₁ items >>= fun p => some ((item, name) :: p.1, p.2)) = _
    rw [later]
    rfl

/-- Whatever each step guarantees of an item and its name. -/
theorem nameAll_all {good : A → N → Prop} (steps : ∀ used item name used', step used item = some (name, used') → good item name)
    (h : nameAll step used items = some (named, used')) : named.map Prod.fst = items ∧ ∀ entry ∈ named, good entry.1 entry.2 := by
  induction items generalizing used named with
  | nil =>
    cases h
    exact ⟨rfl, fun _ no => (nomatch no)⟩
  | cons item items ih =>
    obtain ⟨name, used₁, rest, first, later, rfl⟩ := nameAll_cons.1 h
    obtain ⟨same, all⟩ := ih later
    refine ⟨congrArg (item :: ·) same, ?_⟩
    intro entry mem
    rcases List.mem_cons.1 mem with rfl | mem
    · exact steps used item name used₁ first
    · exact all entry mem

end

section
variable {N O A : Type} [BEq N]

/-- What was held is held by the same owner. -/
def Holds (used used' : List (N × O)) : Prop := ∀ name owner, used.lookup name = some owner → used'.lookup name = some owner

/-- Nothing was named. -/
theorem Holds.refl {used : List (N × O)} : Holds used used := fun _ _ held => held

/-- Names stay held. -/
theorem Holds.trans {used used' used'' : List (N × O)} (first : Holds used used') (second : Holds used' used'') :
    Holds used used'' := fun name owner held => second name owner (first name owner held)

/-- Nobody else holds the name. -/
def isFree [DecidableEq O] (used : List (N × O)) (owner : O) (name : N) : Bool := (used.lookup name).all (· = owner)

/-- The first free candidate from `attempt` on, of at most `fuel`. -/
def firstFree [DecidableEq O] (used : List (N × O)) (owner : O) (candidate : Nat → N) : Nat → Nat → Option N
  | 0, _ => none
  | fuel + 1, attempt =>
    if isFree used owner (candidate attempt) then some (candidate attempt)
    else firstFree used owner candidate fuel (attempt + 1)

/-- The name that is given is free or already the owner's. -/
theorem firstFree_eq_some [DecidableEq O] {used : List (N × O)} {owner : O} {candidate : Nat → N} {name : N}
    {fuel attempt : Nat} (h : firstFree used owner candidate fuel attempt = some name) :
    isFree used owner name = true ∧ ∃ i, name = candidate i := by
  induction fuel generalizing attempt with
  | zero => cases h
  | succ fuel ih =>
    rw [firstFree] at h
    split at h
    · rename_i free
      cases h
      exact ⟨free, attempt, rfl⟩
    · exact ih h

/-- Taking a free name takes no other owner's. -/
theorem holds_insert [LawfulBEq N] [DecidableEq N] [DecidableEq O] {used : List (N × O)} {owner : O} {name : N}
    (free : isFree used owner name = true) : Holds used (insertEntry used name owner) := by
  intro taken other held
  by_cases same : taken = name
  · subst same
    rw [isFree, held, Option.all_some, decide_eq_true_eq] at free
    rw [lookup_insertEntry_self, free]
  · rw [lookup_insertEntry_ne same, held]

/-- A step gives its item a name that the item's owner holds from then on. -/
def Gives (step : List (N × O) → A → Option (N × List (N × O))) (owner : A → O) : Prop :=
  ∀ used item name used', step used item = some (name, used') → used'.lookup name = some (owner item) ∧ Holds used used'

variable {step : List (N × O) → A → Option (N × List (N × O))} {owner : A → O} {used used' : List (N × O)} {items : List A}
  {named : List (A × N)}

/-- Every item is given the name it holds. -/
theorem nameAll_held (gives : Gives step owner) (h : nameAll step used items = some (named, used')) :
    Holds used used' ∧ ∀ entry ∈ named, used'.lookup entry.2 = some (owner entry.1) := by
  induction items generalizing used named with
  | nil =>
    cases h
    exact ⟨.refl, fun _ no => (nomatch no)⟩
  | cons item items ih =>
    obtain ⟨name, used₁, rest, first, later, rfl⟩ := nameAll_cons.1 h
    obtain ⟨held, kept⟩ := gives used item name used₁ first
    obtain ⟨kept', given⟩ := ih later
    refine ⟨kept.trans kept', ?_⟩
    intro entry mem
    rcases List.mem_cons.1 mem with rfl | mem
    · exact kept' _ _ held
    · exact given entry mem

/-- **Names tell the owners apart.** -/
theorem nameAll_apart (gives : Gives step owner) (h : nameAll step used items = some (named, used'))
    {first second : A × N} (mem : first ∈ named) (mem' : second ∈ named) (same : first.2 = second.2) :
    owner first.1 = owner second.1 := by
  obtain ⟨_, given⟩ := nameAll_held gives h
  have here := given first mem
  rw [same, given second mem', Option.some.injEq] at here
  exact here.symm

end

end AgenticStack.Library
