import AgenticStack.Tool.SearchState
import AgenticStack.Tool.Flattening

/-!
# Functions, and the records of their definitions

A function is known by its own name, or by its namespace and its name there. The
records of the definitions are what the public tools and the definitions loaded
so far make of them.
-/

namespace AgenticStack.Tools
set_option autoImplicit false
open Library

/-- A function of the request by name, or by namespace and name. -/
inductive FunctionId where
  | function (name : Text)
  | member («namespace» name : Text)
deriving DecidableEq

/-- The name under which the model knows the function. -/
def FunctionId.visibleName : FunctionId → Text
  | .function name => name
  | .member «namespace» name => modelVisibleNamespaceMemberName «namespace» name

/-- The names of the function members. -/
def functionNames (members : List CodexNamespaceMember) : List Text := members.filterMap CodexNamespaceMember.functionName

def memberFunction («namespace» : Text) : CodexNamespaceMember → Option (FunctionId × FunctionToolParam)
  | .function param => some (.member «namespace» param.name.text, param)
  | .unknown => none

/-- The functions a tool defines. -/
def ResponsesTool.functions : ResponsesTool → List (FunctionId × FunctionToolParam)
  | .function param => [(.function param.name.text, param)]
  | .namespace param => param.tools.filterMap (memberFunction param.name)
  | _ => []

def functionsOf (tools : List ResponsesTool) : List (FunctionId × FunctionToolParam) := tools.flatMap ResponsesTool.functions

def ResponsesTool.defines (tool : ResponsesTool) (id : FunctionId) : Bool := tool.functions.any fun entry => entry.1 = id

/-- Whether one of the definitions is of the function. -/
def isLoaded (loaded : List ResponsesTool) (id : FunctionId) : Bool := loaded.any fun tool => tool.defines id

def memberAvailable (loaded : List ResponsesTool) («namespace» : Text) (param : FunctionToolParam) : Bool :=
  isLoaded loaded (.member «namespace» param.name.text) || param.defer_loading ≠ some true

/-- The records of a namespace's members, the first of which stands at `i`. -/
def memberRecordsFrom (loaded : List ResponsesTool) («namespace» : Text) : Nat → List CodexNamespaceMember →
    List NamespaceMemberRecord
  | _, [] => []
  | i, .unknown :: members => memberRecordsFrom loaded «namespace» (i + 1) members
  | i, .function param :: members =>
    ⟨param.name.text, canonicalNamespaceMember param, i, memberAvailable loaded «namespace» param⟩ ::
      memberRecordsFrom loaded «namespace» (i + 1) members

/-- Whether a record is still withheld. -/
def isUnloaded (record : NamespaceMemberRecord) : Bool := !record.loaded

def NamespaceMemberRecords.of (ordered : List NamespaceMemberRecord) : NamespaceMemberRecords :=
  ⟨ordered, ordered.countP isUnloaded⟩

def recordOf (loaded : List ResponsesTool) (public_index : Nat) : ResponsesTool → Option DefinitionRecord
  | .function param => some
    { identity := .function param.name.text
      canonical := (ResponsesTool.function param).canonicalDefinition
      public_index
      loaded := isLoaded loaded (.function param.name.text)
      namespace_members := none }
  | .namespace param =>
    let members := NamespaceMemberRecords.of (memberRecordsFrom loaded param.name 0 param.tools)
    some
      { identity := .namespace param.name
        canonical := (ResponsesTool.namespace param).canonicalDefinition
        public_index
        loaded := members.unloaded_count = 0
        namespace_members := some members }
  | _ => none

/-- The records of the public tools, the first of which stands at `i`. -/
def recordsFrom (loaded : List ResponsesTool) : Nat → List ResponsesTool → List DefinitionRecord
  | _, [] => []
  | i, tool :: tools => (recordOf loaded i tool).toList ++ recordsFrom loaded (i + 1) tools

section
variable {loaded loaded' : List ResponsesTool} {«namespace» : Text} {i : Nat} {members : List CodexNamespaceMember}

theorem memberRecordsFrom_names :
    (memberRecordsFrom loaded «namespace» i members).map NamespaceMemberRecord.name = functionNames members := by
  induction members generalizing i with
  | nil => rfl
  | cons member members ih =>
    cases member with
    | unknown => exact ih
    | function param =>
      rw [memberRecordsFrom, List.map_cons, ih]
      rfl

theorem mem_memberRecordsFrom {record : NamespaceMemberRecord} :
    record ∈ memberRecordsFrom loaded «namespace» i members ↔ ∃ j param, members[j]? = some (.function param) ∧
      record = ⟨param.name.text, canonicalNamespaceMember param, i + j, memberAvailable loaded «namespace» param⟩ := by
  induction members generalizing i with
  | nil => simp [memberRecordsFrom]
  | cons member members ih =>
    have later (j : Nat) : i + 1 + j = i + (j + 1) := by omega
    cases member with
    | unknown =>
      rw [memberRecordsFrom, ih]
      constructor
      · rintro ⟨j, param, here, rfl⟩
        exact ⟨j + 1, param, by simpa using here, by rw [later]⟩
      · rintro ⟨j, param, here, rfl⟩
        cases j with
        | zero => simp at here
        | succ j => exact ⟨j, param, by simpa using here, by rw [later]⟩
    | function first =>
      rw [memberRecordsFrom, List.mem_cons, ih]
      constructor
      · rintro (rfl | ⟨j, param, here, rfl⟩)
        · exact ⟨0, first, rfl, rfl⟩
        · exact ⟨j + 1, param, by simpa using here, by rw [later]⟩
      · rintro ⟨j, param, here, rfl⟩
        cases j with
        | zero =>
          have same : first = param := by simpa using here
          exact .inl (by rw [same]; rfl)
        | succ j => exact .inr ⟨j, param, by simpa using here, by rw [later]⟩

theorem memberRecordsFrom_append {later : List CodexNamespaceMember} :
    memberRecordsFrom loaded «namespace» i (members ++ later) =
      memberRecordsFrom loaded «namespace» i members ++ memberRecordsFrom loaded «namespace» (i + members.length) later := by
  induction members generalizing i with
  | nil => rfl
  | cons member members ih =>
    have next : i + 1 + members.length = i + (member :: members).length := by rw [List.length_cons]; omega
    cases member with
    | unknown => rw [List.cons_append, memberRecordsFrom, ih, next]; rfl
    | function param => rw [List.cons_append, memberRecordsFrom, ih, next]; rfl

/-- The records change with what is loaded of the members. -/
theorem memberRecordsFrom_map {update : NamespaceMemberRecord → NamespaceMemberRecord}
    (updated : ∀ j param, .function param ∈ members →
      update ⟨param.name.text, canonicalNamespaceMember param, j, memberAvailable loaded «namespace» param⟩ =
        ⟨param.name.text, canonicalNamespaceMember param, j, memberAvailable loaded' «namespace» param⟩) :
    memberRecordsFrom loaded' «namespace» i members = (memberRecordsFrom loaded «namespace» i members).map update := by
  induction members generalizing i with
  | nil => rfl
  | cons member members ih =>
    have rest := @ih (i + 1) fun j param here => updated j param (List.mem_cons_of_mem _ here)
    cases member with
    | unknown => exact rest
    | function param =>
      rw [memberRecordsFrom, memberRecordsFrom, List.map_cons, updated i param List.mem_cons_self, rest]

theorem memberRecordsFrom_congr
    (same : ∀ param, .function param ∈ members →
      memberAvailable loaded' «namespace» param = memberAvailable loaded «namespace» param) :
    memberRecordsFrom loaded' «namespace» i members = memberRecordsFrom loaded «namespace» i members := by
  have mapped : memberRecordsFrom loaded' «namespace» i members = (memberRecordsFrom loaded «namespace» i members).map id :=
    memberRecordsFrom_map fun j param here => by rw [id, same param here]
  rw [mapped, List.map_id]

theorem mem_functionNames {name : Text} : name ∈ functionNames members ↔ ∃ param, .function param ∈ members ∧ param.name.text = name := by
  rw [functionNames, List.mem_filterMap]
  constructor
  · rintro ⟨member, here, named⟩
    cases member with
    | unknown => cases named
    | function param => exact ⟨param, here, Option.some.inj named⟩
  · rintro ⟨param, here, rfl⟩
    exact ⟨_, here, rfl⟩

/-- A name that no member repeats is that of one member. -/
theorem member_unique (once : (functionNames members).Nodup) {param other : FunctionToolParam} (here : .function param ∈ members)
    (there : .function other ∈ members) (same : param.name.text = other.name.text) : param = other := by
  induction members with
  | nil => cases here
  | cons member members ih =>
    cases member with
    | unknown =>
      simp only [List.mem_cons, reduceCtorEq, false_or] at here there
      exact ih once here there
    | function first =>
      have fresh : first.name.text ∉ functionNames members := (List.nodup_cons.1 once).1
      simp only [List.mem_cons, CodexNamespaceMember.function.injEq] at here there
      rcases here with rfl | here <;> rcases there with rfl | there
      · rfl
      · exact absurd (mem_functionNames.2 ⟨_, there, same.symm⟩) fresh
      · exact absurd (mem_functionNames.2 ⟨_, here, same⟩) fresh
      · exact ih (List.nodup_cons.1 once).2 here there

end

def FunctionId.identity : FunctionId → LoadedToolIdentity
  | .function name => .function name
  | .member «namespace» _ => .namespace «namespace»

/-- The names of the tools that have an identity. -/
def toolNames (tools : List ResponsesTool) : List Text :=
  tools.filterMap fun tool => tool.identity.map LoadedToolIdentity.name

theorem mem_namespace_functions {param : CodexNamespaceToolParam} {id : FunctionId} {p : FunctionToolParam} :
    (id, p) ∈ (ResponsesTool.namespace param).functions ↔ .function p ∈ param.tools ∧ id = .member param.name p.name.text := by
  rw [ResponsesTool.functions, List.mem_filterMap]
  constructor
  · rintro ⟨member, here, found⟩
    cases member with
    | unknown => cases found
    | function param =>
      rw [memberFunction, Option.some.injEq, Prod.mk.injEq] at found
      obtain ⟨rfl, rfl⟩ := found
      exact ⟨here, rfl⟩
  · rintro ⟨here, rfl⟩
    exact ⟨_, here, rfl⟩

theorem mem_function_functions {param p : FunctionToolParam} {id : FunctionId} :
    (id, p) ∈ (ResponsesTool.function param).functions ↔ p = param ∧ id = .function param.name.text := by
  rw [ResponsesTool.functions, List.mem_singleton, Prod.mk.injEq, and_comm]

theorem defines_iff {tool : ResponsesTool} {id : FunctionId} : tool.defines id = true ↔ ∃ p, (id, p) ∈ tool.functions := by
  rw [ResponsesTool.defines, List.any_eq_true]
  constructor
  · rintro ⟨⟨other, p⟩, here, same⟩
    have same : other = id := of_decide_eq_true same
    exact ⟨p, same ▸ here⟩
  · rintro ⟨p, here⟩
    exact ⟨_, here, decide_eq_true rfl⟩

theorem identity_of_defines {tool : ResponsesTool} {id : FunctionId} (h : tool.defines id = true) :
    tool.identity = some id.identity := by
  obtain ⟨p, here⟩ := defines_iff.1 h
  cases tool with
  | function param =>
    obtain ⟨rfl, rfl⟩ := mem_function_functions.1 here
    rfl
  | «namespace» param =>
    obtain ⟨_, rfl⟩ := mem_namespace_functions.1 here
    rfl
  | _ => cases here

section
variable {loaded loaded' : List ResponsesTool} {i j : Nat} {tools : List ResponsesTool} {tool : ResponsesTool}
  {record record' : DefinitionRecord}

theorem isLoaded_append {later : List ResponsesTool} {id : FunctionId} :
    isLoaded (loaded ++ later) id = (isLoaded loaded id || isLoaded later id) := by
  rw [isLoaded, List.any_append]
  rfl

theorem isLoaded_concat {id : FunctionId} : isLoaded (loaded ++ [tool]) id = (isLoaded loaded id || tool.defines id) := by
  rw [isLoaded_append, isLoaded, isLoaded, List.any_cons, List.any_nil, Bool.or_false]

theorem recordOf_eq_some (h : recordOf loaded i tool = some record) :
    tool.identity = some record.identity ∧ record.canonical = tool.canonicalDefinition ∧ record.public_index = i := by
  cases tool with
  | function param => cases h; exact ⟨rfl, rfl, rfl⟩
  | «namespace» param => cases h; exact ⟨rfl, rfl, rfl⟩
  | _ => cases h

theorem recordOf_congr (same : ∀ id p, (id, p) ∈ tool.functions → isLoaded loaded' id = isLoaded loaded id) :
    recordOf loaded' i tool = recordOf loaded i tool := by
  cases tool with
  | function param => rw [recordOf, recordOf, same _ param (List.mem_singleton.2 rfl)]
  | «namespace» param =>
    have members : memberRecordsFrom loaded' param.name 0 param.tools = memberRecordsFrom loaded param.name 0 param.tools := by
      refine memberRecordsFrom_congr fun p here => ?_
      rw [memberAvailable, memberAvailable, same _ p (mem_namespace_functions.2 ⟨here, rfl⟩)]
    rw [recordOf, recordOf, members]
  | _ => rfl

theorem recordsFrom_names :
    (recordsFrom loaded i tools).map (fun record => record.identity.name) = toolNames tools := by
  induction tools generalizing i with
  | nil => rfl
  | cons tool tools ih =>
    rw [recordsFrom, List.map_append, ih]
    cases tool <;> rfl

theorem mem_recordsFrom :
    record ∈ recordsFrom loaded i tools ↔ ∃ j tool, tools[j]? = some tool ∧ recordOf loaded (i + j) tool = some record := by
  induction tools generalizing i with
  | nil => simp [recordsFrom]
  | cons first tools ih =>
    have later (j : Nat) : i + 1 + j = i + (j + 1) := by omega
    rw [recordsFrom, List.mem_append, Option.mem_toList, ih]
    constructor
    · rintro (here | ⟨j, tool, here, found⟩)
      · exact ⟨0, first, rfl, here⟩
      · exact ⟨j + 1, tool, by simpa using here, by rwa [← later]⟩
    · rintro ⟨j, tool, here, found⟩
      cases j with
      | zero =>
        have same : first = tool := by simpa using here
        exact .inl (by rw [same]; exact found)
      | succ j => exact .inr ⟨j, tool, by simpa using here, by rwa [later]⟩

theorem recordsFrom_append {later : List ResponsesTool} :
    recordsFrom loaded i (tools ++ later) = recordsFrom loaded i tools ++ recordsFrom loaded (i + tools.length) later := by
  induction tools generalizing i with
  | nil => rfl
  | cons tool tools ih =>
    have next : i + 1 + tools.length = i + (tool :: tools).length := by rw [List.length_cons]; omega
    rw [List.cons_append, recordsFrom, recordsFrom, ih, next, List.append_assoc]

theorem recordsFrom_congr (same : ∀ k tool, tools[k]? = some tool → recordOf loaded' (i + k) tool = recordOf loaded (i + k) tool) :
    recordsFrom loaded' i tools = recordsFrom loaded i tools := by
  induction tools generalizing i with
  | nil => rfl
  | cons tool tools ih =>
    have rest := @ih (i + 1) fun k tool here => by
      have moved := same (k + 1) tool (by simpa using here)
      rwa [show i + (k + 1) = i + 1 + k by omega] at moved
    have head : recordOf loaded' i tool = recordOf loaded i tool := same 0 tool rfl
    rw [recordsFrom, recordsFrom, rest, head]

/-- A tool in place of another of its identity. -/
theorem recordsFrom_set {tool' : ResponsesTool} (once : (toolNames tools).Nodup) (here : tools[j]? = some tool)
    (found : recordOf loaded (i + j) tool = some record) (found' : recordOf loaded' (i + j) tool' = some record')
    (others : ∀ k other, tools[k]? = some other → k ≠ j → recordOf loaded' (i + k) other = recordOf loaded (i + k) other) :
    recordsFrom loaded' i (tools.set j tool') =
      (recordsFrom loaded i tools).map fun b => if b.identity.name = record.identity.name then record' else b := by
  induction tools generalizing i j with
  | nil => cases here
  | cons first tools ih =>
    cases j with
    | zero =>
      have same : first = tool := by simpa using here
      subst same
      have fresh : record.identity.name ∉ toolNames tools := by
        have identity := (recordOf_eq_some found).1
        rw [toolNames, List.filterMap_cons, identity] at once
        exact (List.nodup_cons.1 once).1
      have rest : recordsFrom loaded' (i + 1) tools = recordsFrom loaded (i + 1) tools := by
        refine recordsFrom_congr fun k other there => ?_
        have moved := others (k + 1) other (by simpa using there) (by omega)
        rwa [show i + (k + 1) = i + 1 + k by omega] at moved
      have untouched : ((recordsFrom loaded (i + 1) tools).map fun b =>
          if b.identity.name = record.identity.name then record' else b) = recordsFrom loaded (i + 1) tools := by
        conv_rhs => rw [← List.map_id (recordsFrom loaded (i + 1) tools)]
        apply List.map_congr_left
        intro b mem
        rw [if_neg, id]
        intro same
        rw [← @recordsFrom_names loaded (i + 1)] at fresh
        exact fresh (List.mem_map.2 ⟨b, mem, same⟩)
      rw [List.set_cons_zero, recordsFrom, recordsFrom, List.map_append, rest, untouched, Nat.add_zero] at *
      rw [found, found', Option.toList_some, Option.toList_some, List.map_cons, if_pos rfl, List.map_nil]
    | succ j =>
      have there : tools[j]? = some tool := by simpa using here
      have next (k : Nat) : i + (k + 1) = i + 1 + k := by omega
      rw [next] at found found'
      have rest := @ih (i + 1) j (List.Nodup.sublist (by
          rw [toolNames, toolNames, List.filterMap_cons]
          cases first.identity <;> simp) once) there found found'
        (fun k other mem apart => by
          have moved := others (k + 1) other (by simpa using mem) (by omega)
          rwa [next] at moved)
      have head : recordOf loaded' i first = recordOf loaded i first := others 0 first rfl (by omega)
      rw [List.set_cons_succ, recordsFrom, recordsFrom, List.map_append, rest, head]
      congr 1
      cases kept : recordOf loaded i first with
      | none => rfl
      | some b =>
        rw [Option.toList_some, List.map_cons, List.map_nil, if_neg]
        intro same
        rw [toolNames, List.filterMap_cons, (recordOf_eq_some kept).1] at once
        refine (List.nodup_cons.1 once).1 (List.mem_filterMap.2 ⟨tool, List.mem_of_getElem? there, ?_⟩)
        rw [(recordOf_eq_some found).1, Option.map_some, same]

end

end AgenticStack.Tools
