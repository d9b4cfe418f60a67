import AgenticStack.Tool.SearchRecords
import AgenticStack.Library.Outcome

/-!
# Loading the members of a namespace

What the loop over the returned members does to a namespace whose records are
those of its members: a member it has is loaded if it was not, one it does not
have is added.
-/

namespace AgenticStack.Tools
set_option autoImplicit false
open Library

/-- The records are those of the members, which are functions with different names. -/
structure MembersTrack (loaded : List ResponsesTool) («namespace» : Text) (public_members : List CodexNamespaceMember)
    (members : NamespaceMemberRecords) : Prop where
  members : members = .of (memberRecordsFrom loaded «namespace» 0 public_members)
  functions : .unknown ∉ public_members
  once : (functionNames public_members).Nodup

def NamespaceMemberRecord.markLoaded (name : Text) (record : NamespaceMemberRecord) : NamespaceMemberRecord :=
  if record.name = name then { record with loaded := true } else record

/-- What loading a member can do. -/
inductive MemberStep (loaded : List ResponsesTool) («namespace» : Text) (self : MemberLoading) (param : FunctionToolParam) :
    MemberLoading → Prop
  | available (known : FunctionToolParam) (here : .function known ∈ self.public_members)
      (named : known.name.text = param.name.text) (same : canonicalNamespaceMember known = canonicalNamespaceMember param)
      (available : memberAvailable loaded «namespace» known = true) : MemberStep loaded «namespace» self param self
  | load (known : FunctionToolParam) (here : .function known ∈ self.public_members)
      (named : known.name.text = param.name.text) (same : canonicalNamespaceMember known = canonicalNamespaceMember param)
      (unloaded : memberAvailable loaded «namespace» known = false) : MemberStep loaded «namespace» self param
        { self with
          members := .of (self.members.ordered.map (NamespaceMemberRecord.markLoaded param.name.text))
          withheld_function_names :=
            self.withheld_function_names.erase (modelVisibleNamespaceMemberName «namespace» param.name.text)
          newly_loaded := self.newly_loaded ++ [.function known] }
  | new (fresh : param.name.text ∉ functionNames self.public_members) : MemberStep loaded «namespace» self param
        { self with
          public_members := self.public_members ++ [.function param]
          members := .of (self.members.ordered ++
            [⟨param.name.text, canonicalNamespaceMember param, self.public_members.length, true⟩])
          newly_loaded := self.newly_loaded ++ [.function param] }

section
variable {loaded : List ResponsesTool} {«namespace» : Text} {self next : MemberLoading} {param : FunctionToolParam}

theorem MembersTrack.names {public_members : List CodexNamespaceMember} {members : NamespaceMemberRecords}
    (tracks : MembersTrack loaded «namespace» public_members members) :
    members.ordered.map NamespaceMemberRecord.name = functionNames public_members := by
  rw [tracks.members]
  exact memberRecordsFrom_names

/-- The record of a member, where it is looked up. -/
theorem MembersTrack.record_at {public_members : List CodexNamespaceMember} {members : NamespaceMemberRecords}
    (tracks : MembersTrack loaded «namespace» public_members members) {name : Text} {index : Fin members.ordered.length}
    (found : memberIndex members.ordered name = some index) :
    ∃ known, public_members[(members.ordered.get index).public_member_index]? = some (.function known) ∧ known.name.text = name ∧
      (members.ordered.get index).canonical = canonicalNamespaceMember known ∧
      (members.ordered.get index).loaded = memberAvailable loaded «namespace» known := by
  have named : (members.ordered.get index).name = name := key_of_keyIndex found
  have mem : members.ordered.get index ∈ memberRecordsFrom loaded «namespace» 0 public_members := by
    have here : members.ordered.get index ∈ members.ordered := List.getElem_mem _
    have same : members.ordered = memberRecordsFrom loaded «namespace» 0 public_members := by rw [tracks.members]; rfl
    rw [← same]
    exact here
  obtain ⟨j, known, there, record⟩ := mem_memberRecordsFrom.1 mem
  rw [record] at named ⊢
  exact ⟨known, by rwa [Nat.zero_add], named, rfl, rfl⟩

theorem markLoaded_map {ordered : List NamespaceMemberRecord} (once : (ordered.map NamespaceMemberRecord.name).Nodup)
    (index : Fin ordered.length) :
    ordered.set index { ordered.get index with loaded := true } =
      ordered.map (NamespaceMemberRecord.markLoaded (ordered.get index).name) := by
  rw [set_eq_map once index]
  apply List.map_congr_left
  intro record mem
  rw [NamespaceMemberRecord.markLoaded]
  by_cases same : record.name = (ordered.get index).name
  · rw [if_pos same, if_pos same, List.inj_on_of_nodup_map once mem (List.getElem_mem index.2) same]
    rfl
  · rw [if_neg same]
    exact (if_neg same).symm

theorem MemberLoading.load_iff (tracks : MembersTrack loaded «namespace» self.public_members self.members) :
    self.load «namespace» (.function param) = .ok next ↔ MemberStep loaded «namespace» self param next := by
  rw [MemberLoading.load]
  cases found : memberIndex self.members.ordered param.name.text with
  | some index =>
    obtain ⟨known, here, named, canonical, available⟩ := tracks.record_at found
    have member := List.mem_of_getElem? here
    have only {q : FunctionToolParam} (there : .function q ∈ self.public_members) (same : q.name.text = param.name.text) :
        q = known := member_unique tracks.once there member (same.trans named.symm)
    have known_name : param.name.text ∈ functionNames self.public_members := mem_functionNames.2 ⟨known, member, named⟩
    dsimp only
    by_cases conflict : (self.members.ordered.get index).canonical ≠ canonicalNamespaceMember param
    · rw [if_pos conflict]
      rw [canonical] at conflict
      refine ⟨(nomatch ·), fun step => ?_⟩
      cases step with
      | available q there same agree => exact absurd (only there same ▸ agree) conflict
      | load q there same agree => exact absurd (only there same ▸ agree) conflict
      | new fresh => exact absurd known_name fresh
    · have agree : canonicalNamespaceMember known = canonicalNamespaceMember param := canonical ▸ not_not.1 conflict
      rw [if_neg conflict]
      by_cases loaded_now : (self.members.ordered.get index).loaded = true
      · rw [if_pos loaded_now, Except.ok.injEq]
        rw [available] at loaded_now
        constructor
        · rintro rfl
          exact .available known member named agree loaded_now
        · intro step
          cases step with
          | available => rfl
          | load q there same _ unloaded =>
            rw [only there same, loaded_now] at unloaded
            cases unloaded
          | new fresh => exact absurd known_name fresh
      · have unloaded : memberAvailable loaded «namespace» known = false := by
          rw [← available]
          exact Bool.not_eq_true _ ▸ loaded_now
        have within : isUnloaded (self.members.ordered.get index) = true := by rw [isUnloaded, available, unloaded]; rfl
        have counted : self.members.unloaded_count = self.members.ordered.countP isUnloaded := by rw [tracks.members]; rfl
        have positive : self.members.unloaded_count ≠ 0 := by
          have : 0 < self.members.ordered.countP isUnloaded :=
            List.countP_pos_iff.2 ⟨_, List.getElem_mem index.2, within⟩
          omega
        have once : (self.members.ordered.map NamespaceMemberRecord.name).Nodup := by rw [tracks.names]; exact tracks.once
        have name : (self.members.ordered.get index).name = param.name.text := key_of_keyIndex found
        have marked : (⟨self.members.ordered.set index { self.members.ordered.get index with loaded := true },
            self.members.unloaded_count - 1⟩ : NamespaceMemberRecords) =
              .of (self.members.ordered.map (NamespaceMemberRecord.markLoaded param.name.text)) := by
          rw [← name, ← markLoaded_map once index, NamespaceMemberRecords.of, NamespaceMemberRecords.mk.injEq, counted]
          refine ⟨rfl, ?_⟩
          rw [List.countP_set index.2]
          show _ = _ - (if isUnloaded (self.members.ordered.get index) = true then 1 else 0) + 0
          rw [if_pos within, Nat.add_zero]
        rw [if_neg loaded_now, if_neg positive, marked, here, Except.ok.injEq]
        constructor
        · rintro rfl
          exact .load known member named agree unloaded
        · intro step
          cases step with
          | available q there same _ now =>
            rw [only there same, unloaded] at now
            cases now
          | load q there same => rw [only there same]; rfl
          | new fresh => exact absurd known_name fresh
  | none =>
    have fresh : param.name.text ∉ functionNames self.public_members := by
      rw [← tracks.names]
      exact keyIndex_eq_none.1 found
    have pushed : (⟨self.members.ordered ++ [⟨param.name.text, canonicalNamespaceMember param, self.public_members.length, true⟩],
        self.members.unloaded_count⟩ : NamespaceMemberRecords) = .of (self.members.ordered ++
          [⟨param.name.text, canonicalNamespaceMember param, self.public_members.length, true⟩]) := by
      have counted : self.members.unloaded_count = self.members.ordered.countP isUnloaded := by rw [tracks.members]; rfl
      rw [NamespaceMemberRecords.of, NamespaceMemberRecords.mk.injEq, counted, List.countP_append]
      exact ⟨rfl, (Nat.add_zero _).symm⟩
    dsimp only
    rw [pushed, Except.ok.injEq]
    constructor
    · rintro rfl
      exact .new fresh
    · intro step
      cases step with
      | available q there same => exact absurd (mem_functionNames.2 ⟨q, there, same⟩) fresh
      | load q there same => exact absurd (mem_functionNames.2 ⟨q, there, same⟩) fresh
      | new => rfl

end

/-- What loading some members has come to, where `loaded` was loaded before and `loaded'` is after. -/
structure MembersLoaded (loaded loaded' : List ResponsesTool) («namespace» : Text) (start final : MemberLoading)
    (returned : List CodexNamespaceMember) : Prop where
  tracks : MembersTrack loaded' «namespace» final.public_members final.members
  grown : ∀ id, isLoaded loaded' id = true ↔
    isLoaded loaded id = true ∨ ∃ name ∈ functionNames returned, id = .member «namespace» name
  functions : .unknown ∉ returned
  extended : ∃ added, final.public_members = start.public_members ++ added ∧
    ∀ member ∈ added, member ∈ returned ∧ ∀ param, member = .function param → param.name.text ∉ functionNames start.public_members
  agrees : ∀ param, .function param ∈ returned → ∃ known, .function known ∈ final.public_members ∧
    known.name.text = param.name.text ∧ canonicalNamespaceMember known = canonicalNamespaceMember param
  withheld : ∀ x, x ∈ final.withheld_function_names ↔ x ∈ start.withheld_function_names ∧
    ¬∃ known, .function known ∈ start.public_members ∧ memberAvailable loaded «namespace» known = false ∧
      memberAvailable loaded' «namespace» known = true ∧ modelVisibleNamespaceMemberName «namespace» known.name.text = x
  newly : ∃ newly, final.newly_loaded = start.newly_loaded ++ newly ∧
    (∀ member ∈ newly, member ∈ final.public_members ∧ ∀ param, member = .function param → param.name.text ∈ functionNames returned) ∧
    ∀ known, .function known ∈ final.public_members → memberAvailable loaded «namespace» known = false →
      memberAvailable loaded' «namespace» known = true → .function known ∈ newly

section
variable {loaded loaded' loaded'' : List ResponsesTool} {«namespace» : Text} {self next final : MemberLoading}
  {param : FunctionToolParam} {returned later : List CodexNamespaceMember}

theorem memberAvailable_iff : memberAvailable loaded «namespace» param = true ↔
    isLoaded loaded (.member «namespace» param.name.text) = true ∨ param.defer_loading ≠ some true := by
  rw [memberAvailable, Bool.or_eq_true, decide_eq_true_eq]

theorem MembersLoaded.available (h : MembersLoaded loaded loaded' «namespace» self final returned) :
    memberAvailable loaded' «namespace» param = true ↔
      memberAvailable loaded «namespace» param = true ∨ param.name.text ∈ functionNames returned := by
  rw [memberAvailable_iff, memberAvailable_iff, h.grown]
  constructor
  · rintro ((before | ⟨name, here, same⟩) | eager)
    · exact .inl (.inl before)
    · cases same
      exact .inr here
    · exact .inl (.inr eager)
  · rintro ((before | eager) | here)
    · exact .inl (.inl before)
    · exact .inr eager
    · exact .inl (.inr ⟨_, here, rfl⟩)

theorem memberAvailable_congr (same : ∀ id, isLoaded loaded' id = isLoaded loaded id) :
    memberAvailable loaded' «namespace» param = memberAvailable loaded «namespace» param := by
  rw [memberAvailable, memberAvailable, same]

theorem MembersTrack.congr {public_members : List CodexNamespaceMember} {members : NamespaceMemberRecords}
    (tracks : MembersTrack loaded «namespace» public_members members)
    (same : ∀ param, .function param ∈ public_members →
      memberAvailable loaded' «namespace» param = memberAvailable loaded «namespace» param) :
    MembersTrack loaded' «namespace» public_members members where
  members := by rw [tracks.members, memberRecordsFrom_congr same]
  functions := tracks.functions
  once := tracks.once

/-- Nothing was returned. -/
theorem MembersLoaded.nil (tracks : MembersTrack loaded «namespace» self.public_members self.members)
    (same : ∀ id, isLoaded loaded' id = isLoaded loaded id) : MembersLoaded loaded loaded' «namespace» self self [] where
  tracks := tracks.congr fun _ _ => memberAvailable_congr same
  grown id := by simp [functionNames, same]
  functions := List.not_mem_nil
  extended := ⟨[], (List.append_nil _).symm, fun _ here => nomatch here⟩
  agrees _ here := nomatch here
  withheld x := by
    refine ⟨fun here => ⟨here, ?_⟩, And.left⟩
    rintro ⟨known, _, before, after, _⟩
    rw [memberAvailable_congr same, before] at after
    cases after
  newly := by
    refine ⟨[], (List.append_nil _).symm, fun _ here => (nomatch here), fun known _ before after => ?_⟩
    rw [memberAvailable_congr same, before] at after
    cases after

theorem functionNames_append {members later : List CodexNamespaceMember} :
    functionNames (members ++ later) = functionNames members ++ functionNames later := List.filterMap_append

theorem MembersLoaded.trans (first : MembersLoaded loaded loaded' «namespace» self next returned)
    (last : MembersLoaded loaded' loaded'' «namespace» next final later) :
    MembersLoaded loaded loaded'' «namespace» self final (returned ++ later) := by
  obtain ⟨added, extended, new⟩ := first.extended
  obtain ⟨added', extended', new'⟩ := last.extended
  obtain ⟨newly, appended, sound, complete⟩ := first.newly
  obtain ⟨newly', appended', sound', complete'⟩ := last.newly
  have old {member : CodexNamespaceMember} (here : member ∈ next.public_members) : member ∈ final.public_members := by
    rw [extended']
    exact List.mem_append_left _ here
  have older {member : CodexNamespaceMember} (here : member ∈ self.public_members) : member ∈ next.public_members := by
    rw [extended]
    exact List.mem_append_left _ here
  refine ⟨last.tracks, fun id => ?_, ?_, ⟨added ++ added', ?_, ?_⟩, ?_, fun x => ?_, ⟨newly ++ newly', ?_, ?_, ?_⟩⟩
  · rw [last.grown, first.grown, functionNames_append]
    simp only [List.mem_append]
    constructor
    · rintro ((before | ⟨name, here, same⟩) | ⟨name, here, same⟩)
      · exact .inl before
      · exact .inr ⟨name, .inl here, same⟩
      · exact .inr ⟨name, .inr here, same⟩
    · rintro (before | ⟨name, here | here, same⟩)
      · exact .inl (.inl before)
      · exact .inl (.inr ⟨name, here, same⟩)
      · exact .inr ⟨name, here, same⟩
  · exact fun here => (List.mem_append.1 here).elim first.functions last.functions
  · rw [extended', extended, List.append_assoc]
  · intro member here
    rcases List.mem_append.1 here with here | here
    · exact ⟨List.mem_append_left _ (new member here).1, (new member here).2⟩
    · refine ⟨List.mem_append_right _ (new' member here).1, fun param same there => (new' member here).2 param same ?_⟩
      rw [extended, functionNames_append]
      exact List.mem_append_left _ there
  · intro param here
    rcases List.mem_append.1 here with here | here
    · obtain ⟨known, there, named, same⟩ := first.agrees param here
      exact ⟨known, old there, named, same⟩
    · exact last.agrees param here
  · rw [last.withheld, first.withheld]
    constructor
    · rintro ⟨⟨here, before⟩, after⟩
      refine ⟨here, ?_⟩
      rintro ⟨known, there, unavailable, available, named⟩
      by_cases between : memberAvailable loaded' «namespace» known = true
      · exact before ⟨known, there, unavailable, between, named⟩
      · exact after ⟨known, older there, by simpa using between, available, named⟩
    · rintro ⟨here, kept⟩
      refine ⟨⟨here, ?_⟩, ?_⟩
      · rintro ⟨known, there, unavailable, available, named⟩
        exact kept ⟨known, there, unavailable, last.available.2 (.inl available), named⟩
      · rintro ⟨known, there, unavailable, available, named⟩
        have before : memberAvailable loaded «namespace» known = false := by
          by_contra already
          have already := first.available.2 (.inl (Bool.not_eq_false _ ▸ already))
          rw [already] at unavailable
          cases unavailable
        refine kept ⟨known, ?_, before, available, named⟩
        rw [extended] at there
        rcases List.mem_append.1 there with there | there
        · exact there
        · have named := mem_functionNames.2 ⟨known, (new _ there).1, rfl⟩
          rw [first.available.2 (.inr named)] at unavailable
          cases unavailable
  · rw [appended', appended, List.append_assoc]
  · intro member here
    rw [functionNames_append]
    rcases List.mem_append.1 here with here | here
    · exact ⟨old (sound member here).1, fun param same => List.mem_append_left _ ((sound member here).2 param same)⟩
    · exact ⟨(sound' member here).1, fun param same => List.mem_append_right _ ((sound' member here).2 param same)⟩
  · intro known here unavailable available
    by_cases between : memberAvailable loaded' «namespace» known = true
    · have named := (first.available.1 between).resolve_left (by rw [unavailable]; exact Bool.false_ne_true)
      obtain ⟨param, there, same⟩ := mem_functionNames.1 named
      obtain ⟨other, member, named', _⟩ := first.agrees param there
      have only : known = other := member_unique last.tracks.once here (old member) (same.symm.trans named'.symm)
      exact List.mem_append_left _ (complete known (only ▸ member) unavailable between)
    · exact List.mem_append_right _ (complete' known here (by simpa using between) available)

/-- One member. -/
theorem MembersLoaded.single (tracks : MembersTrack loaded «namespace» self.public_members self.members)
    (step : MemberStep loaded «namespace» self param next)
    (grown : ∀ id, isLoaded loaded' id = true ↔ isLoaded loaded id = true ∨ id = .member «namespace» param.name.text) :
    MembersLoaded loaded loaded' «namespace» self next [.function param] := by
  have available (known : FunctionToolParam) : memberAvailable loaded' «namespace» known = true ↔
      memberAvailable loaded «namespace» known = true ∨ known.name.text = param.name.text := by
    rw [memberAvailable_iff, memberAvailable_iff, grown, FunctionId.member.injEq]
    grind
  have grown (id : FunctionId) : isLoaded loaded' id = true ↔
      isLoaded loaded id = true ∨ ∃ name ∈ functionNames [.function param], id = .member «namespace» name := by
    rw [grown]
    simp [functionNames, CodexNamespaceMember.functionName]
  have functions : .unknown ∉ [CodexNamespaceMember.function param] := by simp
  have named : param.name.text ∈ functionNames [.function param] := mem_functionNames.2 ⟨param, List.mem_singleton.2 rfl, rfl⟩
  have others (known : FunctionToolParam) (apart : known.name.text ≠ param.name.text) :
      memberAvailable loaded' «namespace» known = memberAvailable loaded «namespace» known := by
    rw [Bool.eq_iff_iff, available]
    exact ⟨fun h => h.resolve_right apart, .inl⟩
  cases step with
  | available known here same agree now =>
    have only {other : FunctionToolParam} (there : .function other ∈ self.public_members) (same' : other.name.text = param.name.text) :
        other = known := member_unique tracks.once there here (same'.trans same.symm)
    have unchanged (other : FunctionToolParam) (there : .function other ∈ self.public_members) :
        memberAvailable loaded' «namespace» other = memberAvailable loaded «namespace» other := by
      by_cases same' : other.name.text = param.name.text
      · rw [only there same', now]
        exact (available known).2 (.inl now)
      · exact others other same'
    refine ⟨tracks.congr unchanged, grown, functions, ⟨[], (List.append_nil _).symm, fun _ h => absurd h List.not_mem_nil⟩, ?_, fun x => ?_,
      ⟨[], (List.append_nil _).symm, fun _ h => absurd h List.not_mem_nil, fun other there before after => ?_⟩⟩
    · intro other there
      cases List.mem_singleton.1 there
      exact ⟨known, here, same, agree⟩
    · refine ⟨fun h => ⟨h, ?_⟩, And.left⟩
      rintro ⟨other, there, before, after, _⟩
      rw [unchanged other there, before] at after
      cases after
    · rw [unchanged other there, before] at after
      cases after
  | load known here same agree unloaded =>
    have only {other : FunctionToolParam} (there : .function other ∈ self.public_members) (same' : other.name.text = param.name.text) :
        other = known := member_unique tracks.once there here (same'.trans same.symm)
    refine ⟨⟨?_, tracks.functions, tracks.once⟩, grown, functions, ⟨[], (List.append_nil _).symm, fun _ h => absurd h List.not_mem_nil⟩, ?_,
      fun x => ?_, ⟨[.function known], rfl, ?_, ?_⟩⟩
    · have ordered : self.members.ordered = memberRecordsFrom loaded «namespace» 0 self.public_members := by
        rw [tracks.members]; rfl
      have marked : memberRecordsFrom loaded' «namespace» 0 self.public_members =
          (memberRecordsFrom loaded «namespace» 0 self.public_members).map
            (NamespaceMemberRecord.markLoaded param.name.text) := by
        refine memberRecordsFrom_map fun j other there => ?_
        rw [NamespaceMemberRecord.markLoaded]
        by_cases same' : other.name.text = param.name.text
        · rw [if_pos same', (available other).2 (.inr same')]
        · rw [if_neg same', others other same']
      rw [ordered, marked]
    · intro other there
      cases List.mem_singleton.1 there
      exact ⟨known, here, same, agree⟩
    · rw [Finset.mem_erase, and_comm]
      refine and_congr_right fun _ => ?_
      constructor
      · rintro apart ⟨other, there, before, after, rfl⟩
        have same' := ((available other).1 after).resolve_left (by rw [before]; exact Bool.false_ne_true)
        exact apart (by rw [same'])
      · rintro kept rfl
        exact kept ⟨known, here, unloaded, (available known).2 (.inr same), by rw [same]⟩
    · intro member there
      cases List.mem_singleton.1 there
      exact ⟨here, fun other same' => by cases same'; rw [same]; exact named⟩
    · intro other there before after
      have same' := ((available other).1 after).resolve_left (by rw [before]; exact Bool.false_ne_true)
      rw [only there same']
      exact List.mem_singleton.2 rfl
  | new fresh =>
    have kept (other : FunctionToolParam) (there : .function other ∈ self.public_members) :
        memberAvailable loaded' «namespace» other = memberAvailable loaded «namespace» other :=
      others other fun same => fresh (mem_functionNames.2 ⟨other, there, same⟩)
    refine ⟨⟨?_, ?_, ?_⟩, grown, functions, ⟨[.function param], rfl, ?_⟩, ?_, fun x => ?_, ⟨[.function param], rfl, ?_, ?_⟩⟩
    · have ordered : self.members.ordered = memberRecordsFrom loaded' «namespace» 0 self.public_members := by
        rw [tracks.members]
        exact (memberRecordsFrom_congr kept).symm
      rw [memberRecordsFrom_append, ← ordered, memberRecordsFrom, (available param).2 (.inr rfl), Nat.zero_add]
      rfl
    · exact fun here => (List.mem_append.1 here).elim tracks.functions (by simp)
    · rw [functionNames_append]
      refine List.Nodup.append tracks.once (List.nodup_singleton _) ?_
      rintro name here there
      cases List.mem_singleton.1 there
      exact fresh here
    · intro member there
      refine ⟨there, fun other same => ?_⟩
      cases List.mem_singleton.1 there
      cases same
      exact fresh
    · intro other there
      exact ⟨other, List.mem_append_right _ there, rfl, rfl⟩
    · refine ⟨fun h => ⟨h, ?_⟩, And.left⟩
      rintro ⟨other, there, before, after, _⟩
      rw [kept other there, before] at after
      cases after
    · intro member there
      refine ⟨List.mem_append_right _ there, fun other same => ?_⟩
      cases List.mem_singleton.1 there
      cases same
      exact named
    · intro other there before after
      rcases List.mem_append.1 there with there | there
      · rw [kept other there, before] at after
        cases after
      · exact there

/-- The namespace with some members, as it is loaded. -/
theorem isLoaded_namespace {parameters : CodexNamespaceToolParam} {id : FunctionId} :
    isLoaded (loaded ++ [.namespace parameters]) id = true ↔
      isLoaded loaded id = true ∨ ∃ name ∈ functionNames parameters.tools, id = .member parameters.name name := by
  rw [isLoaded_concat, Bool.or_eq_true, defines_iff]
  simp only [mem_namespace_functions, mem_functionNames]
  grind

theorem members_loaded {parameters : CodexNamespaceToolParam}
    (tracks : MembersTrack loaded parameters.name self.public_members self.members)
    (h : returned.foldlM (MemberLoading.load parameters.name) self = .ok final)
    (grown : ∀ id, isLoaded loaded' id = true ↔
      isLoaded loaded id = true ∨ ∃ name ∈ functionNames returned, id = .member parameters.name name) :
    MembersLoaded loaded loaded' parameters.name self final returned := by
  induction returned generalizing loaded self with
  | nil =>
    rw [List.foldlM_nil, pure_eq_ok] at h
    subst h
    refine .nil tracks fun id => ?_
    rw [Bool.eq_iff_iff, grown]
    simp [functionNames]
  | cons member returned ih =>
    rw [List.foldlM_cons, bind_eq_ok] at h
    obtain ⟨next, first, rest⟩ := h
    cases member with
    | unknown => cases first
    | function param =>
      have step := (MemberLoading.load_iff tracks).1 first
      have one : MembersLoaded loaded (loaded ++ [.namespace { parameters with tools := [.function param] }]) parameters.name
          self next [.function param] := by
        refine .single tracks step fun id => ?_
        rw [isLoaded_namespace]
        simp [functionNames, CodexNamespaceMember.functionName]
      refine one.trans (ih one.tracks rest fun id => ?_)
      rw [grown, isLoaded_namespace]
      simp [functionNames, CodexNamespaceMember.functionName, or_assoc]

end

end AgenticStack.Tools
