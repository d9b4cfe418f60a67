import AgenticStack.Executor.Announcements
import AgenticStack.Executor.DiscoveryEvents
import AgenticStack.Executor.RoundDelivery
import AgenticStack.Tool.Handlers

/-!
# Listings in a run

A run shows the listings of its registry at the head of its output, and sends
their events at most once, in its first round. No other event and no other item
of the gateway's own is about a listing.
-/

namespace AgenticStack.Engine
set_option autoImplicit false
open Library

/-- The handlers of the gateway's tools show calls, not listings. -/
def ShowsCalls (registry : ToolRegistry) : Prop :=
  ∀ name entry binding, registry.lookup name = some entry → entry.ownership = .gateway (some binding) →
    (∀ call list, binding.startedOutput call ≠ some (.mcpListTools list)) ∧
      ∀ call output status list, binding.publicOutput call output status ≠ some (.mcpListTools list)

/-- A plan for an item that is no listing. -/
structure Unlisted (plan : GatewayEventPlan) : Prop where
  started : ∀ list, plan.started_output ≠ some (.mcpListTools list)
  completed : ∀ list, plan.completed_output ≠ some (.mcpListTools list)

/-- An event of an item that is no listing. -/
def OfOther (values : SerdeValues) (entry : LogEntry) : Prop :=
  ∃ plan, Unlisted plan ∧ entry ∈ startEntries values [plan] ++ completedEntries values [plan]

section
variable {registry : ToolRegistry} {output_offset round budget budget' item_index : Nat} {item : OutputItem}
  {output_items : List OutputItem} {call : GatewayCallPlan} {result : GatewayCallResult} {calls : List GatewayCallPlan}
  {results : List GatewayCallResult} {plans : List GatewayEventPlan} {values : SerdeValues} {entry : LogEntry}

/-- What the plan of a call says: its item is no listing, neither before nor after the call is executed. -/
structure CallPlan (call : GatewayCallPlan) : Prop where
  unlisted : Unlisted call.events
  shows : ∀ binding, call.execution = some binding →
    ∀ call output status list, binding.publicOutput call output status ≠ some (.mcpListTools list)

/-- A call that is planned shows no listing. -/
theorem planItem_shows (handlers : ShowsCalls registry)
    (planned : GatewayScheduler.planItem registry output_offset item_index item = some call) : CallPlan call := by
  cases item with
  | functionCall function =>
    unfold GatewayScheduler.planItem at planned
    rcases Option.eq_none_or_eq_some (registry.lookup function.name) with found | ⟨entry, found⟩
    · simp [found] at planned
    · cases owner : entry.ownership with
      | client => simp [found, owner] at planned
      | gateway binding =>
        simp only [found, owner, Option.some.injEq] at planned
        subst planned
        cases binding with
        | none => exact ⟨⟨by simp, by simp⟩, by simp⟩
        | some binding =>
          obtain ⟨started, shown⟩ := handlers _ _ _ found owner
          refine ⟨⟨started function, by simp⟩, ?_⟩
          intro other same
          cases same
          exact shown
  | _ => cases planned

/-- The calls of an output show no listing. -/
theorem plan_shows (handlers : ShowsCalls registry) :
    ∀ call ∈ GatewayScheduler.plan output_items registry output_offset, CallPlan call := by
  intro call mem
  obtain ⟨p, -, planned⟩ := List.mem_filterMap.1 mem
  exact planItem_shows handlers planned

/-- The result of a call is no listing. -/
theorem runOne_public (ran : call.runOne round budget = .ok result budget') (shows : CallPlan call) :
    ∀ list, result.public_output ≠ some (.mcpListTools list) := by
  intro list
  unfold GatewayCallPlan.runOne at ran
  cases execution : call.execution with
  | none =>
    rw [execution] at ran
    obtain ⟨_, _, _, ran⟩ := bind_ok.1 ran
    obtain ⟨_, _, _, ran⟩ := bind_ok.1 ran
    obtain ⟨same, -⟩ := pure_ok.1 ran
    subst same
    simp
  | some binding =>
    rw [execution] at ran
    obtain ⟨⟨output, status⟩, _, _, ran⟩ := bind_ok.1 ran
    obtain ⟨_, _, _, ran⟩ := bind_ok.1 ran
    obtain ⟨_, _, _, ran⟩ := bind_ok.1 ran
    obtain ⟨same, -⟩ := pure_ok.1 ran
    subst same
    exact shows.shows binding execution _ _ _ list

/-- The results of the calls are no listings. -/
theorem executeWithBudget_public (shows : ∀ call ∈ calls, CallPlan call)
    (ran : executeWithBudget calls round budget = .ok results budget') :
    ∀ result ∈ results, ∀ list, result.public_output ≠ some (.mcpListTools list) := by
  have each := executeWithBudget_each (fun call _ result _ one => fun known : CallPlan call => runOne_public one known) ran
  clear ran
  induction each with
  | nil => simp
  | cons one rest ih =>
    rw [List.forall_mem_cons] at shows ⊢
    exact ⟨one shows.1, ih shows.2⟩

/-- What is shown of the calls is no listing. -/
theorem completePlans_unlisted (shows : ∀ call ∈ calls, CallPlan call)
    (ran : executeWithBudget calls round budget = .ok results budget') : ∀ plan ∈ completePlans calls results, Unlisted plan := by
  intro plan mem
  unfold completePlans at mem
  rw [← List.map_uncurry_zip_eq_zipWith] at mem
  obtain ⟨p, among, rfl⟩ := List.mem_map.1 mem
  exact ⟨(shows p.1 (List.of_mem_zip among).1).unlisted.started, executeWithBudget_public shows ran p.2 (List.of_mem_zip among).2⟩

/-- The events that open the calls are of no listing. -/
theorem start_ofOther (unlisted : ∀ plan ∈ plans, Unlisted plan) (mem : entry ∈ startEntries values plans) :
    OfOther values entry := by
  obtain ⟨event, shown, rfl⟩ := List.mem_map.1 mem
  obtain ⟨plan, planned, shown⟩ := List.mem_flatMap.1 shown
  refine ⟨plan, unlisted plan planned, List.mem_append_left _ (List.mem_map_of_mem ?_)⟩
  simpa using shown

/-- The events that end the calls are of no listing. -/
theorem completed_ofOther (unlisted : ∀ plan ∈ plans, Unlisted plan) (mem : entry ∈ completedEntries values plans) :
    OfOther values entry := by
  obtain ⟨event, shown, rfl⟩ := List.mem_map.1 mem
  obtain ⟨plan, planned, shown⟩ := List.mem_flatMap.1 shown
  refine ⟨plan, unlisted plan planned, List.mem_append_right _ (List.mem_map_of_mem ?_)⟩
  simpa using shown

/-- The frames of a round are not the engine's own. -/
theorem frame_not_own {frames : List EventFrame} (mem : entry ∈ frameEntries frames) : entry.isOwn = false := by
  obtain ⟨frame, -, rfl⟩ := List.mem_map.1 mem
  rfl

/-- The events of the later items are of no listing. -/
theorem late_ofOther {early : Nat} {deferred_events : List EventFrame} (unlisted : ∀ plan ∈ plans, Unlisted plan)
    (mem : entry ∈ lateEntries values calls plans early output_items.length deferred_events) (own : entry.isOwn = true) :
    OfOther values entry := by
  have no_frame {frames : List EventFrame} (mem : entry ∈ frameEntries frames) : OfOther values entry :=
    absurd own (by rw [frame_not_own mem]; exact Bool.false_ne_true)
  rcases List.mem_append.1 mem with mem | mem
  · obtain ⟨index, -, mem⟩ := List.mem_flatMap.1 mem
    unfold itemEntries at mem
    rcases List.mem_append.1 mem with mem | mem
    · split at mem
      · cases mem
      · rename_i call_index found
        have among : ∀ plan ∈ plans[call_index]?.toList, Unlisted plan := by
          intro plan here
          exact unlisted plan (List.mem_of_getElem? (Option.mem_toList.1 here))
        rcases List.mem_append.1 mem with mem | mem
        · split at mem
          · exact start_ofOther among mem
          · cases mem
        · exact completed_ofOther among mem
    · exact no_frame mem
  · exact no_frame mem

end

section
variable {services : Services} {s s' : State} {output_items combined_output : List OutputItem} {output_offset round : Nat}
  {deferred_events : List EventFrame} {results : List GatewayCallResult} {o : Outlet} {roundEnd : RoundEnd}

/-- The events of a round's calls are about other items. -/
theorem executeRoundOutput_own (handlers : ShowsCalls s.registry) (opened : s.delivery.outlet = some o)
    (h : executeRoundOutput services output_items output_offset round deferred_events s = .ok results s') :
    ∃ o' rest, s'.delivery = { s.delivery with outlet := some o' } ∧ o'.own = o.own ++ rest ∧
      ∀ entry ∈ rest, OfOther services.values entry := by
  obtain ⟨m, budget, ran, early, late⟩ := executeRoundOutput_logged opened h
  obtain ⟨o', delivery, log⟩ := early.trans late o opened
  have shows := @plan_shows s.registry output_offset output_items handlers
  have completed := completePlans_unlisted shows ran
  refine ⟨o', _, delivery, own_of_log log, ?_⟩
  intro entry mem
  obtain ⟨mem, own⟩ := List.mem_filter.1 mem
  rcases List.mem_append.1 mem with mem | mem
  · refine start_ofOther ?_ mem
    intro plan planned
    obtain ⟨call, called, rfl⟩ := List.mem_map.1 (List.mem_of_mem_take planned)
    exact (shows call called).unlisted
  · split at mem
    · exact completed_ofOther completed mem
    · exact late_ofOther completed mem own

/-- **A round** sends the events of the listings left in the registry, if progress is first shown in it, and at once. -/
theorem Streams.own (h : Streams services round combined_output s o roundEnd s') (handlers : ShowsCalls s.registry) :
    ∃ o' rest, s'.delivery = .new (some o') ∧
      o'.own = o.own ++ (if announcesProgress none [] (translations services s') && !o.progressed then
        discoveryEvents services.values s.registry.mcp_list_tool_items else []) ++ rest ∧
      ∀ entry ∈ rest, OfOther services.values entry := by
  obtain ⟨accepted, delivery, registry, -, -, -, settled⟩ := h
  rename_i d answered payload upstream usage
  obtain ⟨o₁, progress, opened, gains⟩ := accepted_gains accepted rfl
  rw [opened] at delivery
  have same : ShowsCalls answered.registry := by
    rw [registry]
    split
    · exact handlers
    · exact handlers
  cases settled with
  | failed status => exact ⟨o₁, [], delivery, by rw [List.append_nil]; exact gains.own, by simp⟩
  | executed status ran shown ends =>
    obtain ⟨o₂, rest, released, own, other⟩ := executeRoundOutput_own same (by rw [delivery]; rfl) ran
    refine ⟨o₂, rest, by rw [released, delivery]; rfl, ?_, other⟩
    rw [own, gains.own]
    rfl

/-- A round leaves the registry as it is. -/
theorem Settles.registry {payload : ResponsePayload} {current_output : List OutputItem} {combined_usage : Option ResponseUsage}
    (h : Settles services round payload current_output output_offset deferred_events combined_output combined_usage s
      roundEnd s') : s'.registry = s.registry := by
  cases h with
  | failed status => rfl
  | executed status ran shown ends => exact (executeRoundOutput_ok ran).1.registry

/-- After its first round a turn has no listing left to show. -/
theorem Streams.registry (h : Streams services round combined_output s o roundEnd s') :
    s'.registry = if round = 0 then s.registry.clearMcpListToolItems else s.registry := by
  obtain ⟨-, -, registry, -, -, -, settled⟩ := h
  rw [settled.registry, registry]

end

/-- A listing that a model's answer has. -/
def Said (services : Services) (list : McpListTools) : Prop :=
  ∃ request upstream, (services.upstream request).result = .ok upstream ∧ .mcpListTools list ∈ upstream.output

/-- Output items among which the only listings are the model's. -/
def SaidOnly (services : Services) (items : List OutputItem) : Prop :=
  ∀ list, .mcpListTools list ∈ items → Said services list

section
variable {services : Services} {stream_upstream : Bool} {round : Nat} {combined_output : List OutputItem}
  {combined_usage : Option ResponseUsage} {start s s' : State} {roundEnd : RoundEnd} {serde : SerdeJson}
  {registry : ToolRegistry} {results : List GatewayCallResult} {item_index : Nat} {item : OutputItem} {list : McpListTools}
  {payload : ResponsePayload}

/-- A listing of the public output is one of the upstream output. -/
theorem publicOutputItem_listing (calls : ∀ result ∈ results, ∀ list, result.public_output ≠ some (.mcpListTools list))
    (shown : publicOutputItem serde registry results item_index item = .ok (.mcpListTools list)) :
    item = .mcpListTools list := by
  cases item with
  | functionCall call =>
    exfalso
    unfold publicOutputItem at shown
    dsimp only at shown
    split at shown
    · cases shown
    · split at shown
      · split at shown
        · rename_i item made
          cases shown
          unfold ShellHandler.outputItem at made
          obtain ⟨_, -, made⟩ := Option.map_eq_some_iff.1 made
          cases made
        · cases shown
      · split at shown
        · cases found : results.find? (·.item_index = item_index) with
          | none =>
            rw [found] at shown
            cases shown
          | some result =>
            rw [found] at shown
            cases given : result.public_output with
            | none =>
              rw [Option.bind_some, given] at shown
              cases shown
            | some output =>
              rw [Option.bind_some, given] at shown
              cases shown
              exact calls result (List.mem_of_find?_eq_some found) list given
        · cases shown
  | _ => cases shown <;> rfl

/-- The handlers are those of the entries. -/
theorem ShowsCalls.of_entries {other : ToolRegistry} (handlers : ShowsCalls registry)
    (same : other.entries = registry.entries) : ShowsCalls other := by
  intro name entry binding found
  unfold ToolRegistry.lookup at found
  rw [same] at found
  exact handlers name entry binding found

/-- A round leaves the registry's entries alone, and its output has no listing but those of the model's answer. -/
theorem Round.said (h : Round services stream_upstream round combined_output combined_usage s roundEnd s')
    (handlers : ShowsCalls s.registry) :
    s'.registry.entries = s.registry.entries ∧
      ∃ rest, roundEnd.output = combined_output ++ rest ∧ SaidOnly services rest := by
  obtain ⟨compaction, preparation, answer, settled⟩ := h
  rename_i usage compacted prepared answered payload deferred_events
  have same : compacted.registry = s.registry := by
    rcases maybeCompactContext_ok compaction with ⟨-, same⟩ | ⟨items, spent, m, -, ran, same⟩
    · rw [same]
    · obtain ⟨body, -, sent⟩ := ran.sent
      rw [same, sent]
  have same' : prepared.registry = s.registry := by
    rw [← same]
    rcases prepareInitialReasoning_ok preparation with ⟨-, -, -, same⟩ | ⟨-, same⟩ <;> rw [same]
  obtain ⟨asked, -⟩ := fetchPayload_ok answer
  obtain ⟨upstream, given, injected⟩ := asked.answer
  have said : SaidOnly services payload.output := by
    intro list mem
    rw [injected] at mem
    exact ⟨_, upstream, given, mem⟩
  have entries : answered.registry.entries = s.registry.entries := by rw [asked.entries, same']
  refine ⟨by rw [settled.registry, entries], ?_⟩
  cases settled with
  | failed status => exact ⟨payload.output, rfl, said⟩
  | executed status ran shown ends =>
    rename_i results public_output m ctx
    obtain ⟨-, budget, budget', executed⟩ := executeRoundOutput_ran ran
    have calls := executeWithBudget_public (plan_shows (handlers.of_entries entries)) executed
    have output : roundEnd.output = combined_output ++ public_output := by cases ends <;> rfl
    refine ⟨public_output, output, ?_⟩
    intro list mem
    obtain ⟨p, among, public_⟩ := mem_of_mapM shown _ mem
    refine said list ?_
    rw [← publicOutputItem_listing calls public_]
    exact List.fst_mem_of_mem_zipIdx among

/-- What a turn has said by a round is its listings. -/
theorem Reaches.said (h : Reaches services stream_upstream start round combined_output combined_usage s)
    (handlers : ShowsCalls start.registry) :
    s.registry.entries = start.registry.entries ∧
      ∃ rest, combined_output = start.registry.mcp_list_tool_items.map .mcpListTools ++ rest ∧ SaidOnly services rest := by
  induction h with
  | first => exact ⟨rfl, [], (List.append_nil _).symm, by simp [SaidOnly]⟩
  | next before played ih =>
    obtain ⟨entries, first, same, said⟩ := ih
    obtain ⟨entries', rest, same', said'⟩ := (runRound_ok played).said (handlers.of_entries entries)
    refine ⟨entries'.trans entries, first ++ rest, ?_, ?_⟩
    · rw [← List.append_assoc, ← same]
      exact same'
    · intro list mem
      exact (List.mem_append.1 mem).elim (said list) (said' list)

end

section
variable {services : Services} {round : Nat} {combined_output : List OutputItem} {combined_usage : Option ResponseUsage}
  {start s s' : State} {o₀ : Outlet} {payload : ResponsePayload}

/-- The listings' events have been sent if the answer of the first round shows progress at once; no other event of the
gateway's own is about a listing. -/
structure SentListings (services : Services) (start : State) (o₀ o : Outlet) : Prop where
  events : ∃ roundEnd first rest, runRound services true 0 (start.registry.mcp_list_tool_items.map .mcpListTools) none start =
      .ok roundEnd first ∧
    o.own = o₀.own ++ (if announcesProgress none [] (translations services first) then
      discoveryEvents services.values start.registry.mcp_list_tool_items else []) ++ rest ∧
    ∀ entry ∈ rest, OfOther services.values entry

/-- The first round sends the listings of the registry. -/
theorem first_sends (fresh : start.delivery = .new (some o₀)) (quiet : o₀.progressed = false)
    (handlers : ShowsCalls start.registry) {roundEnd : RoundEnd}
    (played : runRound services true 0 (start.registry.mcp_list_tool_items.map .mcpListTools) none start =
      .ok roundEnd s') : ∃ o, s'.delivery = .new (some o) ∧ SentListings services start o₀ o := by
  obtain ⟨o, rest, delivery, own, other⟩ := ((runRound_ok played).streams fresh).own handlers
  rw [quiet, Bool.not_false, Bool.and_true] at own
  exact ⟨o, delivery, ⟨_, _, rest, played, own, other⟩⟩

/-- A later round sends no listing. -/
theorem later_sends {o : Outlet} {roundEnd : RoundEnd} (sent : SentListings services start o₀ o)
    (fresh : s.delivery = .new (some o)) (handlers : ShowsCalls s.registry) (none_left : s.registry.mcp_list_tool_items = [])
    (played : runRound services true round combined_output combined_usage s = .ok roundEnd s') :
    ∃ o', s'.delivery = .new (some o') ∧ SentListings services start o₀ o' := by
  obtain ⟨o', more, delivery, own, other⟩ := ((runRound_ok played).streams fresh).own handlers
  obtain ⟨firstEnd, first, rest, begun, before, others⟩ := sent.events
  have nothing : (if announcesProgress none [] (translations services s') && !o.progressed then
      discoveryEvents services.values s.registry.mcp_list_tool_items else []) = [] := by
    rw [none_left]
    exact ite_self _
  rw [nothing, List.append_nil, before, List.append_assoc] at own
  refine ⟨o', delivery, ⟨firstEnd, first, rest ++ more, begun, own, ?_⟩⟩
  intro entry mem
  exact (List.mem_append.1 mem).elim (others entry) (other entry)

/-- Before the first round nothing has been sent; after it no listing is left to be sent. -/
theorem Reaches.sends (h : Reaches services true start round combined_output combined_usage s)
    (fresh : start.delivery = .new (some o₀)) (quiet : o₀.progressed = false) (handlers : ShowsCalls start.registry) :
    (round = 0 ∧ combined_output = start.registry.mcp_list_tool_items.map .mcpListTools ∧ combined_usage = none ∧ s = start) ∨
    ∃ o, s.delivery = .new (some o) ∧ s.registry.mcp_list_tool_items = [] ∧ SentListings services start o₀ o := by
  induction h with
  | first => exact .inl ⟨rfl, rfl, rfl, rfl⟩
  | @next round combined_output output combined_usage usage s s' before played ih =>
    rcases ih with ⟨rfl, rfl, rfl, rfl⟩ | ⟨o, delivery, none_left, sent⟩
    · obtain ⟨o, delivery, sent⟩ := first_sends fresh quiet handlers played
      have registry := ((runRound_ok played).streams fresh).registry
      exact .inr ⟨o, delivery, by rw [registry, if_pos rfl]; rfl, sent⟩
    · have registry := ((runRound_ok played).streams delivery).registry
      obtain ⟨o', delivery', sent'⟩ :=
        later_sends sent delivery (handlers.of_entries (before.said handlers).1) none_left played
      refine .inr ⟨o', delivery', ?_, sent'⟩
      rw [registry]
      split
      · rfl
      · exact none_left

end

/-- A model that answers with some frames. -/
def docsServices (frames : List EventFrame) : Services := answering [⟨frames, none⟩] "completed"

end AgenticStack.Engine
