import AgenticStack.Executor.Recording
import AgenticStack.Executor.Rehydrate
import AgenticStack.Library.Announce
import AgenticStack.Tool.Preparation

/-!
# Listings along a chain of turns

A turn shows the listings that its history does not have yet, and what it shows
is in the history of the next turn, whichever way the turns are stored and
whether or not the history is compacted on the way.
-/

namespace AgenticStack.Engine
set_option autoImplicit false
open Library

section
variable {services : Services} {stream_upstream : Bool} {round : Nat} {combined_output : List OutputItem}
  {combined_usage : Option ResponseUsage} {start s s' : State} {payload : ResponsePayload} {roundEnd : RoundEnd}

/-- The listings a turn shows: none when it is only asked for a compaction. -/
def State.announced (start : State) : List McpListTools :=
  if start.request.original_request.input.hasCompactionTrigger then [] else start.registry.mcp_list_tool_items

/-- The output so far at the end of a round. -/
def RoundEnd.output : RoundEnd → List OutputItem
  | .finished payload => payload.output
  | .continue combined_output _ => combined_output

/-- A round only adds to the output. -/
theorem Round.output (h : Round services stream_upstream round combined_output combined_usage s roundEnd s') :
    combined_output <+: roundEnd.output := by
  obtain ⟨-, -, -, settled⟩ := h
  cases settled with
  | failed status => exact List.prefix_append _ _
  | executed status ran shown ends => cases ends <;> exact List.prefix_append _ _

/-- The output begins with the listings of the registry. -/
theorem Reaches.output (h : Reaches services stream_upstream start round combined_output combined_usage s) :
    start.registry.mcp_list_tool_items.map .mcpListTools <+: combined_output := by
  induction h with
  | first => exact List.prefix_refl _
  | next before played ih => exact ih.trans (runRound_ok played).output

/-- The listings come first in the output. -/
theorem announced_output (ran : runUntilGatewayToolsComplete services stream_upstream start = .ok (some payload) s') :
    start.announced.map .mcpListTools <+: payload.output := by
  unfold runUntilGatewayToolsComplete at ran
  obtain ⟨_, _, read, ran⟩ := bind_ok.1 ran
  cases read
  unfold State.announced
  by_cases trigger : start.request.original_request.input.hasCompactionTrigger = true
  · rw [if_pos trigger]
    exact List.nil_prefix
  · rw [if_neg trigger] at ran ⊢
    obtain ⟨round, output, usage, m, _, same, reached, played⟩ := run_ok ran
    cases same
    exact reached.output.trans (runRound_ok played).output

end

section
variable {items more : List InputItem} {list : McpListTools} {ctx : RequestContext} {output : List OutputItem}

/-- A listing is one of the items. -/
theorem mem_listings : list ∈ listings items ↔ .mcpListTools list ∈ items := by
  unfold listings
  rw [List.mem_filterMap]
  constructor
  · rintro ⟨item, mem, shown⟩
    cases item with
    | mcpListTools list' =>
      cases shown
      exact mem
    | _ => cases shown
  · intro mem
    exact ⟨_, mem, rfl⟩

/-- The listings of two lists are those of both. -/
theorem mem_listings_append : list ∈ listings (items ++ more) ↔ list ∈ listings items ∨ list ∈ listings more := by
  simp only [mem_listings, List.mem_append]

/-- A history keeps the listings of its items. -/
theorem mem_listings_canonical : list ∈ listings (canonicalSessionHistory items) ↔ list ∈ listings items := by
  have kept : ∀ items, list ∈ listings items ↔ .mcpListTools list ∈ items.filter InputItem.isMcpListTools := by
    intro items
    rw [mem_listings, List.mem_filter]
    exact (and_iff_left rfl).symm
  rw [kept, filter_mcp_canonical, ← kept]

/-- A listing in the output is stored, whatever else has been recorded before. -/
theorem listing_saved (shown : .mcpListTools list ∈ output) : list ∈ listings (intoInputItems (ctx.savedItems output)) := by
  rw [mem_listings]
  have retained : OutputItem.mcpListTools list ∈ retainedOutputs ctx.continuation output := by
    obtain ⟨index, found⟩ := List.mem_iff_getElem?.1 shown
    refine List.mem_map.2 ⟨(.mcpListTools list, index), List.mem_filter.2 ⟨?_, ?_⟩, rfl⟩
    · exact List.mem_zipIdx_iff_getElem?.2 found
    · cases ctx.continuation with
      | none => rfl
      | some lease => simp [ResponseContinuation.retainsOutput]
  exact mem_intoInputItems (List.mem_append_right _ (List.mem_map_of_mem retained)) rfl rfl

/-- A checkpoint keeps the listings of its history. -/
theorem listing_parentItems {lease : ResponseContinuation} {parent : ResponseCheckpoint} :
    list ∈ listings (lease.parentItems (some parent)) ↔ list ∈ listings parent.history := by
  rw [mem_listings, mem_listings]
  show _ ∈ parent.history.filter _ ↔ _
  rw [List.mem_filter]
  exact and_iff_left (by simp [InputItem.isMcpListTools])

end

/-- What the next turn continues: nothing, the rows stored for a chain of responses or a conversation, or the checkpoint
of a session. -/
inductive Continued where
  | new
  | stored (rows : List InOutItem)
  | cached (checkpoint : ResponseCheckpoint)

/-- The history a turn continues. -/
def Continued.history : Continued → List InputItem
  | .new => []
  | .stored rows => intoInputItems rows
  | .cached checkpoint => checkpoint.history

/-- What the tools of a turn are prepared with: the settings in effect, what is restored of an earlier search, and the
services the registry is built with. -/
structure ToolSetup where
  readTool : Json → Tools.ResponsesTool
  tools : Option (List Tools.ResponsesTool)
  tool_choice : Option Tools.ToolChoice
  parallel_tool_calls : Option Bool
  restored_loaded_tools : List Tools.ResponsesTool
  restore_only_declared : Bool
  services : Tools.RegistryServices
  executors : Tools.GatewayExecutors
  budget : Nat

/-- The request with its history, before the tools are prepared. -/
def ToolSetup.request (setup : ToolSetup) (input : ResponsesInput) : Tools.RequestPayload :=
  ⟨input, setup.tools, setup.tool_choice, setup.parallel_tool_calls⟩

/-- A turn that ended well: the new input, the preparation of the tools and the registry built of them, and the run of
the engine. -/
structure ListingTurn where
  input : ResponsesInput
  setup : ToolSetup
  prepared : Tools.RequestPayload
  search : Option Tools.ToolSearchState
  built : Tools.BuiltRegistry
  services : Services
  stream_upstream : Bool
  start : State
  finish : State
  payload : ResponsePayload

section
variable (sameTools : List McpListTool → List McpListTool → Bool)

/-- The turn runs on a history: its tools are prepared and, unless it is only asked for a compaction, its registry is
built of them. -/
structure ListingTurn.RunsOn (turn : ListingTurn) (input : ResponsesInput) : Prop where
  prepares : Tools.prepareRequest turn.setup.readTool (turn.setup.request input) turn.setup.restored_loaded_tools
    turn.setup.restore_only_declared = .ok (turn.prepared, turn.search)
  builds : turn.start.request.original_request.input.hasCompactionTrigger = false →
    Tools.buildToolRegistry turn.setup.services turn.prepared turn.search turn.setup.executors turn.setup.budget = .ok turn.built ∧
      turn.start.registry = turn.built.cacheListedMcpTools sameTools turn.prepared.input
  input : turn.start.request.enriched_request.input = turn.prepared.input
  ran : runUntilGatewayToolsComplete turn.services turn.stream_upstream turn.start = .ok (some turn.payload) turn.finish

/-- The servers whose listings the turn shows. -/
def ListingTurn.announced (turn : ListingTurn) : List (Text × McpListTools) :=
  if turn.start.request.original_request.input.hasCompactionTrigger then []
  else turn.built.mcp_list_tools_items.filter fun server =>
    !listedBefore sameTools (Tools.inputItems turn.prepared.input) server.1 server.2

/-- A turn, or a change between the two ways to continue. -/
inductive ContinuesTo : Continued → List (Text × McpListTools) → Continued → Prop where
  | first (turn : ListingTurn) (runs : turn.RunsOn sameTools turn.input) :
      ContinuesTo .new (turn.announced sameTools) (.stored (turn.finish.request.savedItems turn.payload.output))
  | opened {lease : ResponseContinuation} (turn : ListingTurn) (metadata : ResponseMetadata) (durable : Bool)
      (runs : turn.RunsOn sameTools turn.input) (leased : turn.finish.request.continuation = some lease) :
      ContinuesTo .new (turn.announced sameTools)
        (.cached (lease.checkpoint none turn.finish.request.response_id turn.finish.request.conversation_id metadata
          (turn.finish.request.savedItems turn.payload.output) durable))
  | response {rows : List InOutItem} {items : List InputItem} (turn : ListingTurn)
      (read : fromResponse rows turn.input = .ok items) (runs : turn.RunsOn sameTools (.items items)) :
      ContinuesTo (.stored rows) (turn.announced sameTools)
        (.stored (rows ++ turn.finish.request.savedItems turn.payload.output))
  | conversation {rows : List InOutItem} {items : List InputItem} (turn : ListingTurn)
      (read : fromConversation rows turn.input = .ok items) (runs : turn.RunsOn sameTools (.items items)) :
      ContinuesTo (.stored rows) (turn.announced sameTools)
        (.stored (rows ++ turn.finish.request.savedItems turn.payload.output))
  | session {parent : ResponseCheckpoint} {items : List InputItem} {lease : ResponseContinuation} (turn : ListingTurn)
      (metadata : ResponseMetadata) (durable : Bool) (read : fromSessionResponse parent.history turn.input = .ok items)
      (runs : turn.RunsOn sameTools (.items items)) (leased : turn.finish.request.continuation = some lease) :
      ContinuesTo (.cached parent) (turn.announced sameTools)
        (.cached (lease.checkpoint (some parent) turn.finish.request.response_id turn.finish.request.conversation_id metadata
          (turn.finish.request.savedItems turn.payload.output) durable))
  | restored {rows : List InOutItem} {checkpoint : ResponseCheckpoint} (history : checkpoint.history = restoredHistory rows) :
      ContinuesTo (.stored rows) [] (.cached checkpoint)
  | imaged {rows : List InOutItem} {checkpoint : ResponseCheckpoint} (history : checkpoint.history = restoredHistory rows) :
      ContinuesTo (.cached checkpoint) [] (.stored rows)

/-- A successful listing of the same server with the same tools. -/
def Relists (previous current : McpListTools) : Prop :=
  previous.server_label = current.server_label ∧ repeatsListing sameTools previous current = true

/-- A listing of a server declared under a label without white space at its ends, and an equal listing before it. -/
def Repeats (previous : McpListTools) (server : Text × McpListTools) : Prop :=
  trim server.1 = server.1 ∧ Relists sameTools previous server.2

variable {sameTools} {turn : ListingTurn} {input : ResponsesInput} {first last : Continued}
  {announced : List (Text × McpListTools)} {steps : List (List (Text × McpListTools))}

/-- What the engine shows are the listings of these servers. -/
theorem ListingTurn.RunsOn.shows (runs : turn.RunsOn sameTools input) :
    turn.start.announced = (turn.announced sameTools).map Prod.snd := by
  unfold State.announced ListingTurn.announced
  cases trigger : turn.start.request.original_request.input.hasCompactionTrigger with
  | true => rfl
  | false =>
    obtain ⟨built, registry⟩ := runs.builds trigger
    obtain ⟨lists, once⟩ := Tools.buildToolRegistry_lists built
    rw [← lists.labels] at once
    rw [if_neg Bool.false_ne_true, if_neg Bool.false_ne_true, registry, Tools.cached_listings once]

/-- **A turn shows nothing that its history has**, of a server whose label has no white space at its ends. -/
theorem ListingTurn.RunsOn.fresh (runs : turn.RunsOn sameTools input) :
    ∀ server ∈ turn.announced sameTools, ∀ previous ∈ listings (Tools.inputItems input), ¬ Repeats sameTools previous server := by
  intro server shown previous listed repeats
  unfold ListingTurn.announced at shown
  cases trigger : turn.start.request.original_request.input.hasCompactionTrigger with
  | true =>
    rw [trigger, if_pos rfl] at shown
    cases shown
  | false =>
    rw [trigger, if_neg Bool.false_ne_true] at shown
    obtain ⟨declared, unseen⟩ := List.mem_filter.1 shown
    obtain ⟨lists, -⟩ := Tools.buildToolRegistry_lists (runs.builds trigger).1
    obtain ⟨plain, label, same⟩ := repeats
    have succeeded : server.2.error = none := by
      unfold repeatsListing at same
      simp only [Bool.and_eq_true, Option.isNone_iff_eq_none] at same
      exact same.1.1
    have labelled := lists.trimmed server declared succeeded
    have key : previous.server_label = server.1 := by rw [label, labelled, plain]
    have kept : previous ∈ listings (Tools.inputItems turn.prepared.input) := by
      rw [Tools.prepareRequest_listings runs.prepares]
      exact listed
    have seen : listedBefore sameTools (Tools.inputItems turn.prepared.input) server.1 server.2 = true :=
      List.any_eq_true.2 ⟨previous, kept, by rw [same, key]; simp⟩
    rw [seen] at unseen
    cases unseen

/-- What a turn shows is in what it stores. -/
theorem ListingTurn.RunsOn.saved (runs : turn.RunsOn sameTools input) : ∀ server ∈ turn.announced sameTools,
    server.2 ∈ listings (intoInputItems (turn.finish.request.savedItems turn.payload.output)) := by
  intro server shown
  have here : server.2 ∈ turn.start.announced := by
    rw [runs.shows]
    exact List.mem_map_of_mem shown
  exact listing_saved ((announced_output runs.ran).subset (List.mem_map_of_mem here))

/-- The input of a turn keeps the listings of the history it continues. -/
theorem listings_resumed {history items : List InputItem}
    (read : requireOutputs (history ++ input.toItems) = .ok items) : ∀ list ∈ listings history, list ∈ listings items := by
  intro list mem
  rw [(requireOutputs_eq_ok_iff.1 read).2]
  exact mem_listings_append.2 (.inl mem)

/-- **One step of a chain** keeps the records, records what it shows, and shows nothing that is recorded. -/
theorem ContinuesTo.announces (step : ContinuesTo sameTools first announced last) :
    Announces (fun continued : Continued => listings continued.history) Prod.snd (Repeats sameTools) first announced last := by
  have stored {rows : List InOutItem} {turn : ListingTurn} {items : List InputItem}
      (resumed : ∀ list ∈ listings (intoInputItems rows), list ∈ listings items) (runs : turn.RunsOn sameTools (.items items)) :
      Announces (fun continued : Continued => listings continued.history) Prod.snd (Repeats sameTools) (.stored rows)
        (turn.announced sameTools) (.stored (rows ++ turn.finish.request.savedItems turn.payload.output)) := by
    refine ⟨?_, ?_, ?_⟩
    · intro list mem
      show list ∈ listings (intoInputItems _)
      rw [intoInputItems_append]
      exact mem_listings_append.2 (.inl mem)
    · intro server shown
      show server.2 ∈ listings (intoInputItems _)
      rw [intoInputItems_append]
      exact mem_listings_append.2 (.inr (runs.saved server shown))
    · intro server shown previous mem
      exact runs.fresh server shown previous (resumed previous mem)
  have started {turn : ListingTurn} (runs : turn.RunsOn sameTools turn.input)
      (kept : ∀ list ∈ listings (intoInputItems (turn.finish.request.savedItems turn.payload.output)),
        list ∈ listings last.history) :
      Announces (fun continued : Continued => listings continued.history) Prod.snd (Repeats sameTools) .new (turn.announced sameTools)
        last := by
    refine ⟨fun list mem => absurd mem List.not_mem_nil, ?_, ?_⟩
    · intro server shown
      exact kept server.2 (runs.saved server shown)
    · intro server shown previous mem
      exact absurd mem List.not_mem_nil
  cases step with
  | first turn runs => exact started runs fun list mem => mem
  | opened turn metadata durable runs leased =>
    exact started runs fun list mem => mem_listings_canonical.2 (mem_listings_append.2 (.inr mem))
  | response turn read runs => exact stored (listings_resumed read) runs
  | conversation turn read runs => exact stored (listings_resumed read) runs
  | @session parent items lease turn metadata durable read runs leased =>
    refine ⟨?_, ?_, ?_⟩
    · intro list mem
      refine mem_listings_canonical.2 (mem_listings_append.2 (.inl ?_))
      exact listing_parentItems.2 mem
    · intro server shown
      exact mem_listings_canonical.2 (mem_listings_append.2 (.inr (runs.saved server shown)))
    · intro server shown previous mem
      refine runs.fresh server shown previous ?_
      rw [(requireOutputs_eq_ok_iff.1 read).2]
      exact mem_listings_canonical.2 (mem_listings_append.2 (.inl mem))
  | @restored rows checkpoint history =>
    refine ⟨?_, by simp, by simp⟩
    intro list mem
    show list ∈ listings checkpoint.history
    rw [history]
    exact mem_listings_canonical.2 mem
  | @imaged rows checkpoint history =>
    refine ⟨?_, by simp, by simp⟩
    intro list mem
    have mem : list ∈ listings checkpoint.history := mem
    rw [history] at mem
    exact mem_listings_canonical.1 mem

end

end AgenticStack.Engine
