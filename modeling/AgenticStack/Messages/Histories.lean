import AgenticStack.Messages.LoopRuns
import AgenticStack.Messages.Request

/-!
# What the rounds send and search

Every round that is continued adds the turn and the user turn that answers its
calls. The calls of all rounds together stay within the searches of the request.
-/

namespace AgenticStack.Messages
set_option autoImplicit false
open Library

/-- The turn, how many of its calls may run, and what came of each. -/
structure ContinuedRound where
  content : List Json
  allowed_searches : Nat
  executed : List ExecutedCall

/-- What a round adds to the messages. -/
def ContinuedRound.messages (round : ContinuedRound) : List Json :=
  MessagesRequestContext.roundMessages round.content (round.executed.map (·.result))

/-- Each gateway call of the turn has one result, under its id and in its place. A call behind those that may run is answered with an
error, and not dispatched. -/
structure ContinuedRound.Answers (map : GatewayToolMap) (round : ContinuedRound) : Prop where
  ids : round.executed.map (·.result.tool_use_id) = (round.content.filter (isGatewayToolUse map)).map fun block => strField block "id"
  withheld : ∀ call ∈ round.executed.drop round.allowed_searches, call.dispatched = none ∧ call.result.is_error = true

/-- A round runs no more searches than it was allowed. -/
theorem ContinuedRound.Answers.dispatched_le {map : GatewayToolMap} {round : ContinuedRound} (h : round.Answers map) :
    (dispatchedCalls round.executed).length ≤ round.allowed_searches := by
  have behind : dispatchedCalls (round.executed.drop round.allowed_searches) = [] := by
    rw [dispatchedCalls, List.filterMap_eq_nil_iff]
    exact fun call member => (h.withheld call member).1
  have split : dispatchedCalls round.executed = dispatchedCalls (round.executed.take round.allowed_searches) := by
    rw [← List.append_nil (dispatchedCalls (List.take _ _)), ← behind, dispatchedCalls, dispatchedCalls, dispatchedCalls,
      ← List.filterMap_append, List.take_append_drop]
  rw [split]
  exact Nat.le_trans (List.length_filterMap_le _ _) (List.length_take_le _ _)

/-- As many calls of each round may run as are left of the budget. -/
def Reserved : WebSearchBudget → List ContinuedRound → Prop
  | _, [] => True
  | budget, round :: rounds =>
    round.allowed_searches = (budget.reserve round.executed.length).1 ∧ Reserved (budget.reserve round.executed.length).2 rounds

/-- The rounds take no more than the bound. -/
theorem Reserved.sum_le {budget : WebSearchBudget} {rounds : List ContinuedRound} (reserved : Reserved budget rounds) {bound : Nat}
    (limited : budget.remaining = some bound) : (rounds.map (·.allowed_searches)).sum ≤ bound := by
  induction rounds generalizing budget bound with
  | nil => exact Nat.zero_le bound
  | cons round rounds ih =>
    obtain ⟨allowed, rest⟩ := reserved
    rw [WebSearchBudget.reserve, limited] at allowed rest
    have later : (rounds.map (·.allowed_searches)).sum ≤ bound - min round.executed.length bound := ih rest rfl
    have now : round.allowed_searches = min round.executed.length bound := allowed
    rw [List.map_cons, List.sum_cons]
    omega

/-- The rounds that `traces` continued, from round `first` with the history `start` on: `turn` tells the turns upstream gave. -/
structure Answered (turn : Nat → List Json → Prop) (map : GatewayToolMap) (first : Nat) (start : List Json) (budget : WebSearchBudget)
    (traces : List RoundTrace) (rounds : List ContinuedRound) : Prop where
  answers : ∀ round ∈ rounds, round.Answers map
  turns : ∀ k (round : ContinuedRound), rounds[k]? = some round → turn (first + k) round.content
  continued : traces.length ≤ rounds.length + 1
  histories : ∀ k (trace : RoundTrace), traces[k]? = some trace →
    trace.body.get "messages" = some (.arr (start ++ (rounds.take k).flatMap ContinuedRound.messages))
  calls : traces.flatMap (·.calls) = rounds.flatMap fun round => dispatchedCalls round.executed
  reserved : Reserved budget rounds

section
variable {turn : Nat → List Json → Prop} {map : GatewayToolMap} {first : Nat} {start : List Json} {budget : WebSearchBudget}
  {traces : List RoundTrace} {rounds : List ContinuedRound}

/-- No round was answered. -/
theorem answered_nil : Answered turn map first start budget [] [] :=
  ⟨fun _ member => (nomatch member), fun _ _ found => (nomatch found), Nat.zero_le _, fun _ _ found => (nomatch found), rfl, trivial⟩

/-- The loop ends with this round. -/
theorem answered_last {body : Json} (history : body.get "messages" = some (.arr start)) :
    Answered turn map first start budget [⟨body, []⟩] [] := by
  refine ⟨fun _ member => (nomatch member), fun _ _ found => (nomatch found), Nat.le_refl _, fun k trace found => ?_, rfl, trivial⟩
  cases k with
  | zero =>
    cases found
    rw [List.take_nil, List.flatMap_nil, List.append_nil]
    exact history
  | succ k => cases found

/-- One more round before. -/
theorem answered_cons {body : Json} {round : ContinuedRound} (history : body.get "messages" = some (.arr start))
    (answers : round.Answers map) (given : turn first round.content)
    (allowed : round.allowed_searches = (budget.reserve round.executed.length).1)
    (rest : Answered turn map (first + 1) (start ++ round.messages) (budget.reserve round.executed.length).2 traces rounds) :
    Answered turn map first start budget (⟨body, dispatchedCalls round.executed⟩ :: traces) (round :: rounds) := by
  refine ⟨?_, fun k other found => ?_, Nat.succ_le_succ rest.continued, fun k trace found => ?_, ?_, allowed, rest.reserved⟩
  · exact List.forall_mem_cons.2 ⟨answers, rest.answers⟩
  · cases k with
    | zero =>
      cases found
      exact given
    | succ k =>
      have here : first + (k + 1) = first + 1 + k := by omega
      rw [here]
      exact rest.turns k other found
  · cases k with
    | zero =>
      cases found
      rw [List.take_zero, List.flatMap_nil, List.append_nil]
      exact history
    | succ k =>
      rw [List.take_succ_cons, List.flatMap_cons, ← List.append_assoc]
      exact rest.histories k trace found
  · rw [List.flatMap_cons, List.flatMap_cons, rest.calls]

/-- The rounds run no more searches than they were allowed. -/
theorem calls_le (answers : ∀ round ∈ rounds, round.Answers map) :
    (rounds.flatMap fun round => dispatchedCalls round.executed).length ≤ (rounds.map (·.allowed_searches)).sum := by
  induction rounds with
  | nil => exact Nat.le_refl 0
  | cons round rounds ih =>
    have first := (answers round List.mem_cons_self).dispatched_le
    have rest := ih fun other member => answers other (List.mem_cons_of_mem _ member)
    rw [List.flatMap_cons, List.length_append, List.map_cons, List.sum_cons]
    exact Nat.add_le_add first rest

/-- **All calls together** stay within the searches that may still run. -/
theorem Answered.dispatched_le (h : Answered turn map first start budget traces rounds) {bound : Nat}
    (limited : budget.remaining = some bound) :
    (traces.flatMap (·.calls)).length ≤ bound := by
  rw [h.calls]
  exact Nat.le_trans (calls_le h.answers) (h.reserved.sum_le limited)

end

/-- Who a message is of. -/
def role (message : Json) : Option Text := (message.at_ "role").asStr

/-- The blocks of a message. -/
def messageContent (message : Json) : List Json := ((message.at_ "content").asArray).getD []

/-- The gateway calls of an assistant turn. -/
def assistantCalls (map : GatewayToolMap) (message : Json) : List Json :=
  if role message = some (utf8 "assistant") then (messageContent message).filter (isGatewayToolUse map) else []

/-- The calls a user turn answers. -/
def resultIds (message : Json) : List Text :=
  if role message = some (utf8 "user") then
    ((messageContent message).filter fun block => (block.at_ "type").asStr = some (utf8 "tool_result")).map fun block =>
      strField block "tool_use_id"
  else []

/-- Each gateway call of an assistant turn is answered in the next. -/
def Paired (map : GatewayToolMap) : List Json → Prop
  | [] => True
  | message :: rest => (∀ block ∈ assistantCalls map message, ∃ next ∈ rest.head?, strField block "id" ∈ resultIds next) ∧ Paired map rest

section
variable {map : GatewayToolMap}

/-- Messages that are paired, one list after the other. -/
theorem Paired.append {messages later : List Json} (paired : Paired map messages) (paired' : Paired map later) :
    Paired map (messages ++ later) := by
  induction messages with
  | nil => exact paired'
  | cons message messages ih =>
    refine ⟨fun block member => ?_, ih paired.2⟩
    obtain ⟨next, here, answered⟩ := paired.1 block member
    have first : (messages ++ later).head? = some next := by
      rw [List.head?_append, Option.mem_def.1 here]
      rfl
    exact ⟨next, first, answered⟩

/-- The tool uses that a message answers. -/
theorem resultIds_results (results : List GatewayToolResult) :
    resultIds (.obj [("role", .str "user"), ("content", .arr (results.map GatewayToolResult.json))]) = results.map (·.tool_use_id) := by
  have typed : ∀ block ∈ results.map GatewayToolResult.json, decide ((block.at_ "type").asStr = some (utf8 "tool_result")) = true := by
    intro block member
    obtain ⟨result, _, rfl⟩ := List.mem_map.1 member
    rfl
  have user : role (.obj [("role", .str "user"), ("content", .arr (results.map GatewayToolResult.json))]) = some (utf8 "user") := rfl
  have content : messageContent (.obj [("role", .str "user"), ("content", .arr (results.map GatewayToolResult.json))]) =
    results.map GatewayToolResult.json := rfl
  rw [resultIds, if_pos user, content, List.filter_eq_self.2 typed, List.map_map]
  rfl

/-- **What a round adds** is answered. -/
theorem ContinuedRound.Answers.paired {round : ContinuedRound} (h : round.Answers map) : Paired map round.messages := by
  refine ⟨fun block member => ⟨_, rfl, ?_⟩, fun block member => ?_, trivial⟩
  · rw [resultIds_results, List.map_map]
    refine h.ids ▸ List.mem_map.2 ⟨block, ?_, rfl⟩
    exact member
  · cases member

/-- The messages of the rounds are paired. -/
theorem paired_rounds {rounds : List ContinuedRound} (answers : ∀ round ∈ rounds, round.Answers map) :
    Paired map (rounds.flatMap ContinuedRound.messages) := by
  induction rounds with
  | nil => trivial
  | cons round rounds ih =>
    rw [List.flatMap_cons]
    exact (answers round List.mem_cons_self).paired.append (ih fun other member => answers other (List.mem_cons_of_mem _ member))

/-- **Every history** of the rounds is answered, when the client's messages are. -/
theorem Answered.paired {turn : Nat → List Json → Prop} {first : Nat} {start : List Json} {budget : WebSearchBudget}
    {traces : List RoundTrace} {rounds : List ContinuedRound} (h : Answered turn map first start budget traces rounds)
    (paired : Paired map start) :
    ∀ trace ∈ traces, ∃ history, trace.body.get "messages" = some (.arr history) ∧ Paired map history := by
  intro trace member
  obtain ⟨k, found⟩ := List.mem_iff_getElem?.1 member
  exact ⟨_, h.histories k trace found, paired.append (paired_rounds fun round here => h.answers round (List.mem_of_mem_take here))⟩

end

section
variable {α : Type} {f : Nat → α → ExecutedCall} {calls : List α} {id : α → Text}

/-- Each result names its tool use. -/
theorem ids_mapIdx (answers : ∀ index call, (f index call).result.tool_use_id = id call) :
    (calls.mapIdx f).map (·.result.tool_use_id) = calls.map id := by
  induction calls generalizing f with
  | nil => rfl
  | cons call calls ih =>
    rw [List.mapIdx_cons, List.map_cons, List.map_cons, answers, ih]
    exact fun index call => answers (index + 1) call

/-- What is withheld is answered with an error. -/
theorem withheld_mapIdx {allowed : Nat} (withholds : ∀ index call, allowed ≤ index →
      (f index call).dispatched = none ∧ (f index call).result.is_error = true) :
    ∀ call ∈ (calls.mapIdx f).drop allowed, call.dispatched = none ∧ call.result.is_error = true := by
  intro call member
  obtain ⟨k, found⟩ := List.mem_iff_getElem?.1 member
  rw [List.getElem?_drop, List.getElem?_mapIdx] at found
  obtain ⟨argument, _, rfl⟩ := Option.map_eq_some_iff.1 found
  exact withholds (allowed + k) argument (Nat.le_add_right _ _)

end

section
variable (serde : SerdeJson) (tools : MessagesTools) (round allowed_searches : Nat)

/-- The result of a call names its tool use. -/
theorem executeGatewayCall_id (index : Nat) (block : Json) :
    (executeGatewayCall tools round allowed_searches index block).result.tool_use_id = strField block "id" := by
  unfold executeGatewayCall
  dsimp only
  split
  · rfl
  · split
    · rfl
    · rfl

/-- A call beyond the bound is not run. -/
theorem executeGatewayCall_withheld (index : Nat) (block : Json) (behind : allowed_searches ≤ index) :
    (executeGatewayCall tools round allowed_searches index block).dispatched = none ∧
      (executeGatewayCall tools round allowed_searches index block).result.is_error = true := by
  unfold executeGatewayCall
  dsimp only
  rw [if_pos behind]
  exact ⟨rfl, rfl⟩

/-- The result of a call names its tool use. -/
theorem executeStreamedCall_id (index : Nat) (call : StreamedCall) :
    (executeStreamedCall serde tools round allowed_searches index call).result.tool_use_id = call.id := by
  unfold executeStreamedCall
  split
  · rfl
  · split
    · rfl
    · rfl

/-- A call beyond the bound is not run. -/
theorem executeStreamedCall_withheld (index : Nat) (call : StreamedCall) (behind : allowed_searches ≤ index) :
    (executeStreamedCall serde tools round allowed_searches index call).dispatched = none ∧
      (executeStreamedCall serde tools round allowed_searches index call).result.is_error = true := by
  unfold executeStreamedCall
  rw [if_pos behind]
  exact ⟨rfl, rfl⟩

end

/-- A block counts as a gateway call just when it is one. -/
def BufferedBlock.Owned (map : GatewayToolMap) (buffered : BufferedBlock) : Prop :=
  buffered.is_gateway_tool = isGatewayToolUse map buffered.block

/-- A field of another name does not change whose tool a block uses. -/
theorem isGatewayToolUse_setField {map : GatewayToolMap} {block v : Json} {key : Text} (type : utf8 "type" ≠ key) (name : utf8 "name" ≠ key) :
    isGatewayToolUse map (setField block key v) = isGatewayToolUse map block := by
  rw [isGatewayToolUse, isGatewayToolUse, isToolUse, isToolUse, strField, strField, at_setField_ne type, at_setField_ne name]

/-- A text of another name does not change whose tool a block uses. -/
theorem isGatewayToolUse_appendStr {map : GatewayToolMap} {block : Json} {field : Text} {fragment : Option Json}
    (type : utf8 "type" ≠ field) (name : utf8 "name" ≠ field) :
    isGatewayToolUse map (appendStr block field fragment) = isGatewayToolUse map block := by
  unfold appendStr
  split
  · rfl
  · exact isGatewayToolUse_setField type name

/-- No delta touches what tells a call. -/
theorem BufferedBlock.Owned.applyDelta {map : GatewayToolMap} {buffered : BufferedBlock} (owned : buffered.Owned map) (delta : Json) :
    (buffered.applyDelta delta).Owned map := by
  unfold BufferedBlock.applyDelta
  dsimp only
  split
  · exact owned.trans (isGatewayToolUse_appendStr (by decide) (by decide)).symm
  · split
    · exact owned.trans (isGatewayToolUse_appendStr (by decide) (by decide)).symm
    · split
      · exact owned.trans (isGatewayToolUse_appendStr (by decide) (by decide)).symm
      · split
        · exact owned
        · exact owned

/-- Every block that is kept is owned as the map says. -/
structure MessagesStreamAccumulator.Owned (map : GatewayToolMap) (acc : MessagesStreamAccumulator) : Prop where
  same_map : acc.gateway_map = map
  blocks : ∀ entry ∈ acc.blocks, entry.2.Owned map

section
variable {map : GatewayToolMap} {acc : MessagesStreamAccumulator} {serde : SerdeJson}

/-- The opening of a block notes whose tool it uses. -/
theorem owned_onBlockStart (owned : acc.Owned map) (event : Json) : (acc.onBlockStart event).1.Owned map := by
  have kept : ∀ entry ∈ insertEntry acc.blocks (blockIndex event)
      ⟨event.at_ "content_block", [], isGatewayToolUse acc.gateway_map (event.at_ "content_block")⟩, entry.2.Owned map := by
    intro entry member
    rcases mem_insertEntry member with rfl | before
    · exact congrArg (isGatewayToolUse · _) owned.same_map
    · exact owned.blocks entry before
  unfold MessagesStreamAccumulator.onBlockStart
  dsimp only
  split
  · exact ⟨owned.same_map, kept⟩
  · exact ⟨owned.same_map, kept⟩

/-- A part of a block leaves whose tool it uses. -/
theorem owned_onBlockDelta (owned : acc.Owned map) (event : Json) : (acc.onBlockDelta event).1.Owned map := by
  unfold MessagesStreamAccumulator.onBlockDelta
  dsimp only
  split
  · rename_i buffered found
    refine ⟨owned.same_map, fun entry member => ?_⟩
    rcases mem_insertEntry member with rfl | before
    · obtain ⟨_, _, split, _⟩ := List.lookup_eq_some_iff.1 found
      refine (owned.blocks (blockIndex event, buffered) ?_).applyDelta _
      rw [split]
      exact List.mem_append_right _ List.mem_cons_self
    · exact owned.blocks entry before
  · exact owned

/-- Every event leaves noted whose tools the blocks use. -/
theorem owned_pushEvent (owned : acc.Owned map) (event : Json) : (acc.pushEvent event).1.Owned map := by
  unfold MessagesStreamAccumulator.pushEvent
  dsimp only
  split
  · unfold MessagesStreamAccumulator.onMessageStart
    split
    · exact owned
    · exact ⟨owned.same_map, owned.blocks⟩
  · split
    · exact owned_onBlockStart owned event
    · split
      · exact owned_onBlockDelta owned event
      · split
        · exact owned
        · split
          · exact ⟨owned.same_map, owned.blocks⟩
          · split
            · exact ⟨owned.same_map, owned.blocks⟩
            · split
              · exact ⟨owned.same_map, owned.blocks⟩
              · exact owned

/-- A round leaves noted whose tools the blocks use. -/
theorem owned_readRound (owned : acc.Owned map) (lines : List (Except Text Text)) : (readRound serde acc lines).acc.Owned map := by
  induction lines generalizing acc with
  | nil => exact owned
  | cons line lines ih =>
    cases line with
    | error error => exact owned
    | ok line =>
      have pushed : (acc.push serde line).1.Owned map := by
        unfold MessagesStreamAccumulator.push
        split
        · exact owned
        · exact owned_pushEvent owned _
      rw [readRound]
      dsimp only
      split
      · exact owned
      · split
        · exact pushed
        · exact ih pushed

/-- A round begins without blocks. -/
theorem owned_beginRound (same_map : acc.gateway_map = map) : acc.beginRound.Owned map := ⟨same_map, fun _ member => (nomatch member)⟩

/-- The call of a block is the tool use it stands for. -/
theorem call_of_owned {buffered : BufferedBlock} (owned : buffered.Owned map) :
    ([buffered.toBlock serde].filter (isGatewayToolUse map)).map (fun block => strField block "id") = buffered.call.toList.map (·.id) := by
  have same : isGatewayToolUse map (buffered.toBlock serde) = buffered.is_gateway_tool ∧
      strField (buffered.toBlock serde) "id" = strField buffered.block "id" := by
    unfold BufferedBlock.toBlock
    split
    · refine ⟨(isGatewayToolUse_setField (by decide) (by decide)).trans owned.symm, ?_⟩
      rw [strField, strField, at_setField_ne (by decide)]
    · exact ⟨owned.symm, rfl⟩
  rw [BufferedBlock.call, List.filter_singleton, same.1]
  cases buffered.is_gateway_tool with
  | true => exact congrArg (fun id => [id]) same.2
  | false => rfl

/-- **The calls of a streamed turn** are the gateway calls of its content. -/
theorem ids_takeRound (owned : acc.Owned map) :
    ((acc.takeRound serde).1.filter (isGatewayToolUse map)).map (fun block => strField block "id") = (acc.takeRound serde).2.map (·.id) := by
  have all : ∀ buffered ∈ acc.orderedBlocks, buffered.Owned map := by
    intro buffered member
    obtain ⟨entry, here, rfl⟩ := List.mem_map.1 member
    exact owned.blocks entry (List.mem_mergeSort.1 here)
  unfold MessagesStreamAccumulator.takeRound
  dsimp only
  revert all
  generalize acc.orderedBlocks = blocks
  intro all
  induction blocks with
  | nil => rfl
  | cons buffered rest ih =>
    rw [List.map_cons, ← List.singleton_append, List.filter_append, List.map_append, call_of_owned (all buffered List.mem_cons_self),
      ih fun other member => all other (List.mem_cons_of_mem _ member)]
    cases called : buffered.call with
    | none => rw [List.filterMap_cons_none called, Option.toList_none, List.map_nil, List.nil_append]
    | some call => rw [List.filterMap_cons_some called, Option.toList_some, List.map_cons, List.map_nil, List.map_cons, List.singleton_append]

end

section
variable (serde : SerdeJson) (tools : MessagesTools)

/-- A whole message that has the content and asks for it to be executed. -/
def WholeTurn (respond : Nat → ExecutorResult Text) (round : Nat) (content : List Json) : Prop :=
  ∃ text message gateway_calls, respond round = .ok text ∧ serde.fromStr text = some message ∧
    inspectMessage tools.map message = .execute content gateway_calls

/-- The blocks that the lines of a round are put together to. -/
def StreamedTurn (respond : Nat → ExecutorResult (List (Except Text Text))) (round : Nat) (content : List Json) : Prop :=
  ∃ (lines : List (Except Text Text)) (acc : MessagesStreamAccumulator), respond round = .ok lines ∧ acc.gateway_map = tools.map ∧ (readRound serde acc.beginRound lines).broken = none ∧
    (readRound serde acc.beginRound lines).panicked = false ∧
    content = ((readRound serde acc.beginRound lines).acc.takeRound serde).1

variable {serde tools}

/-- The calls of a message are its tool uses of the gateway. -/
theorem calls_of_inspectMessage {map : GatewayToolMap} {message : Json} {content gateway_calls : List Json}
    (goes_on : inspectMessage map message = .execute content gateway_calls) : gateway_calls = content.filter (isGatewayToolUse map) := by
  unfold inspectMessage at goes_on
  split at goes_on
  · cases goes_on
  · split at goes_on
    · cases goes_on
    · dsimp only at goes_on
      split at goes_on
      · cases goes_on
      · split at goes_on
        · cases goes_on
        · cases goes_on
          rfl

/-- **The rounds of the loop over whole messages.** -/
theorem answered_messagesRounds (respond : Nat → ExecutorResult Text) (rounds round : Nat) (ctx : MessagesRequestContext) :
    ∃ continued, Answered (WholeTurn serde tools respond) tools.map round ctx.messages ctx.web_search_budget
      (messagesRounds serde tools respond rounds round ctx).1 continued := by
  induction rounds generalizing round ctx with
  | zero => exact ⟨[], answered_nil⟩
  | succ rounds ih =>
    have last : Answered (WholeTurn serde tools respond) tools.map round ctx.messages ctx.web_search_budget
        [⟨ctx.upstreamBody, []⟩] [] := answered_last (get_upstreamBody ctx)
    unfold messagesRounds
    split
    · exact ⟨[], last⟩
    · rename_i text responded
      split
      · exact ⟨[], last⟩
      · rename_i message parsed
        split
        · exact ⟨[], last⟩
        · rename_i content gateway_calls goes_on
          obtain ⟨later, rest⟩ := ih (round + 1) ((ctx.reserveSearches gateway_calls.length).2.appendRound content
            ((executeGatewayCalls tools round (ctx.reserveSearches gateway_calls.length).1 gateway_calls).map (·.result)))
          let turned : ContinuedRound := ⟨content, (ctx.web_search_budget.reserve gateway_calls.length).1,
            executeGatewayCalls tools round (ctx.web_search_budget.reserve gateway_calls.length).1 gateway_calls⟩
          have answers : turned.Answers tools.map := by
            constructor
            · rw [← calls_of_inspectMessage goes_on]
              exact ids_mapIdx fun index block => executeGatewayCall_id tools round _ index block
            · exact withheld_mapIdx fun index block behind => executeGatewayCall_withheld tools round _ index block behind
          have given : WholeTurn serde tools respond round turned.content :=
            ⟨text, message, gateway_calls, responded, parsed, goes_on⟩
          have all : turned.executed.length = gateway_calls.length := List.length_mapIdx
          have allowed : turned.allowed_searches = (ctx.web_search_budget.reserve turned.executed.length).1 := by rw [all]
          refine ⟨turned :: later, answered_cons (get_upstreamBody ctx) answers given allowed ?_⟩
          rw [all]
          exact rest

/-- **The rounds of the streaming loop.** -/
theorem answered_streamRounds (respond : Nat → ExecutorResult (List (Except Text Text))) (rounds round : Nat) (ctx : MessagesRequestContext)
    (acc : MessagesStreamAccumulator) (same_map : acc.gateway_map = tools.map) :
    ∃ continued, Answered (StreamedTurn serde tools respond) tools.map round ctx.messages ctx.web_search_budget
      (streamRounds serde tools respond rounds round ctx acc).1 continued := by
  induction rounds generalizing round ctx acc with
  | zero => exact ⟨[], answered_nil⟩
  | succ rounds ih =>
    have last : Answered (StreamedTurn serde tools respond) tools.map round ctx.messages ctx.web_search_budget
        [⟨ctx.upstreamBody, []⟩] [] := answered_last (get_upstreamBody ctx)
    unfold streamRounds
    split
    · exact ⟨[], last⟩
    · rename_i lines responded
      dsimp only
      split
      · exact ⟨[], last⟩
      · rename_i unbroken
        split
        · exact ⟨[], last⟩
        · rename_i calm
          split
          · exact ⟨[], last⟩
          · split
            · exact ⟨[], last⟩
            · have owned : (readRound serde acc.beginRound lines).acc.Owned tools.map := owned_readRound (owned_beginRound same_map) lines
              generalize taken : (readRound serde acc.beginRound lines).acc.takeRound serde = turn
              obtain ⟨content, calls⟩ := turn
              have ids : (content.filter (isGatewayToolUse tools.map)).map (fun block => strField block "id") = calls.map (·.id) := by
                have gathered : _ = _ := @ids_takeRound tools.map _ serde owned
                rw [taken] at gathered
                exact gathered
              obtain ⟨later, rest⟩ := ih (round + 1) ((ctx.reserveSearches calls.length).2.appendRound content
                ((executeStreamedCalls serde tools round (ctx.reserveSearches calls.length).1 calls).map (·.result)))
                { (readRound serde acc.beginRound lines).acc with blocks := [] } owned.same_map
              let turned : ContinuedRound := ⟨content, (ctx.web_search_budget.reserve calls.length).1,
                executeStreamedCalls serde tools round (ctx.web_search_budget.reserve calls.length).1 calls⟩
              have answers : turned.Answers tools.map := by
                constructor
                · rw [ids]
                  exact ids_mapIdx fun index call => executeStreamedCall_id serde tools round _ index call
                · exact withheld_mapIdx fun index call behind => executeStreamedCall_withheld serde tools round _ index call behind
              have given : StreamedTurn serde tools respond round turned.content := by
                refine ⟨lines, acc, responded, same_map, unbroken, eq_false_of_ne_true calm, ?_⟩
                rw [taken]
              have all : turned.executed.length = calls.length := List.length_mapIdx
              have allowed : turned.allowed_searches = (ctx.web_search_budget.reserve turned.executed.length).1 := by rw [all]
              refine ⟨turned :: later, answered_cons (get_upstreamBody ctx) answers given allowed ?_⟩
              rw [all]
              exact rest

end

/-- The rounds of a request with these messages and declared bounds: no more calls than the least bound are dispatched, and every
history is the messages of the client with a turn and its results for each round before. -/
structure SearchesWithin (turn : Nat → List Json → Prop) (map : GatewayToolMap) (messages : List Json) (declared : List Nat)
    (traces : List RoundTrace) : Prop where
  dispatched : ∀ bound ∈ declared, (traces.flatMap (·.calls)).length ≤ bound
  answered : ∃ rounds, Answered turn map 0 messages ⟨declared.min?⟩ traces rounds
  paired : Paired map messages → ∀ trace ∈ traces, ∃ history, trace.body.get "messages" = some (.arr history) ∧ Paired map history

/-- The searches of a run stay within the bound. -/
theorem searchesWithin_of_answered {turn : Nat → List Json → Prop} {map : GatewayToolMap} {messages : List Json} {declared : List Nat}
    {traces : List RoundTrace} {rounds : List ContinuedRound} (answered : Answered turn map 0 messages ⟨declared.min?⟩ traces rounds) :
    SearchesWithin turn map messages declared traces := by
  refine ⟨fun bound member => ?_, ⟨rounds, answered⟩, answered.paired⟩
  obtain ⟨least, found⟩ := Option.isSome_iff_exists.1 (List.isSome_min?_of_mem member)
  exact Nat.le_trans (answered.dispatched_le found) ((List.min?_eq_some_iff.1 found).2 bound member)

section
variable {raw : List (Text × Json)} {messages : List Json} {has_messages : raw.lookup (utf8 "messages") = some (.arr messages)}
  {ctx : MessagesRequestContext}

/-- The bound is the smallest of those declared. -/
theorem budget_of_fromParts (accepted : MessagesRequestContext.fromParts raw messages has_messages = .ok ctx) :
    ctx.web_search_budget = ⟨(declaredMaxUses raw).min?⟩ := by
  obtain ⟨_, from_set, below⟩ := MessagesRequestContext.fromParts_eq_ok accepted
  generalize ctx.web_search_budget = budget at from_set below
  obtain ⟨remaining⟩ := budget
  cases remaining with
  | none =>
    have unset : declaredMaxUses raw = [] := List.eq_nil_iff_forall_not_mem.2 fun bound member => by
      obtain ⟨_, absent, _⟩ := below bound member
      cases absent
    rw [unset]
    rfl
  | some least =>
    have found : (declaredMaxUses raw).min? = some least := by
      refine List.min?_eq_some_iff.2 ⟨from_set least rfl, fun bound member => ?_⟩
      obtain ⟨_, same, le⟩ := below bound member
      cases same
      exact le
    rw [found]

/-- **Both loops stay within the least bound a request declares**, and answer every call of a turn they continue, whatever upstream and
the tools answer. -/
theorem searches_within (serde : SerdeJson) (tools : MessagesTools) (respond : Nat → ExecutorResult Text)
    (lines : Nat → ExecutorResult (List (Except Text Text)))
    (accepted : MessagesRequestContext.fromParts raw messages has_messages = .ok ctx) :
    SearchesWithin (WholeTurn serde tools respond) tools.map messages (declaredMaxUses raw) (runMessagesLoop serde tools respond ctx).1 ∧
      SearchesWithin (StreamedTurn serde tools lines) tools.map messages (declaredMaxUses raw)
        (runMessagesStream serde tools lines ctx).1 := by
  have kept := (MessagesRequestContext.fromParts_eq_ok accepted).1
  have budget := budget_of_fromParts accepted
  constructor
  · obtain ⟨rounds, answered⟩ := @answered_messagesRounds serde tools respond MAX_GATEWAY_TOOL_ROUNDS 0 (ctx.forceStream false)
    have start : (ctx.forceStream false).messages = messages := kept
    have left : (ctx.forceStream false).web_search_budget = ⟨(declaredMaxUses raw).min?⟩ := budget
    rw [start, left] at answered
    exact searchesWithin_of_answered answered
  · have start : (ctx.forceStream true).messages = messages := kept
    have left : (ctx.forceStream true).web_search_budget = ⟨(declaredMaxUses raw).min?⟩ := budget
    unfold runMessagesStream
    split
    · refine searchesWithin_of_answered (answered_last (get_upstreamBody (ctx.forceStream true) |>.trans ?_))
      rw [start]
    · obtain ⟨rounds, answered⟩ := @answered_streamRounds serde tools lines MAX_GATEWAY_TOOL_ROUNDS 0 (ctx.forceStream true)
        (.new tools.map) rfl
      rw [start, left] at answered
      exact searchesWithin_of_answered answered

end

/-- The declaration of a search with a bound. -/
def nativeDeclaration (max_uses : Nat) : Json :=
  .obj [("type", .str "web_search_20250305"), ("name", .str "web_search"), ("max_uses", .num (.posInt max_uses))]

/-- A search without a bound of its own, and a tool of the client's. -/
def otherTools : List Json :=
  [.obj [("type", .str "web_search_20250305"), ("name", .str "web_search")],
    .obj [("name", .str "clock"), ("input_schema", .obj [("type", .str "object")])]]

/-- The question of the run. -/
def question : Json := .obj [("role", .str "user"), ("content", .str "Which Rust?")]

/-- An assistant turn with a search. -/
def openSearch : Json := .obj [("role", .str "assistant"), ("content", .arr [.obj searchFields])]

/-- A request that declares its searches. -/
def declaring (messages : List Json) : List (Text × Json) :=
  [("model", .str "m"), ("max_tokens", .num (.posInt 1024)), ("messages", .arr messages),
    ("tools", .arr (nativeDeclaration 3 :: otherTools ++ [nativeDeclaration 1]))]

/-- The request of these messages, with one search left. -/
def declared (messages : List Json) : MessagesRequestContext where
  raw := insertField (declaring messages) "tools" (.arr ((nativeDeclaration 3 :: otherTools ++ [nativeDeclaration 1]).map normalizeTool))
  messages := messages
  has_messages := rfl
  web_search_budget := ⟨some 1⟩

/-- The searches of the run stay within the bound. -/
theorem searches_within_declared :
    SearchesWithin (WholeTurn plainSerde searchTools fun round => .ok (messageText (searchThenAnswer round))) searchTools.map [question] [3, 1]
        (runMessagesLoop plainSerde searchTools (fun round => .ok (messageText (searchThenAnswer round))) (declared [question])).1 ∧
      SearchesWithin (StreamedTurn plainSerde searchTools fun round => .ok (turnLines (searchThenAnswer round))) searchTools.map [question]
        [3, 1] (runMessagesStream plainSerde searchTools (fun round => .ok (turnLines (searchThenAnswer round))) (declared [question])).1 :=
  @searches_within (declaring [question]) [question] rfl (declared [question]) plainSerde searchTools
    (fun round => .ok (messageText (searchThenAnswer round))) (fun round => .ok (turnLines (searchThenAnswer round))) rfl

set_option maxRecDepth 20000 in
/-- The messages of a client are sent on as they are: a search that it left without a result has none in the first history. -/
theorem openSearch_unanswered :
    MessagesRequestContext.fromParts (declaring [question, openSearch]) [question, openSearch] rfl = .ok (declared [question, openSearch]) ∧
    (∃ trace ∈ (runMessagesLoop plainSerde searchTools (fun round => .ok (messageText (searchThenAnswer round)))
        (declared [question, openSearch])).1, trace.body.get "messages" = some (.arr [question, openSearch])) ∧
    (∃ trace ∈ (runMessagesStream plainSerde searchTools (fun round => .ok (turnLines (searchThenAnswer round)))
        (declared [question, openSearch])).1, trace.body.get "messages" = some (.arr [question, openSearch])) ∧
    ¬ Paired searchTools.map [question, openSearch] := by
  refine ⟨rfl, ⟨_, .head _, rfl⟩, ⟨_, .head _, rfl⟩, fun paired => ?_⟩
  obtain ⟨_, last, _⟩ := paired
  obtain ⟨next, absent, _⟩ := last (.obj searchFields) (.head _)
  cases absent

end AgenticStack.Messages
