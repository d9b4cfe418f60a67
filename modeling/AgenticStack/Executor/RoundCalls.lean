import AgenticStack.Executor.Durable
import AgenticStack.Executor.GatewayLoop
import AgenticStack.Executor.PublicIds
import AgenticStack.Tool.Handlers

/-!
# The calls of a round

A call of the model belongs to the gateway or to the client. What is recorded
of a round and what is public of it are two readings of its answer: in the one
the calls stand in their place or the gateway's calls alone, each with its
output; in the other a call of the gateway's gives way to the item of its
handler, or stays as it is when there is none.
-/

namespace AgenticStack
set_option autoImplicit false
open Library

/-- The id of a call that is read back as a function call. -/
def OutputItem.storedCall : OutputItem → Option Text
  | .functionCall call => some call.call_id
  | .customToolCall call => some call.call_id
  | .shellCall call => some call.call_id
  | _ => none

/-- The ids of the calls in an output. -/
def callsOf (items : List OutputItem) : List Text := items.filterMap OutputItem.storedCall

/-- The ids of the calls that the gateway executes. -/
def gatewayIds (registry : ToolRegistry) (items : List OutputItem) : List Text :=
  (gatewayCalls registry items).map (·.call_id)

/-- The ids of the calls that are left to the client. -/
def clientIds (registry : ToolRegistry) (items : List OutputItem) : List Text :=
  callsOf (items.filter (·.requiresClientAction registry))

section
variable {registry : ToolRegistry} {item shown : OutputItem} {items public_output : List OutputItem}
  {call : FunctionToolCall} {serde : SerdeJson} {results : List GatewayCallResult} {item_index : Nat}

/-- An item is stored as the call it is. -/
theorem entry_toInputItem (item : OutputItem) :
    item.toInputItem.bind InputItem.entry = item.storedCall.map (Entry.call · .function) := by
  cases item with
  | toolSearchCall call =>
    show call.toInput.map InputItem.toolSearchCall >>= InputItem.entry = none
    cases call.toInput <;> rfl
  | _ => rfl

/-- The entries of an output are its calls. -/
theorem ledger_outputs : ledger (items.filterMap OutputItem.toInputItem) = (callsOf items).map (Entry.call · .function) := by
  unfold ledger callsOf
  rw [List.filterMap_filterMap, List.map_filterMap]
  exact List.filterMap_congr fun item _ => entry_toInputItem item

/-- An item of the input is lowered as it is. -/
theorem lowered_toInputItem {input : InputItem} (made : item.toInputItem = some input) : input.lower = some input := by
  cases item with
  | toolSearchCall call =>
    obtain ⟨search, -, same⟩ := Option.map_eq_some_iff.1 made
    cases same
    rfl
  | webSearchCall => cases made
  | mcpCall => cases made
  | unknown => cases made
  | _ =>
    cases made
    rfl

/-- Outputs are read back as they are shown to the model. -/
theorem intoInputItems_output : intoInputItems (items.map .output) = items.filterMap OutputItem.toInputItem := by
  rw [intoInputItems_eq, List.filterMap_map]
  apply List.filterMap_congr
  intro item _
  show item.toInputItem.bind InputItem.lower = item.toInputItem
  cases made : item.toInputItem with
  | none => rfl
  | some input => exact lowered_toInputItem made

/-- A call of the gateway is not left to the client. -/
theorem requires_of_gateway (owned : gatewayCall registry item = some call) :
    item.requiresClientAction registry = false ∧ item.storedCall = some call.call_id := by
  cases item with
  | functionCall function =>
    unfold gatewayCall at owned
    dsimp only at owned
    split at owned
    · rename_i gateway
      cases owned
      refine ⟨?_, rfl⟩
      unfold ToolRegistry.isGatewayOwnedName at gateway
      dsimp only [OutputItem.requiresClientAction]
      cases found : registry.lookup call.name with
      | none => simp [found] at gateway
      | some entry => simpa [found] using gateway
    · cases owned
  | _ => cases owned

/-- A call that is not the gateway's is left to the client. -/
theorem requires_of_client (free : gatewayCall registry item = none) (named : item.storedCall ≠ none) :
    item.requiresClientAction registry = true := by
  cases item with
  | functionCall function =>
    unfold gatewayCall ToolRegistry.isGatewayOwnedName at free
    dsimp only [OutputItem.requiresClientAction]
    cases found : registry.lookup function.name with
    | none => rfl
    | some entry => simpa [found] using free
  | customToolCall => rfl
  | shellCall => rfl
  | _ => exact absurd rfl named

/-- The calls of the gateway, by their ids. -/
theorem gatewayIds_eq : gatewayIds registry items =
    items.filterMap fun item => (gatewayCall registry item).map (·.call_id) := List.map_filterMap

/-- The calls of the client, by their ids. -/
theorem clientIds_eq : clientIds registry items =
    items.filterMap fun item => if item.requiresClientAction registry then item.storedCall else none := by
  unfold clientIds callsOf
  rw [List.filterMap_filter]

/-- The calls of an output are the gateway's and the client's. -/
theorem callsOf_perm : (callsOf items).Perm (gatewayIds registry items ++ clientIds registry items) := by
  rw [gatewayIds_eq, clientIds_eq]
  unfold callsOf
  induction items with
  | nil => exact .nil
  | cons item items ih =>
    cases owned : gatewayCall registry item with
    | some call =>
      obtain ⟨idle, id⟩ := requires_of_gateway owned
      simpa [owned, idle, id] using ih
    | none =>
      cases id : item.storedCall with
      | none => simpa [owned, id] using ih
      | some call_id =>
        have client := requires_of_client owned (by simp [id])
        simp only [List.filterMap_cons, owned, id, client, Option.map_none, if_true]
        exact (ih.cons call_id).trans List.perm_middle.symm

/-- The calls of the gateway are calls of the output. -/
theorem gatewayIds_sublist : (gatewayIds registry items).Sublist (callsOf items) := by
  rw [gatewayIds_eq]
  unfold callsOf
  induction items with
  | nil => exact .slnil
  | cons item items ih =>
    cases owned : gatewayCall registry item with
    | some call => simpa [owned, (requires_of_gateway owned).2] using ih
    | none =>
      cases id : item.storedCall with
      | none => simpa [owned, id] using ih
      | some call_id => simpa [owned, id] using ih.cons call_id

/-- What is left of the calls without the gateway's. -/
theorem callsOf_left (apart : (callsOf items).Nodup) :
    CallRound.left ⟨callsOf items, gatewayIds registry items⟩ = clientIds registry items := by
  have differ := (List.nodup_append.1 ((@callsOf_perm registry items).nodup_iff.1 apart)).2.2
  have split : CallRound.left ⟨callsOf items, gatewayIds registry items⟩ =
      (items.filterMap OutputItem.storedCall).filter (· ∉ gatewayIds registry items) := by
    unfold CallRound.left callsOf
    exact List.filter_congr fun id _ => decide_eq_decide.2 Iff.rfl
  rw [split, clientIds_eq, List.filter_filterMap]
  apply List.filterMap_congr
  intro item mem
  cases id : item.storedCall with
  | none => simp
  | some call_id =>
    cases owned : gatewayCall registry item with
    | some call =>
      obtain ⟨idle, same⟩ := requires_of_gateway owned
      have here : call_id ∈ gatewayIds registry items := by
        rw [id] at same
        cases same
        exact List.mem_map_of_mem (List.mem_filterMap.2 ⟨item, mem, owned⟩)
      simp [idle, here, Option.filter]
    | none =>
      have client := requires_of_client owned (by simp [id])
      have elsewhere : call_id ∉ gatewayIds registry items := by
        intro here
        refine differ call_id here call_id ?_ rfl
        exact List.mem_filterMap.2 ⟨item, List.mem_filter.2 ⟨mem, client⟩, id⟩
      simp [client, elsewhere, Option.filter]

/-- An output without client calls has none. -/
theorem clientIds_idle (idle : hasClientOwnedCalls items registry = false) : clientIds registry items = [] := by
  unfold hasClientOwnedCalls at idle
  unfold clientIds
  rw [List.filter_eq_nil_iff.2 (List.any_eq_false.1 idle)]
  rfl

/-- The results show no calls. -/
def ShowNoCall (results : List GatewayCallResult) : Prop :=
  ∀ result ∈ results, ∀ item, result.public_output = some item → item.storedCall = none

/-- An item that is no call is no call of the gateway. -/
theorem gatewayCall_of_uncalled (uncalled : item.storedCall = none) : gatewayCall registry item = none := by
  cases item with
  | functionCall call => cases uncalled
  | _ => rfl

theorem custom_not_gateway {name : Text} (custom : registry.isClientCustomName name = true) :
    registry.isGatewayOwnedName name = false := by
  unfold ToolRegistry.isClientCustomName at custom
  unfold ToolRegistry.isGatewayOwnedName
  obtain ⟨entry, found, type⟩ := (Option.any_eq_true _ _).1 custom
  rw [found, Option.any_some, entry.owned, of_decide_eq_true type]
  rfl

theorem shell_not_gateway {name : Text} (shell : registry.isClientShellName name = true) :
    registry.isGatewayOwnedName name = false := by
  unfold ToolRegistry.isClientShellName at shell
  unfold ToolRegistry.isGatewayOwnedName
  obtain ⟨entry, found, type⟩ := (Option.any_eq_true _ _).1 shell
  rw [found, Option.any_some]
  simpa using (Bool.and_eq_true_iff.1 type).2

theorem gatewayCall_client {call : FunctionToolCall} (client : registry.isGatewayOwnedName call.name = false) :
    gatewayCall registry (.functionCall call) = none := if_neg (by simp [client])

/-- A call of the gateway's stays as it is or gives way to an item that is no call; a call of the client's keeps its
id. -/
inductive ShownCall (registry : ToolRegistry) (item shown : OutputItem) : Prop where
  | gateway {call : FunctionToolCall} (owned : gatewayCall registry item = some call)
      (as : shown = item ∨ shown.storedCall = none)
  | client (free : gatewayCall registry item = none) (still : gatewayCall registry shown = none)
      (same : shown.storedCall = item.storedCall)

/-- What is shown of an item is the item or its call. -/
theorem publicOutputItem_call (shows : ShowNoCall results)
    (made : publicOutputItem serde registry results item_index item = .ok shown) :
    ShownCall registry item shown := by
  cases item with
  | functionCall call =>
    unfold publicOutputItem at made
    dsimp only at made
    split at made
    · rename_i custom
      cases made
      exact .client (gatewayCall_client (custom_not_gateway custom)) rfl rfl
    · split at made
      · rename_i shell
        split at made
        · rename_i item converted
          cases made
          unfold ShellHandler.outputItem ShellHandler.outputItemWithStatus at converted
          rw [Option.map_map] at converted
          obtain ⟨action, -, rfl⟩ := Option.map_eq_some_iff.1 converted
          exact .client (gatewayCall_client (shell_not_gateway shell)) rfl rfl
        · cases made
      · split at made
        · rename_i owned
          refine .gateway (if_pos owned) ?_
          cases made
          cases found : (results.find? (·.item_index = item_index)).bind (·.public_output) with
          | none => exact .inl rfl
          | some item =>
            obtain ⟨result, here, given⟩ := Option.bind_eq_some_iff.1 found
            exact .inr (shows result (List.mem_of_find?_eq_some here) item given)
        · rename_i client
          cases made
          have free := @gatewayCall_client registry call (eq_false_of_ne_true client)
          exact .client free free rfl
  | _ =>
    cases made
    exact .client rfl rfl rfl

/-- What is public of an answer, item by item. -/
theorem publicOutputItems_call (shows : ShowNoCall results)
    (made : publicOutputItems serde items registry results = .ok public_output) :
    List.Forall₂ (ShownCall registry) items public_output := by
  have each := (forall₂_of_mapM made).imp fun _ _ one => publicOutputItem_call shows one
  rw [← @List.zipIdx_map_fst _ 0 items, List.forall₂_map_left_iff]
  exact each

/-- The calls of a public output without calls of the gateway's are those left to the client. -/
theorem callsOf_public (shows : ShowNoCall results)
    (made : publicOutputItems serde items registry results = .ok public_output)
    (shown : ∀ item ∈ public_output, gatewayCall registry item = none) : callsOf public_output = clientIds registry items := by
  have each := publicOutputItems_call shows made
  clear made
  rw [clientIds_eq]
  unfold callsOf
  induction each with
  | nil => rfl
  | @cons item other items public_output one rest ih =>
    rw [List.forall_mem_cons] at shown
    rw [List.filterMap_cons, List.filterMap_cons, ih shown.2]
    obtain ⟨owned, same | uncalled⟩ | ⟨free, -, same⟩ := one
    · subst same
      rw [owned] at shown
      exact absurd shown.1 (Option.some_ne_none _)
    · rw [uncalled, (requires_of_gateway owned).1]
      rfl
    · rw [same]
      cases id : item.storedCall with
      | none => simp
      | some call_id => simp [requires_of_client free (by simp [id])]

/-- A call of the gateway's in the public output is one of the answer. -/
theorem gatewayCall_public (shows : ShowNoCall results)
    (made : publicOutputItems serde items registry results = .ok public_output) (mem : shown ∈ public_output)
    (owned : gatewayCall registry shown = some call) : call.call_id ∈ gatewayIds registry items := by
  have each := publicOutputItems_call shows made
  clear made
  induction each with
  | nil => exact absurd mem List.not_mem_nil
  | @cons item other items public_output one rest ih =>
    rw [gatewayIds_eq, List.filterMap_cons]
    rcases List.mem_cons.1 mem with here | later
    · subst here
      obtain ⟨-, same | uncalled⟩ | ⟨-, free, -⟩ := one
      · subst same
        rw [owned]
        exact List.mem_cons_self
      · rw [gatewayCall_of_uncalled uncalled] at owned
        cases owned
      · rw [free] at owned
        cases owned
    · have among := ih later
      rw [gatewayIds_eq] at among
      cases (gatewayCall registry item).map (·.call_id) with
      | none => exact among
      | some id => exact List.mem_cons_of_mem _ among

end

/-- The handlers of the gateway's tools show no calls. -/
def HandlersShowNoCall (registry : ToolRegistry) : Prop :=
  ∀ name entry binding, registry.lookup name = some entry → entry.ownership = .gateway (some binding) →
    ∀ call output status item, binding.publicOutput call output status = some item → item.storedCall = none

/-- The gateway's own handlers show none. -/
theorem handlersShowNoCall_of_handled {registry : ToolRegistry} (handled : Tools.Handled registry) : HandlersShowNoCall registry := by
  intro name entry binding found owner call output status item shown
  have executed := (handled name entry binding found owner).shows.2 shown
  cases item with
  | mcpCall _ => rfl
  | webSearchCall _ => rfl
  | _ => cases executed

/-- An executed round: every call of the gateway's was answered, and the public output was made of the answers. -/
structure RoundOutput.Executed (serde : SerdeJson) (registry : ToolRegistry) (r : RoundOutput) : Prop where
  answered : List.Forall₂ Answered (gatewayCalls registry r.output) (r.gateway_results.map (·.input_item))
  shows : ShowNoCall r.gateway_results
  made : publicOutputItems serde r.output registry r.gateway_results = .ok r.public_output

/-- The items of an answer that are recorded in their place, or the calls of the gateway's. -/
def recordedOutput (in_place : Bool) (registry : ToolRegistry) (items : List OutputItem) : List InputItem :=
  if in_place then
    (items.filter fun
      | .mcpListTools _ => false
      | _ => true).filterMap OutputItem.toInputItem
  else items.filterMap (Engine.gatewayCallInput registry)

/-- What is recorded of a round, the outputs of its calls included. -/
def RoundOutput.recorded (in_place : Bool) (registry : ToolRegistry) (r : RoundOutput) : List InputItem :=
  recordedOutput in_place registry r.output ++ r.gateway_results.map (·.input_item)

/-- The calls recorded of a round, and those answered. -/
def RoundOutput.callRound (in_place : Bool) (registry : ToolRegistry) (r : RoundOutput) : CallRound Text where
  calls := if in_place then callsOf r.output else gatewayIds registry r.output
  answers := gatewayIds registry r.output

section
variable {registry : ToolRegistry} {serde : SerdeJson} {r : RoundOutput} {in_place : Bool} {items : List OutputItem}
  {calls : List FunctionToolCall} {outputs : List InputItem}

/-- The answers are entries of their calls. -/
theorem ledger_answered (h : List.Forall₂ Answered calls outputs) :
    ledger outputs = (calls.map (·.call_id)).map (Entry.answer · .function) := by
  induction h with
  | nil => rfl
  | @cons call item calls outputs one rest ih =>
    obtain ⟨output, rfl⟩ := one
    have first : ledger (.functionCallOutput { call_id := call.call_id, output := .text output } :: outputs) =
        .answer call.call_id .function :: ledger outputs := rfl
    rw [first, ih]
    rfl

/-- The call that goes into the next round is the call of the gateway. -/
theorem gatewayCallInput_eq (item : OutputItem) :
    Engine.gatewayCallInput registry item = (gatewayCall registry item).map fun call => .functionCall call.toInput := by
  cases item with
  | functionCall call =>
    unfold Engine.gatewayCallInput gatewayCall
    dsimp only
    split <;> rfl
  | _ => rfl

/-- The calls that go into the next round are calls of the gateway. -/
theorem ledger_gatewayCalls : ledger (items.filterMap (Engine.gatewayCallInput registry)) =
    (gatewayIds registry items).map (Entry.call · .function) := by
  rw [gatewayIds_eq]
  unfold ledger
  rw [List.filterMap_filterMap, List.map_filterMap]
  apply List.filterMap_congr
  intro item _
  rw [gatewayCallInput_eq]
  cases gatewayCall registry item <;> rfl

/-- What is recorded of an output are its calls. -/
theorem ledger_recordedOutput : ledger (recordedOutput in_place registry items) =
    (if in_place then callsOf items else gatewayIds registry items).map (Entry.call · .function) := by
  cases in_place with
  | false => exact ledger_gatewayCalls
  | true =>
    show ledger ((items.filter _).filterMap OutputItem.toInputItem) = (callsOf items).map _
    rw [← ledger_outputs]
    unfold ledger
    rw [List.filterMap_filter, List.filterMap_filterMap, List.filterMap_filterMap]
    apply List.filterMap_congr
    intro item _
    cases item <;> rfl

/-- What a round records are the entries of its calls. -/
theorem RoundOutput.Executed.ledger (h : r.Executed serde registry) :
    ledger (r.recorded in_place registry) = (r.callRound in_place registry).entries .function := by
  unfold RoundOutput.recorded
  rw [ledger_append, ledger_recordedOutput, ledger_answered h.answered]
  rfl

/-- What is recorded is lowered. -/
theorem lowered_recordedOutput : Lowered (recordedOutput in_place registry items) := by
  intro input mem
  unfold recordedOutput at mem
  split at mem
  · obtain ⟨item, -, made⟩ := List.mem_filterMap.1 mem
    exact lowered_toInputItem made
  · obtain ⟨item, -, made⟩ := List.mem_filterMap.1 mem
    rw [gatewayCallInput_eq] at made
    obtain ⟨call, -, rfl⟩ := Option.map_eq_some_iff.1 made
    rfl

/-- What a round records is lowered. -/
theorem RoundOutput.Executed.lowered (h : r.Executed serde registry) : Lowered (r.recorded in_place registry) := by
  refine lowered_recordedOutput.append ?_
  intro input mem
  obtain ⟨call, output, rfl⟩ := answered_mem h.answered mem
  rfl

/-- The calls of a round are closed by the round. -/
theorem RoundOutput.callRound_closes (apart : (callsOf r.output).Nodup) : (r.callRound in_place registry).Closes := by
  refine ⟨?_, apart.sublist gatewayIds_sublist⟩
  intro id mem
  cases in_place with
  | false => exact mem
  | true => exact gatewayIds_sublist.subset mem

/-- The calls of a round are calls of its output. -/
theorem RoundOutput.callRound_sublist : (r.callRound in_place registry).calls.Sublist (callsOf r.output) := by
  cases in_place with
  | false => exact gatewayIds_sublist
  | true => exact List.Sublist.refl _

/-- A round recorded in its place leaves the client's calls open; else nothing is open. -/
theorem RoundOutput.callRound_left (apart : (callsOf r.output).Nodup) :
    (r.callRound in_place registry).left = if in_place then clientIds registry r.output else [] := by
  cases in_place with
  | false =>
    unfold CallRound.left
    rw [if_neg Bool.false_ne_true, List.filter_eq_nil_iff]
    intro id mem
    have own : id ∈ (r.callRound false registry).answers := mem
    simpa using own
  | true => exact callsOf_left apart

/-- The handlers are those of the entries. -/
theorem HandlersShowNoCall.of_entries {other : ToolRegistry} (handlers : HandlersShowNoCall registry)
    (same : other.entries = registry.entries) : HandlersShowNoCall other := by
  intro name entry binding found
  unfold ToolRegistry.lookup at found
  rw [same] at found
  exact handlers name entry binding found

/-- Registries that differ in their listings only own the same calls. -/
theorem gatewayCall_of_entries {other : ToolRegistry} (same : other.entries = registry.entries) :
    gatewayCall other = gatewayCall registry := by
  cases other
  cases registry
  cases same
  rfl

/-- What is shown depends on the entries only. -/
theorem publicOutputItem_of_entries {other : ToolRegistry} (same : other.entries = registry.entries) :
    publicOutputItem serde other = publicOutputItem serde registry := by
  cases other
  cases registry
  cases same
  rfl

/-- A round is executed with the entries it had. -/
theorem RoundOutput.Executed.of_entries {other : ToolRegistry} (h : r.Executed serde other)
    (same : other.entries = registry.entries) : r.Executed serde registry := by
  refine ⟨?_, h.shows, ?_⟩
  · have answered := h.answered
    unfold gatewayCalls at answered ⊢
    rwa [gatewayCall_of_entries same] at answered
  · have made := h.made
    unfold publicOutputItems at made ⊢
    rwa [publicOutputItem_of_entries same] at made

/-- What is recorded depends on the entries only. -/
theorem recordedOutput_of_entries {other : ToolRegistry} (same : other.entries = registry.entries) :
    recordedOutput in_place other items = recordedOutput in_place registry items := by
  cases other
  cases registry
  cases same
  rfl

/-- Whether the client has calls depends on the entries only. -/
theorem hasClientOwnedCalls_of_entries {other : ToolRegistry} (same : other.entries = registry.entries) :
    hasClientOwnedCalls items other = hasClientOwnedCalls items registry := by
  cases other
  cases registry
  cases same
  rfl

end

end AgenticStack
