import AgenticStack.Executor.CommitCalls
import AgenticStack.Executor.Durable
import AgenticStack.Executor.Turns

/-!
# The context of a split turn

A turn may be run in two steps, with the inference between them left to the caller. The first step
gives the caller what the second needs to know of it; what the request says already is not said
twice, and is made again when the context comes back.
-/

namespace AgenticStack
set_option autoImplicit false
open Library

/-- A function is executed by the client. -/
def ResponsesTool.isFunction : ResponsesTool → Bool
  | .declared (some original_type) _ => original_type = utf8 "function"
  | _ => false

/-- Whether a compaction item is among the input items. -/
def ResponsesInput.containsCompaction : ResponsesInput → Bool
  | .text _ => false
  | .items xs => xs.any InputItem.isCompaction

/-- The tools of the turn: the request's own when it names any, else the stored ones. -/
def resolveTools (request_tools stored_tools : Option (List ResponsesTool)) (tools_explicitly_set : Bool) :
    Option (List ResponsesTool) := if tools_explicitly_set then request_tools else stored_tools

/-- The tool choice of the turn, by the same rule as the tools. -/
def resolveToolChoice (request_choice : Option ToolChoice) (stored_choice : ToolChoice) (explicitly_set : Bool) :
    ToolChoice := if explicitly_set then request_choice.getD .auto else stored_choice

namespace Split

/-- A request, with the tools it declares and whether its response is streamed. -/
structure SplitRequest where
  payload : RequestPayload
  tools : Option (List ResponsesTool)
  stream : Bool

/-- What a request asks for that only the engine has. -/
def inProcessFeature (request : RequestPayload) (tools : Option (List ResponsesTool)) : Option Text :=
  if request.conversation_id.isSome then some "conversation_id"
  else if tools.any fun tools => tools.any fun tool => !tool.isFunction then some "gateway-owned tools"
  else if request.input.containsCompaction || request.input.hasCompactionTrigger then some "compaction input"
  else if request.context_management.any (· ≠ []) then some "context_management"
  else none

/-- Refuses a request that needs something only the in-process executor has. -/
def ensureSplittable (request : RequestPayload) (tools : Option (List ResponsesTool)) : ExecutorResult Unit :=
  match inProcessFeature request tools with
  | some feature => .error (invalid (feature ++ utf8 " is not supported for split execution"))
  | none => .ok ()

/-- `RequestContext`, with the tools of the request and those of its copy for the model. -/
structure TurnContext where
  request : Engine.RequestContext
  conversation_version : Option ConversationVersion
  original_tools : Option (List ResponsesTool)
  effective_tools : Option (List ResponsesTool)
  stream : Bool

/-- A turn outside of any session. -/
def TurnContext.commitContext (ctx : TurnContext) : CommitContext :=
  ⟨ctx.request, ctx.conversation_version, none, ctx.effective_tools⟩

/-- What the caller holds of a turn. -/
structure SplitContext where
  response_id : Text
  original_request : SplitRequest
  conversation_id : Option Text
  effective_tools : Option (List ResponsesTool)
  effective_tool_choice : Option ToolChoice

/-- `From<RequestContext> for SplitContext`. -/
def SplitContext.ofTurn (ctx : TurnContext) : SplitContext where
  response_id := ctx.request.response_id
  original_request := ⟨ctx.request.original_request, ctx.original_tools, ctx.stream⟩
  conversation_id := ctx.request.conversation_id
  effective_tools := ctx.effective_tools
  effective_tool_choice := ctx.request.enriched_request.tool_choice

/-- `From<SplitContext> for RequestContext`. The input is lowered, also where it is to be stored. -/
def SplitContext.toTurn (wire : SplitContext) : TurnContext :=
  let new_input_items := wire.original_request.payload.input.toItems
  { request := {
      original_request := wire.original_request.payload
      enriched_request := { wire.original_request.payload with
        previous_response_id := none
        input := .items new_input_items
        tool_choice := wire.effective_tool_choice }
      new_input_items
      response_id := wire.response_id
      conversation_id := wire.conversation_id
      continuation := none }
    conversation_version := none
    original_tools := wire.original_request.tools
    effective_tools := wire.effective_tools
    stream := wire.original_request.stream }

/-- The response before could not be read. -/
def previousFailure {α : Type} (ctx : TurnContext) (e : StorageError) : ExecutorResult α :=
  .error (Engine.storageFailure ctx.request.response_id e)

/-- Gives the turn the tools, the choice and the instructions that the stored response leaves in force. -/
def applyEffectiveSettings (ctx : TurnContext) (stored : ResponseMetadata) : TurnContext :=
  { ctx with
    effective_tools := resolveTools ctx.original_tools stored.effective_tools ctx.original_tools.isSome
    request := { ctx.request with
      enriched_request := { ctx.request.enriched_request with
        tool_choice := some (resolveToolChoice ctx.request.original_request.tool_choice stored.effective_tool_choice
          ctx.request.original_request.tool_choice.isSome) } } }

section
variable {Row : Type} (codec : ItemCodec Row) (store : ResponseStore Row)

/-- `from_response`. -/
def rehydratePrevious (ctx : TurnContext) (previous_id : Text) : ExecutorResult TurnContext :=
  match store.get previous_id, store.rehydrate codec previous_id with
  | .error e, _ => previousFailure ctx e
  | .ok _, .error e => previousFailure ctx e
  | .ok stored, .ok history => do
    let items ← fromResponse history ctx.request.original_request.input
    let ctx := applyEffectiveSettings ctx stored.metadata
    return { ctx with
      request := { ctx.request with
        enriched_request := { ctx.request.enriched_request with
          previous_response_id := none, input := .items items }
        conversation_id := stored.conversation_id } }

/-- The context of a request before anything is known of its history. -/
def newContext (request : SplitRequest) (response_id : Text) : TurnContext where
  request := {
    original_request := request.payload
    enriched_request := request.payload
    new_input_items := request.payload.input.newInputItems
    response_id
    conversation_id := none
    continuation := none }
  conversation_version := none
  original_tools := request.tools
  effective_tools := request.tools
  stream := request.stream

/-- The history goes before the input. -/
def enrich (ctx : TurnContext) : ExecutorResult TurnContext :=
  match ctx.request.original_request.previous_response_id with
  | some previous_id => rehydratePrevious codec store ctx previous_id
  | none => .ok { ctx with request := ctx.request.setInput (.items ctx.request.original_request.input.toItems) }

/-- `rehydrate_conversation`, of a request that is in no conversation. -/
def rehydrateConversation (request : SplitRequest) (response_id : Text) : ExecutorResult TurnContext := do
  validateMessageFiles request.payload.input
  let ctx ← enrich codec store (newContext request response_id)
  validateMessageFiles ctx.request.enriched_request.input
  return ctx

end

/-- A context says of the turn what another one does, but for the items that are lowered before they are stored. -/
structure Resumes (wire : SplitContext) (ctx : TurnContext) : Prop where
  original_request : wire.original_request.payload = ctx.request.original_request
  response_id : wire.response_id = ctx.request.response_id
  conversation_id : wire.conversation_id = ctx.request.conversation_id
  effective_tools : wire.effective_tools = ctx.effective_tools
  model : wire.original_request.payload.model = ctx.request.enriched_request.model
  instructions : wire.original_request.payload.instructions = ctx.request.enriched_request.instructions
  tool_choice : wire.effective_tool_choice = ctx.request.enriched_request.tool_choice
  new_input_items : ctx.request.new_input_items = wire.original_request.payload.input.newInputItems
  continuation : ctx.request.continuation = none
  conversation_version : ctx.conversation_version = none

section
variable {Row : Type} {codec : ItemCodec Row} {store : ResponseStore Row} {request : SplitRequest} {response_id : Text}
  {ctx : TurnContext}

/-- **What hydrating a turn leaves**: a context that what is sent to the caller resumes. -/
theorem rehydrateConversation_resumes (hydrated : rehydrateConversation codec store request response_id = .ok ctx) :
    Resumes (.ofTurn ctx) ctx ∧ ctx.request.response_id = response_id ∧ ctx.request.original_request = request.payload := by
  unfold rehydrateConversation at hydrated
  obtain ⟨_, -, hydrated⟩ := bind_eq_ok.1 hydrated
  obtain ⟨found, continued, hydrated⟩ := bind_eq_ok.1 hydrated
  obtain ⟨_, -, hydrated⟩ := bind_eq_ok.1 hydrated
  obtain rfl := pure_eq_ok.1 hydrated
  unfold enrich at continued
  split at continued
  · unfold rehydratePrevious at continued
    split at continued
    · cases continued
    · cases continued
    · obtain ⟨items, -, continued⟩ := bind_eq_ok.1 continued
      obtain rfl := pure_eq_ok.1 continued
      exact ⟨⟨rfl, rfl, rfl, rfl, rfl, rfl, rfl, rfl, rfl, rfl⟩, rfl, rfl⟩
  · cases continued
    exact ⟨⟨rfl, rfl, rfl, rfl, rfl, rfl, rfl, rfl, rfl, rfl⟩, rfl, rfl⟩

/-- The response that a hydrated turn continues is stored. -/
theorem rehydrateConversation_previous {previous_id : Text}
    (hydrated : rehydrateConversation codec store request response_id = .ok ctx)
    (continues : request.payload.previous_response_id = some previous_id) :
    ∃ rows, store.rehydrate codec previous_id = .ok rows := by
  unfold rehydrateConversation at hydrated
  obtain ⟨_, -, hydrated⟩ := bind_eq_ok.1 hydrated
  obtain ⟨found, continued, -⟩ := bind_eq_ok.1 hydrated
  have asked : (newContext request response_id).request.original_request.previous_response_id = some previous_id := continues
  unfold enrich at continued
  rw [asked] at continued
  dsimp only at continued
  unfold rehydratePrevious at continued
  split at continued
  · cases continued
  · cases continued
  · rename_i read
    exact ⟨_, read⟩

end

section
variable {item lowered : InputItem} {input : ResponsesInput} {items : List InputItem}

theorem callId_lower (h : item.lower = some lowered) : lowered.callId = item.callId := by
  cases item <;> cases h <;> rfl

/-- What is stored of an input in place of its items. -/
theorem newInputItems_lower (input : ResponsesInput) :
    List.Forall₂ (fun item lowered => item.lower = some lowered) input.newInputItems input.toItems := by
  cases input with
  | text t => exact .cons rfl .nil
  | items items =>
    show List.Forall₂ _ (items.filter fun item => !item.isUnknown) (items.filterMap InputItem.lower)
    induction items with
    | nil => exact .nil
    | cons item items ih =>
      cases item with
      | unknown => exact ih
      | _ => exact .cons rfl ih

theorem callIds_lowered {originals : List InputItem}
    (lowers : List.Forall₂ (fun item lowered => item.lower = some lowered) originals items) :
    items.map InputItem.callId = originals.map InputItem.callId := by
  induction lowers with
  | nil => rfl
  | cons here _ ih => rw [List.map_cons, List.map_cons, callId_lower here, ih]

end
end Split
end AgenticStack
