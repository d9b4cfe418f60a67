import AgenticStack.Split.Context

/-!
# Hydrating and persisting

The two calls that a turn is split into. The first answers with the request for the model and a
sealed context, the second takes the context and what the model said, and stores the turn as the
engine would have stored it.
-/

namespace AgenticStack
namespace Split
set_option autoImplicit false
open Library

/-- The largest encoded context that persist takes. -/
def MAX_CONTEXT_SIZE : Nat := 6 * 1024 * 1024

/-- The largest upstream body that persist takes. -/
def MAX_UPSTREAM_BODY_SIZE : Nat := 4 * 1024 * 1024

/-- How contexts are sealed under the key of the service at a time, and opened again. -/
structure Sealing (Token : Type) where
  sealContext : Nat → SplitContext → ExecutorResult Token
  unsealContext : Nat → Token → ExecutorResult SplitContext
  length : Token → Nat

/-- What is opened is what was sealed. A token may be too old to be opened. -/
def Sealing.Faithful {Token : Type} (sealing : Sealing Token) : Prop :=
  ∀ at_ now context token opened, sealing.sealContext at_ context = .ok token → sealing.unsealContext now token = .ok opened →
    opened = context

/-- The differences of two texts, byte by byte. -/
def differences (presented expected : Text) : UInt8 :=
  (presented.zip expected).foldl (fun differences pair => differences ||| (pair.1 ^^^ pair.2)) 0

/-- No early return, so that a wrong token takes as long whatever byte differs. -/
def tokenMatches (presented expected : Text) : Bool :=
  presented.length == expected.length && differences presented expected == 0

/-- The upstream's answer, as one document or as an event stream. -/
inductive UpstreamBody where
  | json (body : Text)
  | sse (body : Text)

/-- The text of either form. -/
def UpstreamBody.text : UpstreamBody → Text
  | .json body => body
  | .sse body => body

/-- What hydrate answers: the upstream request and the sealed context. -/
structure Hydration (Token : Type) where
  request : UpstreamRequest
  context : Token

/-- What persist is sent: the context back, with one of the two forms of the answer. -/
structure PersistRequest (Token : Type) where
  context : Token
  response : Option Text
  sse : Option Text

/-- The error for a body over its limit. -/
def payloadTooLarge {α : Type} (message : String) : ExecutorResult α := .error (.payloadTooLarge (utf8 message))

section
variable {Token Row : Type} (sealing : Sealing Token) (codec : ItemCodec Row)

/-- `build_hydration`; `toolsResolved` is what preparing the tools and the tool choice comes to. The tools are
functions, which are in no namespace. -/
def buildHydration (toolsResolved : Option (List ResponsesTool) → Option ToolChoice → ExecutorResult Unit) (now : Nat)
    (store : ResponseStore Row) (request : SplitRequest) (response_id : Text) : ExecutorResult (Hydration Token) := do
  ensureSplittable request.payload request.tools
  let ctx ← rehydrateConversation codec store request response_id
  ensureSplittable ctx.request.enriched_request ctx.effective_tools
  let upstream ← ctx.request.upstreamRequest (toolsResolved ctx.effective_tools) none ctx.stream
  let context ← sealing.sealContext now (.ofTurn ctx)
  if MAX_CONTEXT_SIZE < sealing.length context then
    payloadTooLarge "hydrated context exceeds the split-execution size budget"
  else return ⟨upstream, context⟩

variable (ingest : Text → Option Text → UpstreamBody → ExecutorResult ResponseAccumulator)
  (retain publish : ResponseCheckpoint → ExecutorResult Unit) (storageText : ConversationError → Text) (fails : Bool)

/-- `decode_upstream`; `ingest` is what the strict round of a response makes of a body. -/
def decodeUpstream (ctx : TurnContext) (body : UpstreamBody) : ExecutorResult ResponsePayload := do
  let accumulator ← ingest ctx.request.response_id ctx.request.conversation_id body
  return ctx.request.injectIds (accumulator.finalize ctx.request.enriched_request.model
    ctx.request.original_request.previous_response_id ctx.request.original_request.instructions)

/-- The turn is decoded and committed. -/
def persistTurn (db : ConversationStore Row) (ctx : TurnContext) (body : UpstreamBody) :
    ExecutorResult ResponsePayload × ConversationStore Row :=
  match decodeUpstream ingest ctx body with
  | .ok payload => Commit.commit codec retain publish storageText fails db ctx.commitContext payload
  | .error e => (.error e, db)

/-- Exactly one form of the response. -/
def PersistRequest.upstream (request : PersistRequest Token) : ExecutorResult UpstreamBody :=
  match request.response, request.sse with
  | some json, none => .ok (.json json)
  | none, some sse => .ok (.sse sse)
  | _, _ => .error (invalid "exactly one of `response` or `sse` is required")

/-- What comes before the context is used. -/
def openContext (now : Nat) (request : PersistRequest Token) : ExecutorResult (SplitContext × UpstreamBody) := do
  let upstream ← request.upstream
  if MAX_CONTEXT_SIZE < sealing.length request.context then
    payloadTooLarge "sealed context exceeds the split-execution size budget"
  else if MAX_UPSTREAM_BODY_SIZE < upstream.text.length then
    payloadTooLarge "upstream response exceeds the split-execution size budget"
  else return (← sealing.unsealContext now request.context, upstream)

/-- `persist`. -/
def persist (now : Nat) (db : ConversationStore Row) (request : PersistRequest Token) :
    ExecutorResult ResponsePayload × ConversationStore Row :=
  match openContext sealing now request with
  | .ok (context, body) => persistTurn codec ingest retain publish storageText fails db context.toTurn body
  | .error e => (.error e, db)

end

end Split
end AgenticStack
