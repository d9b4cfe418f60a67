import AgenticStack.Messages.Loop
import AgenticStack.Library.AssocList

/-!
# The loop over streamed messages

The events of each round are passed on to the client as parts of one message, but
for the calls of gateway tools. Every block is kept as well, and put together from
its parts for the next round.
-/

namespace AgenticStack.Messages
set_option autoImplicit false
open Library

/-- An event for the client, or an error as upstream sent it. -/
inductive ClientEvent where
  | sse (event : Text) (data : Json)
  | errorBody (data : Text)

/-- The event of an error. -/
def errorSse (message : Text) : ClientEvent :=
  .sse "error" (.obj [("type", .str "error"), ("error", .obj [("type", .str "api_error"), ("message", .str message)])])

/-- A block as far as it has come. -/
structure BufferedBlock where
  block : Json
  input_json : Text
  is_gateway_tool : Bool

/-- The fragment is put behind the string that is there. -/
def appendStr (block : Json) (field : Text) (fragment : Option Json) : Json :=
  match fragment.bind Json.asStr with
  | none => block
  | some fragment => setField block field (.str (strField block field ++ fragment))

namespace BufferedBlock

/-- A part is added to its block. -/
def applyDelta (self : BufferedBlock) (delta : Json) : BufferedBlock :=
  let type := (delta.at_ "type").asStr
  if type = some (utf8 "text_delta") then { self with block := appendStr self.block "text" (delta.get "text") }
  else if type = some (utf8 "thinking_delta") then { self with block := appendStr self.block "thinking" (delta.get "thinking") }
  else if type = some (utf8 "signature_delta") then { self with block := appendStr self.block "signature" (delta.get "signature") }
  else if type = some (utf8 "input_json_delta") then
    { self with input_json := self.input_json ++ (((delta.get "partial_json").bind Json.asStr).getD []) }
  else self

/-- The fragment that a delta puts behind a string of the block. -/
def fragment (delta : Json) : Option Text :=
  let type := (delta.at_ "type").asStr
  let field :=
    if type = some (utf8 "text_delta") then delta.get "text"
    else if type = some (utf8 "thinking_delta") then delta.get "thinking"
    else if type = some (utf8 "signature_delta") then delta.get "signature"
    else none
  field.bind Json.asStr

/-- There is a fragment, and no field of the block to put it in. -/
def stopsAt (self : BufferedBlock) (delta : Json) : Bool := (fragment delta).isSome && !takesFields self.block

/-- An input that does not parse is put down as empty. -/
def toBlock (serde : SerdeJson) (self : BufferedBlock) : Json :=
  if isToolUse self.block then
    setField self.block "input" (match parseToolInput serde self.input_json with
      | .ok input => .obj input
      | .error _ => .obj [])
  else self.block

end BufferedBlock

/-- How far the message of a round has got. -/
inductive RoundState where
  | active | completed | upstreamError
deriving DecidableEq

/-- What is known of the message that the client is sent. -/
structure MessagesStreamAccumulator where
  message_started : Bool
  /-- A `u32`, which wraps. -/
  next_index : Nat
  /-- The client's index of each block that is passed on in this round. -/
  index_map : List (Nat × Nat)
  suppressed_indices : List Nat
  blocks : List (Nat × BufferedBlock)
  ended_on_tool_use : Bool
  has_client_tool_use : Bool
  final_message_delta : Option Json
  round_state : RoundState
  gateway_map : GatewayToolMap

/-- A tool use with its input as it was streamed. -/
structure StreamedCall where
  id : Text
  name : Text
  input_json : Text

/-- The tool use of a block, where it is the gateway's. -/
def BufferedBlock.call (self : BufferedBlock) : Option StreamedCall :=
  if self.is_gateway_tool then some ⟨strField self.block "id", strField self.block "name", self.input_json⟩ else none

/-- The type of an event. -/
def eventType (event : Json) : Option Text := (event.at_ "type").asStr

/-- The index of the block an event is about. -/
def blockIndex (event : Json) : Nat := ((event.get "index").bind Json.asU64).getD 0

namespace MessagesStreamAccumulator

/-- No event yet. -/
def new (gateway_map : GatewayToolMap) : MessagesStreamAccumulator :=
  ⟨false, 0, [], [], [], false, false, none, .active, gateway_map⟩

/-- A round begins with no block. -/
def beginRound (self : MessagesStreamAccumulator) : MessagesStreamAccumulator :=
  { self with
    index_map := [], suppressed_indices := [], blocks := [], ended_on_tool_use := false, has_client_tool_use := false
    round_state := .active, final_message_delta := none }

/-- The blocks in the order of their indices. -/
def orderedBlocks (self : MessagesStreamAccumulator) : List BufferedBlock :=
  (self.blocks.mergeSort fun a b => a.1 ≤ b.1).map Prod.snd

/-- How many tool uses of the gateway the round has. -/
def gatewayCallCount (self : MessagesStreamAccumulator) : Nat := self.blocks.countP fun entry => entry.2.is_gateway_tool

/-- The blocks of the round and its calls. -/
def takeRound (serde : SerdeJson) (self : MessagesStreamAccumulator) : List Json × List StreamedCall :=
  (self.orderedBlocks.map (·.toBlock serde), self.orderedBlocks.filterMap BufferedBlock.call)

/-- The loop goes on where the message stopped for tools, and all of them are the gateway's. -/
def shouldContinueLoop (self : MessagesStreamAccumulator) : Bool :=
  self.ended_on_tool_use && 0 < self.gatewayCallCount && !self.has_client_tool_use

/-- The first message is opened, without its content. -/
def onMessageStart (self : MessagesStreamAccumulator) (event : Json) : MessagesStreamAccumulator × List ClientEvent :=
  if self.message_started then (self, []) else ({ self with message_started := true }, [.sse "message_start" event])

/-- The opening of a block goes to the client under the next index, unless it is of the gateway's tool. -/
def onBlockStart (self : MessagesStreamAccumulator) (event : Json) : MessagesStreamAccumulator × List ClientEvent :=
  let up_index := blockIndex event
  let block := event.at_ "content_block"
  let is_gateway_tool := isGatewayToolUse self.gateway_map block
  let self := { self with blocks := insertEntry self.blocks up_index ⟨block, [], is_gateway_tool⟩ }
  if is_gateway_tool then ({ self with suppressed_indices := up_index :: self.suppressed_indices }, [])
  else
    ({ self with
        has_client_tool_use := self.has_client_tool_use || isToolUse block
        next_index := (self.next_index + 1) % 2 ^ 32
        index_map := insertEntry self.index_map up_index self.next_index },
      [.sse "content_block_start" (setField event "index" (.num (.posInt self.next_index)))])

/-- The event under the client's index, unless its block is not passed on. -/
def forwardBlockEvent (self : MessagesStreamAccumulator) (name : Text) (event : Json) : List ClientEvent :=
  if self.suppressed_indices.contains (blockIndex event) then []
  else match self.index_map.lookup (blockIndex event) with
    | none => []
    | some client_index => [.sse name (setField event "index" (.num (.posInt client_index)))]

/-- A part of a block is kept, and goes to the client where its opening did. -/
def onBlockDelta (self : MessagesStreamAccumulator) (event : Json) : MessagesStreamAccumulator × List ClientEvent :=
  let self := match self.blocks.lookup (blockIndex event) with
    | some buffered => { self with blocks := insertEntry self.blocks (blockIndex event) (buffered.applyDelta (event.at_ "delta")) }
    | none => self
  (self, self.forwardBlockEvent "content_block_delta" event)

/-- The end of a block goes to the client where its opening did. -/
def onBlockStop (self : MessagesStreamAccumulator) (event : Json) : MessagesStreamAccumulator × List ClientEvent :=
  (self, self.forwardBlockEvent "content_block_stop" event)

/-- The stop reason is kept for the end. -/
def onMessageDelta (self : MessagesStreamAccumulator) (event : Json) : MessagesStreamAccumulator :=
  { self with
    ended_on_tool_use := decide (((event.at_ "delta").at_ "stop_reason").asStr = some (utf8 "tool_use"))
    final_message_delta := some event }

/-- What an event does, and what the client is sent of it. -/
def pushEvent (self : MessagesStreamAccumulator) (event : Json) : MessagesStreamAccumulator × List ClientEvent :=
  let type := eventType event
  if type = some (utf8 "message_start") then self.onMessageStart event
  else if type = some (utf8 "content_block_start") then self.onBlockStart event
  else if type = some (utf8 "content_block_delta") then self.onBlockDelta event
  else if type = some (utf8 "content_block_stop") then self.onBlockStop event
  else if type = some (utf8 "message_delta") then (self.onMessageDelta event, [])
  else if type = some (utf8 "error") then ({ self with round_state := .upstreamError }, [.sse "error" event])
  else if type = some (utf8 "message_stop") then ({ self with round_state := .completed }, [])
  else (self, [])

/-- The event is a delta that `append_str` panics on. -/
def stopsAt (self : MessagesStreamAccumulator) (event : Json) : Bool :=
  eventType event = some (utf8 "content_block_delta") &&
    (self.blocks.lookup (blockIndex event)).any fun buffered => buffered.stopsAt (event.at_ "delta")

/-- The message is ended. -/
def finish (self : MessagesStreamAccumulator) : List ClientEvent :=
  (self.final_message_delta.map fun delta => ClientEvent.sse "message_delta" delta).toList ++
    [.sse "message_stop" (.obj [("type", .str "message_stop")])]

end MessagesStreamAccumulator

section
variable (serde : SerdeJson)

/-- The event of a line, if it has one. -/
def lineEvent (line : Text) : Option Json :=
  match SseLine.parse line with
  | .data data => serde.fromStr data
  | .done | .ignore => none

/-- What a line does, and what the client is sent of it. -/
def MessagesStreamAccumulator.push (self : MessagesStreamAccumulator) (line : Text) :
    MessagesStreamAccumulator × List ClientEvent :=
  match lineEvent serde line with
  | none => (self, [])
  | some event => self.pushEvent event

/-- The accumulator behind a round, what the client was sent, the error of a transport that broke, and whether the round
panicked. -/
structure ReadRound where
  acc : MessagesStreamAccumulator
  sent : List ClientEvent
  broken : Option Text
  panicked : Bool

/-- The lines of a round, up to its end. -/
def readRound (acc : MessagesStreamAccumulator) : List (Except Text Text) → ReadRound
  | [] => ⟨acc, [], none, false⟩
  | .error error :: _ => ⟨acc, [], some error, false⟩
  | .ok line :: lines =>
    if (lineEvent serde line).any acc.stopsAt then ⟨acc, [], none, true⟩
    else
      let (acc, out) := acc.push serde line
      if acc.round_state ≠ .active then ⟨acc, out, none, false⟩
      else
        let rest := readRound acc lines
        { rest with sent := out ++ rest.sent }

/-- An error of the executor, as the client is told. -/
def executorErrorSse (error : ExecutorError) : ClientEvent :=
  match error with
  | .llmRequest _ body =>
    match serde.fromStr body with
    | some value =>
      if eventType value = some (utf8 "error") then
        if body.any fun b => b = 0x0d || b = 0x0a then .sse "error" value else .errorBody body
      else errorSse error.display
    | none => errorSse error.display
  | _ => errorSse error.display

variable (tools : MessagesTools)

/-- A streamed call is run, unless it is beyond the bound. -/
def executeStreamedCall (round allowed_searches index : Nat) (call : StreamedCall) : ExecutedCall :=
  if allowed_searches ≤ index then ⟨none, webSearchBudgetExhaustedResult call.id⟩
  else match parseToolInput serde call.input_json with
    | .ok input => executeCall tools round index call.id call.name input
    | .error reason => ⟨none, call.id, reason ++ utf8 "; tool was not run", true⟩

/-- Runs the calls of one streamed round, numbering them from 0. -/
def executeStreamedCalls (round allowed_searches : Nat) (calls : List StreamedCall) : List ExecutedCall :=
  calls.mapIdx (executeStreamedCall serde tools round allowed_searches)

/-- The rounds that are left, from `round` on. `respond` is the lines upstream answers with in a round. -/
def streamRounds (respond : Nat → ExecutorResult (List (Except Text Text))) : Nat → Nat → MessagesRequestContext →
    MessagesStreamAccumulator → List RoundTrace × List ClientEvent
  | 0, _, _, _ => ([], [errorSse (utf8 "gateway tool loop exceeded " ++ decimal MAX_GATEWAY_TOOL_ROUNDS ++ utf8 " rounds")])
  | rounds + 1, round, ctx, acc =>
    match respond round with
    | .error error => ([⟨ctx.upstreamBody, []⟩], [executorErrorSse serde error])
    | .ok lines =>
      let read := readRound serde acc.beginRound lines
      match read.broken with
      | some error => ([⟨ctx.upstreamBody, []⟩], read.sent ++ [errorSse error])
      | none =>
        -- a panic ends the stream where it stands
        if read.panicked then ([⟨ctx.upstreamBody, []⟩], read.sent)
        else if read.acc.round_state = .upstreamError then ([⟨ctx.upstreamBody, []⟩], read.sent)
        else if !read.acc.shouldContinueLoop then ([⟨ctx.upstreamBody, []⟩], read.sent ++ read.acc.finish)
        else
          let (assistant_content, calls) := read.acc.takeRound serde
          let (allowed_searches, reserved) := ctx.reserveSearches calls.length
          let executed := executeStreamedCalls serde tools round allowed_searches calls
          let (later, sent) := streamRounds respond rounds (round + 1)
            (reserved.appendRound assistant_content (executed.map (·.result))) { read.acc with blocks := [] }
          (⟨ctx.upstreamBody, dispatchedCalls executed⟩ :: later, read.sent ++ sent)

/-- The first request is sent before the stream begins, and its error is the answer. -/
def runMessagesStream (respond : Nat → ExecutorResult (List (Except Text Text))) (ctx : MessagesRequestContext) :
    List RoundTrace × ExecutorResult (List ClientEvent) :=
  match respond 0 with
  | .error error => ([⟨(ctx.forceStream true).upstreamBody, []⟩], .error error)
  | .ok _ =>
    let (rounds, sent) := streamRounds serde tools respond MAX_GATEWAY_TOOL_ROUNDS 0 (ctx.forceStream true) (.new tools.map)
    (rounds, .ok sent)

end

end AgenticStack.Messages
