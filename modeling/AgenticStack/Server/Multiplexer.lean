import AgenticStack.Library.AssocList
import AgenticStack.Executor.Error

/-!
# The WebSocket multiplexer

A connection runs its requests in lanes, one for each `stream_id` and one for
requests without. What a request does while it runs is left open here: a task
ends whenever it likes, with any result or by a panic.
-/

namespace AgenticStack.Server
set_option autoImplicit false
open Library

/-- So many requests may wait or run. -/
def WS_MAX_OUTSTANDING_REQUESTS : Nat := 64

/-- So many bytes of requests may wait or run. -/
def WS_MAX_OUTSTANDING_BYTES : Nat := 12 * 1024 * 1024

/-- So many lanes may have a session. -/
def WS_MAX_SESSION_LANES : Nat := 128

/-- The errors of a connection. -/
inductive WsError where
  | executor (error : ExecutorError)
  | invalidJson (source : Text)
  | serializeJson (source : Text)
  | unexpectedType
  | binaryFrame
  | tooManyRequests
  | sendFailed

/-- The `stream_id` of a request; `none` is the lane of the requests without. -/
abbrev Lane := Option Text

/-- A request with its lane. -/
structure WsRequest (P : Type) where
  payload : P
  stream_id : Option Text
  generate : Option Bool

/-- A message that is no request, with its lane. -/
structure WsRequestParseError where
  previous_response_id : Option Text
  error : WsError
  stream_id : Option Text

/-- What is to be done on a lane: a request or an answer that it cannot be one. -/
inductive WsWorkItem (P : Type) where
  | execute (request : WsRequest P) (input_bytes : Nat)
  | reject (error : WsRequestParseError) (input_bytes : Nat)

section
variable {P : Type}

namespace WsWorkItem

/-- The lane of the work. -/
def lane : WsWorkItem P → Lane
  | execute request _ => request.stream_id
  | reject error _ => error.stream_id

/-- The bytes of the message. -/
def inputBytes : WsWorkItem P → Nat
  | execute _ input_bytes | reject _ input_bytes => input_bytes

end WsWorkItem

/-- The error of a message that is not admitted. -/
structure WsAdmissionError where
  error : WsError
  stream_id : Option Text

/-- What a task ends with. -/
structure RequestCompletion where
  lane : Lane
  input_bytes : Nat
  result : Except WsError Unit

/-- The bytes of the requests that wait or run. -/
structure WsByteBudget where
  used : Nat

namespace WsByteBudget

/-- Whether so many more bytes fit. -/
def canReserve (b : WsByteBudget) (input_bytes : Nat) : Bool := input_bytes ≤ WS_MAX_OUTSTANDING_BYTES - b.used

/-- `none` where the assertion fails. -/
def reserve (b : WsByteBudget) (input_bytes : Nat) : Option WsByteBudget :=
  if b.canReserve input_bytes then some { used := b.used + input_bytes } else none

/-- The bytes of a request that has ended are free again. -/
def release (b : WsByteBudget) (input_bytes : Nat) : WsByteBudget := { used := b.used - input_bytes }

end WsByteBudget

/-- The sessions of a connection, by the order in which they were made. -/
structure SessionGroup where
  max_sessions : Nat
  members : Nat
  closed : Bool

/-- The error of too many lanes. -/
def sessionLimitError : ExecutorError :=
  .invalidRequest (utf8 "response session group is closed or has reached its session limit")

/-- A group that is open and has room takes another session. -/
def SessionGroup.newSession (g : SessionGroup) : Except ExecutorError (Nat × SessionGroup) :=
  if g.closed || g.members ≥ g.max_sessions then .error sessionLimitError
  else .ok (g.members, { g with members := g.members + 1 })

/-- A task that runs a request. -/
structure RequestTask (P : Type) where
  lane : Lane
  session : Nat
  work : WsWorkItem P

/-- What joining a task gives; `joinError` is a panic. -/
inductive Joined where
  | returned (completion : RequestCompletion)
  | joinError

/-- The lanes of a connection: what runs on each and what waits. -/
structure WsMultiplexer (P : Type) where
  lanes : List (Lane × List (WsWorkItem P))
  sessions : List (Lane × Nat)
  session_group : SessionGroup
  /-- The tasks that were spawned and not joined yet. -/
  request_tasks : List (RequestTask P)
  queued_requests : Nat
  byte_budget : WsByteBudget
  shutdown_token : Bool
  /-- Every task so far, in the order of their spawns: history, not a field of the code. -/
  spawned : List (RequestTask P)

namespace WsMultiplexer

/-! Where the code panics (`expect`, a subtraction below zero, a failed debug
assertion) the functions below give `none`. -/

/-- A connection on which nothing runs. -/
def new (shutdown_token : Bool) : WsMultiplexer P :=
  { lanes := [], sessions := [], session_group := { max_sessions := WS_MAX_SESSION_LANES, members := 0, closed := false }
    request_tasks := [], queued_requests := 0, byte_budget := { used := 0 }, shutdown_token, spawned := [] }

/-- Whether another request fits. -/
def hasCapacityFor (mx : WsMultiplexer P) (input_bytes : Nat) : Bool :=
  mx.request_tasks.length + mx.queued_requests < WS_MAX_OUTSTANDING_REQUESTS && mx.byte_budget.canReserve input_bytes

/-- The work of a lane is started in its session. -/
def spawn (mx : WsMultiplexer P) (lane : Lane) (work : WsWorkItem P) : Option (WsMultiplexer P) :=
  (mx.sessions.lookup lane).map fun session =>
    let task := { lane, session, work }
    { mx with request_tasks := mx.request_tasks ++ [task], spawned := mx.spawned ++ [task] }

/-- The session of the lane, made on its first request. -/
def openSession (mx : WsMultiplexer P) (lane : Lane) : Except WsAdmissionError (WsMultiplexer P) :=
  if (mx.sessions.lookup lane).isSome then .ok mx
  else if mx.sessions.length ≥ WS_MAX_SESSION_LANES then .error { error := .tooManyRequests, stream_id := lane }
  else match mx.session_group.newSession with
    | .error error => .error { error := .executor error, stream_id := lane }
    | .ok (session, session_group) => .ok { mx with session_group, sessions := insertEntry mx.sessions lane session }

/-- A message is admitted, and starts at once where its lane is free. -/
def schedule (mx : WsMultiplexer P) (work : WsWorkItem P) :
    Option (Except WsAdmissionError Unit × WsMultiplexer P) :=
  if mx.hasCapacityFor work.inputBytes = false then
    some (.error { error := .tooManyRequests, stream_id := work.lane }, mx)
  else
    match mx.openSession work.lane with
    | .error error => some (.error error, mx)
    | .ok mx => do
      let byte_budget ← mx.byte_budget.reserve work.inputBytes
      let mx := { mx with byte_budget }
      match mx.lanes.lookup work.lane with
      | some queue =>
        let lanes := insertEntry mx.lanes work.lane (queue ++ [work])
        some (.ok (), { mx with lanes, queued_requests := mx.queued_requests + 1 })
      | none =>
        let mx ← { mx with lanes := insertEntry mx.lanes work.lane [] }.spawn work.lane work
        some (.ok (), mx)

/-- The next of a lane starts when the one before has ended. -/
def scheduleNext (mx : WsMultiplexer P) (lane : Lane) : Option (WsMultiplexer P) :=
  match mx.lanes.lookup lane with
  | some (work :: queue) =>
    if mx.queued_requests = 0 then none
    else { mx with
      lanes := insertEntry mx.lanes lane queue
      queued_requests := mx.queued_requests - 1 }.spawn lane work
  | _ => some { mx with lanes := mx.lanes.filter fun entry => entry.1 != lane }

/-- The work that waits in the lanes. -/
def queued (mx : WsMultiplexer P) : List (WsWorkItem P) := mx.lanes.flatMap Prod.snd

/-- Nothing that waits is started any more. -/
def discardQueued (mx : WsMultiplexer P) : WsMultiplexer P :=
  let discarded_bytes := (mx.queued.map WsWorkItem.inputBytes).sum
  { mx with byte_budget := mx.byte_budget.release discarded_bytes, lanes := [], queued_requests := 0 }

/-- Whether the connection goes on. -/
def finish (mx : WsMultiplexer P) (completion : Joined) (draining : Bool) : Option (Bool × WsMultiplexer P) :=
  match completion with
  | .joinError => some (false, mx)
  | .returned completion =>
    let mx := { mx with byte_budget := mx.byte_budget.release completion.input_bytes }
    match completion.result with
    | .error _ => some (false, mx)
    | .ok () =>
      if !draining && !mx.shutdown_token then (mx.scheduleNext completion.lane).map (true, ·)
      else some (true, mx)

/-- How a running task ends: its place in `request_tasks`, its result unless it
panics, and whether the shutdown token has been cancelled when it is joined. -/
structure TaskEnd where
  task : Nat
  result : Option (Except WsError Unit)
  cancelled : Bool

/-- Time passes: the token may have been cancelled. -/
def observe (mx : WsMultiplexer P) (cancelled : Bool) : WsMultiplexer P :=
  { mx with shutdown_token := mx.shutdown_token || cancelled }

/-- `join_next` or `try_join_next` that finds the given task to have ended. -/
def join (mx : WsMultiplexer P) (done : TaskEnd) : Option (Joined × WsMultiplexer P) :=
  (mx.request_tasks[done.task]?).map fun task =>
    let completion := match done.result with
      | none => Joined.joinError
      | some result => .returned { lane := task.lane, input_bytes := task.work.inputBytes, result }
    (completion, { mx with request_tasks := mx.request_tasks.eraseIdx done.task }.observe done.cancelled)

/-- Joins the tasks that have ended by now. -/
def reapReady (mx : WsMultiplexer P) (draining : Bool) : List TaskEnd → Option (Bool × WsMultiplexer P)
  | [] => some (true, mx)
  | done :: ready =>
    match mx.join done with
    | none => some (true, mx)
    | some (completion, mx) =>
      match mx.finish completion draining with
      | none => none
      | some (false, mx) => some (false, mx)
      | some (true, mx) => mx.reapReady draining ready

/-- `abort_all`, and every task joined. -/
def abortAll (mx : WsMultiplexer P) : WsMultiplexer P := { mx with request_tasks := [] }

end WsMultiplexer

/-- What a client sends. -/
inductive WsMessage where
  | text (text : Text)
  | binary
  | close
  | ping
  | pong

/-- What is found while a message is handled: whether the identity has expired,
whether what is sent to the client arrives, which tasks have ended, and whether the
token is cancelled by the first and by the second check. -/
structure MessageEnv where
  expired : Bool
  sent : Bool
  ready : List WsMultiplexer.TaskEnd
  reaped : Bool
  parsed : Bool

/-- A branch of the `select!`. -/
inductive WsSelect where
  | shutdown
  | outbound (sent : Bool)
  | completion (done : WsMultiplexer.TaskEnd)
  /-- The end of the stream, an error of the transport or a message. -/
  | message (cancelled : Bool) (message : Option (Except Unit WsMessage)) (env : MessageEnv)

/-- One round of the loop: the token and the outbound channel at its head, then a branch. -/
structure WsIteration where
  cancelled : Bool
  outboundEmpty : Bool
  select : WsSelect

/-- A connection, and whether it still takes requests. -/
structure WsConnection (P : Type) where
  multiplexer : WsMultiplexer P
  draining : Bool
  client_disconnected : Bool
  /-- The loop has been left. -/
  ended : Bool
  /-- The requests admitted so far: history, not a variable of the code. -/
  admitted : List (WsWorkItem P)

namespace WsConnection

/-- A connection that was just opened. -/
def «open» (shutdown_token : Bool) : WsConnection P :=
  { multiplexer := .new shutdown_token, draining := false, client_disconnected := false, ended := false, admitted := [] }

/-- The connection takes no more requests. -/
def beginWsDraining (c : WsConnection P) : WsConnection P :=
  { c with draining := true, multiplexer := c.multiplexer.discardQueued }

/-- The shutdown of the server is seen. -/
def observe (c : WsConnection P) (cancelled : Bool) : WsConnection P :=
  { c with multiplexer := c.multiplexer.observe cancelled }

/-- The loop is left with `client_disconnected`. -/
def disconnect (c : WsConnection P) : WsConnection P :=
  { c with client_disconnected := true, ended := true, multiplexer := c.multiplexer.abortAll }

/-- Goes on or disconnects. -/
def andThen (c : WsConnection P) (alive : Bool) : WsConnection P := if alive then c else c.disconnect

section
variable (parse : Text → Except WsRequestParseError (WsRequest P))

/-- A message as work. -/
def parseWork (text : Text) : WsWorkItem P :=
  match parse text with
  | .ok request => .execute request text.length
  | .error error => .reject error text.length

/-- A text message once the finished tasks have been reaped. -/
def admitText (c : WsConnection P) (text : Text) (env : MessageEnv) : Option (Bool × WsConnection P) :=
  if c.multiplexer.hasCapacityFor text.length = false then some (env.sent, c)
  else
    let c := c.observe env.parsed
    if c.multiplexer.shutdown_token then some (true, c.beginWsDraining)
    else match c.multiplexer.schedule (parseWork parse text) with
      | none => none
      | some (.ok (), multiplexer) => some (true, { c with multiplexer, admitted := c.admitted ++ [parseWork parse text] })
      | some (.error _, multiplexer) => some (env.sent, { c with multiplexer })

/-- What a message of the client does. -/
def handleWsClientMessage (c : WsConnection P) (env : MessageEnv) : WsMessage → Option (Bool × WsConnection P)
  | .text text =>
    if c.draining then some (true, c)
    else if env.expired then some (env.sent, c.beginWsDraining)
    else match c.multiplexer.reapReady c.draining env.ready with
      | none => none
      | some (false, multiplexer) => some (false, { c with multiplexer })
      | some (true, multiplexer) =>
        let c := { c with multiplexer }.observe env.reaped
        if c.multiplexer.shutdown_token then some (true, c.beginWsDraining) else c.admitText parse text env
  | .binary => if c.draining then some (true, c) else some (env.sent, c)
  | .close => some (false, c)
  | .ping => some (env.sent, c)
  | .pong => some (true, c)

/-- What one branch of the loop does. -/
def select (c : WsConnection P) : WsSelect → Option (WsConnection P)
  | .shutdown => if c.draining then some c else some (c.observe true).beginWsDraining
  | .outbound sent => some (c.andThen sent)
  | .completion done =>
    match c.multiplexer.join done with
    | none => some c
    | some (completion, multiplexer) =>
      (multiplexer.finish completion c.draining).map fun (alive, multiplexer) =>
        let c := { c with multiplexer }
        if alive && c.multiplexer.shutdown_token && !c.draining then c.beginWsDraining else c.andThen alive
  | .message cancelled message env =>
    let c := c.observe cancelled
    if c.multiplexer.shutdown_token && !c.draining then some c.beginWsDraining
    else match message with
      | none | some (.error ()) => some c.disconnect
      | some (.ok message) => (c.handleWsClientMessage parse env message).map fun (alive, c) => c.andThen alive

/-- One round of the loop of `responses_ws_loop`. -/
def iteration (c : WsConnection P) (i : WsIteration) : Option (WsConnection P) :=
  if c.ended then some c
  else
    let c := c.observe i.cancelled
    let c := if c.multiplexer.shutdown_token && !c.draining then c.beginWsDraining else c
    if c.draining && c.multiplexer.request_tasks.isEmpty && i.outboundEmpty then some { c with ended := true }
    else c.select parse i.select

/-- The loop, branch after branch. -/
def responsesWsLoop (c : WsConnection P) : List WsIteration → Option (WsConnection P)
  | [] => some c
  | i :: rest => (c.iteration parse i).bind fun c => c.responsesWsLoop rest

end
end WsConnection
end
end AgenticStack.Server
