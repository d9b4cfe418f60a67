import AgenticStack.Executor.PendingCalls

/-!
# How an error is shown

The status and the error object that a client is sent for an executor error. A
failed write is shown as itself only when the conversation was changed meanwhile.
-/

namespace AgenticStack
set_option autoImplicit false
open Library

namespace ExecutorError

/-- Whether the error is of a search or of a tool that was withheld. -/
def isInvalidUpstreamToolSearch : ExecutorError → Bool
  | .invalidUpstreamToolSearch | .upstreamWithheldFunctionCall => true
  | _ => false

/-- Whether the cause is that another turn changed the conversation. -/
def containsConversationLocked : ExecutorError → Bool
  | .conversationLocked => true
  | .persistence source => source.containsConversationLocked
  | _ => false

/-- What the client is told: a conversation that has changed is named, whatever it came wrapped in. -/
def clientVisibleError : ExecutorError → ExecutorError
  | .persistence source => if source.containsConversationLocked then source.clientVisibleError else .persistence source
  | error => error

/-- The HTTP status of the error. -/
def httpStatus (error : ExecutorError) : Nat :=
  match error.clientVisibleError with
  | .storage _ true => 404
  | .llmRequest status _ | .llmTransport status _ => status
  | .conversationLocked | .toolConfig _ | .missingOutput _ | .invalidRequest _ | .jsonError _ => 400
  | .toolExecution _ | .invalidUpstreamToolSearch | .upstreamWithheldFunctionCall | .compactionFailed .. => 502
  | .conflict _ => 409
  | .payloadTooLarge _ => 413
  | .parseError _ => 422
  | .storage _ false | .persistence _ | .networkError _ | .streamError _ => 500

/-- The kind of the error, as the client is told. -/
def errorType (error : ExecutorError) : Text :=
  match error.clientVisibleError with
  | .conversationLocked | .toolConfig _ | .missingOutput _ | .invalidRequest _ | .parseError _ | .jsonError _
  | .payloadTooLarge _ => "invalid_request_error"
  | .storage _ true => "not_found"
  | .conflict _ => "conflict_error"
  | .llmRequest .. | .llmTransport .. | .compactionFailed .. => "upstream_error"
  | .toolExecution _ | .invalidUpstreamToolSearch | .upstreamWithheldFunctionCall => "tool_error"
  | .storage _ false | .persistence _ | .networkError _ | .streamError _ => "server_error"

/-- The code of the error, as the client is told. -/
def errorCode (error : ExecutorError) : Text :=
  match error.clientVisibleError with
  | .conversationLocked => "conversation_locked"
  | .conflict _ => "response_already_stored"
  | .payloadTooLarge _ => "body_too_large"
  | other => other.errorType

/-- The field of the request that the error is about. -/
def errorParam (error : ExecutorError) : Option Text :=
  match error.clientVisibleError with
  | .conversationLocked => some "conversation"
  | .missingOutput _ => some "input"
  | _ => none

/-- `Display`. -/
def display : ExecutorError → Text
  | .invalidRequest message => utf8 "invalid request: " ++ message
  | .missingOutput call_id => utf8 "tool error: No tool output found for function call " ++ call_id ++ utf8 "."
  | .streamError message => utf8 "stream error: " ++ message
  | .parseError message => utf8 "parse error: " ++ message
  | .jsonError message => utf8 "json error: " ++ message
  | .payloadTooLarge message => message
  | .conflict message => utf8 "conflict: " ++ message
  | .storage message _ => utf8 "storage error: " ++ message
  | .persistence _ => "failed to persist response"
  | .conversationLocked => "conversation changed while the response was being generated; retry the request"
  | .llmRequest status body => utf8 "LLM request failed (" ++ decimal status ++ utf8 "): " ++ body
  | .llmTransport _ message => message
  | .networkError message => utf8 "network error: " ++ message
  | .compactionFailed status details =>
    utf8 "compaction summarization failed with status '" ++ status ++ utf8 "': " ++ details
  | .toolExecution message => utf8 "tool error: execution failed: " ++ message
  | .toolConfig message => utf8 "tool error: invalid tool config: " ++ message
  | .invalidUpstreamToolSearch => "tool error: upstream returned an invalid tool-search call"
  | .upstreamWithheldFunctionCall =>
    "tool error: upstream returned a call for a function that has not been loaded"

/-- The text of the error, as the client is told. -/
def errorMessage (error : ExecutorError) : Text :=
  match error.clientVisibleError with
  | .missingOutput call_id => utf8 "No tool output found for function call " ++ call_id ++ utf8 "."
  | other => other.display

/-- The error object shared by HTTP and the stream. -/
def responseError (error : ExecutorError) : Json :=
  let code := match error.clientVisibleError with
    | .missingOutput _ => Json.null
    | _ => .str error.errorCode
  .obj ([(utf8 "message", .str error.errorMessage), (utf8 "type", .str error.errorType), (utf8 "code", code)]
    ++ (error.errorParam.map fun param => (utf8 "param", Json.str param)).toList)

end ExecutorError
end AgenticStack
