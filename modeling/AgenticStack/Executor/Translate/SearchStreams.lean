import AgenticStack.Executor.Translate.LateNaming
import AgenticStack.Executor.Translate.SearchChecks

/-!
# The search of a streamed round

A round has one search, the upstream's own or a call of the search function. Whichever comes
first is noted, and stays noted for the rest of the round.
-/

namespace AgenticStack
set_option autoImplicit false
open Library Tools ToolSearch

namespace TranslationDispatcher
open PushedLine

section
variable {τ σ : Type} {translators : ToolTranslators τ} {context : TranslationContext σ} {d m d' : TranslationDispatcher τ σ}
  {item_id name : Text} {p : Nat} {original : Option EventFrame} {frame : EventFrame} {call : Option AccumulatedFunctionCall}
  {out : List EventFrame} {frames : List EventFrame} {t : Translation}

variable (context) in
/-- What is noted of the searches stays, unless a search is started. -/
def Starts (s s' : σ) : Prop := s' = s ∨ ∃ index call_id, context.startSynthetic s index call_id = .ok s'

end

section
variable {τ : Type} {translators : ToolTranslators τ} {serde : SerdeJson} {tools : RoundTools}
  {restoreWire : List (Text × Json) → ExecutorResult (List (Text × Json))} {s s' : ToolSearchStreamState}
  {d d' : TranslationDispatcher τ ToolSearchStreamState} {identity : ToolSearchIdentity} {frame : EventFrame}
  {line : PushedLine} {lines : List PushedLine} {t : Translation} {ts : List Translation}

/-- A search is started where none was. -/
theorem startToolSearchCall_ok : s.startToolSearchCall identity = .ok s' ↔
    s.tool_search_identity = none ∧ s' = { s with tool_search_identity := some identity } := by
  unfold ToolSearchStreamState.startToolSearchCall
  cases s.tool_search_identity with
  | none => simp [eq_comm]
  | some known => simp

/-- A search that was started is not started again. -/
theorem Starts.kept (starts : Starts (tools.context serde restoreWire) s s') (known : s.tool_search_identity = some identity) :
    s' = s := by
  rcases starts with same | ⟨index, call_id, started⟩
  · exact same
  · rw [(startToolSearchCall_ok.1 started).1] at known
    cases known

end

section
variable {serde : SerdeJson} {searches : ToolTranslators (Option ToolSearchCallState)}
  {event : ToolEvent} {call : Option AccumulatedFunctionCall} {state state' : Option ToolSearchCallState} {out : List EventFrame}
  {translator' : ClientTranslator (Option ToolSearchCallState)} {item_id name : Text} {p : Nat} {original : Option EventFrame}
  {frame : EventFrame}

variable {tools : RoundTools} {restoreWire : List (Text × Json) → ExecutorResult (List (Text × Json))} {id : Text}
  {d d' : TranslationDispatcher (ClientTranslator (Option ToolSearchCallState)) ToolSearchStreamState} {line : PushedLine}
  {lines : List PushedLine} {t : Translation} {ts : List Translation}

end
end TranslationDispatcher

section
open TranslationDispatcher PushedLine
variable {serde : SerdeJson} {tools : RoundTools} {restoreWire : List (Text × Json) → ExecutorResult (List (Text × Json))}
  {d : TranslationDispatcher (ClientTranslator (Option ToolSearchCallState)) ToolSearchStreamState} {p : Nat} {item_id : Text}
  {prior after : List PushedLine} {opening : EventFrame} {call : Option AccumulatedFunctionCall} {ts : List Translation}
  {unfinished : List Text}

end

/-- Tools are searched, and nothing is called but the search. -/
def searchTools : RoundTools := ⟨[], [], {utf8 "weather"}, true, none⟩

/-- A delta of the message behind it. -/
def messageDelta : EventFrame := ⟨.outputTextDelta, .none, ⟨none, none, some 1, []⟩⟩

end AgenticStack
