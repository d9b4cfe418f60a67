import AgenticStack.Executor.Translate.Custom
import AgenticStack.Executor.Translate.RunningCalls
import AgenticStack.Executor.Translate.Shell

/-!
# The translators of the clients' tools

The events of a plain function, and of a member of a namespace, go through as
they come; custom and shell calls, and searches of tools, have translators of
their own. The translator of searches is given.
-/

namespace AgenticStack
set_option autoImplicit false
open Library

/-- `FunctionTranslator`, which `CodexNamespaceTranslator` calls too. -/
def FunctionTranslator.translate (event : ToolEvent) : List EventFrame :=
  match event with
  | .added _ _ _ original => original.toList
  | .delta frame | .argumentsDone frame | .done frame => [frame]

/-- The translators of the calls that the client runs. -/
inductive ClientTranslator (τ : Type) where
  | function
  | custom (state : Option CustomCallState)
  | shell (state : Option ShellCallState)
  | toolSearch (state : τ)

/-- The translators that `start_call` chooses from; a kind of tool that the gateway executes has none. -/
def clientTranslators {τ : Type} (serde : SerdeJson) (searches : ToolTranslators τ) :
    ToolTranslators (ClientTranslator τ) where
  newTranslator
    | .custom => .custom none
    | .shell => .shell none
    | .toolSearch => .toolSearch (searches.newTranslator .toolSearch)
    | _ => .function
  translate translator event call :=
    match translator with
    | .function => .ok (.function, FunctionTranslator.translate event)
    | .custom state => (CustomTranslator.translate serde state event call).map fun (state, frames) => (.custom state, frames)
    | .shell state => (ShellTranslator.translate serde state event call).map fun (state, frames) => (.shell state, frames)
    | .toolSearch state => (searches.translate state event call).map fun (state, frames) => (.toolSearch state, frames)
  unfinishedToolSearchItemId
    | .toolSearch state => searches.unfinishedToolSearchItemId state
    | _ => none

/-- A call whose events go through as they come. -/
def ToolType.passesOn : ToolType → Bool
  | .function | .codexNamespace => true
  | _ => false

namespace TranslationDispatcher
open PushedLine

section
variable {τ σ : Type} {serde : SerdeJson} {searches : ToolTranslators τ} {context : TranslationContext σ}
  {events : List (ToolEvent × Option AccumulatedFunctionCall)} {shown : List EventFrame} {lines : List PushedLine}
  {name : Text} {p : Nat}

/-- A function call is passed on. -/
theorem callRun_function : callRun (clientTranslators serde searches) .function events =
    .ok (.function, events.flatMap fun event => FunctionTranslator.translate event.1) := by
  unfold callRun
  induction events with
  | nil => rfl
  | cons event events ih =>
    have now : (clientTranslators serde searches).translate .function event.1 event.2 =
        .ok (.function, FunctionTranslator.translate event.1) := rfl
    rw [transduce_cons_ok now, ih]
    rfl

/-- The frame of an event is passed on. -/
theorem translate_toolEvent (frame : EventFrame) : FunctionTranslator.translate frame.toolEvent = [frame] := by
  unfold EventFrame.toolEvent
  split <;> rfl

/-- The frames of a call are passed on. -/
theorem translate_toolEventsOf :
    ((toolEventsOf p lines).flatMap fun event => FunctionTranslator.translate event.1) = eventsOf p lines := by
  induction lines with
  | nil => rfl
  | cons line lines ih =>
    by_cases index : line.callIndex = some p
    · cases line with
      | ignored => cases index
      | event frame call =>
        rw [toolEventsOf_own index, eventsOf_own index, List.flatMap_cons, translate_toolEvent, ih]
        rfl
    · rw [toolEventsOf_other index, eventsOf_other index, ih]

/-- **The events of a plain function go through**, each once and in order. -/
theorem ShowsCall.passes (passes : (context.toolType name).passesOn = true)
    (h : ShowsCall (clientTranslators serde searches) context name events shown) :
    (events.flatMap fun event => FunctionTranslator.translate event.1).mapM (restore context) = .ok shown := by
  have client : context.executes name = false := by
    unfold TranslationContext.executes
    cases kind : context.toolType name <;> rw [kind] at passes <;> first | rfl | cases passes
  have function : (clientTranslators serde searches).newTranslator (context.toolType name) = .function := by
    cases kind : context.toolType name <;> rw [kind] at passes <;> first | rfl | cases passes
  obtain ⟨translator, frames, ran, restored⟩ := (showsCall_client client).1 h
  rw [function, callRun_function] at ran
  obtain ⟨-, rfl⟩ := Prod.mk.inj (Except.ok.inj ran)
  exact restored

end
end TranslationDispatcher
end AgenticStack
