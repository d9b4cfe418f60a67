import AgenticStack.Executor.Pipeline.DeliveryRuns
import AgenticStack.Executor.Translate.Client
import AgenticStack.Executor.Translate.LateNames

/-!
# Late names and names from the start

A call that gets its name late shows what it would have shown with the name from
the start, but for two things: the opening event comes as it was sent, without
the name, and a translator that follows the accumulated arguments finds them all
there at once.
-/

namespace AgenticStack
set_option autoImplicit false
open Library TranslationDispatcher PushedLine

section
variable {ctx : Engine.RequestContext} {output_offset : Nat} {serde : SerdeJson} {values : SerdeValues}
  {registry : ToolRegistry} {ts : List Translation} {d d' : StreamDelivery} {o : Outlet} {p : Nat}

/-- What is hidden behind an earlier item is hidden behind a later one. -/
theorem visible_below {first : Nat} {position : Option Nat} (below : first ≤ p) (visible : hides (some first) position = false) :
    hides (some p) position = false := by
  cases position with
  | none => rfl
  | some index =>
    have before : ¬ first ≤ index := by simpa [hides] using visible
    have behind : ¬ p ≤ index := by omega
    simpa [hides] using behind

/-- While frames are held back from `p` or before, the client is shown nothing at or after `p`. -/
theorem StreamDelivery.Accepted.behind (h : Accepted ctx output_offset serde values registry ts d d')
    (held : ∀ t ∈ ts, ∃ first, t.defer_from_output_index = some first ∧ first ≤ p) (opened : d.outlet = some o) :
    ∃ o' emitted, d'.outlet = some o' ∧ o'.shown = o.shown ++ emitted ∧ ∀ f ∈ emitted, hides (some p) f.position = false := by
  induction h generalizing o with
  | nil => exact ⟨o, [], opened, (List.append_nil _).symm, by simp⟩
  | cons first rest ih =>
    rw [List.forall_mem_cons] at held
    obtain ⟨⟨index, barrier, below⟩, held⟩ := held
    obtain ⟨o₁, one⟩ := accept_accepts first opened
    obtain ⟨emitted, shown, visible⟩ := one.emitted
    obtain ⟨o₂, more, opened₂, shown₂, visible₂⟩ := ih held one.opened
    refine ⟨o₂, emitted ++ more, opened₂, by rw [shown₂, shown, List.append_assoc], ?_⟩
    intro f mem
    rcases List.mem_append.1 mem with mem | mem
    · rw [barrier] at visible
      exact visible_below below (visible f mem)
    · exact visible₂ f mem

end

/-- The lines of a round in which the call at `p` is opened without a name, and `naming` gives it one after its deltas. -/
structure LateCall (p : Nat) (item_id name : Text) (prior : List PushedLine) (opening : EventFrame) (held : List PushedLine)
    (naming : EventFrame) (call : Option AccumulatedFunctionCall) (after : List PushedLine) : Prop where
  fresh : ∀ line ∈ prior, line.callIndex ≠ some p
  opens : opening.opensUnnamed p = true
  between : ∀ line ∈ held, line.Between p
  names : naming.naming = some (item_id, name)
  index : naming.callIndex = some p
  on : ∀ line ∈ after, line.GoesOn p
  ends : Ends p (.event naming call :: after)

/-- The lines of a round in which the call at `p` is opened with its name. -/
structure NamedCall (p : Nat) (item_id name : Text) (prior : List PushedLine) (opening : EventFrame) (after : List PushedLine) :
    Prop where
  fresh : ∀ line ∈ prior, line.callIndex ≠ some p
  opens : opening.opensNamed p item_id name = true
  on : ∀ line ∈ after, line.GoesOn p
  ends : Ends p after

section
variable {τ σ : Type} {translators : ToolTranslators τ} {context : TranslationContext σ} {tool_search : σ}
  {d d' : TranslationDispatcher τ σ} {p : Nat} {item_id name : Text} {prior held after : List PushedLine}
  {opening naming : EventFrame} {first call : Option AccumulatedFunctionCall} {ts ts' : List Translation}

/-- The bytes of the calls that wait are counted. -/
theorem buffered_total (b : Buffered d) :
    d.pending_bytes = (d.pending_unnamed.flatMap fun entry => entry.2.frames.map EventFrame.bytes).sum := by
  rw [b.total, List.flatMap, List.sum_flatten, List.map_map]
  congr 1
  exact List.map_congr_left b.counted

/-- The name is missing from the opening on. -/
theorem LateCall.waits (late : LateCall p item_id name prior opening held naming call after)
    (ran : run translators context (new tool_search) (prior ++ .event opening first :: held) = .ok (d, ts)) :
    Unnamed p (opening :: eventsOf p held) d ∧ shownOf p (prior ++ .event opening first :: held) ts = [] ∧
      ∀ t ∈ ts.drop prior.length, ∃ first, t.defer_from_output_index = some first ∧ first ≤ p := by
  obtain ⟨m, before, rest, ran₀, ran₁, rfl, length⟩ := run_append ran
  have start : Buffered (new tool_search : TranslationDispatcher τ σ) := buffered_new
  have buffered := run_buffered start ran₀
  obtain ⟨frames, active⟩ := run_apart start late.fresh ran₀
  obtain ⟨m₁, t, rest, opened, ran₂, rfl⟩ := run_cons ran₁
  obtain ⟨unnamed, silent⟩ := push_unnamed buffered active frames late.opens opened
  obtain ⟨-, barrier, -⟩ := push_apart buffered opened
  obtain ⟨waits, none, barriers⟩ := unnamed.run late.between ran₂
  have index : PushedLine.callIndex (.event opening first) = some p :=
    (@opensUnnamed_dispatch _ _ translators context m _ first _ late.opens).1
  refine ⟨waits, ?_, ?_⟩
  · rw [shownOf_append length, shownOf_none late.fresh, shownOf_own index, silent, none]
    rfl
  · rw [← length, List.drop_left, List.forall_mem_cons]
    obtain ⟨least, found, below⟩ := unnamed.barrier
    exact ⟨⟨least, by rw [barrier, found], below⟩, barriers⟩

/-- The frame that names a call is not its opening. -/
theorem naming_isFunctionAdded (names : naming.naming = some (item_id, name)) : naming.isFunctionAdded = false := by
  unfold EventFrame.naming at names
  unfold EventFrame.isFunctionAdded
  split at names
  all_goals first | (rename_i payload; rw [payload]) | cases names

/-- And then the name comes. -/
theorem LateCall.shows (late : LateCall p item_id name prior opening held naming call after) {frames : List EventFrame}
    (waits : Unnamed p frames d) (ran : run translators context d (.event naming call :: after) = .ok (d', ts)) :
    ShowsCall translators context name (replayedEvents item_id name p call frames ++ toolEventsOf p (.event naming call :: after))
        (shownOf p (.event naming call :: after) ts) ∧
      ∃ m t rest, d.push translators context (.event naming call) = .ok (m, t) ∧ ts = t :: rest ∧ Buffered m ∧
        m.framesAt p = none ∧ d.pending_bytes = m.pending_bytes + (frames.map EventFrame.bytes).sum := by
  obtain ⟨m, t, rest, named, ran₁, rfl⟩ := run_cons ran
  obtain ⟨buffered, gone, bytes, running, stays, goes⟩ :=
    waits.named late.names late.index (naming_isFunctionAdded late.names) named
  obtain ⟨last, ends⟩ := List.pairwise_cons.1 late.ends
  refine ⟨?_, m, t, rest, named, rfl, buffered, gone, bytes⟩
  rw [@shownOf_own p (.event naming call) after t rest late.index]
  refine goes after _ ?_
  cases done : naming.isFunctionDone with
  | false => exact run_running buffered (stays done) late.on ends ran₁
  | true =>
    have none : ∀ line ∈ after, line.callIndex ≠ some p := fun line mem => last line mem done late.index
    rw [toolEventsOf_none none, shownOf_none none]
    exact shows_nil

/-- A call with its name from the start shows what its translator makes of its events. -/
theorem NamedCall.shows (named : NamedCall p item_id name prior opening after)
    (ran : run translators context (new tool_search) (prior ++ .event opening first :: after) = .ok (d, ts)) :
    ShowsCall translators context name ((.added item_id name p (some opening), first) :: toolEventsOf p after)
      (shownOf p (prior ++ .event opening first :: after) ts) := by
  obtain ⟨m, before, rest, ran₀, ran₁, rfl, length⟩ := run_append ran
  have start : Buffered (new tool_search : TranslationDispatcher τ σ) := buffered_new
  rw [shownOf_append length, shownOf_none named.fresh]
  exact run_named (run_buffered start ran₀) named.opens named.on named.ends ran₁

end
end AgenticStack
