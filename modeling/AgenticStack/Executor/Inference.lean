import AgenticStack.Executor.PendingCalls
import AgenticStack.Library.Lines

/-!
# Reading the upstream stream

The body of an upstream response arrives in chunks that may cut it anywhere. Its
lines are collected in a buffer; the data lines among them are passed on, each
once, up to the one that ends the stream.
-/

namespace AgenticStack
set_option autoImplicit false
open Library

/-- A line of the stream may be so long. -/
def maxSseLineBytes : Nat := 256 * 1024

/-- A byte that goes on a character. -/
def isUtf8Tail (b : UInt8) : Bool := 0x80 ≤ b && b ≤ 0xbf

/-- The bytes are well-formed UTF-8: no overlong form, no surrogate, nothing beyond the last code point. -/
def isUtf8 : Text → Bool
  | [] => true
  | b :: s =>
    if b < 0x80 then isUtf8 s
    else match s with
      | [] => false
      | c :: s =>
        if 0xc2 ≤ b && b ≤ 0xdf && isUtf8Tail c then isUtf8 s
        else match s with
          | [] => false
          | d :: s =>
            if ((b == 0xe0 && 0xa0 ≤ c && c ≤ 0xbf) || (b == 0xed && 0x80 ≤ c && c ≤ 0x9f) ||
                (0xe1 ≤ b && b ≤ 0xef && b != 0xed && isUtf8Tail c)) && isUtf8Tail d then isUtf8 s
            else match s with
              | [] => false
              | e :: s =>
                if ((b == 0xf0 && 0x90 ≤ c && c ≤ 0xbf) || (b == 0xf4 && 0x80 ≤ c && c ≤ 0x8f) ||
                    (0xf1 ≤ b && b ≤ 0xf3 && isUtf8Tail c)) && isUtf8Tail d && isUtf8Tail e then isUtf8 s
                else false

/-- A line without the carriage return before its newline, when it is text. -/
def lineText (line : Text) : Option Text :=
  let line := if line.getLast? = some 0x0d then line.dropLast else line
  if isUtf8 line then some line else none

/-- The error of a line that is too long. -/
def lineTooLong : ExecutorError :=
  .streamError (utf8 "upstream SSE line exceeded " ++ decimal maxSseLineBytes ++ utf8 " bytes")

/-- The loop of `drain_complete_utf8_lines`; every line takes a newline of the buffer. -/
def drainWithin : Nat → Text → List Text → ExecutorResult (List Text × Text)
  | 0, buffer, lines => .ok (lines, buffer)
  | fuel + 1, buffer, lines =>
    match splitFirst 0x0a buffer with
    | some (line, buffer) =>
      if maxSseLineBytes < line.length then .error lineTooLong
      else drainWithin fuel buffer (lines ++ (lineText line).toList)
    | none => if maxSseLineBytes < buffer.length then .error lineTooLong else .ok (lines, buffer)

/-- The complete lines of the buffer, and what is left in it. -/
def drainCompleteUtf8Lines (buffer : Text) : ExecutorResult (List Text × Text) := drainWithin (buffer.length + 1) buffer []

/-- The loop of `response_lines` over drained lines: the data lines in one spelling, and whether the stream has ended. -/
def yieldLines : List Text → List Text × Bool
  | [] => ([], false)
  | line :: lines =>
    match stripPrefix "data:" line with
    | none => yieldLines lines
    | some data =>
      if (stripPrefix " " data).getD data = utf8 "[DONE]" then ([], true)
      else
        let line := if (stripPrefix " " data).isSome then line else utf8 "data:" ++ utf8 " " ++ data
        (line :: (yieldLines lines).1, (yieldLines lines).2)

/-- `response_lines`, from what is in the buffer; a chunk that fails to arrive ends the stream. -/
def responseLines (buf : Text) : List (ExecutorResult Text) → List (ExecutorResult Text)
  | [] => []
  | .error e :: _ => [.error e]
  | .ok chunk :: chunks =>
    match drainCompleteUtf8Lines (buf ++ chunk) with
    | .error e => [.error e]
    | .ok (lines, buf) =>
      let (out, done) := yieldLines lines
      out.map .ok ++ if done then [] else responseLines buf chunks

/-- The value of a data line. -/
def dataField (line : Text) : Option Text := stripPrefix "data:" line

/-- The line that ends the stream. -/
def isDoneLine (line : Text) : Bool := (dataField line).any fun data => (stripPrefix " " data).getD data = utf8 "[DONE]"

/-- A data line with one blank before its value. -/
def shownLine (line : Text) : Option Text :=
  (dataField line).map fun data => if (stripPrefix " " data).isSome then line else utf8 "data:" ++ utf8 " " ++ data

/-- The data lines before the one that ends the stream. -/
def shownLines (lines : List Text) : List Text :=
  ((lines.filterMap lineText).takeWhile fun line => !isDoneLine line).filterMap shownLine

/-- One of the lines ends the stream. -/
def endsStream (lines : List Text) : Bool := (lines.filterMap lineText).any isDoneLine

variable {buffer held chunk : Text} {lines more : List Text}

/-- The lines up to the mark of the end, and whether it was there. -/
theorem yieldLines_eq : yieldLines lines = ((lines.takeWhile fun line => !isDoneLine line).filterMap shownLine, lines.any isDoneLine) := by
  induction lines with
  | nil => rfl
  | cons line lines ih =>
    unfold yieldLines
    cases field : stripPrefix (utf8 "data:") line with
    | none =>
      have notDone : isDoneLine line = false := by rw [isDoneLine, dataField, field]; rfl
      have notShown : shownLine line = none := by rw [shownLine, dataField, field]; rfl
      simp [ih, notDone, notShown]
    | some data =>
      by_cases done : (stripPrefix (utf8 " ") data).getD data = utf8 "[DONE]"
      · have isDone : isDoneLine line = true := by
          rw [isDoneLine, dataField, field]
          exact decide_eq_true done
        simp [isDone, done]
      · have notDone : isDoneLine line = false := by
          rw [isDoneLine, dataField, field]
          exact decide_eq_false done
        have shown : shownLine line = some (if (stripPrefix (utf8 " ") data).isSome then line
            else utf8 "data:" ++ utf8 " " ++ data) := by
          rw [shownLine, dataField, field]
          rfl
        dsimp only
        rw [if_neg done, ih, List.takeWhile_cons_of_pos (by simp [notDone]), List.filterMap_cons_some shown, List.any_cons,
          notDone, Bool.false_or]

/-- The lines that are shown of those that are text. -/
theorem yieldLines_texts (lines : List Text) : yieldLines (lines.filterMap lineText) = (shownLines lines, endsStream lines) :=
  yieldLines_eq

/-- The end is in the lines or in those that follow. -/
theorem endsStream_append : endsStream (lines ++ more) = (endsStream lines || endsStream more) := by
  unfold endsStream
  rw [List.filterMap_append, List.any_append]

/-- The lines up to the end, where more lines follow. -/
theorem takeWhile_notDone_append (lines more : List Text) : ((lines ++ more).takeWhile fun line => !isDoneLine line) =
    if lines.any isDoneLine then lines.takeWhile fun line => !isDoneLine line
    else (lines.takeWhile fun line => !isDoneLine line) ++ more.takeWhile fun line => !isDoneLine line := by
  induction lines with
  | nil => rfl
  | cons line lines ih =>
    cases done : isDoneLine line with
    | true => simp [done]
    | false =>
      rw [List.cons_append, List.takeWhile_cons_of_pos (by simp [done]), List.takeWhile_cons_of_pos (by simp [done]), ih,
        List.any_cons, done, Bool.false_or]
      split <;> rfl

/-- Lines behind the end of the stream are not shown; others are shown behind the first. -/
theorem shownLines_append : shownLines (lines ++ more) =
    if endsStream lines then shownLines lines else shownLines lines ++ shownLines more := by
  unfold shownLines endsStream
  rw [List.filterMap_append, takeWhile_notDone_append]
  split
  · rfl
  · rw [List.filterMap_append]

/-- What is shown of the lines is the beginning of what is shown of more of them. -/
theorem shownLines_prefix_append : shownLines lines <+: shownLines (lines ++ more) := by
  rw [shownLines_append]
  split
  · exact List.prefix_refl _
  · exact List.prefix_append _ _

/-- What a loop over a buffer drains of it. -/
theorem drainWithin_eq {fuel : Nat} (enough : buffer.length < fuel) (lines : List Text) :
    drainWithin fuel buffer lines =
      if LinesWithin maxSseLineBytes 0x0a [] buffer then
        .ok (lines ++ (feedLines 0x0a [] buffer).1.filterMap lineText, (feedLines 0x0a [] buffer).2)
      else .error lineTooLong := by
  induction fuel generalizing buffer lines with
  | zero => omega
  | succ fuel ih =>
    rw [drainWithin]
    cases first : splitFirst 0x0a buffer with
    | none =>
      have plain := splitFirst_eq_none_iff.1 first
      have held : feedLines 0x0a [] buffer = ([], buffer) := feedLines_plain plain
      have within : LinesWithin maxSseLineBytes 0x0a [] buffer ↔ ¬ maxSseLineBytes < buffer.length := by
        unfold LinesWithin
        rw [held]
        simp
      dsimp only
      rw [held]
      by_cases long : maxSseLineBytes < buffer.length
      · rw [if_pos long, if_neg fun fits => within.1 fits long]
      · rw [if_neg long, if_pos (within.2 long), List.filterMap_nil, List.append_nil]
    | some split =>
      obtain ⟨line, rest⟩ := split
      obtain ⟨rfl, plain⟩ := splitFirst_eq_some_iff.1 first
      have fed : feedLines 0x0a [] (line ++ 0x0a :: rest) =
          (line :: (feedLines 0x0a [] rest).1, (feedLines 0x0a [] rest).2) := feedLines_line plain
      have within : LinesWithin maxSseLineBytes 0x0a [] (line ++ 0x0a :: rest) ↔
          line.length ≤ maxSseLineBytes ∧ LinesWithin maxSseLineBytes 0x0a [] rest := by
        unfold LinesWithin
        rw [fed]
        simp [and_assoc]
      dsimp only
      rw [fed]
      by_cases long : maxSseLineBytes < line.length
      · rw [if_pos long, if_neg fun fits => absurd (within.1 fits).1 (by omega)]
      · have shorter : rest.length < fuel := by
          rw [List.length_append, List.length_cons] at enough
          omega
        rw [if_neg long, ih shorter]
        by_cases fits : LinesWithin maxSseLineBytes 0x0a [] rest
        · rw [if_pos fits, if_pos (within.2 ⟨by omega, fits⟩), List.append_assoc]
          cases text : lineText line <;> simp [text]
        · rw [if_neg fits, if_neg fun all => fits (within.1 all).2]

/-- The buffer is drained of every line that is complete. -/
theorem drainCompleteUtf8Lines_eq (buffer : Text) : drainCompleteUtf8Lines buffer =
    if LinesWithin maxSseLineBytes 0x0a [] buffer then
      .ok ((feedLines 0x0a [] buffer).1.filterMap lineText, (feedLines 0x0a [] buffer).2)
    else .error lineTooLong :=
  drainWithin_eq (Nat.lt_succ_self _) []

/-- What one chunk shows. -/
theorem responseLines_cons (plain : (0x0a : UInt8) ∉ held) (chunks : List (ExecutorResult Text)) :
    responseLines held (.ok chunk :: chunks) =
      if LinesWithin maxSseLineBytes 0x0a held chunk then
        (shownLines (feedLines 0x0a held chunk).1).map .ok ++
          if endsStream (feedLines 0x0a held chunk).1 then [] else responseLines (feedLines 0x0a held chunk).2 chunks
      else [.error lineTooLong] := by
  have fed : feedLines 0x0a [] (held ++ chunk) = feedLines 0x0a held chunk := feedLines_nil_append plain
  have within : LinesWithin maxSseLineBytes 0x0a [] (held ++ chunk) ↔ LinesWithin maxSseLineBytes 0x0a held chunk := by
    unfold LinesWithin
    rw [fed]
  rw [responseLines, drainCompleteUtf8Lines_eq, fed]
  by_cases fits : LinesWithin maxSseLineBytes 0x0a held chunk
  · rw [if_pos fits, if_pos (within.2 fits)]
    dsimp only
    rw [yieldLines_texts]
  · rw [if_neg fits, if_neg fun all => fits (within.1 all)]

/-- The chunks of a body, and the failure that ends them, if one does. -/
def bodyChunks (chunks : List Text) (failure : Option ExecutorError) : List (ExecutorResult Text) :=
  chunks.map .ok ++ failure.toList.map .error

variable {chunks : List Text} {failure : Option ExecutorError}

/-- A body without chunks gives its failure. -/
theorem responseLines_failure : responseLines held (bodyChunks [] failure) = failure.toList.map .error := by
  cases failure <;> rfl

/-- **A body within the limit** shows its data lines, however it is cut. -/
theorem responseLines_within (plain : (0x0a : UInt8) ∉ held) (fits : LinesWithin maxSseLineBytes 0x0a held chunks.flatten) :
    responseLines held (bodyChunks chunks failure) =
      (shownLines (feedLines 0x0a held chunks.flatten).1).map .ok ++
        if endsStream (feedLines 0x0a held chunks.flatten).1 then [] else failure.toList.map .error := by
  induction chunks generalizing held with
  | nil => exact responseLines_failure
  | cons chunk chunks ih =>
    rw [List.flatten_cons] at fits ⊢
    obtain ⟨now, later⟩ := linesWithin_append.1 fits
    have step := @responseLines_cons held chunk plain (bodyChunks chunks failure)
    rw [if_pos now] at step
    rw [feedLines_append, shownLines_append, endsStream_append]
    refine step.trans ?_
    cases done : endsStream (feedLines 0x0a held chunk).1 with
    | true => rfl
    | false =>
      rw [if_neg Bool.false_ne_true, if_neg Bool.false_ne_true, ih (feedLines_held plain) later, Bool.false_or,
        List.map_append, List.append_assoc]

/-- However a body is cut, what is shown of it begins its data lines. -/
theorem responseLines_prefix (plain : (0x0a : UInt8) ∉ held) :
    ∃ out ending, responseLines held (bodyChunks chunks failure) = out.map .ok ++ ending ∧
      out <+: shownLines (feedLines 0x0a held chunks.flatten).1 ∧
      (ending = [] ∨ ending = [.error lineTooLong] ∨ ending = failure.toList.map .error) := by
  induction chunks generalizing held with
  | nil => exact ⟨[], _, responseLines_failure, List.nil_prefix, .inr (.inr rfl)⟩
  | cons chunk chunks ih =>
    have step := @responseLines_cons held chunk plain (bodyChunks chunks failure)
    rw [List.flatten_cons, feedLines_append]
    by_cases now : LinesWithin maxSseLineBytes 0x0a held chunk
    · rw [if_pos now] at step
      cases done : endsStream (feedLines 0x0a held chunk).1 with
      | true =>
        rw [done] at step
        exact ⟨_, [], step, shownLines_prefix_append, .inl rfl⟩
      | false =>
        obtain ⟨out, ending, rest, front, ends⟩ := ih (feedLines_held plain)
        rw [done, if_neg Bool.false_ne_true, rest] at step
        refine ⟨shownLines (feedLines 0x0a held chunk).1 ++ out, ending, ?_, ?_, ends⟩
        · rw [List.map_append, List.append_assoc]
          exact step
        · rw [shownLines_append, done, if_neg Bool.false_ne_true]
          exact (List.prefix_append_right_inj _).2 front
    · rw [if_neg now] at step
      exact ⟨[], _, step, List.nil_prefix, .inr (.inl rfl)⟩

/-- **A line beyond the limit**, before the end of the stream, is an error however the body is cut; what is shown
before the error begins the data lines before that line. -/
theorem responseLines_beyond (plain : (0x0a : UInt8) ∉ held) (short : held.length ≤ maxSseLineBytes)
    (beyond : ¬ LinesWithin maxSseLineBytes 0x0a held chunks.flatten)
    (goes_on : endsStream ((feedLines 0x0a held chunks.flatten).1.takeWhile fun line => line.length ≤ maxSseLineBytes) = false) :
    ∃ out, responseLines held (bodyChunks chunks failure) = out.map .ok ++ [.error lineTooLong] ∧
      out <+: shownLines ((feedLines 0x0a held chunks.flatten).1.takeWhile fun line => line.length ≤ maxSseLineBytes) := by
  induction chunks generalizing held with
  | nil => exact absurd ⟨fun line mem => absurd mem List.not_mem_nil, short⟩ beyond
  | cons chunk chunks ih =>
    have step := @responseLines_cons held chunk plain (bodyChunks chunks failure)
    by_cases now : LinesWithin maxSseLineBytes 0x0a held chunk
    · rw [List.flatten_cons] at beyond goes_on ⊢
      rw [feedLines_takeWhile_append now, endsStream_append, Bool.or_eq_false_iff] at goes_on
      have later : ¬ LinesWithin maxSseLineBytes 0x0a (feedLines 0x0a held chunk).2 chunks.flatten :=
        fun fits => beyond (linesWithin_append.2 ⟨now, fits⟩)
      obtain ⟨out, rest, front⟩ := ih (feedLines_held plain) now.2 later goes_on.2
      rw [if_pos now, goes_on.1, if_neg Bool.false_ne_true, rest] at step
      refine ⟨shownLines (feedLines 0x0a held chunk).1 ++ out, ?_, ?_⟩
      · rw [List.map_append, List.append_assoc]
        exact step
      · rw [feedLines_takeWhile_append now, shownLines_append, goes_on.1, if_neg Bool.false_ne_true]
        exact (List.prefix_append_right_inj _).2 front
    · rw [if_neg now] at step
      exact ⟨[], step, List.nil_prefix⟩

/-- The lines of a body that a newline ends. -/
def bodyLines (body : Text) : List Text := (feedLines 0x0a [] body).1

/-- No line of a body is beyond the limit, nor what follows the last newline. -/
def BodyWithin (body : Text) : Prop := LinesWithin maxSseLineBytes 0x0a [] body

/-- The lines before the first that is beyond the limit. -/
def linesBefore (body : Text) : List Text := (bodyLines body).takeWhile fun line => line.length ≤ maxSseLineBytes

/-- However two bodies of the same bytes are cut: within the limit both show the same, every data line before the one
that ends the stream, once and in order, and nothing but the failure after it; with a line beyond the limit, and no
end of the stream before it, both end in the same error behind data lines from before that line; and in any case what
is shown begins the data lines of the body. -/
theorem responseLines_exact (cs ds : List Text) (failure : Option ExecutorError) (same : cs.flatten = ds.flatten) :
    (BodyWithin cs.flatten →
      responseLines [] (bodyChunks cs failure) = responseLines [] (bodyChunks ds failure) ∧
      responseLines [] (bodyChunks cs failure) = (shownLines (bodyLines cs.flatten)).map .ok ++
        if endsStream (bodyLines cs.flatten) then [] else failure.toList.map .error) ∧
    (¬ BodyWithin cs.flatten → endsStream (linesBefore cs.flatten) = false →
      ∃ out out', responseLines [] (bodyChunks cs failure) = out.map .ok ++ [.error lineTooLong] ∧
        responseLines [] (bodyChunks ds failure) = out'.map .ok ++ [.error lineTooLong] ∧
        out <+: shownLines (linesBefore cs.flatten) ∧ out' <+: shownLines (linesBefore cs.flatten)) ∧
    ∃ out ending, responseLines [] (bodyChunks cs failure) = out.map .ok ++ ending ∧
      out <+: shownLines (bodyLines cs.flatten) ∧
      (ending = [] ∨ ending = [.error lineTooLong] ∨ ending = failure.toList.map .error) := by
  have empty : (0x0a : UInt8) ∉ ([] : Text) := List.not_mem_nil
  refine ⟨?_, ?_, responseLines_prefix empty⟩
  · intro fits
    have shown := @responseLines_within [] cs failure empty fits
    refine ⟨?_, shown⟩
    rw [shown, same]
    exact (responseLines_within empty (same ▸ fits)).symm
  · intro beyond goes_on
    obtain ⟨out, run, front⟩ := @responseLines_beyond [] cs failure empty (Nat.zero_le _) beyond goes_on
    obtain ⟨out', run', front'⟩ := @responseLines_beyond [] ds failure empty (Nat.zero_le _) (same ▸ beyond) (same ▸ goes_on)
    refine ⟨out, out', run, run', front, ?_⟩
    rw [same]
    exact front'

/-- A body cut inside a line and between its two newlines. -/
theorem responseLines_exact_cut :
    responseLines [] (bodyChunks ["data: \x7b\x7d\nda", "ta:[1]\r\n", "\ndata: [DONE]\n"] none) =
      responseLines [] (bodyChunks ["data: \x7b\x7d\ndata:[1]\r\n\ndata: [DONE]\n"] none) := by
  have parts := responseLines_exact ["data: \x7b\x7d\nda", "ta:[1]\r\n", "\ndata: [DONE]\n"]
    ["data: \x7b\x7d\ndata:[1]\r\n\ndata: [DONE]\n"] none (by decide)
  exact (parts.1 (by unfold BodyWithin; decide)).1

/-- One byte more than a line may have. -/
def longLine : Text := List.replicate (maxSseLineBytes + 1) 0x78

/-- One byte more than a line may have. -/
theorem not_linesWithin_longLine : ¬ LinesWithin maxSseLineBytes 0x0a [] longLine := by
  have plain : (0x0a : UInt8) ∉ longLine := by
    intro mem
    exact absurd (List.eq_of_mem_replicate mem) (by decide)
  rintro ⟨-, held⟩
  rw [feedLines_plain plain, List.nil_append, longLine, List.length_replicate] at held
  omega

/-- Other lines than data lines are not yielded, nor is what follows the last newline; and a line beyond the limit
takes along the lines that arrived in the same chunk. -/
theorem responseLines_drops :
    responseLines [] (bodyChunks ["event: ping\n"] none) = [] ∧
    responseLines [] (bodyChunks ["data: a"] none) = [] ∧
    responseLines [] (bodyChunks ["data: a\n", longLine] none) = [.ok (utf8 "data: a"), .error lineTooLong] ∧
    responseLines [] (bodyChunks [utf8 "data: a\n" ++ longLine] none) = [.error lineTooLong] := by
  have empty : (0x0a : UInt8) ∉ ([] : Text) := List.not_mem_nil
  have fed : feedLines 0x0a [] (utf8 "data: a\n") = ([utf8 "data: a"], []) := by decide
  have fits : LinesWithin maxSseLineBytes 0x0a [] (utf8 "data: a\n") := by decide
  refine ⟨by decide, by decide, ?_, ?_⟩
  · have first := @responseLines_cons [] (utf8 "data: a\n") empty [.ok longLine]
    have second := @responseLines_cons [] longLine empty []
    rw [if_neg not_linesWithin_longLine] at second
    rw [if_pos fits, fed] at first
    dsimp only at first
    rw [second] at first
    exact first
  · have whole := @responseLines_cons [] (utf8 "data: a\n" ++ longLine) empty []
    rw [if_neg] at whole
    · exact whole
    · intro all
      have later := (linesWithin_append.1 all).2
      rw [fed] at later
      exact not_linesWithin_longLine later

end AgenticStack
