import AgenticStack.Types.Encode
import AgenticStack.Types.InputDecode

/-!
# Messages are read as they were written

Reading a field gives back what was written into it, if it was written as what its reader takes.
Messages and the outputs of tools are read as they were written, whatever they hold.
-/

namespace AgenticStack
set_option autoImplicit false
open Library

section
variable {α : Type} {fields : List (Text × Json)} {key : Text} {read : Json → Option α} {write : α → Json} {a : α}
  {o : Option α} {default : α}

theorem requiredOf_written (here : fields.lookup key = some (write a)) (reads : read (write a) = some a) :
    requiredOf fields key read = some a := by
  rw [requiredOf, here, Option.bind_some, reads]

theorem requiredOf_value {v : Json} (here : fields.lookup key = some v) : requiredOf fields key Json.asValue = some v := by
  rw [requiredOf, here]
  rfl

theorem defaultOf_written (here : fields.lookup key = some (write a)) (reads : read (write a) = some a) :
    defaultOf fields key read default = some a := by
  simp only [defaultOf, here, reads]

/-- An option that is left out when it is `none`. -/
theorem optionField_skipped (here : fields.lookup key = o.map write)
    (reads : ∀ a ∈ o, write a ≠ .null ∧ read (write a) = some a) : optionField fields key read = some o := by
  cases o with
  | none => simp only [optionField, here, Option.map_none]
  | some a =>
    rw [Option.map_some] at here
    obtain ⟨some_, same⟩ := reads a rfl
    simp only [optionField, here, same, Option.map_some]

/-- An option that is written as null when it is `none`. -/
theorem optionField_nulled (here : fields.lookup key = Json.orNull (o.map write))
    (reads : ∀ a ∈ o, write a ≠ .null ∧ read (write a) = some a) : optionField fields key read = some o := by
  cases o with
  | none =>
    have null : fields.lookup key = some .null := here
    simp only [optionField, null]
  | some a =>
    have there : fields.lookup key = some (write a) := here
    obtain ⟨some_, same⟩ := reads a rfl
    simp only [optionField, there, same, Option.map_some]

theorem nullableOf_written (here : fields.lookup key = some (write a)) (value : write a ≠ .null)
    (reads : read (write a) = some a) : nullableOf fields key read default = some a := by
  have option : optionField fields key read = some (some a) := by
    refine @optionField_skipped _ _ _ _ write (some a) here fun b same => ?_
    cases same
    exact ⟨value, reads⟩
  rw [nullableOf, option]
  rfl

theorem asList_written {read : Json → Option α} {items : List α} (reads : ∀ a ∈ items, read (write a) = some a) :
    Json.asList read (.arr (items.map write)) = some items := by
  show (items.map write).mapM read = some items
  induction items with
  | nil => rfl
  | cons a items ih =>
    have here := reads a List.mem_cons_self
    have later := ih fun b mem => reads b (List.mem_cons_of_mem _ mem)
    rw [List.map_cons, List.mapM_cons, here, later]
    rfl

end

theorem text_reads {o : Option Text} : ∀ t ∈ o, Json.str t ≠ .null ∧ (Json.str t).asStr = some t :=
  fun _ _ => ⟨Json.noConfusion, rfl⟩

theorem asNonBlank_str {t : Text} (some_ : isBlank t = false) : Json.asNonBlank (.str t) = some t := by
  show (some t).filter (fun s => !isBlank s) = some t
  rw [Option.filter_some, if_pos (by rw [some_]; rfl)]

theorem asStrings_written (texts : List Text) : Json.asStrings (.arr (texts.map .str)) = some texts :=
  asList_written fun _ _ => rfl

theorem messageStatus_written (s : MessageStatus) :
    Json.asCase MessageStatus.names (Json.ofCase MessageStatus.names s) = some s := by cases s <;> decide

theorem messageStatus_reads {o : Option MessageStatus} : ∀ s ∈ o, Json.ofCase MessageStatus.names s ≠ .null ∧
    Json.asCase MessageStatus.names (Json.ofCase MessageStatus.names s) = some s :=
  fun s _ => ⟨(fun no => nomatch no), messageStatus_written s⟩

theorem shellStatus_reads {o : Option ShellCallStatus} : ∀ s ∈ o, Json.ofCase ShellCallStatus.names s ≠ .null ∧
    Json.asCase ShellCallStatus.names (Json.ofCase ShellCallStatus.names s) = some s :=
  fun s _ => ⟨(fun no => nomatch no), by cases s <;> decide⟩

theorem searchExecution_written (e : ToolSearchExecution) :
    Json.asCase ToolSearchExecution.names (Json.ofCase ToolSearchExecution.names e) = some e := by cases e; decide

theorem searchStatus_written (s : ToolSearchStatus) :
    Json.asCase ToolSearchStatus.names (Json.ofCase ToolSearchStatus.names s) = some s := by cases s <;> decide

theorem gatewayStatus_written (s : GatewayCallStatus) :
    Json.asCase GatewayCallStatus.names (Json.ofCase GatewayCallStatus.names s) = some s := by cases s <;> decide

theorem mcpStatus_reads {o : Option McpCallStatus} : ∀ s ∈ o, Json.ofCase McpCallStatus.names s ≠ .null ∧
    Json.asCase McpCallStatus.names (Json.ofCase McpCallStatus.names s) = some s :=
  fun s _ => ⟨(fun no => nomatch no), by cases s <;> decide⟩

theorem filter_tagged {type : Json} {fields : List (Text × Json)} (apart : utf8 "type" ∉ fields.map Prod.fst) :
    ((utf8 "type", type) :: fields).filter (fun field => field.1 != utf8 "type") = fields := by
  rw [List.filter_cons_of_neg (by simp)]
  exact filter_of_lookup_none (lookup_eq_none_iff_key.2 apart)

/-- An object under a type is read as its type and the fields beside it. -/
theorem readTag_taggedValue {type : Text} {fields : List (Text × Option Json)} (keys : List Text)
    (same : fields.map Prod.fst = keys) (apart : utf8 "type" ∉ keys) :
    readTag (taggedValue type fields) = some (type, .obj (present fields)) := by
  subst same
  have tag : requiredOf ((utf8 "type", Json.str type) :: present fields) "type" Json.asStr = some type :=
    requiredOf_written lookup_cons_self rfl
  have rest := @filter_tagged (.str type) (present fields) fun there => apart (mem_keys_of_present there)
  simp only [readTag, taggedValue, taggedFields, withExtra, List.foldl_nil, Option.bind_eq_bind, Option.bind_some, tag,
    rest]
  rfl

section
variable {α : Type}

theorem readImage_written {make : Option Text → Option Text → Option Text → α} (file_id image_url detail : Option Text) :
    readImage (.obj (present [(utf8 "file_id", file_id.map Json.str), ("image_url", image_url.map .str),
      ("detail", detail.map .str)])) make = some (make file_id image_url detail) := by
  have once : ([utf8 "file_id", utf8 "image_url", utf8 "detail"] : List Text).Nodup := by decide
  have at_ (key : Text) := @lookup_present _ _ [(utf8 "file_id", file_id.map Json.str),
    ("image_url", image_url.map .str), ("detail", detail.map .str)] key _ _ once
  have h₁ := optionField_skipped (at_ "file_id") text_reads
  have h₂ := optionField_skipped (at_ "image_url") text_reads
  have h₃ := optionField_skipped (at_ "detail") text_reads
  simp only [readImage, Json.asStruct, Option.bind_eq_bind, Option.bind_some, h₁, h₂, h₃]
  rfl

theorem readFile_written {make : Option Text → Option Text → Option Text → Option Text → Option Text → α}
    (file_data file_id file_url filename detail : Option Text) :
    readFile (.obj (present [(utf8 "file_data", file_data.map Json.str), ("file_id", file_id.map .str),
      ("file_url", file_url.map .str), ("filename", filename.map .str), ("detail", detail.map .str)])) make =
      some (make file_data file_id file_url filename detail) := by
  have once : ([utf8 "file_data", utf8 "file_id", utf8 "file_url", utf8 "filename", utf8 "detail"] : List Text).Nodup := by
    decide
  have at_ (key : Text) := @lookup_present _ _ [(utf8 "file_data", file_data.map Json.str),
    ("file_id", file_id.map .str), ("file_url", file_url.map .str), ("filename", filename.map .str),
    ("detail", detail.map .str)] key _ _ once
  have h₁ := optionField_skipped (at_ "file_data") text_reads
  have h₂ := optionField_skipped (at_ "file_id") text_reads
  have h₃ := optionField_skipped (at_ "file_url") text_reads
  have h₄ := optionField_skipped (at_ "filename") text_reads
  have h₅ := optionField_skipped (at_ "detail") text_reads
  simp only [readFile, Json.asStruct, Option.bind_eq_bind, Option.bind_some, h₁, h₂, h₃, h₄, h₅]
  rfl

end

theorem readText_written {α : Type} {make : Text → α} (t : Text) :
    readText (.obj (present [(utf8 "text", some (Json.str t))])) make = some (make t) := by
  have text : requiredOf (present [(utf8 "text", some (Json.str t))]) "text" Json.asStr = some t :=
    requiredOf_written lookup_cons_self rfl
  simp only [readText, Json.asStruct, Option.bind_eq_bind, Option.bind_some, text]
  rfl

theorem InputContent.ofJson_toValue (content : InputContent) : InputContent.ofJson content.toValue = some content := by
  cases content with
  | inputText t | outputText t | reasoningText t =>
    rw [InputContent.toValue, InputContent.ofJson, readTag_taggedValue [utf8 "text"] rfl (by decide)]
    exact readText_written t
  | inputImage file_id image_url detail =>
    rw [InputContent.toValue, InputContent.ofJson,
      readTag_taggedValue [utf8 "file_id", "image_url", "detail"] rfl (by decide)]
    exact readImage_written file_id image_url detail
  | inputFile file_data file_id file_url filename detail =>
    rw [InputContent.toValue, InputContent.ofJson,
      readTag_taggedValue [utf8 "file_data", "file_id", "file_url", "filename", "detail"] rfl (by decide)]
    exact readFile_written file_data file_id file_url filename detail
  | unknown =>
    rw [InputContent.toValue, InputContent.ofJson, readTag_taggedValue [] rfl (by decide)]
    rfl

theorem InputMessageContent.ofJson_toValue (content : InputMessageContent) :
    InputMessageContent.ofJson content.toValue = some content := by
  cases content with
  | text t => rfl
  | parts xs =>
    have items : Json.asList InputContent.ofJson (.arr (xs.map InputContent.toValue)) = some xs :=
      asList_written fun x _ => x.ofJson_toValue
    rw [InputMessageContent.toValue, InputMessageContent.ofJson, items]
    · rfl
    · exact fun _ no => nomatch no

theorem InputMessage.ofFields_fields (message : InputMessage) :
    InputMessage.ofFields (present message.fields) = some message := by
  have once : ([utf8 "id", utf8 "role", utf8 "status", utf8 "content"] : List Text).Nodup := by decide
  have at_ (key : Text) := @lookup_present _ _ message.fields key _ _ once
  have id := optionField_skipped (at_ "id") text_reads
  have role : requiredOf _ _ Json.asStr = some message.role := requiredOf_written (at_ "role") rfl
  have status := optionField_skipped (at_ "status") messageStatus_reads
  have content := requiredOf_written (at_ "content") message.content.ofJson_toValue
  simp only [InputMessage.ofFields, id, role, status, content]
  rfl

theorem ToolOutputContent.ofJson_toValue (content : ToolOutputContent) :
    ToolOutputContent.ofJson content.toValue = some content := by
  cases content with
  | inputText t =>
    rw [ToolOutputContent.toValue, ToolOutputContent.ofJson, readTag_taggedValue [utf8 "text"] rfl (by decide)]
    exact readText_written t
  | inputImage file_id image_url detail =>
    rw [ToolOutputContent.toValue, ToolOutputContent.ofJson,
      readTag_taggedValue [utf8 "file_id", "image_url", "detail"] rfl (by decide)]
    exact readImage_written file_id image_url detail
  | inputFile file_data file_id file_url filename detail =>
    rw [ToolOutputContent.toValue, ToolOutputContent.ofJson,
      readTag_taggedValue [utf8 "file_data", "file_id", "file_url", "filename", "detail"] rfl (by decide)]
    exact readFile_written file_data file_id file_url filename detail

theorem ToolCallOutput.ofJson_toValue (output : ToolCallOutput) : ToolCallOutput.ofJson output.toValue = some output := by
  cases output with
  | text t => rfl
  | content xs =>
    have items : Json.asList ToolOutputContent.ofJson (.arr (xs.map ToolOutputContent.toValue)) = some xs :=
      asList_written fun x _ => x.ofJson_toValue
    rw [ToolCallOutput.toValue, ToolCallOutput.ofJson, items]
    · rfl
    · exact fun _ no => nomatch no

theorem FunctionToolResultMessage.ofFields_fields (output : FunctionToolResultMessage) :
    FunctionToolResultMessage.ofFields (present output.fields) = some output := by
  have once : ([utf8 "call_id", utf8 "output"] : List Text).Nodup := by decide
  have at_ (key : Text) := @lookup_present _ _ output.fields key _ _ once
  have call_id : requiredOf _ _ Json.asStr = some output.call_id := requiredOf_written (at_ "call_id") rfl
  have result := requiredOf_written (at_ "output") output.output.ofJson_toValue
  simp only [FunctionToolResultMessage.ofFields, call_id, result]
  rfl

theorem CustomToolCallOutputMessage.ofFields_fields (output : CustomToolCallOutputMessage) :
    CustomToolCallOutputMessage.ofFields (present output.fields) = some output := by
  have once : ([utf8 "call_id", utf8 "name", utf8 "output"] : List Text).Nodup := by decide
  have at_ (key : Text) := @lookup_present _ _ output.fields key _ _ once
  have call_id : requiredOf _ _ Json.asStr = some output.call_id := requiredOf_written (at_ "call_id") rfl
  have name := optionField_skipped (at_ "name") text_reads
  have result := requiredOf_written (at_ "output") output.output.ofJson_toValue
  simp only [CustomToolCallOutputMessage.ofFields, call_id, name, result]
  rfl

theorem OutputTextContent.ofJson_toValue (content : OutputTextContent) :
    OutputTextContent.ofJson content.toValue = some content := by
  have once : ([utf8 "type", utf8 "text", utf8 "annotations"] : List Text).Nodup := by decide
  have at_ (key : Text) := @lookup_present _ _ [(utf8 "type", some (Json.str content.type_)),
    ("text", some (.str content.text)), ("annotations", some (.arr content.annotations))] key _ _ once
  have type_ : requiredOf _ _ Json.asStr = some content.type_ := requiredOf_written (at_ "type") rfl
  have text : requiredOf _ _ Json.asStr = some content.text := requiredOf_written (at_ "text") rfl
  have annotations : defaultOf _ _ Json.asArray [] = some content.annotations :=
    defaultOf_written (at_ "annotations") rfl
  simp only [OutputTextContent.ofJson, OutputTextContent.toValue, structValue, Json.asStruct, Option.bind_eq_bind,
    Option.bind_some, type_, text, annotations]
  rfl

theorem OutputMessage.ofFields_fields (message : OutputMessage) :
    OutputMessage.ofFields (present message.fields) = some message := by
  have once : ([utf8 "id", utf8 "role", utf8 "status", utf8 "content"] : List Text).Nodup := by decide
  have at_ (key : Text) := @lookup_present _ _ message.fields key _ _ once
  have id : requiredOf _ _ Json.asStr = some message.id := requiredOf_written (at_ "id") rfl
  have role : requiredOf _ _ Json.asStr = some message.role := requiredOf_written (at_ "role") rfl
  have status := requiredOf_written (at_ "status") (messageStatus_written message.status)
  have items : Json.asList OutputTextContent.ofJson (.arr (message.content.map OutputTextContent.toValue)) =
      some message.content := asList_written fun x _ => x.ofJson_toValue
  have content : defaultOf _ _ (Json.asList OutputTextContent.ofJson) [] = some message.content :=
    @defaultOf_written _ _ _ _ (fun xs => .arr (xs.map OutputTextContent.toValue)) _ _ (at_ "content") items
  simp only [OutputMessage.ofFields, id, role, status, content]
  rfl

end AgenticStack
