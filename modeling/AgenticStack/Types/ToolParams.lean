import AgenticStack.Types.Decode
import AgenticStack.Library.ObjectFields

/-!
# Declarations as they are read

A declaration that is read is the one it is written as again: the fields of its kind in their
order, then those it does not know, where its kind keeps them.
-/

namespace AgenticStack
set_option autoImplicit false
open Library

/-- How a field that may be missing is treated. -/
inductive FieldForm where
  | required
  /-- An `Option` that is left out when it is `None`. -/
  | skipped
  /-- An `Option` that is written as null. -/
  | nulled
  | default (value : Json)

structure ParamField where
  key : Text
  form : FieldForm
  /-- The value it is written as again. -/
  value : Json → Option Json

/-- What is written of the field again, if it can be read. -/
def ParamField.written (field : ParamField) (fields : List (Text × Json)) : Option (Option Json) :=
  match field.form with
  | .required => (requiredOf fields field.key field.value).map some
  | .skipped => optionField fields field.key field.value
  | .nulled => (optionField fields field.key field.value).map fun (v : Option Json) => some (v.getD .null)
  | .default value => (defaultOf fields field.key field.value value).map some

def ParamField.read (fields : List (Text × Json)) (field : ParamField) : Option (Text × Option Json) :=
  (field.written fields).map fun v => (field.key, v)

/-- The parameters of a declaration: the fields it knows, whether it keeps others, and the order of its fields where it can
be read from an array. -/
structure ParamStruct where
  own : List ParamField
  extra : Bool
  order : Option FieldOrder

namespace ParamStruct

def known (struct : ParamStruct) : List Text := struct.own.map (·.key)

/-- The fields that are written again, behind those in `front`. -/
def read (struct : ParamStruct) (front fields : List (Text × Json)) : Option Json :=
  (struct.own.mapM (ParamField.read fields)).map fun own =>
    .obj (withExtra (front ++ present own)
      (if struct.extra then fields.filter fun field => !struct.known.contains field.1 else []))

def fieldsOf (struct : ParamStruct) : Json → Option (List (Text × Json))
  | .obj fields => some fields
  | v => struct.order.bind fun order => Json.asStruct order v

def readValue (struct : ParamStruct) (v : Json) : Option Json := (struct.fieldsOf v).bind (struct.read [])

/-- What is beside a `type`, written under it again. -/
def readTagged (struct : ParamStruct) (type : Text) (content : Json) : Option Json :=
  (struct.fieldsOf content).bind (struct.read [("type", .str type)])

end ParamStruct

namespace Param

def text (v : Json) : Option Json := v.asStr.map .str

/-- `NonEmptyToolName`. -/
def nonEmpty (v : Json) : Option Json := (v.asStr.filter (· ≠ [])).map .str

def bool : Json → Option Json
  | .bool b => some (.bool b)
  | _ => none

def list (item : Json → Option Json) (v : Json) : Option Json := (Json.asList item v).map .arr

def texts : Json → Option Json := list text

/-- A map of texts. -/
def textMap (v : Json) : Option Json :=
  (v.asObject.bind fun fields => fields.mapM fun field => (text field.2).map fun v => (field.1, v)).map .obj

/-- One of `names`. -/
def oneOf (names : List Text) (v : Json) : Option Json := (Json.asCase (names.map fun name => (name, name)) v).map .str

end Param

def FunctionToolParam.struct : ParamStruct where
  own := [⟨"name", .required, Param.nonEmpty⟩, ⟨"description", .skipped, Param.text⟩, ⟨"parameters", .skipped, some⟩,
    ⟨"strict", .skipped, Param.bool⟩, ⟨"defer_loading", .skipped, Param.bool⟩]
  extra := true
  order := none

def CustomToolParam.struct : ParamStruct where
  own := [⟨"name", .required, Param.nonEmpty⟩, ⟨"description", .skipped, Param.text⟩, ⟨"format", .skipped, some⟩,
    ⟨"defer_loading", .skipped, Param.bool⟩]
  extra := true
  order := none

def ToolSearchToolParam.struct : ParamStruct where
  own := [⟨"execution", .required, Param.oneOf ["client"]⟩, ⟨"description", .skipped, Param.text⟩,
    ⟨"parameters", .skipped, some⟩]
  extra := false
  order := some [("execution", false), ("description", false), ("parameters", false)]

/-- The tools that were discovered are never read. -/
def McpToolParam.struct : ParamStruct where
  own := [⟨"server_label", .required, Param.text⟩, ⟨"server_url", .skipped, Param.text⟩,
    ⟨"connector_id", .skipped, Param.text⟩, ⟨"headers", .skipped, Param.textMap⟩,
    ⟨"authorization", .skipped, Param.text⟩, ⟨"allowed_tools", .skipped, Param.texts⟩,
    ⟨"require_approval", .skipped, Param.text⟩, ⟨"defer_loading", .skipped, Param.bool⟩]
  extra := false
  order := some [("server_label", false), ("server_url", true), ("connector_id", true), ("headers", true),
    ("authorization", true), ("allowed_tools", true), ("require_approval", true), ("defer_loading", true)]

def WebSearchFilters.struct : ParamStruct where
  own := [⟨"allowed_domains", .nulled, Param.texts⟩, ⟨"blocked_domains", .nulled, Param.texts⟩]
  extra := false
  order := some [("allowed_domains", false), ("blocked_domains", false)]

def WebSearchUserLocation.struct : ParamStruct where
  own := [⟨"type", .nulled, Param.text⟩, ⟨"city", .nulled, Param.text⟩, ⟨"country", .nulled, Param.text⟩,
    ⟨"region", .nulled, Param.text⟩, ⟨"timezone", .nulled, Param.text⟩]
  extra := false
  order := some [("type", false), ("city", false), ("country", false), ("region", false), ("timezone", false)]

def WebSearchToolParam.struct : ParamStruct where
  own := [⟨"search_context_size", .nulled, Param.oneOf ["low", "medium", "high"]⟩,
    ⟨"filters", .nulled, WebSearchFilters.struct.readValue⟩,
    ⟨"user_location", .nulled, WebSearchUserLocation.struct.readValue⟩]
  extra := false
  order := some [("search_context_size", false), ("filters", false), ("user_location", false)]

def FileSearchToolParam.struct : ParamStruct where
  own := [⟨"vector_store_ids", .nulled, Param.texts⟩]
  extra := false
  order := some [("vector_store_ids", false)]

def CodeInterpreterToolParam.struct : ParamStruct := ⟨[], false, some []⟩

/-- A local environment is written with its `type` last; any other value stays. -/
def ShellEnvironment.read (v : Json) : Option Json :=
  match v with
  | .obj fields =>
    if (v.at_ "type").asStr = some (utf8 "local") then
      some (.obj (insertField (fields.filter fun field => field.1 != utf8 "type") "type" (.str "local")))
    else some v
  | v => some v

def ShellToolParam.struct : ParamStruct where
  own := [⟨"environment", .required, ShellEnvironment.read⟩, ⟨"allowed_callers", .skipped, Param.texts⟩]
  extra := true
  order := none

def unknownJson : Json := .obj [("type", .str "unknown")]

def CodexNamespaceMember.read (v : Json) : Option Json := do
  let (type, content) ← readTag v
  if type = "function" then FunctionToolParam.struct.readTagged "function" content else some unknownJson

def CodexNamespaceToolParam.struct : ParamStruct where
  own := [⟨"name", .required, Param.text⟩, ⟨"description", .skipped, Param.text⟩,
    ⟨"tools", .default (.arr []), Param.list CodexNamespaceMember.read⟩]
  extra := true
  order := none

/-- The kind of declaration under a `type`, and the name it is written with. -/
def ResponsesTool.kind (type : Text) : Option (Text × ParamStruct) :=
  if type = "function" then some ("function", FunctionToolParam.struct)
  else if type = "tool_search" then some ("tool_search", ToolSearchToolParam.struct)
  else if type = "mcp" then some ("mcp", McpToolParam.struct)
  else if type ∈ [utf8 "web_search_preview", utf8 "web_search", utf8 "web_search_preview_2025_03_11",
      utf8 "web_search_2025_08_26"] then some ("web_search_preview", WebSearchToolParam.struct)
  else if type = "file_search" then some ("file_search", FileSearchToolParam.struct)
  else if type = "code_interpreter" then some ("code_interpreter", CodeInterpreterToolParam.struct)
  else if type = "shell" then some ("shell", ShellToolParam.struct)
  else if type = "namespace" then some ("namespace", CodexNamespaceToolParam.struct)
  else if type = "custom" then some ("custom", CustomToolParam.struct)
  else none

/-- A declaration as it is written again once it was read. -/
def ResponsesTool.read (v : Json) : Option Json := do
  let (type, content) ← readTag v
  match ResponsesTool.kind type with
  | some (name, struct) => struct.readTagged name content
  | none => some unknownJson

/-- An alias is written under the name of its kind. -/
example : (ResponsesTool.read (.obj [("type", .str "web_search")])).map Json.write =
    some (utf8 "\x7b\"type\":\"web_search_preview\",\"search_context_size\":null,\"filters\":null,\"user_location\":null\x7d") := by
  decide

end AgenticStack
