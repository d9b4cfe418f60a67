import AgenticStack.Events.Types

/-!
# Reading items from values

How an item is read from a JSON value is derived from its type, by code that is
generated. The accumulator is given it as an `ItemSerde`.
-/

namespace AgenticStack
set_option autoImplicit false
open Library

/-- `uuid7_str`: a new id behind a prefix. Within one event no prefix is used twice. -/
abbrev NewId := Text → Text

structure IncompleteDetails where
  reason : Option Text
deriving DecidableEq, Repr

/-- The derived readers: of any item, under its `type`, and of a single kind of item; and whether two
items are written as the same value. -/
structure ItemSerde where
  item : NewId → Json → Except Text OutputItem
  functionCall : NewId → Json → Option FunctionToolCall
  toolSearchCall : Json → Option ToolSearchCall
  customToolCall : Json → Option CustomToolCall
  mcpCall : Json → Option McpCall
  mcpListTools : Json → Option McpListTools
  compaction : Json → Option CompactionItem
  usage : Json → Option ResponseUsage
  incompleteDetails : Json → Option IncompleteDetails
  sameValue : OutputItem → OutputItem → Bool

/-- `deserialize_from_value_opt::<OutputItem>`. -/
def ItemSerde.itemOpt (items : ItemSerde) (newId : NewId) (value : Json) : Option OutputItem :=
  (items.item newId value).toOption

end AgenticStack
