import AgenticStack.Library.Naming
import AgenticStack.Tool.Codex

/-!
# The names of MCP tools

The model knows a tool of an MCP server under a name made of the server's label
and the tool's name. It is cleaned of characters that are not allowed, and cut
and hashed where it is too long or another tool has it.
-/

namespace AgenticStack.Tools
set_option autoImplicit false
open Library

def INTERNAL_MCP_PREFIX : Text := "mcp__"

def MAX_INTERNAL_TOOL_NAME_LEN : Nat := 64

/-- A letter, a digit, an underscore or a hyphen. -/
def isInternalNameByte (b : UInt8) : Bool :=
  (0x30 ≤ b && b ≤ 0x39) || (0x41 ≤ b && b ≤ 0x5a) || (0x61 ≤ b && b ≤ 0x7a) || b = 0x5f || b = 0x2d

/-- One character becomes one byte: the bytes after its first are dropped. -/
def sanitizeByte (b : UInt8) : Option UInt8 :=
  if startsChar b then some (if isInternalNameByte b then b else 0x5f) else none

def sanitizeInternalToolName (value : Text) : Text := value.filterMap sanitizeByte

/-- Ten hexadecimal digits, of the lowest forty bits. -/
def hex10 (n : UInt64) : Text := (List.range 10).map fun i => hexDigit ((n >>> (36 - 4 * i).toUInt64) &&& 0xf).toUInt8

def hashInput (server_label tool_name : Text) (attempt : Nat) : Text :=
  if attempt = 0 then server_label ++ utf8 ":" ++ tool_name
  else server_label ++ utf8 ":" ++ tool_name ++ utf8 ":" ++ decimal attempt

def hashedName (base server_label tool_name : Text) (attempt : Nat) : Text :=
  let suffix := utf8 "__" ++ hex10 (stableNameHash (hashInput server_label tool_name attempt))
  base.take (MAX_INTERNAL_TOOL_NAME_LEN - suffix.length) ++ suffix

/-- The names in use, with the server and the tool that have them. -/
abbrev UsedNames := List (Text × (Text × Text))

/-- The attempts are counted on 32 bits. When all their names are another tool's the loop does not end. -/
def internalMcpToolName (server_label tool_name : Text) (used : UsedNames) : Option (Text × UsedNames) :=
  let identity := (server_label, tool_name)
  let base := sanitizeInternalToolName (INTERNAL_MCP_PREFIX ++ server_label ++ utf8 "__" ++ tool_name)
  if base.length ≤ MAX_INTERNAL_TOOL_NAME_LEN ∧ isFree used identity base = true then some (base, insertEntry used base identity)
  else (firstFree used identity (hashedName base server_label tool_name) (2 ^ 32) 0).map fun candidate =>
    (candidate, insertEntry used candidate identity)

def nameMcpTool (server_label : Text) (used : UsedNames) (tool : McpTool) : Option (Text × UsedNames) :=
  internalMcpToolName server_label tool.name used

/-- The tools that are allowed, each under its name. -/
def discoveredTools (server_label : Text) (allowed_tools : Option (List Text)) (tools : List McpTool) :
    Option (List McpDiscoveredToolParam) :=
  let tools := tools.filter fun tool => allowed_tools.all fun allowed => allowed.contains tool.name
  (nameAll (nameMcpTool server_label) [] tools).map fun named => named.1.map fun (tool, internal_name) =>
    { server_label, tool_name := tool.name, internal_name, tool }

/-- A name the model interface takes. -/
structure IsInternalName (name : Text) : Prop where
  prefixed : INTERNAL_MCP_PREFIX <+: name
  short : name.length ≤ MAX_INTERNAL_TOOL_NAME_LEN
  allowed : ∀ b ∈ name, isInternalNameByte b = true

variable {server_label tool_name name base : Text} {used used' : UsedNames} {attempt : Nat}

theorem sanitize_allowed (value : Text) : ∀ b ∈ sanitizeInternalToolName value, isInternalNameByte b = true := by
  intro b mem
  obtain ⟨c, _, same⟩ := List.mem_filterMap.1 mem
  rw [sanitizeByte] at same
  split at same
  · cases same
    split
    · assumption
    · rfl
  · cases same

theorem sanitize_prefix (rest : Text) : INTERNAL_MCP_PREFIX <+: sanitizeInternalToolName (INTERNAL_MCP_PREFIX ++ rest) := by
  have front : INTERNAL_MCP_PREFIX.filterMap sanitizeByte = INTERNAL_MCP_PREFIX := by decide
  rw [sanitizeInternalToolName, List.filterMap_append, front]
  exact List.prefix_append _ _

theorem hex10_allowed (n : UInt64) : ∀ b ∈ hex10 n, isInternalNameByte b = true := by
  have digit (d : UInt8) (small : d.toNat < 16) : isInternalNameByte (hexDigit d) = true := by
    have all : ∀ k : Fin 16, isInternalNameByte (hexDigit (UInt8.ofNat k)) = true := by decide
    have same := all ⟨d.toNat, small⟩
    rwa [UInt8.ofNat_toNat] at same
  intro b mem
  obtain ⟨i, _, rfl⟩ := List.mem_map.1 mem
  apply digit
  have low : ((n >>> (36 - 4 * i).toUInt64) &&& 0xf).toNat ≤ 15 := by
    rw [UInt64.toNat_and]
    exact Nat.and_le_right
  rw [UInt64.toNat_toUInt8]
  omega

theorem length_hex10 (n : UInt64) : (hex10 n).length = 10 := by rw [hex10, List.length_map, List.length_range]

theorem hashedName_isInternalName (prefixed : INTERNAL_MCP_PREFIX <+: base) (allowed : ∀ b ∈ base, isInternalNameByte b = true) :
    IsInternalName (hashedName base server_label tool_name attempt) := by
  have long : (utf8 "__" ++ hex10 (stableNameHash (hashInput server_label tool_name attempt))).length = 12 := by
    rw [List.length_append, length_hex10]
    rfl
  rw [hashedName, long]
  refine ⟨?_, ?_, ?_⟩
  · obtain ⟨rest, rfl⟩ := prefixed
    rw [List.take_append, List.append_assoc]
    exact List.prefix_append _ _
  · rw [List.length_append, long, List.length_take, MAX_INTERNAL_TOOL_NAME_LEN]
    omega
  · intro b mem
    rcases List.mem_append.1 mem with front | behind
    · exact allowed b (List.mem_of_mem_take front)
    · rcases List.mem_append.1 behind with line | digit
      · have lines : (utf8 "__").all isInternalNameByte = true := by decide
        exact List.all_eq_true.1 lines b line
      · exact hex10_allowed _ b digit

theorem internalMcpToolName_spec (h : internalMcpToolName server_label tool_name used = some (name, used')) :
    IsInternalName name ∧ isFree used (server_label, tool_name) name = true ∧ used' = insertEntry used name (server_label, tool_name) := by
  rw [internalMcpToolName] at h
  have prefixed : INTERNAL_MCP_PREFIX <+: sanitizeInternalToolName (INTERNAL_MCP_PREFIX ++ server_label ++ utf8 "__" ++ tool_name) := by
    rw [List.append_assoc, List.append_assoc]
    exact sanitize_prefix _
  split at h
  · rename_i direct
    cases h
    exact ⟨⟨prefixed, direct.1, sanitize_allowed _⟩, direct.2, rfl⟩
  · rw [Option.map_eq_some_iff] at h
    obtain ⟨candidate, found, same⟩ := h
    cases same
    obtain ⟨free, attempt, rfl⟩ := firstFree_eq_some found
    exact ⟨hashedName_isInternalName prefixed (sanitize_allowed _), free, rfl⟩

/-- A name is given to its tool, and is nobody else's. -/
theorem nameMcpTool_gives : Gives (nameMcpTool server_label) fun tool => (server_label, tool.name) := by
  intro used tool name used' h
  obtain ⟨_, free, rfl⟩ := internalMcpToolName_spec h
  exact ⟨lookup_insertEntry_self, holds_insert free⟩

end AgenticStack.Tools
