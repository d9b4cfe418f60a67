import AgenticStack.Library.Outcome
import AgenticStack.Tool.Registry
import AgenticStack.Types.Lowering

/-!
# Listings of MCP servers

A request lists the tools of every MCP server it declares. A listing is shown
to the client unless the history has a successful listing of the server with
the same tools.
-/

namespace AgenticStack
set_option autoImplicit false
open Library

/-- The listing records among items. -/
def listings (items : List InputItem) : List McpListTools :=
  items.filterMap fun
    | .mcpListTools list => some list
    | _ => none

/-- By server label: the listing of this request, and after it those of the history. -/
abbrev McpListings := List (Text × List McpListTools)

/-- `entry(label).or_default().push(item)`. -/
def McpListings.push : McpListings → Text → McpListTools → McpListings
  | [], label, list => [(label, [list])]
  | (label', items) :: entries, label, list =>
    if label' = label then (label', items ++ [list]) :: entries else (label', items) :: McpListings.push entries label list

/-- Labels that no earlier declaration has. -/
def validateServerLabels : List Text → List Text → Except ToolError Unit
  | _, [] => .ok ()
  | server_labels, label :: labels =>
    if label ∈ server_labels then .error (.config
      (utf8 "duplicate MCP declarations are not allowed for server_label '" ++ label ++ utf8 "'"))
    else validateServerLabels (label :: server_labels) labels

/-- The listings of the declared servers, in the order of the declarations. -/
def discoverListings (discovered : List (Text × McpListTools)) : Except ToolError McpListings := do
  validateServerLabels [] (discovered.map Prod.fst)
  return discovered.foldl (fun entries server => entries.push server.1 server.2) []

/-- A listing of the history goes to its server, if that is declared. -/
def cacheListing (entries : McpListings) (list : McpListTools) : McpListings :=
  entries.map fun (label, items) => if label = list.server_label then (label, items ++ [list]) else (label, items)

def cacheListedMcpTools (entries : McpListings) : ResponsesInput → McpListings
  | .text _ => entries
  | .items items => (listings items).foldl cacheListing entries

section
variable (sameTools : List McpListTool → List McpListTool → Bool)

/-- An earlier successful listing of the same tools. -/
def repeatsListing (previous current : McpListTools) : Bool :=
  current.error.isNone && previous.error.isNone && sameTools previous.tools current.tools

/-- The listing of this request, unless it has already been shown. -/
def currentListing : List McpListTools → Option McpListTools
  | [] => none
  | current :: history => if history.any (repeatsListing sameTools · current) then none else some current

def mcpListToolItems (entries : McpListings) : List McpListTools := entries.filterMap fun entry => currentListing sameTools entry.2

end

section
variable {sameTools : List McpListTool → List McpListTool → Bool} {entries : McpListings} {label : Text} {seen labels : List Text}
  {list : McpListTools} {records : List McpListTools} {discovered : List (Text × McpListTools)} {items : List InputItem}

theorem validateServerLabels_ok : validateServerLabels seen labels = .ok () ↔ labels.Nodup ∧ ∀ label ∈ labels, label ∉ seen := by
  induction labels generalizing seen with
  | nil => simp [validateServerLabels]
  | cons label labels ih =>
    unfold validateServerLabels
    by_cases repeated : label ∈ seen
    · simp [repeated]
    · rw [if_neg repeated, ih]
      simp only [List.nodup_cons, List.mem_cons, not_or, forall_eq_or_imp]
      constructor
      · rintro ⟨nodup, apart⟩
        exact ⟨⟨fun mem => (apart label mem).1 rfl, nodup⟩, repeated, fun other mem => (apart other mem).2⟩
      · rintro ⟨⟨first, nodup⟩, -, apart⟩
        refine ⟨nodup, fun other mem => ⟨?_, apart other mem⟩⟩
        rintro rfl
        exact first mem

theorem push_new (new : label ∉ entries.map Prod.fst) : entries.push label list = entries ++ [(label, [list])] := by
  induction entries with
  | nil => rfl
  | cons entry entries ih =>
    rw [List.map_cons, List.mem_cons, not_or] at new
    rw [McpListings.push, if_neg fun same => new.1 same.symm, ih new.2, List.cons_append]

/-- Servers that differ in their labels have an entry each. -/
theorem pushAll_new (nodup : (discovered.map Prod.fst).Nodup)
    (new : ∀ server ∈ discovered, server.1 ∉ entries.map Prod.fst) :
    discovered.foldl (fun entries server => McpListings.push entries server.1 server.2) entries =
      entries ++ discovered.map fun server => (server.1, [server.2]) := by
  induction discovered generalizing entries with
  | nil => simp
  | cons server discovered ih =>
    rw [List.map_cons, List.nodup_cons] at nodup
    rw [List.foldl_cons, push_new (new server List.mem_cons_self), ih nodup.2, List.append_assoc]
    · rfl
    · intro other mem
      rw [List.map_append, List.mem_append, not_or]
      refine ⟨new other (List.mem_cons_of_mem _ mem), ?_⟩
      simp only [List.map_cons, List.map_nil, List.mem_singleton]
      intro same
      exact nodup.1 (same ▸ List.mem_map_of_mem mem)

/-- The records of a history go to the servers they are of. -/
theorem cacheListings_eq : records.foldl cacheListing entries =
    entries.map fun entry => (entry.1, entry.2 ++ records.filter fun list => entry.1 = list.server_label) := by
  induction records generalizing entries with
  | nil => simp
  | cons list records ih =>
    rw [List.foldl_cons, ih, cacheListing, List.map_map]
    refine List.map_congr_left fun entry _ => ?_
    by_cases here : entry.1 = list.server_label
    · simp [here]
    · simp [here]

/-- Whether the items have a successful listing of the server with these tools. -/
def listedBefore (sameTools : List McpListTool → List McpListTool → Bool) (items : List InputItem) (label : Text)
    (list : McpListTools) : Bool :=
  (listings items).any fun previous => previous.server_label = label && repeatsListing sameTools previous list

theorem currentListing_eq : currentListing sameTools (list :: (listings items).filter fun previous => label = previous.server_label) =
    if listedBefore sameTools items label list then none else some list := by
  have same : ((listings items).filter fun previous => decide (label = previous.server_label)).any (repeatsListing sameTools · list) =
      listedBefore sameTools items label list := by
    rw [List.any_filter, listedBefore]
    congr 1
    funext previous
    rw [decide_eq_decide.2 eq_comm]
  show (if _ = true then none else some list) = _
  rw [same]

/-- **A listing is shown exactly when** the history has no equal successful listing of its server. -/
theorem mcpListToolItems_eq (found : discoverListings discovered = .ok entries) :
    mcpListToolItems sameTools (cacheListedMcpTools entries (.items items)) =
      (discovered.filter fun server => !listedBefore sameTools items server.1 server.2).map Prod.snd := by
  unfold discoverListings at found
  obtain ⟨_, valid, made⟩ := bind_eq_ok.1 found
  obtain ⟨nodup, -⟩ := validateServerLabels_ok.1 valid
  obtain rfl := pure_eq_ok.1 made
  rw [pushAll_new nodup (by simp), List.nil_append]
  show mcpListToolItems sameTools ((listings items).foldl cacheListing _) = _
  rw [cacheListings_eq, List.map_map, mcpListToolItems, List.filterMap_map]
  clear nodup valid found made
  induction discovered with
  | nil => rfl
  | cons server discovered ih =>
    rw [List.filterMap_cons, List.filter_cons]
    simp only [Function.comp, List.cons_append, List.nil_append, currentListing_eq] at ih ⊢
    cases listed : listedBefore sameTools items server.1 server.2 with
    | true => simpa using ih
    | false => simpa using ih

end

end AgenticStack
