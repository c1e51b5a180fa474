import InventoryTokens.SlotPlaceholder
import InventoryTokens.Table
import InventoryTokens.Token

/-!
# The registry

Placeholders under their names.  The first to take a name keeps it.  A call is checked against the
schema before the placeholder runs, and runs with the overload that the arguments matched.
-/

namespace InventoryTokens

/-- Placeholders, each under its own name. -/
structure Registry where
  table : Table String Placeholder
  named : ∀ name placeholder, table.find? name = some placeholder → placeholder.name = name

namespace Registry

def logTarget : String := "playerinv_placeholder::registry"

def empty : Registry where
  table := .empty
  named := by simp

def get? (registry : Registry) (name : String) : Option Placeholder :=
  registry.table.find? name

/-- The registry with a placeholder under its own name. -/
def put (registry : Registry) (placeholder : Placeholder) : Registry where
  table := registry.table.insert placeholder.name placeholder
  named := by
    intro name other h
    rw [Table.find?_insert] at h
    split at h
    · rename_i heq
      cases h
      exact heq.symm
    · exact registry.named name other h

/-- The registry with the built-in placeholders. -/
def withDefaults : Registry := empty.put SlotPlaceholder.placeholder

/-- Adds a placeholder, unless its name is taken. -/
def register (registry : Registry) (placeholder : Placeholder) :
    Logged (Except PlaceholderError Registry) := do
  if registry.table.contains placeholder.name then
    return .error (.duplicatePlaceholder placeholder.name)
  else
    Logged.log .debug logTarget "registered placeholder" [("placeholder", placeholder.name)]
    return .ok (registry.put placeholder)

def names (registry : Registry) : List String := registry.table.keys

/-- The overload that the arguments match. -/
def validate (placeholder : Placeholder) (name : String) (arguments : List Argument) :
    Except PlaceholderError Nat :=
  match placeholder.schema.validate? arguments with
  | some overload => .ok overload
  | none =>
    .error (.noMatchingOverload name arguments.length (placeholder.schema.usage name))

/-- Checks the arguments of a call against the placeholder's schema and resolves it. -/
def dispatch (registry : Registry) (name : String) (player : Option Player)
    (inventories : Provider) (arguments : List Argument) : Logged Resolution := do
  match registry.get? name with
  | none => return .error (.unknownPlaceholder name)
  | some placeholder =>
    match validate placeholder name arguments with
    | .error cause =>
      Logged.log .debug logTarget "arguments rejected"
        [("placeholder", Text.shown name), ("err", cause.message)]
      return .error cause
    | .ok overload => placeholder.resolve { player, inventories, overload } arguments

/-- Reads a token and resolves it. -/
def resolveToken (registry : Registry) (text : String) (player : Option Player)
    (inventories : Provider) : Logged Resolution :=
  match Token.parse text with
  | .error cause => pure (.error cause)
  | .ok token => registry.dispatch token.name player inventories token.arguments

end Registry

end InventoryTokens
