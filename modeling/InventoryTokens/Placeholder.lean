import InventoryTokens.Log
import InventoryTokens.Player
import InventoryTokens.Schema

/-!
# Placeholders

A placeholder has a name, a schema for its arguments, and a way to resolve them to a stack.  That it
has no answer for a call is not an error; errors are mistakes of the caller.
-/

namespace InventoryTokens

/-- Why a call could not be resolved, or a placeholder not be registered. -/
inductive PlaceholderError where
  | grid (cause : GridError)
  | missingArgument (index : Nat) (name : String)
  | argumentType (index : Nat) (name : String) (expected : Kind) (found : String)
  | noMatchingOverload (placeholder : String) (count : Nat) (usage : String)
  | unsupportedOverload (placeholder : String) (overload : Nat)
  | unknownPlaceholder (name : String)
  | duplicatePlaceholder (name : String)
  | malformedToken (text : String)
  deriving DecidableEq, Repr

namespace PlaceholderError

def message : PlaceholderError → String
  | .grid cause => cause.message
  | .missingArgument index name =>
    "missing argument #" ++ Text.natText index ++ " `" ++ name ++ "`"
  | .argumentType index name expected found =>
    "argument #" ++ Text.natText index ++ " `" ++ name ++ "` must be " ++ expected.text ++
      ", got `" ++ found ++ "`"
  | .noMatchingOverload placeholder count usage =>
    "no overload of `" ++ placeholder ++ "` accepts " ++ Text.natText count ++
      " argument(s); usage: " ++ usage
  | .unsupportedOverload placeholder overload =>
    "placeholder `" ++ placeholder ++ "` has no overload #" ++ Text.natText overload
  | .unknownPlaceholder name => "unknown placeholder `" ++ name ++ "`"
  | .duplicatePlaceholder name => "placeholder `" ++ name ++ "` is already registered"
  | .malformedToken text => "malformed placeholder token `" ++ text ++ "`"

end PlaceholderError

/-- The outcome of a call: a stack, no answer, or an error. -/
abbrev Resolution := Except PlaceholderError (Option Stack)

/-- A named placeholder with the schema of its arguments. -/
structure Placeholder where
  name : String
  schema : Schema
  resolve : CallContext → List Argument → Logged Resolution

end InventoryTokens
