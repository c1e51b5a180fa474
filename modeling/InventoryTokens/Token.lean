import InventoryTokens.Placeholder

/-!
# Tokens

A token is a name and arguments between colons, such as `$playerinv:13`.  One leading `$` may be
left out.  The name is free of blanks; blanks around the token, and around the name, do not count.
-/

namespace InventoryTokens

/-- A name and the arguments after it. -/
structure Token where
  name : String
  arguments : List Argument
  deriving DecidableEq, Repr

namespace Token

/-- The text without one leading `$`. -/
def dropMark : List Char → List Char
  | '$' :: cs => cs
  | cs => cs

def parse (text : String) : Except PlaceholderError Token :=
  let (first, rest) := Text.cut ':' (dropMark (Text.trim text.toList))
  let name := Text.trim first
  if name = [] ∨ name.any Text.isBlank then .error (.malformedToken text)
  else .ok ⟨String.ofList name, rest.map fun piece => Argument.parse (String.ofList piece)⟩

end Token

end InventoryTokens
