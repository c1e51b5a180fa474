import InventoryTokens.Double.Layout
import InventoryTokens.Double.Reader

/-!
# Arguments

The value of an argument is inferred from its text: a whole number if it spells one that fits in 64
bits, else a finite number, else a truth value, else the text as it stands.  Blanks around a text
matter only to the last kind.
-/

namespace InventoryTokens

/-- The value of an argument. -/
inductive Argument where
  | whole (value : Int64)
  | number (value : Double)
  | text (value : String)
  | flag (value : Bool)
  deriving DecidableEq, Repr

namespace Argument

/-- The value of a text without blanks around it, unless it is mere text. -/
def infer? (cs : List Char) : Option Argument :=
  match (Text.readInt? cs).bind Text.int64? with
  | some n => some (.whole n)
  | none =>
    match (Double.read? cs).filter Double.isFinite with
    | some x => some (.number x)
    | none =>
      if cs = ['t', 'r', 'u', 'e'] then some (.flag true)
      else if cs = ['f', 'a', 'l', 's', 'e'] then some (.flag false)
      else none

def parse (raw : String) : Argument :=
  (infer? (Text.trim raw.toList)).getD (.text raw)

def render : Argument → String
  | .whole n => Text.int64Text n
  | .number x => x.plainText
  | .text s => s
  | .flag true => "true"
  | .flag false => "false"

/-- The value as a whole number, if it is one. -/
def asWhole? : Argument → Option Int64
  | .whole n => some n
  | _ => none

/-- The value as a double, if it is a number. -/
def asDouble? : Argument → Option Double
  | .whole n => some (.ofInt n.toInt)
  | .number x => some x
  | _ => none

end Argument

end InventoryTokens
