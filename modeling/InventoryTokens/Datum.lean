import InventoryTokens.Double.Basic

/-!
# Data trees

The tree that both notations, JSON and TOML, spell: what is written is first encoded as a datum, and
what is read is first a datum, from which values are then decoded.  Members of a record keep their
order and may repeat a name, because only the decoder knows which names matter to it.
-/

namespace InventoryTokens

/-- A tree of plain values.  `unreadable` stands for a value that is spelled correctly but holds
text that is not Unicode; it may stand where nobody reads it. -/
inductive Datum where
  | absent
  | flag (value : Bool)
  | whole (value : Int)
  | number (value : Double)
  | text (value : String)
  | list (items : List Datum)
  | record (members : List (String × Datum))
  | unreadable
  deriving Inhabited

namespace Datum

def nat (n : Nat) : Datum := .whole n

/-- The encoded value, or `absent`. -/
def ofOption {α : Type} (encode : α → Datum) : Option α → Datum
  | some a => encode a
  | none => .absent

/-- A member that is left out when there is no value. -/
def member? {α : Type} (name : String) (encode : α → Datum) : Option α → List (String × Datum)
  | some a => [(name, encode a)]
  | none => []

/-- A member that is left out when the list is empty. -/
def members? {α : Type} (name : String) (encode : α → Datum) : List α → List (String × Datum)
  | [] => []
  | items => [(name, .list (items.map encode))]

end Datum

end InventoryTokens
