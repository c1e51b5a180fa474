import InventoryTokens.Inventory
import InventoryTokens.Text.Shown

/-!
# Players and providers

A placeholder is resolved for a player, or for none, and sees inventories only through a provider,
which shows for a player the main grid of what that player carries.
-/

namespace InventoryTokens

/-- A player: an identifier given by the host, and a name. -/
structure Player where
  id : UInt64
  name : String
  deriving DecidableEq, Repr

namespace Player

def idText (p : Player) : String := Text.natText p.id.toNat

def encode (p : Player) : Datum :=
  .record [("id", .nat p.id.toNat), ("name", .text p.name)]

def decode (surplus : Surplus) (d : Datum) : Decoded Player := do
  let fields ← d.fields surplus ["id", "name"]
  let id ← fields.required "id" Datum.asUInt64
  let name ← fields.required "name" Datum.asText
  return { id, name }

def describe (p : Player) : String :=
  "PlayerContext \x7b id: PlayerId(" ++ p.idText ++ "), name: " ++ Text.shown p.name ++ " \x7d"

end Player

/-- For each player the main grid of what the player carries, if that is known. -/
abbrev Provider := Player → Option GridView

namespace Inventory

/-- A lone inventory serves whichever player asks. -/
def provider (inventory : Inventory) : Provider := fun _ => some inventory.grid

end Inventory

/-- What a placeholder may read during one call: the player if there is one, the inventories, and
the number of the overload that the arguments matched. -/
structure CallContext where
  player : Option Player
  inventories : Provider
  overload : Nat := 0

namespace CallContext

/-- A context as described in a log; inventories are not shown. -/
def describe (context : CallContext) : String :=
  let player :=
    match context.player with
    | some p => "Some(" ++ p.describe ++ ")"
    | none => "None"
  "PlaceholderContext \x7b player: " ++ player ++ ", overload: " ++
    Text.natText context.overload ++ ", .. \x7d"

end CallContext

end InventoryTokens
