import InventoryTokens.Player
import InventoryTokens.Table

/-!
# Hosts

A host knows the players that are online and what they carry.  Players are kept under their
identifiers, so the order of players is the order of identifiers.
-/

namespace InventoryTokens

/-- A player and what the player carries. -/
structure Resident extends Player where
  inventory : Inventory
  deriving DecidableEq, Repr

/-- Players that are online, each under the player's own identifier. -/
structure Host where
  residents : Table UInt64 Resident
  keyed : ∀ id resident, residents.find? id = some resident → resident.id = id

namespace Host

def empty : Host where
  residents := .empty
  keyed := by simp

def player? (host : Host) (id : UInt64) : Option Player :=
  (host.residents.find? id).map Resident.toPlayer

def inventory? (host : Host) (id : UInt64) : Option Inventory :=
  (host.residents.find? id).map Resident.inventory

/-- Players in ascending order of identifiers. -/
def players (host : Host) : List Player :=
  host.residents.entries.map fun (_, resident) => resident.toPlayer

/-- The first player with a name, up to the case of ASCII letters. -/
def playerNamed? (host : Host) (name : String) : Option Player :=
  host.players.find? fun p => Text.sameLetters p.name name

/-- The host with a resident under its own identifier. -/
def put (host : Host) (resident : Resident) : Host where
  residents := host.residents.insert resident.id resident
  keyed := by
    intro id other h
    rw [Table.find?_insert] at h
    split at h
    · rename_i heq
      cases h
      exact heq.symm
    · exact host.keyed id other h

theorem find?_put (host : Host) (resident : Resident) (id : UInt64) :
    (host.put resident).residents.find? id =
      if id = resident.id then some resident else host.residents.find? id :=
  Table.find?_insert ..

/-- Adds or replaces a player, and tells what the one replaced carried. -/
def insert (host : Host) (player : Player) (inventory : Inventory) : Option Inventory × Host :=
  (host.inventory? player.id, host.put ⟨player, inventory⟩)

/-- The host without what is under an identifier. -/
def without (host : Host) (id : UInt64) : Host where
  residents := host.residents.erase id
  keyed := by
    intro other resident h
    rw [Table.find?_erase] at h
    split at h
    · cases h
    · exact host.keyed other resident h

theorem find?_without (host : Host) (key id : UInt64) :
    (host.without key).residents.find? id =
      if id = key then none else host.residents.find? id :=
  Table.find?_erase ..

/-- Removes a player, and tells what it carried. -/
def remove (host : Host) (id : UInt64) : Option Inventory × Host :=
  (host.inventory? id, host.without id)

/-- Changes what a player carries, if the player is online. -/
def modify (host : Host) (id : UInt64) (change : Inventory → Inventory) : Host :=
  match host.residents.find? id with
  | some resident => host.put { resident with inventory := change resident.inventory }
  | none => host

/-- Shows each online player's main grid, whatever name is asked with. -/
def provider (host : Host) : Provider := fun player =>
  (host.inventory? player.id).map Inventory.grid

end Host

end InventoryTokens
