import InventoryTokens.Item
import InventoryTokens.Json.Reader
import InventoryTokens.Json.Writer

/-!
# Carried inventories

A carried inventory has the main grid, four armour places, one place in the off hand and four
crafting places.  Placeholders see the main grid only, through a view by coordinate.
-/

namespace InventoryTokens

/-- Places for stacks in a row of fixed length. -/
abbrev Shelf (n : Nat) := Vector (Option Stack) n

namespace Shelf

def empty (n : Nat) : Shelf n := Vector.replicate n none

/-- The row with one place changed, if the row has that place. -/
def put? {n : Nat} (shelf : Shelf n) (index : Nat) (stack : Option Stack) : Option (Shelf n) :=
  if h : index < n then some (shelf.set index stack h) else none

/-- The stack at a place, if the row has that place and it is filled. -/
def at? {n : Nat} (shelf : Shelf n) (index : Nat) : Option Stack :=
  if h : index < n then shelf[index] else none

/-- The places as data, empty ones absent. -/
def encode {n : Nat} (shelf : Shelf n) : Datum :=
  .list (shelf.toList.map (Datum.ofOption Stack.encode))

end Shelf

abbrev armorSize : Nat := 4

abbrev craftingSize : Nat := 4

structure Inventory where
  main : Shelf gridSize := Shelf.empty gridSize
  armor : Shelf armorSize := Shelf.empty armorSize
  offhand : Option Stack := none
  crafting : Shelf craftingSize := Shelf.empty craftingSize
  deriving DecidableEq, Repr

/-- The main grid as placeholders see it. -/
structure GridView where
  slots : Shelf gridSize
  deriving DecidableEq, Repr

namespace GridView

/-- A copy of the stack at a coordinate, which stays there. -/
def peek (view : GridView) (c : Coordinate) : Option Stack :=
  view.slots[c.slot]

/-- The stack at a coordinate, on loan from the view. -/
def get (view : GridView) (c : Coordinate) : Option Stack :=
  view.slots[c.slot]

/-- A copy is what it is a copy of. -/
theorem peek_eq_get (view : GridView) (c : Coordinate) : view.peek c = view.get c := rfl

/-- The filled slots in ascending order, with their stacks. -/
def occupied (view : GridView) : List (Slot × Stack) :=
  Slot.all.filterMap fun slot => view.slots[slot].map fun stack => (slot, stack)

end GridView

namespace Inventory

def empty : Inventory := {}

def get (inventory : Inventory) (slot : Slot) : Option Stack :=
  inventory.main[slot]

/-- Replaces what is in a slot, and tells what was there. -/
def set (inventory : Inventory) (slot : Slot) (stack : Option Stack) : Option Stack × Inventory :=
  (inventory.get slot, { inventory with main := inventory.main.set slot.val stack slot.isLt })

/-- Empties a slot, and tells what was there. -/
def take (inventory : Inventory) (slot : Slot) : Option Stack × Inventory :=
  inventory.set slot none

/-- The stack at an armour place; none beyond the last. -/
def armorAt (inventory : Inventory) (index : Nat) : Option Stack :=
  inventory.armor.at? index

/-- Replaces what is at an armour place, if there is such a place. -/
def setArmor? (inventory : Inventory) (index : Nat) (stack : Option Stack) : Option Inventory :=
  (inventory.armor.put? index stack).map fun armor => { inventory with armor }

def setOffhand (inventory : Inventory) (stack : Option Stack) : Inventory :=
  { inventory with offhand := stack }

/-- Replaces what is at a crafting place, if there is such a place. -/
def setCrafting? (inventory : Inventory) (index : Nat) (stack : Option Stack) : Option Inventory :=
  (inventory.crafting.put? index stack).map fun crafting => { inventory with crafting }

def grid (inventory : Inventory) : GridView :=
  ⟨inventory.main⟩

def emptySlots (inventory : Inventory) : Nat :=
  inventory.main.toList.countP Option.isNone

def encode (inventory : Inventory) : Datum :=
  .record [("main", inventory.main.encode), ("armor", inventory.armor.encode),
    ("offhand", Datum.ofOption Stack.encode inventory.offhand),
    ("crafting", inventory.crafting.encode)]

/-- Reads an inventory.  The main grid must be given and is counted last; other sections that are
not given are empty. -/
def decode (surplus : Surplus) (d : Datum) : Decoded Inventory := do
  let fields ← d.fields surplus ["main", "armor", "offhand", "crafting"]
  let stack := Datum.asOption (Stack.decode surplus)
  let main ← fields.required "main" (Datum.asList stack)
  let armor ← fields.withDefault "armor" (Shelf.empty armorSize) (Datum.asVector armorSize stack)
  let offhand ← fields.optional "offhand" (Stack.decode surplus)
  let crafting ←
    fields.withDefault "crafting" (Shelf.empty craftingSize) (Datum.asVector craftingSize stack)
  if h : main.length = gridSize then
    return { main := ⟨main.toArray, by simpa using h⟩, armor, offhand, crafting }
  else throw (.mainCount main.length)

/-- The text of an inventory. -/
def toJson (inventory : Inventory) : String :=
  Json.write inventory.encode

/-- Reads an inventory from a text that spells it and nothing else. -/
def ofJson (text : String) : Decoded Inventory :=
  match Json.read? text with
  | some d => decode .refused d
  | none => .error .shape

end Inventory

end InventoryTokens
