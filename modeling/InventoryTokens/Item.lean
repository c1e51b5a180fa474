import InventoryTokens.Decode

/-!
# Item stacks

A stack is a key, a count and optional metadata.  Metadata that says nothing is dropped when a stack
is made with it, but kept when a stack is read with it.
-/

namespace InventoryTokens

/-- Metadata of a stack: a name it was given, its lines of lore, and the damage it took. -/
structure Metadata where
  displayName : Option String := none
  lore : List String := []
  damage : Option UInt32 := none
  deriving DecidableEq, Repr

namespace Metadata

def isEmpty (m : Metadata) : Bool :=
  m.displayName.isNone && m.lore.isEmpty && m.damage.isNone

theorem isEmpty_iff {m : Metadata} : m.isEmpty = true ↔ m = {} := by
  obtain ⟨displayName, lore, damage⟩ := m
  simp [isEmpty, and_assoc]

/-- The fields that carry something. -/
def encode (m : Metadata) : Datum :=
  .record (Datum.member? "display_name" .text m.displayName ++
    Datum.members? "lore" .text m.lore ++
    Datum.member? "damage" (fun n => Datum.nat n.toNat) m.damage)

/-- Reads metadata; every field has a default. -/
def decode (surplus : Surplus) (d : Datum) : Decoded Metadata := do
  let fields ← d.fields surplus ["display_name", "lore", "damage"]
  let displayName ← fields.optional "display_name" Datum.asText
  let lore ← fields.withDefault "lore" [] (Datum.asList Datum.asText)
  let damage ← fields.optional "damage" Datum.asUInt32
  return { displayName, lore, damage }

end Metadata

structure Stack where
  item : Key
  count : UInt32
  metadata : Option Metadata := none
  deriving DecidableEq, Repr

namespace Stack

/-- A stack with metadata; metadata that says nothing is dropped. -/
def withMeta (item : Key) (count : UInt32) (m : Metadata) : Stack :=
  ⟨item, count, if m.isEmpty then none else some m⟩

/-- What an empty slot shows: one of the empty item. -/
def air : Stack := ⟨.air, 1, none⟩

/-- Whether the stack is of the empty item, in any number. -/
def isAir (s : Stack) : Bool :=
  s.item.space = Key.defaultSpace && s.item.path = "air"

/-- The text shown to a player: count, key, and the given name in quotes. -/
def text (s : Stack) : String :=
  let named :=
    match s.metadata.bind Metadata.displayName with
    | some name => " \"" ++ name ++ "\""
    | none => ""
  Text.natText s.count.toNat ++ "x " ++ s.item.text ++ named

/-- The fields of a stack; metadata only if there is any. -/
def encode (s : Stack) : Datum :=
  .record ([("item", .text s.item.text), ("count", .nat s.count.toNat)] ++
    Datum.member? "meta" Metadata.encode s.metadata)

/-- Reads a stack; metadata that says nothing is kept. -/
def decode (surplus : Surplus) (d : Datum) : Decoded Stack := do
  let fields ← d.fields surplus ["item", "count", "meta"]
  let item ← fields.required "item" Datum.asKey
  let count ← fields.required "count" Datum.asUInt32
  let m ← fields.optional "meta" (Metadata.decode surplus)
  return ⟨item, count, m⟩

end Stack

end InventoryTokens
