import InventoryTokens.Host
import InventoryTokens.Log
import InventoryTokens.Toml.Writer

/-!
# Fixtures

A fixture lists players and what they carry, in any order.  Building it makes a host, unless the
list is ambiguous; capturing a host gives the fixture that lists it in order.
-/

namespace InventoryTokens

structure Placed (ι : Type) where
  slot : ι
  item : Key
  count : UInt32 := 1
  metadata : Option Metadata := none
  deriving DecidableEq, Repr

namespace Placed

variable {ι : Type}

/-- The stack itself; metadata that says nothing is dropped. -/
def stack (p : Placed ι) : Stack :=
  match p.metadata with
  | some m => .withMeta p.item p.count m
  | none => ⟨p.item, p.count, none⟩

def ofStack (slot : ι) (s : Stack) : Placed ι :=
  ⟨slot, s.item, s.count, s.metadata⟩

def encode (index : ι → Nat) (p : Placed ι) : Datum :=
  .record ([("slot", .nat (index p.slot)), ("item", .text p.item.text),
    ("count", .nat p.count.toNat)] ++ Datum.member? "meta" Metadata.encode p.metadata)

/-- Reads a placed stack; one that is not counted is a single item. -/
def decode (surplus : Surplus) (slot : Datum → Decoded ι) (d : Datum) : Decoded (Placed ι) := do
  let fields ← d.fields surplus ["slot", "item", "count", "meta"]
  let slot ← fields.required "slot" slot
  let item ← fields.required "item" Datum.asKey
  let count ← fields.withDefault "count" 1 Datum.asUInt32
  let metadata ← fields.optional "meta" (Metadata.decode surplus)
  return { slot, item, count, metadata }

end Placed

structure Entry where
  id : UInt64
  name : String
  slots : List (Placed Slot) := []
  armor : List (Placed UInt64) := []
  offhand : Option (Placed UInt8) := none
  deriving DecidableEq, Repr

inductive FixtureError where
  | slotTwice (player : String) (slot : Slot)
  | armorOutOfRange (player : String) (slot : UInt64)
  | idTwice (id : UInt64)
  deriving DecidableEq, Repr

namespace FixtureError

def message : FixtureError → String
  | .slotTwice player slot => "player " ++ player ++ " lists slot " ++ slot.text ++ " twice"
  | .armorOutOfRange player slot =>
    "player " ++ player ++ " has armor slot " ++ Text.natText slot.toNat ++ " (expected < 4)"
  | .idTwice id => "player id " ++ Text.natText id.toNat ++ " appears more than once"

end FixtureError

namespace Entry

def player (e : Entry) : Player := ⟨e.id, e.name⟩

/-- Puts listed stacks into the main grid; a slot listed before is refused. -/
def buildMain (name : String) :
    List Slot → List (Placed Slot) → Inventory → Except FixtureError Inventory
  | _, [], inventory => .ok inventory
  | seen, p :: rest, inventory =>
    if seen.contains p.slot then .error (.slotTwice name p.slot)
    else buildMain name (p.slot :: seen) rest (inventory.set p.slot (some p.stack)).2

/-- Puts listed stacks into armour places; of several for one place the last stays. -/
def buildArmor (name : String) :
    List (Placed UInt64) → Inventory → Except FixtureError Inventory
  | [], inventory => .ok inventory
  | p :: rest, inventory =>
    match inventory.setArmor? p.slot.toNat (some p.stack) with
    | some inventory => buildArmor name rest inventory
    | none => .error (.armorOutOfRange name p.slot)

def build (e : Entry) : Except FixtureError Inventory := do
  let inventory ← buildMain e.name [] e.slots .empty
  let inventory ← buildArmor e.name e.armor inventory
  return match e.offhand with
    | some p => inventory.setOffhand (some p.stack)
    | none => inventory

/-- The entry that lists what a player carries, each section in order. -/
def capture (player : Player) (inventory : Inventory) : Entry where
  id := player.id
  name := player.name
  slots := Slot.all.filterMap fun slot => (inventory.get slot).map (Placed.ofStack slot)
  armor := (List.range armorSize).filterMap fun i =>
    (inventory.armorAt i).map (Placed.ofStack (UInt64.ofNat i))
  offhand := inventory.offhand.map (Placed.ofStack 0)

/-- The fields of an entry; sections only if they hold anything. -/
def encode (e : Entry) : Datum :=
  .record ([("id", .nat e.id.toNat), ("name", .text e.name)] ++
    Datum.members? "slots" (Placed.encode Fin.val) e.slots ++
    Datum.members? "armor" (Placed.encode UInt64.toNat) e.armor ++
    Datum.member? "offhand" (Placed.encode UInt8.toNat) e.offhand)

def decode (surplus : Surplus) (d : Datum) : Decoded Entry := do
  let fields ← d.fields surplus ["id", "name", "slots", "armor", "offhand"]
  let id ← fields.required "id" Datum.asUInt64
  let name ← fields.required "name" Datum.asText
  let slots ← fields.withDefault "slots" [] (Datum.asList (Placed.decode surplus Datum.asSlot))
  let armor ← fields.withDefault "armor" [] (Datum.asList (Placed.decode surplus Datum.asUInt64))
  let offhand ← fields.optional "offhand" (Placed.decode surplus Datum.asUInt8)
  return { id, name, slots, armor, offhand }

end Entry

structure Fixture where
  players : List Entry := []
  deriving DecidableEq, Repr

inductive TextError where
  | unreadable
  | content (cause : DecodeError)
  deriving DecidableEq, Repr

namespace TextError

/-- What the domain itself says about the error, else the heading of all such errors. -/
def message : TextError → String
  | .unreadable => Toml.errorHeading
  | .content cause => cause.message?.getD Toml.errorHeading

/-- What is said about the error, from the outermost context to the cause. -/
def chain (cause : TextError) : List String :=
  ["failed to parse inventory fixture", cause.message]

end TextError

namespace Fixture

/-- Adds entries to a host; an identifier that is taken is refused. -/
def buildOnto : List Entry → Host → Except FixtureError Host
  | [], host => .ok host
  | e :: rest, host => do
    let inventory ← e.build
    let (previous, host) := host.insert e.player inventory
    match previous with
    | some _ => throw (.idTwice e.id)
    | none => buildOnto rest host

def build (f : Fixture) : Except FixtureError Host :=
  buildOnto f.players .empty

/-- The fixture that lists a host: each player with the inventory under the player's identifier. -/
def capture (host : Host) : Fixture :=
  ⟨host.players.filterMap fun player => (host.inventory? player.id).map (Entry.capture player)⟩

def encode (f : Fixture) : Datum :=
  .record [("players", .list (f.players.map Entry.encode))]

/-- Reads a fixture; one that lists no players has none. -/
def decode (surplus : Surplus) (d : Datum) : Decoded Fixture := do
  let fields ← d.fields surplus ["players"]
  let players ← fields.withDefault "players" [] (Datum.asList (Entry.decode surplus))
  return { players }

def ofToml (s : String) : Except TextError Fixture :=
  match Toml.read? s with
  | none => .error .unreadable
  | some d =>
    match decode .ignored d with
    | .ok f => .ok f
    | .error cause => .error (.content cause)

/-- The text of a fixture, unless a number in it is too large for the notation. -/
def toToml? (f : Fixture) : Option String :=
  Toml.write? f.encode

end Fixture

end InventoryTokens
