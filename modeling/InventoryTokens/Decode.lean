import InventoryTokens.Datum
import InventoryTokens.Grid
import InventoryTokens.Key

/-!
# Decoding data

Decoders turn a datum into a value of a domain type.  A value with named fields may be spelled as a
record or as the list of its fields in their order; unknown members are ignored, and a known one may
not stand twice.
-/

namespace InventoryTokens

/-- Why a datum is no value of the wanted type.  Only the causes that the domain itself states have
words of their own. -/
inductive DecodeError where
  | shape
  | grid (cause : GridError)
  | key (cause : KeyError)
  | mainCount (found : Nat)
  deriving DecidableEq, Repr

namespace DecodeError

/-- What is said about the error, if anything. -/
def message? : DecodeError → Option String
  | .shape => none
  | .grid cause => some cause.message
  | .key cause => some cause.message
  | .mainCount found => some ("expected 45 main slots, got " ++ Text.natText found)

end DecodeError

abbrev Decoded (α : Type) := Except DecodeError α

namespace Datum

/-- The value of a partial look-up, or a failure of shape. -/
def orShape {α : Type} : Option α → Decoded α
  | some a => .ok a
  | none => .error .shape

def asText : Datum → Decoded String
  | .text s => .ok s
  | _ => .error .shape

def asWhole : Datum → Decoded Int
  | .whole n => .ok n
  | _ => .error .shape

def asUInt64 (d : Datum) : Decoded UInt64 := do
  orShape (Text.uint64? (← d.asWhole))

def asUInt32 (d : Datum) : Decoded UInt32 := do
  orShape (Text.uint32? (← d.asWhole))

def asUInt8 (d : Datum) : Decoded UInt8 := do
  orShape (Text.uint8? (← d.asWhole))

/-- A finite double, from a number of any spelling. -/
def asDouble : Datum → Decoded Double
  | .whole n => .ok (.ofInt n)
  | .number x => if x.isFinite then .ok x else .error .shape
  | _ => .error .shape

/-- A slot of the main grid: a signed 64-bit integer that lies in the grid. -/
def asSlot (d : Datum) : Decoded Slot := do
  let index ← orShape (Text.int64? (← d.asWhole))
  match Slot.ofIndex index.toInt with
  | .ok slot => .ok slot
  | .error cause => .error (.grid cause)

def asKey (d : Datum) : Decoded Key := do
  match Key.parse (← d.asText) with
  | .ok key => .ok key
  | .error cause => .error (.key cause)

def asList {α : Type} (decode : Datum → Decoded α) : Datum → Decoded (List α)
  | .list items => items.mapM decode
  | _ => .error .shape

def asOption {α : Type} (decode : Datum → Decoded α) : Datum → Decoded (Option α)
  | .absent => .ok none
  | d => (decode d).map some

/-- A list of exactly `n` items, each decoded. -/
def asVector {α : Type} (n : Nat) (decode : Datum → Decoded α) (d : Datum) :
    Decoded (Vector α n) := do
  let items ← d.asList decode
  if h : items.length = n then .ok ⟨items.toArray, by simpa using h⟩ else .error .shape

end Datum

/-- Whether a list that spells fields may go on after the last of them. -/
inductive Surplus where
  | refused
  | ignored
  deriving DecidableEq, Repr

/-- The fields of a value that were given, by name. -/
abbrev Fields := List (String × Datum)

namespace Datum

/-- The named fields that a datum gives. -/
def fields (surplus : Surplus) (names : List String) : Datum → Decoded Fields
  | .record members =>
    let known := members.filter fun (name, _) => names.contains name
    if (known.map Prod.fst).Nodup then .ok known else .error .shape
  | .list items =>
    if surplus = .refused ∧ names.length < items.length then .error .shape
    else .ok (names.zip items)
  | _ => .error .shape

end Datum

namespace Fields

variable {α : Type}

/-- A field that must be given. -/
def required (fields : Fields) (name : String) (decode : Datum → Decoded α) : Decoded α :=
  match fields.lookup name with
  | some d => decode d
  | none => .error .shape

/-- A field that has a default when it is not given. -/
def withDefault (fields : Fields) (name : String) (default : α) (decode : Datum → Decoded α) :
    Decoded α :=
  match fields.lookup name with
  | some d => decode d
  | none => .ok default

/-- A field that may be left out or be absent. -/
def optional (fields : Fields) (name : String) (decode : Datum → Decoded α) :
    Decoded (Option α) :=
  fields.withDefault name none (Datum.asOption decode)

end Fields

end InventoryTokens
