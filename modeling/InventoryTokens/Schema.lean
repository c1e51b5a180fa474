import InventoryTokens.Argument
import InventoryTokens.Decode

/-!
# Schemas

A schema lists overloads, each a list of typed parameters with optional bounds.  Arguments match the
first overload of their length whose parameters accept them one by one.  A schema with no overloads
accepts everything.
-/

namespace InventoryTokens

inductive Kind where
  | int
  | number
  | string
  | boolean
  deriving DecidableEq, Repr

namespace Kind

def text : Kind → String
  | .int => "int"
  | .number => "number"
  | .string => "string"
  | .boolean => "boolean"

def ofText? (s : String) : Option Kind :=
  [Kind.int, .number, .string, .boolean].find? fun kind => kind.text = s

/-- Reads a kind: its name, or a record whose one member has that name and nothing in it. -/
def decode : Datum → Decoded Kind
  | .text s => Datum.orShape (ofText? s)
  | .record [(s, .absent)] => Datum.orShape (ofText? s)
  | _ => .error .shape

end Kind

/-- One parameter of an overload, with inclusive bounds for numbers. -/
structure Parameter where
  name : String
  kind : Kind
  minimum : Option Double := none
  maximum : Option Double := none
  deriving DecidableEq, Repr

namespace Parameter

def inRange (p : Parameter) (x : Double) : Bool :=
  p.minimum.all (fun low => low.atMost x) && p.maximum.all (fun high => x.atMost high)

/-- Whether an argument is of the right kind and within bounds.  Text takes every argument. -/
def accepts (p : Parameter) (a : Argument) : Bool :=
  match p.kind with
  | .int => a.asWhole?.any fun n => p.inRange (.ofInt n.toInt)
  | .number => a.asDouble?.any p.inRange
  | .boolean => match a with
    | .flag _ => true
    | _ => false
  | .string => true

/-- The parameter as shown in a usage line. -/
def usage (p : Parameter) : String :=
  let bounds :=
    match p.minimum, p.maximum with
    | some low, some high => " " ++ low.plainText ++ "..=" ++ high.plainText
    | some low, none => " >=" ++ low.plainText
    | none, some high => " <=" ++ high.plainText
    | none, none => ""
  "<" ++ p.name ++ ":" ++ p.kind.text ++ bounds ++ ">"

/-- The fields of a parameter; bounds only if there are any. -/
def encode (p : Parameter) : Datum :=
  .record ([("name", .text p.name), ("type", .text p.kind.text)] ++
    Datum.member? "minimum" .number p.minimum ++ Datum.member? "maximum" .number p.maximum)

def decode (surplus : Surplus) (d : Datum) : Decoded Parameter := do
  let fields ← d.fields surplus ["name", "type", "minimum", "maximum"]
  let name ← fields.required "name" Datum.asText
  let kind ← fields.required "type" Kind.decode
  let minimum ← fields.optional "minimum" Datum.asDouble
  let maximum ← fields.optional "maximum" Datum.asDouble
  return { name, kind, minimum, maximum }

/-- Whether two optional bounds are equal as numbers. -/
def sameBound : Option Double → Option Double → Bool
  | none, none => true
  | some x, some y => x.equal y
  | _, _ => false

/-- Whether two parameters are equal, bounds as numbers. -/
def same (p q : Parameter) : Bool :=
  p.name = q.name && p.kind = q.kind && sameBound p.minimum q.minimum &&
    sameBound p.maximum q.maximum

end Parameter

/-- The parameters that one form of a call takes. -/
abbrev Overload := List Parameter

namespace Overload

/-- Whether arguments are as many as the parameters and each is accepted at its place. -/
def accepts (overload : Overload) (arguments : List Argument) : Bool :=
  overload.length = arguments.length &&
    (overload.zip arguments).all fun (p, a) => p.accepts a

/-- The line that shows how to call a placeholder in this form. -/
def usage (placeholder : String) (overload : Overload) : String :=
  overload.foldl (fun line p => line ++ ":" ++ p.usage) ("$" ++ placeholder)

/-- Whether two overloads have equal parameters. -/
def same (a b : Overload) : Bool :=
  a.length = b.length && (a.zip b).all fun (p, q) => p.same q

end Overload

/-- The overloads that a placeholder declares, in order of priority. -/
structure Schema where
  overloads : List Overload := []
  deriving DecidableEq, Repr

namespace Schema

/-- The first overload that accepts the arguments. -/
def matching? (schema : Schema) (arguments : List Argument) : Option Nat :=
  schema.overloads.findIdx? fun overload => overload.accepts arguments

/-- The overload to run for the arguments; the first of none is number zero. -/
def validate? (schema : Schema) (arguments : List Argument) : Option Nat :=
  if schema.overloads.isEmpty then some 0 else schema.matching? arguments

/-- How to call a placeholder, one alternative for each overload. -/
def usage (schema : Schema) (placeholder : String) : String :=
  if schema.overloads.isEmpty then "$" ++ placeholder
  else " | ".intercalate (schema.overloads.map (Overload.usage placeholder))

def encode (schema : Schema) : Datum :=
  .record [("overloads", .list (schema.overloads.map fun overload =>
    .list (overload.map Parameter.encode)))]

/-- Reads a schema; one that lists no overloads has none. -/
def decode (surplus : Surplus) (d : Datum) : Decoded Schema := do
  let fields ← d.fields surplus ["overloads"]
  let overloads ←
    fields.withDefault "overloads" [] (Datum.asList (Datum.asList (Parameter.decode surplus)))
  return { overloads }

/-- Whether two schemas have equal overloads in the same order, bounds as numbers. -/
def same (a b : Schema) : Bool :=
  a.overloads.length = b.overloads.length &&
    (a.overloads.zip b.overloads).all fun (x, y) => Overload.same x y

end Schema

end InventoryTokens
