import InventoryTokens.Text.Blank

/-!
# Item keys

An item type is named by a namespace and a path, written `namespace:path`.  A path alone is in the
default namespace.  Both parts are non-empty and bounded and use a small alphabet, in which neither
the colon nor a blank occurs, so a written key reads back as itself.
-/

namespace InventoryTokens

/-- A name with at least one and at most `limit` characters, all of a class. -/
def isName (limit : Nat) (allowed : Char → Bool) (s : String) : Bool :=
  s.toList ≠ [] && s.toList.length ≤ limit && s.toList.all allowed

namespace Key

/-- A lower-case ASCII letter, a digit, `_`, `-` or `.`. -/
def isSpaceChar (c : Char) : Bool :=
  c.isLower || c.isDigit || c = '_' || c = '-' || c = '.'

/-- A character of a namespace, or `/`. -/
def isPathChar (c : Char) : Bool :=
  isSpaceChar c || c = '/'

def isSpaceName (s : String) : Bool := isName 64 isSpaceChar s

def isPathName (s : String) : Bool := isName 128 isPathChar s

end Key

structure Key where
  space : String
  path : String
  space_valid : Key.isSpaceName space = true
  path_valid : Key.isPathName path = true
  deriving DecidableEq, Repr

inductive KeyError where
  | empty
  | invalidSpace (text : String)
  | invalidPath (text : String)
  deriving DecidableEq, Repr

namespace KeyError

def message : KeyError → String
  | .empty => "registry key cannot be empty"
  | .invalidSpace text =>
    "invalid registry key namespace `" ++ text ++ "` (allowed: a-z0-9_.-, max 64)"
  | .invalidPath text =>
    "invalid registry key path `" ++ text ++ "` (allowed: a-z0-9_./-, max 128)"

end KeyError

namespace Key

/-- The namespace of a key that names none. -/
def defaultSpace : String := "minecraft"

/-- The key with a namespace and a path, the namespace checked first. -/
def ofParts (space path : String) : Except KeyError Key :=
  if hs : isSpaceName space = true then
    if hp : isPathName path = true then .ok ⟨space, path, hs, hp⟩ else .error (.invalidPath path)
  else .error (.invalidSpace space)

/-- Reads `namespace:path` or a path alone, with blanks around it. -/
def parse (text : String) : Except KeyError Key :=
  let trimmed := Text.trim text.toList
  if trimmed = [] then .error .empty
  else
    match Text.cutOnce ':' trimmed with
    | some (space, path) => ofParts (String.ofList space) (String.ofList path)
    | none => ofParts defaultSpace (String.ofList trimmed)

def text (key : Key) : String :=
  key.space ++ ":" ++ key.path

/-- The order of keys: by namespace, then by path. -/
def before (a b : Key) : Bool :=
  a.space < b.space || (a.space = b.space && a.path < b.path)

/-- Puts a key into keys that ascend, unless it is there. -/
def insertInto (key : Key) : List Key → List Key
  | [] => [key]
  | k :: rest =>
    if key = k then k :: rest
    else if key.before k then key :: k :: rest
    else k :: insertInto key rest

/-- The distinct keys of a list in ascending order. -/
def sorted (keys : List Key) : List Key :=
  keys.foldr insertInto []

def air : Key where
  space := "minecraft"
  path := "air"
  space_valid := by decide
  path_valid := by decide

end Key

end InventoryTokens
