import InventoryTokens.Text.Blank

/-!
# File paths

A path is cut at its slashes.  Repeated slashes, and dots that stand for the current directory, are
no components, except that a dot at the very start of a relative path is kept.  Two paths are the
same if their components are.
-/

namespace InventoryTokens.File

inductive Component where
  | root
  | current
  | up
  | name (text : String)
  deriving DecidableEq, Repr

/-- What follows the last component of a path. -/
inductive Ending where
  | plain
  | slash
  | dot
  deriving DecidableEq, Repr

/-- A path: its components, and how it ends. -/
structure Path where
  components : List Component
  ending : Ending
  deriving DecidableEq, Repr

namespace Path

/-- The component that a piece between slashes stands for; an empty piece and a dot are none. -/
def component? (piece : List Char) : Option Component :=
  if piece = [] ∨ piece = ['.'] then none
  else if piece = ['.', '.'] then some .up
  else some (.name (String.ofList piece))

/-- What follows the last component, from the pieces in reverse order. -/
def endingOf : List (List Char) → Ending
  | [] => .plain
  | ['.'] :: _ => .dot
  | [] :: rest => if endingOf rest = .dot then .dot else .slash
  | _ :: _ => .plain

def parse (text : String) : Path :=
  let (first, rest) := Text.cut '/' text.toList
  let start :=
    if text = "" then []
    else if first = [] then [.root]
    else if first = ['.'] then [.current]
    else []
  ⟨start ++ (first :: rest).filterMap component?, endingOf (first :: rest).reverse⟩

def same (a b : String) : Bool :=
  (parse a).components = (parse b).components

/-- The components of the directory that a path lies in; the root and the empty path lie in none. -/
def parent? (components : List Component) : Option (List Component) :=
  match components.getLast? with
  | none => none
  | some .root => none
  | some _ => some components.dropLast

/-- The text of the directory that a relative path lies in: what stands before its last component,
without the slashes and dots at its end. -/
def parentText (text : String) : String :=
  let (first, rest) := Text.cut '/' text.toList
  let isNothing (piece : List Char) := (component? piece).isNone
  let before := (((first :: rest).reverse.dropWhile isNothing).drop 1).dropWhile isNothing
  "/".intercalate (before.reverse.map String.ofList)

def render (components : List Component) : String :=
  match components with
  | [.root] => "/"
  | components => "/".intercalate (components.map fun
    | .root => ""
    | .current => "."
    | .up => ".."
    | .name text => text)

end Path

end InventoryTokens.File
