/-!
# Patterns

A pattern is a regular expression for the value of a field.  Nothing is matched here: a pattern only
has to be one that could be, which is said of its tree.  The height of a tree counts the nodes that
hold others.
-/

namespace InventoryTokens

namespace Pattern

/-- What a flag letter turns on or off. -/
inductive Flag where
  | ignoreCase
  | multiLine
  | dotAll
  | swapGreed
  | unicode
  | anyLineEnd
  | ignoreSpace
  deriving DecidableEq, Repr

/-- Flags that are turned on or off, each at most once. -/
abbrev Switches := List (Flag × Bool)

/-- The value of a flag after switches that may leave it as it was. -/
def Switches.apply (switches : Switches) (flag : Flag) (before : Bool) : Bool :=
  (switches.lookup flag).getD before

/-- One character; `byte` tells whether it is written as a byte, in two hexadecimal digits. -/
structure Literal where
  code : Nat
  byte : Bool
  deriving DecidableEq, Repr

mutual

/-- What a class lists: characters, ranges, classes known by a name or by a letter, and classes. -/
inductive Member where
  | literal (l : Literal)
  | range (low high : Literal)
  | named (negated : Bool)
  | shorthand (negated : Bool)
  | bracketed (negated : Bool) (body : Body)

/-- The inside of a class: a list, or two sides of an operator. -/
inductive Body where
  | members (members : List Member)
  | combined (left right : Body)

end

mutual

/-- The most nodes that hold others on a way down from a member. -/
def Member.height : Member → Nat
  | .bracketed _ body => body.height + 1
  | _ => 0

/-- The most nodes that hold others on a way down into a class.  A list of one is no node. -/
def Body.height : Body → Nat
  | .members [] => 0
  | .members [member] => member.height
  | .members (member :: rest) => max member.height (Member.tallest rest) + 1
  | .combined left right => max left.height right.height + 1

def Member.tallest : List Member → Nat
  | [] => 0
  | member :: rest => max member.height (Member.tallest rest)

end

end Pattern

/-- A pattern.  An anchor holds at an end of a line or of the text, a boundary at an end of a
word. -/
inductive Pattern where
  | empty
  | literal (l : Pattern.Literal)
  | dot
  | anchor
  | boundary
  | shorthand (negated : Bool)
  | bracketed (negated : Bool) (body : Pattern.Body)
  | flags (switches : Pattern.Switches)
  | repeated (body : Pattern)
  | group (switches : Pattern.Switches) (name : Option (List Char)) (body : Pattern)
  | sequence (items : List Pattern)
  | choice (branches : List Pattern)

namespace Pattern

mutual

/-- The most nodes that hold others on a way down. -/
def height : Pattern → Nat
  | .bracketed _ body => body.height + 1
  | .repeated body => body.height + 1
  | .group _ _ body => body.height + 1
  | .sequence items => tallest items + 1
  | .choice branches => tallest branches + 1
  | _ => 0

def tallest : List Pattern → Nat
  | [] => 0
  | p :: rest => max p.height (tallest rest)

end

mutual

def names : Pattern → List (List Char)
  | .repeated body => body.names
  | .group _ name body => name.toList ++ body.names
  | .sequence items => allNames items
  | .choice branches => allNames branches
  | _ => []

def allNames : List Pattern → List (List Char)
  | [] => []
  | p :: rest => p.names ++ allNames rest

end

/-- The pattern of items that follow one another. -/
def ofItems : List Pattern → Pattern
  | [] => .empty
  | [p] => p
  | items => .sequence items

/-- The pattern of branches of which one has to hold. -/
def ofBranches : List Pattern → Pattern
  | [] => .empty
  | [p] => p
  | branches => .choice branches

end Pattern

end InventoryTokens
