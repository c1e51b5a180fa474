import InventoryTokens.Log.Pattern.Reader

/-!
# Supported patterns

Which patterns can be matched against text byte by byte, with no table of letters or of cases at
hand.  That hangs on two flags.  With `unicode`, a class known by a letter and the ends of words
need a table of letters, and whatever ignores case needs a table of cases.  Without it, a pattern
may not hold for bytes that are no text: any byte, a byte beyond ASCII, or all bytes but some.
-/

namespace InventoryTokens.Pattern

/-- The flags in force that matter. -/
structure Mode where
  ignoreCase : Bool := false
  unicode : Bool := true
  deriving DecidableEq, Repr

namespace Mode

def apply (mode : Mode) (switches : Switches) : Mode where
  ignoreCase := switches.apply .ignoreCase mode.ignoreCase
  unicode := switches.apply .unicode mode.unicode

/-- Whether a character is supported in a pattern. -/
def allows (mode : Mode) (l : Literal) : Bool :=
  if mode.unicode then !mode.ignoreCase else !(l.byte && 0x7F < l.code)

/-- Whether a character is supported in a class. -/
def allowsMember (mode : Mode) (l : Literal) : Bool :=
  if mode.unicode then !mode.ignoreCase else l.code ≤ 0x7F

/-- Whether a class known by a letter is supported. -/
def allowsShorthand (mode : Mode) (negated : Bool) : Bool :=
  !mode.unicode && !negated

end Mode

mutual

def Member.isSupported (mode : Mode) : Member → Bool
  | .literal l => mode.allowsMember l
  | .range low high => mode.allowsMember low && mode.allowsMember high
  | .named negated => if mode.unicode then !mode.ignoreCase else !negated
  | .shorthand negated => mode.allowsShorthand negated
  | .bracketed negated body => (mode.unicode || !negated) && body.isSupported mode

def Body.isSupported (mode : Mode) : Body → Bool
  | .members members => Member.allSupported mode members
  | .combined left right => left.isSupported mode && right.isSupported mode

def Member.allSupported (mode : Mode) : List Member → Bool
  | [] => true
  | member :: rest => member.isSupported mode && Member.allSupported mode rest

end

mutual

/-- The mode after a pattern that is supported.  Switches hold to the end of the group they are in,
in later branches too. -/
def modeAfter? (mode : Mode) : Pattern → Option Mode
  | .empty => some mode
  | .literal l => if mode.allows l then some mode else none
  | .dot => if mode.unicode then some mode else none
  | .anchor => some mode
  | .boundary => if mode.unicode then none else some mode
  | .shorthand negated => if mode.allowsShorthand negated then some mode else none
  | .bracketed negated body =>
    if (mode.unicode || !negated) && body.isSupported mode then some mode else none
  | .flags switches => some (mode.apply switches)
  | .repeated body => body.modeAfter? mode
  | .group switches _ body => (body.modeAfter? (mode.apply switches)).map fun _ => mode
  | .sequence items => modeAfterAll? mode items
  | .choice branches => modeAfterAll? mode branches

/-- The mode after patterns that are all supported. -/
def modeAfterAll? (mode : Mode) : List Pattern → Option Mode
  | [] => some mode
  | p :: rest =>
    match p.modeAfter? mode with
    | some mode => modeAfterAll? mode rest
    | none => none

end

def heightLimit : Nat := 250

/-- Whether a text is a pattern that can be used: no two groups share a name, it is not too high,
and all of it is supported. -/
def isUsable (cs : List Char) : Bool :=
  match read? cs with
  | some p => p.names.Nodup && p.height ≤ heightLimit && (p.modeAfter? {}).isSome
  | none => false

end InventoryTokens.Pattern
