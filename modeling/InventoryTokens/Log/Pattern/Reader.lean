import InventoryTokens.Log.Pattern.Basic
import InventoryTokens.Text.Blank
import InventoryTokens.Text.Digit
import InventoryTokens.Text.Letter

/-!
# Reading a pattern

Scanners return what they read with the text after it.  Where spaces are ignored, blanks and
comments may stand between the parts of a pattern and between the digits of a character.  The text
has no closing brace in it, so nothing that needs one can be read.
-/

namespace InventoryTokens.Pattern

/-- The text after blanks and comments; a comment goes to the end of the line. -/
def skipIgnored (inComment : Bool) : List Char → List Char
  | [] => []
  | c :: cs =>
    if inComment then skipIgnored (c ≠ '\n') cs
    else if Text.isBlank c then skipIgnored false cs
    else if c = '#' then skipIgnored true cs
    else c :: cs

/-- The text after what is ignored, if anything is. -/
def skip (ignoreSpace : Bool) (cs : List Char) : List Char :=
  if ignoreSpace then skipIgnored false cs else cs

/-- The first character that is not blank, after at most one comment mark. -/
def afterBlanks? (marked : Bool) : List Char → Option Char
  | [] => none
  | c :: cs =>
    if Text.isBlank c then afterBlanks? marked cs
    else if c = '#' ∧ !marked then afterBlanks? true cs
    else some c

/-- The character that is looked at beyond the present one.  Where spaces are ignored it is the
first that is neither blank nor a comment mark, even in a comment; if there is none it is the next
one. -/
def lookahead? (ignoreSpace : Bool) (cs : List Char) : Option Char :=
  if ignoreSpace then (afterBlanks? false cs).or cs.head? else cs.head?

/-! ## Escapes -/

/-- The number that some hexadecimal digits spell. -/
def scanHex (ignoreSpace : Bool) : Nat → Nat → List Char → Option (Nat × List Char)
  | 0, n, cs => some (n, cs)
  | count + 1, n, cs =>
    match skip ignoreSpace cs with
    | [] => none
    | c :: rest =>
      match Text.hexValue? c with
      | some digit => scanHex ignoreSpace count (n * 16 + digit) rest
      | none => none

/-- How many digits follow a letter that announces a code point. -/
def hexCount? (c : Char) : Option Nat :=
  if c = 'x' then some 2 else if c = 'u' then some 4 else if c = 'U' then some 8 else none

/-- The code points of the controls that have an escape of one letter. -/
def controls : List (Char × Nat) :=
  [('a', 0x07), ('t', 0x09), ('n', 0x0A), ('v', 0x0B), ('f', 0x0C), ('r', 0x0D)]

/-- What a character after a backslash stands for, if it needs no digits.  No letter but these has a
meaning, no digit has one, and any other ASCII character stands for itself. -/
def ofEscape? (c : Char) : Option Pattern :=
  if ['d', 's', 'w'].contains c then some (.shorthand false)
  else if ['D', 'S', 'W'].contains c then some (.shorthand true)
  else if ['A', 'z'].contains c then some .anchor
  else if ['b', 'B', '<', '>'].contains c then some .boundary
  else
    match controls.lookup c with
    | some code => some (.literal ⟨code, false⟩)
    | none =>
      if c.isAlphanum ∨ 0x7F < c.toNat then none else some (.literal ⟨c.toNat, false⟩)

/-- An escape after its backslash. -/
def scanEscape (ignoreSpace : Bool) : List Char → Option (Pattern × List Char)
  | [] => none
  | c :: rest =>
    match hexCount? c with
    | none => (ofEscape? c).map fun p => (p, rest)
    | some count =>
      match scanHex ignoreSpace count 0 rest with
      | some (code, rest) =>
        if code.isValidChar then some (.literal ⟨code, c = 'x'⟩, skip ignoreSpace rest) else none
      | none => none

/-! ## Classes -/

/-- What a part of a class stands for: a backslash starts an escape, any other character is
itself. -/
def scanPart (ignoreSpace : Bool) : List Char → Option (Pattern × List Char)
  | [] => none
  | '\\' :: rest => scanEscape ignoreSpace rest
  | c :: rest => some (.literal ⟨c.toNat, false⟩, rest)

/-- The member that a pattern is; neither an anchor nor a boundary is one. -/
def Member.ofPattern? : Pattern → Option Member
  | .literal l => some (.literal l)
  | .shorthand negated => some (.shorthand negated)
  | _ => none

/-- The range between two characters, the smaller first. -/
def Member.range? : Pattern → Pattern → Option Member
  | .literal low, .literal high => if low.code ≤ high.code then some (.range low high) else none
  | _, _ => none

/-- A member that is no class in brackets: one part, or two around a dash.  A dash before a closing
bracket or before another dash is not between two parts. -/
def scanMember (ignoreSpace : Bool) (cs : List Char) : Option (Member × List Char) := do
  let (first, rest) ← scanPart ignoreSpace cs
  let single := (Member.ofPattern? first).map fun member => (member, skip ignoreSpace rest)
  match skip ignoreSpace rest with
  | '-' :: after =>
    match lookahead? ignoreSpace after with
    | some ']' => single
    | some '-' => single
    | _ =>
      let (last, rest) ← scanPart ignoreSpace (skip ignoreSpace after)
      (Member.range? first last).map fun member => (member, rest)
  | _ => single

def classNames : List String :=
  ["alnum", "alpha", "ascii", "blank", "cntrl", "digit", "graph", "lower", "print", "punct",
    "space", "upper", "word", "xdigit"]

/-- A name between colons and the closing bracket, after the opening bracket; a caret before the
name negates the class. -/
def scanNamed : List Char → Option (Member × List Char)
  | ':' :: cs =>
    let negated := cs.head? = some '^'
    let cs := if negated then cs.drop 1 else cs
    let name := cs.takeWhile (· ≠ ':')
    match cs.drop name.length with
    | ':' :: ']' :: rest =>
      if classNames.contains (String.ofList name) then some (.named negated, rest) else none
    | _ => none
  | _ => none

/-- The dashes at the start of a class, which are members.  The first argument bounds their
number. -/
def scanDashes (ignoreSpace : Bool) : Nat → List Char → List Member × List Char
  | steps + 1, '-' :: cs =>
    let (dashes, rest) := scanDashes ignoreSpace steps (skip ignoreSpace cs)
    (.literal ⟨'-'.toNat, false⟩ :: dashes, rest)
  | _, cs => ([], cs)

/-- The start of a class after its opening bracket: whether a caret negates it, and the dashes, or
the closing bracket, that come first and are members.  The number bounds that of the dashes. -/
def scanOpening (ignoreSpace : Bool) (steps : Nat) (cs : List Char) :
    Bool × List Member × List Char :=
  let cs := skip ignoreSpace cs
  let negated := cs.head? = some '^'
  let cs := if negated then skip ignoreSpace (cs.drop 1) else cs
  match scanDashes ignoreSpace steps cs with
  | ([], ']' :: rest) => (negated, [.literal ⟨']'.toNat, false⟩], skip ignoreSpace rest)
  | (dashes, rest) => (negated, dashes, rest)

/-- The body of a class whose last list of members is given, in reverse, with what stands before the
operator in front of them. -/
def Body.close (left : Option Body) (members : List Member) : Body :=
  match left with
  | none => .members members.reverse
  | some left => .combined left (.members members.reverse)

mutual

/-- A class after its opening bracket.  The first argument bounds the steps; the number of
characters and one more is enough, since a class takes a step for each of its brackets and one for
each member or operator. -/
def scanClass (ignoreSpace : Bool) : Nat → List Char → Option (Bool × Body × List Char)
  | 0, _ => none
  | steps + 1, cs =>
    let (negated, members, rest) := scanOpening ignoreSpace steps cs
    (scanBody ignoreSpace steps none members.reverse rest).map fun (body, rest) =>
      (negated, body, rest)

/-- The rest of the body of a class and its closing bracket.  What stands before the last operator
and the members after it, in reverse, are given. -/
def scanBody (ignoreSpace : Bool) :
    Nat → Option Body → List Member → List Char → Option (Body × List Char)
  | 0, _, _, _ => none
  | steps + 1, left, members, cs =>
    match skip ignoreSpace cs with
    | [] => none
    | ']' :: rest => some (.close left members, rest)
    | '[' :: rest =>
      match scanNamed rest with
      | some (member, rest) => scanBody ignoreSpace steps left (member :: members) rest
      | none =>
        match scanClass ignoreSpace steps rest with
        | some (negated, body, rest) =>
          scanBody ignoreSpace steps left (.bracketed negated body :: members) rest
        | none => none
    | c :: rest =>
      if ['&', '-', '~'].contains c ∧ rest.head? = some c then
        scanBody ignoreSpace steps (some (.close left members)) [] (rest.drop 1)
      else
        match scanMember ignoreSpace (c :: rest) with
        | some (member, rest) => scanBody ignoreSpace steps left (member :: members) rest
        | none => none

end

/-! ## Groups -/

def Flag.ofLetter? (c : Char) : Option Flag :=
  [('i', .ignoreCase), ('m', .multiLine), ('s', .dotAll), ('U', .swapGreed), ('u', .unicode),
    ('R', .anyLineEnd), ('x', .ignoreSpace)].lookup c

/-- The switches of letters; a dash turns off those after it. -/
def Switches.ofLetters? (on : Bool) : List Char → Option Switches
  | [] => some []
  | '-' :: cs => ofLetters? false cs
  | c :: cs =>
    match Flag.ofLetter? c, ofLetters? on cs with
    | some flag, some switches => some ((flag, on) :: switches)
    | _, _ => none

/-- The switches of a text in which no character is twice and the dash, if there is one, not
last. -/
def Switches.read? (cs : List Char) : Option Switches :=
  if cs.Nodup ∧ cs.getLast? ≠ some '-' then ofLetters? true cs else none

/-- What an opening parenthesis starts: a group, or switches for the rest of the one that it is
in. -/
inductive Head where
  | group (switches : Switches) (name : Option (List Char))
  | flags (switches : Switches)

/-- Whether a text may name a group. -/
def isGroupName : List Char → Bool
  | [] => false
  | c :: cs =>
    (c = '_' || Text.isLetter c) &&
      cs.all fun c => ['_', '.', '[', ']'].contains c || Text.isLetterOrNumber c

/-- A group's name after the bracket that opens it. -/
def scanGroupName (cs : List Char) : Option (Head × List Char) :=
  let name := cs.takeWhile (· ≠ '>')
  match cs.drop name.length with
  | '>' :: rest => if isGroupName name then some (.group [] (some name), rest) else none
  | _ => none

/-- Flags, and the colon or the closing parenthesis after them; without any flag there is no closing
one. -/
def scanFlags (cs : List Char) : Option (Head × List Char) :=
  let letters := cs.takeWhile fun c => c ≠ ':' && c ≠ ')'
  match Switches.read? letters, cs.drop letters.length with
  | some switches, ':' :: rest => some (.group switches none, rest)
  | some switches, ')' :: rest => if letters = [] then none else some (.flags switches, rest)
  | _, _ => none

/-- What stands after an opening parenthesis.  Nothing may look ahead or behind. -/
def scanHead (ignoreSpace : Bool) (cs : List Char) : Option (Head × List Char) :=
  match skip ignoreSpace cs with
  | '?' :: 'P' :: '<' :: rest => scanGroupName rest
  | '?' :: '<' :: rest => scanGroupName rest
  | '?' :: rest => scanFlags rest
  | rest => some (.group [] none, rest)

/-! ## Patterns -/

/-- One character or escape outside of a class. -/
def scanAtom (ignoreSpace : Bool) : List Char → Option (Pattern × List Char)
  | [] => none
  | c :: rest =>
    if c = '\\' then scanEscape ignoreSpace rest
    else if c = '\x7b' then none
    else if c = '.' then some (.dot, rest)
    else if c = '^' ∨ c = '$' then some (.anchor, rest)
    else some (.literal ⟨c.toNat, false⟩, rest)

/-- Repeats the last of some items, which are given in reverse; a change of flags is nothing to
repeat. -/
def repeatLast? : List Pattern → Option (List Pattern)
  | [] => none
  | .flags _ :: _ => none
  | p :: items => some (.repeated p :: items)

/-- The pattern whose branches before the last one, and whose items in that one, are given in
reverse. -/
def close (branches items : List Pattern) : Pattern :=
  ofBranches (ofItems items.reverse :: branches).reverse

/-- The rest of a group and its closing parenthesis, or of the whole pattern.  The branches before
and the items of the present branch are given in reverse.  A question mark after a repetition
belongs to it.  The first argument bounds the steps; the number of characters and one more is
enough. -/
def scan : Nat → Bool → Bool → List Pattern → List Pattern → List Char →
    Option (Pattern × List Char)
  | 0, _, _, _, _, _ => none
  | steps + 1, ignoreSpace, grouped, branches, items, cs =>
    match skip ignoreSpace cs with
    | [] => if grouped then none else some (close branches items, [])
    | ')' :: rest => if grouped then some (close branches items, rest) else none
    | '|' :: rest => scan steps ignoreSpace grouped (ofItems items.reverse :: branches) [] rest
    | '(' :: rest =>
      match scanHead ignoreSpace rest with
      | none => none
      | some (.flags switches, rest) =>
        scan steps (switches.apply .ignoreSpace ignoreSpace) grouped branches
          (.flags switches :: items) rest
      | some (.group switches name, rest) =>
        match scan steps (switches.apply .ignoreSpace ignoreSpace) true [] [] rest with
        | some (body, rest) =>
          scan steps ignoreSpace grouped branches (.group switches name body :: items) rest
        | none => none
    | '[' :: rest =>
      match scanClass ignoreSpace steps rest with
      | some (negated, body, rest) =>
        scan steps ignoreSpace grouped branches (.bracketed negated body :: items) rest
      | none => none
    | c :: rest =>
      if c = '?' ∨ c = '*' ∨ c = '+' then
        match repeatLast? items with
        | some items =>
          scan steps ignoreSpace grouped branches items
            (if rest.head? = some '?' then rest.drop 1 else rest)
        | none => none
      else
        match scanAtom ignoreSpace (c :: rest) with
        | some (p, rest) => scan steps ignoreSpace grouped branches (p :: items) rest
        | none => none

def read? (cs : List Char) : Option Pattern :=
  (scan (cs.length + 1) false false [] [] cs).map (·.1)

end InventoryTokens.Pattern
