import InventoryTokens.Text.Digit

/-!
# TOML strings

Four forms: basic and literal, each within one line or over several.  Basic strings know escapes;
literal ones hold their characters as they are.  A string over several lines drops a newline right
after its opening quotes, reads a carriage return and newline as a newline, and may end in up to two
quotes before the closing three.
-/

namespace InventoryTokens.Toml

/-- A character that may stand in a comment or in a string: no control character but the tab. -/
def isPrintable (c : Char) : Bool :=
  c = '\t' || (0x20 ≤ c.toNat && c.toNat ≠ 0x7F)

/-- The character whose code point hexadecimal digits spell, if it is one and no surrogate. -/
def codePoint? (digits : List Char) : Option Char :=
  match Text.readBase? 16 digits with
  | some n =>
    if n < 0xD800 ∨ (0xE000 ≤ n ∧ n ≤ 0x10FFFF) then some (Char.ofNat n) else none
  | none => none

/-- The character after a backslash, other than `u` and `U`. -/
def unescape? (c : Char) : Option Char :=
  if c = '"' ∨ c = '\\' then some c
  else if c = 'b' then some '\x08'
  else if c = 't' then some '\t'
  else if c = 'n' then some '\n'
  else if c = 'f' then some '\x0c'
  else if c = 'r' then some '\r'
  else none

/-- Puts a character in front of the text that was scanned after it. -/
def emit (c? : Option Char) (scanned : Option (List Char × List Char)) :
    Option (List Char × List Char) :=
  match c?, scanned with
  | some c, some (text, rest) => some (c :: text, rest)
  | _, _ => none

/-- A basic string after its opening quote. -/
def scanBasic : List Char → Option (List Char × List Char)
  | [] => none
  | '"' :: rest => some ([], rest)
  | '\\' :: 'u' :: a :: b :: c :: d :: rest => emit (codePoint? [a, b, c, d]) (scanBasic rest)
  | '\\' :: 'U' :: a :: b :: c :: d :: e :: f :: g :: h :: rest =>
    emit (codePoint? [a, b, c, d, e, f, g, h]) (scanBasic rest)
  | '\\' :: c :: rest => emit (unescape? c) (scanBasic rest)
  | c :: rest => if isPrintable c ∧ c ≠ '\\' then emit (some c) (scanBasic rest) else none

/-- A literal string after its opening quote. -/
def scanLiteral : List Char → Option (List Char × List Char)
  | [] => none
  | '\'' :: rest => some ([], rest)
  | c :: rest => if isPrintable c then emit (some c) (scanLiteral rest) else none

/-- Up to two quotes, as text, and the rest: what may follow three closing quotes. -/
def scanTail (quote : Char) : List Char → List Char × List Char
  | a :: b :: rest =>
    if a = quote then if b = quote then ([a, b], rest) else ([a], b :: rest)
    else ([], a :: b :: rest)
  | [a] => if a = quote then ([a], []) else ([], [a])
  | [] => ([], [])

def afterNewline? : List Char → Option (List Char)
  | '\n' :: rest => some rest
  | '\r' :: '\n' :: rest => some rest
  | _ => none

/-- Whether only blanks stand before the next line end. -/
def endsLine (cs : List Char) : Bool :=
  (afterNewline? (cs.dropWhile fun c => c = ' ' || c = '\t')).isSome

/-- A basic string over several lines, after its opening quotes.  A backslash at the end of a line
drops what is blank after it, which is what `skipping` says is going on. -/
def scanLongBasic (skipping : Bool) : List Char → Option (List Char × List Char)
  | [] => none
  | '"' :: '"' :: '"' :: rest => some (scanTail '"' rest)
  | '\\' :: 'u' :: a :: b :: c :: d :: rest =>
    emit (codePoint? [a, b, c, d]) (scanLongBasic false rest)
  | '\\' :: 'U' :: a :: b :: c :: d :: e :: f :: g :: h :: rest =>
    emit (codePoint? [a, b, c, d, e, f, g, h]) (scanLongBasic false rest)
  | '\\' :: c :: rest =>
    if endsLine (c :: rest) then scanLongBasic true (c :: rest)
    else emit (unescape? c) (scanLongBasic false rest)
  | '\r' :: '\n' :: rest =>
    if skipping then scanLongBasic true rest else emit (some '\n') (scanLongBasic false rest)
  | c :: rest =>
    if skipping ∧ (c = ' ' ∨ c = '\t' ∨ c = '\n') then scanLongBasic true rest
    else if c = '\n' ∨ (isPrintable c ∧ c ≠ '\\') then emit (some c) (scanLongBasic false rest)
    else none

/-- A literal string over several lines, after its opening quotes. -/
def scanLongLiteral : List Char → Option (List Char × List Char)
  | [] => none
  | '\'' :: '\'' :: '\'' :: rest => some (scanTail '\'' rest)
  | '\r' :: '\n' :: rest => emit (some '\n') (scanLongLiteral rest)
  | c :: rest => if c = '\n' ∨ isPrintable c then emit (some c) (scanLongLiteral rest) else none

/-- The text without a line end at its start. -/
def dropNewline (cs : List Char) : List Char :=
  (afterNewline? cs).getD cs

def scanText : List Char → Option (List Char × List Char)
  | '"' :: '"' :: '"' :: rest => scanLongBasic false (dropNewline rest)
  | '"' :: rest => scanBasic rest
  | '\'' :: '\'' :: '\'' :: rest => scanLongLiteral (dropNewline rest)
  | '\'' :: rest => scanLiteral rest
  | _ => none

end InventoryTokens.Toml
