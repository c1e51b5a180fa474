import InventoryTokens.Text.Whole

/-!
# Digits of other bases

Digits of the bases up to sixteen, where letters in either case follow the ASCII digits.  A written
hexadecimal digit reads back as its value.
-/

namespace InventoryTokens.Text

def hexValue? (c : Char) : Option Nat :=
  if '0' ≤ c ∧ c ≤ '9' then some (c.toNat - '0'.toNat)
  else if 'a' ≤ c ∧ c ≤ 'f' then some (c.toNat - 'a'.toNat + 10)
  else if 'A' ≤ c ∧ c ≤ 'F' then some (c.toNat - 'A'.toNat + 10)
  else none

/-- The value of a digit in a base up to sixteen. -/
def digitValue? (base : Nat) (c : Char) : Option Nat :=
  (hexValue? c).filter (· < base)

/-- The number that digits of a base spell, if all of them are digits of it. -/
def readBase? (base : Nat) (cs : List Char) : Option Nat :=
  (cs.mapM (digitValue? base)).map fun values => values.foldl (fun n d => n * base + d) 0

def hexDigit (n : Nat) : Char :=
  Nat.digitChar (n % 16)

theorem hexValue?_hexDigit (n : Nat) : hexValue? (hexDigit n) = some (n % 16) := by
  have h : ∀ d < 16, hexValue? (Nat.digitChar d) = some d := by decide
  exact h (n % 16) (Nat.mod_lt n (by decide))

@[simp] theorem digitValue?_hexDigit (n : Nat) : digitValue? 16 (hexDigit n) = some (n % 16) := by
  rw [digitValue?, hexValue?_hexDigit, Option.filter_some,
    if_pos (decide_eq_true (Nat.mod_lt n (by decide)))]

end InventoryTokens.Text
