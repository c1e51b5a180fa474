/-!
# Whole numbers in decimal digits

Reading takes an optional sign and one or more ASCII digits, of any length; writing gives no sign
but `-` and no leading zero.  What is written reads back as the same number.
-/

namespace InventoryTokens.Text

/-- The value of one or more ASCII digits. -/
def readNat? (cs : List Char) : Option Nat :=
  if cs ≠ [] ∧ cs.all Char.isDigit then some (Nat.ofDigitChars 10 cs 0) else none

/-- The value of an optional sign followed by one or more ASCII digits. -/
def readInt? : List Char → Option Int
  | '+' :: cs => (readNat? cs).map fun n => (n : Int)
  | '-' :: cs => (readNat? cs).map fun n => -(n : Int)
  | cs => (readNat? cs).map fun n => (n : Int)

def natDigits (n : Nat) : List Char :=
  Nat.toDigits 10 n

/-- The digits of an integer, after `-` if it is negative. -/
def intDigits (n : Int) : List Char :=
  if n < 0 then '-' :: natDigits n.natAbs else natDigits n.natAbs

theorem natDigits_ne_nil (n : Nat) : natDigits n ≠ [] :=
  List.ne_nil_of_length_pos Nat.length_toDigits_pos

theorem isDigit_of_mem_natDigits {n : Nat} {c : Char} (h : c ∈ natDigits n) : c.isDigit = true :=
  Nat.isDigit_of_mem_toDigits (by decide) (by decide) h

theorem readNat?_natDigits (n : Nat) : readNat? (natDigits n) = some n := by
  have h : natDigits n ≠ [] ∧ (natDigits n).all Char.isDigit = true :=
    ⟨natDigits_ne_nil n, List.all_eq_true.mpr fun _ => isDigit_of_mem_natDigits⟩
  rw [readNat?, if_pos h]
  exact congrArg some (Nat.ofDigitChars_toDigits (by decide) (by decide))

/-- Text that starts with a digit is read without a sign. -/
theorem readInt?_of_isDigit {c : Char} {cs : List Char} (h : c.isDigit = true) :
    readInt? (c :: cs) = (readNat? (c :: cs)).map fun n => (n : Int) := by
  unfold readInt?
  split
  · rename_i heq
    simp only [List.cons.injEq] at heq
    rw [heq.1] at h
    exact absurd h (by decide)
  · rename_i heq
    simp only [List.cons.injEq] at heq
    rw [heq.1] at h
    exact absurd h (by decide)
  · rfl

theorem readInt?_intDigits (n : Int) : readInt? (intDigits n) = some n := by
  unfold intDigits
  split
  · rename_i h
    simp only [readInt?, readNat?_natDigits]
    show some (-(n.natAbs : Int)) = some n
    exact congrArg some (by omega)
  · rename_i h
    obtain ⟨c, cs, hcs⟩ := List.exists_cons_of_ne_nil (natDigits_ne_nil n.natAbs)
    have hc : c.isDigit = true := isDigit_of_mem_natDigits (n := n.natAbs) (by simp [hcs])
    rw [hcs, readInt?_of_isDigit hc, ← hcs, readNat?_natDigits]
    show some (n.natAbs : Int) = some n
    exact congrArg some (by omega)

/-- Whether a signed 64-bit word can hold an integer. -/
abbrev FitsInt64 (n : Int) : Prop :=
  -0x8000000000000000 ≤ n ∧ n < 0x8000000000000000

/-- An integer as a signed 64-bit word, if it fits. -/
def int64? (n : Int) : Option Int64 :=
  if FitsInt64 n then some (Int64.ofInt n) else none

/-- An integer as an unsigned 64-bit word, if it fits. -/
def uint64? (n : Int) : Option UInt64 :=
  if 0 ≤ n ∧ n < 0x10000000000000000 then some (UInt64.ofNat n.toNat) else none

/-- An integer as an unsigned 32-bit word, if it fits. -/
def uint32? (n : Int) : Option UInt32 :=
  if 0 ≤ n ∧ n < 0x100000000 then some (UInt32.ofNat n.toNat) else none

/-- An integer as an unsigned 8-bit word, if it fits. -/
def uint8? (n : Int) : Option UInt8 :=
  if 0 ≤ n ∧ n < 0x100 then some (UInt8.ofNat n.toNat) else none

def int64Text (n : Int64) : String :=
  String.ofList (intDigits n.toInt)

def natText (n : Nat) : String :=
  String.ofList (natDigits n)

end InventoryTokens.Text
