import InventoryTokens.Datum
import InventoryTokens.Text.Whole

/-!
# The main grid

The main grid has nine columns and five rows.  Slots are numbered row by row from zero, so a slot
and its coordinate determine each other.
-/

namespace InventoryTokens

/-- Why an address does not lie in the main grid. -/
inductive GridError where
  | slotOutOfRange (index : Int)
  | coordinateOutOfRange (column row : Nat)
  deriving DecidableEq, Repr

namespace GridError

def message : GridError → String
  | .slotOutOfRange index =>
    "slot " ++ String.ofList (Text.intDigits index) ++
      " is outside the main inventory grid (expected 0..=44)"
  | .coordinateOutOfRange column row =>
    "coordinate (" ++ Text.natText column ++ ", " ++ Text.natText row ++
      ") is outside the 9x5 main inventory grid"

end GridError

abbrev gridColumns : Nat := 9

abbrev gridRows : Nat := 5

abbrev gridSize : Nat := gridColumns * gridRows

abbrev Slot := Fin gridSize

/-- A slot may be written as a numeral, with the zero that the numerals of `Fin` are about. -/
instance : @NeZero Nat Zero.ofOfNat0 gridSize := ⟨Nat.succ_ne_zero 44⟩

structure Coordinate where
  column : Fin gridColumns
  row : Fin gridRows
  deriving DecidableEq, Repr

namespace Slot

def ofIndex (index : Int) : Except GridError Slot :=
  if h : 0 ≤ index ∧ index < gridSize then .ok ⟨index.toNat, by omega⟩
  else .error (.slotOutOfRange index)

/-- Every slot in ascending order. -/
def all : List Slot := List.finRange gridSize

def coordinate (slot : Slot) : Coordinate where
  column := ⟨slot.val % gridColumns, Nat.mod_lt _ (by decide)⟩
  row := ⟨slot.val / gridColumns, by
    have := slot.isLt
    simp only [gridSize, gridColumns, gridRows] at this ⊢
    omega⟩

def text (slot : Slot) : String := Text.natText slot.val

end Slot

namespace Coordinate

def ofColumnRow (column row : Nat) : Except GridError Coordinate :=
  if h : column < gridColumns ∧ row < gridRows then .ok ⟨⟨column, h.1⟩, ⟨row, h.2⟩⟩
  else .error (.coordinateOutOfRange column row)

def slot (c : Coordinate) : Slot :=
  ⟨c.row.val * gridColumns + c.column.val, by
    have h₁ := c.row.isLt
    have h₂ := c.column.isLt
    simp only [gridSize, gridColumns, gridRows] at h₁ h₂ ⊢
    omega⟩

def encode (c : Coordinate) : Datum :=
  .record [("column", .nat c.column.val), ("row", .nat c.row.val)]

@[simp] theorem slot_coordinate (slot : Slot) : slot.coordinate.slot = slot := by
  apply Fin.ext
  simp only [Coordinate.slot, Slot.coordinate, gridColumns]
  omega

@[simp] theorem coordinate_slot (c : Coordinate) : c.slot.coordinate = c := by
  obtain ⟨column, row⟩ := c
  have h := column.isLt
  simp only [gridColumns] at h
  simp only [Slot.coordinate, Coordinate.slot, gridColumns, Coordinate.mk.injEq]
  exact ⟨Fin.ext (by simp only; omega), Fin.ext (by simp only; omega)⟩

end Coordinate

end InventoryTokens
