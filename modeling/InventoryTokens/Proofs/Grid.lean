import InventoryTokens.Grid
import InventoryTokens.Proofs.Json.Values
import InventoryTokens.Proofs.Text.Cutting

/-!
# Slots, their indices and coordinates

The index of a slot fits in a signed word and leads back to the slot, and no other integer does.  A
coordinate is told by the text that it is written as.
-/

namespace InventoryTokens

namespace Slot

theorem int64?_val (slot : Slot) : Text.int64? slot.val = some (Int64.ofInt slot.val) := by
  have hslot : slot.val < 45 := slot.isLt
  rw [Text.int64?, if_pos (by constructor <;> omega)]

theorem toInt_ofInt_val (slot : Slot) : (Int64.ofInt (slot.val : Int)).toInt = slot.val :=
  Text.int64?_eq_some.mp slot.int64?_val

theorem ofIndex_eq_ok {index : Int} {slot : Slot} :
    ofIndex index = .ok slot ↔ index = slot.val := by
  have hslot := slot.isLt
  unfold ofIndex
  split
  · rename_i h
    rw [Except.ok.injEq, Fin.ext_iff]
    exact ⟨fun he => by simp only at he; omega, fun he => by simp only; omega⟩
  · rename_i h
    simp only [reduceCtorEq, false_iff]
    rintro rfl
    exact h ⟨Int.natCast_nonneg _, by omega⟩

theorem ofIndex_val (slot : Slot) : ofIndex (slot.val : Int) = .ok slot := ofIndex_eq_ok.mpr rfl

end Slot

namespace Coordinate

theorem readsBack_encode (c : Coordinate) : Json.ReadsBack c.encode := by
  have hcolumn : c.column.val < 9 := c.column.isLt
  have hrow : c.row.val < 5 := c.row.isLt
  refine Json.readsBack_record fun member hmember => ?_
  obtain rfl | rfl := List.mem_pair.mp hmember
  · exact Json.readsBack_whole ⟨by omega, by omega⟩
  · exact Json.readsBack_whole ⟨by omega, by omega⟩

theorem encode_injective : Function.Injective encode := by
  intro c d h
  obtain ⟨column, row⟩ := c
  obtain ⟨column', row'⟩ := d
  simpa [encode, Datum.nat, Int.ofNat_inj, Fin.ext_iff] using h

/-- Two coordinates are written alike only if they are one. -/
theorem write_encode_inj {c d : Coordinate} :
    Json.write c.encode = Json.write d.encode ↔ c = d := by
  constructor
  · intro h
    have hread := Json.read?_write c.readsBack_encode
    rw [h, Json.read?_write d.readsBack_encode] at hread
    exact (encode_injective (Option.some.inj hread)).symm
  · intro h
    rw [h]

end Coordinate

end InventoryTokens
