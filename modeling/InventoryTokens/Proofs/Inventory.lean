import InventoryTokens.Inventory

/-!
# Changes of an inventory

Every change that a host may make to what a player carries, and what each does to the main grid: a
change of another slot, or of another section, leaves a slot as it is.  A change that names a place
that is not there changes nothing.
-/

namespace InventoryTokens.Inventory

/-- One change of what a player carries. -/
inductive Change where
  | set (slot : Slot) (stack : Option Stack)
  | take (slot : Slot)
  | setArmor (index : Nat) (stack : Option Stack)
  | setOffhand (stack : Option Stack)
  | setCrafting (index : Nat) (stack : Option Stack)
  deriving DecidableEq, Repr

namespace Change

/-- The inventory after a change. -/
def apply (inventory : Inventory) : Change → Inventory
  | set slot stack => (inventory.set slot stack).2
  | take slot => (inventory.take slot).2
  | setArmor index stack => (inventory.setArmor? index stack).getD inventory
  | setOffhand stack => inventory.setOffhand stack
  | setCrafting index stack => (inventory.setCrafting? index stack).getD inventory

/-- What a change puts into a slot of the main grid, if it writes there at all. -/
def written? (slot : Slot) : Change → Option (Option Stack)
  | set s stack => if s = slot then some stack else none
  | take s => if s = slot then some none else none
  | _ => none

end Change

theorem get_set (inventory : Inventory) (slot other : Slot) (stack : Option Stack) :
    (inventory.set slot stack).2.get other =
      if slot = other then stack else inventory.get other := by
  simp only [get, set, Fin.getElem_fin, Vector.getElem_set, Fin.ext_iff]

/-- A change of armour, which may name a place that is not there, touches nothing else. -/
theorem setArmor?_frame (inventory : Inventory) (index : Nat) (stack : Option Stack) :
    ((inventory.setArmor? index stack).getD inventory).main = inventory.main ∧
      ((inventory.setArmor? index stack).getD inventory).offhand = inventory.offhand ∧
        ((inventory.setArmor? index stack).getD inventory).crafting = inventory.crafting := by
  unfold setArmor?
  cases inventory.armor.put? index stack <;> exact ⟨rfl, rfl, rfl⟩

/-- A change of crafting, which may name a place that is not there, touches nothing else. -/
theorem setCrafting?_frame (inventory : Inventory) (index : Nat) (stack : Option Stack) :
    ((inventory.setCrafting? index stack).getD inventory).main = inventory.main ∧
      ((inventory.setCrafting? index stack).getD inventory).armor = inventory.armor ∧
        ((inventory.setCrafting? index stack).getD inventory).offhand = inventory.offhand := by
  unfold setCrafting?
  cases inventory.crafting.put? index stack <;> exact ⟨rfl, rfl, rfl⟩

theorem put?_of_lt {n : Nat} (shelf : Shelf n) {index : Nat} (h : index < n)
    (stack : Option Stack) : shelf.put? index stack = some (shelf.set index stack h) := dif_pos h

theorem put?_eq_none {n : Nat} {shelf : Shelf n} {index : Nat} {stack : Option Stack} :
    shelf.put? index stack = none ↔ n ≤ index := by
  rw [Shelf.put?]
  split <;> simp <;> omega

theorem at?_set {n : Nat} (shelf : Shelf n) {index : Nat} (h : index < n) (other : Nat)
    (stack : Option Stack) : Shelf.at? (shelf.set index stack h) other =
      if index = other then stack else shelf.at? other := by
  unfold Shelf.at?
  by_cases hother : other < n
  · simp only [dif_pos hother, Vector.getElem_set]
  · have hne : index ≠ other := fun he => hother (he ▸ h)
    simp only [dif_neg hother, if_neg hne]

theorem at?_put? {n : Nat} (shelf : Shelf n) (index other : Nat) (stack : Option Stack) :
    ((shelf.put? index stack).getD shelf).at? other =
      if index = other then (if index < n then stack else none) else shelf.at? other := by
  by_cases hindex : index < n
  · rw [put?_of_lt shelf hindex, Option.getD_some, at?_set, if_pos hindex]
  · rw [put?_eq_none.mpr (Nat.le_of_not_lt hindex), Option.getD_none, if_neg hindex]
    by_cases he : index = other
    · rw [if_pos he, Shelf.at?, dif_neg (he ▸ hindex)]
    · rw [if_neg he]

theorem setArmor?_of_lt (inventory : Inventory) {index : Nat} (h : index < armorSize)
    (stack : Option Stack) : inventory.setArmor? index stack =
      some { inventory with armor := inventory.armor.set index stack h } := by
  rw [setArmor?, put?_of_lt _ h, Option.map_some]

theorem setArmor?_eq_none {inventory : Inventory} {index : Nat} {stack : Option Stack} :
    inventory.setArmor? index stack = none ↔ armorSize ≤ index := by
  rw [setArmor?, Option.map_eq_none_iff, put?_eq_none]

theorem setCrafting?_of_lt (inventory : Inventory) {index : Nat} (h : index < craftingSize)
    (stack : Option Stack) : inventory.setCrafting? index stack =
      some { inventory with crafting := inventory.crafting.set index stack h } := by
  rw [setCrafting?, put?_of_lt _ h, Option.map_some]

theorem setCrafting?_eq_none {inventory : Inventory} {index : Nat} {stack : Option Stack} :
    inventory.setCrafting? index stack = none ↔ craftingSize ≤ index := by
  rw [setCrafting?, Option.map_eq_none_iff, put?_eq_none]

theorem armorAt_setArmor? (inventory : Inventory) (index other : Nat) (stack : Option Stack) :
    ((inventory.setArmor? index stack).getD inventory).armorAt other =
      if index = other then (if index < armorSize then stack else none)
      else inventory.armorAt other := by
  have harmor : ((inventory.setArmor? index stack).getD inventory).armor =
      (inventory.armor.put? index stack).getD inventory.armor := by
    unfold setArmor?
    cases inventory.armor.put? index stack <;> rfl
  rw [armorAt, harmor, at?_put?]
  rfl

theorem get_apply (inventory : Inventory) (change : Change) (slot : Slot) :
    (change.apply inventory).get slot = (change.written? slot).getD (inventory.get slot) := by
  cases change with
  | set s stack =>
    rw [Change.apply, Change.written?, get_set]
    split <;> rfl
  | take s =>
    rw [Change.apply, Change.written?, take, get_set]
    split <;> rfl
  | setArmor index stack => rw [get, Change.apply, (setArmor?_frame ..).1]; rfl
  | setOffhand stack => rfl
  | setCrafting index stack => rw [get, Change.apply, (setCrafting?_frame ..).1]; rfl

end InventoryTokens.Inventory
