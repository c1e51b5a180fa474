import InventoryTokens.Proofs.Inventory
import Mathlib.Data.Fintype.Card
import Mathlib.Data.List.Induction

/-!
# Runs of changes

After any changes of an empty inventory each place holds what was put there last.  What callers are
told about a change, and how many slots are empty, follows from that.  A change that names a place
that is not there is refused and changes nothing.
-/

namespace InventoryTokens.Inventory

/-- A place for one stack. -/
inductive Place where
  | main (slot : Slot)
  | armor (index : Fin armorSize)
  | offhand
  | crafting (index : Fin craftingSize)
  deriving DecidableEq, Repr

/-- The stack at a place, if it is filled. -/
def stackAt (inventory : Inventory) : Place → Option Stack
  | .main slot => inventory.get slot
  | .armor index => inventory.armorAt index
  | .offhand => inventory.offhand
  | .crafting index => inventory.crafting.at? index

namespace Change

/-- The place that a change is about, if there is such a place. -/
def target? : Change → Option Place
  | set slot _ => some (.main slot)
  | take slot => some (.main slot)
  | setArmor index _ => if h : index < armorSize then some (.armor ⟨index, h⟩) else none
  | setOffhand _ => some .offhand
  | setCrafting index _ => if h : index < craftingSize then some (.crafting ⟨index, h⟩) else none

/-- What a change leaves at its place. -/
def content : Change → Option Stack
  | set _ stack => stack
  | take _ => none
  | setArmor _ stack => stack
  | setOffhand stack => stack
  | setCrafting _ stack => stack

end Change

/-- A change leaves its content at its place, and every other place as it is. -/
theorem stackAt_apply (inventory : Inventory) (change : Change) (place : Place) :
    (change.apply inventory).stackAt place =
      if change.target? = some place then change.content else inventory.stackAt place := by
  cases change with
  | set slot stack =>
    cases place with
    | main other =>
      rw [Change.apply, stackAt, get_set]
      simp only [Change.target?, Option.some.injEq, Place.main.injEq]
      rfl
    | _ => rfl
  | take slot =>
    cases place with
    | main other =>
      rw [Change.apply, stackAt, take, get_set]
      simp only [Change.target?, Option.some.injEq, Place.main.injEq]
      rfl
    | _ => rfl
  | setArmor index stack =>
    by_cases h : index < armorSize
    · rw [Change.apply, setArmor?_of_lt inventory h, Change.target?, dif_pos h]
      cases place with
      | armor other =>
        simp only [Option.getD_some, stackAt, armorAt, at?_set, Option.some.injEq,
          Place.armor.injEq, Fin.ext_iff]
        rfl
      | _ => rfl
    · rw [Change.apply, setArmor?_eq_none.mpr (Nat.le_of_not_lt h), Change.target?, dif_neg h]
      rfl
  | setOffhand stack => cases place <;> rfl
  | setCrafting index stack =>
    by_cases h : index < craftingSize
    · rw [Change.apply, setCrafting?_of_lt inventory h, Change.target?, dif_pos h]
      cases place with
      | crafting other =>
        simp only [Option.getD_some, stackAt, at?_set, Option.some.injEq, Place.crafting.injEq,
          Fin.ext_iff]
        rfl
      | _ => rfl
    · rw [Change.apply, setCrafting?_eq_none.mpr (Nat.le_of_not_lt h), Change.target?, dif_neg h]
      rfl

/-- The inventory after a run of changes that begins with nothing in it. -/
def run (changes : List Change) : Inventory := changes.foldl Change.apply empty

/-- What the last change of a place left there; nothing if no change was about the place. -/
def lastPut (changes : List Change) (place : Place) : Option Stack :=
  ((changes.filter fun change => change.target? = some place).getLast?).bind Change.content

theorem stackAt_empty (place : Place) : empty.stackAt place = none := by
  cases place with
  | main slot => simp [stackAt, get, empty, Shelf.empty]
  | armor index => simp [stackAt, armorAt, empty, Shelf.empty, Shelf.at?]
  | offhand => rfl
  | crafting index => simp [stackAt, empty, Shelf.empty, Shelf.at?]

theorem lastPut_append_singleton (changes : List Change) (change : Change) (place : Place) :
    lastPut (changes ++ [change]) place =
      if change.target? = some place then change.content else lastPut changes place := by
  rw [lastPut, List.filter_append]
  split
  case isTrue h => simp [h]
  case isFalse h => simp [h, lastPut]

/-- After a run each place holds what was put there last. -/
theorem stackAt_run (changes : List Change) (place : Place) :
    (run changes).stackAt place = lastPut changes place := by
  -- From the end of the run, since it is the last change of the place that counts.
  induction changes using List.reverseRecOn with
  | nil => exact stackAt_empty place
  | append_singleton changes change ih =>
    rw [run, List.foldl_append, List.foldl_cons, List.foldl_nil, stackAt_apply,
      lastPut_append_singleton, ← ih, run]

theorem get_grid (inventory : Inventory) (c : Coordinate) :
    inventory.grid.get c = inventory.get c.slot := rfl

/-- The slots that hold a stack. -/
def filledSlots (inventory : Inventory) : Finset Slot :=
  Finset.univ.filter fun slot => (inventory.get slot).isSome

theorem card_filledSlots (inventory : Inventory) :
    inventory.filledSlots.card = Slot.all.countP fun slot => (inventory.get slot).isSome := by
  rw [filledSlots, ← List.toFinset_finRange, ← List.toFinset_filter,
    List.toFinset_card_of_nodup ((List.nodup_finRange _).filter _), List.countP_eq_length_filter]
  rfl

/-- A slot is empty or filled. -/
theorem emptySlots_add_card (inventory : Inventory) :
    inventory.emptySlots + inventory.filledSlots.card = gridSize := by
  have hslots : inventory.main.toList = Slot.all.map inventory.get :=
    List.ext_getElem (by simp [Slot.all]) fun i _ _ => by simp [Slot.all, get]
  have hcount : Slot.all.length = inventory.filledSlots.card +
      Slot.all.countP fun slot => (inventory.get slot).isNone := by
    rw [card_filledSlots, List.length_eq_countP_add_countP fun slot => (inventory.get slot).isSome]
    simp only [Bool.not_eq_true, Bool.decide_eq_false, Option.not_isSome]
  have hempty : inventory.emptySlots = Slot.all.countP fun slot => (inventory.get slot).isNone := by
    rw [emptySlots, hslots, List.countP_map]
    rfl
  rw [hempty, Nat.add_comm, ← hcount, Slot.all, List.length_finRange]

/-- After any run of changes each place holds what was put there last, and a further change touches
no place but its own.  Setting and taking tell what was put into the slot last; armour and crafting
are refused exactly beyond the last place, and then nothing changes.  The empty slots are those
whose last change left no stack, and the view by coordinate shows each slot as it is. -/
theorem run_last_put (changes : List Change) :
    let inventory := run changes
    let filled := Finset.univ.filter fun slot : Slot => (lastPut changes (.main slot)).isSome
    (∀ place, inventory.stackAt place = lastPut changes place) ∧
    (∀ change place, (Change.apply inventory change).stackAt place =
      if change.target? = some place then change.content else inventory.stackAt place) ∧
    (∀ slot stack, (inventory.set slot stack).1 = lastPut changes (.main slot) ∧
      (inventory.take slot).1 = lastPut changes (.main slot)) ∧
    (∀ index stack, (inventory.setArmor? index stack = none ↔ armorSize ≤ index) ∧
      (armorSize ≤ index → Change.apply inventory (.setArmor index stack) = inventory)) ∧
    (∀ index stack, (inventory.setCrafting? index stack = none ↔ craftingSize ≤ index) ∧
      (craftingSize ≤ index → Change.apply inventory (.setCrafting index stack) = inventory)) ∧
    inventory.emptySlots = gridSize - filled.card ∧
    ∀ slot, inventory.get slot = lastPut changes (.main slot) ∧
      inventory.grid.peek slot.coordinate = inventory.get slot ∧
      inventory.grid.get slot.coordinate = inventory.get slot := by
  intro inventory filled
  have hget : ∀ slot, inventory.get slot = lastPut changes (.main slot) :=
    fun slot => stackAt_run changes (.main slot)
  refine ⟨stackAt_run changes, stackAt_apply inventory, fun slot stack => ⟨hget slot, hget slot⟩,
    fun index stack => ⟨setArmor?_eq_none, fun h => ?_⟩,
    fun index stack => ⟨setCrafting?_eq_none, fun h => ?_⟩, ?_, fun slot => ⟨hget slot, ?_⟩⟩
  · rw [Change.apply, setArmor?_eq_none.mpr h, Option.getD_none]
  · rw [Change.apply, setCrafting?_eq_none.mpr h, Option.getD_none]
  · have hfilled : inventory.filledSlots = filled := by
      simp only [filledSlots, filled, hget]
    have hall := inventory.emptySlots_add_card
    rw [hfilled] at hall
    omega
  · rw [GridView.peek_eq_get, get_grid, Coordinate.slot_coordinate]
    exact ⟨rfl, rfl⟩

/-- A stack over a stack, taking from an empty slot, and armour beyond the last place. -/
example :
    (run [.set 13 (some .air), .set 13 (some .air), .take 0, .setArmor 4 (some .air)]).emptySlots =
      44 := by decide

end InventoryTokens.Inventory
