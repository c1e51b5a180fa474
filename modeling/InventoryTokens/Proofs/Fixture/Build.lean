import InventoryTokens.Fixture
import InventoryTokens.Proofs.Decode
import InventoryTokens.Proofs.Inventory
import InventoryTokens.Proofs.Table
import Mathlib.Data.List.Pairwise
import Mathlib.Tactic.ByContra
import Mathlib.Tactic.Tauto

/-!
# Building hosts

Which entries are accepted, and what they make: an entry is accepted if it lists no slot of the main
grid twice and no armour place that is not there, and a list of entries if each is accepted and no
identifier stands twice.  Nothing is said about which error is reported first.
-/

namespace InventoryTokens

namespace Stack

/-- A stack without metadata that says nothing. -/
def plain (s : Stack) : Stack :=
  { s with metadata := s.metadata.filter fun m => !m.isEmpty }

end Stack

namespace Placed

variable {ι : Type}

theorem stack_eq (p : Placed ι) : p.stack = (Stack.mk p.item p.count p.metadata).plain := by
  cases h : p.metadata with
  | none => simp [stack, Stack.plain, h]
  | some m =>
    cases he : m.isEmpty <;> simp [stack, Stack.plain, Stack.withMeta, Option.filter, h, he]

@[simp] theorem slot_ofStack (place : ι) (s : Stack) : (ofStack place s).slot = place := rfl

@[simp] theorem stack_ofStack (place : ι) (s : Stack) : (ofStack place s).stack = s.plain :=
  stack_eq _

variable [DecidableEq ι]

/-- The listed stacks that no later one for the same place replaces. -/
def latest (listed : List (Placed ι)) : List (Placed ι) :=
  listed.pwFilter fun p q => p.slot ≠ q.slot

/-- A place is listed exactly if a latest stack is listed for it. -/
theorem forall_latest_ne {listed : List (Placed ι)} {p : Placed ι} :
    (∀ q ∈ latest listed, q.slot ≠ p.slot) ↔ ∀ q ∈ listed, q.slot ≠ p.slot := by
  simp only [ne_comm (b := p.slot), latest]
  refine List.forall_mem_pwFilter (fun {x y z} hxz => ?_) p listed
  by_contra! hno
  exact hxz (hno.1.trans hno.2)

theorem latest_cons (p : Placed ι) (rest : List (Placed ι)) :
    latest (p :: rest) = if ∀ q ∈ rest, q.slot ≠ p.slot then p :: latest rest else latest rest := by
  have hlater : (∀ q ∈ latest rest, p.slot ≠ q.slot) ↔ ∀ q ∈ rest, q.slot ≠ p.slot := by
    rw [← forall_latest_ne]
    simp only [ne_comm]
  rw [← if_congr hlater rfl rfl]
  split
  · rename_i h
    exact List.pwFilter_cons_of_pos h
  · rename_i h
    exact List.pwFilter_cons_of_neg h

/-- A listed stack is the latest exactly if no stack after it is for the same place. -/
theorem mem_latest {listed : List (Placed ι)} {p : Placed ι} :
    p ∈ latest listed ↔
      ∃ before after, listed = before ++ p :: after ∧ ∀ q ∈ after, q.slot ≠ p.slot := by
  induction listed with
  | nil => simp [latest]
  | cons head rest ih =>
    have hsplit : (∃ before after, head :: rest = before ++ p :: after ∧
          ∀ q ∈ after, q.slot ≠ p.slot) ↔
        (p = head ∧ ∀ q ∈ rest, q.slot ≠ head.slot) ∨ p ∈ latest rest := by
      rw [ih]
      constructor
      · rintro ⟨_ | ⟨b, before⟩, after, he, h⟩
        · obtain ⟨rfl, rfl⟩ := List.cons.inj he
          exact Or.inl ⟨rfl, h⟩
        · obtain ⟨rfl, rfl⟩ := List.cons.inj he
          exact Or.inr ⟨before, after, rfl, h⟩
      · rintro (⟨rfl, h⟩ | ⟨before, after, rfl, h⟩)
        · exact ⟨[], rest, rfl, h⟩
        · exact ⟨head :: before, after, rfl, h⟩
    rw [hsplit, latest_cons]
    split
    · rename_i h
      rw [List.mem_cons, and_iff_left h]
    · rename_i h
      rw [or_iff_right fun hp => h hp.2]

theorem mem_of_mem_latest {listed : List (Placed ι)} {p : Placed ι} (h : p ∈ latest listed) :
    p ∈ listed :=
  List.pwFilter_subset listed h

theorem latest_eq_self_iff {listed : List (Placed ι)} :
    latest listed = listed ↔ (listed.map slot).Nodup := by
  rw [latest, List.pwFilter_eq_self, List.Nodup, List.pairwise_map]

theorem exists_latest {listed : List (Placed ι)} {p : Placed ι} (h : p ∈ listed) :
    ∃ q ∈ latest listed, q.slot = p.slot := by
  by_contra! hno
  exact forall_latest_ne.mp hno p h rfl

theorem nodup_latest (listed : List (Placed ι)) : ((latest listed).map slot).Nodup := by
  rw [List.Nodup, List.pairwise_map]
  exact List.pairwise_pwFilter listed

end Placed

namespace Entry

/-- The inventory with listed stacks put into the main grid, one after the other. -/
def putMain (listed : List (Placed Slot)) (inventory : Inventory) : Inventory :=
  listed.foldl (fun inventory p => (inventory.set p.slot (some p.stack)).2) inventory

/-- The inventory with listed stacks put into armour places, one after the other. -/
def putArmor (listed : List (Placed UInt64)) (inventory : Inventory) : Inventory :=
  listed.foldl (fun inventory p =>
    (inventory.setArmor? p.slot.toNat (some p.stack)).getD inventory) inventory

/-- What an entry lists, put together without any check. -/
def contents (e : Entry) : Inventory :=
  let inventory := putArmor e.armor (putMain e.slots .empty)
  match e.offhand with
  | some p => inventory.setOffhand (some p.stack)
  | none => inventory

theorem putMain_cons (p : Placed Slot) (rest : List (Placed Slot)) (inventory : Inventory) :
    putMain (p :: rest) inventory = putMain rest (inventory.set p.slot (some p.stack)).2 := rfl

theorem putArmor_cons (p : Placed UInt64) (rest : List (Placed UInt64)) (inventory : Inventory) :
    putArmor (p :: rest) inventory =
      putArmor rest ((inventory.setArmor? p.slot.toNat (some p.stack)).getD inventory) := rfl

/-- A slot that is not listed stays as it is. -/
theorem get_putMain_of_not_mem {listed : List (Placed Slot)} {slot : Slot}
    (h : slot ∉ listed.map Placed.slot) (inventory : Inventory) :
    (putMain listed inventory).get slot = inventory.get slot := by
  induction listed generalizing inventory with
  | nil => rfl
  | cons p rest ih =>
    obtain ⟨hne, hrest⟩ : slot ≠ p.slot ∧ slot ∉ rest.map Placed.slot := by simpa using h
    rw [putMain_cons, ih hrest, Inventory.get_set, if_neg (Ne.symm hne)]

/-- A slot that is listed once holds what is listed for it. -/
theorem get_putMain_of_mem {listed : List (Placed Slot)} (hnodup : (listed.map Placed.slot).Nodup)
    {p : Placed Slot} (hp : p ∈ listed) (inventory : Inventory) :
    (putMain listed inventory).get p.slot = some p.stack := by
  induction listed generalizing inventory with
  | nil => simp at hp
  | cons q rest ih =>
    obtain ⟨hq, hrest⟩ := List.nodup_cons.mp hnodup
    rw [putMain_cons]
    rcases List.mem_cons.mp hp with rfl | hp
    · rw [get_putMain_of_not_mem hq, Inventory.get_set, if_pos rfl]
    · exact ih hrest hp _

/-- Listed stacks of the main grid touch nothing else. -/
theorem putMain_frame (listed : List (Placed Slot)) (inventory : Inventory) :
    (putMain listed inventory).armor = inventory.armor ∧
      (putMain listed inventory).offhand = inventory.offhand ∧
        (putMain listed inventory).crafting = inventory.crafting := by
  induction listed generalizing inventory with
  | nil => exact ⟨rfl, rfl, rfl⟩
  | cons p rest ih => exact ih _

/-- Listed stacks of armour touch nothing else. -/
theorem putArmor_frame (listed : List (Placed UInt64)) (inventory : Inventory) :
    (putArmor listed inventory).main = inventory.main ∧
      (putArmor listed inventory).offhand = inventory.offhand ∧
        (putArmor listed inventory).crafting = inventory.crafting := by
  induction listed generalizing inventory with
  | nil => exact ⟨rfl, rfl, rfl⟩
  | cons p rest ih =>
    rw [putArmor_cons]
    obtain ⟨hmain, hoffhand, hcrafting⟩ := Inventory.setArmor?_frame inventory p.slot.toNat
      (some p.stack)
    rw [← hmain, ← hoffhand, ← hcrafting]
    exact ih _

/-- An armour place that is not listed stays as it is. -/
theorem armorAt_putArmor_of_not_mem {listed : List (Placed UInt64)} {index : Nat}
    (h : ∀ p ∈ listed, p.slot.toNat ≠ index) (inventory : Inventory) :
    (putArmor listed inventory).armorAt index = inventory.armorAt index := by
  induction listed generalizing inventory with
  | nil => rfl
  | cons p rest ih =>
    rw [putArmor_cons, ih fun q hq => h q (by simp [hq]), Inventory.armorAt_setArmor?,
      if_neg (h p (by simp))]

/-- An armour place holds the last stack that is listed for it. -/
theorem armorAt_putArmor_append {before after : List (Placed UInt64)} {p : Placed UInt64}
    (hplace : p.slot.toNat < armorSize) (h : ∀ q ∈ after, q.slot.toNat ≠ p.slot.toNat)
    (inventory : Inventory) :
    (putArmor (before ++ p :: after) inventory).armorAt p.slot.toNat = some p.stack := by
  have happend : putArmor (before ++ p :: after) inventory =
      putArmor (p :: after) (putArmor before inventory) := List.foldl_append ..
  rw [happend, putArmor_cons, armorAt_putArmor_of_not_mem h, Inventory.armorAt_setArmor?,
    if_pos rfl, if_pos hplace]

theorem get_contents (e : Entry) (slot : Slot) :
    e.contents.get slot = (putMain e.slots .empty).get slot := by
  have hmain := (putArmor_frame e.armor (putMain e.slots .empty)).1
  rw [Inventory.get, Inventory.get, ← hmain, contents]
  cases e.offhand <;> rfl

theorem armorAt_contents (e : Entry) (index : Nat) :
    e.contents.armorAt index = (putArmor e.armor (putMain e.slots .empty)).armorAt index := by
  rw [contents]
  cases e.offhand <;> rfl

theorem offhand_contents (e : Entry) : e.contents.offhand = e.offhand.map Placed.stack := by
  have harmor := (putArmor_frame e.armor (putMain e.slots .empty)).2.1
  have hmain := (putMain_frame e.slots .empty).2.1
  rw [contents]
  cases e.offhand with
  | none => exact harmor.trans hmain
  | some p => rfl

theorem crafting_contents (e : Entry) : e.contents.crafting = Shelf.empty craftingSize := by
  have harmor := (putArmor_frame e.armor (putMain e.slots .empty)).2.2
  have hmain := (putMain_frame e.slots .empty).2.2
  rw [contents]
  cases e.offhand <;> exact harmor.trans hmain

/-- An entry that lists no slot twice and only armour places that are there. -/
structure Accepted (e : Entry) : Prop where
  slots : (e.slots.map Placed.slot).Nodup
  armor : ∀ p ∈ e.armor, p.slot.toNat < armorSize

/-- A slot holds what is listed for it, and nothing else. -/
theorem get_contents_eq_some {e : Entry} (h : e.Accepted) {slot : Slot} {stack : Stack} :
    e.contents.get slot = some stack ↔ ∃ p ∈ e.slots, p.slot = slot ∧ p.stack = stack := by
  rw [get_contents]
  by_cases hlisted : slot ∈ e.slots.map Placed.slot
  · obtain ⟨p, hp, rfl⟩ := List.mem_map.mp hlisted
    rw [get_putMain_of_mem h.slots hp, Option.some.injEq]
    constructor
    · rintro rfl
      exact ⟨p, hp, rfl, rfl⟩
    · rintro ⟨q, hq, hslot, rfl⟩
      rw [List.inj_on_of_nodup_map h.slots hq hp hslot]
  · rw [get_putMain_of_not_mem hlisted]
    refine iff_of_false (by simp [Inventory.get, Inventory.empty, Shelf.empty]) ?_
    rintro ⟨p, hp, rfl, -⟩
    exact hlisted (List.mem_map_of_mem hp)

/-- An armour place holds the last stack that is listed for it, and nothing else. -/
theorem armorAt_contents_eq_some {e : Entry} (h : e.Accepted) {index : Nat} {stack : Stack} :
    e.contents.armorAt index = some stack ↔
      ∃ p ∈ Placed.latest e.armor, p.slot.toNat = index ∧ p.stack = stack := by
  rw [armorAt_contents]
  by_cases hlisted : ∃ p ∈ Placed.latest e.armor, p.slot.toNat = index
  · obtain ⟨p, hp, rfl⟩ := hlisted
    obtain ⟨before, after, harmor, hafter⟩ := Placed.mem_latest.mp hp
    have hplace := h.armor p (Placed.mem_of_mem_latest hp)
    have hlast : ∀ q ∈ after, q.slot.toNat ≠ p.slot.toNat := fun q hq he =>
      hafter q hq (UInt64.toNat_inj.mp he)
    rw [show (putArmor e.armor _).armorAt _ = some p.stack by
      rw [harmor]
      exact armorAt_putArmor_append hplace hlast _]
    rw [Option.some.injEq]
    constructor
    · rintro rfl
      exact ⟨p, hp, rfl, rfl⟩
    · rintro ⟨q, hq, hslot, rfl⟩
      rw [List.inj_on_of_nodup_map (Placed.nodup_latest _) hq hp (UInt64.toNat_inj.mp hslot)]
  · have hnot : ∀ p ∈ e.armor, p.slot.toNat ≠ index := by
      rintro p hp rfl
      obtain ⟨q, hq, hslot⟩ := Placed.exists_latest hp
      exact hlisted ⟨q, hq, congrArg _ hslot⟩
    rw [armorAt_putArmor_of_not_mem hnot, Inventory.armorAt, (putMain_frame ..).1]
    have hempty : Inventory.empty.armor = Shelf.empty armorSize := rfl
    refine iff_of_false (by simp [hempty, Shelf.at?, Shelf.empty]) ?_
    rintro ⟨p, hp, hslot, -⟩
    exact hlisted ⟨p, hp, hslot⟩

theorem buildMain_eq_ok {name : String} {seen : List Slot} {listed : List (Placed Slot)}
    {inventory built : Inventory} :
    buildMain name seen listed inventory = .ok built ↔
      (∀ p ∈ listed, p.slot ∉ seen) ∧ (listed.map Placed.slot).Nodup ∧
        putMain listed inventory = built := by
  induction listed generalizing seen inventory with
  | nil => simp [buildMain, putMain]
  | cons p rest ih =>
    rw [buildMain]
    split
    · rename_i hseen
      simp only [reduceCtorEq, false_iff]
      rintro ⟨hall, -⟩
      exact hall p (by simp) (List.contains_iff_mem.mp hseen)
    · rename_i hseen
      have hp : p.slot ∉ seen := fun hm => hseen (List.contains_iff_mem.mpr hm)
      have hfresh : (∀ q ∈ rest, q.slot ∉ p.slot :: seen) ↔
          (∀ q ∈ p :: rest, q.slot ∉ seen) ∧ p.slot ∉ rest.map Placed.slot := by
        simp only [List.mem_cons, not_or, List.mem_map, not_exists, not_and, forall_eq_or_imp]
        constructor
        · exact fun h => ⟨⟨hp, fun q hq => (h q hq).2⟩, fun q hq => (h q hq).1⟩
        · exact fun h q hq => ⟨h.2 q hq, h.1.2 q hq⟩
      rw [ih, hfresh, List.map_cons, List.nodup_cons, and_assoc, and_assoc]
      rfl

theorem buildArmor_eq_ok {name : String} {listed : List (Placed UInt64)}
    {inventory built : Inventory} :
    buildArmor name listed inventory = .ok built ↔
      (∀ p ∈ listed, p.slot.toNat < armorSize) ∧ putArmor listed inventory = built := by
  induction listed generalizing inventory with
  | nil => simp [buildArmor, putArmor]
  | cons p rest ih =>
    rw [buildArmor, putArmor, List.foldl_cons]
    by_cases hp : p.slot.toNat < armorSize
    · have hset := inventory.setArmor?_of_lt hp (some p.stack)
      simp only [hset, ih, putArmor, Option.getD_some, List.forall_mem_cons, hp, true_and]
    · have hset : inventory.setArmor? p.slot.toNat (some p.stack) = none :=
        Inventory.setArmor?_eq_none.mpr (Nat.le_of_not_lt hp)
      simp [hset, hp]

/-- An entry is built exactly if it is accepted, and then into what it lists. -/
theorem build_eq_ok {e : Entry} {inventory : Inventory} :
    e.build = .ok inventory ↔ e.Accepted ∧ e.contents = inventory := by
  simp only [build, except_bind_eq_ok, buildMain_eq_ok, buildArmor_eq_ok]
  constructor
  · rintro ⟨main, ⟨-, hnodup, rfl⟩, built, ⟨harmor, rfl⟩, he⟩
    exact ⟨⟨hnodup, harmor⟩, Except.ok.inj he⟩
  · rintro ⟨⟨hnodup, harmor⟩, rfl⟩
    exact ⟨_, ⟨by simp, hnodup, rfl⟩, _, ⟨harmor, rfl⟩, rfl⟩

end Entry

namespace Fixture

/-- The host with the player of an entry in it. -/
def add (host : Host) (e : Entry) : Host :=
  (host.insert e.player e.contents).2

theorem find?_add (host : Host) (e : Entry) (id : UInt64) :
    (add host e).residents.find? id =
      if id = e.id then some ⟨e.player, e.contents⟩ else host.residents.find? id :=
  Host.find?_put ..

theorem buildOnto_cons_eq_ok {e : Entry} {rest : List Entry} {host built : Host} :
    buildOnto (e :: rest) host = .ok built ↔
      e.Accepted ∧ host.residents.find? e.id = none ∧ buildOnto rest (add host e) = .ok built := by
  rw [buildOnto, except_bind_eq_ok]
  simp only [Entry.build_eq_ok, Host.insert, Host.inventory?, Entry.player]
  cases hfind : host.residents.find? e.id with
  | some r =>
    simp only [Option.map_some, reduceCtorEq, false_and, and_false, exists_false]
  | none =>
    simp only [Option.map_none, true_and]
    constructor
    · rintro ⟨inventory, ⟨haccepted, rfl⟩, h⟩
      exact ⟨haccepted, h⟩
    · rintro ⟨haccepted, h⟩
      exact ⟨_, ⟨haccepted, rfl⟩, h⟩

/-- Entries are built onto a host exactly if each is accepted and every identifier is new. -/
theorem buildOnto_eq_ok {entries : List Entry} {host built : Host} :
    buildOnto entries host = .ok built ↔
      (∀ e ∈ entries, e.Accepted) ∧ (entries.map Entry.id).Nodup ∧
        (∀ e ∈ entries, host.residents.find? e.id = none) ∧ entries.foldl add host = built := by
  induction entries generalizing host with
  | nil => simp [buildOnto]
  | cons e rest ih =>
    have hnew : (∀ q ∈ rest, (add host e).residents.find? q.id = none) ↔
        e.id ∉ rest.map Entry.id ∧ ∀ q ∈ rest, host.residents.find? q.id = none := by
      simp only [find?_add, List.mem_map, not_exists, not_and]
      constructor
      · intro h
        refine ⟨fun q hq he => ?_, fun q hq => ?_⟩
        · simpa [he] using h q hq
        · have hq' := h q hq
          split at hq'
          · simp at hq'
          · exact hq'
      · rintro ⟨hne, hnone⟩ q hq
        rw [if_neg (hne q hq), hnone q hq]
    rw [buildOnto_cons_eq_ok, ih, hnew, List.map_cons, List.nodup_cons, List.foldl_cons]
    simp only [List.forall_mem_cons]
    tauto

/-- A fixture is built exactly if each entry is accepted and no identifier stands twice. -/
theorem build_eq_ok {f : Fixture} {built : Host} :
    f.build = .ok built ↔
      (∀ e ∈ f.players, e.Accepted) ∧ (f.players.map Entry.id).Nodup ∧
        f.players.foldl add .empty = built := by
  rw [build, buildOnto_eq_ok]
  simp [Host.empty]

theorem find?_foldl_add_of_not_mem {entries : List Entry} {id : UInt64}
    (h : id ∉ entries.map Entry.id) (host : Host) :
    (entries.foldl add host).residents.find? id = host.residents.find? id := by
  induction entries generalizing host with
  | nil => rfl
  | cons e rest ih =>
    obtain ⟨hne, hrest⟩ : id ≠ e.id ∧ id ∉ rest.map Entry.id := by simpa using h
    rw [List.foldl_cons, ih hrest, find?_add, if_neg hne]

theorem find?_foldl_add_of_mem {entries : List Entry} (hnodup : (entries.map Entry.id).Nodup)
    {e : Entry} (he : e ∈ entries) (host : Host) :
    (entries.foldl add host).residents.find? e.id = some ⟨e.player, e.contents⟩ := by
  induction entries generalizing host with
  | nil => simp at he
  | cons q rest ih =>
    obtain ⟨hq, hrest⟩ := List.nodup_cons.mp hnodup
    rw [List.foldl_cons]
    rcases List.mem_cons.mp he with rfl | he
    · rw [find?_foldl_add_of_not_mem hq, find?_add, if_pos rfl]
    · exact ih hrest he _

/-- A host that was built knows the listed players, each with what is listed for it. -/
theorem find?_of_build {f : Fixture} {host : Host} (h : f.build = .ok host) {id : UInt64}
    {resident : Resident} :
    host.residents.find? id = some resident ↔
      ∃ e ∈ f.players, e.id = id ∧ resident = ⟨e.player, e.contents⟩ := by
  obtain ⟨-, hnodup, rfl⟩ := build_eq_ok.mp h
  by_cases hlisted : id ∈ f.players.map Entry.id
  · obtain ⟨e, he, rfl⟩ := List.mem_map.mp hlisted
    rw [find?_foldl_add_of_mem hnodup he, Option.some.injEq, eq_comm]
    constructor
    · exact fun hr => ⟨e, he, rfl, hr⟩
    · rintro ⟨d, hd, hid, rfl⟩
      rw [List.inj_on_of_nodup_map hnodup hd he hid]
  · rw [find?_foldl_add_of_not_mem hlisted]
    refine iff_of_false (by simp [Host.empty]) ?_
    rintro ⟨e, he, rfl, -⟩
    exact hlisted (List.mem_map_of_mem he)

theorem inventory?_of_build {f : Fixture} {host : Host} (h : f.build = .ok host) {e : Entry}
    (he : e ∈ f.players) : host.inventory? e.id = some e.contents := by
  rw [Host.inventory?, (find?_of_build h).mpr ⟨e, he, rfl, rfl⟩]
  rfl

end Fixture

end InventoryTokens
