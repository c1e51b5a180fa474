import InventoryTokens.Proofs.Fixture.Build
import Mathlib.Data.List.Nodup

/-!
# Capturing hosts

A captured host builds again.  What is lost on the way is said exactly: stacks in crafting places,
and metadata that says nothing.  This holds of every host, however it came about.
-/

namespace InventoryTokens

namespace Stack

theorem plain_eq_self_iff (s : Stack) :
    s.plain = s ↔ s.metadata.all (fun m => !m.isEmpty) = true := by
  obtain ⟨item, count, metadata⟩ := s
  cases metadata with
  | none => simp [plain]
  | some m => cases h : m.isEmpty <;> simp [plain, Option.filter, h]

end Stack

namespace Inventory

/-- An inventory without crafting and without metadata that says nothing. -/
def plain (inventory : Inventory) : Inventory where
  main := inventory.main.map (Option.map Stack.plain)
  armor := inventory.armor.map (Option.map Stack.plain)
  offhand := inventory.offhand.map Stack.plain
  crafting := Shelf.empty craftingSize

/-- A stack that a player wears, holds or keeps in the main grid. -/
def Bears (inventory : Inventory) (stack : Stack) : Prop :=
  (∃ slot, inventory.get slot = some stack) ∨ (∃ index, inventory.armorAt index = some stack) ∨
    inventory.offhand = some stack

theorem get_plain (inventory : Inventory) (slot : Slot) :
    inventory.plain.get slot = (inventory.get slot).map Stack.plain := by
  simp [get, plain]

theorem armorAt_plain (inventory : Inventory) (index : Nat) :
    inventory.plain.armorAt index = (inventory.armorAt index).map Stack.plain := by
  simp only [armorAt, Shelf.at?, plain]
  split
  · simp
  · rfl

theorem lt_of_armorAt {inventory : Inventory} {index : Nat} {stack : Stack}
    (h : inventory.armorAt index = some stack) : index < armorSize := by
  by_contra hge
  rw [armorAt, Shelf.at?, dif_neg hge] at h
  simp at h

/-- Inventories that hold the same at every place are equal. -/
theorem ext_places {a b : Inventory} (hmain : ∀ slot, a.get slot = b.get slot)
    (harmor : ∀ index, a.armorAt index = b.armorAt index) (hoffhand : a.offhand = b.offhand)
    (hcrafting : a.crafting = b.crafting) : a = b := by
  have hm : a.main = b.main := Vector.ext fun i hi => hmain ⟨i, hi⟩
  have ha : a.armor = b.armor := by
    refine Vector.ext fun i hi => ?_
    simpa [armorAt, Shelf.at?, hi] using harmor i
  cases a
  cases b
  simp_all

theorem plain_eq_self_iff (inventory : Inventory) :
    inventory.plain = inventory ↔ inventory.crafting = Shelf.empty craftingSize ∧
      ∀ stack, inventory.Bears stack → stack.metadata.all (fun m => !m.isEmpty) = true := by
  constructor
  · intro h
    refine ⟨by rw [← h]; rfl, fun stack hbears => ?_⟩
    rw [← Stack.plain_eq_self_iff]
    rcases hbears with ⟨slot, hs⟩ | ⟨index, hs⟩ | hs
    · have hplain := get_plain inventory slot
      rw [h, hs] at hplain
      exact (Option.some.inj hplain).symm
    · have hplain := armorAt_plain inventory index
      rw [h, hs] at hplain
      exact (Option.some.inj hplain).symm
    · have hplain : inventory.plain.offhand = inventory.offhand.map Stack.plain := rfl
      rw [h, hs] at hplain
      exact (Option.some.inj hplain).symm
  · rintro ⟨hcrafting, hbears⟩
    have hkeep : ∀ place : Option Stack, (∀ stack, place = some stack → inventory.Bears stack) →
        place.map Stack.plain = place := by
      intro place hplace
      cases place with
      | none => rfl
      | some stack =>
        have hstack := (Stack.plain_eq_self_iff stack).mpr (hbears stack (hplace stack rfl))
        rw [Option.map_some, hstack]
    refine ext_places (fun slot => ?_) (fun index => ?_) ?_ hcrafting.symm
    · rw [get_plain]
      exact hkeep _ fun stack hs => Or.inl ⟨slot, hs⟩
    · rw [armorAt_plain]
      exact hkeep _ fun stack hs => Or.inr (Or.inl ⟨index, hs⟩)
    · exact hkeep _ fun stack hs => Or.inr (Or.inr hs)

end Inventory

namespace Placed

theorem map_slot_filterMap {ι κ : Type} (place : ι → κ) (content : ι → Option Stack)
    (places : List ι) :
    (places.filterMap fun i => (content i).map (ofStack (place i))).map slot =
      (places.filter fun i => (content i).isSome).map place := by
  induction places with
  | nil => rfl
  | cons i places ih =>
    cases h : content i with
    | none => simp [h, ih]
    | some s => simp [h, ih, ofStack]

end Placed

namespace Entry

theorem toNat_ofNat_armor {index : Nat} (h : index < armorSize) :
    (UInt64.ofNat index).toNat = index :=
  UInt64.toNat_ofNat_of_lt' (Nat.lt_trans h (by decide))

theorem ascending_slots_capture (player : Player) (inventory : Inventory) :
    (capture player inventory).slots.Pairwise fun p q => p.slot < q.slot := by
  rw [← List.pairwise_map (f := Placed.slot), capture,
    Placed.map_slot_filterMap (fun slot => slot), List.map_id']
  exact (List.pairwise_lt_finRange _).filter _

theorem ascending_armor_capture (player : Player) (inventory : Inventory) :
    (capture player inventory).armor.Pairwise fun p q => p.slot < q.slot := by
  rw [← List.pairwise_map (f := Placed.slot), capture, Placed.map_slot_filterMap UInt64.ofNat,
    List.pairwise_map]
  refine (List.pairwise_lt_range.filter _).imp_of_mem fun {i j} hi hj hlt => ?_
  have hlti : i < armorSize := List.mem_range.mp (List.mem_of_mem_filter hi)
  have hltj : j < armorSize := List.mem_range.mp (List.mem_of_mem_filter hj)
  rw [UInt64.lt_iff_toNat_lt, toNat_ofNat_armor hlti, toNat_ofNat_armor hltj]
  exact hlt

theorem mem_slots_capture {player : Player} {inventory : Inventory} {p : Placed Slot} :
    p ∈ (capture player inventory).slots ↔
      ∃ slot stack, inventory.get slot = some stack ∧ Placed.ofStack slot stack = p := by
  simp [capture, Slot.all]

theorem mem_armor_capture {player : Player} {inventory : Inventory} {p : Placed UInt64} :
    p ∈ (capture player inventory).armor ↔ ∃ index < armorSize, ∃ stack,
      inventory.armorAt index = some stack ∧ Placed.ofStack (UInt64.ofNat index) stack = p := by
  simp [capture]

theorem accepted_capture (player : Player) (inventory : Inventory) :
    (capture player inventory).Accepted := by
  refine ⟨Table.nodup_of_ascending (ascending_slots_capture player inventory), fun p hp => ?_⟩
  obtain ⟨index, hindex, stack, -, rfl⟩ := mem_armor_capture.mp hp
  exact Nat.lt_of_le_of_lt (Nat.le_of_eq (toNat_ofNat_armor hindex)) hindex

theorem get_contents_capture (player : Player) (inventory : Inventory) (slot : Slot) :
    (capture player inventory).contents.get slot = (inventory.get slot).map Stack.plain := by
  refine Option.ext fun stack => ?_
  rw [get_contents_eq_some (accepted_capture player inventory), Option.map_eq_some_iff]
  simp only [mem_slots_capture]
  constructor
  · rintro ⟨_, ⟨_, found, hfound, rfl⟩, rfl, rfl⟩
    exact ⟨found, hfound, (Placed.stack_ofStack ..).symm⟩
  · rintro ⟨found, hfound, rfl⟩
    exact ⟨_, ⟨slot, found, hfound, rfl⟩, rfl, Placed.stack_ofStack ..⟩

theorem armorAt_contents_capture (player : Player) (inventory : Inventory) (index : Nat) :
    (capture player inventory).contents.armorAt index =
      (inventory.armorAt index).map Stack.plain := by
  have hlatest :
      Placed.latest (capture player inventory).armor = (capture player inventory).armor :=
    Placed.latest_eq_self_iff.mpr
      (Table.nodup_of_ascending (ascending_armor_capture player inventory))
  refine Option.ext fun stack => ?_
  rw [armorAt_contents_eq_some (accepted_capture player inventory), hlatest,
    Option.map_eq_some_iff]
  simp only [mem_armor_capture]
  constructor
  · rintro ⟨_, ⟨place, hplace, found, hfound, rfl⟩, rfl, rfl⟩
    rw [Placed.slot_ofStack, toNat_ofNat_armor hplace]
    exact ⟨found, hfound, (Placed.stack_ofStack ..).symm⟩
  · rintro ⟨found, hfound, rfl⟩
    have hindex := Inventory.lt_of_armorAt hfound
    exact ⟨_, ⟨index, hindex, found, hfound, rfl⟩, toNat_ofNat_armor hindex,
      Placed.stack_ofStack ..⟩

/-- What the entry of a player lists is what the player carries, less what is lost. -/
theorem contents_capture (player : Player) (inventory : Inventory) :
    (capture player inventory).contents = inventory.plain := by
  refine Inventory.ext_places (fun slot => ?_) (fun index => ?_) ?_ (crafting_contents _)
  · rw [get_contents_capture, Inventory.get_plain]
  · rw [armorAt_contents_capture, Inventory.armorAt_plain]
  · rw [offhand_contents]
    cases h : inventory.offhand with
    | none => simp [capture, Inventory.plain, h]
    | some stack => simp [capture, Inventory.plain, h]

end Entry

namespace Host

/-- Hosts in which every look-up finds the same are equal. -/
theorem ext_find? {a b : Host} (h : ∀ id, a.residents.find? id = b.residents.find? id) :
    a = b := by
  have hresidents := Table.ext_find? h
  cases a
  cases b
  simpa using hresidents

/-- A host whose players carry no crafting and no metadata that says nothing. -/
def plain (host : Host) : Host where
  residents := host.residents.mapValues fun _ resident =>
    { resident with inventory := resident.inventory.plain }
  keyed := by
    intro id other h
    rw [Table.find?_mapValues] at h
    obtain ⟨resident, hfind, rfl⟩ := Option.map_eq_some_iff.mp h
    exact host.keyed id resident hfind

theorem find?_plain (host : Host) (id : UInt64) :
    host.plain.residents.find? id = (host.residents.find? id).map fun resident =>
      { resident with inventory := resident.inventory.plain } :=
  Table.find?_mapValues ..

theorem players_plain (host : Host) : host.plain.players = host.players := by
  simp [players, plain, Table.mapValues, Function.comp_def]

theorem inventory?_plain (host : Host) (id : UInt64) :
    host.plain.inventory? id = (host.inventory? id).map Inventory.plain := by
  rw [inventory?, inventory?, find?_plain, Option.map_map, Option.map_map]
  rfl

/-- A host loses nothing exactly if none of its players does. -/
theorem plain_eq_self_iff (host : Host) :
    host.plain = host ↔
      ∀ id inventory, host.inventory? id = some inventory → inventory.plain = inventory := by
  constructor
  · intro h id inventory hfind
    have hplain := inventory?_plain host id
    rw [h, hfind] at hplain
    exact (Option.some.inj hplain).symm
  · intro h
    refine ext_find? fun id => ?_
    rw [find?_plain]
    cases hfind : host.residents.find? id with
    | none => rfl
    | some resident =>
      have hinventory : host.inventory? id = some resident.inventory := by
        rw [inventory?, hfind]
        rfl
      rw [Option.map_some, h id resident.inventory hinventory]

end Host

namespace Fixture

/-- No player is left out, because each is found under the player's own identifier. -/
theorem players_capture (host : Host) :
    (capture host).players =
      host.residents.entries.map fun entry =>
        Entry.capture entry.2.toPlayer entry.2.inventory := by
  have hfound : ∀ entry ∈ host.residents.entries,
      (host.inventory? entry.2.id).map (Entry.capture entry.2.toPlayer) =
        some (Entry.capture entry.2.toPlayer entry.2.inventory) := by
    rintro ⟨id, resident⟩ hentry
    have hfind := Table.mem_entries_iff.mp hentry
    rw [Host.inventory?, host.keyed id resident hfind, hfind]
    rfl
  rw [capture, Host.players, List.filterMap_map]
  exact (List.filterMap_congr hfound).trans (congrFun List.filterMap_eq_map' _)

theorem ids_capture (host : Host) :
    (capture host).players.map Entry.id = host.residents.keys := by
  rw [players_capture, List.map_map, Table.keys]
  refine List.map_congr_left ?_
  rintro ⟨id, resident⟩ hentry
  exact host.keyed id resident (Table.mem_entries_iff.mp hentry)

theorem mem_capture {host : Host} {c : Entry} :
    c ∈ (capture host).players ↔ ∃ id resident, host.residents.find? id = some resident ∧
      Entry.capture resident.toPlayer resident.inventory = c := by
  rw [players_capture, List.mem_map]
  simp only [Prod.exists, Table.mem_entries_iff]

theorem build_capture (host : Host) : (capture host).build = .ok host.plain := by
  have hnodup : ((capture host).players.map Entry.id).Nodup := by
    rw [ids_capture]
    exact host.residents.keys_nodup
  have haccepted : ∀ e ∈ (capture host).players, e.Accepted := by
    intro e he
    obtain ⟨id, resident, -, rfl⟩ := mem_capture.mp he
    exact Entry.accepted_capture resident.toPlayer resident.inventory
  have hbuild := build_eq_ok.mpr ⟨haccepted, hnodup, rfl⟩
  rw [hbuild]
  refine congrArg Except.ok (Host.ext_find? fun id => Option.ext fun resident => ?_)
  rw [find?_of_build hbuild, Host.find?_plain, Option.map_eq_some_iff]
  simp only [mem_capture]
  constructor
  · rintro ⟨_, ⟨other, found, hfound, rfl⟩, rfl, rfl⟩
    have hid : found.id = other := host.keyed other found hfound
    refine ⟨found, by rwa [← hid] at hfound, ?_⟩
    rw [Entry.contents_capture]
    rfl
  · rintro ⟨found, hfound, rfl⟩
    have hid : found.id = id := host.keyed id found hfound
    refine ⟨_, ⟨id, found, hfound, rfl⟩, hid, ?_⟩
    rw [Entry.contents_capture]
    rfl

/-- A captured host builds again, with the same players.  Each carries the same stacks, less its
crafting and metadata that says nothing, so nothing changes exactly if there was none of either. -/
theorem build_capture_keeps (host : Host) :
    ∃ rebuilt, (capture host).build = .ok rebuilt ∧
      rebuilt.players = host.players ∧
      (∀ id, rebuilt.inventory? id = (host.inventory? id).map Inventory.plain) ∧
      (rebuilt = host ↔ ∀ id inventory, host.inventory? id = some inventory →
        inventory.crafting = Shelf.empty craftingSize ∧
          ∀ stack, inventory.Bears stack → stack.metadata.all (fun m => !m.isEmpty) = true) := by
  refine ⟨host.plain, build_capture host, host.players_plain, host.inventory?_plain, ?_⟩
  rw [host.plain_eq_self_iff]
  simp only [Inventory.plain_eq_self_iff]

end Fixture

end InventoryTokens
