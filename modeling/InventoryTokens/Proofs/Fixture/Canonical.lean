import InventoryTokens.Proofs.Fixture.Capture

/-!
# Fixtures in order

Each fixture has a canonical form, in which everything stands once and in ascending order.  What is
captured of a host that a fixture built is the canonical form of that fixture, so a host says no
more and no less than the form.  Of several stacks for one armour place the form keeps the last, and
it forgets the place that the off hand was listed with.
-/

namespace InventoryTokens

section Order

variable {α κ : Type} [LE κ] [DecidableLE κ] {key : α → κ}

/-- The list in ascending order of keys. -/
def sortBy (key : α → κ) (l : List α) : List α :=
  l.insertionSort fun x y => key x ≤ key y

theorem mem_sortBy {l : List α} {x : α} : x ∈ sortBy key l ↔ x ∈ l := List.mem_insertionSort _

variable [LT κ] [Std.LawfulOrderLT κ]

theorem sortBy_eq_self {l : List α} (h : l.Pairwise fun x y => key x < key y) :
    sortBy key l = l :=
  (h.imp Std.le_of_lt).insertionSort_eq

/-- Without equal keys the order is strict. -/
theorem ascending_sortBy [Std.IsLinearOrder κ] {l : List α} (h : (l.map key).Nodup) :
    (sortBy key l).Pairwise fun x y => key x < key y := by
  have : Std.Total fun x y : α => key x ≤ key y := ⟨fun _ _ => Std.le_total⟩
  have : IsTrans α fun x y : α => key x ≤ key y := ⟨fun _ _ _ => Std.le_trans⟩
  have hle := List.pairwise_insertionSort (fun x y : α => key x ≤ key y) l
  have hne : ((sortBy key l).map key).Nodup :=
    ((List.perm_insertionSort _ l).map key).nodup_iff.mpr h
  exact hle.imp₂ (fun x y => Std.lt_of_le_of_ne) (List.pairwise_map.mp hne)

end Order

namespace Placed

variable {ι : Type}

/-- The stack at its place, without metadata that says nothing. -/
def plain (p : Placed ι) : Placed ι :=
  { p with metadata := p.metadata.filter fun m => !m.isEmpty }

@[simp] theorem plain_plain (p : Placed ι) : p.plain.plain = p.plain := by
  simp [plain, Option.filter_filter]

theorem map_slot_plain (listed : List (Placed ι)) :
    (listed.map plain).map slot = listed.map slot := by
  rw [List.map_map]
  rfl

theorem map_plain_eq_self {listed : List (Placed ι)} (h : ∀ p ∈ listed, p.plain = p) :
    listed.map plain = listed :=
  (List.map_congr_left h).trans (List.map_id' _)

theorem ofStack_stack (place : ι) (p : Placed ι) :
    ofStack place p.stack = { p.plain with slot := place } := by
  rw [stack_eq]
  rfl

theorem plain_stack (p : Placed ι) : p.stack.plain = p.stack := by
  rw [stack_eq]
  simp [Stack.plain, Option.filter_filter]

end Placed

namespace Entry

/-- The entry in order: the main grid by slots, armour by places with only the last stack that is
listed for each, the off hand at place zero, and no metadata that says nothing. -/
def canonical (e : Entry) : Entry where
  id := e.id
  name := e.name
  slots := sortBy Placed.slot (e.slots.map Placed.plain)
  armor := sortBy Placed.slot ((Placed.latest e.armor).map Placed.plain)
  offhand := e.offhand.map fun p => { p.plain with slot := 0 }

/-- An entry whose sections ascend strictly, with the off hand at place zero and no metadata that
says nothing. -/
structure Canonical (e : Entry) : Prop where
  slots : e.slots.Pairwise fun p q => p.slot < q.slot
  armor : e.armor.Pairwise fun p q => p.slot < q.slot
  offhand : ∀ p ∈ e.offhand, p.slot = 0
  plain_slots : ∀ p ∈ e.slots, p.plain = p
  plain_armor : ∀ p ∈ e.armor, p.plain = p
  plain_offhand : ∀ p ∈ e.offhand, p.plain = p

theorem canonical_canonical {e : Entry} (h : e.Accepted) : e.canonical.Canonical where
  slots := ascending_sortBy (by rw [Placed.map_slot_plain]; exact h.slots)
  armor := ascending_sortBy (by rw [Placed.map_slot_plain]; exact Placed.nodup_latest _)
  offhand := by simp [canonical]
  plain_slots := by simp [canonical, mem_sortBy]
  plain_armor := by simp [canonical, mem_sortBy]
  plain_offhand := by simp [canonical, Placed.plain]

/-- What is captured of an inventory that was built is the entry in order. -/
theorem capture_contents {e : Entry} (h : e.Accepted) :
    capture e.player e.contents = e.canonical := by
  have hslots : (capture e.player e.contents).slots = e.canonical.slots := by
    refine Table.eq_of_ascending (ascending_slots_capture _ _) (canonical_canonical h).slots
      fun p => ?_
    simp only [mem_slots_capture, get_contents_eq_some h, canonical, mem_sortBy, List.mem_map]
    constructor
    · rintro ⟨slot, stack, ⟨q, hq, rfl, rfl⟩, rfl⟩
      exact ⟨q, hq, (Placed.ofStack_stack q.slot q).symm⟩
    · rintro ⟨q, hq, rfl⟩
      exact ⟨q.slot, q.stack, ⟨q, hq, rfl, rfl⟩, Placed.ofStack_stack q.slot q⟩
  have harmor : (capture e.player e.contents).armor = e.canonical.armor := by
    refine Table.eq_of_ascending (ascending_armor_capture _ _) (canonical_canonical h).armor
      fun p => ?_
    simp only [mem_armor_capture, armorAt_contents_eq_some h, canonical, mem_sortBy,
      List.mem_map]
    constructor
    · rintro ⟨index, hindex, stack, ⟨q, hq, rfl, rfl⟩, rfl⟩
      refine ⟨q, hq, ?_⟩
      rw [Placed.ofStack_stack, UInt64.ofNat_toNat]
      rfl
    · rintro ⟨q, hq, rfl⟩
      refine ⟨q.slot.toNat, h.armor q (Placed.mem_of_mem_latest hq), q.stack, ⟨q, hq, rfl, rfl⟩, ?_⟩
      rw [Placed.ofStack_stack, UInt64.ofNat_toNat]
      rfl
  have hoffhand : (capture e.player e.contents).offhand = e.canonical.offhand := by
    simp only [capture, canonical, offhand_contents, Option.map_map, Function.comp_def,
      Placed.ofStack_stack]
  exact (Entry.mk.injEq ..).mpr ⟨rfl, rfl, hslots, harmor, hoffhand⟩

theorem canonical_eq_self {e : Entry} (h : e.Canonical) : e.canonical = e := by
  have hnodup : (e.armor.map Placed.slot).Nodup :=
    Table.nodup_of_ascending h.armor
  have harmor : (Placed.latest e.armor).map Placed.plain = e.armor := by
    rw [Placed.latest_eq_self_iff.mpr hnodup]
    exact Placed.map_plain_eq_self h.plain_armor
  have hoffhand : e.canonical.offhand = e.offhand := by
    cases hp : e.offhand with
    | none => simp [canonical, hp]
    | some p =>
      have hplain := h.plain_offhand p hp
      have hslot := h.offhand p hp
      simp [canonical, hp, hplain, ← hslot]
  refine (Entry.mk.injEq ..).mpr ⟨rfl, rfl, ?_, ?_, hoffhand⟩
  · rw [Placed.map_plain_eq_self h.plain_slots, sortBy_eq_self h.slots]
  · rw [harmor, sortBy_eq_self h.armor]

/-- What an entry is built into holds no crafting and no metadata that says nothing. -/
theorem plain_contents {e : Entry} (h : e.Accepted) : e.contents.plain = e.contents := by
  refine (Inventory.plain_eq_self_iff _).mpr ⟨crafting_contents e, fun stack hbears => ?_⟩
  rw [← Stack.plain_eq_self_iff]
  rcases hbears with ⟨slot, hs⟩ | ⟨index, hs⟩ | hs
  · obtain ⟨p, -, -, rfl⟩ := (get_contents_eq_some h).mp hs
    exact p.plain_stack
  · obtain ⟨p, -, -, rfl⟩ := (armorAt_contents_eq_some h).mp hs
    exact p.plain_stack
  · rw [offhand_contents] at hs
    obtain ⟨p, -, rfl⟩ := Option.map_eq_some_iff.mp hs
    exact p.plain_stack

end Entry

namespace Fixture

/-- The fixture in order: its entries by identifiers, each in order. -/
def canonical (f : Fixture) : Fixture :=
  ⟨sortBy Entry.id (f.players.map Entry.canonical)⟩

/-- A fixture whose identifiers ascend strictly and whose entries are in order. -/
structure Canonical (f : Fixture) : Prop where
  ids : f.players.Pairwise fun d e => d.id < e.id
  entries : ∀ e ∈ f.players, e.Canonical

theorem canonical_eq_self {f : Fixture} (h : f.Canonical) : f.canonical = f := by
  have hmap : f.players.map Entry.canonical = f.players :=
    (List.map_congr_left fun e he => Entry.canonical_eq_self (h.entries e he)).trans
      (List.map_id' _)
  rw [canonical, hmap, sortBy_eq_self h.ids]

theorem canonical_of_build {f : Fixture} {host : Host} (h : f.build = .ok host) :
    f.canonical.Canonical where
  ids := by
    refine ascending_sortBy ?_
    rw [List.map_map]
    exact (build_eq_ok.mp h).2.1
  entries := by
    intro c hc
    obtain ⟨e, he, rfl⟩ := List.mem_map.mp (mem_sortBy.mp hc)
    exact Entry.canonical_canonical ((build_eq_ok.mp h).1 e he)

theorem plain_of_build {f : Fixture} {host : Host} (h : f.build = .ok host) :
    host.plain = host := by
  refine host.plain_eq_self_iff.mpr fun id inventory hfind => ?_
  obtain ⟨resident, hresident, rfl⟩ := Option.map_eq_some_iff.mp hfind
  obtain ⟨e, he, -, rfl⟩ := (find?_of_build h).mp hresident
  exact Entry.plain_contents ((build_eq_ok.mp h).1 e he)

theorem ascending_capture (host : Host) :
    (capture host).players.Pairwise fun d e => d.id < e.id := by
  rw [← List.pairwise_map (f := Entry.id), ids_capture]
  exact host.residents.keys_ascending

/-- What is captured of a host that was built is the fixture in order. -/
theorem capture_of_build {f : Fixture} {host : Host} (h : f.build = .ok host) :
    capture host = f.canonical := by
  have hplayers : (capture host).players = f.canonical.players := by
    refine Table.eq_of_ascending (ascending_capture host) (canonical_of_build h).ids fun c => ?_
    rw [mem_capture, canonical, mem_sortBy, List.mem_map]
    have haccepted := (build_eq_ok.mp h).1
    constructor
    · rintro ⟨id, resident, hfind, rfl⟩
      obtain ⟨e, he, -, rfl⟩ := (find?_of_build h).mp hfind
      exact ⟨e, he, (Entry.capture_contents (haccepted e he)).symm⟩
    · rintro ⟨e, he, rfl⟩
      exact ⟨e.id, ⟨e.player, e.contents⟩, (find?_of_build h).mpr ⟨e, he, rfl, rfl⟩,
        Entry.capture_contents (haccepted e he)⟩
  exact (Fixture.mk.injEq ..).mpr hplayers

theorem build_capture_of_build {f : Fixture} {host : Host} (h : f.build = .ok host) :
    (capture host).build = .ok host := by
  rw [build_capture, plain_of_build h]

/-- What is captured of a host that a fixture built is the canonical form of the fixture.  So the
fixture comes back exactly if it was in that form, building what was captured leads to the same
host, and two fixtures build the same host exactly if their canonical forms agree. -/
theorem capture_build_canonical {f : Fixture} {host : Host} (h : f.build = .ok host) :
    capture host = f.canonical ∧ f.canonical.Canonical ∧
    (capture host = f ↔ f.Canonical) ∧
    (capture host).build = .ok host ∧
    ∀ (other : Fixture) (built : Host), other.build = .ok built →
      (built = host ↔ other.canonical = f.canonical) := by
  have hcapture := capture_of_build h
  have hcanonical := canonical_of_build h
  refine ⟨hcapture, hcanonical, ⟨fun he => ?_, fun hf => ?_⟩, build_capture_of_build h,
    fun other built hother => ⟨fun he => ?_, fun he => ?_⟩⟩
  · rwa [← hcapture, he] at hcanonical
  · rw [hcapture, canonical_eq_self hf]
  · rw [← capture_of_build hother, he, hcapture]
  · have hbuilt := build_capture_of_build hother
    rw [capture_of_build hother, he, ← hcapture, build_capture_of_build h] at hbuilt
    exact (Except.ok.inj hbuilt).symm

/-- A fixture out of order, which lists one armour place twice, a place for the off hand, and
metadata that says nothing. -/
def jumbled : Fixture :=
  ⟨[{ id := 2, name := "Alex" },
    { id := 1, name := "Steve",
      slots := [⟨44, .air, 1, some {}⟩, ⟨13, .air, 5, some { damage := some 3 }⟩],
      armor := [⟨3, .air, 6, none⟩, ⟨0, .air, 7, none⟩, ⟨3, .air, 8, some {}⟩],
      offhand := some ⟨9, .air, 2, none⟩ }]⟩

theorem capture_jumbled : ∃ host, jumbled.build = .ok host ∧
    capture host =
      ⟨[{ id := 1, name := "Steve",
          slots := [⟨13, .air, 5, some { damage := some 3 }⟩, ⟨44, .air, 1, none⟩],
          armor := [⟨0, .air, 7, none⟩, ⟨3, .air, 8, none⟩],
          offhand := some ⟨0, .air, 2, none⟩ },
        { id := 2, name := "Alex" }]⟩ ∧
    (capture host).build = .ok host := by
  have haccepted : ∀ e ∈ jumbled.players, e.Accepted := by
    simp only [jumbled, List.forall_mem_cons]
    exact ⟨⟨by decide, by decide⟩, ⟨by decide, by decide⟩, by simp⟩
  have hbuild := build_eq_ok.mpr ⟨haccepted, by decide, rfl⟩
  obtain ⟨hcapture, -, -, hagain, -⟩ := capture_build_canonical hbuild
  exact ⟨_, hbuild, hcapture.trans (by decide), hagain⟩

end Fixture

end InventoryTokens
