import InventoryTokens.Proofs.Fixture.Build

/-!
# Ambiguous fixtures

A fixture is refused for an identifier or a slot of the main grid that is listed twice, and for an
armour place that is not there.  It is not refused for an armour place that is listed twice: the
last stack stays, and the others are lost.
-/

namespace InventoryTokens

namespace Entry

/-- No listed armour is lost exactly if the stacks that are listed for one place agree. -/
theorem armorAt_contents_all_iff {e : Entry} (h : e.Accepted) :
    (∀ p ∈ e.armor, e.contents.armorAt p.slot.toNat = some p.stack) ↔
      ∀ p ∈ e.armor, ∀ q ∈ e.armor, p.slot = q.slot → p.stack = q.stack := by
  constructor
  · intro hall p hp q hq hslot
    have hfirst := hall p hp
    rw [hslot, hall q hq] at hfirst
    exact (Option.some.inj hfirst).symm
  · intro hagree p hp
    obtain ⟨q, hq, hslot⟩ := Placed.exists_latest hp
    refine (armorAt_contents_eq_some h).mpr ⟨q, hq, congrArg _ hslot, ?_⟩
    exact hagree q (Placed.mem_of_mem_latest hq) p hp hslot

end Entry

namespace Fixture

theorem exists_build_iff {f : Fixture} :
    (∃ host, f.build = .ok host) ↔
      (∀ e ∈ f.players, e.Accepted) ∧ (f.players.map Entry.id).Nodup := by
  simp only [build_eq_ok, exists_and_left, exists_eq', and_true]

/-- What is accepted: no identifier and no slot twice, and only armour places that are there.  In
what is built each listed stack of the main grid and the off hand stands at its place, and of the
armour each stack that no later one replaces, so that all of it is there exactly if the stacks that
are listed for one place agree. -/
theorem build_accepts (f : Fixture) :
    ((∃ host, f.build = .ok host) ↔
      (f.players.map Entry.id).Nodup ∧ ∀ e ∈ f.players,
        (e.slots.map Placed.slot).Nodup ∧ ∀ p ∈ e.armor, p.slot.toNat < armorSize) ∧
    ∀ host, f.build = .ok host → ∀ e ∈ f.players, ∃ inventory,
      host.inventory? e.id = some inventory ∧
      (∀ p ∈ e.slots, inventory.get p.slot = some p.stack) ∧
      (∀ p ∈ e.offhand, inventory.offhand = some p.stack) ∧
      (∀ p ∈ Placed.latest e.armor, inventory.armorAt p.slot.toNat = some p.stack) ∧
      ((∀ p ∈ e.armor, inventory.armorAt p.slot.toNat = some p.stack) ↔
        ∀ p ∈ e.armor, ∀ q ∈ e.armor, p.slot = q.slot → p.stack = q.stack) := by
  refine ⟨?_, fun host h e he => ⟨e.contents, inventory?_of_build h he, ?_⟩⟩
  · rw [exists_build_iff, and_comm]
    refine and_congr_right fun _ => forall₂_congr fun e _ => ?_
    exact ⟨fun h => ⟨h.slots, h.armor⟩, fun h => ⟨h.1, h.2⟩⟩
  · have haccepted := (build_eq_ok.mp h).1 e he
    refine ⟨fun p hp => ?_, fun p hp => ?_, fun p hp => ?_,
      Entry.armorAt_contents_all_iff haccepted⟩
    · exact (Entry.get_contents_eq_some haccepted).mpr ⟨p, hp, rfl, rfl⟩
    · rw [Entry.offhand_contents, hp]
      rfl
    · exact (Entry.armorAt_contents_eq_some haccepted).mpr ⟨p, hp, rfl, rfl⟩

def ironHelmet : Key := ⟨"minecraft", "iron_helmet", rfl, rfl⟩

def goldenHelmet : Key := ⟨"minecraft", "golden_helmet", rfl, rfl⟩

/-- A player with two stacks for one armour place. -/
def twoHelmets : Fixture :=
  ⟨[{ id := 1, name := "Steve",
      armor := [⟨0, ironHelmet, 1, none⟩, ⟨0, goldenHelmet, 1, none⟩] }]⟩

/-- Distinct armour places are not needed to be accepted, and the first of two stacks is lost. -/
theorem build_twoHelmets :
    (¬∀ f : Fixture, (∃ host, f.build = .ok host) ↔
      (f.players.map Entry.id).Nodup ∧ ∀ e ∈ f.players,
        (e.slots.map Placed.slot).Nodup ∧ (e.armor.map Placed.slot).Nodup ∧
          ∀ p ∈ e.armor, p.slot.toNat < armorSize) ∧
    ∃ host inventory, twoHelmets.build = .ok host ∧ host.inventory? 1 = some inventory ∧
      inventory.armorAt 0 = some ⟨goldenHelmet, 1, none⟩ := by
  have hids : (twoHelmets.players.map Entry.id).Nodup := by decide
  have haccepted : ∀ e ∈ twoHelmets.players, e.Accepted := by
    simp only [twoHelmets, List.forall_mem_cons]
    exact ⟨⟨by decide, by decide⟩, by simp⟩
  have hbuild := build_eq_ok.mpr ⟨haccepted, hids, rfl⟩
  refine ⟨fun hexact => ?_, _, _, hbuild, inventory?_of_build hbuild List.mem_cons_self, by decide⟩
  obtain ⟨-, hdistinct⟩ := (hexact twoHelmets).mp ⟨_, hbuild⟩
  exact absurd (hdistinct _ List.mem_cons_self).2.1 (by decide)

end Fixture

end InventoryTokens
