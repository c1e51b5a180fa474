import InventoryTokens.Table
import Mathlib.Data.List.Sort

/-!
# Tables as finite maps

A list in strictly ascending order is determined by its members, so a table is determined by what
its look-ups find.  Changing every value changes no key.
-/

namespace InventoryTokens.Table

section Ascending

variable {α κ : Type} [LT κ] [LE κ] [Std.LawfulOrderLT κ] {key : α → κ}

/-- Lists in strictly ascending order of keys are equal if they have the same members. -/
theorem eq_of_ascending [Std.IsLinearOrder κ] {a b : List α}
    (ha : a.Pairwise fun x y => key x < key y) (hb : b.Pairwise fun x y => key x < key y)
    (h : ∀ x, x ∈ a ↔ x ∈ b) : a = b :=
  have : Std.Irrefl fun x y : α => key x < key y := ⟨fun _ => Std.lt_irrefl⟩
  have : Std.Antisymm fun x y : α => key x < key y :=
    ⟨fun _ _ hxy hyx => absurd (Std.lt_trans hxy hyx) Std.lt_irrefl⟩
  ha.eq_of_mem_iff hb h

theorem nodup_of_ascending {l : List α} (h : l.Pairwise fun x y => key x < key y) :
    (l.map key).Nodup :=
  List.pairwise_map.mpr (h.imp fun hlt he => absurd (he ▸ hlt) Std.lt_irrefl)

theorem keys_nodup {ν : Type} (t : Table κ ν) : t.keys.Nodup := nodup_of_ascending t.ascending

/-- In strictly ascending order the first of those that pass a test is the least of them. -/
theorem find?_of_ascending [Std.IsLinearOrder κ] {l : List α}
    (h : l.Pairwise fun x y => key x < key y) {p : α → Bool} {a : α} :
    l.find? p = some a ↔ a ∈ l ∧ p a = true ∧ ∀ b ∈ l, p b = true → key a ≤ key b := by
  induction l with
  | nil => simp
  | cons head rest ih =>
    obtain ⟨hhead, hrest⟩ := List.pairwise_cons.mp h
    cases hp : p head with
    | true =>
      rw [List.find?_cons_of_pos hp, Option.some.injEq]
      constructor
      · intro he
        subst he
        refine ⟨List.mem_cons_self, hp, fun b hb _ => ?_⟩
        rcases List.mem_cons.mp hb with he | hb
        · exact he ▸ Std.le_refl _
        · exact Std.le_of_lt (hhead b hb)
      · intro ⟨ha, _, hleast⟩
        rcases List.mem_cons.mp ha with he | ha
        · exact he.symm
        · exact absurd (Std.lt_of_lt_of_le (hhead a ha) (hleast head List.mem_cons_self hp))
            Std.lt_irrefl
    | false =>
      have hfails : ¬p head = true := by simp [hp]
      rw [List.find?_cons_of_neg hfails, ih hrest, List.forall_mem_cons]
      constructor
      · intro ⟨ha, hpa, hleast⟩
        exact ⟨List.mem_cons_of_mem head ha, hpa, fun hphead => absurd hphead hfails, hleast⟩
      · intro ⟨ha, hpa, _, hleast⟩
        rcases List.mem_cons.mp ha with he | ha
        · exact absurd (he ▸ hpa) hfails
        · exact ⟨ha, hpa, hleast⟩

end Ascending

section Entries

variable {κ ν ω : Type} [DecidableEq κ]

theorem lookup_map_values (f : κ → ν → ω) (key : κ) (entries : List (κ × ν)) :
    (entries.map fun (k, v) => (k, f k v)).lookup key = (entries.lookup key).map (f key) := by
  induction entries with
  | nil => rfl
  | cons head rest ih =>
    obtain ⟨k, v⟩ := head
    rw [List.map_cons, lookup_cons_eq, lookup_cons_eq, ih]
    split
    · rename_i h
      rw [h]
      rfl
    · rfl

theorem lookup_eq_some_iff {entries : List (κ × ν)} (h : (entries.map Prod.fst).Nodup) {key : κ}
    {value : ν} : entries.lookup key = some value ↔ (key, value) ∈ entries := by
  induction entries with
  | nil => simp
  | cons head rest ih =>
    obtain ⟨k, v⟩ := head
    obtain ⟨hk, hrest⟩ := List.nodup_cons.mp h
    rw [lookup_cons_eq]
    split
    · rename_i he
      have hnot : (key, value) ∉ rest := fun hm => hk (List.mem_map.mpr ⟨_, hm, he⟩)
      rw [List.mem_cons, or_iff_left hnot, he]
      simp [eq_comm]
    · rename_i hne
      simp [hne, ih hrest]

end Entries

variable {κ ν ω : Type} [LT κ] [DecidableEq κ]

/-- A table with every value changed, which may depend on the key. -/
def mapValues (f : κ → ν → ω) (t : Table κ ν) : Table κ ω where
  entries := t.entries.map fun (key, value) => (key, f key value)
  ascending := List.pairwise_map.mpr t.ascending

theorem find?_mapValues (f : κ → ν → ω) (t : Table κ ν) (key : κ) :
    (t.mapValues f).find? key = (t.find? key).map (f key) :=
  lookup_map_values f key t.entries

variable [LE κ] [Std.LawfulOrderLT κ]

theorem mem_entries_iff {t : Table κ ν} {key : κ} {value : ν} :
    (key, value) ∈ t.entries ↔ t.find? key = some value :=
  (lookup_eq_some_iff t.keys_nodup).symm

/-- Tables in which every look-up finds the same are equal. -/
theorem ext_find? [Std.IsLinearOrder κ] {s t : Table κ ν}
    (h : ∀ key, s.find? key = t.find? key) : s = t := by
  refine eq_of_entries (eq_of_ascending s.ascending t.ascending ?_)
  rintro ⟨key, value⟩
  rw [mem_entries_iff, mem_entries_iff, h]

end InventoryTokens.Table
