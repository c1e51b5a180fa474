/-!
# Tables

A table holds one value under each of its keys, in strictly ascending order of keys.  The order is
part of the type, so equal contents are equal tables.  Each operation is described by what a look-up
finds after it.
-/

namespace InventoryTokens

/-- Values under keys in strictly ascending order. -/
structure Table (κ ν : Type) [LT κ] where
  entries : List (κ × ν)
  ascending : entries.Pairwise fun a b => a.1 < b.1

namespace Table

theorem lookup_cons_eq {κ ν : Type} [DecidableEq κ] (key k : κ) (v : ν) (rest : List (κ × ν)) :
    List.lookup key ((k, v) :: rest) = if key = k then some v else List.lookup key rest := by
  by_cases h : key = k
  · simp [h]
  · have : (key == k) = false := by simpa using h
    rw [List.lookup_cons, this, if_neg h]

/-- Entries that are left out by their keys are not found, and all others are. -/
theorem lookup_filter {κ ν : Type} [DecidableEq κ] (p : κ → Bool) (key : κ)
    (entries : List (κ × ν)) : (entries.filter fun entry => p entry.1).lookup key =
      if p key then entries.lookup key else none := by
  induction entries with
  | nil => simp
  | cons head rest ih =>
    obtain ⟨k, v⟩ := head
    by_cases hk : p k = true
    · rw [List.filter_cons_of_pos (by exact hk), lookup_cons_eq, lookup_cons_eq, ih]
      by_cases he : key = k
      · rw [if_pos he, if_pos he, he, if_pos hk]
      · rw [if_neg he, if_neg he]
    · rw [List.filter_cons_of_neg (by exact hk), lookup_cons_eq, ih]
      by_cases he : key = k
      · rw [he, if_neg hk, if_neg hk]
      · rw [if_neg he]

theorem lookup_filter_ne {κ ν : Type} [DecidableEq κ] (key other : κ) (entries : List (κ × ν)) :
    (entries.filter fun entry => entry.1 ≠ key).lookup other =
      if other = key then none else entries.lookup other := by
  rw [lookup_filter fun k => k ≠ key]
  by_cases he : other = key <;> simp [he]

variable {κ ν : Type} [LT κ]

def empty : Table κ ν := ⟨[], List.Pairwise.nil⟩

def keys (t : Table κ ν) : List κ := t.entries.map Prod.fst

theorem eq_of_entries {s t : Table κ ν} (h : s.entries = t.entries) : s = t := by
  cases s
  cases t
  simpa using h

theorem keys_ascending (t : Table κ ν) : t.keys.Pairwise (· < ·) :=
  List.pairwise_map.mpr t.ascending

section LookUp

variable [DecidableEq κ]

def find? (t : Table κ ν) (key : κ) : Option ν :=
  t.entries.lookup key

def contains (t : Table κ ν) (key : κ) : Bool :=
  (t.find? key).isSome

@[simp] theorem find?_empty (key : κ) : (empty : Table κ ν).find? key = none := rfl

def erase (t : Table κ ν) (key : κ) : Table κ ν :=
  ⟨t.entries.filter fun entry => entry.1 ≠ key, t.ascending.filter _⟩

theorem find?_erase (t : Table κ ν) (key other : κ) :
    (t.erase key).find? other = if other = key then none else t.find? other :=
  lookup_filter_ne key other t.entries

end LookUp

section Change

variable [DecidableEq κ] [DecidableLT κ]

/-- Entries with a value put under a key, in place of what was there. -/
def insertEntry (key : κ) (value : ν) : List (κ × ν) → List (κ × ν)
  | [] => [(key, value)]
  | (k, v) :: rest =>
    if key < k then (key, value) :: (k, v) :: rest
    else if key = k then (key, value) :: rest
    else (k, v) :: insertEntry key value rest

theorem mem_insertEntry {key : κ} {value : ν} {entries : List (κ × ν)} {entry : κ × ν}
    (h : entry ∈ insertEntry key value entries) : entry = (key, value) ∨ entry ∈ entries := by
  induction entries with
  | nil => exact Or.inl (by simpa [insertEntry] using h)
  | cons head rest ih =>
    obtain ⟨k, v⟩ := head
    simp only [insertEntry] at h
    split at h
    · simpa using h
    · split at h
      · rcases List.mem_cons.mp h with h | h
        · exact Or.inl h
        · exact Or.inr (List.mem_cons_of_mem _ h)
      · rcases List.mem_cons.mp h with h | h
        · exact Or.inr (by simp [h])
        · exact (ih h).imp id (List.mem_cons_of_mem _)

theorem lookup_insertEntry (key other : κ) (value : ν) (entries : List (κ × ν)) :
    (insertEntry key value entries).lookup other =
      if other = key then some value else entries.lookup other := by
  induction entries with
  | nil => exact lookup_cons_eq other key value []
  | cons head rest ih =>
    obtain ⟨k, v⟩ := head
    simp only [insertEntry]
    split
    · exact lookup_cons_eq ..
    · split
      · rename_i heq
        simp only [lookup_cons_eq, ← heq]
        split <;> rfl
      · rename_i hne
        simp only [lookup_cons_eq, ih]
        by_cases hk : other = k
        · have ho : other ≠ key := fun e => hne (e.symm.trans hk)
          rw [if_pos hk, if_neg ho, if_pos hk]
        · rw [if_neg hk, if_neg hk]

variable [LE κ] [Std.IsLinearOrder κ] [Std.LawfulOrderLT κ]

theorem insertEntry_ascending {key : κ} {value : ν} {entries : List (κ × ν)}
    (h : entries.Pairwise fun a b => a.1 < b.1) :
    (insertEntry key value entries).Pairwise fun a b => a.1 < b.1 := by
  induction entries with
  | nil => simp [insertEntry]
  | cons head rest ih =>
    obtain ⟨k, v⟩ := head
    obtain ⟨hhead, hrest⟩ := List.pairwise_cons.mp h
    simp only [insertEntry]
    split
    · rename_i hlt
      refine List.pairwise_cons.mpr ⟨fun entry he => ?_, h⟩
      rcases List.mem_cons.mp he with rfl | he
      · exact hlt
      · exact Std.lt_trans hlt (hhead entry he)
    · rename_i hnlt
      split
      · rename_i heq
        subst heq
        exact List.pairwise_cons.mpr ⟨hhead, hrest⟩
      · rename_i hne
        refine List.pairwise_cons.mpr ⟨fun entry he => ?_, ih hrest⟩
        rcases mem_insertEntry he with rfl | he
        · rcases Std.lt_trichotomy key k with hlt | heq | hlt
          · exact absurd hlt hnlt
          · exact absurd heq hne
          · exact hlt
        · exact hhead entry he

/-- Puts a value under a key, in place of what was there. -/
def insert (t : Table κ ν) (key : κ) (value : ν) : Table κ ν :=
  ⟨insertEntry key value t.entries, insertEntry_ascending t.ascending⟩

theorem find?_insert (t : Table κ ν) (key other : κ) (value : ν) :
    (t.insert key value).find? other = if other = key then some value else t.find? other :=
  lookup_insertEntry key other value t.entries

end Change

end Table

end InventoryTokens
