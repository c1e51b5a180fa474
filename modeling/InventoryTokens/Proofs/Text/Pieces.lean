import InventoryTokens.Proofs.Text.Cutting
import Mathlib.Data.List.ModifyLast

/-!
# Pieces of a trimmed text

How trimming and cutting go together.  Trimming loses blanks only, so it keeps every separator that
is not blank, and what it drops at the end comes from the last piece.
-/

namespace InventoryTokens.Text

theorem rdropWhile_append_of_pos {p : Char → Bool} {cs right : List Char}
    (h : ∀ c ∈ right, p c = true) : (cs ++ right).rdropWhile p = cs.rdropWhile p := by
  rw [List.rdropWhile, List.reverse_append, List.dropWhile_append_of_pos (by simpa using h)]
  rfl

theorem rdropWhile_append_cons {p : Char → Bool} {c : Char} (h : p c = false)
    (before after : List Char) :
    (before ++ c :: after).rdropWhile p = before ++ c :: after.rdropWhile p := by
  induction after using List.reverseRecOn with
  | nil =>
    rw [List.rdropWhile_concat_neg p before c (by simp [h]), List.rdropWhile_nil]
  | append_singleton after last ih =>
    rw [← List.cons_append, ← List.append_assoc, List.rdropWhile_concat, List.rdropWhile_concat, ih]
    by_cases hlast : p last = true
    · simp [hlast]
    · simp [hlast]

/-- Blanks around a text change nothing without the blanks around it. -/
theorem bare_append {left right : List Char} (hleft : ∀ c ∈ left, isBlank c = true)
    (hright : ∀ c ∈ right, isBlank c = true) (cs : List Char) :
    bare (left ++ cs ++ right) = bare cs := by
  have hnone : right.dropWhile isBlank = [] := List.dropWhile_eq_nil_iff.mpr hright
  rw [List.append_assoc, bare, List.dropWhile_append_of_pos hleft, List.dropWhile_append, hnone]
  split
  case isTrue hempty => rw [bare, List.isEmpty_iff.mp hempty]
  case isFalse => exact rdropWhile_append_of_pos hright

theorem bare_cons {c : Char} (h : isBlank c = false) (cs : List Char) :
    bare (c :: cs) = c :: cs.rdropWhile isBlank := by
  rw [bare, List.dropWhile_cons_of_neg (by simp [h])]
  exact rdropWhile_append_cons h [] cs

theorem mem_of_mem_bare {c : Char} {cs : List Char} (h : c ∈ bare cs) : c ∈ cs :=
  (List.dropWhile_suffix isBlank).subset ((List.rdropWhile_prefix isBlank _).subset h)

/-- Only blanks are lost around a text. -/
theorem count_bare {c : Char} (h : isBlank c = false) (cs : List Char) :
    (bare cs).count c = cs.count c := by
  have hleft : (cs.takeWhile isBlank).count c = 0 := by
    refine List.count_eq_zero.mpr fun hmem => ?_
    simp [List.mem_takeWhile_imp hmem] at h
  have hright : ((cs.dropWhile isBlank).rtakeWhile isBlank).count c = 0 := by
    refine List.count_eq_zero.mpr fun hmem => ?_
    simp [List.mem_rtakeWhile_imp hmem] at h
  calc (bare cs).count c
      = ((bare cs) ++ (cs.dropWhile isBlank).rtakeWhile isBlank).count c := by
        rw [List.count_append, hright, Nat.add_zero]
    _ = (cs.dropWhile isBlank).count c := by rw [bare, List.rdropWhile_append_rtakeWhile]
    _ = (cs.takeWhile isBlank ++ cs.dropWhile isBlank).count c := by
        rw [List.count_append, hleft, Nat.zero_add]
    _ = cs.count c := by rw [List.takeWhile_append_dropWhile]

theorem length_splitOn (separator : Char) (cs : List Char) :
    (cs.splitOn separator).length = cs.count separator + 1 := by
  rw [← cut_eq_splitOn, List.length_cons, length_cut]

theorem not_mem_of_mem_splitOn {separator : Char} {cs piece : List Char}
    (h : piece ∈ cs.splitOn separator) : separator ∉ piece := by
  rw [← cut_eq_splitOn, List.mem_cons] at h
  obtain ⟨hfirst, hrest⟩ := not_mem_cut separator cs
  rcases h with rfl | h
  · exact hfirst
  · exact hrest piece h

/-- Joined pieces hold nothing but their own characters and the separator. -/
theorem mem_of_mem_intercalate {separator c : Char} {pieces : List (List Char)}
    (h : c ∈ [separator].intercalate pieces) : c = separator ∨ ∃ piece ∈ pieces, c ∈ piece := by
  induction pieces with
  | nil => cases h
  | cons first rest ih =>
    cases rest with
    | nil =>
      rw [List.intercalate_singleton] at h
      exact Or.inr ⟨first, List.mem_cons_self, h⟩
    | cons second rest =>
      rw [List.intercalate_cons_cons, List.mem_append, List.mem_append, List.mem_singleton] at h
      rcases h with (hfirst | hseparator) | hrest
      · exact Or.inr ⟨first, List.mem_cons_self, hfirst⟩
      · exact Or.inl hseparator
      · refine (ih hrest).imp_right fun ⟨piece, hpiece, hc⟩ => ?_
        exact ⟨piece, List.mem_cons_of_mem _ hpiece, hc⟩

/-- The first piece is what stands before the first separator. -/
theorem headD_splitOn (separator : Char) (cs : List Char) :
    (cs.splitOn separator).headD [] = cs.takeWhile (· ≠ separator) := by
  rw [← cut_eq_splitOn, List.headD_cons]
  induction cs with
  | nil => rfl
  | cons c cs ih =>
    by_cases h : c = separator
    · simp [cut, h]
    · simp [cut, h, ih]

/-- What is dropped at the end of a text is dropped at the end of its last piece. -/
theorem splitOn_rdropWhile_intercalate {p : Char → Bool} {separator : Char}
    (h : p separator = false) {pieces : List (List Char)} (hne : pieces ≠ [])
    (hfree : ∀ piece ∈ pieces, separator ∉ piece) :
    (([separator].intercalate pieces).rdropWhile p).splitOn separator =
      pieces.modifyLast (List.rdropWhile p) := by
  induction pieces with
  | nil => contradiction
  | cons first rest ih =>
    have hfirst : separator ∉ first := hfree first List.mem_cons_self
    cases rest with
    | nil =>
      have hlast : separator ∉ first.rdropWhile p :=
        fun hmem => hfirst ((List.rdropWhile_prefix p first).subset hmem)
      rw [List.intercalate_singleton, List.splitOn_eq_singleton hlast]
      rfl
    | cons second rest =>
      have hrest := ih (List.cons_ne_nil _ _) fun piece hpiece =>
        hfree piece (List.mem_cons_of_mem _ hpiece)
      rw [List.intercalate_cons_cons, List.append_assoc, List.singleton_append,
        rdropWhile_append_cons h, List.splitOn_append_cons_self_of_not_mem hfirst, hrest]
      exact (List.modifyLast_append_of_right_ne_nil _ [first] _ (List.cons_ne_nil _ _)).symm

end InventoryTokens.Text
