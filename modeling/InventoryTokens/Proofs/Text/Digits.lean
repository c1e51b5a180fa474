import InventoryTokens.Text.Whole
import Mathlib.Data.List.TakeWhile

/-!
# Digits of a written integer

A written number has no zero before its first digit, and of a written integer only the first
character may be no digit.  A run of characters is scanned as a whole if what follows ends it, and
so is told apart from what follows.
-/

namespace InventoryTokens.Text

theorem head?_natDigits {n : Nat} (h : 0 < n) : (natDigits n).head? ≠ some '0' := by
  induction n using Nat.strongRecOn with
  | _ n ih =>
    by_cases hsmall : n < 10
    · have hall : ∀ d < 10, 0 < d → [Nat.digitChar d].head? ≠ some '0' := by decide
      rw [natDigits, Nat.toDigits_of_lt_base hsmall]
      exact hall n hsmall h
    · have hhead := ih (n / 10) (by omega) (by omega)
      rw [natDigits, Nat.toDigits_of_base_le (by decide) (by omega), List.head?_append]
      cases hdigits : Nat.toDigits 10 (n / 10) with
      | nil => exact absurd hdigits Nat.toDigits_ne_nil
      | cons d ds =>
        rw [natDigits, hdigits] at hhead
        exact hhead

/-- Only the first character of a written integer may be no digit. -/
theorem isDigit_of_mem_tail_intDigits {n : Int} {c : Char} (h : c ∈ (intDigits n).tail) :
    c.isDigit = true := by
  unfold intDigits at h
  split at h
  · exact isDigit_of_mem_natDigits h
  · exact isDigit_of_mem_natDigits (List.mem_of_mem_tail h)

theorem head_intDigits (n : Int) :
    ∃ c cs, intDigits n = c :: cs ∧ (c = '-' ∨ c.isDigit = true) := by
  unfold intDigits
  split
  · exact ⟨'-', _, rfl, Or.inl rfl⟩
  · obtain ⟨c, cs, hcs⟩ := List.exists_cons_of_ne_nil (natDigits_ne_nil n.natAbs)
    exact ⟨c, cs, hcs, Or.inr (isDigit_of_mem_natDigits (n := n.natAbs) (by simp [hcs]))⟩

/-- A run of characters of one class is cut off where the class ends. -/
theorem span_append {p : Char → Bool} {cs rest : List Char} (hcs : ∀ c ∈ cs, p c = true)
    (hrest : ∀ c ∈ rest.head?, p c = false) :
    (cs ++ rest).takeWhile p = cs ∧ (cs ++ rest).dropWhile p = rest := by
  rw [List.takeWhile_append_of_pos hcs, List.dropWhile_append_of_pos hcs]
  cases rest with
  | nil => simp
  | cons c rest =>
    have hc := hrest c rfl
    simp [hc]

/-- Runs of one class that other characters end are told apart from what follows them. -/
theorem span_append_inj {p : Char → Bool} {cs ds : List Char} (hcs : ∀ c ∈ cs, p c = true)
    (hds : ∀ c ∈ ds, p c = true) {a b : List Char} (ha : ∀ c ∈ a.head?, p c = false)
    (hb : ∀ c ∈ b.head?, p c = false) : cs ++ a = ds ++ b ↔ cs = ds ∧ a = b := by
  constructor
  · intro h
    obtain ⟨htake, hdrop⟩ := span_append hcs ha
    obtain ⟨htake', hdrop'⟩ := span_append hds hb
    rw [h] at htake hdrop
    exact ⟨htake.symm.trans htake', hdrop.symm.trans hdrop'⟩
  · intro h
    rw [h.1, h.2]

theorem natDigits_inj {m n : Nat} : natDigits m = natDigits n ↔ m = n := by
  refine ⟨fun h => ?_, congrArg natDigits⟩
  have hread := readNat?_natDigits m
  rw [h, readNat?_natDigits] at hread
  exact (Option.some.inj hread).symm

end InventoryTokens.Text
