import InventoryTokens.Proofs.Text.Cutting
import InventoryTokens.Key

/-!
# Keys read back

No character of a key is a colon or a blank, so a written key is cut where it was put together.
-/

namespace InventoryTokens.Key

theorem toNat_lt_of_isPathChar {c : Char} (h : isPathChar c = true) : c.toNat < 0x80 := by
  simp only [isPathChar, isSpaceChar, Bool.or_eq_true, decide_eq_true_eq] at h
  rcases h with ((((h | h) | h) | h) | h) | h
  · obtain ⟨-, hz⟩ := Bool.and_eq_true_iff.mp h
    exact Nat.lt_of_le_of_lt (UInt32.le_iff_toNat_le.mp (of_decide_eq_true hz)) (by decide)
  · obtain ⟨-, hnine⟩ := Bool.and_eq_true_iff.mp h
    exact Nat.lt_of_le_of_lt (UInt32.le_iff_toNat_le.mp (of_decide_eq_true hnine)) (by decide)
  all_goals
    rw [h]
    decide

/-- No character of a key is a colon or a blank. -/
theorem plain_of_isPathChar {c : Char} (h : isPathChar c = true) :
    c ≠ ':' ∧ Text.isBlank c = false := by
  have hall : ∀ n < 0x80, isPathChar (Char.ofNat n) = true →
      Char.ofNat n ≠ ':' ∧ Text.isBlank (Char.ofNat n) = false := by
    decide
  have hc := hall c.toNat (toNat_lt_of_isPathChar h)
  rw [Char.ofNat_toNat] at hc
  exact hc h

theorem isPathChar_of_isName {limit : Nat} {allowed : Char → Bool} {s : String}
    (hallowed : ∀ c, allowed c = true → isPathChar c = true) (h : isName limit allowed s = true) :
    s.toList ≠ [] ∧ ∀ c ∈ s.toList, isPathChar c = true := by
  simp only [isName, Bool.and_eq_true, decide_eq_true_eq, List.all_eq_true] at h
  exact ⟨h.1.1, fun c hc => hallowed c (h.2 c hc)⟩

theorem ofParts_parts (key : Key) : ofParts key.space key.path = .ok key := by
  rw [ofParts, dif_pos key.space_valid, dif_pos key.path_valid]

theorem toList_text (key : Key) :
    key.text.toList = key.space.toList ++ ':' :: key.path.toList := by
  simp [text]

theorem isPathChar_of_mem_space {key : Key} {c : Char} (h : c ∈ key.space.toList) :
    isPathChar c = true :=
  (isPathChar_of_isName (fun c hc => by simp [isPathChar, hc]) key.space_valid).2 c h

theorem not_isBlank_of_mem_text {key : Key} {c : Char} (h : c ∈ key.text.toList) :
    Text.isBlank c = false := by
  rw [toList_text, List.mem_append, List.mem_cons] at h
  obtain hc | rfl | hc := h
  · exact (plain_of_isPathChar (isPathChar_of_mem_space hc)).2
  · decide
  · have hpath := (isPathChar_of_isName (fun c hc => hc) key.path_valid).2 c hc
    exact (plain_of_isPathChar hpath).2

/-- A written key reads back. -/
theorem parse_text (key : Key) : parse key.text = .ok key := by
  have hcut : Text.cutOnce ':' key.text.toList = some (key.space.toList, key.path.toList) := by
    refine Text.cutOnce_eq_some.mpr ⟨key.toList_text, fun hmem => ?_⟩
    exact (plain_of_isPathChar (isPathChar_of_mem_space hmem)).1 rfl
  have hne : key.text.toList ≠ [] := by
    rw [toList_text]
    simp
  rw [parse, Text.trim_of_not_blank fun c hc => not_isBlank_of_mem_text hc]
  simp only [if_neg hne, hcut, String.ofList_toList]
  exact key.ofParts_parts

theorem text_inj {k l : Key} : k.text = l.text ↔ k = l := by
  refine ⟨fun h => ?_, congrArg text⟩
  have hread := k.parse_text
  rw [h, l.parse_text] at hread
  exact (Except.ok.inj hread).symm

end InventoryTokens.Key
