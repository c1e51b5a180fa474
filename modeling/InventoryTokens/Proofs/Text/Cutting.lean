import InventoryTokens.Argument
import Mathlib.Data.List.DropRight

/-!
# Trimmed text, cut text and spelled integers

What the scanners of texts compute, said with the list operations of the library: trimming drops
blanks at both ends, cutting splits at every separator, and reading an integer accepts a sign and
digits of any number and nothing else.
-/

namespace InventoryTokens.Text

/-- A text without the blanks at its ends. -/
def bare (cs : List Char) : List Char :=
  (cs.dropWhile isBlank).rdropWhile isBlank

theorem trim_eq_bare (cs : List Char) : trim cs = bare cs := rfl

theorem trim_of_not_blank {cs : List Char} (h : ∀ c ∈ cs, isBlank c = false) : trim cs = cs := by
  have hdrop : cs.dropWhile isBlank = cs :=
    List.dropWhile_eq_self_iff.mpr fun _ => by simp [h _ (List.getElem_mem _)]
  rw [trim_eq_bare, bare, hdrop]
  exact List.rdropWhile_eq_self_iff.mpr fun hne => by simp [h _ (List.getLast_mem hne)]

theorem bare_of_not_blank {cs : List Char} (h : ∀ c ∈ cs, isBlank c = false) : bare cs = cs :=
  trim_of_not_blank h

theorem not_isBlank_of_isDigit {c : Char} (h : c.isDigit = true) : isBlank c = false := by
  have hrange : 48 ≤ c.toNat ∧ c.toNat ≤ 57 := Char.isDigit_iff_toNat.mp h
  simp only [isBlank, blankRanges, List.any_cons, List.any_nil, Bool.or_false, Bool.or_eq_false_iff,
    Bool.and_eq_false_iff, decide_eq_false_iff_not]
  omega

theorem cut_eq_splitOn (separator : Char) (cs : List Char) :
    (cut separator cs).1 :: (cut separator cs).2 = cs.splitOn separator := by
  induction cs with
  | nil => rfl
  | cons c cs ih =>
    rw [List.splitOn_cons_eq_if_modifyHead, ← ih]
    by_cases h : c = separator
    · simp [cut, h]
    · simp [cut, h]

/-- A sign or none, then one or more decimal digits, as the integer that they spell. -/
inductive Spells : List Char → Int → Prop
  | unsigned {digits : List Char} (some : digits ≠ []) (all : ∀ c ∈ digits, c.isDigit = true) :
    Spells digits (Nat.ofDigitChars 10 digits 0 : Nat)
  | plus {digits : List Char} (some : digits ≠ []) (all : ∀ c ∈ digits, c.isDigit = true) :
    Spells ('+' :: digits) (Nat.ofDigitChars 10 digits 0 : Nat)
  | minus {digits : List Char} (some : digits ≠ []) (all : ∀ c ∈ digits, c.isDigit = true) :
    Spells ('-' :: digits) (-(Nat.ofDigitChars 10 digits 0 : Nat))

theorem readNat?_eq_some {cs : List Char} {n : Nat} :
    readNat? cs = some n ↔
      cs ≠ [] ∧ (∀ c ∈ cs, c.isDigit = true) ∧ Nat.ofDigitChars 10 cs 0 = n := by
  unfold readNat?
  split
  · rename_i h
    rw [Option.some.injEq, ← and_assoc, ← List.all_eq_true]
    exact (and_iff_right h).symm
  · rename_i h
    simp only [reduceCtorEq, false_iff]
    rintro ⟨hne, hall, -⟩
    exact h ⟨hne, List.all_eq_true.mpr hall⟩

theorem spells_of_readInt? {cs : List Char} {n : Int} (h : readInt? cs = some n) : Spells cs n := by
  unfold readInt? at h
  split at h
  all_goals
    simp only [Option.bind_eq_bind, Option.pure_def, Option.map_eq_some_iff,
      Option.bind_eq_some_iff, Option.some.injEq] at h
    obtain ⟨_, ⟨k, hk, rfl⟩, rfl⟩ := h
    obtain ⟨hne, hall, rfl⟩ := readNat?_eq_some.mp hk
  · exact .plus hne hall
  · exact .minus hne hall
  · exact .unsigned hne hall

theorem readInt?_of_spells {cs : List Char} {n : Int} (h : Spells cs n) : readInt? cs = some n := by
  cases h with
  | unsigned hne hall =>
    obtain ⟨c, cs, rfl⟩ := List.exists_cons_of_ne_nil hne
    rw [readInt?_of_isDigit (hall c (by simp)), readNat?_eq_some.mpr ⟨hne, hall, rfl⟩]
    rfl
  | plus hne hall =>
    rw [readInt?, readNat?_eq_some.mpr ⟨hne, hall, rfl⟩]
    rfl
  | minus hne hall =>
    rw [readInt?, readNat?_eq_some.mpr ⟨hne, hall, rfl⟩]
    rfl

theorem readInt?_eq_some {cs : List Char} {n : Int} : readInt? cs = some n ↔ Spells cs n :=
  ⟨spells_of_readInt?, readInt?_of_spells⟩

theorem spells_natDigits (n : Nat) : Spells (natDigits n) n := by
  have hread := readNat?_eq_some.mp (readNat?_natDigits n)
  obtain ⟨hne, hall, hvalue⟩ := hread
  have hspells := Spells.unsigned hne hall
  rwa [hvalue] at hspells

/-- A spelled integer has no characters but signs and digits. -/
theorem mem_of_spells {cs : List Char} {n : Int} (h : Spells cs n) {c : Char} (hc : c ∈ cs) :
    c = '+' ∨ c = '-' ∨ c.isDigit = true := by
  cases h with
  | unsigned hne hall => exact Or.inr (Or.inr (hall c hc))
  | plus hne hall => exact (List.mem_cons.mp hc).imp_right fun hd => Or.inr (hall c hd)
  | minus hne hall => exact Or.inr ((List.mem_cons.mp hc).imp_right (hall c))

theorem int64?_eq_some {n : Int} {w : Int64} : int64? n = some w ↔ w.toInt = n := by
  unfold int64?
  split
  · rename_i h
    have hback : (Int64.ofInt n).toInt = n :=
      Int64.toInt_ofInt_of_le (by simpa using h.1) (by simpa using h.2)
    simp only [Option.some.injEq]
    constructor
    · rintro rfl
      exact hback
    · rintro rfl
      exact Int64.ofInt_toInt w
  · rename_i h
    simp only [reduceCtorEq, false_iff]
    rintro rfl
    exact h ⟨by simpa using w.le_toInt, by simpa using w.toInt_lt⟩

end InventoryTokens.Text

namespace InventoryTokens.Argument

/-- A text is a whole number exactly if, without the blanks around it, it spells one of 64 bits. -/
theorem parse_eq_whole {raw : String} {w : Int64} :
    parse raw = .whole w ↔ Text.Spells (Text.bare raw.toList) w.toInt := by
  rw [parse, Text.trim_eq_bare, infer?]
  cases hread : (Text.readInt? (Text.bare raw.toList)).bind Text.int64? with
  | some v =>
    obtain ⟨n, hn, hv⟩ := Option.bind_eq_some_iff.mp hread
    obtain rfl := Text.int64?_eq_some.mp hv
    rw [← Text.readInt?_eq_some, hn]
    simp [Int64.toInt_inj]
  | none =>
    have hno : ¬Text.Spells (Text.bare raw.toList) w.toInt := by
      intro hs
      rw [Text.readInt?_of_spells hs] at hread
      have hw : Text.int64? w.toInt = some w := Text.int64?_eq_some.mpr rfl
      simp [hw] at hread
    simp only [hno, iff_false]
    repeat' split
    all_goals simp

end InventoryTokens.Argument
