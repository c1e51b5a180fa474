import InventoryTokens.Argument
import InventoryTokens.Proofs.Double.Plain

/-!
# Arguments inferred again

What is inferred from a text is shown as a text of its own.  Inference of that text gives the same
value, unless the value is a number that is whole and below `2 ^ 63` in size: it is shown without a
point and comes back as a whole number.
-/

namespace InventoryTokens.Double

/-- A whole number of less than `2 ^ 63` in size. -/
def IsWord (x : Double) : Prop := (∃ n : Int, x.value = n) ∧ |x.value| < 2 ^ 63

theorem abs_value_finite (negative : Bool) (rank : Rank) :
    |(Double.finite negative rank).value| = magnitude rank := by
  cases negative with
  | true => rw [value, abs_neg, abs_of_nonneg (NNRat.coe_nonneg _)]
  | false => rw [value, abs_of_nonneg (NNRat.coe_nonneg _)]

theorem isWord_iff (negative : Bool) (rank : Rank) :
    (Double.finite negative rank).IsWord ↔
      (∃ n : Nat, magnitude rank = n) ∧ magnitude rank < 2 ^ 63 := by
  have habs := abs_value_finite negative rank
  rw [IsWord, habs]
  apply and_congr
  · constructor
    · rintro ⟨n, hn⟩
      refine ⟨n.natAbs, NNRat.coe_injective ?_⟩
      rw [NNRat.coe_natCast, Nat.cast_natAbs, Int.cast_abs, ← hn, habs]
    · rintro ⟨n, hn⟩
      cases negative with
      | true => exact ⟨-n, by rw [value, hn]; push_cast; rfl⟩
      | false => exact ⟨n, by rw [value, hn]; push_cast; rfl⟩
  · exact_mod_cast Iff.rfl

/-- An integer that is rounded to a rank, with a sign, is rounded onto the double of that sign. -/
theorem equal_ofInt_of_natRank (negative : Bool) {rank : Rank} {n : Nat} (h : natRank n = rank) :
    (Double.finite negative rank).equal (.ofInt (if negative then -(n : Int) else n)) = true := by
  have hlt := rank.isLt
  have hzero : n = 0 → rank.val = 0 := by
    rintro rfl
    rw [← h]
    exact Nat.eq_zero_of_not_pos (by decide)
  rw [equal_eq rfl (order?_ofInt _), decide_eq_true_eq, intOrder]
  cases negative with
  | true =>
    simp only [if_true, Int.natAbs_neg, Int.natAbs_natCast, h]
    split <;> omega
  | false =>
    simp only [Bool.false_eq_true, if_false, Int.natAbs_natCast, h]
    split <;> omega

end InventoryTokens.Double

namespace InventoryTokens.Argument

open Double (IsWord)

theorem parse_eq_of_infer? {raw : String} {a : Argument}
    (h : infer? (Text.bare raw.toList) = some a) : parse raw = a := by
  rw [parse, Text.trim_eq_bare, h, Option.getD_some]

theorem infer?_of_whole {cs : List Char} {w : Int64}
    (h : (Text.readInt? cs).bind Text.int64? = some w) : infer? cs = some (.whole w) := by
  rw [infer?, h]

theorem infer?_of_number {cs : List Char} {x : Double}
    (hint : (Text.readInt? cs).bind Text.int64? = none) (hread : Double.read? cs = some x)
    (hx : x.isFinite = true) : infer? cs = some (.number x) := by
  rw [infer?, hint, hread, Option.filter_some_pos hx]

theorem bare_plainText {x : Double} (h : x.isFinite = true) :
    Text.bare x.plainText.toList = x.plain := by
  rw [Double.plainText, String.toList_ofList]
  exact Text.bare_of_not_blank (Double.not_isBlank_of_mem_plain h)

/-- A number that is no word is inferred again from its text. -/
theorem parse_plainText_of_not_isWord {x : Double} (hx : x.isFinite = true) (h : ¬x.IsWord) :
    parse x.plainText = .number x := by
  apply parse_eq_of_infer?
  rw [bare_plainText hx]
  apply infer?_of_number _ (Double.read?_plain hx) hx
  match x, hx with
  | .finite negative rank, _ =>
    rw [Double.isWord_iff, not_and] at h
    by_cases hwhole : ∃ n : Nat, Double.magnitude rank = n
    · obtain ⟨n, hn, hspells⟩ := Double.spells_plain negative hwhole
      obtain ⟨hlt, hne⟩ := Double.shown_lt_iff hn
      have hlarge := h hwhole
      rw [← hlt] at hlarge
      rw [Text.readInt?_of_spells hspells, Option.bind_some, Text.int64?, if_neg]
      split <;> omega
    · rw [Option.bind_eq_none_iff]
      intro n hn
      exact absurd (Text.spells_of_readInt? hn) (Double.not_spells_plain negative hwhole n)

/-- A word is inferred from its text as a whole number that is rounded onto it. -/
theorem parse_plainText_of_isWord {x : Double} (hx : x.isFinite = true) (h : x.IsWord) :
    ∃ w : Int64, parse x.plainText = .whole w ∧ x.equal (.ofInt w.toInt) = true := by
  match x, hx with
  | .finite negative rank, hx =>
    rw [Double.isWord_iff] at h
    obtain ⟨n, hn, hspells⟩ := Double.spells_plain negative h.1
    have hlt := (Double.shown_lt_iff hn).1.mpr h.2
    have hrank := Double.rankOf_shortest true rank
    rw [hn, Double.rankOf_natCast] at hrank
    have hfits : Text.FitsInt64 (if negative then -(n : Int) else n) := by
      split <;> constructor <;> omega
    obtain ⟨w, hw⟩ : ∃ w, Text.int64? (if negative then -(n : Int) else n) = some w :=
      ⟨_, if_pos hfits⟩
    refine ⟨w, ?_, ?_⟩
    · apply parse_eq_of_infer?
      rw [bare_plainText hx]
      apply infer?_of_whole
      rw [Text.readInt?_of_spells hspells, Option.bind_some, hw]
    · rw [Text.int64?_eq_some.mp hw]
      exact Double.equal_ofInt_of_natRank negative hrank

/-- What a text may be inferred to be.  Only a text that is nothing else keeps its blanks. -/
theorem parse_cases (raw : String) :
    (∃ w, parse raw = .whole w) ∨ (∃ x : Double, parse raw = .number x ∧ x.isFinite = true) ∨
      (∃ b, parse raw = .flag b) ∨ parse raw = .text raw := by
  unfold parse infer?
  split
  · exact Or.inl ⟨_, rfl⟩
  · split
    · rename_i x hnumber
      exact Or.inr (Or.inl ⟨x, rfl, (Option.filter_eq_some_iff.mp hnumber).2⟩)
    · split
      · exact Or.inr (Or.inr (Or.inl ⟨true, rfl⟩))
      · split
        · exact Or.inr (Or.inr (Or.inl ⟨false, rfl⟩))
        · exact Or.inr (Or.inr (Or.inr rfl))

theorem isFinite_of_parse {raw : String} {x : Double} (h : parse raw = .number x) :
    x.isFinite = true := by
  rcases parse_cases raw with ⟨w, hw⟩ | ⟨y, hy, hfinite⟩ | ⟨b, hb⟩ | htext
  · cases hw.symm.trans h
  · rwa [← Argument.number.inj (hy.symm.trans h)]
  · cases hb.symm.trans h
  · cases htext.symm.trans h

theorem parse_int64Text (w : Int64) : parse (Text.int64Text w) = .whole w := by
  have hspells := Text.spells_of_readInt? (Text.readInt?_intDigits w.toInt)
  rw [parse_eq_whole, Text.int64Text, String.toList_ofList, Text.bare_of_not_blank]
  · exact hspells
  · intro c hc
    rcases Text.mem_of_spells hspells hc with rfl | rfl | hdigit
    · rfl
    · rfl
    · exact Text.not_isBlank_of_isDigit hdigit

/-- What is inferred from a text is inferred again from how it is shown, unless it is a number that
is a word.  Such a number comes back as a whole number that is rounded onto it. -/
theorem parse_render_parse (raw : String) :
    (∀ x, parse raw = .number x → x.isFinite = true) ∧
    (parse (render (parse raw)) = parse raw ↔ ∀ x, parse raw = .number x → ¬x.IsWord) ∧
    (∀ x, parse raw = .number x → x.IsWord →
      ∃ w : Int64, parse (render (parse raw)) = .whole w ∧ x.equal (.ofInt w.toInt) = true) := by
  refine ⟨fun x => isFinite_of_parse, ?_, ?_⟩
  · rcases parse_cases raw with ⟨w, hw⟩ | ⟨x, hx, hfinite⟩ | ⟨b, hb⟩ | htext
    · rw [hw]
      exact iff_of_true (parse_int64Text w) (fun x hx => by cases hx)
    · rw [hx]
      by_cases hword : x.IsWord
      · obtain ⟨w, hw, -⟩ := parse_plainText_of_isWord hfinite hword
        refine iff_of_false ?_ (fun h => h x rfl hword)
        rw [render, hw]
        exact fun he => by cases he
      · refine iff_of_true (parse_plainText_of_not_isWord hfinite hword) ?_
        intro y hy
        rwa [← Argument.number.inj hy]
    · rw [hb]
      refine iff_of_true ?_ (fun x hx => by cases hx)
      cases b <;> decide
    · rw [htext]
      exact iff_of_true htext (fun x hx => by cases hx)
  · intro x hx hword
    rw [hx]
    exact parse_plainText_of_isWord (isFinite_of_parse hx) hword

/-- A half is no word, and one with a point is a word and comes back as one without. -/
theorem parse_render_parse_half :
    (∀ x, parse " .5e0 " = .number x → ¬x.IsWord) ∧
    ∃ w : Int64, parse (render (parse "1.0")) = .whole w ∧
      (Double.ofInt 1).equal (.ofInt w.toInt) = true := by
  have hone := Double.ofInt_exact (n := 1) (by decide)
  have hword : (Double.ofInt 1).IsWord := by
    refine ⟨⟨1, hone.2⟩, ?_⟩
    rw [hone.2]
    norm_num
  constructor
  · exact (parse_render_parse " .5e0 ").2.1.mp (by decide +kernel)
  · exact (parse_render_parse "1.0").2.2 (.ofInt 1) (by decide +kernel) hword

/-- One with a point is taken for a number although it is a whole one, and as a number it does not
come back. -/
theorem parse_one_point_zero :
    parse "1.0" = .number (.ofInt 1) ∧ (Double.ofInt 1).value = 1 ∧
    parse (render (parse "1.0")) ≠ parse "1.0" := by
  have hone := (Double.ofInt_exact (n := 1) (by decide)).2
  exact ⟨by decide +kernel, by exact_mod_cast hone, by decide +kernel⟩

end InventoryTokens.Argument
