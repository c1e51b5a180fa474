import InventoryTokens.Double.Decimal
import InventoryTokens.Proofs.Double.Value
import Mathlib.Tactic.Ring

/-!
# Decimal numbers and the doubles nearest to them

The double of a decimal number depends on its value alone, so the digits and the exponent may be
moved against each other.  The cut-offs for very large and very small exponents change nothing.
-/

namespace InventoryTokens.Double

theorem tenTo_eq (n : Nat) : tenTo n = 10 ^ n := rfl

theorem tenTo_pos (n : Nat) : 0 < tenTo n := Nat.pow_pos (by decide)

theorem tenTo_le {m n : Nat} (h : m ≤ n) : tenTo m ≤ tenTo n := Nat.pow_le_pow_right (by decide) h

theorem tenTo_add (m n : Nat) : tenTo (m + n) = tenTo m * tenTo n := Nat.pow_add ..

end InventoryTokens.Double

namespace InventoryTokens.Decimal

open Double (tenTo tenTo_eq)

/-- The number that a decimal stands for. -/
def value (d : Decimal) : ℚ≥0 := d.digits * 10 ^ d.exponent

theorem value_ofNat (n k : Nat) : (⟨n, k⟩ : Decimal).value = (n * tenTo k : Nat) := by
  rw [value, zpow_natCast, tenTo_eq]
  push_cast
  rfl

theorem value_neg (n k : Nat) : (⟨n, -k⟩ : Decimal).value = n / tenTo k := by
  rw [value, zpow_neg, zpow_natCast, ← div_eq_mul_inv, tenTo_eq]
  push_cast
  rfl

theorem value_of_nonneg {d : Decimal} (h : 0 ≤ d.exponent) :
    d.value = (d.digits * tenTo d.exponent.toNat : Nat) := by
  rw [← value_ofNat, Int.toNat_of_nonneg h]

theorem value_of_nonpos {d : Decimal} (h : d.exponent ≤ 0) :
    d.value = d.digits / tenTo (-d.exponent).toNat := by
  rw [← value_neg, Int.toNat_of_nonneg (by omega), Int.neg_neg]

/-- A decimal is at least as large as its power of ten. -/
theorem tenTo_le_value {d : Decimal} {k : Nat} (hne : d.digits ≠ 0) (h : k ≤ d.exponent) :
    tenTo k ≤ d.value := by
  rw [value_of_nonneg (by omega), Nat.cast_le]
  calc tenTo k ≤ tenTo d.exponent.toNat := Double.tenTo_le (by omega)
    _ ≤ d.digits * tenTo d.exponent.toNat := Nat.le_mul_of_pos_left _ (Nat.pos_of_ne_zero hne)

/-- A decimal has no more digits before the point than its digits in binary allow. -/
theorem value_le_of_log2 {d : Decimal} {k : Nat} (h : d.exponent + d.digits.log2 + 1 ≤ -k) :
    d.value ≤ (1 : Nat) / tenTo k := by
  have hpos : ∀ n, (0 : ℚ≥0) < tenTo n := fun n => Nat.cast_pos.mpr (Double.tenTo_pos n)
  have hlog : d.digits < 2 ^ (d.digits.log2 + 1) := Nat.lt_log2_self
  have hten : 2 ^ (d.digits.log2 + 1) ≤ tenTo (d.digits.log2 + 1) :=
    Nat.pow_le_pow_left (by decide) _
  rw [value_of_nonpos (by omega), div_le_div_iff₀ (hpos _) (hpos k), ← Nat.cast_mul,
    ← Nat.cast_mul, Nat.cast_le, Nat.one_mul]
  calc d.digits * tenTo k ≤ tenTo (d.digits.log2 + 1) * tenTo k :=
        Nat.mul_le_mul_right _ (hlog.le.trans hten)
    _ = tenTo (d.digits.log2 + 1 + k) := (Double.tenTo_add ..).symm
    _ ≤ tenTo (-d.exponent).toNat := Double.tenTo_le (by omega)

/-- Dropping zeros at the end of the digits keeps the number. -/
theorem value_trimZeros (d : Decimal) : d.trimZeros.value = d.value := by
  fun_induction trimZeros d with
  | case1 d h ih =>
    have hten : (10 : ℚ≥0) ≠ 0 := by norm_num
    have hdigits : (d.digits : ℚ≥0) = (d.digits / 10 : Nat) * 10 := by
      exact_mod_cast (Nat.div_mul_cancel (Nat.dvd_of_mod_eq_zero h.2)).symm
    rw [ih, value, value, zpow_add_one₀ hten, hdigits]
    ring
  | case2 d h => rfl

/-- A decimal without zeros at the end of its digits has no digit after the point, if it is a whole
number. -/
theorem exponent_nonneg_of_whole {d : Decimal} {n : Nat} (h : d.value = n)
    (htrim : ¬(d.digits ≠ 0 ∧ d.digits % 10 = 0)) : d.digits = 0 ∨ 0 ≤ d.exponent := by
  by_contra hneg
  obtain ⟨hne, hexp⟩ := not_or.mp hneg
  obtain ⟨k, hk⟩ : ∃ k : Nat, d.exponent = -((k + 1 : Nat) : Int) :=
    ⟨(-d.exponent).toNat - 1, by omega⟩
  have hvalue : (d.digits : ℚ≥0) / tenTo (k + 1) = n := by
    rw [← value_neg, ← hk]
    exact h
  have hdigits : d.digits = n * tenTo (k + 1) := by
    rw [div_eq_iff (Nat.cast_ne_zero.mpr (Double.tenTo_pos _).ne')] at hvalue
    exact_mod_cast hvalue
  apply htrim
  refine ⟨hne, ?_⟩
  rw [hdigits, tenTo_eq, Nat.pow_succ, ← Nat.mul_assoc]
  exact Nat.mul_mod_left _ 10

theorem trimmed_trimZeros (d : Decimal) :
    ¬(d.trimZeros.digits ≠ 0 ∧ d.trimZeros.digits % 10 = 0) := by
  fun_induction trimZeros d with
  | case1 d h ih => exact ih
  | case2 d h => exact h

end InventoryTokens.Decimal

namespace InventoryTokens.Double

/-- The double nearest to plus or minus a number. -/
def nearest (negative : Bool) (q : ℚ≥0) : Double :=
  if h : rankOf q < rankLimit then .finite negative ⟨rankOf q, h⟩ else .infinite negative

theorem ofUnits_fraction (negative : Bool) (num : Nat) {den : Nat} (h : 0 < den) :
    ofUnits negative (num <<< 1074) den = nearest negative (num / den) := by
  simp only [ofUnits, nearest, nearestRank_fraction num h]

theorem nearest_of_rankOf {negative : Bool} {q : ℚ≥0} {rank : Rank} (h : rankOf q = rank) :
    nearest negative q = .finite negative rank := by
  have hlt : rankOf q < rankLimit := h ▸ rank.isLt
  rw [nearest, dif_pos hlt]
  exact congrArg (Double.finite negative) (Fin.ext h)

theorem nearest_of_rankOf_eq_zero {negative : Bool} {q : ℚ≥0} (h : rankOf q = 0) :
    nearest negative q = zero negative :=
  nearest_of_rankOf h

theorem rankOf_of_nearest {negative : Bool} {q : ℚ≥0} {rank : Rank}
    (h : nearest negative q = .finite negative rank) : rankOf q = rank := by
  obtain ⟨rank, hrank⟩ := rank
  rw [nearest] at h
  split at h
  · simp only [Double.finite.injEq, Fin.mk.injEq, true_and] at h
    exact h
  · cases h

/-- A number of at least `10 ^ 400` is beyond the last rank. -/
theorem nearest_huge (negative : Bool) {q : ℚ≥0} (h : tenTo 400 ≤ q) :
    nearest negative q = .infinite negative := by
  have htop : rankLimit ≤ natRank (tenTo 400) := by decide +kernel
  have hrank := rankOf_mono h
  rw [rankOf_natCast] at hrank
  exact dif_neg (not_lt.mpr (htop.trans hrank))

/-- A number below `10 ^ -400` is nearest to zero. -/
theorem nearest_tiny (negative : Bool) {q : ℚ≥0} (h : q ≤ (1 : Nat) / tenTo 400) :
    nearest negative q = zero negative := by
  have hbottom : nearestRank (1 <<< 1074) (tenTo 400) = 0 := by decide +kernel
  have hrank := rankOf_mono h
  rw [← nearestRank_fraction 1 (tenTo_pos 400), hbottom] at hrank
  exact nearest_of_rankOf_eq_zero (Nat.le_zero.mp hrank)

/-- The double of a decimal number depends on its value alone. -/
theorem ofDecimal_eq (negative : Bool) (d : Decimal) :
    ofDecimal negative d = nearest negative d.value := by
  unfold ofDecimal
  split
  case isTrue hzero =>
    rw [Decimal.value, hzero, Nat.cast_zero, zero_mul]
    exact (nearest_of_rankOf_eq_zero rankOf_zero).symm
  case isFalse hne =>
    split
    case isTrue hhuge => exact (nearest_huge negative (Decimal.tenTo_le_value hne hhuge)).symm
    case isFalse =>
      split
      case isTrue htiny => exact (nearest_tiny negative (Decimal.value_le_of_log2 htiny)).symm
      case isFalse =>
        -- Between the cut-offs the fraction is computed, with the power of ten on either side.
        split
        case isTrue hexp =>
          rw [ofUnits_fraction negative _ Nat.one_pos, Nat.cast_one, div_one,
            Decimal.value_of_nonneg hexp]
        case isFalse hexp =>
          rw [ofUnits_fraction negative _ (tenTo_pos _), Decimal.value_of_nonpos (by omega)]

end InventoryTokens.Double
