import InventoryTokens.Double.Basic
import Mathlib.Order.Lattice
import Mathlib.Tactic.Ring

/-!
# Rounding to the nearest double

A larger quotient never gets a smaller rank, and a whole number of up to 53 bits is a double as it
stands.  So the order of two integers is the order of their doubles as soon as one of the two has at
most 53 bits; nothing is said about pairs of larger ones, which may share a double.
-/

namespace InventoryTokens.Double

/-- The binary exponent at which a quotient keeps 53 digits. -/
def scale (num den : Nat) : Nat := (num / den).log2 - 52

/-- A quotient rounded to a whole number, a half to the even one. -/
def halfEven (num step : Nat) : Nat :=
  num / step +
    if step < 2 * (num % step) ∨ (2 * (num % step) = step ∧ num / step % 2 = 1) then 1 else 0

theorem nearestRank_eq (num den : Nat) :
    nearestRank num den = scale num den * binade + halfEven num (den <<< scale num den) := by
  rw [halfEven, ← Nat.add_assoc]
  rfl

theorem halfEven_mono {m n : Nat} (step : Nat) (h : m ≤ n) :
    halfEven m step ≤ halfEven n step := by
  have hq : m / step ≤ n / step := Nat.div_le_div_right h
  have hm := Nat.div_add_mod m step
  have hn := Nat.div_add_mod n step
  unfold halfEven
  rcases Nat.lt_or_eq_of_le hq with hlt | heq
  · split <;> split <;> omega
  · rw [heq] at hm ⊢
    split <;> split <;> omega

theorem le_halfEven (num step : Nat) : num / step ≤ halfEven num step := Nat.le_add_right ..

theorem halfEven_le (num step : Nat) : halfEven num step ≤ num / step + 1 := by
  unfold halfEven
  split <;> omega

/-- A multiple of the step is not rounded. -/
theorem halfEven_mul (q : Nat) {step : Nat} (h : 0 < step) : halfEven (q * step) step = q := by
  rw [halfEven, Nat.mul_div_cancel q h, Nat.mul_mod_left, if_neg (by omega)]
  rfl

/-- At its own scale a quotient has at most 53 binary digits. -/
theorem div_lt_two_binades (num den : Nat) :
    num / (den <<< scale num den) < 2 * binade := by
  rw [Nat.shiftLeft_eq, ← Nat.div_div_eq_div_mul, Nat.div_lt_iff_lt_mul (Nat.two_pow_pos _)]
  have hlog : num / den < 2 ^ ((num / den).log2 + 1) := Nat.lt_log2_self
  have hpow : 2 ^ ((num / den).log2 + 1) ≤ 2 ^ (53 + scale num den) :=
    Nat.pow_le_pow_right (by decide) (by unfold scale; omega)
  calc num / den < 2 ^ (53 + scale num den) := hlog.trans_le hpow
    _ = 2 * binade * 2 ^ scale num den := Nat.pow_add ..

/-- Where the scale is not zero, a quotient has all 53 of them. -/
theorem binade_le_div {num den : Nat} (h : 0 < scale num den) :
    binade ≤ num / (den <<< scale num den) := by
  rw [Nat.shiftLeft_eq, ← Nat.div_div_eq_div_mul, Nat.le_div_iff_mul_le (Nat.two_pow_pos _)]
  have hne : num / den ≠ 0 := by
    intro he
    rw [scale, he, Nat.log2_zero] at h
    omega
  have hlog : 2 ^ (num / den).log2 ≤ num / den := Nat.log2_self_le hne
  have hsum : 52 + scale num den = (num / den).log2 := by unfold scale at h ⊢; omega
  calc binade * 2 ^ scale num den = 2 ^ (52 + scale num den) := by rw [Nat.pow_add]
    _ ≤ num / den := by rw [hsum]; exact hlog

theorem scale_mono {m n : Nat} (den : Nat) (h : m ≤ n) : scale m den ≤ scale n den := by
  have hq : m / den ≤ n / den := Nat.div_le_div_right h
  unfold scale
  by_cases hm : m / den = 0
  · rw [hm, Nat.log2_zero]; omega
  · have hn : n / den ≠ 0 := fun he => hm (Nat.eq_zero_of_le_zero (he ▸ hq))
    have hlog : (m / den).log2 ≤ (n / den).log2 :=
      (Nat.le_log2 hn).mpr ((Nat.log2_self_le hm).trans hq)
    omega

/-- A larger quotient has no smaller rank. -/
theorem nearestRank_mono {m n : Nat} (den : Nat) (h : m ≤ n) :
    nearestRank m den ≤ nearestRank n den := by
  rw [nearestRank_eq, nearestRank_eq]
  rcases Nat.lt_or_eq_of_le (scale_mono den h) with hlt | heq
  · -- The rank stays within two binades above its scale, and the next scale starts there.
    have hm := halfEven_le m (den <<< scale m den)
    have hm' := div_lt_two_binades m den
    have hn := le_halfEven n (den <<< scale n den)
    have hscale : 0 < scale n den := by omega
    have hn' := binade_le_div hscale
    have hstep : (scale m den + 1) * binade ≤ scale n den * binade :=
      Nat.mul_le_mul_right binade hlt
    rw [Nat.add_mul] at hstep
    omega
  · rw [heq]
    have hmono := halfEven_mono (den <<< scale n den) h
    omega

theorem halfEven_mul_right (num step : Nat) {k : Nat} (h : 0 < k) :
    halfEven (num * k) (step * k) = halfEven num step := by
  have htwice : 2 * (num % step * k) = 2 * (num % step) * k := (Nat.mul_assoc ..).symm
  have hlt : step * k < 2 * (num % step) * k ↔ step < 2 * (num % step) := Nat.mul_lt_mul_right h
  have heq : 2 * (num % step) * k = step * k ↔ 2 * (num % step) = step :=
    Nat.mul_right_cancel_iff h
  rw [halfEven, halfEven, Nat.mul_div_mul_right _ _ h, Nat.mul_mod_mul_right, htwice]
  simp only [hlt, heq]

/-- Rounding looks at a quotient, not at how it is written. -/
theorem nearestRank_mul_right (num den : Nat) {k : Nat} (h : 0 < k) :
    nearestRank (num * k) (den * k) = nearestRank num den := by
  have hscale : scale (num * k) (den * k) = scale num den := by
    rw [scale, scale, Nat.mul_div_mul_right _ _ h]
  have hstep : (den * k) <<< scale num den = den <<< scale num den * k := by
    rw [Nat.shiftLeft_eq, Nat.shiftLeft_eq, Nat.mul_right_comm]
  rw [nearestRank_eq, nearestRank_eq, hscale, hstep, halfEven_mul_right _ _ h]

/-- A larger quotient has no smaller rank, whatever the two denominators are. -/
theorem nearestRank_le {num den num' den' : Nat} (hden : 0 < den) (hden' : 0 < den')
    (h : num * den' ≤ num' * den) : nearestRank num den ≤ nearestRank num' den' := by
  rw [← nearestRank_mul_right num den hden', ← nearestRank_mul_right num' den' hden,
    Nat.mul_comm den' den]
  exact nearestRank_mono (den * den') h

/-- The value at a rank that is composed of a scale and 53 binary digits. -/
theorem units_scaled {shift q : Nat} (hlow : shift = 0 ∨ binade ≤ q) (hhigh : q < 2 * binade) :
    units (shift * binade + q) = q <<< shift := by
  unfold units
  rcases Nat.lt_or_ge q binade with hq | hq
  · obtain rfl : shift = 0 := by omega
    rw [Nat.zero_mul, Nat.zero_add, if_pos hq]
    rfl
  · have hsum : shift * binade + q = (q - binade) + binade * (shift + 1) := by
      rw [Nat.mul_add, Nat.mul_comm]
      omega
    have hsmall : q - binade < binade := by omega
    have hdiv : (shift * binade + q) / binade = shift + 1 := by
      rw [hsum, Nat.add_mul_div_left _ _ (by decide), Nat.div_eq_of_lt hsmall, Nat.zero_add]
    have hmod : (shift * binade + q) % binade = q - binade := by
      rw [hsum, Nat.add_mul_mod_self_left, Nat.mod_eq_of_lt hsmall]
    rw [if_neg (by omega), hdiv, hmod, Nat.add_sub_cancel, Nat.add_sub_cancel' hq]

theorem scale_eq_zero {n : Nat} (h : n < binade) : scale n 1 = 0 := by
  rw [scale, Nat.div_one]
  rcases Nat.eq_zero_or_pos n with rfl | hpos
  · rfl
  · have hlog : n.log2 < 52 := (Nat.log2_lt (Nat.ne_of_gt hpos)).mpr h
    omega

theorem scale_shiftLeft {q : Nat} (hlow : binade ≤ q) (hhigh : q < 2 * binade) (s : Nat) :
    scale (q <<< s) 1 = s := by
  have hpos : 0 < 2 ^ s := Nat.two_pow_pos s
  have hne : q * 2 ^ s ≠ 0 := Nat.ne_of_gt (Nat.mul_pos (by omega) hpos)
  have hlog : (q * 2 ^ s).log2 = 52 + s := by
    rw [Nat.log2_eq_iff hne, Nat.add_right_comm, Nat.pow_add, Nat.pow_add]
    exact ⟨Nat.mul_le_mul_right _ hlow, Nat.mul_lt_mul_of_pos_right hhigh hpos⟩
  rw [scale, Nat.div_one, Nat.shiftLeft_eq, hlog]
  omega

/-- The value at a rank is rounded to that rank. -/
theorem nearestRank_units (rank : Nat) : nearestRank (units rank) 1 = rank := by
  rw [nearestRank_eq, units]
  split
  · rename_i hlow
    rw [scale_eq_zero hlow, Nat.zero_mul, Nat.zero_add]
    exact (congrArg (halfEven · 1) (Nat.mul_one rank)).symm.trans (halfEven_mul rank (by decide))
  · rename_i hlow
    have hmod := Nat.mod_lt rank (y := binade) (by decide)
    have hdiv := Nat.div_add_mod rank binade
    have hpos : 0 < rank / binade := Nat.div_pos (by omega) (by decide)
    rw [scale_shiftLeft (by omega) (by omega), Nat.shiftLeft_eq, Nat.shiftLeft_eq, Nat.one_mul,
      halfEven_mul _ (Nat.two_pow_pos _), Nat.sub_mul, Nat.mul_comm]
    have hbase : binade * 1 ≤ binade * (rank / binade) := Nat.mul_le_mul_left binade hpos
    omega

/-- A whole number of units whose digits beyond the 53rd are zeros is not rounded. -/
theorem units_nearestRank {num : Nat} (h : 2 ^ scale num 1 ∣ num) :
    units (nearestRank num 1) = num := by
  have hstep : 1 <<< scale num 1 = 2 ^ scale num 1 := by rw [Nat.shiftLeft_eq, Nat.one_mul]
  have hpos : 0 < 1 <<< scale num 1 := hstep ▸ Nat.two_pow_pos _
  have hnum : num / (1 <<< scale num 1) * (1 <<< scale num 1) = num :=
    Nat.div_mul_cancel (hstep ▸ h)
  have hround : halfEven num (1 <<< scale num 1) = num / (1 <<< scale num 1) := by
    have he := halfEven_mul (num / (1 <<< scale num 1)) hpos
    rwa [hnum] at he
  rw [nearestRank_eq, hround, units_scaled]
  · rw [Nat.shiftLeft_eq, ← hstep, hnum]
  · rcases Nat.eq_zero_or_pos (scale num 1) with hz | hz
    · exact Or.inl hz
    · exact Or.inr (binade_le_div hz)
  · exact div_lt_two_binades num 1

/-- Digits that are shifted beyond 53 places count toward the scale. -/
theorem scale_shifted {n : Nat} (h : n < 2 ^ 53) (k : Nat) : scale (n <<< k) 1 ≤ k := by
  have hlog : (n <<< k).log2 < 53 + k := by
    rw [Nat.shiftLeft_eq]
    rcases Nat.eq_zero_or_pos (n * 2 ^ k) with hz | hz
    · rw [hz, Nat.log2_zero]
      omega
    · rw [Nat.log2_lt (Nat.ne_of_gt hz), Nat.pow_add]
      exact Nat.mul_lt_mul_of_pos_right h (Nat.two_pow_pos k)
  rw [scale, Nat.div_one]
  omega

/-- A shifted number of at most 53 binary digits, or the one after them, is not rounded. -/
theorem units_nearestRank_shifted {n : Nat} (h : n ≤ 2 ^ 53) (k : Nat) :
    units (nearestRank (n <<< k) 1) = n <<< k := by
  apply units_nearestRank
  rcases Nat.lt_or_eq_of_le h with hlt | rfl
  · rw [Nat.shiftLeft_eq n k]
    exact Nat.dvd_mul_left_of_dvd (Nat.pow_dvd_pow 2 (Nat.shiftLeft_eq n k ▸ scale_shifted hlt k)) n
  · rw [Nat.shiftLeft_eq, ← Nat.pow_add, scale, Nat.div_one, Nat.log2_two_pow]
    exact Nat.pow_dvd_pow 2 (by omega)

/-- The rank of a natural number. -/
def natRank (n : Nat) : Nat := nearestRank (n <<< 1074) 1

theorem natRank_mono {m n : Nat} (h : m ≤ n) : natRank m ≤ natRank n := by
  apply nearestRank_mono
  rw [Nat.shiftLeft_eq, Nat.shiftLeft_eq]
  exact Nat.mul_le_mul_right _ h

/-- Up to `2 ^ 53` different numbers have different ranks. -/
theorem natRank_lt {m n : Nat} (hm : m < 2 ^ 53) (h : m < n) : natRank m < natRank n := by
  have hstep : natRank m < natRank (m + 1) := by
    refine Nat.lt_of_le_of_ne (natRank_mono (Nat.le_succ m)) fun he => ?_
    have hunits := congrArg units he
    rw [natRank, natRank, units_nearestRank_shifted (Nat.le_of_lt hm),
      units_nearestRank_shifted (Nat.succ_le_of_lt hm), Nat.shiftLeft_eq,
      Nat.shiftLeft_eq] at hunits
    exact absurd (Nat.eq_of_mul_eq_mul_right (Nat.two_pow_pos _) hunits) (by omega)
  exact hstep.trans_le (natRank_mono h)

/-- A number of at most 53 binary digits is far below the last rank. -/
theorem natRank_lt_rankLimit {n : Nat} (h : n < 2 ^ 53) : natRank n < rankLimit := by
  have hscale : scale (n <<< 1074) 1 * binade ≤ 1074 * binade :=
    Nat.mul_le_mul_right binade (scale_shifted h 1074)
  have hdigits := halfEven_le (n <<< 1074) (1 <<< scale (n <<< 1074) 1)
  have hquotient := div_lt_two_binades (n <<< 1074) 1
  rw [natRank, nearestRank_eq]
  simp only [rankLimit, binade] at *
  omega

/-- Where an integer stands among the doubles, those beyond the last rank taken together. -/
def intOrder (n : Int) : Int :=
  if n < 0 then -(min (natRank n.natAbs) rankLimit : Nat)
  else (min (natRank n.natAbs) rankLimit : Nat)

theorem order?_ofInt (n : Int) : (ofInt n).order? = some (intOrder n) := by
  have hrank : nearestRank (n.natAbs <<< 1074) 1 = natRank n.natAbs := rfl
  simp only [ofInt, ofUnits, hrank]
  split
  · rename_i hlt
    rw [intOrder, Nat.min_eq_left (Nat.le_of_lt hlt)]
    simp only [order?, decide_eq_true_eq]
  · rename_i hge
    rw [intOrder, Nat.min_eq_right (Nat.le_of_not_lt hge)]
    simp only [order?, decide_eq_true_eq]

theorem intOrder_mono {m n : Int} (h : m ≤ n) : intOrder m ≤ intOrder n := by
  unfold intOrder
  split <;> split
  · have hr := natRank_mono (m := n.natAbs) (n := m.natAbs) (by omega)
    omega
  · omega
  · omega
  · have hr := natRank_mono (m := m.natAbs) (n := n.natAbs) (by omega)
    omega

/-- One number of at most 53 binary digits is told from every other. -/
theorem intOrder_lt {m n : Int} (hsmall : m.natAbs < 2 ^ 53 ∨ n.natAbs < 2 ^ 53) (h : m < n) :
    intOrder m < intOrder n := by
  unfold intOrder
  split <;> split
  · have hr := natRank_lt (m := n.natAbs) (n := m.natAbs) (by omega) (by omega)
    have hl := natRank_lt_rankLimit (n := n.natAbs) (by omega)
    omega
  · have hr := natRank_lt (m := 0) (n := m.natAbs) (by decide) (by omega)
    have hl : 0 < rankLimit := by decide
    omega
  · omega
  · have hr := natRank_lt (m := m.natAbs) (n := n.natAbs) (by omega) (by omega)
    have hl := natRank_lt_rankLimit (n := m.natAbs) (by omega)
    omega

/-- Doubles compare as the integers that they stand for, if one has at most 53 binary digits. -/
theorem atMost_ofInt {m n : Int} (hsmall : m.natAbs < 2 ^ 53 ∨ n.natAbs < 2 ^ 53) :
    (ofInt m).atMost (ofInt n) = decide (m ≤ n) := by
  rw [atMost, order?_ofInt, order?_ofInt]
  show decide (intOrder m ≤ intOrder n) = decide (m ≤ n)
  rw [decide_eq_decide]
  constructor
  · intro hle
    by_contra hlt
    have hback := intOrder_lt (m := n) (n := m) hsmall.symm (by omega)
    omega
  · exact intOrder_mono

end InventoryTokens.Double
