import InventoryTokens.Proofs.Double.Rounding
import Mathlib.Algebra.Order.Field.Basic
import Mathlib.Algebra.Order.Field.Rat
import Mathlib.Data.NNRat.Lemmas
import Mathlib.Tactic.Positivity

/-!
# The exact value of a double

A finite double stands for one rational number, and rounding takes every rational number to the rank
that is nearest to it.  An integer compares with a finite double as the exact numbers do, except
that it may be rounded onto the double.  Nothing is said about values that are not finite.
-/

namespace InventoryTokens.Double

/-- The number of units in one. -/
def oneUnits : Nat := 1 <<< 1074

theorem oneUnits_pos : 0 < oneUnits := by decide

theorem shiftLeft_units (n : Nat) : n <<< 1074 = n * oneUnits := by
  have h : ∀ k, n <<< k = n * 1 <<< k := fun k => by
    rw [Nat.shiftLeft_eq, Nat.shiftLeft_eq, Nat.one_mul]
  exact h 1074

/-- The value at a rank. -/
def magnitude (rank : Nat) : ℚ≥0 := units rank / oneUnits

/-- Whole numbers are the values of so many units. -/
theorem magnitude_eq_natCast_iff {rank n : Nat} :
    magnitude rank = n ↔ units rank = n * oneUnits := by
  rw [magnitude, div_eq_iff (Nat.cast_ne_zero.mpr oneUnits_pos.ne'), ← Nat.cast_mul, Nat.cast_inj]

/-- The rank nearest to a number, a half to the even rank. -/
def rankOf (q : ℚ≥0) : Nat := nearestRank (q.num <<< 1074) q.den

/-- Any fraction for a number has its rank. -/
theorem nearestRank_fraction (num : Nat) {den : Nat} (h : 0 < den) :
    nearestRank (num <<< 1074) den = rankOf (num / den) := by
  have hden := NNRat.den_pos (num / den : ℚ≥0)
  have hcross : (num / den : ℚ≥0).num * den = num * (num / den : ℚ≥0).den := by
    have hfrac := NNRat.num_div_den (num / den : ℚ≥0)
    rw [div_eq_div_iff (by positivity) (by positivity)] at hfrac
    exact_mod_cast hfrac
  simp only [rankOf, shiftLeft_units]
  apply Nat.le_antisymm
  · apply nearestRank_le h hden
    rw [Nat.mul_right_comm, ← hcross, Nat.mul_right_comm]
  · apply nearestRank_le hden h
    rw [Nat.mul_right_comm, hcross, Nat.mul_right_comm]

theorem rankOf_mono {p q : ℚ≥0} (h : p ≤ q) : rankOf p ≤ rankOf q := by
  apply nearestRank_le p.den_pos q.den_pos
  rw [shiftLeft_units, shiftLeft_units, Nat.mul_right_comm, Nat.mul_right_comm q.num]
  exact Nat.mul_le_mul_right _ (NNRat.le_def.mp h)

theorem rankOf_natCast (n : Nat) : rankOf n = natRank n := by
  have h := nearestRank_fraction n Nat.one_pos
  rw [Nat.cast_one, div_one] at h
  exact h.symm

/-- The value at a rank has that rank. -/
theorem rankOf_magnitude (rank : Nat) : rankOf (magnitude rank) = rank := by
  have hscaled := nearestRank_mul_right (units rank) 1 oneUnits_pos
  rw [Nat.one_mul, nearestRank_units] at hscaled
  rw [magnitude, ← nearestRank_fraction _ oneUnits_pos, shiftLeft_units]
  exact hscaled

theorem magnitude_strictMono : StrictMono magnitude := by
  intro r s hlt
  by_contra hle
  have hback := rankOf_mono (not_lt.mp hle)
  rw [rankOf_magnitude, rankOf_magnitude] at hback
  omega

theorem magnitude_zero : magnitude 0 = 0 := by
  rw [magnitude, units, if_pos (by decide), Nat.cast_zero, zero_div]

/-- A number of at most 53 binary digits, or the one after them, is the value at its rank. -/
theorem magnitude_natRank {n : Nat} (h : n ≤ 2 ^ 53) : magnitude (natRank n) = n := by
  rw [magnitude_eq_natCast_iff, natRank, units_nearestRank_shifted h, shiftLeft_units]

theorem rankOf_zero : rankOf 0 = 0 := by
  rw [← magnitude_zero, rankOf_magnitude]

/-- Values from `2 ^ 52` on are whole numbers. -/
theorem exists_whole_of_le {rank : Nat} (h : 1075 * binade ≤ rank) :
    ∃ n : Nat, magnitude rank = n := by
  obtain ⟨j, hj⟩ : ∃ j, rank / binade - 1 = j + 1074 := by
    have hdiv : 1075 ≤ rank / binade := (Nat.le_div_iff_mul_le (by decide)).mpr h
    exact ⟨rank / binade - 1 - 1074, by omega⟩
  refine ⟨(binade + rank % binade) <<< j, magnitude_eq_natCast_iff.mpr ?_⟩
  rw [units, if_neg (by omega), hj, Nat.shiftLeft_add, shiftLeft_units]

/-- A whole number is rounded to a whole number. -/
theorem exists_whole_natRank (n : Nat) : ∃ m : Nat, magnitude (natRank n) = m := by
  rcases Nat.le_total n (2 ^ 53) with hle | hge
  · exact ⟨n, magnitude_natRank hle⟩
  · apply exists_whole_of_le
    have hfirst : natRank (2 ^ 52) = 1075 * binade := by decide +kernel
    rw [← hfirst]
    exact natRank_mono ((Nat.pow_le_pow_right (by decide) (by decide)).trans hge)

/-- The number that a finite double stands for. -/
def value : Double → ℚ
  | .finite true rank => -(magnitude rank : ℚ)
  | .finite false rank => magnitude rank
  | _ => 0

/-- The signed rank nearest to a number, those beyond the last rank taken together. -/
def orderOf (q : ℚ) : Int :=
  if q < 0 then -(min (rankOf q.nnabs) rankLimit : Nat) else (min (rankOf q.nnabs) rankLimit : Nat)

theorem orderOf_mono {p q : ℚ} (h : p ≤ q) : orderOf p ≤ orderOf q := by
  unfold orderOf
  split <;> split
  · rename_i hp hq
    have hr : rankOf q.nnabs ≤ rankOf p.nnabs := by
      apply rankOf_mono
      rw [← NNRat.coe_le_coe, Rat.coe_nnabs, Rat.coe_nnabs, abs_of_neg hp, abs_of_neg hq]
      exact neg_le_neg h
    omega
  · omega
  · rename_i hp hq
    exact absurd (h.trans_lt hq) hp
  · rename_i hp hq
    have hr : rankOf p.nnabs ≤ rankOf q.nnabs := by
      apply rankOf_mono
      rw [← NNRat.coe_le_coe, Rat.coe_nnabs, Rat.coe_nnabs, abs_of_nonneg (not_lt.mp hp),
        abs_of_nonneg (not_lt.mp hq)]
      exact h
    omega

/-- Rounding keeps the order, but numbers in either order may be rounded onto one rank. -/
theorem orderOf_le_iff {p q : ℚ} : orderOf p ≤ orderOf q ↔ p ≤ q ∨ orderOf p = orderOf q := by
  constructor
  · intro hle
    by_cases hpq : p ≤ q
    · exact Or.inl hpq
    · exact Or.inr (le_antisymm hle (orderOf_mono (not_le.mp hpq).le))
  · intro h
    exact h.elim orderOf_mono le_of_eq

theorem orderOf_intCast (n : Int) : orderOf n = intOrder n := by
  have habs : (n : ℚ).nnabs = (n.natAbs : ℚ≥0) := by
    apply NNRat.coe_injective
    rw [Rat.coe_nnabs, NNRat.coe_natCast, Nat.cast_natAbs, Int.cast_abs]
  rw [orderOf, intOrder, habs, rankOf_natCast]
  simp only [Int.cast_lt_zero]

theorem nnabs_coe (q : ℚ≥0) : (q : ℚ).nnabs = q := by
  apply NNRat.coe_injective
  rw [Rat.coe_nnabs, abs_of_nonneg q.coe_nonneg]

theorem nnabs_neg_coe (q : ℚ≥0) : (-(q : ℚ)).nnabs = q := by
  apply NNRat.coe_injective
  rw [Rat.coe_nnabs, abs_neg, abs_of_nonneg q.coe_nonneg]

/-- Finite doubles are in the order of their values. -/
theorem order?_eq {x : Double} (h : x.isFinite = true) : x.order? = some (orderOf x.value) := by
  match x, h with
  | .finite false rank, _ =>
    have hpos : ¬(magnitude rank : ℚ) < 0 := not_lt.mpr (NNRat.coe_nonneg _)
    rw [value, orderOf, if_neg hpos, nnabs_coe, rankOf_magnitude, Nat.min_eq_left rank.isLt.le]
    rfl
  | .finite true rank, _ =>
    rw [value, orderOf, nnabs_neg_coe, rankOf_magnitude, Nat.min_eq_left rank.isLt.le]
    split
    · rfl
    · rename_i hneg
      have hzero : magnitude rank = magnitude 0 := by
        rw [neg_lt_zero, not_lt] at hneg
        rw [magnitude_zero]
        exact le_antisymm (by exact_mod_cast hneg) zero_le
      have hrank : rank.val = 0 := magnitude_strictMono.injective hzero
      simp only [order?, hrank]
      rfl

/-- The order of a finite double gives its value back. -/
theorem value_of_order? {x : Double} {r : Int} (hx : x.isFinite = true) (h : x.order? = some r) :
    x.value = if r < 0 then -(magnitude r.natAbs : ℚ) else magnitude r.natAbs := by
  match x, hx with
  | .finite false rank, _ =>
    obtain rfl : (rank.val : Int) = r := by simpa [order?] using h
    rw [if_neg (by omega), Int.natAbs_natCast]
    rfl
  | .finite true rank, _ =>
    obtain rfl : -(rank.val : Int) = r := by simpa [order?] using h
    rw [Int.natAbs_neg, Int.natAbs_natCast, value]
    split
    · rfl
    · rename_i hzero
      obtain hrank : rank.val = 0 := by omega
      rw [hrank, magnitude_zero]
      rfl

/-- Finite doubles of one order have one value. -/
theorem value_eq_of_orderOf {x y : Double} (hx : x.isFinite = true) (hy : y.isFinite = true)
    (h : orderOf x.value = orderOf y.value) : x.value = y.value := by
  rw [value_of_order? hx (order?_eq hx), value_of_order? hy (order?_eq hy), h]

theorem atMost_eq {x y : Double} {a b : Int} (hx : x.order? = some a) (hy : y.order? = some b) :
    x.atMost y = decide (a ≤ b) := by
  rw [atMost, hx, hy]

theorem equal_eq {x y : Double} {a b : Int} (hx : x.order? = some a) (hy : y.order? = some b) :
    x.equal y = decide (a = b) := by
  rw [equal, hx, hy]

/-- An integer is at least a double exactly if its value is, or if it is rounded onto the double. -/
theorem atMost_ofInt_iff {x : Double} (hx : x.isFinite = true) (n : Int) :
    x.atMost (.ofInt n) = true ↔ x.value ≤ n ∨ x.equal (.ofInt n) = true := by
  rw [atMost_eq (order?_eq hx) (order?_ofInt n), equal_eq (order?_eq hx) (order?_ofInt n),
    decide_eq_true_eq, decide_eq_true_eq, ← orderOf_intCast]
  exact orderOf_le_iff

theorem ofInt_atMost_iff {x : Double} (hx : x.isFinite = true) (n : Int) :
    (ofInt n).atMost x = true ↔ n ≤ x.value ∨ x.equal (.ofInt n) = true := by
  rw [atMost_eq (order?_ofInt n) (order?_eq hx), equal_eq (order?_eq hx) (order?_ofInt n),
    decide_eq_true_eq, decide_eq_true_eq, ← orderOf_intCast, orderOf_le_iff]
  exact or_congr_right eq_comm

theorem abs_value {x : Double} {r : Int} (hx : x.isFinite = true) (h : x.order? = some r) :
    |x.value| = magnitude r.natAbs := by
  rw [value_of_order? hx h]
  split
  · rw [abs_neg, abs_of_nonneg (NNRat.coe_nonneg _)]
  · exact abs_of_nonneg (NNRat.coe_nonneg _)

theorem natRank_lt_rankLimit_of_le {n : Nat} (h : n ≤ 2 ^ 53) : natRank n < rankLimit :=
  (natRank_mono h).trans_lt (by decide +kernel)

/-- An integer of at most 53 binary digits, or the one after them, is a double. -/
theorem ofInt_exact {n : Int} (h : n.natAbs ≤ 2 ^ 53) :
    (ofInt n).isFinite = true ∧ (ofInt n).value = n := by
  have hrank : nearestRank (n.natAbs <<< 1074) 1 = natRank n.natAbs := rfl
  have hmagnitude := magnitude_natRank h
  simp only [ofInt, ofUnits, hrank, dif_pos (natRank_lt_rankLimit_of_le h)]
  refine ⟨rfl, ?_⟩
  rcases lt_or_ge n 0 with hneg | hpos
  · rw [decide_eq_true hneg, value, hmagnitude, NNRat.coe_natCast, Nat.cast_natAbs,
      abs_of_neg hneg, Int.cast_neg, neg_neg]
  · rw [decide_eq_false (not_lt.mpr hpos), value, hmagnitude, NNRat.coe_natCast, Nat.cast_natAbs,
      abs_of_nonneg hpos]

/-- An integer that is rounded onto a double is its value, if either is small. -/
theorem value_eq_of_equal_ofInt {x : Double} {n : Int} (hx : x.isFinite = true)
    (h : x.equal (.ofInt n) = true) (hsmall : n.natAbs ≤ 2 ^ 53 ∨ |x.value| < 2 ^ 53) :
    x.value = n := by
  rw [equal_eq (order?_eq hx) (order?_ofInt n), decide_eq_true_eq] at h
  have hn : n.natAbs ≤ 2 ^ 53 := by
    apply hsmall.elim id
    intro hvalue
    by_contra hlarge
    -- An integer beyond the limit has at least the rank of the limit.
    have hrank : natRank (2 ^ 53) ≤ (orderOf x.value).natAbs := by
      have hmono := natRank_mono (not_le.mp hlarge).le
      have htop := natRank_lt_rankLimit_of_le (le_refl (2 ^ 53))
      rw [h, intOrder]
      split <;> omega
    have hmagnitude := magnitude_strictMono.monotone hrank
    rw [magnitude_natRank (le_refl _), ← NNRat.coe_le_coe,
      ← abs_value hx (order?_eq hx)] at hmagnitude
    push_cast at hmagnitude
    exact absurd hvalue (not_lt.mpr hmagnitude)
  obtain ⟨hfinite, hvalue⟩ := ofInt_exact hn
  rw [← orderOf_intCast, ← hvalue] at h
  rw [← hvalue]
  exact value_eq_of_orderOf hx hfinite h

end InventoryTokens.Double
