import InventoryTokens.Proofs.Double.Decimal
import Mathlib.Tactic.Linarith

/-!
# The nearest double

What rounding gives is nearest to the number, and of two values that are equally near it is the one
at the even rank; no other rank has both properties.  Ranks and their values go on beyond the last
finite double, so a number is rounded to an infinite one exactly if a rank out there is nearest.
-/

namespace InventoryTokens.Double

/-- The value at a rank whose digits may be used up, which is the first rank of the next scale. -/
theorem units_scaled_le {shift q : Nat} (hlow : shift = 0 ∨ binade ≤ q) (hhigh : q ≤ 2 * binade) :
    units (shift * binade + q) = q <<< shift := by
  obtain hlt | rfl := Nat.lt_or_eq_of_le hhigh
  · exact units_scaled hlow hlt
  · have hrank : shift * binade + 2 * binade = (shift + 1) * binade + binade := by ring
    rw [hrank, units_scaled (Or.inr le_rfl) (by decide), Nat.shiftLeft_succ_inside]

/-- A quotient lies between two neighbours, of which it is rounded to the nearer one, and half way
to the even one. -/
theorem nearestRank_cases (num : Nat) {den : Nat} (hden : 0 < den) :
    ∃ rank, units rank * den ≤ num ∧ num < units (rank + 1) * den ∧
      (nearestRank num den = rank ∧
          (2 * num < units rank * den + units (rank + 1) * den ∨
            2 * num = units rank * den + units (rank + 1) * den ∧ rank % 2 = 0) ∨
        nearestRank num den = rank + 1 ∧
          (units rank * den + units (rank + 1) * den < 2 * num ∨
            2 * num = units rank * den + units (rank + 1) * den ∧ rank % 2 = 1)) := by
  have hlow : scale num den = 0 ∨ binade ≤ num / (den <<< scale num den) :=
    (Nat.eq_zero_or_pos _).imp_right binade_le_div
  have hhigh := div_lt_two_binades num den
  have hstep : 0 < den <<< scale num den := by
    rw [Nat.shiftLeft_eq]
    exact Nat.mul_pos hden (Nat.two_pow_pos _)
  have hrounded := nearestRank_eq num den
  have hunits := units_scaled_le hlow hhigh.le
  have hnext := units_scaled_le (hlow.imp_right Nat.le_succ_of_le) (Nat.succ_le_of_lt hhigh)
  have hnum := Nat.div_add_mod num (den <<< scale num den)
  have hrest := Nat.mod_lt num hstep
  unfold halfEven at hrounded
  refine ⟨scale num den * binade + num / (den <<< scale num den), ?_⟩
  have hmul : ∀ q : Nat, q <<< scale num den * den = den <<< scale num den * q := by
    intro q
    rw [Nat.shiftLeft_eq, Nat.shiftLeft_eq]
    ring
  rw [Nat.add_assoc, hunits, hnext, hmul, hmul, Nat.succ_eq_add_one, Nat.mul_add, Nat.mul_one]
  generalize num / (den <<< scale num den) = digits at *
  generalize num % (den <<< scale num den) = rest at *
  generalize den <<< scale num den = step at *
  generalize step * digits = floor at *
  obtain ⟨half, hhalf⟩ : 2 ∣ scale num den * binade := Nat.dvd_mul_left_of_dvd (by decide) _
  split at hrounded <;> omega

/-- A number lies between two neighbouring values, of which it is rounded to the nearer one, and
half way to the one at the even rank. -/
theorem rankOf_cases (q : ℚ≥0) :
    ∃ rank, magnitude rank ≤ q ∧ q < magnitude (rank + 1) ∧
      (rankOf q = rank ∧
          (2 * q < magnitude rank + magnitude (rank + 1) ∨
            2 * q = magnitude rank + magnitude (rank + 1) ∧ rank % 2 = 0) ∨
        rankOf q = rank + 1 ∧
          (magnitude rank + magnitude (rank + 1) < 2 * q ∨
            2 * q = magnitude rank + magnitude (rank + 1) ∧ rank % 2 = 1)) := by
  have hpos : (0 : ℚ≥0) < oneUnits * q.den := by
    have hone : (0 : ℚ≥0) < oneUnits := Nat.cast_pos.mpr oneUnits_pos
    have hden : (0 : ℚ≥0) < q.den := Nat.cast_pos.mpr q.den_pos
    exact mul_pos hone hden
  have hmagnitude : ∀ rank, magnitude rank * (oneUnits * q.den) = (units rank * q.den : Nat) := by
    intro rank
    have hone : (oneUnits : ℚ≥0) ≠ 0 := Nat.cast_ne_zero.mpr oneUnits_pos.ne'
    rw [magnitude, Nat.cast_mul, ← mul_assoc, div_mul_cancel₀ _ hone]
  have hq : q * (oneUnits * q.den) = (q.num * oneUnits : Nat) := by
    have hden : (q.den : ℚ≥0) ≠ 0 := Nat.cast_ne_zero.mpr q.den_pos.ne'
    have hfrac := NNRat.num_div_den q
    rw [div_eq_iff hden] at hfrac
    rw [Nat.cast_mul, hfrac]
    ring
  obtain ⟨rank, hle, hlt, hcases⟩ := nearestRank_cases (q.num <<< 1074) q.den_pos
  have htwice : 2 * q * (oneUnits * q.den) = (2 * (q.num * oneUnits) : Nat) := by
    rw [mul_assoc, hq]
    push_cast
    rfl
  have hsum : (magnitude rank + magnitude (rank + 1)) * (oneUnits * q.den) =
      (units rank * q.den + units (rank + 1) * q.den : Nat) := by
    rw [add_mul, hmagnitude, hmagnitude, Nat.cast_add]
  rw [shiftLeft_units] at hle hlt hcases
  refine ⟨rank, ?_, ?_, ?_⟩
  · rw [← mul_le_mul_iff_of_pos_right hpos, hmagnitude, hq, Nat.cast_le]
    exact hle
  · rw [← mul_lt_mul_iff_of_pos_right hpos, hmagnitude, hq, Nat.cast_lt]
    exact hlt
  · rw [rankOf, shiftLeft_units, ← mul_lt_mul_iff_of_pos_right hpos,
      ← mul_lt_mul_iff_of_pos_right (b := magnitude rank + _) hpos,
      ← mul_left_inj' hpos.ne', htwice, hsum, Nat.cast_lt, Nat.cast_lt, Nat.cast_inj]
    exact hcases

/-- How far the value at a rank is from a number. -/
def distance (q : ℚ≥0) (rank : Nat) : ℚ := |(magnitude rank : ℚ) - q|

theorem distance_of_le {q : ℚ≥0} {rank : Nat} (h : magnitude rank ≤ q) :
    distance q rank = q - magnitude rank := by
  rw [distance, abs_of_nonpos (sub_nonpos.mpr (NNRat.coe_le_coe.mpr h)), neg_sub]

theorem distance_of_ge {q : ℚ≥0} {rank : Nat} (h : q ≤ magnitude rank) :
    distance q rank = magnitude rank - q := by
  rw [distance, abs_of_nonneg (sub_nonneg.mpr (NNRat.coe_le_coe.mpr h))]

/-- No value is nearer to a number, and if another one is as near, the rank is even. -/
structure IsNearest (q : ℚ≥0) (rank : Nat) : Prop where
  least : ∀ other, distance q rank ≤ distance q other
  even : ∀ other, other ≠ rank → distance q other = distance q rank → rank % 2 = 0

/-- Every value but the two next to a number is farther away than one of them. -/
theorem distance_lt {q : ℚ≥0} {rank : Nat} (hle : magnitude rank ≤ q)
    (hlt : q < magnitude (rank + 1)) (other : Nat) :
    other = rank ∨ other = rank + 1 ∨ distance q rank < distance q other ∨
      distance q (rank + 1) < distance q other := by
  obtain hless | rfl | hmore := Nat.lt_trichotomy other rank
  · have hvalue := magnitude_strictMono hless
    have hfar : (magnitude other : ℚ) < magnitude rank := NNRat.coe_lt_coe.mpr hvalue
    rw [distance_of_le hle, distance_of_le (hvalue.le.trans hle)]
    exact Or.inr (Or.inr (Or.inl (sub_lt_sub_left hfar _)))
  · exact Or.inl rfl
  · obtain rfl | hmore := Nat.eq_or_lt_of_le (Nat.succ_le_of_lt hmore)
    · exact Or.inr (Or.inl rfl)
    · have hvalue := magnitude_strictMono hmore
      have hfar : (magnitude (rank + 1) : ℚ) < magnitude other := NNRat.coe_lt_coe.mpr hvalue
      rw [distance_of_ge hlt.le, distance_of_ge (hlt.le.trans hvalue.le)]
      exact Or.inr (Or.inr (Or.inr (sub_lt_sub_right hfar _)))

/-- The nearer of two neighbours is nearest, if all others are farther away than one of them. -/
theorem isNearest_of_neighbours {q : ℚ≥0} {near far : Nat}
    (hnear : distance q near < distance q far ∨
      distance q near = distance q far ∧ near % 2 = 0)
    (hothers : ∀ other, other = near ∨ other = far ∨ distance q near < distance q other ∨
      distance q far < distance q other) : IsNearest q near := by
  have hle : distance q near ≤ distance q far := hnear.elim le_of_lt fun h => h.1.le
  have hfarther : ∀ other, other = near ∨ other = far ∨ distance q near < distance q other := by
    intro other
    obtain h | h | h | h := hothers other
    · exact Or.inl h
    · exact Or.inr (Or.inl h)
    · exact Or.inr (Or.inr h)
    · exact Or.inr (Or.inr (hle.trans_lt h))
  constructor
  · intro other
    obtain rfl | rfl | h := hfarther other
    · exact le_rfl
    · exact hle
    · exact h.le
  · intro other hne htie
    obtain rfl | rfl | h := hfarther other
    · exact absurd rfl hne
    · exact hnear.elim (fun h => absurd htie h.ne') fun h => h.2
    · exact absurd htie h.ne'

/-- Rounding gives a nearest rank. -/
theorem isNearest_rankOf (q : ℚ≥0) : IsNearest q (rankOf q) := by
  obtain ⟨rank, hle, hlt, hcases⟩ := rankOf_cases q
  have hbelow := distance_of_le hle
  have habove := distance_of_ge hlt.le
  simp only [← NNRat.coe_lt_coe, ← NNRat.coe_inj] at hcases
  push_cast at hcases
  obtain ⟨hrank, hnear⟩ | ⟨hrank, hnear⟩ := hcases
  · have hdistance : distance q rank < distance q (rank + 1) ∨
        distance q rank = distance q (rank + 1) ∧ rank % 2 = 0 := by
      rw [hbelow, habove]
      exact hnear.imp (fun h => by linarith) (fun h => ⟨by linarith, h.2⟩)
    rw [hrank]
    exact isNearest_of_neighbours hdistance (distance_lt hle hlt)
  · have hdistance : distance q (rank + 1) < distance q rank ∨
        distance q (rank + 1) = distance q rank ∧ (rank + 1) % 2 = 0 := by
      rw [hbelow, habove]
      exact hnear.imp (fun h => by linarith) (fun h => ⟨by linarith, by omega⟩)
    rw [hrank]
    refine isNearest_of_neighbours hdistance fun other => ?_
    obtain h | h | h | h := distance_lt hle hlt other
    · exact Or.inr (Or.inl h)
    · exact Or.inl h
    · exact Or.inr (Or.inr (Or.inr h))
    · exact Or.inr (Or.inr (Or.inl h))

/-- Between two equally near values of even rank there is one that is nearer. -/
theorem IsNearest.le {q : ℚ≥0} {r s : Nat} (hr : IsNearest q r) (hs : IsNearest q s) : s ≤ r := by
  by_contra hlt
  rw [not_le] at hlt
  have htie := le_antisymm (hr.least s) (hs.least r)
  have hreven := hr.even s hlt.ne' htie.symm
  have hseven := hs.even r hlt.ne htie
  have hlow : (magnitude r : ℚ) < magnitude (r + 1) :=
    NNRat.coe_lt_coe.mpr (magnitude_strictMono (Nat.lt_succ_self r))
  have hhigh : (magnitude (r + 1) : ℚ) < magnitude s :=
    NNRat.coe_lt_coe.mpr (magnitude_strictMono (by omega))
  have hmiddle := hr.least (r + 1)
  unfold distance at htie hmiddle
  obtain heq | hopposite := abs_eq_abs.mp htie
  · linarith
  · rw [abs_of_neg (by linarith), le_abs] at hmiddle
    obtain h | h := hmiddle <;> linarith

theorem isNearest_iff {q : ℚ≥0} {rank : Nat} : IsNearest q rank ↔ rank = rankOf q := by
  constructor
  · intro h
    exact le_antisymm ((isNearest_rankOf q).le h) (h.le (isNearest_rankOf q))
  · intro h
    rw [h]
    exact isNearest_rankOf q

/-- Plus or minus a number is rounded to a double: the finite one at the nearest rank, or the
infinite one if that rank is beyond the last. -/
inductive Rounds (negative : Bool) (q : ℚ≥0) : Double → Prop
  | finite {rank : Rank} (nearest : IsNearest q rank) : Rounds negative q (.finite negative rank)
  | infinite {rank : Nat} (beyond : rankLimit ≤ rank) (nearest : IsNearest q rank) :
    Rounds negative q (.infinite negative)

theorem rounds_iff {negative : Bool} {q : ℚ≥0} {x : Double} :
    Rounds negative q x ↔ x = nearest negative q := by
  constructor
  · intro h
    cases h with
    | finite h => exact (nearest_of_rankOf (isNearest_iff.mp h).symm).symm
    | infinite beyond h =>
      rw [isNearest_iff.mp h] at beyond
      rw [nearest, dif_neg (not_lt.mpr beyond)]
  · intro h
    rw [h, nearest]
    split
    case isTrue => exact .finite (isNearest_rankOf q)
    case isFalse hbeyond => exact .infinite (not_lt.mp hbeyond) (isNearest_rankOf q)

end InventoryTokens.Double
