import InventoryTokens.Proofs.Json.Numbers

/-!
# Whole numbers kept

A double that is a whole number is written in digits, with a zero after the point.  Up to a tenth of
`2 ^ 53` the digits and that zero are exact when they are scaled, and so is the quotient by ten: the
number is read back.
-/

namespace InventoryTokens.Double

open Text (natDigits)

/-- A whole number of at most 15 digits is written in digits with a zero after the point. -/
theorem tagged?_whole (negative : Bool) {rank : Rank} {n : Nat} (h : natRank n = rank)
    (hn : n < 10 ^ 15) :
    (Double.finite negative rank).tagged? =
      some (signChars negative ++ (natDigits n ++ ['.', '0'])) := by
  have hvalue := value_shortest_of_natRank false (hn.trans (by decide)) h
  have htrim := trimmed_shortest false rank
  simp only [tagged?]
  generalize shortest false rank = d at hvalue htrim
  by_cases hzero : d.digits = 0
  · obtain rfl : n = 0 := by
      rw [Decimal.value, hzero, Nat.cast_zero, zero_mul] at hvalue
      exact_mod_cast hvalue.symm
    rw [if_pos hzero]
    rfl
  · have hexp := (Decimal.exponent_nonneg_of_whole hvalue htrim).resolve_left hzero
    have hdigits : d.digits * tenTo d.exponent.toNat = n := by
      rw [Decimal.value_of_nonneg hexp] at hvalue
      exact_mod_cast hvalue
    have htext : natDigits n = natDigits d.digits ++ List.replicate d.exponent.toNat '0' := by
      rw [← hdigits]
      exact toDigits_tenTo (Nat.pos_of_ne_zero hzero) _
    have hlength : (natDigits n).length ≤ 15 :=
      (Nat.length_toDigits_le_iff (by decide) (by decide)).mpr hn
    rw [htext, List.length_append, List.length_replicate] at hlength
    have hlarge : ¬(d.exponent + (natDigits d.digits).length - 1 < -5 ∨
        16 ≤ d.exponent + (natDigits d.digits).length - 1) := by
      omega
    rw [if_neg hzero, if_neg hlarge, if_pos hexp, positional_of_nonneg hexp, htext]

theorem wholeUnits_eq {n : Nat} (h : n ≤ 2 ^ 53) : wholeUnits n = n <<< 1074 :=
  units_nearestRank_shifted h 1074

theorem nearestRank_tenth (n k : Nat) :
    nearestRank (((10 * n) <<< k) <<< k) (10 <<< k) = nearestRank (n <<< k) 1 := by
  have hnum : ((10 * n) <<< k) <<< k = n <<< k * 10 <<< k := by
    simp only [Nat.shiftLeft_eq]
    ring
  have hpos : 0 < 10 <<< k := by
    rw [Nat.shiftLeft_eq]
    positivity
  have hcancel := nearestRank_mul_right (n <<< k) 1 hpos
  rwa [Nat.one_mul, ← hnum] at hcancel

/-- A number that ends in a zero and has at most 53 binary digits is divided by ten exactly. -/
theorem ofScaled_tenth (negative : Bool) {n : Nat} (h : 10 * n ≤ 2 ^ 53) :
    ofScaled negative ⟨10 * n, -1⟩ = ofUnits negative (n <<< 1074) 1 := by
  by_cases hzero : n = 0
  · subst hzero
    cases negative <;> decide
  · have hten : powerUnits 1 = 10 <<< 1074 := wholeUnits_eq (n := 10) (by decide)
    have hquotient : ofScaled negative ⟨10 * n, -1⟩ =
        ofQuotient negative (wholeUnits (10 * n)) (powerUnits 1) := by
      have hdivisor : (-(-1) : Int).toNat = 1 := rfl
      simp only [ofScaled, hdivisor]
      rw [if_neg (by omega), if_neg (by decide), if_pos (by decide)]
    rw [hquotient, wholeUnits_eq h, hten]
    simp only [ofQuotient, ofUnits, nearestRank_tenth]

end InventoryTokens.Double

namespace InventoryTokens.Json

open Text (natDigits)

/-- Digits of a number that fits in 64 bits are all appended. -/
theorem appendDigits_eq {cs : List Char} {m : Nat} (h : Nat.ofDigitChars 10 cs m < wordLimit) :
    appendDigits m cs = (Nat.ofDigitChars 10 cs m, 0) := by
  induction cs generalizing m with
  | nil => rfl
  | cons c cs ih =>
    have hcons : Nat.ofDigitChars 10 (c :: cs) m =
        Nat.ofDigitChars 10 cs (Nat.ofDigitChars 10 [c] m) :=
      Nat.ofDigitChars_append (l := [c]) m
    have hle : Nat.ofDigitChars 10 [c] m ≤ Nat.ofDigitChars 10 (c :: cs) m := by
      rw [hcons, Nat.ofDigitChars_eq_ofDigitChars_zero (l := cs)]
      exact (Nat.le_mul_of_pos_left _ (Nat.pow_pos (by decide))).trans (Nat.le_add_right ..)
    simp only [appendDigits]
    rw [if_pos (hle.trans_lt h), hcons]
    exact ih (hcons ▸ h)

theorem scanNumber_whole (negative : Bool) (n : Nat) :
    scanNumber negative (natDigits n ++ ['.', '0']) =
      some (numberDatum negative (natDigits n) ['0'] 0, []) := by
  have hwhole : scanWhole (natDigits n ++ ['.', '0']) = some (natDigits n, ['.', '0']) :=
    scanWhole_natDigits n (by simp)
  rw [scanNumber, hwhole]
  rfl

/-- The digits of a number and a zero after the point are a tenth of ten times the number. -/
theorem leadingDecimal_whole {n : Nat} (h : 10 * n < wordLimit) :
    leadingDecimal (natDigits n) ['0'] 0 = ⟨10 * n, -1⟩ := by
  have hdigits : Nat.ofDigitChars 10 (natDigits n) 0 = n := Nat.ofDigitChars_ten_toDigits
  have hwhole : appendDigits 0 (natDigits n) = (n, 0) := by
    rw [appendDigits_eq (by rw [hdigits]; omega), hdigits]
  have hzero : appendDigits n ['0'] = (10 * n, 0) := appendDigits_eq h
  simp only [leadingDecimal, hwhole, hzero]
  rfl

/-- A whole number up to a tenth of `2 ^ 53` is read back from its text, and so is a zero of either
sign. -/
theorem keeps_whole (negative : Bool) {n : Nat} (h : 10 * n ≤ 2 ^ 53) :
    Keeps (.ofUnits negative (n <<< 1074) 1) := by
  obtain ⟨rank, hrank⟩ : ∃ rank : Double.Rank, Double.natRank n = rank :=
    ⟨⟨_, Double.natRank_lt_rankLimit (by omega)⟩, rfl⟩
  have hx : Double.ofUnits negative (n <<< 1074) 1 = .finite negative rank := by
    rw [Double.ofUnits_fraction negative n Nat.one_pos, Nat.cast_one, div_one]
    exact Double.nearest_of_rankOf ((Double.rankOf_natCast n).trans hrank)
  have hdatum : numberDatum negative (natDigits n) ['0'] 0 = .number (.finite negative rank) := by
    rw [numberDatum, leadingDecimal_whole (by rw [wordLimit]; omega), Double.ofScaled_tenth _ h, hx]
  have hscan := scanNumber_whole negative n
  rw [hdatum] at hscan
  rw [hx, keeps_iff rfl, chars, Double.tagged?_whole negative hrank (by omega), Option.getD_some]
  cases negative with
  | true => exact hscan
  | false =>
    obtain ⟨c, tail, hcs, hc⟩ := (isNumeral_natDigits n).start
    rw [hcs] at hscan ⊢
    exact (scanPlain_of_isDigit hc _).trans hscan

/-- An integer up to a tenth of `2 ^ 53` is read back as the double that it is. -/
theorem keeps_ofInt {n : Int} (h : 10 * n.natAbs ≤ 2 ^ 53) : Keeps (.ofInt n) :=
  keeps_whole (n < 0) h

/-- Where digits and power are not both exact, the number may be read as a neighbour. -/
example : ¬Keeps (.ofDecimal false ⟨1, -24⟩) := by decide +kernel

end InventoryTokens.Json
