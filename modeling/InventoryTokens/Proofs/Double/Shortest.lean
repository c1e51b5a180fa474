import InventoryTokens.Proofs.Double.Decimal

/-!
# The shortest decimal

The decimal that is shown for a double rounds back to it, and it is a whole number exactly if the
double is one.  That no shorter decimal would do is not shown.
-/

namespace InventoryTokens.Double

theorem tenTo_eq_mul (k : Nat) : tenTo k = Nat.pow 5 k * 1 <<< k := by
  rw [Nat.shiftLeft_eq, Nat.one_mul]
  exact Nat.mul_pow 5 2 k

/-- The number of binary digits of a unit after the point, and of decimal ones. -/
def places : Nat := 1074

theorem oneUnits_eq : oneUnits = 1 <<< places := rfl

theorem exactDecimal_eq (rank : Rank) :
    exactDecimal rank = ⟨units rank * Nat.pow 5 places, -places⟩ := by
  have hplaces : (1074 : Nat) = places := rfl
  rw [exactDecimal, hplaces]
  rfl

theorem tenTo_places : tenTo places = Nat.pow 5 places * oneUnits := by
  rw [oneUnits_eq, tenTo_eq_mul]

theorem value_exactDecimal (rank : Rank) : (exactDecimal rank).value = magnitude rank := by
  have hone : (oneUnits : ℚ≥0) ≠ 0 := Nat.cast_ne_zero.mpr oneUnits_pos.ne'
  have hten : (tenTo places : ℚ≥0) ≠ 0 := Nat.cast_ne_zero.mpr (tenTo_pos places).ne'
  rw [exactDecimal_eq, Decimal.value_neg, magnitude, div_eq_div_iff hten hone, ← Nat.cast_mul,
    ← Nat.cast_mul, tenTo_places, Nat.mul_assoc]

/-- The decimal that `shortest` drops the zeros of. -/
def pick (tieUp : Bool) (rank : Rank) : Decimal :=
  ((candidates tieUp rank).find? fun d => ofDecimal false d = .finite false rank).getD
    (exactDecimal rank)

theorem shortest_eq (tieUp : Bool) (rank : Rank) :
    shortest tieUp rank = if rank.val = 0 then ⟨0, 0⟩ else (pick tieUp rank).trimZeros := rfl

/-- What is picked rounds back to the rank. -/
theorem rankOf_pick (tieUp : Bool) (rank : Rank) : rankOf (pick tieUp rank).value = rank := by
  unfold pick
  cases h : (candidates tieUp rank).find? fun d => ofDecimal false d = .finite false rank with
  | none => exact (congrArg rankOf (value_exactDecimal rank)).trans (rankOf_magnitude rank)
  | some d =>
    have hround := List.find?_some h
    rw [decide_eq_true_eq, ofDecimal_eq] at hround
    exact rankOf_of_nearest hround

/-- The shortest decimal for a double rounds back to it. -/
theorem rankOf_shortest (tieUp : Bool) (rank : Rank) :
    rankOf (shortest tieUp rank).value = rank := by
  rw [shortest_eq]
  split
  · rename_i hzero
    have hvalue : (⟨0, 0⟩ : Decimal).value = 0 := by rw [Decimal.value, Nat.cast_zero, zero_mul]
    exact (congrArg rankOf hvalue).trans (rankOf_zero.trans hzero.symm)
  · rw [Decimal.value_trimZeros, rankOf_pick]

/-- A power of ten puts zeros behind the digits. -/
theorem toDigits_tenTo {n : Nat} (h : 0 < n) (k : Nat) :
    Nat.toDigits 10 (n * tenTo k) = Nat.toDigits 10 n ++ List.replicate k '0' := by
  induction k with
  | zero => rw [tenTo_eq, Nat.pow_zero, Nat.mul_one, List.replicate_zero, List.append_nil]
  | succ k ih =>
    have hpos := Nat.mul_pos h (tenTo_pos k)
    have hnext : n * tenTo (k + 1) = n * tenTo k * 10 := by
      rw [tenTo_eq, Nat.pow_succ, ← Nat.mul_assoc, tenTo_eq]
    rw [hnext, Nat.toDigits_of_base_le (by decide) (by omega), Nat.mul_div_cancel _ (by decide),
      Nat.mul_mod_left, List.replicate_succ', ← List.append_assoc, ih]
    rfl

theorem length_toDigits_tenTo {n : Nat} (h : 0 < n) (k : Nat) :
    (Nat.toDigits 10 (n * tenTo k)).length = (Nat.toDigits 10 n).length + k := by
  rw [toDigits_tenTo h, List.length_append, List.length_replicate]

/-- Both neighbours on a grid have the exponent of the grid. -/
theorem exponent_of_mem_neighbours {tieUp : Bool} {exact d : Decimal} {length count : Nat}
    (h : d ∈ neighbours tieUp exact length count) :
    d.exponent = exact.exponent + (length - count : Nat) := by
  simp only [neighbours] at h
  split at h
  all_goals
    obtain rfl | h := List.mem_cons.mp h
    · rfl
    · obtain rfl := List.mem_singleton.mp h
      rfl

/-- A decimal on the grid is a neighbour of itself. -/
theorem mem_neighbours (tieUp : Bool) (n length count : Nat) (exponent : Int) :
    ⟨n, exponent + (length - count : Nat)⟩ ∈
      neighbours tieUp ⟨n * tenTo (length - count), exponent⟩ length count := by
  simp only [neighbours, Nat.mul_div_cancel _ (tenTo_pos _)]
  split
  · simp
  · simp

/-- The decimals that are tried for a whole number fall in two parts: the first are whole numbers,
and one of them is the number itself unless the second part is empty. -/
theorem candidates_whole (tieUp : Bool) {rank : Rank} {n : Nat} (hn : 0 < n)
    (h : units rank = n * oneUnits) :
    ∃ front back, candidates tieUp rank = front ++ back ∧ (∀ d ∈ front, 0 ≤ d.exponent) ∧
      (⟨n, 0⟩ ∈ front ∨ back = []) := by
  have hexact : exactDecimal rank = ⟨n * tenTo places, -places⟩ := by
    rw [exactDecimal_eq, h, tenTo_places, Nat.mul_assoc, Nat.mul_comm oneUnits]
  generalize hlength : (Nat.toDigits 10 n).length = length
  have hcandidates : candidates tieUp rank = (List.range' 1 17).flatMap
      (neighbours tieUp ⟨n * tenTo places, -places⟩ (length + places)) := by
    simp only [candidates, hexact]
    rw [length_toDigits_tenTo hn, hlength]
  have hpos : 0 < length := hlength ▸ Nat.length_toDigits_pos
  have hfront : ∀ m, m ≤ length → ∀ d ∈ (List.range' 1 m).flatMap
      (neighbours tieUp ⟨n * tenTo places, -places⟩ (length + places)), 0 ≤ d.exponent := by
    intro m hm d hd
    obtain ⟨count, hcount, hd⟩ := List.mem_flatMap.mp hd
    have hle := (List.mem_range'_1.mp hcount).2
    have hexp := exponent_of_mem_neighbours hd
    simp only at hexp
    omega
  rw [hcandidates]
  by_cases hlong : 17 ≤ length
  · exact ⟨_, [], (List.append_nil _).symm, hfront 17 hlong, Or.inr rfl⟩
  · have hsplit : List.range' 1 17 =
        List.range' 1 length ++ List.range' (1 + length) (17 - length) := by
      rw [List.range'_append_1, Nat.add_sub_cancel' (by omega)]
    rw [hsplit, List.flatMap_append]
    refine ⟨_, _, rfl, hfront length le_rfl, Or.inl ?_⟩
    refine List.mem_flatMap.mpr ⟨length, List.mem_range'_1.mpr ⟨by omega, by omega⟩, ?_⟩
    have hself := mem_neighbours tieUp n (length + places) length (-places)
    rw [Nat.add_sub_cancel_left, neg_add_cancel] at hself
    exact hself

/-- For a whole number a whole number is picked. -/
theorem exists_whole_pick (tieUp : Bool) {rank : Rank} {n : Nat} (hn : 0 < n)
    (h : magnitude rank = n) : ∃ m : Nat, (pick tieUp rank).value = m := by
  obtain ⟨front, back, hcandidates, hfront, hback⟩ :=
    candidates_whole tieUp hn (magnitude_eq_natCast_iff.mp h)
  have hself : ofDecimal false ⟨n, 0⟩ = .finite false rank := by
    have hvalue : (⟨n, 0⟩ : Decimal).value = magnitude rank := by
      rw [h, Decimal.value, zpow_zero, mul_one]
    rw [ofDecimal_eq, hvalue]
    exact nearest_of_rankOf (rankOf_magnitude rank)
  unfold pick
  cases hfound : (candidates tieUp rank).find? fun d => ofDecimal false d = .finite false rank with
  | none => exact ⟨n, by rw [Option.getD_none, value_exactDecimal, h]⟩
  | some d =>
    rw [hcandidates, List.find?_append] at hfound
    have hfirst : front.find? (fun d => ofDecimal false d = .finite false rank) = some d := by
      rcases hback with hmem | rfl
      · have hsome : (front.find? fun d => ofDecimal false d = .finite false rank).isSome := by
          rw [List.find?_isSome]
          exact ⟨_, hmem, decide_eq_true hself⟩
        rwa [Option.or_of_isSome hsome] at hfound
      · rwa [List.find?_nil, Option.or_none] at hfound
    exact ⟨_, Decimal.value_of_nonneg (hfront d (List.mem_of_find?_eq_some hfirst))⟩

/-- The shortest decimal for a double is a whole number exactly if the double is one. -/
theorem exists_whole_shortest (tieUp : Bool) (rank : Rank) :
    (∃ n : Nat, (shortest tieUp rank).value = n) ↔ ∃ n : Nat, magnitude rank = n := by
  constructor
  · rintro ⟨n, hn⟩
    have hrank := rankOf_shortest tieUp rank
    rw [hn, rankOf_natCast] at hrank
    rw [← hrank]
    exact exists_whole_natRank n
  · rintro ⟨n, hn⟩
    rw [shortest_eq]
    split
    · exact ⟨0, by rw [Decimal.value, Nat.cast_zero, zero_mul]⟩
    · rename_i hne
      rw [Decimal.value_trimZeros]
      refine exists_whole_pick tieUp (Nat.pos_of_ne_zero ?_) hn
      rintro rfl
      apply hne
      rw [Nat.cast_zero, ← magnitude_zero] at hn
      exact magnitude_strictMono.injective hn

/-- A whole number below `2 ^ 53` has itself as its shortest decimal. -/
theorem value_shortest_of_natRank (tieUp : Bool) {rank : Rank} {n : Nat} (hn : n < 2 ^ 53)
    (h : natRank n = rank) : (shortest tieUp rank).value = n := by
  have hmagnitude : magnitude rank = n := by rw [← h, magnitude_natRank hn.le]
  obtain ⟨m, hm⟩ := (exists_whole_shortest tieUp rank).mpr ⟨n, hmagnitude⟩
  have hrank := rankOf_shortest tieUp rank
  rw [hm, rankOf_natCast, ← h] at hrank
  rw [hm]
  obtain hlt | rfl | hlt := Nat.lt_trichotomy m n
  · exact absurd hrank (natRank_lt (hlt.trans hn) hlt).ne
  · rfl
  · exact absurd hrank (natRank_lt hn hlt).ne'

/-- Its digits do not end in a zero. -/
theorem trimmed_shortest (tieUp : Bool) (rank : Rank) :
    ¬((shortest tieUp rank).digits ≠ 0 ∧ (shortest tieUp rank).digits % 10 = 0) := by
  rw [shortest_eq]
  split
  · simp
  · exact Decimal.trimmed_trimZeros _

end InventoryTokens.Double
