import InventoryTokens.Proofs.Double.Shortest
import InventoryTokens.Proofs.Text.Cutting
import InventoryTokens.Proofs.Text.Digits
import InventoryTokens.Double.Layout
import InventoryTokens.Double.Reader

/-!
# Plain numbers read back

The plain layout of a finite double is a decimal number with the value of its shortest decimal, so
it is read as the same double.  It spells an integer exactly if the double is a whole number; that
integer may be another one, but it has the same nearest double.
-/

namespace InventoryTokens.Double

open Text (natDigits)

/-- Characters that are all decimal digits. -/
def AllDigits (cs : List Char) : Prop := ∀ c ∈ cs, c.isDigit = true

/-- A number in digits, with a point or without one. -/
inductive Positional : List Char → Decimal → Prop
  | whole {cs : List Char} (some : cs ≠ []) (all : AllDigits cs) :
    Positional cs ⟨Nat.ofDigitChars 10 cs 0, 0⟩
  | point {cs ds : List Char} (some : cs ≠ []) (all : AllDigits (cs ++ ds)) :
    Positional (cs ++ '.' :: ds) ⟨Nat.ofDigitChars 10 (cs ++ ds) 0, -ds.length⟩

theorem AllDigits.append {cs ds : List Char} (hcs : AllDigits cs) (hds : AllDigits ds) :
    AllDigits (cs ++ ds) :=
  fun c hc => (List.mem_append.mp hc).elim (hcs c) (hds c)

theorem allDigits_natDigits (n : Nat) : AllDigits (natDigits n) :=
  fun _ => Text.isDigit_of_mem_natDigits

theorem allDigits_zeros (n : Nat) : AllDigits (List.replicate n '0') := by
  intro c hc
  rw [List.eq_of_mem_replicate hc]
  rfl

theorem scanDigits_append {cs rest : List Char} (hcs : AllDigits cs)
    (hrest : ∀ c ∈ rest.head?, c.isDigit = false) : scanDigits (cs ++ rest) = (cs, rest) := by
  obtain ⟨htake, hdrop⟩ := Text.span_append hcs hrest
  rw [scanDigits, htake, hdrop]

/-- A text is cut where its digits end. -/
theorem exists_scanDigits (cs : List Char) :
    ∃ digits rest, cs = digits ++ rest ∧ AllDigits digits ∧
      (∀ c ∈ rest.head?, c.isDigit = false) ∧ scanDigits cs = (digits, rest) := by
  refine ⟨_, _, List.takeWhile_append_dropWhile.symm, fun c => List.mem_takeWhile_imp, ?_, rfl⟩
  intro c hc
  have hhead := List.head?_dropWhile_not Char.isDigit cs
  rwa [Option.mem_def.mp hc] at hhead

theorem scanDigits_all {cs : List Char} (h : AllDigits cs) : scanDigits cs = (cs, []) := by
  have hscan : scanDigits (cs ++ []) = (cs, []) := scanDigits_append h (by simp)
  rwa [List.append_nil] at hscan

theorem readDecimal?_of_positional {cs : List Char} {d : Decimal} (h : Positional cs d) :
    readDecimal? cs = some d := by
  cases h with
  | whole hne hall => simp [readDecimal?, scanDigits_all hall, hne, endExponent?, assemble]
  | @point cs ds hne hall =>
    have hcs : AllDigits cs := fun c hc => hall c (List.mem_append_left _ hc)
    have hds : AllDigits ds := fun c hc => hall c (List.mem_append_right _ hc)
    have hscan : scanDigits (cs ++ '.' :: ds) = (cs, '.' :: ds) :=
      scanDigits_append hcs (by simp)
    simp [readDecimal?, hscan, scanDigits_all hds, hne, endExponent?, assemble]

/-- A number in digits starts with a digit. -/
theorem Positional.exists_head {cs : List Char} {d : Decimal} (h : Positional cs d) :
    ∃ c rest, cs = c :: rest ∧ c.isDigit = true := by
  cases h with
  | whole hne hall =>
    obtain ⟨c, rest, rfl⟩ := List.exists_cons_of_ne_nil hne
    exact ⟨c, rest, rfl, hall c (by simp)⟩
  | @point cs ds hne hall =>
    obtain ⟨c, rest, rfl⟩ := List.exists_cons_of_ne_nil hne
    exact ⟨c, rest ++ '.' :: ds, rfl, hall c (by simp)⟩

/-- Without digits after the point, the decimal is filled up with zeros. -/
theorem positional_of_nonneg {d : Decimal} (h : 0 ≤ d.exponent) :
    positional d = natDigits d.digits ++ List.replicate d.exponent.toNat '0' := by
  have hpos : 0 < (natDigits d.digits).length := Nat.length_toDigits_pos
  simp only [positional]
  rw [if_neg (by omega), if_pos h]

/-- With digits after the point, the decimal is written digit by digit. -/
theorem positional_of_neg {d : Decimal} (h : d.exponent < 0) :
    ∃ cs ds, positional d = cs ++ '.' :: ds ∧ Positional (cs ++ '.' :: ds) d := by
  have hall := allDigits_natDigits d.digits
  have hvalue : Nat.ofDigitChars 10 (natDigits d.digits) 0 = d.digits :=
    Nat.ofDigitChars_ten_toDigits
  have hpoint : ∀ cs ds : List Char, cs ≠ [] → AllDigits (cs ++ ds) →
      Nat.ofDigitChars 10 (cs ++ ds) 0 = d.digits → -(ds.length : Int) = d.exponent →
      Positional (cs ++ '.' :: ds) d := by
    intro cs ds hne hdigits hnumber hlength
    have hpoint := Positional.point hne hdigits
    rwa [hnumber, hlength] at hpoint
  simp only [positional]
  split
  · -- The digits start after the point, behind zeros that add nothing to their value.
    refine ⟨['0'], _, rfl, hpoint ['0'] _ (by simp) ?_ ?_ ?_⟩
    · exact AllDigits.append (allDigits_zeros 1) ((allDigits_zeros _).append hall)
    · rw [← List.append_assoc, Nat.ofDigitChars_append, ← List.replicate_one,
        List.replicate_append_replicate, Nat.ofDigitChars_replicate_zero, Nat.mul_zero, hvalue]
    · rw [List.length_append, List.length_replicate]
      omega
  · -- The point falls between two of the digits.
    rename_i hlarge
    rw [if_neg (by omega)]
    refine ⟨_, _, rfl, hpoint _ _ ?_ ?_ ?_ ?_⟩
    · apply List.ne_nil_of_length_pos
      rw [List.length_take]
      omega
    · rwa [List.take_append_drop]
    · rwa [List.take_append_drop]
    · rw [List.length_drop]
      omega

/-- The plain layout of a non-negative double. -/
def unsigned (rank : Rank) : List Char :=
  if (shortest true rank).digits = 0 then ['0'] else positional (shortest true rank)

theorem plain_finite (negative : Bool) (rank : Rank) :
    (Double.finite negative rank).plain = signChars negative ++ unsigned rank := rfl

/-- A whole number is written in digits only. -/
theorem unsigned_whole {rank : Rank} (h : ∃ n : Nat, magnitude rank = n) :
    unsigned rank ≠ [] ∧ AllDigits (unsigned rank) ∧
      (shortest true rank).value = Nat.ofDigitChars 10 (unsigned rank) 0 := by
  obtain ⟨n, hn⟩ := (exists_whole_shortest true rank).mpr h
  rw [unsigned]
  split
  · rename_i hzero
    refine ⟨by simp, allDigits_zeros 1, ?_⟩
    rw [Decimal.value, hzero]
    exact zero_mul _
  · rename_i hne
    have hexp := (Decimal.exponent_nonneg_of_whole hn (trimmed_shortest true rank)).resolve_left hne
    rw [positional_of_nonneg hexp]
    refine ⟨?_, (allDigits_natDigits _).append (allDigits_zeros _), ?_⟩
    · exact List.append_ne_nil_of_left_ne_nil (Text.natDigits_ne_nil _) _
    · rw [Decimal.value_of_nonneg hexp, Nat.ofDigitChars_append, Nat.ofDigitChars_replicate_zero,
        natDigits, Nat.ofDigitChars_ten_toDigits, Nat.mul_comm, tenTo_eq]

/-- A number that is not whole is written with a point. -/
theorem unsigned_point {rank : Rank} (h : ¬∃ n : Nat, magnitude rank = n) :
    ∃ cs ds, unsigned rank = cs ++ '.' :: ds ∧
      Positional (cs ++ '.' :: ds) (shortest true rank) := by
  have hexp : (shortest true rank).exponent < 0 := by
    by_contra hpos
    exact h ((exists_whole_shortest true rank).mp ⟨_, Decimal.value_of_nonneg (not_lt.mp hpos)⟩)
  rw [unsigned, if_neg]
  · exact positional_of_neg hexp
  · intro hzero
    apply h
    apply (exists_whole_shortest true rank).mp
    exact ⟨0, by rw [Decimal.value, hzero, Nat.cast_zero, zero_mul]⟩

/-- The plain layout of a non-negative double has the value of its shortest decimal. -/
theorem unsigned_positional (rank : Rank) :
    ∃ d, Positional (unsigned rank) d ∧ d.value = (shortest true rank).value := by
  by_cases h : ∃ n : Nat, magnitude rank = n
  · obtain ⟨hne, hall, hvalue⟩ := unsigned_whole h
    refine ⟨_, .whole hne hall, ?_⟩
    rw [hvalue, Decimal.value, zpow_zero, mul_one]
  · obtain ⟨cs, ds, htext, hpoint⟩ := unsigned_point h
    exact ⟨_, htext ▸ hpoint, rfl⟩

theorem asciiLower_of_isDigit {c : Char} (h : c.isDigit = true) : Text.asciiLower c = c := by
  have hdigit : 48 ≤ c.toNat ∧ c.toNat ≤ 57 := Char.isDigit_iff_toNat.mp h
  rw [← Char.toNat_inj, Text.toNat_asciiLower, if_neg (by omega)]

/-- No word starts with a digit or a point. -/
theorem readUnsigned?_of_head (negative : Bool) {c : Char} (hc : c.isDigit = true ∨ c = '.')
    (cs : List Char) :
    readUnsigned? negative (c :: cs) = (readDecimal? (c :: cs)).map (ofDecimal negative) := by
  have hlower : Text.asciiLower c = c := hc.elim asciiLower_of_isDigit fun h => by rw [h]; rfl
  have hword : ∀ w ws, ¬(w.isDigit = true ∨ w = '.') → (c :: cs).map Text.asciiLower ≠ w :: ws := by
    intro w ws hw he
    rw [List.map_cons, List.cons.injEq, hlower] at he
    exact hw (he.1 ▸ hc)
  simp only [readUnsigned?]
  rw [if_neg, if_neg]
  · exact hword 'n' _ (by decide)
  · exact not_or.mpr ⟨hword 'i' _ (by decide), hword 'i' _ (by decide)⟩

/-- A digit or a point is no sign. -/
theorem read?_of_head {c : Char} (hc : c.isDigit = true ∨ c = '.') (cs : List Char) :
    read? (c :: cs) = readUnsigned? false (c :: cs) := by
  have hsign : ∀ mark tail, ¬(mark.isDigit = true ∨ mark = '.') → c :: cs ≠ mark :: tail := by
    intro mark tail hmark he
    exact hmark ((List.cons.inj he).1 ▸ hc)
  rw [read?]
  · exact fun tail => hsign '+' tail (by decide)
  · exact fun tail => hsign '-' tail (by decide)

/-- The sign of a plain number is read back. -/
theorem read?_signChars (negative : Bool) {cs : List Char} {d : Decimal} (h : Positional cs d) :
    read? (signChars negative ++ cs) = some (ofDecimal negative d) := by
  have hread := readDecimal?_of_positional h
  obtain ⟨c, rest, rfl, hc⟩ := h.exists_head
  cases negative with
  | true =>
    rw [signChars, if_pos rfl, List.singleton_append, read?, readUnsigned?_of_head true (Or.inl hc),
      hread, Option.map_some]
  | false =>
    rw [signChars, if_neg Bool.false_ne_true, List.nil_append, read?_of_head (Or.inl hc),
      readUnsigned?_of_head false (Or.inl hc), hread, Option.map_some]

/-- A finite double is read back from its plain layout. -/
theorem read?_plain {x : Double} (h : x.isFinite = true) : read? x.plain = some x := by
  match x, h with
  | .finite negative rank, _ =>
    obtain ⟨d, hd, hvalue⟩ := unsigned_positional rank
    rw [plain_finite, read?_signChars negative hd, ofDecimal_eq, hvalue]
    exact congrArg some (nearest_of_rankOf (rankOf_shortest true rank))

/-- A sign and an integer's digits, or the digits alone. -/
theorem spells_signChars (negative : Bool) {cs : List Char} (hne : cs ≠ []) (hall : AllDigits cs) :
    Text.Spells (signChars negative ++ cs)
      (if negative then -(Nat.ofDigitChars 10 cs 0 : Int) else Nat.ofDigitChars 10 cs 0) := by
  cases negative with
  | true => exact .minus hne hall
  | false => exact .unsigned hne hall

/-- A whole number is shown as an integer with the value of its shortest decimal. -/
theorem spells_plain (negative : Bool) {rank : Rank} (h : ∃ n : Nat, magnitude rank = n) :
    ∃ n : Nat, (shortest true rank).value = n ∧
      Text.Spells (Double.finite negative rank).plain (if negative then -(n : Int) else n) := by
  obtain ⟨hne, hall, hvalue⟩ := unsigned_whole h
  exact ⟨_, hvalue, spells_signChars negative hne hall⟩

/-- A number that is not whole is shown with a point and spells no integer. -/
theorem not_spells_plain (negative : Bool) {rank : Rank} (h : ¬∃ n : Nat, magnitude rank = n)
    (n : Int) : ¬Text.Spells (Double.finite negative rank).plain n := by
  intro hspells
  obtain ⟨cs, ds, htext, -⟩ := unsigned_point h
  have hmem : '.' ∈ (Double.finite negative rank).plain := by
    rw [plain_finite, htext]
    simp
  exact absurd (Text.mem_of_spells hspells hmem) (by decide)

theorem not_isBlank_of_mem_plain {x : Double} (h : x.isFinite = true) :
    ∀ c ∈ x.plain, Text.isBlank c = false := by
  match x, h with
  | .finite negative rank, _ =>
    obtain ⟨d, hd, -⟩ := unsigned_positional rank
    intro c hc
    have hchar : c = '-' ∨ c = '.' ∨ c.isDigit = true := by
      rw [plain_finite, List.mem_append] at hc
      rcases hc with hsign | hmem
      · cases negative with
        | true => exact Or.inl (List.mem_singleton.mp hsign)
        | false => cases hsign
      · generalize unsigned rank = cs at hd hmem
        cases hd with
        | whole hne hall => exact Or.inr (Or.inr (hall c hmem))
        | point hne hall =>
          rw [List.mem_append, List.mem_cons] at hmem
          rcases hmem with hmem | hmem | hmem
          · exact Or.inr (Or.inr (hall c (List.mem_append_left _ hmem)))
          · exact Or.inr (Or.inl hmem)
          · exact Or.inr (Or.inr (hall c (List.mem_append_right _ hmem)))
    rcases hchar with rfl | rfl | hdigit
    · rfl
    · rfl
    · exact Text.not_isBlank_of_isDigit hdigit

/-- The rank of `2 ^ 63`. -/
def wordLimit : Rank := ⟨natRank (2 ^ 63), by decide +kernel⟩

/-- The limit is shown as a number beyond it. -/
theorem value_shortest_wordLimit :
    (shortest true wordLimit).value = (9223372036854776000 : Nat) := by
  have hpick : pick true wordLimit = ⟨9223372036854776, 3⟩ := by decide +kernel
  have hne : wordLimit.val ≠ 0 := by decide +kernel
  rw [shortest_eq, if_neg hne, Decimal.value_trimZeros, hpick]
  exact Decimal.value_ofNat 9223372036854776 3

theorem wordLimit_val : wordLimit.val = natRank (2 ^ 63) := rfl

theorem magnitude_wordLimit : magnitude wordLimit = 2 ^ 63 := by
  have hunits : magnitude wordLimit = (2 ^ 63 : Nat) :=
    magnitude_eq_natCast_iff.mpr (by decide +kernel)
  exact_mod_cast hunits

/-- A double is shown as a number below the limit exactly if it is below the limit. -/
theorem shown_lt_iff {rank : Rank} {n : Nat} (h : (shortest true rank).value = n) :
    (n < 2 ^ 63 ↔ magnitude rank < 2 ^ 63) ∧ n ≠ 2 ^ 63 := by
  have hrank := rankOf_shortest true rank
  rw [h, rankOf_natCast] at hrank
  have hother : rank.val = wordLimit.val → n = 9223372036854776000 := by
    intro he
    rw [Fin.ext he, value_shortest_wordLimit] at h
    exact_mod_cast h.symm
  have hne : n ≠ 2 ^ 63 := by
    rintro rfl
    have heq := hother (hrank.symm.trans wordLimit_val.symm)
    omega
  refine ⟨⟨fun hlt => ?_, fun hlt => ?_⟩, hne⟩
  · rw [← magnitude_wordLimit]
    apply magnitude_strictMono
    have hle : rank.val ≤ wordLimit.val := by
      rw [← hrank, wordLimit_val]
      exact natRank_mono hlt.le
    refine Nat.lt_of_le_of_ne hle fun he => ?_
    have heq := hother he
    omega
  · by_contra hge
    have hle : wordLimit.val ≤ rank.val := by
      rw [← hrank, wordLimit_val]
      exact natRank_mono (not_lt.mp hge)
    rw [← magnitude_wordLimit] at hlt
    exact absurd hlt (not_lt.mpr (magnitude_strictMono.monotone hle))

end InventoryTokens.Double
