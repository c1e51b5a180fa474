import InventoryTokens.Proofs.Double.Nearest
import InventoryTokens.Proofs.Double.Plain
import Mathlib.Tactic.FieldSimp

/-!
# Spelled numbers

The texts that spell a number, and the number that each of them spells.  The reader takes exactly
these and three words, which stand for values that are not finite, and gives the double to which the
number is rounded.
-/

namespace InventoryTokens.Double

/-- The number that has certain digits before and after its point. -/
def pointed (whole fraction : List Char) : ℚ≥0 :=
  Nat.ofDigitChars 10 whole 0 + Nat.ofDigitChars 10 fraction 0 / (10 ^ fraction.length : Nat)

/-- At least one digit and at most one point, with the digits before and after it. -/
inductive SpellsDigits : List Char → List Char → List Char → Prop
  | whole {whole : List Char} (some : whole ≠ []) (all : AllDigits whole) :
    SpellsDigits whole whole []
  | point {whole fraction : List Char} (some : ¬(whole = [] ∧ fraction = []))
    (before : AllDigits whole) (after : AllDigits fraction) :
    SpellsDigits (whole ++ '.' :: fraction) whole fraction

/-- Digits with or without a point, and behind them a power of ten or none. -/
inductive SpellsUnsigned : List Char → ℚ≥0 → Prop
  | plain {cs whole fraction : List Char} (digits : SpellsDigits cs whole fraction) :
    SpellsUnsigned cs (pointed whole fraction)
  | power {cs whole fraction exponent : List Char} {mark : Char} {n : Int}
    (digits : SpellsDigits cs whole fraction) (marked : mark = 'e' ∨ mark = 'E')
    (spells : Text.Spells exponent n) :
    SpellsUnsigned (cs ++ mark :: exponent) (pointed whole fraction * 10 ^ n)

/-- A sign or none before that. -/
inductive SpellsNumber : List Char → Bool → ℚ≥0 → Prop
  | unsigned {cs : List Char} {q : ℚ≥0} (spells : SpellsUnsigned cs q) : SpellsNumber cs false q
  | plus {cs : List Char} {q : ℚ≥0} (spells : SpellsUnsigned cs q) :
    SpellsNumber ('+' :: cs) false q
  | minus {cs : List Char} {q : ℚ≥0} (spells : SpellsUnsigned cs q) :
    SpellsNumber ('-' :: cs) true q

theorem value_assemble (whole fraction : List Char) (n : Int) :
    (assemble whole fraction n).value = pointed whole fraction * 10 ^ n := by
  have hten : (10 : ℚ≥0) ≠ 0 := by norm_num
  have hpower : (10 : ℚ≥0) ^ fraction.length ≠ 0 := pow_ne_zero _ hten
  rw [assemble, Decimal.value, pointed, Nat.ofDigitChars_append,
    Nat.ofDigitChars_eq_ofDigitChars_zero, zpow_sub₀ hten, zpow_natCast]
  push_cast
  field_simp

theorem unsigned_eq_some {cs : List Char} {n : Int} :
    scanExponent.unsigned cs = some (n, []) ↔
      cs ≠ [] ∧ AllDigits cs ∧ (Nat.ofDigitChars 10 cs 0 : Nat) = n := by
  obtain ⟨digits, rest, rfl, hdigits, hrest, hscan⟩ := exists_scanDigits cs
  simp only [scanExponent.unsigned, hscan]
  cases rest with
  | nil =>
    by_cases hne : digits = []
    · simp [hne]
    · simp [hne, hdigits]
  | cons c rest =>
    have hc : c.isDigit = false := hrest c rfl
    refine iff_of_false ?_ fun h => ?_
    · split <;> simp
    · exact absurd (h.2.1 c (by simp)) (by simp [hc])

/-- An exponent is scanned to the end exactly if it spells an integer. -/
theorem scanExponent_eq_some {cs : List Char} {n : Int} :
    scanExponent cs = some (n, []) ↔ Text.Spells cs n := by
  constructor
  · intro h
    unfold scanExponent at h
    split at h
    · obtain ⟨hne, hall, rfl⟩ := unsigned_eq_some.mp h
      exact .plus hne hall
    · obtain ⟨⟨m, rest⟩, hm, hpair⟩ := Option.map_eq_some_iff.mp h
      cases hpair
      obtain ⟨hne, hall, rfl⟩ := unsigned_eq_some.mp hm
      exact .minus hne hall
    · obtain ⟨hne, hall, rfl⟩ := unsigned_eq_some.mp h
      exact .unsigned hne hall
  · intro h
    cases h with
    | unsigned hne hall =>
      obtain ⟨c, cs, rfl⟩ := List.exists_cons_of_ne_nil hne
      have hc : c.isDigit = true := hall c List.mem_cons_self
      rw [scanExponent]
      · exact unsigned_eq_some.mpr ⟨hne, hall, rfl⟩
      · intro tail he
        rw [(List.cons.inj he).1] at hc
        cases hc
      · intro tail he
        rw [(List.cons.inj he).1] at hc
        cases hc
    | plus hne hall => exact unsigned_eq_some.mpr ⟨hne, hall, rfl⟩
    | minus hne hall => rw [scanExponent, unsigned_eq_some.mpr ⟨hne, hall, rfl⟩, Option.map_some]

theorem endExponent?_eq_some {cs : List Char} {n : Int} :
    endExponent? cs = some n ↔
      cs = [] ∧ n = 0 ∨ ∃ mark exponent, cs = mark :: exponent ∧ (mark = 'e' ∨ mark = 'E') ∧
        Text.Spells exponent n := by
  cases cs with
  | nil => simp [endExponent?, eq_comm]
  | cons c cs =>
    by_cases hmark : c = 'e' ∨ c = 'E'
    · simp only [endExponent?, if_pos hmark, ← scanExponent_eq_some]
      split
      · rename_i m hscan
        simp [hscan, hmark]
      · rename_i hother
        have hnone : ¬scanExponent cs = some (n, []) := hother n
        simp [hnone]
    · simp [endExponent?, hmark]

theorem readDecimal?_of_whole {cs whole rest : List Char} (h : scanDigits cs = (whole, rest))
    (hrest : ∀ c ∈ rest.head?, c ≠ '.') :
    readDecimal? cs =
      if whole = [] then none else (endExponent? rest).map (assemble whole []) := by
  cases rest with
  | nil => simp [readDecimal?, h]
  | cons c rest =>
    have hc : c ≠ '.' := hrest c rfl
    simp [readDecimal?, h, hc]

theorem readDecimal?_of_point {cs whole after fraction rest : List Char}
    (h : scanDigits cs = (whole, '.' :: after)) (hafter : scanDigits after = (fraction, rest)) :
    readDecimal? cs =
      if whole = [] ∧ fraction = [] then none
      else (endExponent? rest).map (assemble whole fraction) := by
  simp only [readDecimal?, h, hafter]

/-- Digits and a point are read up to what can be neither. -/
theorem readDecimal?_append {cs whole fraction rest : List Char}
    (h : SpellsDigits cs whole fraction) (hrest : ∀ c ∈ rest.head?, c.isDigit = false ∧ c ≠ '.') :
    readDecimal? (cs ++ rest) = (endExponent? rest).map (assemble whole fraction) := by
  have hstop : ∀ c ∈ rest.head?, c.isDigit = false := fun c hc => (hrest c hc).1
  cases h with
  | whole hne hall =>
    rw [readDecimal?_of_whole (scanDigits_append hall hstop) fun c hc => (hrest c hc).2, if_neg hne]
  | point hsome hbefore hafter =>
    have hscan : scanDigits (whole ++ '.' :: (fraction ++ rest)) =
        (whole, '.' :: (fraction ++ rest)) := scanDigits_append hbefore (by simp)
    rw [List.append_assoc, List.cons_append,
      readDecimal?_of_point hscan (scanDigits_append hafter hstop), if_neg hsome]

/-- What is read is digits and a point, and behind them an exponent or nothing. -/
theorem exists_spellsDigits {cs : List Char} {d : Decimal} (h : readDecimal? cs = some d) :
    ∃ number rest whole fraction n, cs = number ++ rest ∧ SpellsDigits number whole fraction ∧
      endExponent? rest = some n ∧ assemble whole fraction n = d := by
  obtain ⟨whole, rest, rfl, hwhole, -, hscan⟩ := exists_scanDigits cs
  by_cases hpoint : rest.head? = some '.'
  · obtain ⟨after, rfl⟩ := List.head?_eq_some_iff.mp hpoint
    obtain ⟨fraction, rest, rfl, hfraction, -, hafter⟩ := exists_scanDigits after
    rw [readDecimal?_of_point hscan hafter] at h
    split at h
    · cases h
    · rename_i hsome
      obtain ⟨n, hn, hd⟩ := Option.map_eq_some_iff.mp h
      exact ⟨_, rest, whole, fraction, n, by simp, .point hsome hwhole hfraction, hn, hd⟩
  · rw [readDecimal?_of_whole hscan fun c hc he => hpoint (he ▸ hc)] at h
    split at h
    · cases h
    · rename_i hne
      obtain ⟨n, hn, hd⟩ := Option.map_eq_some_iff.mp h
      exact ⟨whole, rest, whole, [], n, rfl, .whole hne hwhole, hn, hd⟩

/-- A decimal is read from exactly those texts that spell its value. -/
theorem exists_readDecimal?_iff {cs : List Char} {q : ℚ≥0} :
    (∃ d, readDecimal? cs = some d ∧ d.value = q) ↔ SpellsUnsigned cs q := by
  constructor
  · intro h
    obtain ⟨d, hread, rfl⟩ := h
    obtain ⟨number, rest, whole, fraction, n, rfl, hdigits, hend, rfl⟩ := exists_spellsDigits hread
    rw [value_assemble]
    obtain ⟨rfl, rfl⟩ | ⟨mark, exponent, rfl, hmark, hspells⟩ := endExponent?_eq_some.mp hend
    · rw [List.append_nil, zpow_zero, mul_one]
      exact .plain hdigits
    · exact .power hdigits hmark hspells
  · intro h
    cases h with
    | @plain _ whole fraction hdigits =>
      have hread : readDecimal? (cs ++ []) = some (assemble whole fraction 0) :=
        readDecimal?_append hdigits (by simp)
      rw [List.append_nil] at hread
      refine ⟨assemble whole fraction 0, hread, ?_⟩
      rw [value_assemble, zpow_zero, mul_one]
    | @power number whole fraction exponent mark n hdigits hmark hspells =>
      have hhead : ∀ c ∈ (mark :: exponent).head?, c.isDigit = false ∧ c ≠ '.' := by
        intro c hc
        obtain rfl := Option.some.inj hc
        obtain rfl | rfl := hmark <;> decide
      have hend := endExponent?_eq_some.mpr (Or.inr ⟨mark, exponent, rfl, hmark, hspells⟩)
      refine ⟨assemble whole fraction n, ?_, value_assemble whole fraction n⟩
      rw [readDecimal?_append hdigits hhead, hend, Option.map_some]

/-- A spelled number without a sign starts with a digit or a point. -/
theorem SpellsUnsigned.exists_head {cs : List Char} {q : ℚ≥0} (h : SpellsUnsigned cs q) :
    ∃ c rest, cs = c :: rest ∧ (c.isDigit = true ∨ c = '.') := by
  have hdigits : ∀ {cs whole fraction : List Char}, SpellsDigits cs whole fraction →
      ∃ c rest, cs = c :: rest ∧ (c.isDigit = true ∨ c = '.') := by
    intro cs whole fraction h
    cases h with
    | whole hne hall =>
      obtain ⟨c, rest, rfl⟩ := List.exists_cons_of_ne_nil hne
      exact ⟨c, rest, rfl, Or.inl (hall c List.mem_cons_self)⟩
    | point _ hbefore _ =>
      cases whole with
      | nil => exact ⟨'.', fraction, rfl, Or.inr rfl⟩
      | cons c whole => exact ⟨c, _, rfl, Or.inl (hbefore c List.mem_cons_self)⟩
  cases h with
  | plain h => exact hdigits h
  | power h =>
    obtain ⟨c, rest, rfl, hc⟩ := hdigits h
    exact ⟨c, _, rfl, hc⟩

/-- No word stands for a finite value. -/
theorem readUnsigned?_eq_some {negative : Bool} {cs : List Char} {x : Double}
    (hx : x.isFinite = true) :
    readUnsigned? negative cs = some x ↔ ∃ q, SpellsUnsigned cs q ∧ Rounds negative q x := by
  constructor
  · intro h
    simp only [readUnsigned?] at h
    split at h
    · obtain rfl := Option.some.inj h
      cases hx
    · split at h
      · obtain rfl := Option.some.inj h
        cases hx
      · obtain ⟨d, hread, rfl⟩ := Option.map_eq_some_iff.mp h
        refine ⟨d.value, exists_readDecimal?_iff.mp ⟨d, hread, rfl⟩, ?_⟩
        rw [rounds_iff, ofDecimal_eq]
  · intro h
    obtain ⟨q, hspells, hrounds⟩ := h
    obtain ⟨d, hread, rfl⟩ := exists_readDecimal?_iff.mpr hspells
    obtain ⟨c, rest, rfl, hc⟩ := hspells.exists_head
    rw [readUnsigned?_of_head negative hc, hread, Option.map_some, ofDecimal_eq,
      rounds_iff.mp hrounds]

/-- A finite double is read from exactly those texts that spell a number which is rounded to it. -/
theorem read?_eq_some {cs : List Char} {x : Double} (hx : x.isFinite = true) :
    read? cs = some x ↔ ∃ negative q, SpellsNumber cs negative q ∧ Rounds negative q x := by
  constructor
  · intro h
    unfold read? at h
    split at h
    · obtain ⟨q, hspells, hrounds⟩ := (readUnsigned?_eq_some hx).mp h
      exact ⟨false, q, .plus hspells, hrounds⟩
    · obtain ⟨q, hspells, hrounds⟩ := (readUnsigned?_eq_some hx).mp h
      exact ⟨true, q, .minus hspells, hrounds⟩
    · obtain ⟨q, hspells, hrounds⟩ := (readUnsigned?_eq_some hx).mp h
      exact ⟨false, q, .unsigned hspells, hrounds⟩
  · intro h
    obtain ⟨negative, q, hspells, hrounds⟩ := h
    cases hspells with
    | unsigned hspells =>
      have hread := (readUnsigned?_eq_some hx).mpr ⟨q, hspells, hrounds⟩
      obtain ⟨c, rest, rfl, hc⟩ := hspells.exists_head
      rwa [read?_of_head hc]
    | plus hspells => exact (readUnsigned?_eq_some hx).mpr ⟨q, hspells, hrounds⟩
    | minus hspells => exact (readUnsigned?_eq_some hx).mpr ⟨q, hspells, hrounds⟩

end InventoryTokens.Double
