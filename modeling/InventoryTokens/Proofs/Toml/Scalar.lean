import InventoryTokens.Proofs.Text.Digits
import InventoryTokens.Toml.Scalar

/-!
# Written integers read back

The digits of an integer are one run, which is neither a date nor a number with a fraction and is
read as that integer if it fits in 64 bits.
-/

namespace InventoryTokens.Toml

open Text (natDigits intDigits)

theorem joinGroups?_digits {cs : List Char} (hne : cs ≠ [])
    (h : ∀ c ∈ cs, c.isDigit = true) : joinGroups? Char.isDigit cs = some cs := by
  induction cs with
  | nil => exact absurd rfl hne
  | cons c cs ih =>
    have hc := h c (by simp)
    cases cs with
    | nil => rw [joinGroups?, if_pos hc]
    | cons d cs =>
      have hnext := ih (by simp) fun e he => h e (by simp [he])
      rw [joinGroups?, if_pos hc, hnext]
      · rfl
      · intro hnil
        cases hnil
      · intro tail htail
        have hd := h d (by simp)
        rw [(List.cons.inj htail).1] at hd
        exact absurd hd (by decide)

theorem wholeDigits?_natDigits (n : Nat) : wholeDigits? (natDigits n) = some (natDigits n) := by
  have hjoin : joinGroups? Char.isDigit (natDigits n) = some (natDigits n) :=
    joinGroups?_digits (Text.natDigits_ne_nil n) fun c => Text.isDigit_of_mem_natDigits
  rw [wholeDigits?, hjoin]
  split
  · rename_i d ds hdigits
    have hdigits := Option.some.inj hdigits
    rcases Nat.eq_zero_or_pos n with rfl | hpos
    · cases hdigits
    · have hhead := Text.head?_natDigits hpos
      rw [hdigits] at hhead
      exact absurd rfl hhead
  · rfl

theorem splitSign_natDigits (n : Nat) : splitSign (natDigits n) = (false, natDigits n) := by
  unfold splitSign
  split
  · rename_i cs hcs
    have hminus := Text.isDigit_of_mem_natDigits (n := n) (c := '-') (by simp [hcs])
    exact absurd hminus (by decide)
  · rename_i cs hcs
    have hplus := Text.isDigit_of_mem_natDigits (n := n) (c := '+') (by simp [hcs])
    exact absurd hplus (by decide)
  · rfl

theorem splitSign_intDigits (n : Int) :
    splitSign (intDigits n) = (decide (n < 0), natDigits n.natAbs) := by
  unfold intDigits
  split
  · rename_i h
    rw [decide_eq_true h]
    rfl
  · rename_i h
    rw [decide_eq_false h]
    exact splitSign_natDigits _

theorem decimalInteger?_intDigits (n : Int) : decimalInteger? (intDigits n) = some n := by
  have hvalue : Nat.ofDigitChars 10 (natDigits n.natAbs) 0 = n.natAbs :=
    Nat.ofDigitChars_toDigits (by decide) (by decide)
  rw [decimalInteger?, splitSign_intDigits]
  simp only [wholeDigits?_natDigits, Option.map_some, hvalue, decide_eq_true_eq]
  split <;> exact congrArg some (by omega)

theorem markedInteger?_intDigits (n : Int) : markedInteger? (intDigits n) = none := by
  have hnot : ∀ d cs, intDigits n = '0' :: d :: cs → d.isDigit = true := by
    intro d cs h
    exact Text.isDigit_of_mem_tail_intDigits (n := n) (by simp [h])
  unfold markedInteger?
  split
  · rename_i cs hcs
    exact absurd (hnot _ _ hcs) (by decide)
  · rename_i cs hcs
    exact absurd (hnot _ _ hcs) (by decide)
  · rename_i cs hcs
    exact absurd (hnot _ _ hcs) (by decide)
  · rfl

theorem integer?_intDigits {n : Int} (h : Text.FitsInt64 n) :
    integer? (intDigits n) = some (.whole n) := by
  rw [integer?, markedInteger?_intDigits, decimalInteger?_intDigits]
  exact if_pos h

theorem splitAtMark_of_not_mark {isMark : Char → Bool} {cs : List Char}
    (h : ∀ c ∈ cs, isMark c = false) : splitAtMark isMark cs = (cs, []) := by
  have hall : ∀ c ∈ cs, (!isMark c) = true := fun c hc => by rw [h c hc]; rfl
  rw [splitAtMark, List.takeWhile_eq_self_iff.mpr hall, List.dropWhile_eq_nil_iff.mpr hall]

/-- A written integer has neither a point nor an exponent. -/
theorem float?_intDigits (n : Int) : float? (intDigits n) = none := by
  have hdigit : ∀ c ∈ natDigits n.natAbs, c.isDigit = true :=
    fun c => Text.isDigit_of_mem_natDigits
  have hne : ∀ d : Char, d.isDigit = false → d ∉ natDigits n.natAbs := by
    intro d hd hmem
    rw [hdigit d hmem] at hd
    simp at hd
  have hpower : splitAtMark (fun c => c = 'e' || c = 'E') (natDigits n.natAbs) =
      (natDigits n.natAbs, []) := by
    refine splitAtMark_of_not_mark fun c hc => ?_
    have hlower : c ≠ 'e' := fun he => hne 'e' (by decide) (he ▸ hc)
    have hupper : c ≠ 'E' := fun he => hne 'E' (by decide) (he ▸ hc)
    simp [hlower, hupper]
  have hpoint : splitAtMark (· = '.') (natDigits n.natAbs) = (natDigits n.natAbs, []) := by
    refine splitAtMark_of_not_mark fun c hc => ?_
    have hdot : c ≠ '.' := fun he => hne '.' (by decide) (he ▸ hc)
    simp [hdot]
  have hinf : natDigits n.natAbs ≠ ['i', 'n', 'f'] :=
    fun he => hne 'i' (by decide) (by rw [he]; simp)
  have hnan : natDigits n.natAbs ≠ ['n', 'a', 'n'] :=
    fun he => hne 'n' (by decide) (by rw [he]; simp)
  rw [float?, splitSign_intDigits]
  simp only [if_neg hinf, if_neg hnan, hpower, hpoint, and_self, if_true]

theorem readNat?_pair {a b : Char} {n : Nat} (h : Text.readNat? [a, b] = some n) :
    a.isDigit = true := by
  unfold Text.readNat? at h
  split at h
  · rename_i hall
    exact List.all_eq_true.mp hall.2 a (by simp)
  · simp at h

theorem twoDigits?_eq_some {low high n : Nat} {cs rest : List Char}
    (h : twoDigits? low high cs = some (n, rest)) :
    ∃ a b, cs = a :: b :: rest ∧ a.isDigit = true := by
  unfold twoDigits? at h
  split at h
  · rename_i a b tail
    split at h
    · rename_i m hread
      split at h
      · obtain ⟨-, rfl⟩ := Prod.mk.inj (Option.some.inj h)
        exact ⟨a, b, rfl, readNat?_pair hread⟩
      · simp at h
    · simp at h
  · simp at h

theorem after?_eq_some {c : Char} {cs rest : List Char} (h : after? c cs = some rest) :
    cs = c :: rest := by
  cases cs with
  | nil => simp [after?] at h
  | cons d tail =>
    rw [after?] at h
    split at h
    · rename_i hd
      rw [hd, Option.some.inj h]
    · simp at h

theorem afterDate?_eq_some {cs rest : List Char} (h : afterDate? cs = some rest) :
    ∃ a tail, cs = a :: tail ∧ a.isDigit = true ∧ '-' ∈ tail := by
  simp only [afterDate?, Option.bind_eq_bind, Option.bind_eq_some_iff, Prod.exists] at h
  obtain ⟨century, afterCentury, hcentury, year, afterYear, hyear, afterDash, hdash, -⟩ := h
  obtain ⟨a, b, rfl, ha⟩ := twoDigits?_eq_some hcentury
  obtain ⟨c, d, rfl, -⟩ := twoDigits?_eq_some hyear
  rw [after?_eq_some hdash]
  exact ⟨a, _, rfl, ha, by simp⟩

theorem afterTime?_eq_some {cs rest : List Char} (h : afterTime? cs = some rest) :
    ∃ a tail, cs = a :: tail ∧ a.isDigit = true ∧ ':' ∈ tail := by
  simp only [afterTime?, Option.bind_eq_bind, Option.bind_eq_some_iff, Prod.exists] at h
  obtain ⟨hour, afterHour, hhour, afterColon, hcolon, -⟩ := h
  obtain ⟨a, b, rfl, ha⟩ := twoDigits?_eq_some hhour
  rw [after?_eq_some hcolon]
  exact ⟨a, _, rfl, ha, by simp⟩

theorem afterDate?_intDigits (n : Int) : afterDate? (intDigits n) = none := by
  refine Option.eq_none_iff_forall_ne_some.mpr fun rest h => ?_
  obtain ⟨a, tail, hcs, -, hmem⟩ := afterDate?_eq_some h
  have hdash := Text.isDigit_of_mem_tail_intDigits (n := n) (c := '-') (by rw [hcs]; exact hmem)
  exact absurd hdash (by decide)

theorem afterTime?_intDigits (n : Int) : afterTime? (intDigits n) = none := by
  refine Option.eq_none_iff_forall_ne_some.mpr fun rest h => ?_
  obtain ⟨a, tail, hcs, -, hmem⟩ := afterTime?_eq_some h
  have hcolon := Text.isDigit_of_mem_tail_intDigits (n := n) (c := ':') (by rw [hcs]; exact hmem)
  exact absurd hcolon (by decide)

theorem intDigits_ne_word {n : Int} {c : Char} {cs : List Char} (hminus : c ≠ '-')
    (hdigit : c.isDigit = false) : intDigits n ≠ c :: cs := by
  intro h
  obtain ⟨d, ds, hds, hd⟩ := Text.head_intDigits n
  rw [h] at hds
  rw [← (List.cons.inj hds).1] at hd
  rcases hd with hd | hd
  · exact hminus hd
  · rw [hd] at hdigit
    simp at hdigit

theorem scalar?_intDigits {n : Int} (h : Text.FitsInt64 n) :
    scalar? (intDigits n) = some (.whole n) := by
  have htrue : intDigits n ≠ ['t', 'r', 'u', 'e'] := intDigits_ne_word (by decide) (by decide)
  have hfalse : intDigits n ≠ ['f', 'a', 'l', 's', 'e'] :=
    intDigits_ne_word (by decide) (by decide)
  have hdate : ¬isDateTime (intDigits n) = true := by
    rw [isDateTime, afterDate?_intDigits, afterTime?_intDigits]
    simp
  rw [scalar?, if_neg htrue, if_neg hfalse, if_neg hdate, float?_intDigits,
    integer?_intDigits h]
  rfl

/-- A run that is no date is read as a whole. -/
theorem scanScalar_append {cs rest : List Char} {d : Datum}
    (hcs : ∀ c ∈ cs, isScalarChar c = true) (hrest : ∀ c ∈ rest.head?, isScalarChar c = false)
    (hdate : afterDate? cs = none) (hscalar : scalar? cs = some d) :
    scanScalar (cs ++ rest) = some (d, rest) := by
  obtain ⟨htake, hdrop⟩ := Text.span_append hcs hrest
  simp only [scanScalar, htake, hdrop, hdate, hscalar, Option.map_some]
  split
  · simp
  · rfl

theorem isScalarChar_of_mem_intDigits {n : Int} {c : Char} (h : c ∈ intDigits n) :
    isScalarChar c = true := by
  have hdigit : c = '-' ∨ c.isDigit = true := by
    obtain ⟨d, ds, hds, hd⟩ := Text.head_intDigits n
    rw [hds] at h
    rcases List.mem_cons.mp h with rfl | hmem
    · exact hd
    · exact Or.inr (Text.isDigit_of_mem_tail_intDigits (n := n) (by rw [hds]; exact hmem))
  rcases hdigit with rfl | hdigit
  · rfl
  · simp [isScalarChar, Char.isAlphanum, hdigit]

theorem scanScalar_intDigits {n : Int} (h : Text.FitsInt64 n) {rest : List Char}
    (hrest : ∀ c ∈ rest.head?, isScalarChar c = false) :
    scanScalar (intDigits n ++ rest) = some (.whole n, rest) :=
  scanScalar_append (fun _ => isScalarChar_of_mem_intDigits) hrest (afterDate?_intDigits n)
    (scalar?_intDigits h)

theorem scanScalar_true {rest : List Char} (hrest : ∀ c ∈ rest.head?, isScalarChar c = false) :
    scanScalar (['t', 'r', 'u', 'e'] ++ rest) = some (.flag true, rest) :=
  scanScalar_append (List.all_eq_true.mp rfl) hrest rfl rfl

theorem scanScalar_false {rest : List Char} (hrest : ∀ c ∈ rest.head?, isScalarChar c = false) :
    scanScalar (['f', 'a', 'l', 's', 'e'] ++ rest) = some (.flag false, rest) :=
  scanScalar_append (List.all_eq_true.mp rfl) hrest rfl rfl

end InventoryTokens.Toml
