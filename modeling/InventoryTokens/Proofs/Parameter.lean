import InventoryTokens.Proofs.Double.Value
import InventoryTokens.Schema

/-!
# Bounds and integers

A parameter compares an integer with its bounds after rounding it to a double.  No integer within
the bounds is refused by that.  One outside may be accepted, but only if it is rounded onto the very
bound that it misses, which cannot happen below `2 ^ 53`.
-/

namespace InventoryTokens.Parameter

/-- An integer lies within the bounds that are there, all numbers exact. -/
def Bounds (p : Parameter) (n : Int) : Prop :=
  (∀ low ∈ p.minimum, low.value ≤ n) ∧ ∀ high ∈ p.maximum, (n : ℚ) ≤ high.value

/-- A double is one of the bounds. -/
def HasBound (p : Parameter) (x : Double) : Prop := x ∈ p.minimum ∨ x ∈ p.maximum

/-- Both numeric kinds treat a whole number alike. -/
theorem accepts_whole_eq {p : Parameter} (hkind : p.kind = .int ∨ p.kind = .number) (w : Int64) :
    p.accepts (.whole w) = p.inRange (.ofInt w.toInt) := by
  obtain ⟨name, kind, low, high⟩ := p
  obtain rfl | rfl : kind = .int ∨ kind = .number := hkind
  · rfl
  · rfl

theorem inRange_eq_true {p : Parameter} {x : Double} :
    p.inRange x = true ↔
      (∀ low ∈ p.minimum, low.atMost x = true) ∧ ∀ high ∈ p.maximum, x.atMost high = true := by
  rw [inRange, Bool.and_eq_true, Option.all_eq_true, Option.all_eq_true]
  exact Iff.rfl

theorem inRange_ofInt_iff {p : Parameter} (hfinite : ∀ x, p.HasBound x → x.isFinite = true)
    (n : Int) :
    p.inRange (.ofInt n) = true ↔
      (∀ low ∈ p.minimum, low.value ≤ n ∨ low.equal (.ofInt n) = true) ∧
      ∀ high ∈ p.maximum, (n : ℚ) ≤ high.value ∨ high.equal (.ofInt n) = true := by
  rw [inRange_eq_true]
  apply and_congr
  · apply forall₂_congr
    intro low hlow
    exact Double.atMost_ofInt_iff (hfinite low (Or.inl hlow)) n
  · apply forall₂_congr
    intro high hhigh
    exact Double.ofInt_atMost_iff (hfinite high (Or.inr hhigh)) n

/-- An integer within the bounds is accepted, and one that is accepted is within each bound or
rounded onto it.  If the integer has at most 53 binary digits, or all bounds are smaller than that,
it is accepted exactly if it is within the bounds. -/
theorem accepts_whole_iff (p : Parameter) (hkind : p.kind = .int ∨ p.kind = .number)
    (hfinite : ∀ x, p.HasBound x → x.isFinite = true) (w : Int64) :
    (p.Bounds w.toInt → p.accepts (.whole w) = true) ∧
    (p.accepts (.whole w) = true ↔
      (∀ low ∈ p.minimum, low.value ≤ w.toInt ∨ low.equal (.ofInt w.toInt) = true) ∧
      ∀ high ∈ p.maximum, (w.toInt : ℚ) ≤ high.value ∨ high.equal (.ofInt w.toInt) = true) ∧
    ((w.toInt.natAbs ≤ 2 ^ 53 ∨ ∀ x, p.HasBound x → |x.value| < 2 ^ 53) →
      (p.accepts (.whole w) = true ↔ p.Bounds w.toInt)) := by
  rw [accepts_whole_eq hkind]
  have haccepted := inRange_ofInt_iff hfinite w.toInt
  have hwithin : p.Bounds w.toInt → p.inRange (.ofInt w.toInt) = true := by
    intro hbounds
    apply haccepted.mpr
    exact ⟨fun low hlow => Or.inl (hbounds.1 low hlow),
      fun high hhigh => Or.inl (hbounds.2 high hhigh)⟩
  refine ⟨hwithin, haccepted, fun hsmall => ⟨fun h => ?_, hwithin⟩⟩
  have honto : ∀ x, p.HasBound x → x.equal (.ofInt w.toInt) = true → x.value = w.toInt := by
    intro x hx he
    apply Double.value_eq_of_equal_ofInt (hfinite x hx) he
    exact hsmall.imp_right fun hbounds => hbounds x hx
  obtain ⟨hlow, hhigh⟩ := haccepted.mp h
  constructor
  · intro low hmem
    exact (hlow low hmem).elim id fun he => (honto low (Or.inl hmem) he).le
  · intro high hmem
    exact (hhigh high hmem).elim id fun he => (honto high (Or.inr hmem) he).ge

/-- A whole number from zero up to and including `2 ^ 53`. -/
def upToLimit (kind : Kind) : Parameter where
  name := "n"
  kind := kind
  minimum := some (.ofInt 0)
  maximum := some (.ofInt (2 ^ 53))

theorem upToLimit_bound (kind : Kind) {x : Double} (h : (upToLimit kind).HasBound x) :
    x.isFinite = true ∧ (x.value = 0 ∨ x.value = 2 ^ 53) := by
  have hzero := Double.ofInt_exact (n := 0) (by decide)
  have hlimit := Double.ofInt_exact (n := 2 ^ 53) (by decide)
  push_cast at hzero hlimit
  obtain h | h := h
  · obtain rfl := Option.some.inj h
    exact ⟨hzero.1, Or.inl hzero.2⟩
  · obtain rfl := Option.some.inj h
    exact ⟨hlimit.1, Or.inr hlimit.2⟩

/-- The limit itself is accepted, and no negative number is. -/
theorem accepts_whole_limit :
    (upToLimit .number).accepts (.whole 9007199254740992) = true ∧
    (upToLimit .number).accepts (.whole (-1)) ≠ true := by
  have hfinite : ∀ x, (upToLimit .number).HasBound x → x.isFinite = true :=
    fun x hx => (upToLimit_bound .number hx).1
  have hzero := (Double.ofInt_exact (n := 0) (by decide)).2
  have hlimit := (Double.ofInt_exact (n := 2 ^ 53) (by decide)).2
  constructor
  · apply (accepts_whole_iff (upToLimit .number) (Or.inr rfl) hfinite 9007199254740992).1
    constructor
    · intro low hlow
      obtain rfl := Option.some.inj hlow
      rw [hzero]
      exact_mod_cast (by decide : 0 ≤ (9007199254740992 : Int64).toInt)
    · intro high hhigh
      obtain rfl := Option.some.inj hhigh
      rw [hlimit]
      exact_mod_cast (by decide : (9007199254740992 : Int64).toInt ≤ 2 ^ 53)
  · have hexact := (accepts_whole_iff (upToLimit .number) (Or.inr rfl) hfinite (-1)).2.2
    rw [Ne, hexact (Or.inl (by decide))]
    intro hbounds
    have hlow := hbounds.1 (.ofInt 0) rfl
    rw [hzero] at hlow
    exact absurd (by exact_mod_cast hlow : (0 : Int) ≤ (-1 : Int64).toInt) (by decide)

/-- The integer after the limit is rounded onto it and accepted, though it exceeds the maximum. -/
theorem accepts_beyond_limit :
    (∀ x, (upToLimit .int).HasBound x → x.isFinite = true) ∧
    (upToLimit .int).accepts (.whole 9007199254740993) = true ∧
    ¬(upToLimit .int).Bounds (9007199254740993 : Int64).toInt := by
  refine ⟨fun x hx => (upToLimit_bound .int hx).1, by decide +kernel, fun hbounds => ?_⟩
  have hlimit := (Double.ofInt_exact (n := 2 ^ 53) (by decide)).2
  have hhigh := hbounds.2 (.ofInt (2 ^ 53)) rfl
  rw [hlimit] at hhigh
  exact absurd (by exact_mod_cast hhigh : (9007199254740993 : Int64).toInt ≤ 2 ^ 53) (by decide)

end InventoryTokens.Parameter
