import InventoryTokens.Proofs.Argument
import InventoryTokens.Proofs.Double.Numeral
import InventoryTokens.Proofs.Text.Pieces

/-!
# Classes of texts

What a text is inferred to be, said with the spelling of integers and of numbers.  Each class is
tried on what the classes before it leave, and every text without the blanks around it is in exactly
one of them.
-/

namespace InventoryTokens.Argument

/-- A text spells an integer of 64 bits. -/
def SpellsWhole (cs : List Char) (w : Int64) : Prop := Text.Spells cs w.toInt

/-- A text spells a number that is rounded to a finite double. -/
def SpellsFinite (cs : List Char) (x : Double) : Prop :=
  x.isFinite = true ∧ ∃ negative q, Double.SpellsNumber cs negative q ∧ Double.Rounds negative q x

/-- A text stands for a value: an integer if it spells one, else a number if it spells one, else a
truth value if it is the name of one, else itself with the blanks around it. -/
inductive Denotes (raw : String) : Argument → Prop
  | whole {w : Int64} (spells : SpellsWhole (Text.bare raw.toList) w) : Denotes raw (.whole w)
  | number {x : Double} (not_whole : ¬∃ w, SpellsWhole (Text.bare raw.toList) w)
    (spells : SpellsFinite (Text.bare raw.toList) x) : Denotes raw (.number x)
  | flag {b : Bool} (not_whole : ¬∃ w, SpellsWhole (Text.bare raw.toList) w)
    (not_number : ¬∃ x, SpellsFinite (Text.bare raw.toList) x)
    (named : Text.bare raw.toList = (if b then "true" else "false").toList) :
    Denotes raw (.flag b)
  | text (not_whole : ¬∃ w, SpellsWhole (Text.bare raw.toList) w)
    (not_number : ¬∃ x, SpellsFinite (Text.bare raw.toList) x)
    (not_true : Text.bare raw.toList ≠ "true".toList)
    (not_false : Text.bare raw.toList ≠ "false".toList) : Denotes raw (.text raw)

theorem spellsWhole_iff {cs : List Char} {w : Int64} :
    (Text.readInt? cs).bind Text.int64? = some w ↔ SpellsWhole cs w := by
  rw [Option.bind_eq_some_iff, SpellsWhole]
  simp only [Text.readInt?_eq_some, Text.int64?_eq_some, exists_eq_right']

theorem spellsFinite_iff {cs : List Char} {x : Double} :
    (Double.read? cs).filter Double.isFinite = some x ↔ SpellsFinite cs x := by
  rw [Option.filter_eq_some_iff, SpellsFinite, and_comm]
  exact and_congr_right fun hx => Double.read?_eq_some hx

theorem spells_no_whole_iff {cs : List Char} :
    (Text.readInt? cs).bind Text.int64? = none ↔ ¬∃ w, SpellsWhole cs w := by
  rw [Option.eq_none_iff_forall_ne_some, not_exists]
  exact forall_congr' fun w => not_congr spellsWhole_iff

theorem spells_no_finite_iff {cs : List Char} :
    (Double.read? cs).filter Double.isFinite = none ↔ ¬∃ x, SpellsFinite cs x := by
  rw [Option.eq_none_iff_forall_ne_some, not_exists]
  exact forall_congr' fun x => not_congr spellsFinite_iff

/-- Every text stands for what is inferred from it. -/
theorem denotes_parse (raw : String) : Denotes raw (parse raw) := by
  rw [parse, Text.trim_eq_bare, infer?]
  split
  · rename_i w hwhole
    exact .whole (spellsWhole_iff.mp hwhole)
  · rename_i hwhole
    have hwhole := spells_no_whole_iff.mp hwhole
    split
    · rename_i x hnumber
      exact .number hwhole (spellsFinite_iff.mp hnumber)
    · rename_i hnumber
      have hnumber := spells_no_finite_iff.mp hnumber
      split
      · rename_i htrue
        exact .flag hwhole hnumber htrue
      · rename_i htrue
        split
        · rename_i hfalse
          exact .flag hwhole hnumber hfalse
        · rename_i hfalse
          exact .text hwhole hnumber htrue hfalse

/-- No text stands for a second value. -/
theorem parse_eq_of_denotes {raw : String} {a : Argument} (h : Denotes raw a) : parse raw = a := by
  cases h with
  | whole hspells => exact parse_eq_of_infer? (infer?_of_whole (spellsWhole_iff.mpr hspells))
  | number hwhole hspells =>
    apply parse_eq_of_infer?
    rw [infer?, spells_no_whole_iff.mpr hwhole, spellsFinite_iff.mpr hspells]
  | @flag b hwhole hnumber hnamed =>
    apply parse_eq_of_infer?
    rw [hnamed]
    cases b <;> decide
  | text hwhole hnumber htrue hfalse =>
    rw [parse, Text.trim_eq_bare, infer?, spells_no_whole_iff.mpr hwhole,
      spells_no_finite_iff.mpr hnumber]
    simp only [String.reduceToList] at htrue hfalse
    rw [if_neg htrue, if_neg hfalse, Option.getD_none]

theorem parse_eq_iff {raw : String} {a : Argument} : parse raw = a ↔ Denotes raw a := by
  constructor
  · intro h
    rw [← h]
    exact denotes_parse raw
  · exact parse_eq_of_denotes

/-- An integer of any number of digits is inferred exactly if it fits in 64 bits. -/
theorem exists_parse_eq_whole {raw : String} {n : Int}
    (h : Text.Spells (Text.bare raw.toList) n) :
    (∃ w, parse raw = .whole w) ↔ Text.FitsInt64 n := by
  have hwhole : ∀ w, parse raw = .whole w ↔ Text.int64? n = some w := by
    intro w
    rw [parse_eq_whole, Text.int64?_eq_some, ← Text.readInt?_eq_some, Text.readInt?_of_spells h,
      Option.some.injEq, eq_comm]
  simp only [hwhole, Text.int64?]
  split
  · rename_i hfits
    exact iff_of_true ⟨_, rfl⟩ hfits
  · rename_i hlarge
    exact iff_of_false (by simp) hlarge

/-- Blanks around a text change nothing but the text itself. -/
theorem Denotes.blanks {raw : String} {a : Argument} (h : Denotes raw a)
    (hvalue : ∀ s, a ≠ .text s) {left right : String}
    (hleft : ∀ c ∈ left.toList, Text.isBlank c = true)
    (hright : ∀ c ∈ right.toList, Text.isBlank c = true) : Denotes (left ++ raw ++ right) a := by
  have hbare : Text.bare (left ++ raw ++ right).toList = Text.bare raw.toList := by
    rw [String.toList_append, String.toList_append, Text.bare_append hleft hright]
  cases h with
  | whole hspells => exact .whole (hbare ▸ hspells)
  | number hwhole hspells => exact .number (hbare ▸ hwhole) (hbare ▸ hspells)
  | flag hwhole hnumber hnamed =>
    exact .flag (hbare ▸ hwhole) (hbare ▸ hnumber) (hbare.trans hnamed)
  | text => exact absurd rfl (hvalue raw)

/-- Every text is inferred to be the one value that it stands for.  An integer that does not fit in
64 bits is never taken for a whole number, no number is anything but finite, and blanks around a
text do not change a value that is more than the text itself. -/
theorem parse_classes (raw : String) :
    (∀ a, parse raw = a ↔ Denotes raw a) ∧
    (∀ n, Text.Spells (Text.bare raw.toList) n →
      ((∃ w, parse raw = .whole w) ↔ Text.FitsInt64 n)) ∧
    (∀ x, parse raw = .number x → x.isFinite = true) ∧
    (∀ left right : String, (∀ c ∈ left.toList, Text.isBlank c = true) →
      (∀ c ∈ right.toList, Text.isBlank c = true) → (∀ s, parse raw ≠ .text s) →
        parse (left ++ raw ++ right) = parse raw) := by
  refine ⟨fun a => parse_eq_iff, fun n => exists_parse_eq_whole, fun x => isFinite_of_parse, ?_⟩
  intro left right hleft hright hvalue
  exact parse_eq_iff.mpr ((denotes_parse raw).blanks hvalue hleft hright)

/-- The first integer beyond 64 bits is a number, with blanks or without, and a number beyond all
finite doubles is mere text. -/
theorem parse_classes_beyond :
    (¬∃ w, parse "+09223372036854775808" = .whole w) ∧
    parse ("\u00a0 " ++ "+09223372036854775808" ++ "\n") = .number (.ofInt (2 ^ 63)) ∧
    Denotes " 1e400" (.text " 1e400") := by
  obtain ⟨-, hlarge, -, hblanks⟩ := parse_classes "+09223372036854775808"
  have hspells : Text.Spells (Text.bare "+09223372036854775808".toList) 9223372036854775808 :=
    Text.spells_of_readInt? (by decide)
  have hnumber : parse "+09223372036854775808" = .number (.ofInt (2 ^ 63)) := by decide +kernel
  have hleft : ∀ c ∈ "\u00a0 ".toList, Text.isBlank c = true := List.all_eq_true.mp (by decide)
  have hright : ∀ c ∈ "\n".toList, Text.isBlank c = true := List.all_eq_true.mp (by decide)
  refine ⟨?_, ?_, ((parse_classes " 1e400").1 _).mp (by decide +kernel)⟩
  · rw [hlarge _ hspells]
    decide
  · rw [hblanks _ _ hleft hright (by rw [hnumber]; simp), hnumber]

end InventoryTokens.Argument
