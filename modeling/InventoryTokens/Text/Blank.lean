/-!
# Blank characters, the cutting of text, and the case of letters

Texts are cut as lists of characters.  Trimming removes blank characters at both ends and nothing
else; cutting at a separator loses nothing but the separators.  Two texts have the same letters if
they differ at most in the case of ASCII letters.
-/

namespace InventoryTokens.Text

/-- Code points with the property White_Space, as inclusive ranges in ascending order. -/
def blankRanges : List (Nat × Nat) :=
  [(0x09, 0x0D), (0x20, 0x20), (0x85, 0x85), (0xA0, 0xA0), (0x1680, 0x1680), (0x2000, 0x200A),
    (0x2028, 0x2029), (0x202F, 0x202F), (0x205F, 0x205F), (0x3000, 0x3000)]

def isBlank (c : Char) : Bool :=
  blankRanges.any fun (low, high) => low ≤ c.toNat && c.toNat ≤ high

def trimEnd (cs : List Char) : List Char :=
  (cs.reverse.dropWhile isBlank).reverse

def trim (cs : List Char) : List Char :=
  trimEnd (cs.dropWhile isBlank)

/-- The text before the first separator, and the texts between the separators after it. -/
def cut (separator : Char) : List Char → List Char × List (List Char)
  | [] => ([], [])
  | c :: cs =>
    let (first, rest) := cut separator cs
    if c = separator then ([], first :: rest) else (c :: first, rest)

/-- The number of further pieces is the number of separators. -/
theorem length_cut (separator : Char) (cs : List Char) :
    (cut separator cs).2.length = cs.count separator := by
  induction cs with
  | nil => rfl
  | cons c cs ih =>
    by_cases h : c = separator <;> simp [cut, h, ih]

/-- No piece holds the separator. -/
theorem not_mem_cut (separator : Char) (cs : List Char) :
    separator ∉ (cut separator cs).1 ∧ ∀ piece ∈ (cut separator cs).2, separator ∉ piece := by
  induction cs with
  | nil => simp [cut]
  | cons c cs ih =>
    by_cases h : c = separator
    · simpa [cut, h] using ih
    · have h' : ¬separator = c := fun e => h e.symm
      simpa [cut, h, h'] using ih

/-- The text before and the text after the first separator, if there is one. -/
def cutOnce (separator : Char) : List Char → Option (List Char × List Char)
  | [] => none
  | c :: cs =>
    if c = separator then some ([], cs)
    else (cutOnce separator cs).map fun (before, after) => (c :: before, after)

/-- A cut in two puts the text back together around a separator that the first part lacks. -/
theorem cutOnce_eq_some {separator : Char} {cs before after : List Char} :
    cutOnce separator cs = some (before, after) ↔
      cs = before ++ separator :: after ∧ separator ∉ before := by
  induction cs generalizing before with
  | nil => simp [cutOnce]
  | cons c cs ih =>
    by_cases h : c = separator
    · subst h
      cases before with
      | nil => simp [cutOnce, eq_comm]
      | cons b bs =>
        simp only [cutOnce, if_true]
        constructor
        · intro e
          simp at e
        · rintro ⟨e, hn⟩
          simp only [List.cons_append, List.cons.injEq] at e
          exact absurd (by simp [e.1]) hn
    · cases before with
      | nil =>
        simp only [cutOnce, if_neg h, List.nil_append, List.cons.injEq]
        constructor
        · intro e
          simp at e
        · rintro ⟨⟨e, _⟩, _⟩
          exact absurd e h
      | cons b bs =>
        simp only [cutOnce, if_neg h, Option.map_eq_some_iff, Prod.exists, Prod.mk.injEq,
          List.cons.injEq, List.cons_append, List.mem_cons, not_or]
        constructor
        · rintro ⟨x, y, hxy, ⟨rfl, rfl⟩, rfl⟩
          obtain ⟨e, hn⟩ := ih.mp hxy
          exact ⟨⟨rfl, e⟩, fun e' => h e'.symm, hn⟩
        · rintro ⟨⟨rfl, e⟩, _, hn⟩
          exact ⟨bs, after, ih.mpr ⟨e, hn⟩, ⟨rfl, rfl⟩, rfl⟩

/-- Text without the separator is not cut. -/
theorem cutOnce_eq_none {separator : Char} {cs : List Char} :
    cutOnce separator cs = none ↔ separator ∉ cs := by
  induction cs with
  | nil => simp [cutOnce]
  | cons c cs ih =>
    by_cases h : c = separator
    · simp [cutOnce, h]
    · have h' : ¬separator = c := fun e => h e.symm
      simp [cutOnce, h, h', ih]

/-- The ASCII letter in lower case; any other character as it is. -/
def asciiLower (c : Char) : Char :=
  if 'A' ≤ c ∧ c ≤ 'Z' then Char.ofNat (c.toNat + 32) else c

/-- Whether two texts agree up to the case of ASCII letters. -/
def sameLetters (a b : String) : Bool :=
  a.toList.map asciiLower == b.toList.map asciiLower

/-- The first is an ASCII letter in upper case, the second that letter in lower case. -/
def UpperOf (c d : Char) : Prop := 'A' ≤ c ∧ c ≤ 'Z' ∧ d.toNat = c.toNat + 32

/-- One character, or one ASCII letter in both cases. -/
def SameLetter (c d : Char) : Prop := c = d ∨ UpperOf c d ∨ UpperOf d c

theorem upper_iff {c : Char} : ('A' ≤ c ∧ c ≤ 'Z') ↔ 65 ≤ c.toNat ∧ c.toNat ≤ 90 := Iff.rfl

theorem toNat_asciiLower (c : Char) :
    (asciiLower c).toNat = if 65 ≤ c.toNat ∧ c.toNat ≤ 90 then c.toNat + 32 else c.toNat := by
  have hlower : ∀ n ≤ 90, (Char.ofNat (n + 32)).toNat = n + 32 := by decide
  simp only [asciiLower, upper_iff]
  split
  case isTrue h => exact hlower c.toNat h.2
  case isFalse => rfl

theorem asciiLower_eq_asciiLower {c d : Char} : asciiLower c = asciiLower d ↔ SameLetter c d := by
  simp only [SameLetter, UpperOf, ← and_assoc, upper_iff, ← Char.toNat_inj, toNat_asciiLower]
  split <;> split <;> omega

theorem map_asciiLower_eq_iff {cs ds : List Char} :
    cs.map asciiLower = ds.map asciiLower ↔
      cs.length = ds.length ∧ ∀ p ∈ cs.zip ds, SameLetter p.1 p.2 := by
  induction cs generalizing ds with
  | nil => cases ds <;> simp
  | cons c cs ih =>
    cases ds with
    | nil => simp
    | cons d ds =>
      simp only [List.map_cons, List.cons.injEq, asciiLower_eq_asciiLower, ih, List.length_cons,
        Nat.add_right_cancel_iff, List.zip_cons_cons, List.forall_mem_cons, and_left_comm]

/-- Texts have the same letters exactly if they are of one length and the same at every place. -/
theorem sameLetters_iff {a b : String} :
    sameLetters a b = true ↔
      a.length = b.length ∧ ∀ p ∈ a.toList.zip b.toList, SameLetter p.1 p.2 := by
  rw [sameLetters, beq_iff_eq, map_asciiLower_eq_iff, String.length_toList, String.length_toList]

end InventoryTokens.Text
