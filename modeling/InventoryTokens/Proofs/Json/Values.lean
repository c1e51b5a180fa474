import InventoryTokens.Proofs.Json.Quoted
import InventoryTokens.Proofs.Text.Digits

/-!
# Values read back

A datum reads back if it is scanned from its own text, whatever closes it there.  Absence, texts and
whole numbers of 64 bits do, and so do lists and records of what does.
-/

namespace InventoryTokens.Json

open Text (natDigits intDigits)

/-- What may follow a value: nothing, a comma, or a closing bracket or brace. -/
def Closes (rest : List Char) : Prop :=
  ∀ c ∈ rest.head?, c = ',' ∨ c = ']' ∨ c = '\x7d'

theorem closes_cons {c : Char} {cs : List Char} :
    Closes (c :: cs) ↔ c = ',' ∨ c = ']' ∨ c = '\x7d' := by
  simp [Closes]

theorem Closes.head {rest : List Char} (h : Closes rest) {p : Char → Bool} (hcomma : p ',' = false)
    (hbracket : p ']' = false) (hbrace : p '\x7d' = false) : ∀ c ∈ rest.head?, p c = false := by
  intro c hc
  rcases h c hc with rfl | rfl | rfl
  · exact hcomma
  · exact hbracket
  · exact hbrace

theorem Closes.ne {rest : List Char} (h : Closes rest) {c : Char} (hcomma : c ≠ ',')
    (hbracket : c ≠ ']') (hbrace : c ≠ '\x7d') (tail : List Char) : rest ≠ c :: tail := by
  rintro rfl
  rcases h c rfl with he | he | he
  · exact hcomma he
  · exact hbracket he
  · exact hbrace he

theorem scanWhole_natDigits (n : Nat) {rest : List Char}
    (hrest : ∀ c ∈ rest.head?, c.isDigit = false) :
    scanWhole (natDigits n ++ rest) = some (natDigits n, rest) := by
  by_cases hn : n = 0
  · subst hn
    rfl
  · have hdigits : ∀ c ∈ natDigits n, c.isDigit = true := fun c => Text.isDigit_of_mem_natDigits
    obtain ⟨htake, hdrop⟩ := Text.span_append hdigits hrest
    rw [scanWhole, Double.scanDigits, htake, hdrop]
    · simp [Text.natDigits_ne_nil]
    · intro tail heq
      have hhead := Text.head?_natDigits (Nat.pos_of_ne_zero hn)
      obtain ⟨c, cs, hcs⟩ := List.exists_cons_of_ne_nil (Text.natDigits_ne_nil n)
      rw [hcs] at heq hhead
      exact hhead (congrArg some (List.cons.inj heq).1)

theorem scanNumber_natDigits (negative : Bool) (n : Nat) {rest : List Char} (hrest : Closes rest) :
    scanNumber negative (natDigits n ++ rest) = some (wholeDatum negative (natDigits n), rest) := by
  have hfraction : scanFraction rest = some (none, rest) := by
    rw [scanFraction]
    exact fun tail => hrest.ne (by decide) (by decide) (by decide) tail
  have hpower : scanPower rest = some (none, rest) := by
    unfold scanPower
    split
    · exact absurd rfl (hrest.ne (by decide) (by decide) (by decide) _)
    · exact absurd rfl (hrest.ne (by decide) (by decide) (by decide) _)
    · rfl
  simp [scanNumber, scanWhole_natDigits n (hrest.head rfl rfl rfl), hfraction, hpower]

theorem wholeDatum_natDigits {n : Nat} (h : n < wordLimit) :
    wholeDatum false (natDigits n) = .whole n := by
  have hvalue : Nat.ofDigitChars 10 (natDigits n) 0 = n := Nat.ofDigitChars_ten_toDigits
  simp [wholeDatum, hvalue, h]

theorem wholeDatum_neg_natDigits {n : Nat} (hpos : n ≠ 0) (h : n ≤ 0x8000000000000000) :
    wholeDatum true (natDigits n) = .whole (-n) := by
  have hvalue : Nat.ofDigitChars 10 (natDigits n) 0 = n := Nat.ofDigitChars_ten_toDigits
  simp [wholeDatum, hvalue, hpos, h]

theorem ne_of_isDigit {c d : Char} (h : c.isDigit = true) (hd : d.isDigit = false) : c ≠ d := by
  rintro rfl
  rw [h] at hd
  cases hd

/-- Text that starts with a digit is a number without a sign. -/
theorem scanPlain_of_isDigit {c : Char} (h : c.isDigit = true) (cs : List Char) :
    scanPlain (c :: cs) = scanNumber false (c :: cs) := by
  rw [scanPlain]
  all_goals
    intro tail he
    exact absurd (List.cons.inj he).1 (ne_of_isDigit h (by decide))

/-- Whether a whole number is read as one: it fits in 64 bits, with or without a sign. -/
abbrev FitsWhole (n : Int) : Prop :=
  -0x8000000000000000 ≤ n ∧ n < 0x10000000000000000

theorem scanPlain_intDigits {n : Int} (h : FitsWhole n) {rest : List Char} (hrest : Closes rest) :
    scanPlain (intDigits n ++ rest) = some (.whole n, rest) := by
  unfold intDigits
  split
  · have hvalue : -(n.natAbs : Int) = n := by omega
    rw [List.cons_append, scanPlain, scanNumber_natDigits true _ hrest,
      wholeDatum_neg_natDigits (by omega) (by omega), hvalue]
  · have hvalue : (n.natAbs : Int) = n := by omega
    have hsmall : n.natAbs < wordLimit := by
      rw [wordLimit]
      omega
    obtain ⟨c, cs, hcs⟩ := List.exists_cons_of_ne_nil (Text.natDigits_ne_nil n.natAbs)
    have hc : c.isDigit = true := Text.isDigit_of_mem_natDigits (n := n.natAbs) (by simp [hcs])
    have hplain := scanNumber_natDigits false n.natAbs hrest
    rw [hcs, List.cons_append] at hplain ⊢
    rw [scanPlain_of_isDigit hc, hplain, ← hcs, wholeDatum_natDigits hsmall, hvalue]

/-- Whether a character starts a value or a name: it is no blank and closes nothing. -/
def isStart (c : Char) : Bool :=
  !isSpace c && c ≠ ']' && c ≠ '\x7d'

theorem skipSpace_stop {c : Char} (h : isSpace c = false) (cs : List Char) :
    skipSpace (c :: cs) = c :: cs := by
  rw [skipSpace, List.dropWhile_cons_of_neg (by simp [h])]

theorem skipSpace_start {c : Char} (h : isStart c = true) (cs : List Char) :
    skipSpace (c :: cs) = c :: cs := by
  simp only [isStart, Bool.and_eq_true, Bool.not_eq_true'] at h
  exact skipSpace_stop h.1.1 cs

theorem isStart_of_isDigit {c : Char} (h : c.isDigit = true) : isStart c = true := by
  have hne : ∀ d : Char, d.isDigit = false → c ≠ d := fun d => ne_of_isDigit h
  simp [isStart, isSpace, hne]

/-- A datum reads back: its text starts as a value does, and is scanned as the datum in as many
steps as it has characters. -/
structure ReadsBack (d : Datum) : Prop where
  start : ∃ c cs, chars d = c :: cs ∧ isStart c = true
  scan : ∀ steps rest, Closes rest → (chars d).length ≤ steps →
    scanValue steps (chars d ++ rest) = some (d, rest)

/-- A value that is neither a list nor a record is scanned as it stands. -/
theorem scanValue_plain {c : Char} (hstart : isStart c = true) (hbracket : c ≠ '[')
    (hbrace : c ≠ '\x7b') (steps : Nat) (cs : List Char) :
    scanValue (steps + 1) (c :: cs) = scanPlain (c :: cs) := by
  rw [scanValue.eq_def]
  simp only [skipSpace_start hstart]
  split
  · rename_i he
    exact absurd (List.cons.inj he).1 hbracket
  · rename_i he
    exact absurd (List.cons.inj he).1 hbrace
  · rfl

theorem ReadsBack.of_plain {d : Datum} {c : Char} {cs : List Char} (hchars : chars d = c :: cs)
    (hstart : isStart c = true) (hbracket : c ≠ '[') (hbrace : c ≠ '\x7b')
    (h : ∀ rest, Closes rest → scanPlain (chars d ++ rest) = some (d, rest)) : ReadsBack d where
  start := ⟨c, cs, hchars, hstart⟩
  scan := by
    intro steps rest hrest hsteps
    have hplain := h rest hrest
    rw [hchars] at hsteps hplain ⊢
    match steps with
    | steps + 1 => rwa [List.cons_append, scanValue_plain hstart hbracket hbrace]

theorem readsBack_absent : ReadsBack .absent :=
  .of_plain chars.eq_1 (by decide) (by decide) (by decide) fun rest _ => by
    simp [chars, scanPlain, afterWord]

theorem quote_append (s : String) (rest : List Char) :
    quote s ++ rest = '"' :: (s.toList.flatMap escape ++ '"' :: rest) := by
  rw [quote, List.cons_append, List.append_assoc, List.singleton_append]

theorem readsBack_text (s : String) : ReadsBack (.text s) := by
  have hchars : chars (.text s) = quote s := by rw [chars]
  refine .of_plain hchars (by decide) (by decide) (by decide) fun rest _ => ?_
  rw [hchars, quote_append, scanPlain, scanString_quote]
  rfl

theorem readsBack_whole {n : Int} (h : FitsWhole n) : ReadsBack (.whole n) := by
  have hchars : chars (.whole n) = intDigits n := by rw [chars]
  obtain ⟨c, cs, hcs, hc⟩ := Text.head_intDigits n
  have hplain : ∀ rest, Closes rest →
      scanPlain (chars (.whole n) ++ rest) = some (.whole n, rest) := by
    intro rest hrest
    rw [hchars, scanPlain_intDigits h hrest]
  rcases hc with rfl | hc
  · exact .of_plain (hchars.trans hcs) (by decide) (by decide) (by decide) hplain
  · exact .of_plain (hchars.trans hcs) (isStart_of_isDigit hc) (ne_of_isDigit hc (by decide))
      (ne_of_isDigit hc (by decide)) hplain

theorem readsBack_uint32 (n : UInt32) : ReadsBack (.nat n.toNat) := by
  have hlt := n.toNat_lt
  exact readsBack_whole ⟨by omega, by omega⟩

/-- Written items are scanned in order up to the closing bracket. -/
theorem scanItems_chars {items : List Datum} {item : Datum} {steps : Nat} (rest : List Char)
    (h : ∀ d ∈ item :: items, ReadsBack d)
    (hsteps : (chars item ++ charsItems items).length ≤ steps) :
    scanItems steps (chars item ++ (charsItems items ++ rest)) = some (item :: items, rest) := by
  induction items generalizing item steps with
  | nil =>
    rw [charsItems, List.length_append, List.length_singleton] at hsteps
    match steps with
    | steps + 1 =>
      have hitem := (h item (by simp)).scan steps (']' :: rest) (closes_cons.mpr (by decide))
        (by omega)
      rw [charsItems, List.singleton_append, scanItems, hitem]
      simp only [Option.bind_eq_bind, Option.bind_some,
        skipSpace_stop (c := ']') rfl]
  | cons next items ih =>
    rw [charsItems, List.length_append, List.length_cons] at hsteps
    match steps with
    | steps + 1 =>
      have hitem := (h item (by simp)).scan steps
        (',' :: (chars next ++ (charsItems items ++ rest))) (closes_cons.mpr (by decide)) (by omega)
      have hitems : scanItems steps (chars next ++ (charsItems items ++ rest)) =
          some (next :: items, rest) :=
        ih (fun d hd => h d (by simp [hd])) (by omega)
      rw [charsItems, List.cons_append, List.append_assoc, scanItems, hitem]
      simp only [Option.bind_eq_bind, Option.bind_some,
        skipSpace_stop (c := ',') rfl, hitems, Option.map_some]

theorem readsBack_list {items : List Datum} (h : ∀ d ∈ items, ReadsBack d) :
    ReadsBack (.list items) := by
  cases items with
  | nil =>
    have hchars : chars (.list []) = ['[', ']'] := by rw [chars]
    refine ⟨⟨'[', _, hchars, by decide⟩, fun steps rest _ hsteps => ?_⟩
    rw [hchars] at hsteps ⊢
    match steps with
    | steps + 1 => rfl
  | cons item items =>
    have hchars : chars (.list (item :: items)) = '[' :: (chars item ++ charsItems items) := by
      rw [chars]
    refine ⟨⟨'[', _, hchars, by decide⟩, fun steps rest _ hsteps => ?_⟩
    rw [hchars, List.length_cons] at hsteps
    rw [hchars, List.cons_append, List.append_assoc]
    match steps with
    | steps + 1 =>
      have hitems := scanItems_chars rest h (Nat.le_of_succ_le_succ hsteps)
      obtain ⟨c, cs, hcs, hc⟩ := (h item (by simp)).start
      rw [hcs, List.cons_append] at hitems ⊢
      have hbracket : c ≠ ']' := by
        rintro rfl
        cases hc
      rw [scanValue.eq_def]
      simp only [skipSpace_stop (c := '[') rfl, skipSpace_start hc]
      split
      · rename_i he
        exact absurd (List.cons.inj he).1 hbracket
      · rw [hitems, Option.map_some]

theorem charsMember_append (name : String) (value : Datum) (rest : List Char) :
    charsMember (name, value) ++ rest =
      '"' :: (name.toList.flatMap escape ++ '"' :: ':' :: (chars value ++ rest)) := by
  rw [charsMember, List.append_assoc, quote_append]
  rfl

/-- The last member: its value is followed by the closing brace. -/
theorem scanMembers_last (name : String) {value : Datum} {steps : Nat} {cs rest : List Char}
    (hvalue : scanValue steps cs = some (value, '\x7d' :: rest)) :
    scanMembers (steps + 1) ('"' :: (name.toList.flatMap escape ++ '"' :: ':' :: cs)) =
      some (some [(name, value)], rest) := by
  rw [scanMembers]
  simp only [skipSpace_stop (c := '"') rfl, scanString_quote, Option.bind_eq_bind,
    Option.bind_some, skipSpace_stop (c := ':') rfl, hvalue, skipSpace_stop (c := '\x7d') rfl,
    Option.map_some]

/-- A member before others: its value is followed by a comma. -/
theorem scanMembers_more (name : String) {value : Datum} {members : List (String × Datum)}
    {steps : Nat} {cs next rest : List Char}
    (hvalue : scanValue steps cs = some (value, ',' :: next))
    (hmembers : scanMembers steps next = some (some members, rest)) :
    scanMembers (steps + 1) ('"' :: (name.toList.flatMap escape ++ '"' :: ':' :: cs)) =
      some (some ((name, value) :: members), rest) := by
  rw [scanMembers]
  simp only [skipSpace_stop (c := '"') rfl, scanString_quote, Option.bind_eq_bind,
    Option.bind_some, skipSpace_stop (c := ':') rfl, hvalue, skipSpace_stop (c := ',') rfl,
    hmembers, Option.map_some]

/-- Written members are scanned in order up to the closing brace. -/
theorem scanMembers_chars {members : List (String × Datum)} {m : String × Datum} {steps : Nat}
    (rest : List Char) (h : ∀ n ∈ m :: members, ReadsBack n.2)
    (hsteps : (charsMember m ++ charsMembers members).length ≤ steps) :
    scanMembers steps (charsMember m ++ (charsMembers members ++ rest)) =
      some (some (m :: members), rest) := by
  induction members generalizing m steps with
  | nil =>
    obtain ⟨name, value⟩ := m
    have hvalue : ReadsBack value := h (name, value) (by simp)
    rw [charsMembers, charsMember_append, List.length_cons, List.length_append, List.length_cons,
      List.length_cons, List.length_append] at hsteps
    match steps with
    | steps + 1 =>
      rw [charsMembers, List.singleton_append, charsMember_append]
      exact scanMembers_last name (hvalue.scan steps _ (closes_cons.mpr (by decide)) (by omega))
  | cons next members ih =>
    obtain ⟨name, value⟩ := m
    have hvalue : ReadsBack value := h (name, value) (by simp)
    rw [charsMembers, charsMember_append, List.length_cons, List.length_append, List.length_cons,
      List.length_cons, List.length_append, List.length_cons] at hsteps
    match steps with
    | steps + 1 =>
      rw [charsMembers, List.cons_append, List.append_assoc, charsMember_append]
      exact scanMembers_more name (hvalue.scan steps _ (closes_cons.mpr (by decide)) (by omega))
        (ih (fun n hn => h n (by simp [hn])) (by omega))

theorem readsBack_record {members : List (String × Datum)} (h : ∀ m ∈ members, ReadsBack m.2) :
    ReadsBack (.record members) := by
  cases members with
  | nil =>
    have hchars : chars (.record []) = ['\x7b', '\x7d'] := by rw [chars]
    refine ⟨⟨'\x7b', _, hchars, by decide⟩, fun steps rest _ hsteps => ?_⟩
    rw [hchars] at hsteps ⊢
    match steps with
    | steps + 1 => rfl
  | cons m members =>
    have hchars : chars (.record (m :: members)) =
        '\x7b' :: (charsMember m ++ charsMembers members) := by
      rw [chars]
    refine ⟨⟨'\x7b', _, hchars, by decide⟩, fun steps rest _ hsteps => ?_⟩
    rw [hchars, List.length_cons] at hsteps
    rw [hchars, List.cons_append, List.append_assoc]
    match steps with
    | steps + 1 =>
      have hmembers := scanMembers_chars rest h (Nat.le_of_succ_le_succ hsteps)
      obtain ⟨name, value⟩ := m
      rw [charsMember_append] at hmembers ⊢
      rw [scanValue.eq_def]
      simp only [skipSpace_stop (c := '\x7b') rfl, skipSpace_stop (c := '"') rfl]
      exact congrArg (Option.map fun scanned => (recordOf scanned.1, scanned.2)) hmembers

/-- A datum that reads back is what its text is read as. -/
theorem read?_write {d : Datum} (h : ReadsBack d) : read? (write d) = some d := by
  have hscan := h.scan ((chars d).length + 1) [] (by simp [Closes]) (Nat.le_succ _)
  rw [List.append_nil] at hscan
  simp [read?, write, hscan, skipSpace]

end InventoryTokens.Json
