import InventoryTokens.Proofs.Toml.Quoted
import InventoryTokens.Proofs.Toml.Scalar

/-!
# Keys and values read back

A key, a path of keys and a value that stands on the line of its key are each read as what they were
written for.  Keys are followed by blanks, points or brackets, and values by a line end, a comma or
a closing bracket; nothing else needs to be known about what follows.
-/

namespace InventoryTokens.Toml

/-- A character with which a value or a key may start: it is neither passed over nor a bracket, a
comma, a brace or the mark of a comment. -/
def isStart (c : Char) : Bool :=
  c.isAlphanum || c = '-' || c = '_' || c = '"' || c = '\''

theorem ne_of_isStart {c d : Char} (h : isStart c = true) (hd : isStart d = false) : c ≠ d := by
  rintro rfl
  rw [h] at hd
  cases hd

theorem skipGap_stop {c : Char} (h : isGap c = false) (cs : List Char) :
    skipGap (c :: cs) = c :: cs := by
  rw [skipGap, List.dropWhile_cons_of_neg (by simp [h])]

theorem isGap_of_isStart {c : Char} (h : isStart c = true) : isGap c = false := by
  have hspace : c ≠ ' ' := ne_of_isStart h (by decide)
  have htab : c ≠ '\t' := ne_of_isStart h (by decide)
  simp [isGap, hspace, htab]

theorem skipGap_start {c : Char} (h : isStart c = true) (cs : List Char) :
    skipGap (c :: cs) = c :: cs :=
  skipGap_stop (isGap_of_isStart h) cs

theorem afterNewline?_start {c : Char} (h : isStart c = true) (cs : List Char) :
    afterNewline? (c :: cs) = none := by
  have hnewline : c ≠ '\n' := ne_of_isStart h (by decide)
  have hreturn : c ≠ '\r' := ne_of_isStart h (by decide)
  exact afterNewline?_of_head (by simpa using hnewline) (by simpa using hreturn)

theorem keyChars_start (key : String) :
    ∃ c cs, keyChars key = c :: cs ∧ isStart c = true := by
  simp only [keyChars]
  split
  · rename_i h
    obtain ⟨c, cs, hcs⟩ := List.exists_cons_of_ne_nil h.1
    have hbare := List.all_eq_true.mp h.2 c (by rw [hcs]; simp)
    refine ⟨c, cs, hcs, ?_⟩
    simp only [isBareChar, Bool.or_eq_true] at hbare
    simp only [isStart, Bool.or_eq_true]
    exact Or.inl (Or.inl hbare)
  · exact ⟨'"', _, rfl, rfl⟩

/-- A written key reads back, with or without quotes. -/
theorem scanPart_keyChars (key : String) {rest : List Char}
    (hrest : ∀ c ∈ rest.head?, isBareChar c = false) :
    scanPart (keyChars key ++ rest) = some (key, rest) := by
  simp only [keyChars]
  split
  · rename_i h
    have hbare : ∀ c ∈ key.toList, isBareChar c = true := List.all_eq_true.mp h.2
    obtain ⟨htake, hdrop⟩ := Text.span_append hbare hrest
    have hquote : ∀ quote tail, isBareChar quote = false → key.toList ++ rest ≠ quote :: tail := by
      intro quote tail hquote heq
      obtain ⟨c, cs, hcs⟩ := List.exists_cons_of_ne_nil h.1
      rw [hcs] at heq
      have hc := hbare c (by simp [hcs])
      rw [(List.cons.inj heq).1, hquote] at hc
      cases hc
    rw [scanPart, htake, hdrop, if_neg h.1, String.ofList_toList]
    · exact fun tail => hquote '"' tail (by decide)
    · exact fun tail => hquote '\'' tail (by decide)
  · rw [List.cons_append, List.append_assoc, List.singleton_append, scanPart, scanBasic_flatMap]
    simp

theorem pathChars_cons (part : String) (path : List String) (key : String) :
    pathChars (part :: (path ++ [key])) = keyChars part ++ '.' :: pathChars (path ++ [key]) := by
  rw [pathChars]
  simp

theorem pathChars_start (path : List String) (key : String) :
    ∃ c cs, pathChars (path ++ [key]) = c :: cs ∧ isStart c = true := by
  cases path with
  | nil => exact keyChars_start key
  | cons part path =>
    obtain ⟨c, cs, hcs, hc⟩ := keyChars_start part
    rw [List.cons_append, pathChars_cons, hcs]
    exact ⟨c, _, rfl, hc⟩

theorem length_lt_pathChars (path : List String) (key : String) :
    path.length < (pathChars (path ++ [key])).length := by
  induction path with
  | nil =>
    obtain ⟨c, cs, hcs, -⟩ := keyChars_start key
    rw [List.nil_append, pathChars, hcs]
    simp
  | cons part path ih =>
    rw [List.cons_append, pathChars_cons]
    simp only [List.length_cons, List.length_append]
    omega

/-- A written path reads back; blanks after it are passed over. -/
theorem scanParts_pathChars (path : List String) (key : String) {steps : Nat} {rest : List Char}
    (hsteps : path.length < steps) (hbare : ∀ c ∈ rest.head?, isBareChar c = false)
    (hpoint : ∀ tail, skipGap rest ≠ '.' :: tail) :
    scanParts steps (pathChars (path ++ [key]) ++ rest) = some ((path, key), skipGap rest) := by
  have hskip : ∀ part cs, skipGap (keyChars part ++ cs) = keyChars part ++ cs := by
    intro part cs
    obtain ⟨c, tail, hc, hstart⟩ := keyChars_start part
    rw [hc, List.cons_append, skipGap_start hstart]
  induction path generalizing steps with
  | nil =>
    match steps with
    | steps + 1 =>
      rw [List.nil_append, pathChars, scanParts, hskip, scanPart_keyChars key hbare]
      simp only [Option.bind_eq_bind, Option.bind_some]
  | cons part path ih =>
    match steps with
    | steps + 1 =>
      have hnext := @ih steps (by simpa using hsteps)
      rw [List.cons_append, pathChars_cons, List.append_assoc, scanParts, hskip,
        scanPart_keyChars part (by intro c hc; cases hc; rfl)]
      have hgap : skipGap ('.' :: pathChars (path ++ [key]) ++ rest) =
          '.' :: (pathChars (path ++ [key]) ++ rest) := rfl
      simp only [Option.bind_eq_bind, Option.bind_some, hgap, hnext, Option.map_some]

theorem scanKey_pathChars (path : List String) (key : String) {steps : Nat} {rest : List Char}
    (hsteps : path.length < steps) (hdepth : path.length < depthLimit)
    (hbare : ∀ c ∈ rest.head?, isBareChar c = false)
    (hpoint : ∀ tail, skipGap rest ≠ '.' :: tail) :
    scanKey steps (pathChars (path ++ [key]) ++ rest) = some ((path, key), skipGap rest) := by
  rw [scanKey, scanParts_pathChars path key hsteps hbare hpoint]
  exact if_pos hdepth

/-- What may follow a value: the end of its line, or what ends an item. -/
def Closes (rest : List Char) : Prop :=
  ∃ c tail, rest = c :: tail ∧ (c = '\n' ∨ c = ',' ∨ c = ']')

theorem Closes.head {rest : List Char} (h : Closes rest) {p : Char → Bool}
    (hp : p '\n' = false ∧ p ',' = false ∧ p ']' = false) : ∀ c ∈ rest.head?, p c = false := by
  obtain ⟨c, tail, rfl, hc⟩ := h
  intro d hd
  cases hd
  rcases hc with rfl | rfl | rfl
  · exact hp.1
  · exact hp.2.1
  · exact hp.2.2

theorem Closes.head_ne {rest : List Char} (h : Closes rest) {quote : Char}
    (hquote : quote ≠ '\n' ∧ quote ≠ ',' ∧ quote ≠ ']') : rest.head? ≠ some quote := by
  obtain ⟨c, tail, rfl, hc⟩ := h
  intro he
  cases he
  rcases hc with rfl | rfl | rfl <;> simp at hquote

theorem quote_start (s : String) :
    ∃ tail, quote s = '"' :: tail ∨ quote s = '\'' :: tail := by
  unfold quote
  cases h : Style.of s.toList <;> simp [h]

theorem scanValue_scalar {c : Char} {cs : List Char} (hbracket : c ≠ '[') (hbrace : c ≠ '\x7b')
    (hquote : c ≠ '"') (hapostrophe : c ≠ '\'') (steps depth : Nat) :
    scanValue (steps + 1) depth (c :: cs) = scanScalar (c :: cs) := by
  rw [scanValue]
  all_goals
    intros
    simp_all

/-- A value that stands on one line, with its text. -/
inductive OneLine : Datum → List Char → Prop where
  | yes : OneLine (.flag true) ['t', 'r', 'u', 'e']
  | no : OneLine (.flag false) ['f', 'a', 'l', 's', 'e']
  | whole {n : Int} (h : Text.FitsInt64 n) : OneLine (.whole n) (Text.intDigits n)
  | text (s : String) : OneLine (.text s) (quote s)

theorem oneLine_of_plainChars? {d : Datum} {cs : List Char} (h : plainChars? d = some cs) :
    OneLine d cs := by
  unfold plainChars? at h
  split at h
  · cases h
    exact .yes
  · cases h
    exact .no
  · split at h
    · rename_i hfits
      cases h
      exact .whole hfits
    · cases h
  · cases h
    exact .text _
  · cases h

theorem OneLine.start {d : Datum} {cs : List Char} (h : OneLine d cs) :
    ∃ c tail, cs = c :: tail ∧ isStart c = true := by
  cases h with
  | yes => exact ⟨'t', _, rfl, rfl⟩
  | no => exact ⟨'f', _, rfl, rfl⟩
  | whole h =>
    rename_i n
    obtain ⟨c, tail, hcs, hc⟩ := Text.head_intDigits n
    refine ⟨c, tail, hcs, ?_⟩
    rcases hc with rfl | hc
    · rfl
    · simp [isStart, Char.isAlphanum, hc]
  | text s =>
    obtain ⟨tail, hs | hs⟩ := quote_start s
    · exact ⟨'"', tail, hs, rfl⟩
    · exact ⟨'\'', tail, hs, rfl⟩

/-- A value on one line reads back. -/
theorem OneLine.reads {d : Datum} {cs rest : List Char} (h : OneLine d cs)
    (hrest : Closes rest) (steps depth : Nat) :
    scanValue (steps + 1) depth (cs ++ rest) = some (d, rest) := by
  have hscalar : ∀ c ∈ rest.head?, isScalarChar c = false := hrest.head (by decide)
  cases h with
  | yes =>
    rw [← scanScalar_true hscalar]
    exact scanValue_scalar (by decide) (by decide) (by decide) (by decide) steps depth
  | no =>
    rw [← scanScalar_false hscalar]
    exact scanValue_scalar (by decide) (by decide) (by decide) (by decide) steps depth
  | whole h =>
    rename_i n
    obtain ⟨c, tail, hcs, hc⟩ := Text.head_intDigits n
    have hne : ∀ d : Char, d ≠ '-' → d.isDigit = false → c ≠ d := by
      rintro d hminus hdigit rfl
      simp [hminus, hdigit] at hc
    rw [← scanScalar_intDigits h hscalar, hcs, List.cons_append]
    exact scanValue_scalar (hne _ (by decide) (by decide)) (hne _ (by decide) (by decide))
      (hne _ (by decide) (by decide)) (hne _ (by decide) (by decide)) steps depth
  | text s =>
    have hquoted := scanText_quote s (hrest.head_ne (by decide)) (hrest.head_ne (by decide))
    obtain ⟨tail, hs | hs⟩ := quote_start s <;>
    · rw [hs, List.cons_append] at hquoted ⊢
      rw [scanValue, hquoted]
      simp

/-- Nothing is passed over before a character that is no blank, line end or comment. -/
theorem skipLoose_stop {c : Char} (hgap : isGap c = false) (hhash : c ≠ '#') (hnewline : c ≠ '\n')
    (hreturn : c ≠ '\r') (steps : Nat) (cs : List Char) :
    skipLoose (steps + 1) (c :: cs) = some (c :: cs) := by
  have hline : afterNewline? (c :: cs) = none :=
    afterNewline?_of_head (by simpa using hnewline) (by simpa using hreturn)
  rw [skipLoose, skipGap_stop hgap]
  split
  · simp_all
  · rw [hline]

theorem skipLoose_start {c : Char} (h : isStart c = true) (steps : Nat) (cs : List Char) :
    skipLoose (steps + 1) (c :: cs) = some (c :: cs) :=
  skipLoose_stop (isGap_of_isStart h) (ne_of_isStart h (by decide))
    (ne_of_isStart h (by decide)) (ne_of_isStart h (by decide)) steps cs

theorem scanItems_close (steps depth : Nat) (rest : List Char) :
    scanItems (steps + 1) depth (']' :: rest) = some ([], rest) := by
  rw [scanItems, skipLoose_stop (by decide) (by decide) (by decide) (by decide)]
  rfl

theorem scanItems_more {steps depth : Nat} {cs text more : List Char} {c : Char} {tail : List Char}
    {item : Datum} (hstart : skipLoose (steps + 1) cs = some (c :: tail)) (hc : c ≠ ']')
    (hvalue : scanValue steps depth (c :: tail) = some (item, text))
    (hcomma : skipLoose (steps + 1) text = some (',' :: more)) :
    scanItems (steps + 1) depth cs =
      (scanItems steps depth more).map fun (items, rest) => (item :: items, rest) := by
  rw [scanItems, hstart]
  simp [hc, hvalue, hcomma]

theorem scanItems_last {steps depth : Nat} {cs text more : List Char} {c : Char} {tail : List Char}
    {item : Datum} (hstart : skipLoose (steps + 1) cs = some (c :: tail)) (hc : c ≠ ']')
    (hvalue : scanValue steps depth (c :: tail) = some (item, text))
    (hclose : skipLoose (steps + 1) text = some (']' :: more)) :
    scanItems (steps + 1) depth cs = some ([item], more) := by
  rw [scanItems, hstart]
  simp [hc, hvalue, hclose]

/-- The one item of an array on one line. -/
theorem scanItems_single {d : Datum} {cs : List Char} (h : OneLine d cs) (steps depth : Nat)
    (rest : List Char) :
    scanItems (steps + 2) depth (cs ++ ']' :: rest) = some ([d], rest) := by
  obtain ⟨c, tail, hcs, hc⟩ := h.start
  have hcloses : Closes (']' :: rest) := ⟨']', rest, rfl, by simp⟩
  have hvalue := h.reads hcloses steps depth
  rw [hcs, List.cons_append] at hvalue ⊢
  refine scanItems_last (skipLoose_start hc _ _) (ne_of_isStart hc (by decide)) hvalue ?_
  exact skipLoose_stop (by decide) (by decide) (by decide) (by decide) _ _

/-- The line of an item within an array, if the item stands on one line. -/
def itemLine? (item : Datum) : Option (List Char) :=
  (plainChars? item).map fun cs => [' ', ' ', ' ', ' '] ++ cs ++ [',', '\n']

theorem skipLoose_newline (steps : Nat) (cs : List Char) :
    skipLoose (steps + 1) ('\n' :: cs) = skipLoose steps cs := by
  rw [skipLoose]
  rfl

theorem skipLoose_indent {c : Char} (h : isStart c = true) (steps : Nat) (cs : List Char) :
    skipLoose (steps + 1) (' ' :: ' ' :: ' ' :: ' ' :: c :: cs) = some (c :: cs) := by
  have hgap : skipGap (' ' :: ' ' :: ' ' :: ' ' :: c :: cs) = skipGap (c :: cs) := rfl
  rw [← skipLoose_start h steps cs, skipLoose, skipLoose, hgap]

/-- The items of an array over several lines. -/
theorem scanItems_lines {items : List Datum} {lines : List (List Char)}
    (h : items.mapM itemLine? = some lines) {steps : Nat}
    (hsteps : lines.flatten.length + 1 < steps) (depth : Nat) (rest : List Char) :
    scanItems steps depth ('\n' :: (lines.flatten ++ ']' :: rest)) = some (items, rest) := by
  induction items generalizing lines steps with
  | nil =>
    cases h
    match steps with
    | steps + 2 =>
      have hskip : skipLoose (steps + 2) ('\n' :: ']' :: rest) = some (']' :: rest) :=
        (skipLoose_newline _ _).trans
          (skipLoose_stop (by decide) (by decide) (by decide) (by decide) steps rest)
      show scanItems (steps + 2) depth ('\n' :: ']' :: rest) = _
      rw [scanItems, hskip]
      rfl
  | cons item items ih =>
    simp only [List.mapM_cons, Option.bind_eq_bind, Option.bind_eq_some_iff, itemLine?,
      Option.map_eq_some_iff, Option.pure_def, Option.some.injEq] at h
    obtain ⟨line, ⟨cs, hcs, rfl⟩, lines, hlines, rfl⟩ := h
    obtain ⟨c, tail, rfl, hc⟩ := (oneLine_of_plainChars? hcs).start
    match steps with
    | steps + 3 =>
      have hlength : lines.flatten.length + 1 < steps + 2 := by
        simp only [List.flatten_cons, List.length_append, List.length_cons] at hsteps
        omega
      have hcloses : Closes (',' :: '\n' :: (lines.flatten ++ ']' :: rest)) :=
        ⟨',', _, rfl, by simp⟩
      have hmore := ih hlines hlength
      have hvalue := (oneLine_of_plainChars? hcs).reads hcloses (steps + 1) depth
      have hcomma := skipLoose_stop (c := ',') (by decide) (by decide) (by decide) (by decide)
        steps ('\n' :: (lines.flatten ++ ']' :: rest))
      simp only [List.flatten_cons, List.cons_append, List.nil_append, List.append_assoc]
        at hvalue ⊢
      rw [scanItems_more ((skipLoose_newline _ _).trans (skipLoose_indent hc _ _))
        (ne_of_isStart hc (by decide)) hvalue hcomma, hmore]
      rfl

theorem scanValue_bracket {steps depth : Nat} (h : depth < depthLimit) (cs : List Char) :
    scanValue (steps + 1) depth ('[' :: cs) =
      (scanItems steps (depth + 1) cs).map fun (items, rest) => (.list items, rest) := by
  rw [scanValue, if_pos h]

/-- An array of values that stand on one line each reads back. -/
theorem scanValue_arrayChars? {items : List Datum} {cs : List Char}
    (h : arrayChars? items = some cs) {steps : Nat} (hsteps : cs.length < steps)
    (rest : List Char) : scanValue steps 0 (cs ++ rest) = some (.list items, rest) := by
  match items with
  | [] =>
    cases h
    obtain ⟨steps, rfl⟩ := Nat.exists_eq_add_of_le' (show 2 ≤ steps from Nat.le_of_lt hsteps)
    rw [List.cons_append, scanValue_bracket (by decide), List.cons_append, scanItems_close]
    rfl
  | [item] =>
    obtain ⟨text, htext, rfl⟩ := Option.map_eq_some_iff.mp h
    simp only [List.length_cons, List.length_append, List.length_nil] at hsteps
    obtain ⟨steps, rfl⟩ := Nat.exists_eq_add_of_le' (show 3 ≤ steps by omega)
    simp only [List.cons_append, List.append_assoc, List.nil_append]
    rw [scanValue_bracket (by decide), scanItems_single (oneLine_of_plainChars? htext)]
    rfl
  | first :: second :: items =>
    obtain ⟨lines, hlines, rfl⟩ := Option.map_eq_some_iff.mp h
    simp only [List.length_cons, List.length_append, List.length_nil] at hsteps
    obtain ⟨steps, rfl⟩ := Nat.exists_eq_add_of_le' (show 1 ≤ steps by omega)
    simp only [List.cons_append, List.append_assoc, List.nil_append]
    rw [scanValue_bracket (by decide), scanItems_lines hlines (by omega)]
    rfl

end InventoryTokens.Toml
