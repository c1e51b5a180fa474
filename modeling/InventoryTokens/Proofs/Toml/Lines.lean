import InventoryTokens.Proofs.Toml.Values

/-!
# Lines read back

A text is read as statements independently of what follows it, so the statements of a document are
those of its lines, one after the other.
-/

namespace InventoryTokens.Toml

theorem scanStatements_start {c : Char} (h : isStart c = true) {steps : Nat}
    {cs gap text rest : List Char} {key : String} {d : Datum}
    (hkey : scanKey (steps + 1) (c :: cs) = some (([], key), '=' :: gap))
    (hvalue : scanValue (steps + 1) 0 (skipGap gap) = some (d, text))
    (hend : endLine? text = some rest) :
    scanStatements (steps + 1) (c :: cs) =
      (scanStatements steps rest).map (.assign [] key d :: ·) := by
  have hbracket : c ≠ '[' := ne_of_isStart h (by decide)
  have hhash : c ≠ '#' := ne_of_isStart h (by decide)
  rw [scanStatements, skipGap_start h]
  split
  · simp_all
  · simp_all
  · simp_all
  · simp_all
  · rw [afterNewline?_start h]
    simp [hkey, hvalue, hend]

/-- A text that is read as some statements, whatever stands after it. -/
def Reads (text : List Char) (statements : List Statement) : Prop :=
  ∀ rest steps, (text ++ rest).length < steps → ∃ fewer, rest.length < fewer ∧
    scanStatements steps (text ++ rest) = (scanStatements fewer rest).map (statements ++ ·)

theorem Reads.nil : Reads [] [] := by
  intro rest steps hsteps
  exact ⟨steps, hsteps, by simp⟩

theorem Reads.append {first second : List Char} {before after : List Statement}
    (hfirst : Reads first before) (hsecond : Reads second after) :
    Reads (first ++ second) (before ++ after) := by
  intro rest steps hsteps
  rw [List.append_assoc] at hsteps ⊢
  obtain ⟨middle, hmiddle, hbefore⟩ := hfirst (second ++ rest) steps hsteps
  obtain ⟨fewer, hfewer, hafter⟩ := hsecond rest middle hmiddle
  refine ⟨fewer, hfewer, ?_⟩
  rw [hbefore, hafter, Option.map_map]
  simp [Function.comp_def]

theorem Reads.newline : Reads ['\n'] [] := by
  intro rest steps hsteps
  match steps with
  | steps + 1 =>
    refine ⟨steps, by simpa using hsteps, ?_⟩
    have hskip : skipGap (['\n'] ++ rest) = '\n' :: rest := rfl
    rw [scanStatements, hskip]
    simp [afterNewline?]

/-- A whole text is read as its statements. -/
theorem Reads.whole {text : List Char} {statements : List Statement}
    (h : Reads text statements) :
    scanStatements (text.length + 1) text = some statements := by
  obtain ⟨fewer, hfewer, hscan⟩ := h [] (text.length + 1) (by simp)
  match fewer with
  | fewer + 1 =>
    rw [List.append_nil] at hscan
    rw [hscan]
    simp [scanStatements, skipGap]

/-- A text that is read as a value, where a value may end. -/
structure Spells (cs : List Char) (d : Datum) : Prop where
  start : ∃ c tail, cs = c :: tail ∧ isGap c = false
  scan : ∀ rest steps, Closes rest → cs.length < steps →
    scanValue steps 0 (cs ++ rest) = some (d, rest)

theorem Reads.assign {cs : List Char} {d : Datum} (h : Spells cs d) (key : String) :
    Reads (keyChars key ++ [' ', '=', ' '] ++ cs ++ ['\n']) [.assign [] key d] := by
  intro rest steps hsteps
  obtain ⟨c, tail, hc, hstart⟩ := keyChars_start key
  obtain ⟨first, more, hcs, hgap⟩ := h.start
  simp only [List.append_assoc, List.cons_append, List.nil_append, List.length_append,
    List.length_cons] at hsteps ⊢
  obtain ⟨fewer, rfl⟩ := Nat.exists_eq_add_of_le' (show 1 ≤ steps by omega)
  have hbare : ∀ c ∈ (' ' :: '=' :: ' ' :: (cs ++ '\n' :: rest)).head?, isBareChar c = false := by
    rintro d ⟨⟩
    rfl
  have hsome : ([] : List String).length < fewer + 1 := Nat.zero_lt_succ _
  have hkey := scanKey_pathChars [] key hsome (by decide) hbare (by rintro tail ⟨⟩)
  have hskip : skipGap (' ' :: (cs ++ '\n' :: rest)) = cs ++ '\n' :: rest := by
    rw [hcs]
    exact skipGap_stop hgap _
  have hvalue := h.scan ('\n' :: rest) (fewer + 1) ⟨'\n', rest, rfl, by simp⟩ (by omega)
  rw [← hskip] at hvalue
  simp only [List.nil_append, pathChars, hc, List.cons_append] at hkey ⊢
  refine ⟨fewer, by omega, ?_⟩
  rw [scanStatements_start hstart hkey hvalue rfl]

theorem scanHeader_pathChars {path : List String} (hdepth : path.length < depthLimit) (key : String)
    {steps : Nat} (hsteps : path.length < steps) (closing rest : List Char) :
    scanHeader steps (']' :: closing)
        (pathChars (path ++ [key]) ++ ']' :: (closing ++ '\n' :: rest)) =
      some ((path, key), rest) := by
  have hbare : ∀ c ∈ (']' :: (closing ++ '\n' :: rest)).head?, isBareChar c = false := by
    rintro d ⟨⟩
    rfl
  have hkey := scanKey_pathChars path key hsteps hdepth hbare (by rintro tail ⟨⟩)
  have hskip : skipGap (']' :: (closing ++ '\n' :: rest)) = ']' :: closing ++ '\n' :: rest :=
    skipGap_stop (by decide) _
  have hclosing : (']' :: closing).isPrefixOf (']' :: closing ++ '\n' :: rest) = true := by
    simp
  rw [scanHeader, hkey, hskip]
  simp only [Option.bind_eq_bind, Option.bind_some]
  rw [if_pos hclosing, List.drop_left]
  rfl

theorem Reads.table {path : List String} (h : path.length < depthLimit) (key : String) :
    Reads ('[' :: (pathChars (path ++ [key]) ++ [']', '\n'])) [.table path key] := by
  intro rest steps hsteps
  obtain ⟨c, tail, hc, hstart⟩ := pathChars_start path key
  have hlength := length_lt_pathChars path key
  simp only [List.append_assoc, List.cons_append, List.nil_append, List.length_append,
    List.length_cons] at hsteps ⊢
  obtain ⟨fewer, rfl⟩ := Nat.exists_eq_add_of_le' (show 1 ≤ steps by omega)
  have henough : path.length < fewer + 1 := by omega
  have hheader := scanHeader_pathChars h key henough [] rest
  have hbracket : c ≠ '[' := ne_of_isStart hstart (by decide)
  refine ⟨fewer, by omega, ?_⟩
  rw [scanStatements, skipGap_stop (by decide)]
  simp only [hc, List.cons_append, List.nil_append] at hheader ⊢
  split
  · simp_all
  · simp_all
  · simp_all
  · simp_all
  · simp_all

theorem Reads.element {path : List String} (h : path.length < depthLimit) (key : String) :
    Reads ('[' :: '[' :: (pathChars (path ++ [key]) ++ [']', ']', '\n'])) [.element path key] := by
  intro rest steps hsteps
  have hlength := length_lt_pathChars path key
  simp only [List.append_assoc, List.cons_append, List.nil_append, List.length_append,
    List.length_cons] at hsteps ⊢
  obtain ⟨fewer, rfl⟩ := Nat.exists_eq_add_of_le' (show 1 ≤ steps by omega)
  have henough : path.length < fewer + 1 := by omega
  have hheader := scanHeader_pathChars h key henough [']'] rest
  refine ⟨fewer, by omega, ?_⟩
  rw [scanStatements, skipGap_stop (by decide)]
  simp only [List.cons_append, List.nil_append] at hheader ⊢
  simp [hheader]

end InventoryTokens.Toml
