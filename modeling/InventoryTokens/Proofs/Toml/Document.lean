import InventoryTokens.Proofs.Toml.Lines
import InventoryTokens.Proofs.Toml.Tidy

/-!
# Documents read back

The text of a tidy record is read as the statements of that record, which make the record again.  It
is written exactly if every integer in it fits in 64 bits.
-/

namespace InventoryTokens.Toml

theorem spells_of_plainChars? {d : Datum} {cs : List Char} (h : plainChars? d = some cs) :
    Spells cs d := by
  have hline := oneLine_of_plainChars? h
  obtain ⟨c, tail, hcs, hc⟩ := hline.start
  refine ⟨⟨c, tail, hcs, isGap_of_isStart hc⟩, fun rest steps hrest hsteps => ?_⟩
  obtain ⟨fewer, rfl⟩ := Nat.exists_eq_add_of_le' (show 1 ≤ steps by omega)
  exact hline.reads hrest fewer 0

theorem spells_of_arrayChars? {items : List Datum} {cs : List Char}
    (h : arrayChars? items = some cs) : Spells cs (.list items) := by
  refine ⟨⟨'[', cs.tail, ?_, by decide⟩, fun rest steps _ => (scanValue_arrayChars? h · rest)⟩
  match items with
  | [] =>
    cases h
    rfl
  | [item] =>
    obtain ⟨text, -, rfl⟩ := Option.map_eq_some_iff.mp h
    rfl
  | first :: second :: items =>
    obtain ⟨lines, -, rfl⟩ := Option.map_eq_some_iff.mp h
    rfl

theorem reads_line {key : String} {d : Datum} (hplain : isPlain d = true) {cs : List Char}
    (h : Spells cs d) :
    Reads (keyChars key ++ [' ', '=', ' '] ++ cs ++ ['\n']) (memberStatements (key, d)) := by
  rw [memberStatements, if_pos hplain]
  exact .assign h key

/-- The line of a member is read as its statement, if it has any. -/
theorem reads_memberLine? {m : String × Datum} {line : List Char} (h : memberLine? m = some line) :
    Reads line (memberStatements m) := by
  obtain ⟨key, d⟩ := m
  have hvalue : isPlain d = true → (plainChars? d).map (fun cs =>
      keyChars key ++ [' ', '=', ' '] ++ cs ++ ['\n']) = some line →
      Reads line (memberStatements (key, d)) := by
    intro hplain hline
    obtain ⟨cs, hcs, rfl⟩ := Option.map_eq_some_iff.mp hline
    exact reads_line hplain (spells_of_plainChars? hcs)
  cases d with
  | absent =>
    cases h
    exact .nil
  | record members =>
    cases h
    exact .nil
  | list items =>
    rw [memberLine?] at h
    split at h
    · rename_i htabular
      cases h
      rw [memberStatements, if_neg (by simp [isPlain, htabular])]
      exact .nil
    · rename_i htabular
      obtain ⟨cs, hcs, rfl⟩ := Option.map_eq_some_iff.mp h
      exact reads_line (by simp [isPlain, htabular]) (spells_of_arrayChars? hcs)
  | flag value => exact hvalue rfl h
  | whole n => exact hvalue rfl h
  | number x => exact hvalue rfl h
  | text s => exact hvalue rfl h
  | unreadable => exact hvalue rfl h

theorem reads_plainLines? {members : List (String × Datum)} {text : List Char}
    (h : plainLines? members = some text) : Reads text (members.flatMap memberStatements) := by
  simp only [plainLines?, Option.map_eq_some_iff] at h
  obtain ⟨lines, hlines, rfl⟩ := h
  induction members generalizing lines with
  | nil =>
    cases hlines
    exact .nil
  | cons m members ih =>
    simp only [List.mapM_cons, Option.bind_eq_bind, Option.bind_eq_some_iff, Option.pure_def,
      Option.some.injEq] at hlines
    obtain ⟨line, hline, rest, hrest, rfl⟩ := hlines
    exact (reads_memberLine? hline).append (ih rest hrest)

theorem reads_headerGap (started : Bool) : Reads (headerGap started) [] := by
  cases started
  · exact .nil
  · exact .newline

theorem map_under_memberStatements (above : List String) (members : List (String × Datum)) :
    (members.flatMap memberStatements).map (.under above) =
      members.flatMap memberStatements := by
  induction members with
  | nil => rfl
  | cons m members ih =>
    rw [List.flatMap_cons, List.map_append, ih, memberStatements]
    split <;> rfl

/-- The lines of a record at a path are read as its statements below that path. -/
def ReadsAt (depth : Nat) (members : List (String × Datum)) : Prop :=
  ∀ path started plain nested, path.length + depth ≤ depthLimit →
    plainLines? members = some plain → nestedLines? path started members = some nested →
      Reads (plain ++ nested) ((recordStatements members).map (.under path))

theorem map_under_under (path : List String) (key : String) (statements : List Statement) :
    (statements.map (Statement.under [key])).map (Statement.under path) =
      statements.map (Statement.under (path ++ [key])) := by
  simp [Statement.under_under, Function.comp_def]

theorem reads_elementLines? {depth : Nat} {records : List (List (String × Datum))}
    (h : ∀ members ∈ records, ReadsAt depth members) {path : List String} {key : String}
    (hpath : path.length + (depth + 1) ≤ depthLimit) {started : Bool} {text : List Char}
    (htext : elementLines? (path ++ [key]) started (records.map .record) = some text) :
    Reads text ((elementStatements key (records.map .record)).map (.under path)) := by
  induction records generalizing started text with
  | nil =>
    cases htext
    exact .nil
  | cons members records ih =>
    simp only [List.map_cons, elementLines?, Option.bind_eq_bind, Option.bind_eq_some_iff,
      Option.pure_def, Option.some.injEq] at htext
    obtain ⟨plain, hplain, nested, hnested, rest, hrest, rfl⟩ := htext
    have hheader : Reads _ [.element path key] := .element (by omega) key
    have hrecord := h members (by simp) (path ++ [key]) true plain nested (by simp; omega) hplain
      hnested
    have hlines := ((reads_headerGap started).append hheader).append
      (hrecord.append (ih (fun m hm => h m (by simp [hm])) hrest))
    rw [List.map_cons, elementStatements, List.map_cons, List.map_append, map_under_under]
    simpa [Statement.under, recordStatements] using hlines

theorem reads_tableLines? {depth : Nat} {nest : Nest}
    (h : ∀ members ∈ nest.records, ReadsAt depth members) {path : List String} {key : String}
    (hpath : path.length + (depth + 1) ≤ depthLimit) {started : Bool} {text : List Char}
    (htext : tableLines? (path ++ [key]) started nest.datum = some text) :
    Reads text ((tableStatements key nest.datum).map (.under path)) := by
  cases nest with
  | table members =>
    simp only [Nest.datum, tableLines?, Option.bind_eq_bind, Option.bind_eq_some_iff,
      Option.pure_def, Option.some.injEq] at htext
    obtain ⟨plain, hplain, nested, hnested, rfl⟩ := htext
    have hheader : Reads _ [.table path key] := .table (by omega) key
    have hrecord := h members (by simp [Nest.records]) (path ++ [key]) true plain nested
      (by simp; omega) hplain hnested
    have hlines := ((reads_headerGap started).append hheader).append hrecord
    rw [Nest.datum, tableStatements, List.map_cons, map_under_under]
    simpa [Statement.under, recordStatements] using hlines
  | tables first rest =>
    rw [Nest.datum, tableLines?] at htext
    rw [Nest.datum, tableStatements]
    exact reads_elementLines? h hpath htext

theorem reads_nestedLines? {depth : Nat} {nested : List (String × Nest)}
    (h : ∀ m ∈ nested, ∀ members ∈ m.2.records, ReadsAt depth members) {path : List String}
    (hpath : path.length + (depth + 1) ≤ depthLimit) {started : Bool} {text : List Char}
    (htext : nestedLines? path started (nestedMembers nested) = some text) :
    Reads text ((nested.flatMap fun (key, nest) => tableStatements key nest.datum).map
      (.under path)) := by
  induction nested generalizing started text with
  | nil =>
    cases htext
    exact .nil
  | cons m nested ih =>
    obtain ⟨key, nest⟩ := m
    change nestedLines? path started ((key, nest.datum) :: nestedMembers nested) = some text
      at htext
    simp only [nestedLines?, nestedLine?, nest.isTabular_datum, if_true, Option.bind_eq_bind,
      Option.bind_eq_some_iff, Option.pure_def, Option.some.injEq] at htext
    obtain ⟨first, hfirst, rest, hrest, rfl⟩ := htext
    rw [List.flatMap_cons, List.map_append]
    exact (reads_tableLines? (h (key, nest) (by simp)) hpath hfirst).append
      (ih (fun m hm => h m (by simp [hm])) hrest)

theorem nestedLines?_plain {plain rest : List (String × Datum)}
    (h : ∀ m ∈ plain, Plain m.2) (path : List String) (started : Bool) :
    nestedLines? path started (plain ++ rest) = nestedLines? path started rest := by
  induction plain with
  | nil => rfl
  | cons m plain ih =>
    obtain ⟨key, d⟩ := m
    have hplain : ¬isTabular d = true := by
      simp [isTabular_of_isPlain (h (key, d) (by simp)).isPlain]
    rw [List.cons_append, nestedLines?, nestedLine?, if_neg hplain]
    simp [ih fun m hm => h m (by simp [hm])]

theorem Tidy.readsAt {depth : Nat} {members : List (String × Datum)} (h : Tidy depth members) :
    ReadsAt depth members := by
  induction h with
  | @intro depth plain nested hplain _ _ ih =>
    intro path started plainText nestedText hpath hlines hnested
    rw [nestedLines?_plain hplain] at hnested
    have hplainText := reads_plainLines? hlines
    have hnestedText := reads_nestedLines? ih hpath hnested
    rw [List.flatMap_append, memberStatements_nested, List.append_nil] at hplainText
    rw [recordStatements_tidy hplain, List.map_append, ← memberStatements_plain hplain,
      map_under_memberStatements]
    exact hplainText.append hnestedText

/-- No document starts with a byte order mark once that mark was removed from it. -/
theorem dropMark_of_scan {steps : Nat} {cs : List Char} {statements : List Statement}
    (h : scanStatements steps cs = some statements) : dropMark cs = cs := by
  unfold dropMark
  split
  · rename_i cs
    match steps with
    | steps + 1 =>
      have hskip : skipGap ('\uFEFF' :: cs) = '\uFEFF' :: cs := skipGap_stop (by decide) cs
      have hpart : scanPart ('\uFEFF' :: cs) = none := by
        rw [scanPart]
        · simp [List.takeWhile, show isBareChar '\uFEFF' = false by decide]
        · rintro tail ⟨⟩
        · rintro tail ⟨⟩
      rw [scanStatements, hskip] at h
      simp [afterNewline?, scanKey, scanParts, hskip, hpart] at h
  · rfl

/-- The text of a tidy record is read as that record. -/
theorem read?_of_write? {depth : Nat} {members : List (String × Datum)} (h : Tidy depth members)
    (hdepth : depth ≤ depthLimit) {text : String} (hwrite : write? (.record members) = some text) :
    read? text = some (.record members) := by
  simp only [write?, Option.bind_eq_bind, Option.bind_eq_some_iff, Option.pure_def,
    Option.some.injEq] at hwrite
  obtain ⟨plain, hplain, nested, hnested, rfl⟩ := hwrite
  have hscan := (h.readsAt [] _ plain nested (by simpa using hdepth) hplain hnested).whole
  have hunder : (recordStatements members).map (Statement.under []) = recordStatements members := by
    have hself : ∀ statement, Statement.under [] statement = statement := by
      intro statement
      cases statement <;> rfl
    rw [funext hself, List.map_id']
  rw [hunder] at hscan
  rw [read?, String.toList_ofList, dropMark_of_scan hscan, hscan]
  simp [assemble?_recordStatements h]

end InventoryTokens.Toml
