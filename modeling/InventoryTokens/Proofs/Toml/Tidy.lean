import InventoryTokens.Proofs.Toml.Assembly

/-!
# Records put together

A record is written as statements: its plain members first, then a header for each table.  Carried
out from an empty document they make the record again, if what needs headers comes last at every
depth and no key stands twice.
-/

namespace InventoryTokens.Toml

/-- A datum that is written on the line of its key. -/
def isPlain : Datum → Bool
  | .absent => false
  | d => !isTabular d

/-- The statement of a member that is written on the line of its key. -/
def memberStatements : String × Datum → List Statement
  | (key, d) => if isPlain d then [.assign [] key d] else []

mutual

/-- The statements of a member that needs headers. -/
def tableStatements (key : String) : Datum → List Statement
  | .record members =>
    .table [] key ::
      (members.flatMap memberStatements ++ nestedStatements members).map (.under [key])
  | .list items => elementStatements key items
  | _ => []

/-- The statements of an array of tables. -/
def elementStatements (key : String) : List Datum → List Statement
  | [] => []
  | .record members :: items =>
    .element [] key ::
      ((members.flatMap memberStatements ++ nestedStatements members).map (.under [key]) ++
        elementStatements key items)
  | _ :: _ => []

/-- The statements of the members that need headers. -/
def nestedStatements : List (String × Datum) → List Statement
  | [] => []
  | m :: members => nestedStatement m ++ nestedStatements members

/-- The statements of one member, if it needs headers. -/
def nestedStatement : String × Datum → List Statement
  | (key, d) => if isTabular d then tableStatements key d else []

end

/-- The statements of a record. -/
def recordStatements (members : List (String × Datum)) : List Statement :=
  members.flatMap memberStatements ++ nestedStatements members

/-- What is written under headers: a table, or an array with at least one table. -/
inductive Nest where
  | table (members : List (String × Datum))
  | tables (first : List (String × Datum)) (rest : List (List (String × Datum)))

namespace Nest

/-- The datum that is written. -/
def datum : Nest → Datum
  | table members => .record members
  | tables first rest => .list ((first :: rest).map .record)

/-- The tables that are written. -/
def records : Nest → List (List (String × Datum))
  | table members => [members]
  | tables first rest => first :: rest

theorem isTabular_datum (nest : Nest) : isTabular nest.datum = true := by
  cases nest <;> rfl

end Nest

/-- The members of a record that need headers, as data. -/
def nestedMembers (nested : List (String × Nest)) : List (String × Datum) :=
  nested.map fun (key, nest) => (key, nest.datum)

theorem nestedMembers_append (first second : List (String × Nest)) :
    nestedMembers (first ++ second) = nestedMembers first ++ nestedMembers second :=
  List.map_append

theorem names_nestedMembers (nested : List (String × Nest)) :
    (nestedMembers nested).map Prod.fst = nested.map Prod.fst := by
  simp [nestedMembers, Function.comp_def]

namespace Nest

/-- The table of a member that may be left out. -/
def optional (name : String) : Option (List (String × Datum)) → List (String × Nest)
  | none => []
  | some members => [(name, table members)]

/-- The array of tables of a member that is left out if it is empty. -/
def listed (name : String) : List (List (String × Datum)) → List (String × Nest)
  | [] => []
  | first :: rest => [(name, tables first rest)]

variable {α : Type} {encode : α → Datum} {members : α → List (String × Datum)}

theorem nestedMembers_optional (h : ∀ a, encode a = .record (members a)) (name : String)
    (value : Option α) :
    nestedMembers (optional name (value.map members)) = Datum.member? name encode value := by
  cases value with
  | none => rfl
  | some a =>
    rw [Datum.member?, h]
    rfl

theorem nestedMembers_listed (h : ∀ a, encode a = .record (members a)) (name : String)
    (items : List α) :
    nestedMembers (listed name (items.map members)) = Datum.members? name encode items := by
  cases items with
  | nil => rfl
  | cons a items =>
    have hencode : (a :: items).map encode = ((a :: items).map members).map .record := by
      simp [h]
    rw [Datum.members?, hencode]
    · rfl
    · simp

theorem records_optional {name : String} {value : Option (List (String × Datum))}
    {m : String × Nest} (hm : m ∈ optional name value) : m.2.records = value.toList := by
  cases value with
  | none => cases hm
  | some members =>
    rw [List.mem_singleton.mp hm]
    rfl

theorem records_listed {name : String} {items : List (List (String × Datum))} {m : String × Nest}
    (hm : m ∈ listed name items) : m.2.records = items := by
  cases items with
  | nil => cases hm
  | cons first rest =>
    rw [List.mem_singleton.mp hm]
    rfl

end Nest

/-- A truth value, an integer or a text. -/
inductive Atom : Datum → Prop where
  | flag (value : Bool) : Atom (.flag value)
  | whole (n : Int) : Atom (.whole n)
  | text (s : String) : Atom (.text s)

/-- What is written on the line of its key. -/
inductive Plain : Datum → Prop where
  | atom {d : Datum} (h : Atom d) : Plain d
  | list {items : List Datum} (h : ∀ item ∈ items, Atom item) : Plain (.list items)

theorem Plain.isPlain {d : Datum} (h : Plain d) : isPlain d = true := by
  cases h with
  | atom h => cases h <;> rfl
  | list h =>
    rename_i items
    match items with
    | [] => rfl
    | item :: items => cases h item (by simp) <;> rfl

/-- Records in which no key stands twice and what needs headers comes last, at every depth up to a
bound. -/
inductive Tidy : Nat → List (String × Datum) → Prop where
  | intro {depth : Nat} {plain : List (String × Datum)} {nested : List (String × Nest)}
    (plain_lines : ∀ m ∈ plain, Plain m.2)
    (nested_tidy : ∀ m ∈ nested, ∀ members ∈ m.2.records, Tidy depth members)
    (keys_nodup : (plain.map Prod.fst ++ nested.map Prod.fst).Nodup) :
    Tidy (depth + 1) (plain ++ nestedMembers nested)

theorem tidy_of_names {depth : Nat} (plain : List (String × Datum)) (nested : List (String × Nest))
    {members : List (String × Datum)} {names : List String} (hnames : names.Nodup)
    (hmembers : (members.map Prod.fst).Sublist names)
    (hsplit : plain ++ nestedMembers nested = members)
    (hplain : ∀ m ∈ plain, Plain m.2)
    (hnested : ∀ m ∈ nested, ∀ record ∈ m.2.records, Tidy depth record) :
    Tidy (depth + 1) members := by
  subst hsplit
  rw [List.map_append, names_nestedMembers] at hmembers
  exact .intro hplain hnested (hmembers.nodup hnames)

theorem nestedStatements_append (first second : List (String × Datum)) :
    nestedStatements (first ++ second) = nestedStatements first ++ nestedStatements second := by
  induction first with
  | nil => rfl
  | cons m members ih => rw [List.cons_append, nestedStatements, nestedStatements, ih,
      List.append_assoc]

theorem isTabular_of_isPlain {d : Datum} (h : isPlain d = true) : isTabular d = false := by
  cases d <;> simp_all [isPlain, isTabular]

theorem nestedStatements_plain {members : List (String × Datum)}
    (h : ∀ m ∈ members, Plain m.2) : nestedStatements members = [] := by
  induction members with
  | nil => rfl
  | cons m members ih =>
    obtain ⟨key, d⟩ := m
    have hplain : ¬isTabular d = true := by
      simp [isTabular_of_isPlain (h (key, d) (by simp)).isPlain]
    rw [nestedStatements, nestedStatement, if_neg hplain, ih fun m hm => h m (by simp [hm])]
    rfl

theorem memberStatements_plain {members : List (String × Datum)}
    (h : ∀ m ∈ members, Plain m.2) :
    members.flatMap memberStatements = members.map fun (key, d) => .assign [] key d := by
  induction members with
  | nil => rfl
  | cons m members ih =>
    rw [List.flatMap_cons, memberStatements, if_pos (h m (by simp)).isPlain,
      ih fun m hm => h m (by simp [hm])]
    rfl

theorem memberStatements_nested (nested : List (String × Nest)) :
    (nestedMembers nested).flatMap memberStatements = [] := by
  simp only [nestedMembers, List.flatMap_map, List.flatMap_eq_nil_iff]
  rintro ⟨key, nest⟩ -
  cases nest <;> rfl

theorem nestedStatements_nested (nested : List (String × Nest)) :
    nestedStatements (nestedMembers nested) =
      nested.flatMap fun (key, nest) => tableStatements key nest.datum := by
  induction nested with
  | nil => rfl
  | cons m nested ih =>
    obtain ⟨key, nest⟩ := m
    show nestedStatements ((key, nest.datum) :: nestedMembers nested) = _
    rw [nestedStatements, nestedStatement, if_pos nest.isTabular_datum, ih, List.flatMap_cons]

theorem recordStatements_tidy {plain : List (String × Datum)} {nested : List (String × Nest)}
    (h : ∀ m ∈ plain, Plain m.2) :
    recordStatements (plain ++ nestedMembers nested) =
      plain.map (fun (key, d) => .assign [] key d) ++
        nested.flatMap fun (key, nest) => tableStatements key nest.datum := by
  rw [recordStatements, List.flatMap_append, memberStatements_plain h, memberStatements_nested,
    List.append_nil, nestedStatements_append, nestedStatements_plain h, List.nil_append,
    nestedStatements_nested]

theorem run_plain (plain : List (String × Datum)) (entries : Entries)
    (h : (entries.map Prod.fst ++ plain.map Prod.fst).Nodup) :
    Draft.run ⟨[], entries⟩ (plain.map fun (key, d) => .assign [] key d) =
      some ⟨[], entries ++ plain.map fun (key, d) => (key, .value d)⟩ := by
  induction plain generalizing entries with
  | nil => simp [Draft.run]
  | cons m plain ih =>
    obtain ⟨key, d⟩ := m
    have hfresh : entries.find? key = none := by
      refine Entries.find?_eq_none fun hmem => ?_
      exact (List.nodup_append.mp h).2.2 key hmem key (by simp) rfl
    have hassign : Draft.perform ⟨[], entries⟩ (.assign [] key d) =
        some ⟨[], entries ++ [(key, .value d)]⟩ := by
      simp [Draft.perform, Entries.assignUnder, Entries.assign, Entries.atPath, hfresh,
        Entries.put_of_find?_none hfresh]
    rw [List.map_cons, Draft.run_cons, hassign, Option.bind_some, ih]
    · simp
    · simpa using h

theorem membersOf_append (first second : Entries) :
    membersOf (first ++ second) = membersOf first ++ membersOf second := by
  induction first with
  | nil => rfl
  | cons entry first ih => rw [List.cons_append, membersOf, membersOf, ih, List.cons_append]

theorem membersOf_plain (plain : List (String × Datum)) :
    membersOf (plain.map fun (key, d) => (key, .value d)) = plain := by
  induction plain with
  | nil => rfl
  | cons m plain ih => rw [List.map_cons, membersOf, ih, memberOf, Node.datum]

/-- The statements of a record, carried out in an empty document, make that record. -/
def Makes (members : List (String × Datum)) : Prop :=
  ∃ after, Draft.run ⟨[], []⟩ (recordStatements members) = some after ∧
    membersOf after.entries = members

theorem run_table {members : List (String × Datum)} (h : Makes members) {entries : Entries}
    {key : String} (hfresh : entries.find? key = none) (header : List String) :
    ∃ after node, Draft.run ⟨header, entries⟩ (tableStatements key (.record members)) =
      some ⟨after, entries ++ [(key, node)]⟩ ∧ node.datum = .record members := by
  obtain ⟨inner, hrun, hmembers⟩ := h
  have hopen : Draft.perform ⟨header, entries⟩ (.table [] key) =
      some ⟨[key], entries.put key (.table .header [])⟩ := by
    simp [Draft.perform, Entries.openTable, Entries.atPath, hfresh]
  have hunder := Draft.run_under (.table .header)
    (Entries.find?_put key (.table .header []) entries) hrun
  refine ⟨key :: inner.header, .table .header inner.entries, ?_, by rw [Node.datum, hmembers]⟩
  rw [Entries.put_put] at hunder
  rw [tableStatements, Draft.run_cons, hopen, Option.bind_some, ← Entries.put_of_find?_none hfresh]
  exact hunder

theorem recordsOf_append (earlier : List Entries) (last : Entries) :
    recordsOf (earlier ++ [last]) = recordsOf earlier ++ [.record (membersOf last)] := by
  induction earlier with
  | nil => rfl
  | cons entries earlier ih => rw [List.cons_append, recordsOf, ih, recordsOf, List.cons_append]

/-- A further element of an array of tables. -/
theorem run_element {members : List (String × Datum)} (h : Makes members) {entries : Entries}
    {key : String} {earlier : List Entries} {header : List String}
    (hopen : Draft.perform ⟨header, entries⟩ (.element [] key) =
      some ⟨[key], entries.put key (.tables earlier [])⟩) (rest : List (List (String × Datum))) :
    ∃ after last, membersOf last = members ∧
      Draft.run ⟨header, entries⟩ (elementStatements key ((members :: rest).map .record)) =
        Draft.run ⟨after, entries.put key (.tables earlier last)⟩
          (elementStatements key (rest.map .record)) := by
  obtain ⟨inner, hrun, hmembers⟩ := h
  have hunder := Draft.run_under (.last earlier)
    (Entries.find?_put key (.tables earlier []) entries) hrun
  rw [Entries.put_put] at hunder
  refine ⟨key :: inner.header, inner.entries, hmembers, ?_⟩
  rw [List.map_cons, elementStatements, Draft.run_cons, hopen, Option.bind_some, Draft.run_append]
  show (Draft.run _ ((recordStatements members).map (.under [key]))).bind _ = _
  rw [hunder, Option.bind_some]

theorem run_elements (records : List (List (String × Datum)))
    (h : ∀ members ∈ records, Makes members) {entries : Entries} {key : String}
    {earlier : List Entries} {last : Entries}
    (hfind : entries.find? key = some (.tables earlier last)) (header : List String) :
    ∃ after node, Draft.run ⟨header, entries⟩ (elementStatements key (records.map .record)) =
        some ⟨after, entries.put key node⟩ ∧
      node.datum =
        .list (recordsOf earlier ++ [.record (membersOf last)] ++ records.map .record) := by
  -- Every element closes the one before it, so the array made so far varies along the induction.
  induction records generalizing entries earlier last header with
  | nil =>
    refine ⟨header, .tables earlier last, ?_, ?_⟩
    · rw [Entries.put_of_find? hfind]
      rfl
    · simp [Node.datum]
  | cons members rest ih =>
    have hopen : Draft.perform ⟨header, entries⟩ (.element [] key) =
        some ⟨[key], entries.put key (.tables (earlier ++ [last]) [])⟩ := by
      simp [Draft.perform, Entries.openElement, Entries.atPath, hfind]
    obtain ⟨next, final, hfinal, hrun⟩ := run_element (h members (by simp)) hopen rest
    obtain ⟨after, node, hrest, hnode⟩ := ih (fun m hm => h m (by simp [hm]))
      (Entries.find?_put key (.tables (earlier ++ [last]) final) entries) next
    refine ⟨after, node, ?_, ?_⟩
    · rw [hrun, hrest, Entries.put_put]
    · rw [hnode, recordsOf_append, hfinal]
      simp

theorem run_nest {nest : Nest} (h : ∀ members ∈ nest.records, Makes members) {entries : Entries}
    {key : String} (hfresh : entries.find? key = none) (header : List String) :
    ∃ after node, Draft.run ⟨header, entries⟩ (tableStatements key nest.datum) =
      some ⟨after, entries ++ [(key, node)]⟩ ∧ node.datum = nest.datum := by
  cases nest with
  | table members => exact run_table (h members (by simp [Nest.records])) hfresh header
  | tables first rest =>
    have hopen : Draft.perform ⟨header, entries⟩ (.element [] key) =
        some ⟨[key], entries.put key (.tables [] [])⟩ := by
      simp [Draft.perform, Entries.openElement, Entries.atPath, hfresh]
    obtain ⟨next, final, hfinal, hrun⟩ :=
      run_element (h first (by simp [Nest.records])) hopen rest
    obtain ⟨after, node, hrest, hnode⟩ := run_elements rest
      (fun members hm => h members (by simp [Nest.records, hm]))
      (Entries.find?_put key (.tables [] final) entries) next
    refine ⟨after, node, ?_, ?_⟩
    · rw [Nest.datum, tableStatements, hrun, hrest, Entries.put_put,
        Entries.put_of_find?_none hfresh]
    · rw [hnode, hfinal]
      rfl

theorem run_nested {nested : List (String × Nest)}
    (h : ∀ m ∈ nested, ∀ members ∈ m.2.records, Makes members) {entries : Entries}
    (hkeys : (entries.map Prod.fst ++ nested.map Prod.fst).Nodup) (header : List String) :
    ∃ after nodes, Draft.run ⟨header, entries⟩
        (nested.flatMap fun (key, nest) => tableStatements key nest.datum) =
      some ⟨after, entries ++ nodes⟩ ∧ membersOf nodes = nestedMembers nested := by
  induction nested generalizing entries header with
  | nil => exact ⟨header, [], by simp [Draft.run], rfl⟩
  | cons m nested ih =>
    obtain ⟨key, nest⟩ := m
    have hfresh : entries.find? key = none := by
      refine Entries.find?_eq_none fun hmem => ?_
      exact (List.nodup_append.mp hkeys).2.2 key hmem key (by simp) rfl
    obtain ⟨next, node, hnest, hnode⟩ := run_nest (h (key, nest) (by simp)) hfresh header
    have hkeys : ((entries ++ [(key, node)]).map Prod.fst ++ nested.map Prod.fst).Nodup := by
      simpa using hkeys
    obtain ⟨after, nodes, hrest, hnodes⟩ := ih (fun m hm => h m (by simp [hm])) hkeys next
    refine ⟨after, (key, node) :: nodes, ?_, ?_⟩
    · rw [List.flatMap_cons, Draft.run_append, hnest, Option.bind_some, hrest]
      simp
    · rw [membersOf, memberOf, hnode, hnodes]
      rfl

/-- The statements of a tidy record make that record. -/
theorem Tidy.makes {depth : Nat} {members : List (String × Datum)} (h : Tidy depth members) :
    Makes members := by
  induction h with
  | @intro depth plain nested hplain _ hkeys ih =>
    have hlines := run_plain plain [] (by simpa using hkeys.sublist (List.sublist_append_left _ _))
    rw [List.nil_append] at hlines
    have hnodup : ((plain.map fun (key, d) => (key, Node.value d)).map Prod.fst ++
        nested.map Prod.fst).Nodup := by
      simpa [Function.comp_def] using hkeys
    obtain ⟨after, nodes, hnested, hnodes⟩ := run_nested ih hnodup []
    refine ⟨⟨after, (plain.map fun (key, d) => (key, .value d)) ++ nodes⟩, ?_, ?_⟩
    · rw [recordStatements_tidy hplain, Draft.run_append, hlines, Option.bind_some, hnested]
    · rw [membersOf_append, membersOf_plain, hnodes]

theorem assemble?_recordStatements {depth : Nat} {members : List (String × Datum)}
    (h : Tidy depth members) : assemble? (recordStatements members) = some members := by
  obtain ⟨after, hrun, hmembers⟩ := h.makes
  rw [Draft.run] at hrun
  rw [assemble?, hrun, Option.map_some, hmembers]

end InventoryTokens.Toml
