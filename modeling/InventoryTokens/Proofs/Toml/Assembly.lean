import InventoryTokens.Proofs.Table
import InventoryTokens.Toml.Writer

/-!
# Tables within tables

Statements that stay within one table of a document do to that table what they would do to a
document of its own.  So a document is put together table by table.
-/

namespace InventoryTokens.Toml

namespace Entries

theorem find?_eq_none {entries : Entries} {key : String} (h : key ∉ entries.map Prod.fst) :
    entries.find? key = none := by
  simp only [List.mem_map, not_exists, not_and] at h
  exact List.lookup_eq_none_iff.mpr fun p hp => by simpa using fun he => h p hp he.symm

theorem put_of_find?_none {entries : Entries} {key : String} (h : entries.find? key = none)
    (node : Node) : entries.put key node = entries ++ [(key, node)] := by
  induction entries with
  | nil => rfl
  | cons head tail ih =>
    obtain ⟨k, old⟩ := head
    rw [find?, Table.lookup_cons_eq] at h
    split at h
    · cases h
    · rename_i hne
      rw [put, if_neg (Ne.symm hne), ih h]
      rfl

theorem put_put (key : String) (first second : Node) (entries : Entries) :
    (entries.put key first).put key second = entries.put key second := by
  induction entries with
  | nil => simp [put]
  | cons head tail ih =>
    obtain ⟨k, old⟩ := head
    by_cases hk : k = key
    · simp [put, hk]
    · simp only [put, if_neg hk, ih]

theorem find?_put (key : String) (node : Node) (entries : Entries) :
    (entries.put key node).find? key = some node := by
  induction entries with
  | nil => simp [put, find?]
  | cons head tail ih =>
    obtain ⟨k, old⟩ := head
    by_cases hk : k = key
    · simp [put, find?, hk]
    · rw [put, if_neg hk, find?, Table.lookup_cons_eq, if_neg (Ne.symm hk)]
      exact ih

theorem put_of_find? {entries : Entries} {key : String} {node : Node}
    (h : entries.find? key = some node) : entries.put key node = entries := by
  induction entries with
  | nil => cases h
  | cons head tail ih =>
    obtain ⟨k, old⟩ := head
    rw [find?, Table.lookup_cons_eq] at h
    split at h
    · rename_i hk
      rw [put, if_pos hk.symm, Option.some.inj h]
    · rename_i hne
      rw [put, if_neg (Ne.symm hne), ih h]

theorem atPath_here (update : Entries → Option Entries) (path : List String) (here : Bool)
    (entries : Entries) :
    atPath false (fun _ => update) path here entries =
      atPath false (fun _ => update) path false entries := by
  cases path <;> rfl

end Entries

/-- A node that stands for a table, as a function of what is in the table. -/
inductive Container : (Entries → Node) → Prop where
  | table (origin : Origin) : Container (.table origin)
  | last (earlier : List Entries) : Container (.tables earlier)

theorem Container.atPath {wrap : Entries → Node} (hwrap : Container wrap) {entries inner : Entries}
    {key : String} (hfind : entries.find? key = some (wrap inner))
    (update : Entries → Option Entries) (path : List String) :
    Entries.atPath false (fun _ => update) (key :: path) false entries =
      (Entries.atPath false (fun _ => update) path false inner).map fun inner =>
        entries.put key (wrap inner) := by
  cases hwrap with
  | table origin =>
    rw [Entries.atPath, hfind]
    simp only [Bool.false_eq_true, false_and, if_false]
    rw [Entries.atPath_here]
  | last earlier => rw [Entries.atPath, hfind]

/-- The statement that does below a path what a statement does in a document. -/
def Statement.under (above : List String) : Statement → Statement
  | .assign path key datum => .assign path key datum
  | .table path key => .table (above ++ path) key
  | .element path key => .element (above ++ path) key

theorem Statement.under_under (above below : List String) (statement : Statement) :
    (statement.under below).under above = statement.under (above ++ below) := by
  cases statement <;> simp [under]

/-- The draft after several statements. -/
def Draft.run (draft : Draft) (statements : List Statement) : Option Draft :=
  statements.foldlM Draft.perform draft

theorem Draft.perform_under {wrap : Entries → Node} (hwrap : Container wrap)
    {entries inner : Entries} {key : String} (hfind : entries.find? key = some (wrap inner))
    {header : List String} {statement : Statement} {after : Draft}
    (h : Draft.perform ⟨header, inner⟩ statement = some after) :
    Draft.perform ⟨key :: header, entries⟩ (statement.under [key]) =
      some ⟨key :: after.header, entries.put key (wrap after.entries)⟩ := by
  cases statement with
  | assign path k datum =>
    simp only [Draft.perform, Entries.assignUnder, Option.map_eq_some_iff] at h
    obtain ⟨inner', hinner, rfl⟩ := h
    simp only [Statement.under, Draft.perform, Entries.assignUnder, hwrap.atPath hfind, hinner,
      Option.map_some]
  | table path k =>
    simp only [Draft.perform, Entries.openTable, Option.map_eq_some_iff] at h
    obtain ⟨inner', hinner, rfl⟩ := h
    simp only [Statement.under, Draft.perform, Entries.openTable, List.cons_append, List.nil_append,
      hwrap.atPath hfind, hinner, Option.map_some]
  | element path k =>
    simp only [Draft.perform, Entries.openElement, Option.map_eq_some_iff] at h
    obtain ⟨inner', hinner, rfl⟩ := h
    simp only [Statement.under, Draft.perform, Entries.openElement, List.cons_append,
      List.nil_append, hwrap.atPath hfind, hinner, Option.map_some]

theorem Draft.run_cons (draft : Draft) (statement : Statement) (statements : List Statement) :
    draft.run (statement :: statements) =
      (draft.perform statement).bind fun next => next.run statements := by
  rw [run, List.foldlM_cons]
  rfl

theorem Draft.run_append (draft : Draft) (first second : List Statement) :
    draft.run (first ++ second) = (draft.run first).bind fun next => next.run second := by
  rw [run, List.foldlM_append]
  rfl

/-- Statements below a table do to the table what they do to a document. -/
theorem Draft.run_under {wrap : Entries → Node} (hwrap : Container wrap) {entries inner : Entries}
    {key : String} (hfind : entries.find? key = some (wrap inner)) {header : List String}
    {statements : List Statement} {after : Draft}
    (h : Draft.run ⟨header, inner⟩ statements = some after) :
    Draft.run ⟨key :: header, entries⟩ (statements.map (Statement.under [key])) =
      some ⟨key :: after.header, entries.put key (wrap after.entries)⟩ := by
  induction statements generalizing entries inner header with
  | nil =>
    cases h
    rw [Entries.put_of_find? hfind]
    rfl
  | cons statement statements ih =>
    rw [run_cons] at h
    obtain ⟨next, hnext, hrest⟩ := Option.bind_eq_some_iff.mp h
    rw [List.map_cons, run_cons, perform_under hwrap hfind hnext, Option.bind_some,
      ih (Entries.find?_put key _ entries) hrest, Entries.put_put]

end InventoryTokens.Toml
