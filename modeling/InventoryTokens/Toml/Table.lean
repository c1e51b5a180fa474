import InventoryTokens.Datum

/-!
# TOML tables

A document assigns values at paths of keys.  A table may be opened by its own header, implied by a
longer header, or made by a dotted key; each key is given one value, each table one header, and
dotted keys enter only tables that have none.  An update walks down a path and fails as a whole
where the path meets a value or a table that it may not enter.
-/

namespace InventoryTokens.Toml

inductive Origin where
  | header
  | implied
  | dotted
  deriving DecidableEq, Repr

/-- What stands at a key: a value, a table, or an array of tables with its last element apart. -/
inductive Node where
  | value (datum : Datum)
  | table (origin : Origin) (entries : List (String × Node))
  | tables (earlier : List (List (String × Node))) (last : List (String × Node))

/-- The keys of a table with what stands at them, in order of first appearance. -/
abbrev Entries := List (String × Node)

namespace Entries

def find? (entries : Entries) (key : String) : Option Node :=
  entries.lookup key

/-- Puts a node at a key, in place of what stood there. -/
def put (key : String) (node : Node) : Entries → Entries
  | [] => [(key, node)]
  | (k, old) :: rest => if k = key then (k, node) :: rest else (k, old) :: put key node rest

/-- Updates the table at the end of a path.  On the way missing tables are made, and the last table
of an array stands for the array.  A dotted path enters no table that has a header.  The update is
told whether its table was made by a dotted key. -/
def atPath (dotted : Bool) (update : Bool → Entries → Option Entries) :
    List String → Bool → Entries → Option Entries
  | [], here, entries => update here entries
  | key :: path, _, entries =>
    match entries.find? key with
    | none =>
      let origin := if dotted then Origin.dotted else Origin.implied
      (atPath dotted update path dotted []).map fun inner => entries.put key (.table origin inner)
    | some (.table origin inner) =>
      if dotted ∧ origin = .header then none
      else (atPath dotted update path (origin = .dotted) inner).map fun inner =>
        entries.put key (.table origin inner)
    | some (.tables earlier last) =>
      (atPath dotted update path false last).map fun last =>
        entries.put key (.tables earlier last)
    | some (.value _) => none

/-- Assigns a value at a dotted key.  All keys but the last must lead to a table made by dotted
keys, and the last must be free. -/
def assign (path : List String) (key : String) (datum : Datum) (entries : Entries) :
    Option Entries :=
  atPath true (fun here inner =>
    if here = path.isEmpty then none
    else if (inner.find? key).isSome then none
    else some (inner.put key (.value datum))) path false entries

/-- Opens a table by its header: a new one, or one that longer headers implied. -/
def openTable (path : List String) (key : String) (entries : Entries) : Option Entries :=
  atPath false (fun _ inner =>
    match inner.find? key with
    | none => some (inner.put key (.table .header []))
    | some (.table .implied old) => some (inner.put key (.table .header old))
    | some _ => none) path false entries

/-- Adds an empty table to an array of tables by its header. -/
def openElement (path : List String) (key : String) (entries : Entries) : Option Entries :=
  atPath false (fun _ inner =>
    match inner.find? key with
    | none => some (inner.put key (.tables [] []))
    | some (.tables earlier last) => some (inner.put key (.tables (earlier ++ [last]) []))
    | some _ => none) path false entries

/-- Assigns within the table that a header opened. -/
def assignUnder (header path : List String) (key : String) (datum : Datum) (entries : Entries) :
    Option Entries :=
  atPath false (fun _ inner => inner.assign path key datum) header false entries

end Entries

mutual

/-- The datum of a node: tables are records, an array of tables is a list of records. -/
def Node.datum : Node → Datum
  | .value d => d
  | .table _ entries => .record (membersOf entries)
  | .tables earlier last => .list (recordsOf earlier ++ [.record (membersOf last)])

def membersOf : List (String × Node) → List (String × Datum)
  | [] => []
  | entry :: rest => memberOf entry :: membersOf rest

def memberOf : String × Node → String × Datum
  | (key, node) => (key, node.datum)

/-- One record for each table. -/
def recordsOf : List (List (String × Node)) → List Datum
  | [] => []
  | entries :: rest => .record (membersOf entries) :: recordsOf rest

end

/-- The record of an inline table: each pair assigns at a dotted key. -/
def inlineRecord? (pairs : List (List String × String × Datum)) : Option Datum :=
  (pairs.foldlM (fun entries (path, key, datum) => Entries.assign path key datum entries)
    ([] : Entries)).map fun entries => .record (membersOf entries)

inductive Statement where
  | assign (path : List String) (key : String) (datum : Datum)
  | table (path : List String) (key : String)
  | element (path : List String) (key : String)

/-- The table under construction and the path of the last header. -/
structure Draft where
  header : List String
  entries : Entries

def Draft.perform (draft : Draft) : Statement → Option Draft
  | .assign path key datum =>
    (draft.entries.assignUnder draft.header path key datum).map fun entries =>
      { draft with entries }
  | .table path key =>
    (draft.entries.openTable path key).map fun entries => ⟨path ++ [key], entries⟩
  | .element path key =>
    (draft.entries.openElement path key).map fun entries => ⟨path ++ [key], entries⟩

/-- The members of the document that statements make, in their order. -/
def assemble? (statements : List Statement) : Option (List (String × Datum)) :=
  (statements.foldlM Draft.perform ⟨[], []⟩).map fun draft => membersOf draft.entries

end InventoryTokens.Toml
