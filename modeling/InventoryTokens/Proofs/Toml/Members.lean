import InventoryTokens.Proofs.Toml.Assembly
import InventoryTokens.Toml.Reader

/-!
# Members of a document

A text that is read as a document gives a record with each key once and something at every key.  It
is so after every statement, because a statement puts one node at one key and no statement assigns
nothing.
-/

namespace InventoryTokens.Toml

/-- Each key stands once, and something stands at it. -/
structure Entries.Proper (entries : Entries) : Prop where
  nodup : (entries.map Prod.fst).Nodup
  present : ∀ entry ∈ entries, entry.2 ≠ .value .absent

namespace Entries

variable {entries after : Entries} {key : String} {node : Node}

theorem map_fst_put (key : String) (node : Node) (entries : Entries) :
    (entries.put key node).map Prod.fst =
      if key ∈ entries.map Prod.fst then entries.map Prod.fst
      else entries.map Prod.fst ++ [key] := by
  induction entries with
  | nil => rfl
  | cons head tail ih =>
    obtain ⟨k, old⟩ := head
    by_cases hk : k = key
    · simp [put, hk]
    · rw [put, if_neg hk, List.map_cons, ih, List.map_cons]
      simp only [List.mem_cons, Ne.symm hk, false_or]
      split <;> rfl

theorem mem_put {entry : String × Node} (h : entry ∈ entries.put key node) :
    entry = (key, node) ∨ entry ∈ entries := by
  induction entries with
  | nil => exact Or.inl (List.mem_singleton.mp h)
  | cons head tail ih =>
    obtain ⟨k, old⟩ := head
    rw [put] at h
    split at h
    · rename_i hk
      rcases List.mem_cons.mp h with rfl | hmem
      · exact Or.inl (by rw [hk])
      · exact Or.inr (List.mem_cons_of_mem _ hmem)
    · rcases List.mem_cons.mp h with rfl | hmem
      · exact Or.inr List.mem_cons_self
      · exact (ih hmem).imp_right (List.mem_cons_of_mem _)

theorem Proper.put (h : entries.Proper) (hnode : node ≠ .value .absent) :
    (entries.put key node).Proper where
  nodup := by
    rw [map_fst_put]
    split
    case isTrue => exact h.nodup
    case isFalse hkey =>
      exact List.nodup_append.mpr ⟨h.nodup, List.nodup_singleton key, by grind⟩
  present := by
    intro entry hentry
    rcases mem_put hentry with rfl | hmem
    · exact hnode
    · exact h.present entry hmem

/-- An update at a path keeps a table proper if it does so where the path ends: all it does to the
table itself is to put a table in it. -/
theorem Proper.atPath {dotted here : Bool} {update : Bool → Entries → Option Entries}
    (hupdate : ∀ here inner after, Proper inner → update here inner = some after → Proper after)
    (h : entries.Proper) {path : List String}
    (hafter : Entries.atPath dotted update path here entries = some after) : after.Proper := by
  cases path with
  | nil => exact hupdate here entries after h hafter
  | cons key path =>
    rw [Entries.atPath] at hafter
    split at hafter
    · obtain ⟨inner, -, rfl⟩ := Option.map_eq_some_iff.mp hafter
      exact h.put (by simp)
    · split at hafter
      · cases hafter
      · obtain ⟨inner, -, rfl⟩ := Option.map_eq_some_iff.mp hafter
        exact h.put (by simp)
    · obtain ⟨last, -, rfl⟩ := Option.map_eq_some_iff.mp hafter
      exact h.put (by simp)
    · cases hafter

theorem Proper.assign {datum : Datum} (hdatum : datum ≠ .absent) (h : entries.Proper)
    {path : List String} (hafter : entries.assign path key datum = some after) :
    after.Proper := by
  refine h.atPath (fun here inner next hinner hnext => ?_) hafter
  split at hnext
  · cases hnext
  · split at hnext
    · cases hnext
    · obtain rfl := Option.some.inj hnext
      exact hinner.put (by simpa using hdatum)

theorem Proper.openTable (h : entries.Proper) {path : List String}
    (hafter : entries.openTable path key = some after) : after.Proper := by
  refine h.atPath (fun here inner next hinner hnext => ?_) hafter
  split at hnext
  · obtain rfl := Option.some.inj hnext
    exact hinner.put (by simp)
  · obtain rfl := Option.some.inj hnext
    exact hinner.put (by simp)
  · cases hnext

theorem Proper.openElement (h : entries.Proper) {path : List String}
    (hafter : entries.openElement path key = some after) : after.Proper := by
  refine h.atPath (fun here inner next hinner hnext => ?_) hafter
  split at hnext
  · obtain rfl := Option.some.inj hnext
    exact hinner.put (by simp)
  · obtain rfl := Option.some.inj hnext
    exact hinner.put (by simp)
  · cases hnext

end Entries

/-- A statement assigns something, if it assigns. -/
def Statement.Present : Statement → Prop
  | .assign _ _ datum => datum ≠ .absent
  | .table _ _ => True
  | .element _ _ => True

theorem Draft.proper_perform {draft after : Draft} {statement : Statement}
    (hstatement : statement.Present) (h : draft.entries.Proper)
    (hafter : draft.perform statement = some after) : after.entries.Proper := by
  cases statement with
  | assign path key datum =>
    obtain ⟨entries, hentries, rfl⟩ := Option.map_eq_some_iff.mp hafter
    exact h.atPath (fun _ _ _ hinner hnext => hinner.assign hstatement hnext) hentries
  | table path key =>
    obtain ⟨entries, hentries, rfl⟩ := Option.map_eq_some_iff.mp hafter
    exact h.openTable hentries
  | element path key =>
    obtain ⟨entries, hentries, rfl⟩ := Option.map_eq_some_iff.mp hafter
    exact h.openElement hentries

theorem Draft.proper_run {draft after : Draft} {statements : List Statement}
    (hstatements : ∀ statement ∈ statements, statement.Present) (h : draft.entries.Proper)
    (hafter : draft.run statements = some after) : after.entries.Proper := by
  induction statements generalizing draft with
  | nil =>
    obtain rfl := Option.some.inj hafter
    exact h
  | cons statement statements ih =>
    obtain ⟨hfirst, hrest⟩ := List.forall_mem_cons.mp hstatements
    rw [run_cons] at hafter
    obtain ⟨next, hnext, hlast⟩ := Option.bind_eq_some_iff.mp hafter
    exact ih hrest (proper_perform hfirst h hnext) hlast

theorem map_fst_membersOf (entries : Entries) :
    (membersOf entries).map Prod.fst = entries.map Prod.fst := by
  induction entries with
  | nil => simp only [membersOf, List.map_nil]
  | cons head tail ih =>
    obtain ⟨key, node⟩ := head
    simp only [membersOf, memberOf, List.map_cons, ih]

theorem Entries.Proper.membersOf_present {entries : Entries} (h : entries.Proper) :
    ∀ m ∈ membersOf entries, m.2 ≠ .absent := by
  obtain ⟨-, hpresent⟩ := h
  induction entries with
  | nil => simp [membersOf]
  | cons head tail ih =>
    obtain ⟨key, node⟩ := head
    obtain ⟨hhead, htail⟩ := List.forall_mem_cons.mp hpresent
    rw [membersOf, List.forall_mem_cons]
    refine ⟨?_, ih htail⟩
    cases node with
    | value datum => simpa [memberOf, Node.datum] using hhead
    | table origin entries => simp [memberOf, Node.datum]
    | tables earlier last => simp [memberOf, Node.datum]

theorem integer?_ne_absent (cs : List Char) : integer? cs ≠ some .absent := by
  unfold integer?
  repeat' split
  all_goals simp

theorem float?_ne_absent (cs : List Char) : float? cs ≠ some .absent := by
  unfold float?
  dsimp only
  repeat' split
  all_goals simp

theorem scalar?_ne_absent (cs : List Char) : scalar? cs ≠ some .absent := by
  unfold scalar?
  repeat' split
  · simp
  · simp
  · simp [dateTime]
  · intro h
    rcases Option.or_eq_some_iff.mp h with hfloat | ⟨-, hinteger⟩
    · exact float?_ne_absent cs hfloat
    · exact integer?_ne_absent cs hinteger

theorem scanScalar_present {cs rest : List Char} {d : Datum}
    (h : scanScalar cs = some (d, rest)) : d ≠ .absent := by
  rintro rfl
  unfold scanScalar at h
  dsimp only at h
  repeat' split at h
  all_goals simp [dateTime, scalar?_ne_absent] at h

theorem scanValue_present {steps depth : Nat} {cs rest : List Char} {d : Datum}
    (h : scanValue steps depth cs = some (d, rest)) : d ≠ .absent := by
  rintro rfl
  cases steps with
  | zero => cases h
  | succ steps =>
    rw [scanValue.eq_def] at h
    dsimp only at h
    split at h
    · split at h
      · simp at h
      · cases h
    · split at h
      · split at h
        · simp at h
        · obtain ⟨⟨pairs, more⟩, -, h⟩ := Option.bind_eq_some_iff.mp h
          obtain ⟨record, hrecord, h⟩ := Option.bind_eq_some_iff.mp h
          obtain ⟨rfl, -⟩ := Prod.mk.inj (Option.some.inj h)
          obtain ⟨entries, -, hentries⟩ := Option.map_eq_some_iff.mp hrecord
          cases hentries
      · cases h
    · simp at h
    · simp at h
    · exact scanScalar_present h rfl

theorem scanStatements_present {steps : Nat} {cs : List Char} {statements : List Statement}
    (h : scanStatements steps cs = some statements) :
    ∀ statement ∈ statements, statement.Present := by
  induction steps generalizing cs statements with
  | zero => cases h
  | succ steps ih =>
    rw [scanStatements] at h
    split at h
    · obtain rfl := Option.some.inj h
      simp
    · simp only [Option.bind_eq_bind, Option.bind_eq_some_iff, Option.map_eq_some_iff] at h
      obtain ⟨⟨⟨path, key⟩, rest⟩, -, statements, hrest, rfl⟩ := h
      exact List.forall_mem_cons.mpr ⟨trivial, ih hrest⟩
    · simp only [Option.bind_eq_bind, Option.bind_eq_some_iff, Option.map_eq_some_iff] at h
      obtain ⟨⟨⟨path, key⟩, rest⟩, -, statements, hrest, rfl⟩ := h
      exact List.forall_mem_cons.mpr ⟨trivial, ih hrest⟩
    · obtain ⟨rest, -, hrest⟩ := Option.bind_eq_some_iff.mp h
      exact ih hrest
    · split at h
      · exact ih h
      · obtain ⟨⟨⟨path, key⟩, rest⟩, -, h⟩ := Option.bind_eq_some_iff.mp h
        dsimp only at h
        split at h
        · simp only [Option.bind_eq_bind, Option.bind_eq_some_iff, Option.map_eq_some_iff] at h
          obtain ⟨⟨datum, more⟩, hdatum, line, -, statements, hrest, rfl⟩ := h
          exact List.forall_mem_cons.mpr ⟨scanValue_present hdatum, ih hrest⟩
        · cases h

/-- A text that is read as a document gives a record with each key once and something at every
key. -/
theorem record_of_read? {text : String} {d : Datum} (h : read? text = some d) :
    ∃ fields, d = .record fields ∧ (fields.map Prod.fst).Nodup ∧ ∀ m ∈ fields, m.2 ≠ .absent := by
  obtain ⟨fields, hfields, rfl⟩ := Option.map_eq_some_iff.mp h
  obtain ⟨statements, hscan, hassemble⟩ := Option.bind_eq_some_iff.mp hfields
  obtain ⟨draft, hdraft, rfl⟩ := Option.map_eq_some_iff.mp hassemble
  have hstart : Entries.Proper [] := ⟨List.nodup_nil, by simp⟩
  have hproper : draft.entries.Proper :=
    Draft.proper_run (scanStatements_present hscan) hstart hdraft
  exact ⟨_, rfl, by rw [map_fst_membersOf]; exact hproper.nodup, hproper.membersOf_present⟩

end InventoryTokens.Toml
