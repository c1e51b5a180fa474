import InventoryTokens.File.System
import InventoryTokens.Table

/-!
# Changes of a tree

What is found in a tree after something was put into it, and which directories are still there.  A
trail keeps the nodes that it has passed; it leads from a root if each of them lies in the one
before.
-/

namespace InventoryTokens.File

namespace Node

theorem lookup_putEntry (name other : String) (node : Node) (entries : List (String × Node)) :
    (putEntry name node entries).lookup other =
      if other = name then some node else entries.lookup other := by
  induction entries with
  | nil => exact Table.lookup_cons_eq other name node []
  | cons head rest ih =>
    obtain ⟨n, old⟩ := head
    rw [putEntry]
    by_cases hn : n = name
    · rw [if_pos hn, Table.lookup_cons_eq, Table.lookup_cons_eq, hn]
      by_cases ho : other = name
      · rw [if_pos ho, if_pos ho]
      · rw [if_neg ho, if_neg ho, if_neg ho]
    · rw [if_neg hn, Table.lookup_cons_eq, Table.lookup_cons_eq, ih]
      by_cases ho : other = n
      · have hne : other ≠ name := fun he => hn (ho.symm.trans he)
        rw [if_pos ho, if_neg hne, if_pos ho]
      · rw [if_neg ho, if_neg ho]

theorem putEntry_of_lookup {name : String} {node : Node} {entries : List (String × Node)}
    (h : entries.lookup name = some node) : putEntry name node entries = entries := by
  induction entries with
  | nil => cases h
  | cons head rest ih =>
    obtain ⟨n, old⟩ := head
    rw [Table.lookup_cons_eq] at h
    rw [putEntry]
    by_cases hn : n = name
    · rw [if_pos hn.symm] at h
      rw [if_pos hn, Option.some.inj h]
    · rw [if_neg (Ne.symm hn)] at h
      rw [if_neg hn, ih h]

theorem find?_append (first second : List String) (node : Node) :
    find? (first ++ second) node = (find? first node).bind (find? second) := by
  induction first generalizing node with
  | nil => rfl
  | cons name names ih =>
    cases node with
    | file content => rfl
    | directory entries =>
      rw [List.cons_append, find?, find?, Option.bind_assoc]
      exact congrArg _ (funext ih)

/-- Names lead to a directory. -/
def HasDirectory (root : Node) (names : List String) : Prop :=
  ∃ entries, root.find? names = some (.directory entries)

theorem hasDirectory_cons {node : Node} {name : String} {names : List String} :
    HasDirectory node (name :: names) ↔
      ∃ entries inner, node = .directory entries ∧ entries.lookup name = some inner ∧
        HasDirectory inner names := by
  cases node with
  | file content => simp [HasDirectory, find?]
  | directory entries =>
    simp only [HasDirectory, find?, Option.bind_eq_some_iff]
    constructor
    · intro ⟨found, inner, hinner, hfound⟩
      exact ⟨entries, inner, rfl, hinner, found, hfound⟩
    · intro ⟨_, inner, hnode, hinner, found, hfound⟩
      rw [← directory.inj hnode] at hinner
      exact ⟨found, inner, hinner, hfound⟩

/-- What was put into a directory is found there. -/
theorem find?_put {root : Node} {here : List String} (h : HasDirectory root here) (name : String)
    (new : Node) : find? (here ++ [name]) (put new (here ++ [name]) root) = some new := by
  induction here generalizing root with
  | nil =>
    obtain ⟨entries, hroot⟩ := h
    rw [Option.some.inj hroot, List.nil_append, put, find?, lookup_putEntry, if_pos rfl]
    rfl
  | cons first rest ih =>
    obtain ⟨entries, inner, hroot, hinner, hrest⟩ := hasDirectory_cons.mp h
    rw [hroot, List.cons_append, put, find?, lookup_putEntry, if_pos rfl, hinner]
    exact ih hrest

/-- A directory stays one unless something is put in its place. -/
theorem HasDirectory.put {root : Node} {names spot : List String} (h : HasDirectory root names)
    (hspot : ¬HasDirectory root spot) (new : Node) : HasDirectory (put new spot root) names := by
  -- Both lists of names are followed from the root, until the first name in which they differ.
  induction spot generalizing root names with
  | nil =>
    cases root with
    | directory entries => exact absurd ⟨entries, rfl⟩ hspot
    | file content =>
      obtain ⟨entries, hfound⟩ := h
      cases names with
      | nil => cases hfound
      | cons name names => cases hfound
  | cons first rest ih =>
    cases root with
    | file content => exact h
    | directory entries =>
      cases names with
      | nil => exact ⟨_, rfl⟩
      | cons name names =>
        obtain ⟨_, inner, hnode, hinner, hrest⟩ := hasDirectory_cons.mp h
        rw [← directory.inj hnode] at hinner
        rw [Node.put, hasDirectory_cons]
        by_cases hname : name = first
        · have hinner' : entries.lookup first = some inner := hname ▸ hinner
          have hfree : ¬HasDirectory inner rest := by
            intro hdirectory
            exact hspot (hasDirectory_cons.mpr ⟨entries, inner, rfl, hinner', hdirectory⟩)
          refine ⟨_, Node.put new rest inner, rfl, ?_, ih hrest hfree⟩
          rw [lookup_putEntry, if_pos hname, hinner']
          rfl
        · refine ⟨_, inner, rfl, ?_, hrest⟩
          rw [lookup_putEntry, if_neg hname, hinner]

/-- Putting what is there already changes nothing. -/
theorem put_of_find? {root node : Node} {names : List String} (h : root.find? names = some node) :
    put node names root = root := by
  induction names generalizing root with
  | nil => exact (Option.some.inj h).symm
  | cons name names ih =>
    cases root with
    | file content => rfl
    | directory entries =>
      obtain ⟨inner, hinner, hfound⟩ := Option.bind_eq_some_iff.mp h
      rw [put, hinner, Option.getD_some, ih hfound, putEntry_of_lookup hinner]

end Node

namespace Trail

/-- A trail leads from a root: each node lies under its name in the directory before it. -/
def Leads (root : Node) : Trail → Prop
  | [] => True
  | (name, node) :: before =>
    Leads root before ∧
      ∃ entries, Trail.node root before = .directory entries ∧ entries.lookup name = some node

theorem names_cons (name : String) (node : Node) (trail : Trail) :
    Trail.names ((name, node) :: trail) = trail.names ++ [name] := by
  simp [Trail.names]

/-- A trail that leads from a root ends where its names lead. -/
theorem Leads.find?_names {root : Node} {trail : Trail} (h : Leads root trail) :
    root.find? trail.names = some (trail.node root) := by
  induction trail with
  | nil => rfl
  | cons head before ih =>
    obtain ⟨name, node⟩ := head
    obtain ⟨hbefore, entries, hentries, hname⟩ := h
    rw [names_cons, Node.find?_append, ih hbefore, hentries, Option.bind_some, Node.find?, hname]
    rfl

/-- A further name leads to what lies under it in the directory at the end. -/
theorem Leads.find?_names_append {root : Node} {trail : Trail} (h : Leads root trail)
    {entries : List (String × Node)} (hnode : trail.node root = .directory entries)
    (name : String) : root.find? (trail.names ++ [name]) = entries.lookup name := by
  rw [Node.find?_append, h.find?_names, hnode, Option.bind_some, Node.find?]
  cases entries.lookup name <;> rfl

theorem Leads.tail {root : Node} {trail : Trail} (h : Leads root trail) :
    Leads root trail.tail := by
  cases trail with
  | nil => trivial
  | cons head before => exact h.1

theorem Leads.hasDirectory {root : Node} {trail : Trail} (h : Leads root trail) :
    root.HasDirectory trail.names ↔ ∃ entries, trail.node root = .directory entries := by
  rw [Node.HasDirectory, h.find?_names]
  simp only [Option.some.injEq]

/-- Following names leads on, and is possible wherever something is found at their end. -/
theorem Leads.follow? {root : Node} {trail : Trail} (h : Leads root trail) {names : List String}
    {last : Trail} (hlast : follow? names trail (trail.node root) = some last) :
    Leads root last ∧ last.names = trail.names ++ names := by
  induction names generalizing trail with
  | nil =>
    obtain rfl := Option.some.inj hlast
    exact ⟨h, (List.append_nil _).symm⟩
  | cons name names ih =>
    cases hnode : trail.node root with
    | file content =>
      rw [hnode] at hlast
      cases hlast
    | directory entries =>
      rw [hnode] at hlast
      obtain ⟨node, hname, hrest⟩ := Option.bind_eq_some_iff.mp hlast
      have hnext : Leads root ((name, node) :: trail) := ⟨h, entries, hnode, hname⟩
      obtain ⟨hleads, hnames⟩ := ih hnext hrest
      rw [names_cons, List.append_assoc, List.singleton_append] at hnames
      exact ⟨hleads, hnames⟩

theorem exists_follow? {names : List String} {node found : Node}
    (h : node.find? names = some found) (trail : Trail) :
    ∃ last, follow? names trail node = some last := by
  induction names generalizing node trail with
  | nil => exact ⟨trail, rfl⟩
  | cons name names ih =>
    cases node with
    | file content => cases h
    | directory entries =>
      obtain ⟨inner, hinner, hfound⟩ := Option.bind_eq_some_iff.mp h
      obtain ⟨last, hlast⟩ := ih hfound ((name, inner) :: trail)
      exact ⟨last, Option.bind_eq_some_iff.mpr ⟨inner, hinner, hlast⟩⟩

end Trail

end InventoryTokens.File
