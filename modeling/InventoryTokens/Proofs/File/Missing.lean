import InventoryTokens.Proofs.File.Walk

/-!
# Missing files

A path of names is not found exactly if one of the directories on its way lacks the next name, or
if the working directory itself is gone.  A file in place of a directory is another error.
-/

namespace InventoryTokens.File

namespace Node

theorem HasDirectory.of_append {root : Node} {first second : List String}
    (h : root.HasDirectory (first ++ second)) (hne : second ≠ []) : root.HasDirectory first := by
  obtain ⟨entries, hfind⟩ := h
  rw [find?_append] at hfind
  obtain ⟨node, hnode, hrest⟩ := Option.bind_eq_some_iff.mp hfind
  cases node with
  | file content =>
    obtain ⟨name, names, rfl⟩ := List.exists_cons_of_ne_nil hne
    cases hrest
  | directory entries => exact ⟨entries, hnode⟩

/-- Below a directory, one of the directories on the way along names lacks the next name. -/
def Lacks (root : Node) (here names : List String) : Prop :=
  ∃ before name after, names = before ++ name :: after ∧ root.HasDirectory (here ++ before) ∧
    root.find? (here ++ before ++ [name]) = none

theorem not_lacks_nil (root : Node) (here : List String) : ¬root.Lacks here [] := by
  rintro ⟨before, name, after, heq, -⟩
  simp at heq

/-- A way lacks a name at its first step or after it. -/
theorem lacks_cons {root : Node} {here names : List String} {name : String} :
    root.Lacks here (name :: names) ↔
      root.HasDirectory here ∧ root.find? (here ++ [name]) = none ∨
        root.Lacks (here ++ [name]) names := by
  constructor
  · rintro ⟨before, missing, after, heq, hdirectory, hmissing⟩
    cases before with
    | nil =>
      obtain ⟨rfl, rfl⟩ := List.cons.inj heq
      rw [List.append_nil] at hdirectory hmissing
      exact Or.inl ⟨hdirectory, hmissing⟩
    | cons first before =>
      obtain ⟨rfl, rfl⟩ := List.cons.inj heq
      exact Or.inr ⟨before, missing, after, rfl, by simpa using hdirectory, by simpa using hmissing⟩
  · rintro (⟨hdirectory, hmissing⟩ | ⟨before, missing, after, rfl, hdirectory, hmissing⟩)
    · exact ⟨[], name, names, rfl, by simpa using hdirectory, by simpa using hmissing⟩
    · exact ⟨name :: before, missing, after, rfl, by simpa using hdirectory,
        by simpa using hmissing⟩

end Node

namespace FileSystem

open Trail (Leads)

theorem walk_names_eq_notFound {root : Node} {names : List String}
    (hshort : ∀ name ∈ names, ¬nameLimit < name.utf8ByteSize) {trail : Trail}
    (h : Leads root trail) :
    walk root (names.map .name) trail = .error .notFound ↔ root.Lacks trail.names names := by
  induction names generalizing trail with
  | nil => simp [walk, root.not_lacks_nil]
  | cons name names ih =>
    obtain ⟨hname, hnames⟩ := List.forall_mem_cons.mp hshort
    rw [List.map_cons, walk_cons, Node.lacks_cons]
    cases hnode : trail.node root with
    | file content =>
      have hfile : ¬root.HasDirectory trail.names := by
        rw [h.hasDirectory, hnode]
        simp
      simp only [reduceCtorEq, hfile, false_and, false_or, Except.error.injEq, false_iff]
      rintro ⟨before, missing, after, -, hdirectory, -⟩
      rw [List.append_assoc] at hdirectory
      exact hfile (hdirectory.of_append (by simp))
    | directory entries =>
      have hdirectory : root.HasDirectory trail.names := h.hasDirectory.mpr ⟨entries, hnode⟩
      have hfind := h.find?_names_append hnode name
      simp only [Trail.enter, if_neg hname]
      cases hlookup : entries.lookup name with
      | none => simp [hdirectory, hfind, hlookup, bind, Except.bind]
      | some node =>
        have hnext : Leads root ((name, node) :: trail) := ⟨h, entries, hnode, hlookup⟩
        have hih := ih hnames hnext
        rw [Trail.names_cons] at hih
        simp only [hfind, hlookup, reduceCtorEq, and_false, false_or]
        exact hih

/-- Nothing lies at the end of names: the working directory is gone, or a directory on the way from
it lacks the next name. -/
def Misses (fs : FileSystem) (names : List String) : Prop :=
  fs.root.find? fs.working = none ∨ fs.root.Lacks fs.working names

variable {fs : FileSystem}

theorem node?_names_eq_notFound {names : List String}
    (hshort : ∀ name ∈ names, ¬nameLimit < name.utf8ByteSize) :
    fs.node? (names.map .name) = .error .notFound ↔ fs.Misses names := by
  have hlocate : fs.node? (names.map .name) = .error .notFound ↔
      fs.locate (names.map .name) = .error .notFound := by
    rw [node?]
    cases fs.locate (names.map .name) <;> simp [Except.map]
  rw [hlocate, locate, Misses]
  cases hstart : Trail.follow? fs.working [] fs.root with
  | none =>
    have hgone : fs.root.find? fs.working = none := by
      by_contra hfound
      obtain ⟨node, hnode⟩ := Option.ne_none_iff_exists'.mp hfound
      obtain ⟨last, hlast⟩ := Trail.exists_follow? hnode []
      rw [hstart] at hlast
      cases hlast
    simp [hgone]
  | some start =>
    obtain ⟨hleads, hnames⟩ := leads_start hstart
    have hfound := hleads.find?_names
    rw [hnames] at hfound
    simp only [walk_names_eq_notFound hshort hleads, hnames, hfound, reduceCtorEq, false_or]

/-- A text that could name a file is not found exactly if it is not too long and nothing lies where
it leads. -/
theorem read_eq_notFound {text : String} (hnul : '\x00' ∉ text.toList) (hne : text ≠ "") :
    fs.read text = .error .notFound ↔
      text.utf8ByteSize ≤ pathLimit ∧
        fs.node? (Path.parse text).components = .error .notFound := by
  have hcontains : ¬text.toList.contains '\x00' = true := by simpa using hnul
  by_cases hlong : pathLimit < text.utf8ByteSize
  · have hcheck : checkText text = .error .nameTooLong := by
      rw [checkText, if_neg hcontains, if_neg hne, if_pos hlong]
    have hnot : ¬text.utf8ByteSize ≤ pathLimit := Nat.not_le_of_lt hlong
    simp [read, hcheck, bind, Except.bind, hnot]
  · have hcheck : checkText text = .ok () := by
      rw [checkText, if_neg hcontains, if_neg hne, if_neg hlong]
    rw [read, hcheck, and_iff_right (Nat.le_of_not_lt hlong)]
    simp only [bind, Except.bind]
    cases fs.node? (Path.parse text).components with
    | error cause => simp
    | ok node =>
      cases node with
      | file content =>
        simp only [reduceCtorEq, iff_false]
        split <;> simp [pure, Except.pure, throw, throwThe, MonadExceptOf.throw]
      | directory entries => simp [throw, throwThe, MonadExceptOf.throw]

end FileSystem

end InventoryTokens.File
