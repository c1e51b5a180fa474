import InventoryTokens.Proofs.File.Missing
import InventoryTokens.Proofs.File.Path
import InventoryTokens.Proofs.Settings

/-!
# Settings are loaded whole

A file that gives settings is loaded with a default for each that it leaves out.  In every other
case all settings are the defaults, and something is said about it, unless the default file is
merely missing.  Which texts name that file is said by their pieces between slashes, and when it is
missing by the tree.
-/

namespace InventoryTokens

namespace Settings

/-- A path leads to a file that can be read, holds text, and gives the settings. -/
def FoundAt (s : Settings) (fs : File.FileSystem) (path : String) : Prop :=
  ∃ bytes text members, fs.read path = .ok bytes ∧ String.fromUTF8? bytes = some text ∧
    Toml.read? text = some (.record members) ∧ s.GivenBy members

/-- A path is spelled as the default path, up to pieces between slashes that stand for nothing. -/
def IsDefaultPath (path : String) : Prop :=
  ∃ inner outer, (∀ piece ∈ inner ++ outer, File.Path.IsFiller piece) ∧
    path.toList =
      ['/'].intercalate ("config".toList :: inner ++ "playerinv.toml".toList :: outer)

theorem same_defaultPath {path : String} :
    File.Path.same path defaultPath ↔ IsDefaultPath path := by
  have hdefault : (File.Path.parse defaultPath).components =
      [.name "config", .name "playerinv.toml"] := by decide
  rw [File.Path.same, decide_eq_true_eq, hdefault]
  exact File.Path.components_eq_pair (by decide) (by decide)

variable {fs : File.FileSystem} {path : String}

theorem IsDefaultPath.not_mem_nul (h : IsDefaultPath path) : '\x00' ∉ path.toList := by
  obtain ⟨inner, outer, hfillers, htext⟩ := h
  rw [htext]
  intro hmem
  have hno : ∀ piece, File.Path.IsFiller piece → '\x00' ∉ piece := by
    rintro piece (rfl | rfl) <;> decide
  obtain ⟨hinner, houter⟩ := List.forall_mem_append.mp hfillers
  rcases Text.mem_of_mem_intercalate hmem with hslash | ⟨piece, hpiece, hnul⟩
  · exact absurd hslash (by decide)
  · rw [List.cons_append, List.mem_cons, List.mem_append, List.mem_cons] at hpiece
    rcases hpiece with rfl | hpiece | rfl | hpiece
    · exact absurd hnul (by decide)
    · exact hno piece (hinner piece hpiece) hnul
    · exact absurd hnul (by decide)
    · exact hno piece (houter piece hpiece) hnul

/-- The default file is missing exactly if its path is not too long and nothing lies there. -/
theorem read_defaultPath_eq_notFound (h : IsDefaultPath path) :
    fs.read path = .error .notFound ↔
      path.utf8ByteSize ≤ File.FileSystem.pathLimit ∧
        fs.Misses ["config", "playerinv.toml"] := by
  have hne : path ≠ "" := by
    rintro rfl
    exact absurd (same_defaultPath.mpr h) (by decide)
  have hcomponents : (File.Path.parse path).components =
      ["config", "playerinv.toml"].map .name :=
    (File.Path.components_eq_pair (by decide) (by decide)).mpr h
  rw [File.FileSystem.read_eq_notFound h.not_mem_nul hne, hcomponents,
    File.FileSystem.node?_names_eq_notFound (by decide)]

theorem load_of_foundAt {s : Settings} (h : s.FoundAt fs path) : load fs path = (s, none) := by
  obtain ⟨bytes, text, members, hread, htext, hmembers, hgiven⟩ := h
  have hsettings : ofToml? text = some s := ofToml?_eq_some.mpr ⟨members, hmembers, hgiven⟩
  rw [load, ofFile, File.asText_eq_ok.mpr ⟨bytes, hread, htext⟩]
  simp only [hsettings]

theorem ofToml?_eq_none_of_not_foundAt (h : ∀ s : Settings, ¬s.FoundAt fs path) {text : String}
    (htext : File.asText (fs.read path) = .ok text) : ofToml? text = none := by
  by_contra hsome
  obtain ⟨s, hs⟩ := Option.ne_none_iff_exists'.mp hsome
  obtain ⟨bytes, hread, hbytes⟩ := File.asText_eq_ok.mp htext
  obtain ⟨members, hmembers, hgiven⟩ := ofToml?_eq_some.mp hs
  exact h s ⟨bytes, text, members, hread, hbytes, hmembers, hgiven⟩

/-- What is wrong is left unsaid only if the default file is not found. -/
theorem problem_eq_none_of_not_foundAt (h : ∀ s : Settings, ¬s.FoundAt fs path) :
    (load fs path).2 = none ↔ fs.read path = .error .notFound ∧ IsDefaultPath path := by
  rw [load, ofFile, ← same_defaultPath, ← File.asText_eq_notFound]
  cases htext : File.asText (fs.read path) with
  | ok text => simp [ofToml?_eq_none_of_not_foundAt h htext]
  | error cause =>
    dsimp only
    split
    case isTrue hquiet => simp [hquiet]
    case isFalse hquiet =>
      simp only [reduceCtorEq, Except.error.injEq, false_iff]
      intro hmissing
      exact hquiet hmissing.symm

/-- Settings that a file gives are loaded, with the defaults for those that it leaves out, and
nothing is wrong.  In every other case all settings are the defaults, and what is wrong is said
unless the file is not found and its path is the default path, spelled with any number of slashes
and dots after each of its names.  Such a path is not found exactly if it is not too long and the
working directory is gone or a directory on the way lacks the next name. -/
theorem load_whole_or_default (fs : File.FileSystem) (path : String) :
    (∀ s : Settings, s.FoundAt fs path → load fs path = (s, none)) ∧
    ((∀ s : Settings, ¬s.FoundAt fs path) →
      (load fs path).1 = {} ∧
      ((load fs path).2 = none ↔ fs.read path = .error .notFound ∧ IsDefaultPath path)) ∧
    (IsDefaultPath path →
      (fs.read path = .error .notFound ↔
        path.utf8ByteSize ≤ File.FileSystem.pathLimit ∧
          fs.Misses ["config", "playerinv.toml"])) := by
  refine ⟨fun s => load_of_foundAt, fun hnot => ⟨?_, problem_eq_none_of_not_foundAt hnot⟩,
    read_defaultPath_eq_notFound⟩
  exact load_of_unusable fun text => ofToml?_eq_none_of_not_foundAt hnot

/-- A file that gives one of the settings. -/
example :
    load ⟨.directory [("s.toml", .file "default_player = \"Steve\"\n".toUTF8)], []⟩ "s.toml" =
      ({ defaultPlayer := some "Steve" }, none) := by decide +kernel

/-- Three spellings in an empty tree, of which only the first is one of the default path. -/
example :
    ["config//./playerinv.toml/", "./config/playerinv.toml", "x/../config/playerinv.toml"].map
      (fun path => (load ⟨.directory [], []⟩ path).2.isSome) = [false, true, true] := by
  decide +kernel

end Settings

end InventoryTokens
