import InventoryTokens.File.Program
import InventoryTokens.Proofs.File.Walk

/-!
# Saved files

A file that was saved is read back as it was saved, and saving the same again changes nothing.  The
reason is that saving leaves every directory in place, so the path leads to the same names
afterwards.
-/

namespace InventoryTokens.File

theorem asText_eq_ok {content : Except FileError ByteArray} {text : String} :
    asText content = .ok text ↔
      ∃ bytes, content = .ok bytes ∧ String.fromUTF8? bytes = some text := by
  cases content with
  | error cause => simp [asText]
  | ok bytes => cases htext : String.fromUTF8? bytes <;> simp [asText, htext]

theorem asText_eq_notFound {content : Except FileError ByteArray} :
    asText content = .error .notFound ↔ content = .error .notFound := by
  cases content with
  | error cause => simp [asText]
  | ok bytes => cases htext : String.fromUTF8? bytes <;> simp [asText, htext]

namespace FileSystem

variable {fs after : FileSystem} {directory : List Component} {here : List String}
  {name text content : String}

theorem splitName?_eq_some {components directory : List Component} {name : String} :
    splitName? components = some (directory, name) ↔ components = directory ++ [.name name] := by
  rw [splitName?]
  constructor
  · intro h
    split at h
    · rename_i last hlast
      obtain ⟨rfl, rfl⟩ := Prod.mk.inj (Option.some.inj h)
      obtain ⟨before, rfl⟩ := List.getLast?_eq_some_iff.mp hlast
      rw [List.dropLast_concat]
    · cases h
  · intro h
    simp [h]

theorem place_eq_ok {spot : List String} :
    fs.place directory name = .ok spot ↔
      ∃ here, fs.enter directory = .ok here ∧ ¬nameLimit < name.utf8ByteSize ∧
        here ++ [name] = spot := by
  rw [place, except_bind_eq_ok]
  refine exists_congr fun here => and_congr_right fun _ => ?_
  split <;> simp_all [pure, Except.pure]

/-- No directory is made where there is one. -/
theorem makeDirectory_of_enter {directory : List Component} (h : fs.enter directory = .ok here) :
    fs.makeDirectory directory = .error .exists := by
  obtain ⟨entries, hnode⟩ := node?_of_enter h
  rw [makeDirectory]
  cases hsplit : splitName? directory with
  | none =>
    rw [hnode]
    rfl
  | some parts =>
    obtain ⟨above, name⟩ := parts
    rw [splitName?_eq_some.mp hsplit] at hnode
    obtain ⟨there, henter, hshort, hfind⟩ := node?_name.mp hnode
    have hplace : fs.place above name = .ok (there ++ [name]) :=
      place_eq_ok.mpr ⟨there, henter, hshort, rfl⟩
    have hthere : (fs.root.find? (there ++ [name])).isSome = true := by rw [hfind, Option.isSome]
    show (do
      let names ← fs.place above name
      if (fs.root.find? names).isSome then throw .exists else return fs.put names (.directory [])) =
      (.error .exists : Except FileError FileSystem)
    rw [hplace]
    exact if_pos hthere

theorem makeDirectories_of_enter {directory : List Component}
    (h : fs.enter directory.reverse = .ok here) : fs.makeDirectories directory = (.ok (), fs) := by
  cases directory with
  | nil => rfl
  | cons last before =>
    obtain ⟨entries, hnode⟩ := node?_of_enter h
    have hdirectory : fs.isDirectory (last :: before).reverse = true := by
      rw [isDirectory, hnode]
      rfl
    rw [makeDirectories, makeDirectory_of_enter h]
    simp only [orPresent, hdirectory, if_true]

/-- What it takes to write a file, and what it comes to. -/
theorem write_eq_ok {content : ByteArray} :
    fs.write text content = .ok after ↔
      checkText text = .ok () ∧ (Path.parse text).ending = .plain ∧
        ∃ directory name here, (Path.parse text).components = directory ++ [.name name] ∧
          fs.enter directory = .ok here ∧ ¬nameLimit < name.utf8ByteSize ∧
          ¬fs.root.HasDirectory (here ++ [name]) ∧
          fs.put (here ++ [name]) (.file content) = after := by
  constructor
  · intro h
    obtain ⟨⟨⟩, hcheck, hwrite⟩ := except_bind_eq_ok.mp h
    refine ⟨hcheck, ?_⟩
    dsimp only at hwrite
    split at hwrite
    · rename_i directory name hsplit hending
      obtain ⟨spot, hplace, hspot⟩ := except_bind_eq_ok.mp hwrite
      obtain ⟨here, henter, hshort, rfl⟩ := place_eq_ok.mp hplace
      refine ⟨hending, directory, name, here, splitName?_eq_some.mp hsplit, henter, hshort, ?_⟩
      split at hspot
      · cases hspot
      · rename_i hfree
        refine ⟨fun hdirectory => ?_, Except.ok.inj hspot⟩
        obtain ⟨entries, hentries⟩ := hdirectory
        exact hfree entries hentries
    · obtain ⟨_, -, hthrow⟩ := except_bind_eq_ok.mp hwrite
      cases hthrow
    · obtain ⟨node, -, hthrow⟩ := except_bind_eq_ok.mp hwrite
      cases node <;> cases hthrow
  · intro h
    obtain ⟨hcheck, hending, directory, name, here, hcomponents, henter, hshort, hfree, hput⟩ := h
    have hsplit := splitName?_eq_some.mpr hcomponents
    have hplace := place_eq_ok.mpr ⟨here, henter, hshort, rfl⟩
    refine except_bind_eq_ok.mpr ⟨(), hcheck, ?_⟩
    simp only [hsplit, hending]
    refine except_bind_eq_ok.mpr ⟨_, hplace, ?_⟩
    split
    · rename_i entries hentries
      exact absurd ⟨entries, hentries⟩ hfree
    · exact congrArg Except.ok hput

theorem keeps_write {content : ByteArray} (h : fs.write text content = .ok after) :
    Keeps fs after := by
  obtain ⟨-, -, directory, name, here, -, -, -, hspot, rfl⟩ := write_eq_ok.mp h
  exact keeps_put hspot _

/-- What was written is read. -/
theorem read_of_write {content : ByteArray} (h : fs.write text content = .ok after) :
    after.read text = .ok content := by
  have hkeeps := keeps_write h
  obtain ⟨hcheck, hending, directory, name, here, hcomponents, henter, hshort, hspot, rfl⟩ :=
    write_eq_ok.mp h
  obtain ⟨_, -, -, hhere⟩ := enter_eq_ok.mp henter
  have hnode := node?_name.mpr ⟨here, hkeeps.enter henter, hshort,
    Node.find?_put hhere name (.file content)⟩
  refine except_bind_eq_ok.mpr ⟨(), hcheck, except_bind_eq_ok.mpr ⟨.file content, ?_, ?_⟩⟩
  · rw [hcomponents]
    exact hnode
  · exact if_pos hending

/-- Writing the same again changes nothing. -/
theorem write_of_write {content : ByteArray} (h : fs.write text content = .ok after) :
    after.write text content = .ok after := by
  have hkeeps := keeps_write h
  obtain ⟨hcheck, hending, directory, name, here, hcomponents, henter, hshort, hspot, rfl⟩ :=
    write_eq_ok.mp h
  obtain ⟨_, -, -, hhere⟩ := enter_eq_ok.mp henter
  have hfind : (fs.put (here ++ [name]) (.file content)).root.find? (here ++ [name]) =
      some (.file content) := Node.find?_put hhere name (.file content)
  have hfile : ¬(fs.put (here ++ [name]) (.file content)).root.HasDirectory (here ++ [name]) := by
    rw [Node.HasDirectory, hfind]
    simp
  have hsame : (fs.put (here ++ [name]) (.file content)).put (here ++ [name]) (.file content) =
      fs.put (here ++ [name]) (.file content) := by
    show { fs with root := Node.put _ _ (fs.put (here ++ [name]) (.file content)).root } = _
    rw [Node.put_of_find? hfind]
    rfl
  exact write_eq_ok.mpr ⟨hcheck, hending, directory, name, here, hcomponents, hkeeps.enter henter,
    hshort, hfile, hsame⟩

/-- Where a path's directories are, none is made for it, if its text is one that could be used. -/
theorem makeParents_of_enter {made : FileSystem} (h : fs.makeParents text = (.ok (), made))
    (hcomponents : (Path.parse text).components = directory ++ [.name name])
    (henter : after.enter directory = .ok here) : after.makeParents text = (.ok (), after) := by
  have hparent : Path.parent? (Path.parse text).components = some directory := by
    simp [Path.parent?, hcomponents]
  simp only [makeParents, hparent] at h ⊢
  split at h
  · cases h
  · rename_i hnul
    split at h
    · cases h
    · rename_i hlong
      have hreverse : after.enter directory.reverse.reverse = .ok here := by
        rw [List.reverse_reverse]
        exact henter
      rw [if_neg hnul, if_neg hlong, makeDirectories_of_enter hreverse]

theorem save_eq_ok :
    fs.save text content = (.ok (), after) ↔
      ∃ made, fs.makeParents text = (.ok (), made) ∧
        made.write text content.toUTF8 = .ok after := by
  rw [save]
  cases hmake : fs.makeParents text with
  | mk result made =>
    cases result with
    | error cause => simp
    | ok u =>
      cases hwrite : made.write text content.toUTF8 <;> simp [-String.toUTF8_eq_toByteArray, hwrite]

/-- A text is read from the bytes that encode it. -/
theorem asText_toUTF8 (s : String) : asText (.ok s.toUTF8) = .ok s :=
  asText_eq_ok.mpr ⟨_, rfl, dif_pos s.isValidUTF8⟩

/-- What was saved is read. -/
theorem read_of_save (h : fs.save text content = (.ok (), after)) :
    asText (after.read text) = .ok content := by
  obtain ⟨made, -, hwrite⟩ := save_eq_ok.mp h
  rw [read_of_write hwrite, asText_toUTF8]

/-- Saving the same again changes nothing. -/
theorem save_of_save (h : fs.save text content = (.ok (), after)) :
    after.save text content = (.ok (), after) := by
  obtain ⟨made, hmade, hwrite⟩ := save_eq_ok.mp h
  obtain ⟨-, -, directory, name, here, hcomponents, henter, -⟩ := write_eq_ok.mp hwrite
  have hparents := makeParents_of_enter hmade hcomponents ((keeps_write hwrite).enter henter)
  exact save_eq_ok.mpr ⟨after, hparents, write_of_write hwrite⟩

end FileSystem

end InventoryTokens.File
