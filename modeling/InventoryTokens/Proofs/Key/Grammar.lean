import InventoryTokens.Proofs.Key

/-!
# The grammar of keys

Which texts are read as keys, and which error the others get, said with the alphabets and lengths of
the two parts.  A written key reads back, so its text determines it.
-/

namespace InventoryTokens.Key

/-- The characters of a namespace. -/
def spaceAlphabet : List Char := "abcdefghijklmnopqrstuvwxyz0123456789_-.".toList

/-- The characters of a path. -/
def pathAlphabet : List Char := '/' :: spaceAlphabet

/-- One to 64 characters of a namespace. -/
def IsSpace (cs : List Char) : Prop :=
  1 ≤ cs.length ∧ cs.length ≤ 64 ∧ ∀ c ∈ cs, c ∈ spaceAlphabet

/-- One to 128 characters of a path. -/
def IsPath (cs : List Char) : Prop :=
  1 ≤ cs.length ∧ cs.length ≤ 128 ∧ ∀ c ∈ cs, c ∈ pathAlphabet

/-- A text without blanks around it spells a namespace and a path. -/
inductive Spells : List Char → List Char → List Char → Prop
  | bare {path : List Char} (valid : IsPath path) : Spells path "minecraft".toList path
  | full {space path : List Char} (space_valid : IsSpace space) (path_valid : IsPath path) :
    Spells (space ++ ':' :: path) space path

theorem isSpaceChar_iff {c : Char} : isSpaceChar c = true ↔ c ∈ spaceAlphabet := by
  have hsmall : ∀ n < 0x80, isSpaceChar (Char.ofNat n) = true → Char.ofNat n ∈ spaceAlphabet := by
    decide
  have hall : ∀ c ∈ spaceAlphabet, isSpaceChar c = true :=
    List.all_eq_true.mp (by decide)
  refine ⟨fun h => ?_, hall c⟩
  have hc := hsmall c.toNat (toNat_lt_of_isPathChar (by simp [isPathChar, h]))
  rw [Char.ofNat_toNat] at hc
  exact hc h

theorem isPathChar_iff {c : Char} : isPathChar c = true ↔ c ∈ pathAlphabet := by
  rw [isPathChar, Bool.or_eq_true, isSpaceChar_iff, decide_eq_true_eq, pathAlphabet, List.mem_cons,
    or_comm]

theorem isName_ofList {limit : Nat} {allowed : Char → Bool} {cs : List Char} :
    isName limit allowed (String.ofList cs) = true ↔
      1 ≤ cs.length ∧ cs.length ≤ limit ∧ ∀ c ∈ cs, allowed c = true := by
  simp only [isName, String.toList_ofList, Bool.and_eq_true, decide_eq_true_eq, List.all_eq_true,
    and_assoc, ← List.length_pos_iff]
  exact Iff.rfl

theorem isSpaceName_ofList {cs : List Char} :
    isSpaceName (String.ofList cs) = true ↔ IsSpace cs := by
  simp only [isSpaceName, isName_ofList, isSpaceChar_iff]
  exact Iff.rfl

theorem isPathName_ofList {cs : List Char} : isPathName (String.ofList cs) = true ↔ IsPath cs := by
  simp only [isPathName, isName_ofList, isPathChar_iff]
  exact Iff.rfl

theorem isSpace_minecraft : IsSpace "minecraft".toList := isSpaceName_ofList.mp (by decide)

theorem IsSpace.not_mem_colon {cs : List Char} (h : IsSpace cs) : ':' ∉ cs :=
  fun hmem => absurd (h.2.2 ':' hmem) (by decide)

theorem IsPath.not_mem_colon {cs : List Char} (h : IsPath cs) : ':' ∉ cs :=
  fun hmem => absurd (h.2.2 ':' hmem) (by decide)

theorem ofParts_eq_ok {space path : List Char} {key : Key} :
    ofParts (String.ofList space) (String.ofList path) = .ok key ↔
      key.space.toList = space ∧ key.path.toList = path := by
  constructor
  · intro h
    unfold ofParts at h
    split at h
    · split at h
      · cases h
        exact ⟨String.toList_ofList, String.toList_ofList⟩
      · cases h
    · cases h
  · rintro ⟨rfl, rfl⟩
    rw [String.ofList_toList, String.ofList_toList]
    exact key.ofParts_parts

/-- The namespace is looked at first. -/
theorem ofParts_eq_error {space path : List Char} {cause : KeyError} :
    ofParts (String.ofList space) (String.ofList path) = .error cause ↔
      (¬IsSpace space ∧ cause = .invalidSpace (String.ofList space)) ∨
      (IsSpace space ∧ ¬IsPath path ∧ cause = .invalidPath (String.ofList path)) := by
  rw [← isSpaceName_ofList, ← isPathName_ofList]
  unfold ofParts
  split
  case isTrue hs =>
    split
    case isTrue hp => simp [hs, hp]
    case isFalse hp =>
      rw [Except.error.injEq, eq_comm]
      exact ⟨fun h => Or.inr ⟨hs, hp, h⟩, fun h => h.elim (fun h => absurd hs h.1) (·.2.2)⟩
  case isFalse hs =>
    rw [Except.error.injEq, eq_comm]
    exact ⟨fun h => Or.inl ⟨hs, h⟩, fun h => h.elim (·.2) (fun h => absurd h.1 hs)⟩

/-- What reading does with a text: without characters, cut at its first colon, or in one piece. -/
theorem parse_cases (text : String) :
    let cs := Text.bare text.toList
    (cs = [] ∧ parse text = .error .empty) ∨
    (∃ space path, cs = space ++ ':' :: path ∧ ':' ∉ space ∧
      parse text = ofParts (String.ofList space) (String.ofList path)) ∨
    (cs ≠ [] ∧ ':' ∉ cs ∧
      parse text = ofParts (String.ofList "minecraft".toList) (String.ofList cs)) := by
  intro cs
  by_cases hne : cs = []
  · refine Or.inl ⟨hne, ?_⟩
    rw [parse, Text.trim_eq_bare]
    exact if_pos hne
  · cases hcut : Text.cutOnce ':' cs with
    | none =>
      refine Or.inr (Or.inr ⟨hne, Text.cutOnce_eq_none.mp hcut, ?_⟩)
      rw [parse, Text.trim_eq_bare]
      simp only [cs] at hne hcut
      simp only [if_neg hne, hcut]
      rfl
    | some parts =>
      obtain ⟨space, path⟩ := parts
      obtain ⟨hcs, hnot⟩ := Text.cutOnce_eq_some.mp hcut
      refine Or.inr (Or.inl ⟨space, path, hcs, hnot, ?_⟩)
      rw [parse, Text.trim_eq_bare]
      simp only [cs] at hne hcut
      simp only [if_neg hne, hcut]

theorem isSpace_space (key : Key) : IsSpace key.space.toList := by
  rw [← isSpaceName_ofList, String.ofList_toList]
  exact key.space_valid

theorem isPath_path (key : Key) : IsPath key.path.toList := by
  rw [← isPathName_ofList, String.ofList_toList]
  exact key.path_valid

theorem not_spells_nil {space path : List Char} : ¬Spells [] space path := by
  intro h
  generalize hcs : ([] : List Char) = cs at h
  cases h with
  | bare valid => exact absurd valid.1 (by simp [← hcs])
  | full => simp at hcs

/-- What a text is cut into at its first colon. -/
theorem append_colon_inj {before after before' after' : List Char} (h : ':' ∉ before)
    (h' : ':' ∉ before') :
    before ++ ':' :: after = before' ++ ':' :: after' ↔ before = before' ∧ after = after' := by
  constructor
  · intro heq
    have hcut : Text.cutOnce ':' (before ++ ':' :: after) = some (before', after') :=
      Text.cutOnce_eq_some.mpr ⟨heq, h'⟩
    rw [Text.cutOnce_eq_some.mpr ⟨rfl, h⟩] at hcut
    cases hcut
    exact ⟨rfl, rfl⟩
  · rintro ⟨rfl, rfl⟩
    rfl

/-- A text with a colon spells the parts that it is cut into. -/
theorem spells_cut {before after space path : List Char} (h : ':' ∉ before) :
    Spells (before ++ ':' :: after) space path ↔
      space = before ∧ path = after ∧ IsSpace before ∧ IsPath after := by
  constructor
  · intro hspells
    generalize hcs : before ++ ':' :: after = cs at hspells
    cases hspells with
    | bare valid => exact absurd (by simp [← hcs]) valid.not_mem_colon
    | full space_valid path_valid =>
      obtain ⟨rfl, rfl⟩ := (append_colon_inj h space_valid.not_mem_colon).mp hcs
      exact ⟨rfl, rfl, space_valid, path_valid⟩
  · rintro ⟨rfl, rfl, hspace, hpath⟩
    exact .full hspace hpath

/-- A text without a colon spells a path in the default namespace. -/
theorem spells_bare {cs space path : List Char} (h : ':' ∉ cs) :
    Spells cs space path ↔ space = "minecraft".toList ∧ path = cs ∧ IsPath cs := by
  constructor
  · intro hspells
    cases hspells with
    | bare valid => exact ⟨rfl, rfl, valid⟩
    | full => exact absurd (by simp) h
  · rintro ⟨rfl, rfl, hpath⟩
    exact .bare hpath

theorem parse_eq_ok_iff {text : String} {key : Key} :
    parse text = .ok key ↔
      Spells (Text.bare text.toList) key.space.toList key.path.toList := by
  rcases parse_cases text with ⟨hcs, hparse⟩ | ⟨space, path, hcs, hnot, hparse⟩ | ⟨-, hnot, hparse⟩
  · rw [hparse, hcs]
    exact iff_of_false (by simp) not_spells_nil
  · rw [hparse, hcs, ofParts_eq_ok, spells_cut hnot]
    constructor
    · rintro ⟨hspace, hpath⟩
      exact ⟨hspace, hpath, hspace ▸ key.isSpace_space, hpath ▸ key.isPath_path⟩
    · exact fun h => ⟨h.1, h.2.1⟩
  · rw [hparse, ofParts_eq_ok, spells_bare hnot]
    constructor
    · rintro ⟨hspace, hpath⟩
      exact ⟨hspace, hpath, hpath ▸ key.isPath_path⟩
    · exact fun h => ⟨h.1, h.2.1⟩

/-- Both parts of a spelled key are valid, whether the namespace is spelled or not. -/
theorem Spells.valid {cs space path : List Char} (h : Spells cs space path) :
    IsSpace space ∧ IsPath path := by
  cases h with
  | bare valid => exact ⟨isSpace_minecraft, valid⟩
  | full space_valid path_valid => exact ⟨space_valid, path_valid⟩

theorem exists_parse_iff {text : String} :
    (∃ key, parse text = .ok key) ↔ ∃ space path, Spells (Text.bare text.toList) space path := by
  constructor
  · rintro ⟨key, hkey⟩
    exact ⟨_, _, parse_eq_ok_iff.mp hkey⟩
  · rintro ⟨space, path, hspells⟩
    obtain ⟨hspace, hpath⟩ := hspells.valid
    refine ⟨⟨String.ofList space, String.ofList path, isSpaceName_ofList.mpr hspace,
      isPathName_ofList.mpr hpath⟩, parse_eq_ok_iff.mpr ?_⟩
    simpa only [String.toList_ofList] using hspells

theorem parse_eq_empty_iff {text : String} :
    parse text = .error .empty ↔ Text.bare text.toList = [] := by
  rcases parse_cases text with ⟨hcs, hparse⟩ | ⟨space, path, hcs, -, hparse⟩ | ⟨hne, -, hparse⟩
  · exact iff_of_true hparse hcs
  · rw [hparse, hcs, ofParts_eq_error]
    simp
  · rw [hparse, ofParts_eq_error]
    simp [hne]

/-- The namespace is refused if there is a colon and what stands before the first is none. -/
theorem parse_eq_invalidSpace_iff {text wrong : String} :
    parse text = .error (.invalidSpace wrong) ↔
      ∃ path, Text.bare text.toList = wrong.toList ++ ':' :: path ∧ ':' ∉ wrong.toList ∧
        ¬IsSpace wrong.toList := by
  rcases parse_cases text with ⟨hcs, hparse⟩ | ⟨space, path, hcs, hnot, hparse⟩ | ⟨-, hnot, hparse⟩
  · rw [hparse, hcs]
    simp
  · rw [hparse, hcs, ofParts_eq_error]
    constructor
    · rintro (⟨hspace, hwrong⟩ | ⟨-, -, hwrong⟩)
      · obtain rfl := KeyError.invalidSpace.inj hwrong
        rw [String.toList_ofList]
        exact ⟨path, rfl, hnot, hspace⟩
      · cases hwrong
    · rintro ⟨after, heq, hwrong, hspace⟩
      obtain ⟨rfl, -⟩ := (append_colon_inj hnot hwrong).mp heq
      exact Or.inl ⟨hspace, by rw [String.ofList_toList]⟩
  · rw [hparse, ofParts_eq_error]
    constructor
    · rintro (⟨hspace, -⟩ | ⟨-, -, hwrong⟩)
      · exact absurd isSpace_minecraft hspace
      · cases hwrong
    · rintro ⟨after, heq, -⟩
      exact absurd (by simp [heq]) hnot

/-- The path is refused behind a namespace and in a text without a colon. -/
theorem parse_eq_invalidPath_iff {text wrong : String} :
    parse text = .error (.invalidPath wrong) ↔
      ¬IsPath wrong.toList ∧
      ((∃ space, Text.bare text.toList = space ++ ':' :: wrong.toList ∧ IsSpace space) ∨
        (Text.bare text.toList = wrong.toList ∧ wrong.toList ≠ [] ∧ ':' ∉ wrong.toList)) := by
  rcases parse_cases text with
    ⟨hcs, hparse⟩ | ⟨space, path, hcs, hnot, hparse⟩ | ⟨hne, hnot, hparse⟩
  · rw [hparse, hcs]
    refine iff_of_false (by simp) ?_
    rintro ⟨-, ⟨space, heq, -⟩ | ⟨heq, hne, -⟩⟩
    · simp at heq
    · exact hne heq.symm
  · rw [hparse, hcs, ofParts_eq_error]
    constructor
    · rintro (⟨-, hwrong⟩ | ⟨hspace, hpath, hwrong⟩)
      · cases hwrong
      · obtain rfl := KeyError.invalidPath.inj hwrong
        rw [String.toList_ofList]
        exact ⟨hpath, Or.inl ⟨space, rfl, hspace⟩⟩
    · rintro ⟨hpath, ⟨before, heq, hspace⟩ | ⟨heq, -, hcolon⟩⟩
      · obtain ⟨rfl, rfl⟩ := (append_colon_inj hnot hspace.not_mem_colon).mp heq
        exact Or.inr ⟨hspace, hpath, by rw [String.ofList_toList]⟩
      · exact absurd (by simp [← heq]) hcolon
  · rw [hparse, ofParts_eq_error]
    constructor
    · rintro (⟨hspace, -⟩ | ⟨-, hpath, hwrong⟩)
      · exact absurd isSpace_minecraft hspace
      · obtain rfl := KeyError.invalidPath.inj hwrong
        rw [String.toList_ofList]
        exact ⟨hpath, Or.inr ⟨rfl, hne, hnot⟩⟩
    · rintro ⟨hpath, ⟨before, heq, -⟩ | ⟨heq, -⟩⟩
      · exact absurd (by simp [heq]) hnot
      · rw [← heq] at hpath
        exact Or.inr ⟨isSpace_minecraft, hpath, by rw [heq, String.ofList_toList]⟩

/-- Reading a key.  It succeeds exactly for the texts that spell a namespace and a path, and gives
those; it fails exactly as the text is empty, has no namespace before its first colon, or has no
path after it.  Every key, however it came about, reads back from its text and has a text of its
own. -/
theorem parse_grammar (text : String) :
    let cs := Text.bare text.toList
    ((∃ key, parse text = .ok key) ↔ ∃ space path, Spells cs space path) ∧
    (∀ key, parse text = .ok key ↔ Spells cs key.space.toList key.path.toList) ∧
    (parse text = .error .empty ↔ cs = []) ∧
    (∀ wrong, parse text = .error (.invalidSpace wrong) ↔
      ∃ path, cs = wrong.toList ++ ':' :: path ∧ ':' ∉ wrong.toList ∧ ¬IsSpace wrong.toList) ∧
    (∀ wrong, parse text = .error (.invalidPath wrong) ↔
      ¬IsPath wrong.toList ∧
      ((∃ space, cs = space ++ ':' :: wrong.toList ∧ IsSpace space) ∨
        (cs = wrong.toList ∧ wrong.toList ≠ [] ∧ ':' ∉ wrong.toList))) ∧
    (∀ key : Key, parse key.text = .ok key) ∧
    ∀ a b : Key, a.text = b.text ↔ a = b := by
  refine ⟨exists_parse_iff, fun _ => parse_eq_ok_iff, parse_eq_empty_iff,
    fun _ => parse_eq_invalidSpace_iff, fun _ => parse_eq_invalidPath_iff, parse_text, ?_⟩
  intro a b
  constructor
  · intro h
    have hread := parse_text a
    rw [h, parse_text b] at hread
    exact (Except.ok.inj hread).symm
  · exact congrArg Key.text

end InventoryTokens.Key
