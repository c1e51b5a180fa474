import InventoryTokens.Proofs.SlotToken
import InventoryTokens.Proofs.Text.Pieces

/-!
# Tokens put together and taken apart

A name and texts without colons, written one after the other with colons between them, are read as
that name and the arguments that the texts spell.  Blanks around the whole do not count, so the last
text loses those at its end; the other texts keep theirs.  In the other direction, what a text that
is read has been made of, and which texts are refused.
-/

namespace InventoryTokens.Token

/-- One or more characters, none of them a colon or a blank. -/
def IsName (name : String) : Prop :=
  name ≠ "" ∧ ∀ c ∈ name.toList, c ≠ ':' ∧ Text.isBlank c = false

instance (name : String) : Decidable (IsName name) :=
  decidable_of_iff (name ≠ "" && name.toList.all fun c => c ≠ ':' && !Text.isBlank c)
    (by simp [IsName])

/-- A text without the blanks at its end. -/
def withoutEnd (s : String) : String := String.ofList (s.toList.rdropWhile Text.isBlank)

theorem rdropWhile_name {name : String} (h : IsName name) :
    name.toList.rdropWhile Text.isBlank = name.toList := by
  refine List.rdropWhile_eq_self_iff.mpr fun hne => ?_
  simp [(h.2 _ (List.getLast_mem hne)).2]

theorem bare_name {name : String} (h : IsName name) : Text.bare name.toList = name.toList :=
  Text.bare_of_not_blank fun c hc => (h.2 c hc).2

theorem not_malformed_name {name : String} (h : IsName name) : ¬Malformed name.toList := by
  rintro (hnil | ⟨c, hc, hblank⟩)
  · exact h.1 (String.toList_eq_nil_iff.mp hnil)
  · rw [(h.2 c hc).2] at hblank
    contradiction

section

-- Blanks, a mark that may be left out, a name, segments behind colons, and blanks again.
variable {left mark name right : String} {segments : List String}
  (hleft : ∀ c ∈ left.toList, Text.isBlank c = true)
  (hright : ∀ c ∈ right.toList, Text.isBlank c = true) (hname : IsName name)
  (hfree : ∀ segment ∈ segments, ':' ∉ segment.toList)
  (hmark : mark = "$" ∨ mark = "" ∧ name.toList.head? ≠ some '$')

include hleft hright hname hfree hmark

/-- The parts of a name and segments with blanks around them. -/
theorem parts_written :
    parts (left ++ mark ++ ":".intercalate (name :: segments) ++ right) =
      (name.toList :: segments.map String.toList).modifyLast (List.rdropWhile Text.isBlank) := by
  have hcolon : Text.isBlank ':' = false := by decide
  obtain ⟨c, cs, hcs⟩ := List.exists_cons_of_ne_nil (mt String.toList_eq_nil_iff.mp hname.1)
  have hc := hname.2 c (by simp [hcs])
  -- The text between the blanks starts with the first character of the name, behind a mark if any.
  obtain ⟨more, hmore⟩ : ∃ more,
      [':'].intercalate (name.toList :: segments.map String.toList) = c :: more := by
    rw [hcs]
    cases segments <;> simp [List.intercalate_cons_cons]
  have htext : (left ++ mark ++ ":".intercalate (name :: segments) ++ right).toList =
      left.toList ++ (mark.toList ++ c :: more) ++ right.toList := by
    rw [← hmore]
    simp [String.toList_intercalate]
  rw [← Text.splitOn_rdropWhile_intercalate hcolon (List.cons_ne_nil _ _), hmore, parts, htext,
    Text.bare_append hleft hright]
  · rcases hmark with rfl | ⟨rfl, hhead⟩
    · rw [show "$".toList ++ c :: more = '$' :: c :: more from rfl, Text.bare_cons (by decide)]
      rfl
    · have hstart := Text.rdropWhile_append_cons hc.2 [] more
      rw [show "".toList ++ c :: more = c :: more from rfl, Text.bare_cons hc.2, if_neg]
      · rw [← List.nil_append (c :: more), hstart]
        rfl
      · simpa [hcs] using hhead
  · intro piece hpiece hmem
    rcases List.mem_cons.mp hpiece with rfl | hpiece
    · exact (hname.2 ':' hmem).1 rfl
    · obtain ⟨segment, hsegment, rfl⟩ := List.mem_map.mp hpiece
      exact hfree segment hsegment hmem

/-- A name and segments, with blanks around the whole, read as the name and one argument for each
segment. -/
theorem parse_written :
    parse (left ++ mark ++ ":".intercalate (name :: segments) ++ right) =
      .ok ⟨name, (segments.modifyLast withoutEnd).map Argument.parse⟩ := by
  have hparts := parts_written hleft hright hname hfree hmark
  have hpieces :
      (name.toList :: segments.map String.toList).modifyLast (List.rdropWhile Text.isBlank) =
        name.toList :: (segments.modifyLast withoutEnd).map String.toList := by
    obtain rfl | ⟨before, last, rfl⟩ := segments.eq_nil_or_concat'
    · exact congrArg (· :: []) (rdropWhile_name hname)
    · rw [List.map_append, List.map_singleton, ← List.cons_append, List.modifyLast_concat,
        List.modifyLast_concat]
      simp [withoutEnd]
  rw [hpieces] at hparts
  rw [parse_eq, title, hparts, List.headD_cons, bare_name hname, if_neg (not_malformed_name hname),
    List.tail_cons, List.map_map, String.ofList_toList]
  simp [Function.comp_def]

end

theorem count_dropMark (cs : List Char) : (dropMark cs).count ':' = cs.count ':' := by
  unfold dropMark
  split
  · simp
  · rfl

theorem parts_eq (text : String) :
    parts text = (dropMark (Text.bare text.toList)).splitOn ':' := by
  rw [dropMark_eq, parts]

/-- Every colon of a text starts an argument. -/
theorem length_parts (text : String) : (parts text).length = text.toList.count ':' + 1 := by
  rw [parts_eq, Text.length_splitOn, count_dropMark, Text.count_bare (by decide)]

theorem not_mem_title (text : String) : ':' ∉ title text := by
  intro hmem
  obtain ⟨first, rest, hparts⟩ := List.exists_cons_of_ne_nil (parts_ne_nil text)
  have hfirst : first ∈ (dropMark (Text.bare text.toList)).splitOn ':' := by
    rw [← parts_eq, hparts]
    exact List.mem_cons_self
  rw [title, hparts, List.headD_cons] at hmem
  exact Text.not_mem_of_mem_splitOn hfirst (Text.mem_of_mem_bare hmem)

/-- The mark can be dropped before or after the cut. -/
theorem title_eq (text : String) :
    title text = Text.bare (dropMark ((Text.bare text.toList).takeWhile (· ≠ ':'))) := by
  rw [title, parts_eq, Text.headD_splitOn]
  congr 1
  generalize Text.bare text.toList = cs
  cases cs with
  | nil => rfl
  | cons c cs =>
    by_cases hc : c = '$'
    · subst hc
      rfl
    · by_cases hcolon : c = ':'
      · subst hcolon
        rfl
      · simp [dropMark_eq, hc, hcolon]

theorem isName_title {text : String} (h : ¬Malformed (title text)) :
    IsName (String.ofList (title text)) := by
  refine ⟨fun hempty => h (Or.inl ?_), fun c hc => ?_⟩
  · exact (String.toList_ofList (l := title text)).symm.trans (congrArg String.toList hempty)
  · rw [String.toList_ofList] at hc
    refine ⟨fun hcolon => not_mem_title text (hcolon ▸ hc), ?_⟩
    by_contra hblank
    exact h (Or.inr ⟨c, hc, by simpa using hblank⟩)

/-- What a text that is read is made of. -/
theorem of_parse_eq_ok {text : String} {token : Token} (h : parse text = .ok token) :
    IsName token.name ∧ token.arguments.length = text.toList.count ':' := by
  rw [parse_eq] at h
  split at h
  case isTrue => contradiction
  case isFalse hgood =>
    obtain rfl := Except.ok.inj h
    refine ⟨isName_title hgood, ?_⟩
    rw [List.length_map, List.length_tail, length_parts, Nat.add_sub_cancel]

theorem parse_eq_error_iff {text : String} {cause : PlaceholderError} :
    parse text = .error cause ↔ cause = .malformedToken text ∧ Malformed (title text) := by
  rw [parse_eq]
  split
  case isTrue hbad =>
    rw [Except.error.injEq, eq_comm]
    exact (and_iff_left hbad).symm
  case isFalse hgood => exact iff_of_false (by simp) fun h => hgood h.2

/-- A name and segments, marked or not and with blanks around the whole, read as the name and one
argument for each segment; only the last segment loses the blanks at its end.  A text that is read
has a name of that kind and one argument for each colon, and a text is refused exactly if what
stands before its first colon is, without the mark and the blanks, no name. -/
theorem parse_made_of :
    (∀ (left mark name right : String) (segments : List String),
      (∀ c ∈ left.toList, Text.isBlank c = true) → (∀ c ∈ right.toList, Text.isBlank c = true) →
      IsName name → (∀ segment ∈ segments, ':' ∉ segment.toList) →
      (mark = "$" ∨ mark = "" ∧ name.toList.head? ≠ some '$') →
      parse (left ++ mark ++ ":".intercalate (name :: segments) ++ right) =
        .ok ⟨name, (segments.modifyLast withoutEnd).map Argument.parse⟩) ∧
    (∀ text token, parse text = .ok token →
      IsName token.name ∧ token.arguments.length = text.toList.count ':') ∧
    (∀ text cause, parse text = .error cause ↔ cause = .malformedToken text ∧
      Malformed (Text.bare (dropMark ((Text.bare text.toList).takeWhile (· ≠ ':'))))) := by
  refine ⟨?_, fun _ _ => of_parse_eq_ok, fun text cause => ?_⟩
  · intro left mark name right segments hleft hright hname hfree hmark
    exact parse_written hleft hright hname hfree hmark
  · rw [parse_eq_error_iff, title_eq]

/-- A name that starts with the mark, and a last segment with blanks on both sides. -/
theorem parse_made_of_marked :
    parse " $$a: 1 :: b \t" = .ok ⟨"$a", [.whole 1, .text "", .text " b"]⟩ ∧
      IsName "$a" ∧ 3 = " $$a: 1 :: b \t".toList.count ':' := by
  have hread : parse (" " ++ "$" ++ ":".intercalate ["$a", " 1 ", "", " b "] ++ "\t") =
      .ok ⟨"$a", [.whole 1, .text "", .text " b"]⟩ :=
    parse_made_of.1 " " "$" "$a" "\t" [" 1 ", "", " b "]
      (List.all_eq_true.mp (by decide)) (List.all_eq_true.mp (by decide)) (by decide) (by decide)
      (by decide)
  exact ⟨hread, parse_made_of.2.1 _ _ hread⟩

end InventoryTokens.Token
