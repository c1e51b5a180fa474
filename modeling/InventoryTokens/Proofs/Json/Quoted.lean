import InventoryTokens.Json.Reader
import InventoryTokens.Json.Writer

/-!
# Quoted texts read back

Every character of a text is written so that it is scanned as itself: as it stands, with an escape
of its own, or by its number.  So a quoted text is read as the text, whatever characters it holds.
-/

namespace InventoryTokens.Json

/-- A character that needs no escape stands for itself. -/
theorem scanPieces_plain {c : Char} (hquote : c ≠ '"') (hslash : c ≠ '\\')
    (hcontrol : ¬c.toNat < 0x20) (rest : List Char) :
    scanPieces (c :: rest) =
      (scanPieces rest).map fun (pieces, rest) => (.char c :: pieces, rest) := by
  rw [scanPieces, if_neg (not_or.mpr ⟨hcontrol, hslash⟩)]
  · exact hquote
  · exact fun _ _ _ _ _ he => absurd he hslash
  · exact fun _ _ he => absurd he hslash

/-- An escape of two characters. -/
theorem scanPieces_short {c d : Char} (h : unescape? c = some d) (rest : List Char) :
    scanPieces ('\\' :: c :: rest) =
      (scanPieces rest).map fun (pieces, rest) => (.char d :: pieces, rest) := by
  have hunit : c ≠ 'u' := by
    rintro rfl
    simp [unescape?] at h
  rw [scanPieces]
  · simp only [h]
  · exact fun _ _ _ _ _ he => absurd he hunit

theorem readBase?_hex {n : Nat} (h : n < 0x100) :
    Text.readBase? 16 ['0', '0', Text.hexDigit (n / 16), Text.hexDigit n] = some n := by
  have hvalues : ['0', '0', Text.hexDigit (n / 16), Text.hexDigit n].mapM (Text.digitValue? 16) =
      some [0, 0, n / 16 % 16, n % 16] := by
    have hzero : Text.digitValue? 16 '0' = some 0 := by decide
    simp [hzero]
  rw [Text.readBase?, hvalues, Option.map_some]
  simp only [List.foldl_cons, List.foldl_nil, Option.some.injEq]
  omega

theorem scanPieces_unit {n : Nat} (h : n < 0x20) (rest : List Char) :
    scanPieces ('\\' :: 'u' :: '0' :: '0' :: Text.hexDigit (n / 16) :: Text.hexDigit n :: rest) =
      (scanPieces rest).map fun (pieces, rest) => (.char (Char.ofNat n) :: pieces, rest) := by
  have hunit : Piece.ofUnit n = .char (Char.ofNat n) := by
    rw [Piece.ofUnit, if_neg (by omega)]
  rw [scanPieces, readBase?_hex (by omega)]
  simp only [hunit]

/-- Every character is scanned as itself. -/
theorem scanPieces_escape (c : Char) (rest : List Char) :
    scanPieces (escape c ++ rest) =
      (scanPieces rest).map fun (pieces, rest) => (.char c :: pieces, rest) := by
  unfold escape
  -- seven characters have an escape of two characters
  iterate 7
    split
    · subst_vars
      exact scanPieces_short rfl rest
  split
  · rename_i hcontrol
    have hunit := scanPieces_unit hcontrol rest
    rwa [Char.ofNat_toNat] at hunit
  · rename_i hquote hslash _ _ _ _ _ hcontrol
    exact scanPieces_plain hquote hslash hcontrol rest

theorem scanPieces_flatMap (cs rest : List Char) :
    scanPieces (cs.flatMap escape ++ '"' :: rest) = some (cs.map .char, rest) := by
  induction cs with
  | nil => rfl
  | cons c cs ih => rw [List.flatMap_cons, List.append_assoc, scanPieces_escape, ih]; rfl

theorem joinPieces?_map_char (cs : List Char) : joinPieces? (cs.map .char) = some cs := by
  induction cs with
  | nil => rfl
  | cons c cs ih => rw [List.map_cons, joinPieces?, ih]; rfl

/-- A quoted text is scanned as the text, whatever follows it. -/
theorem scanString_quote (s : String) (rest : List Char) :
    scanString (s.toList.flatMap escape ++ '"' :: rest) = some (some s, rest) := by
  rw [scanString, scanPieces_flatMap]
  simp only [Option.map_some, joinPieces?_map_char, String.ofList_toList]

end InventoryTokens.Json
