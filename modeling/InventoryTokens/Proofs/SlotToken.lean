import InventoryTokens.Proofs.SlotPlaceholder

/-!
# Slot tokens

Which texts the default registry resolves, said on the text alone: the name, one colon, and an
integer in decimal digits that is the index of a slot, with blanks around each part.  Every other
text is refused, and what is wrong with its name decides how.  Nothing is said about log events.
-/

namespace InventoryTokens.Token

open SlotPlaceholder (Asks shown)

/-- The parts of a token: blanks around it and one leading mark do not count, every colon cuts. -/
def parts (text : String) : List (List Char) :=
  let trimmed := Text.bare text.toList
  (if trimmed.head? = some '$' then trimmed.tail else trimmed).splitOn ':'

/-- The name of a token. -/
def title (text : String) : List Char :=
  Text.bare ((parts text).headD [])

/-- A title that is no name. -/
def Malformed (name : List Char) : Prop := name = [] ∨ ∃ c ∈ name, Text.isBlank c = true

instance (name : List Char) : Decidable (Malformed name) :=
  decidable_of_iff (name.isEmpty || name.any Text.isBlank) (by simp [Malformed])

/-- A text that names the slot placeholder and one slot. -/
def Addresses (text : String) (slot : Slot) : Prop :=
  ∃ index, parts text = [(parts text).headD [], index] ∧ title text = "playerinv".toList ∧
    Text.Spells (Text.bare index) slot.val

/-- Why a text that addresses no slot is refused. -/
def refusal (text : String) : PlaceholderError :=
  if Malformed (title text) then .malformedToken text
  else if title text ≠ "playerinv".toList then .unknownPlaceholder (String.ofList (title text))
  else .noMatchingOverload "playerinv" ((parts text).length - 1) "$playerinv:<slot:int 0..=44>"

theorem dropMark_eq (cs : List Char) :
    dropMark cs = if cs.head? = some '$' then cs.tail else cs := by
  unfold dropMark
  split
  · rfl
  · rename_i h
    cases cs with
    | nil => rfl
    | cons c cs =>
      have hc : c ≠ '$' := fun he => h cs (he ▸ rfl)
      simp [hc]

theorem parts_ne_nil (text : String) : parts text ≠ [] := List.splitOn_ne_nil _ _

/-- Reading a token is cutting it into its parts, all but the first of which are arguments. -/
theorem parse_eq (text : String) :
    parse text = if Malformed (title text) then .error (.malformedToken text) else
      .ok ⟨String.ofList (title text),
        (parts text).tail.map fun piece => Argument.parse (String.ofList piece)⟩ := by
  have hcut := Text.cut_eq_splitOn ':' (dropMark (Text.trim text.toList))
  rw [dropMark_eq, Text.trim_eq_bare] at hcut
  have hparts : parts text = _ := hcut.symm
  simp only [parse, title, hparts, dropMark_eq, Text.trim_eq_bare, List.headD_cons, List.tail_cons,
    Malformed, List.any_eq_true]

/-- Arguments that ask for a slot come from one part that spells its index. -/
theorem asks_map_parse {pieces : List (List Char)} {slot : Slot} :
    Asks (pieces.map fun piece => Argument.parse (String.ofList piece)) slot ↔
      ∃ index, pieces = [index] ∧ Text.Spells (Text.bare index) slot.val := by
  constructor
  · rintro ⟨w, hargs, hw⟩
    obtain ⟨index, rfl, hindex⟩ := List.map_eq_singleton_iff.mp hargs
    rw [Argument.parse_eq_whole, String.toList_ofList, hw] at hindex
    exact ⟨index, rfl, hindex⟩
  · rintro ⟨index, rfl, hindex⟩
    have hw := Slot.toInt_ofInt_val slot
    refine ⟨Int64.ofInt slot.val, ?_, hw⟩
    rw [List.map_singleton, Argument.parse_eq_whole.mpr]
    rwa [String.toList_ofList, hw]

theorem usage_playerinv :
    SlotPlaceholder.schema.usage "playerinv" = "$playerinv:<slot:int 0..=44>" := by
  decide +kernel

theorem get?_withDefaults (name : String) : Registry.withDefaults.get? name =
    if name = "playerinv" then some SlotPlaceholder.placeholder else none := by
  rw [Registry.get?, Registry.withDefaults, Registry.put, Table.find?_insert]
  rfl

theorem addresses_iff {text : String} {slot : Slot} (hname : title text = "playerinv".toList) :
    Addresses text slot ↔
      Asks ((parts text).tail.map fun piece => Argument.parse (String.ofList piece)) slot := by
  obtain ⟨first, rest, hparts⟩ := List.exists_cons_of_ne_nil (parts_ne_nil text)
  rw [asks_map_parse, Addresses, hparts]
  simp [hname]

/-- A text addresses one slot at most. -/
theorem Addresses.unique {text : String} {s t : Slot} (hs : Addresses text s)
    (ht : Addresses text t) : s = t := by
  obtain ⟨index, hparts, -, hindex⟩ := hs
  obtain ⟨other, hother, -, hspells⟩ := ht
  rw [hother] at hparts
  obtain rfl : other = index := by simpa using hparts
  have hread := Text.readInt?_of_spells hindex
  rw [Text.readInt?_of_spells hspells, Option.some.injEq] at hread
  exact Fin.ext (by omega)

/-- The token that gives the index of a slot in decimal digits addresses the slot. -/
theorem addresses_text (slot : Slot) : Addresses ("$playerinv:" ++ slot.text) slot := by
  have hdigits : ∀ c ∈ Text.natDigits slot.val, c.isDigit = true :=
    fun c hc => Text.isDigit_of_mem_natDigits hc
  have htext : ("$playerinv:" ++ slot.text).toList =
      '$' :: ("playerinv".toList ++ ':' :: Text.natDigits slot.val) := by
    simp [Slot.text, Text.natText]
  have hname : "playerinv".toList.all (fun c => !Text.isBlank c) = true := by decide
  have hblank : ∀ c ∈ ("$playerinv:" ++ slot.text).toList, Text.isBlank c = false := by
    rw [htext]
    intro c hc
    simp only [List.mem_cons, List.mem_append] at hc
    rcases hc with rfl | hc | rfl | hc
    · decide
    · simpa using List.all_eq_true.mp hname c hc
    · decide
    · exact Text.not_isBlank_of_isDigit (hdigits c hc)
  have hcolon : ':' ∉ Text.natDigits slot.val := fun h => absurd (hdigits ':' h) (by decide)
  have hparts : parts ("$playerinv:" ++ slot.text) =
      ["playerinv".toList, Text.natDigits slot.val] := by
    rw [parts, Text.bare_of_not_blank hblank, htext]
    show ("playerinv".toList ++ ':' :: Text.natDigits slot.val).splitOn ':' = _
    rw [List.splitOn_append_cons_self_of_not_mem (by decide), List.splitOn_eq_singleton hcolon]
  refine ⟨Text.natDigits slot.val, by rw [hparts]; rfl, ?_, ?_⟩
  · rw [title, hparts, List.headD_cons]
    decide
  · rw [Text.bare_of_not_blank fun c hc => Text.not_isBlank_of_isDigit (hdigits c hc)]
    exact Text.spells_natDigits slot.val

/-- A text that addresses a slot is answered with what is shown for it; every other text is refused
for the first thing that is wrong with it. -/
theorem value_resolveToken (text : String) (player : Option Player) (inventories : Provider) :
    (∃ slot, Addresses text slot ∧
      (Registry.withDefaults.resolveToken text player inventories).value =
        .ok (shown player inventories slot)) ∨
    ((¬∃ slot, Addresses text slot) ∧
      (Registry.withDefaults.resolveToken text player inventories).value =
        .error (refusal text)) := by
  rw [Registry.resolveToken, parse_eq, refusal]
  by_cases hname : title text = "playerinv".toList
  · have hgood : ¬Malformed (title text) := by rw [hname]; decide
    have hcount : (parts text).length - 1 = (parts text).tail.length := by simp
    rw [if_neg hgood, if_neg hgood, if_neg (not_not_intro hname), hname, hcount]
    simp only [addresses_iff hname]
    have hdispatch := SlotPlaceholder.value_dispatch player inventories
      ((parts text).tail.map fun piece => Argument.parse (String.ofList piece))
    rw [List.length_map, SlotPlaceholder.name, usage_playerinv] at hdispatch
    exact hdispatch
  · have hno : ¬∃ slot, Addresses text slot := fun ⟨_, _, _, h, _⟩ => hname h
    refine Or.inr ⟨hno, ?_⟩
    by_cases hbad : Malformed (title text)
    · rw [if_pos hbad, if_pos hbad]
      rfl
    · have hother : String.ofList (title text) ≠ "playerinv" := by
        intro he
        exact hname (by rw [← he, String.toList_ofList])
      rw [if_neg hbad, if_neg hbad, if_pos hname]
      simp only [Registry.dispatch, get?_withDefaults, if_neg hother]
      rfl

theorem value_resolveToken_of_addresses {text : String} {slot : Slot} (h : Addresses text slot)
    (player : Option Player) (inventories : Provider) :
    (Registry.withDefaults.resolveToken text player inventories).value =
      .ok (shown player inventories slot) := by
  rcases value_resolveToken text player inventories with ⟨other, hother, hvalue⟩ | ⟨hnone, -⟩
  · rw [hvalue, hother.unique h]
  · exact absurd ⟨slot, h⟩ hnone

/-- A token is resolved exactly if it addresses a slot, to what is shown for that slot, and refused
exactly if it addresses none, for the first thing that is wrong with it. -/
theorem resolveToken_withDefaults (text : String) (player : Option Player)
    (inventories : Provider) :
    let outcome := (Registry.withDefaults.resolveToken text player inventories).value
    (∀ answer, outcome = .ok answer ↔
      ∃ slot, Addresses text slot ∧ answer = shown player inventories slot) ∧
    (∀ cause, outcome = .error cause ↔
      (¬∃ slot, Addresses text slot) ∧ cause = refusal text) := by
  intro outcome
  rcases value_resolveToken text player inventories with ⟨slot, hslot, hvalue⟩ | ⟨hnone, hvalue⟩
  · refine ⟨fun answer => ?_, fun cause => ?_⟩
    · rw [show outcome = _ from hvalue, Except.ok.injEq]
      constructor
      · rintro rfl
        exact ⟨slot, hslot, rfl⟩
      · rintro ⟨other, hother, rfl⟩
        rw [hslot.unique hother]
    · rw [show outcome = _ from hvalue]
      exact ⟨fun h => by simp at h, fun h => absurd ⟨slot, hslot⟩ h.1⟩
  · refine ⟨fun answer => ?_, fun cause => ?_⟩
    · rw [show outcome = _ from hvalue]
      exact ⟨fun h => by simp at h, fun ⟨slot, hslot, _⟩ => absurd ⟨slot, hslot⟩ hnone⟩
    · rw [show outcome = _ from hvalue, Except.error.injEq, eq_comm]
      exact (and_iff_right hnone).symm

end InventoryTokens.Token
