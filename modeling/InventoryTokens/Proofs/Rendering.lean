import InventoryTokens.Command
import InventoryTokens.Proofs.Inventory.Text
import InventoryTokens.Proofs.Text.Digits

/-!
# What a rendered result tells

A result rendered as JSON is read back as the result.  As text it tells the count, the key and the
given name of a stack: the count ends at the first character that is no digit, the key at the first
blank, and what is left is the name in quotes.
-/

namespace InventoryTokens

namespace Stack

/-- The given name as it stands behind the key. -/
def nameChars : Option String → List Char
  | none => []
  | some name => ' ' :: '"' :: (name.toList ++ ['"'])

theorem nameChars_inj {m n : Option String} : nameChars m = nameChars n ↔ m = n := by
  cases m <;> cases n <;> simp [nameChars, String.toList_inj]

theorem toList_text (s : Stack) :
    s.text.toList = Text.natDigits s.count.toNat ++
      'x' :: ' ' :: (s.item.text.toList ++ nameChars (s.metadata.bind Metadata.displayName)) := by
  rw [text]
  cases s.metadata.bind Metadata.displayName <;> simp [nameChars, Text.natText]

/-- No key has a blank, so the first blank ends it. -/
theorem shown_inj {k l : Key} {m n : Option String} :
    k.text.toList ++ nameChars m = l.text.toList ++ nameChars n ↔ k = l ∧ m = n := by
  have hkey : ∀ key : Key, ∀ c ∈ key.text.toList, (!Text.isBlank c) = true := by
    intro key c hc
    rw [Key.not_isBlank_of_mem_text hc, Bool.not_false]
  have hname : ∀ name, ∀ c ∈ (nameChars name).head?, (!Text.isBlank c) = false := by
    intro name c hc
    cases name with
    | none => cases hc
    | some name =>
      obtain rfl := Option.some.inj hc
      decide
  rw [Text.span_append_inj (p := fun c => !Text.isBlank c) (hkey k) (hkey l) (hname m) (hname n),
    String.toList_inj, Key.text_inj, nameChars_inj]

/-- A stack shown as text tells its count, its key and its given name. -/
theorem text_inj {s t : Stack} :
    s.text = t.text ↔ s.count = t.count ∧ s.item = t.item ∧
      s.metadata.bind Metadata.displayName = t.metadata.bind Metadata.displayName := by
  have hdigit : ∀ n, ∀ c ∈ Text.natDigits n, c.isDigit = true :=
    fun n c => Text.isDigit_of_mem_natDigits
  rw [← String.toList_inj, toList_text, toList_text,
    Text.span_append_inj (hdigit _) (hdigit _) (by simp) (by simp), Text.natDigits_inj,
    UInt32.toNat_inj, List.cons_inj_right, List.cons_inj_right, shown_inj]

/-- No stack is shown as the text that stands for none. -/
theorem text_ne_null (s : Stack) : s.text ≠ "null" := by
  intro h
  have hhead : s.text.toList.head? = some 'n' := by rw [h]; rfl
  obtain ⟨c, cs, hcs⟩ := List.exists_cons_of_ne_nil (Text.natDigits_ne_nil s.count.toNat)
  rw [toList_text, hcs] at hhead
  obtain rfl := Option.some.inj hhead
  have hdigit : 'n'.isDigit = true :=
    Text.isDigit_of_mem_natDigits (n := s.count.toNat) (by simp [hcs])
  cases hdigit

end Stack

namespace Command

theorem readAs_render (result : Option Stack) :
    Json.readAs (Datum.asOption (Stack.decode .refused)) (render result .json) = .ok result := by
  cases result with
  | none => rfl
  | some s =>
    rw [render, Json.readAs, Json.read?_write s.readsBack_encode]
    exact asOption_stack.mpr (.filled (s.decode_encode .refused))

/-- Results are rendered alike as JSON only if they are the same, and each is read back from its
rendering.  As text they are rendered alike exactly if both are nothing, or both are stacks of one
count, key and given name. -/
theorem render_inj (a b : Option Stack) :
    Json.readAs (Datum.asOption (Stack.decode .refused)) (render a .json) = .ok a ∧
    (render a .json = render b .json ↔ a = b) ∧
    (render a .text = render b .text ↔
      (a = none ∧ b = none) ∨
      ∃ s t, a = some s ∧ b = some t ∧ s.count = t.count ∧ s.item = t.item ∧
        s.metadata.bind Metadata.displayName = t.metadata.bind Metadata.displayName) := by
  refine ⟨readAs_render a, ⟨fun h => ?_, fun h => by rw [h]⟩, ?_⟩
  · have hread := readAs_render a
    rw [h, readAs_render b] at hread
    exact (Except.ok.inj hread).symm
  · cases a with
    | none =>
      cases b with
      | none => simp
      | some t => simpa [render] using t.text_ne_null.symm
    | some s =>
      cases b with
      | none => simpa [render] using s.text_ne_null
      | some t => simp [render, Stack.text_inj]

end Command

end InventoryTokens
