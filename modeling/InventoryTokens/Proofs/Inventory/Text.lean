import InventoryTokens.Inventory
import InventoryTokens.Proofs.Item
import InventoryTokens.Proofs.Json.Values

/-!
# Inventories as texts

The text of an inventory is read as that inventory, whatever it holds.  Which texts are read, and as
what, is said by the sections that a text spells: each of them place by place, the main grid with
any number of places, the others empty if they are missing.  A text that spells sections is read
exactly if the main grid has as many places as it should.
-/

namespace InventoryTokens

theorem Metadata.readsBack_encode (m : Metadata) : Json.ReadsBack m.encode := by
  rw [encode_eq]
  refine Json.readsBack_record fun member hmember => ?_
  simp only [members, List.mem_append, Datum.mem_member?, Datum.mem_members?] at hmember
  rcases hmember with (⟨name, -, rfl⟩ | ⟨-, rfl⟩) | ⟨damage, -, rfl⟩
  · exact Json.readsBack_text name
  · refine Json.readsBack_list fun line hline => ?_
    obtain ⟨line, -, rfl⟩ := List.mem_map.mp hline
    exact Json.readsBack_text line
  · exact Json.readsBack_uint32 damage

theorem Stack.readsBack_encode (s : Stack) : Json.ReadsBack s.encode := by
  rw [encode_eq]
  refine Json.readsBack_record fun member hmember => ?_
  simp only [members, List.mem_append, List.mem_cons, List.not_mem_nil, or_false,
    Datum.mem_member?] at hmember
  rcases hmember with (rfl | rfl) | ⟨m, -, rfl⟩
  · exact Json.readsBack_text _
  · exact Json.readsBack_uint32 s.count
  · exact m.readsBack_encode

theorem Stack.readsBack_place (place : Option Stack) :
    Json.ReadsBack (Datum.ofOption encode place) := by
  cases place with
  | none => exact Json.readsBack_absent
  | some s => exact s.readsBack_encode

theorem Shelf.readsBack_encode {n : Nat} (shelf : Shelf n) : Json.ReadsBack shelf.encode := by
  refine Json.readsBack_list fun item hitem => ?_
  obtain ⟨place, -, rfl⟩ := List.mem_map.mp hitem
  exact Stack.readsBack_place place

/-- What a text says about the sections of an inventory: any number of places in the main grid. -/
structure Sections where
  main : List (Option Stack)
  armor : Shelf armorSize
  offhand : Option Stack
  crafting : Shelf craftingSize

/-- A datum spells a place: a stack, or nothing. -/
inductive SpellsPlace : Datum → Option Stack → Prop where
  | empty : SpellsPlace .absent none
  | filled {d : Datum} {s : Stack} (h : Stack.decode .refused d = .ok s) : SpellsPlace d (some s)

/-- A datum spells places in their order. -/
inductive SpellsRow : Datum → List (Option Stack) → Prop where
  | list {items : List Datum} {places : List (Option Stack)}
    (h : List.Forall₂ SpellsPlace items places) : SpellsRow (.list items) places

/-- The fields spell sections: the main grid must be given, and a section that is not given is
empty. -/
structure Fields.Spells (fields : Fields) (s : Sections) : Prop where
  main : ∃ d, fields.lookup "main" = some d ∧ SpellsRow d s.main
  armor : (∃ d, fields.lookup "armor" = some d ∧ SpellsRow d s.armor.toList) ∨
    fields.lookup "armor" = none ∧ s.armor = .empty armorSize
  offhand : (∃ d, fields.lookup "offhand" = some d ∧ SpellsPlace d s.offhand) ∨
    fields.lookup "offhand" = none ∧ s.offhand = none
  crafting : (∃ d, fields.lookup "crafting" = some d ∧ SpellsRow d s.crafting.toList) ∨
    fields.lookup "crafting" = none ∧ s.crafting = .empty craftingSize

/-- A text spells sections: it is one value, whose fields do. -/
def Sections.SpelledBy (s : Sections) (text : String) : Prop :=
  ∃ d fields, Json.read? text = some d ∧
    d.fields .refused ["main", "armor", "offhand", "crafting"] = .ok fields ∧ fields.Spells s

theorem asOption_stack {d : Datum} {place : Option Stack} :
    d.asOption (Stack.decode .refused) = .ok place ↔ SpellsPlace d place := by
  rw [Datum.asOption_eq_ok]
  constructor
  · rintro (⟨rfl, rfl⟩ | ⟨-, s, rfl, h⟩)
    · exact .empty
    · exact .filled h
  · rintro (_ | h)
    · exact Or.inl ⟨rfl, rfl⟩
    · refine Or.inr ⟨?_, _, rfl, h⟩
      rintro rfl
      cases h

theorem asList_stack {d : Datum} {places : List (Option Stack)} :
    d.asList (Datum.asOption (Stack.decode .refused)) = .ok places ↔ SpellsRow d places := by
  rw [Datum.asList_eq_ok]
  simp only [asOption_stack]
  constructor
  · rintro ⟨items, rfl, h⟩
    exact .list h
  · rintro ⟨h⟩
    exact ⟨_, rfl, h⟩

theorem Fields.spells_iff {fields : Fields} {s : Sections} :
    fields.Spells s ↔
      fields.required "main" (Datum.asList (Datum.asOption (Stack.decode .refused))) = .ok s.main ∧
        fields.withDefault "armor" (Shelf.empty armorSize)
            (Datum.asVector armorSize (Datum.asOption (Stack.decode .refused))) = .ok s.armor ∧
          fields.optional "offhand" (Stack.decode .refused) = .ok s.offhand ∧
            fields.withDefault "crafting" (Shelf.empty craftingSize)
              (Datum.asVector craftingSize (Datum.asOption (Stack.decode .refused))) =
                .ok s.crafting := by
  simp only [optional, required_eq_ok, withDefault_eq_ok, Datum.asVector_eq_ok, asList_stack,
    asOption_stack]
  constructor
  · rintro ⟨hmain, harmor, hoffhand, hcrafting⟩
    exact ⟨hmain, harmor, hoffhand, hcrafting⟩
  · rintro ⟨hmain, harmor, hoffhand, hcrafting⟩
    exact ⟨hmain, harmor, hoffhand, hcrafting⟩

theorem spellsPlace_encode (place : Option Stack) :
    SpellsPlace (Datum.ofOption Stack.encode place) place := by
  cases place with
  | none => exact .empty
  | some s => exact .filled (s.decode_encode .refused)

theorem Shelf.spellsRow_encode {n : Nat} (shelf : Shelf n) : SpellsRow shelf.encode shelf.toList :=
  .list (List.forall₂_map_left_iff.mpr (List.forall₂_same.mpr fun place _ =>
    spellsPlace_encode place))

namespace Sections

/-- The inventory of the sections, if the main grid has the right number of places. -/
def counted (s : Sections) : Decoded Inventory :=
  if h : s.main.length = gridSize then
    .ok ⟨⟨s.main.toArray, by simpa using h⟩, s.armor, s.offhand, s.crafting⟩
  else .error (.mainCount s.main.length)

theorem counted_eq_error {s : Sections} {cause : DecodeError} :
    s.counted = .error cause ↔ s.main.length ≠ gridSize ∧ cause = .mainCount s.main.length := by
  unfold counted
  split <;> simp [*, eq_comm]

end Sections

namespace Inventory

/-- What the text of an inventory says. -/
def sections (inventory : Inventory) : Sections :=
  ⟨inventory.main.toList, inventory.armor, inventory.offhand, inventory.crafting⟩

theorem counted_sections (inventory : Inventory) : inventory.sections.counted = .ok inventory :=
  dif_pos inventory.main.length_toList

/-- The members of an encoded inventory. -/
def members (inventory : Inventory) : Fields :=
  [("main", inventory.main.encode), ("armor", inventory.armor.encode),
    ("offhand", Datum.ofOption Stack.encode inventory.offhand),
    ("crafting", inventory.crafting.encode)]

theorem encode_eq (inventory : Inventory) : inventory.encode = .record inventory.members := rfl

theorem spells_members (inventory : Inventory) : inventory.members.Spells inventory.sections where
  main := ⟨_, rfl, inventory.main.spellsRow_encode⟩
  armor := Or.inl ⟨_, rfl, inventory.armor.spellsRow_encode⟩
  offhand := Or.inl ⟨_, rfl, spellsPlace_encode inventory.offhand⟩
  crafting := Or.inl ⟨_, rfl, inventory.crafting.spellsRow_encode⟩

theorem readsBack_encode (inventory : Inventory) : Json.ReadsBack inventory.encode := by
  rw [encode_eq, members]
  refine Json.readsBack_record ?_
  simp only [List.forall_mem_cons]
  exact ⟨inventory.main.readsBack_encode, inventory.armor.readsBack_encode,
    Stack.readsBack_place inventory.offhand, inventory.crafting.readsBack_encode, by simp⟩

/-- The text of an inventory spells its sections. -/
theorem spelledBy_toJson (inventory : Inventory) :
    inventory.sections.SpelledBy inventory.toJson := by
  have hnames : (inventory.members.map Prod.fst).Sublist ["main", "armor", "offhand", "crafting"] :=
    List.Sublist.refl _
  exact ⟨_, _, Json.read?_write inventory.readsBack_encode,
    Datum.fields_record (by decide) hnames .refused, inventory.spells_members⟩

/-- Fields that spell sections are decoded up to the count of the main grid. -/
theorem decode_of_spells {d : Datum} {fields : Fields} {s : Sections}
    (hfields : d.fields .refused ["main", "armor", "offhand", "crafting"] = .ok fields)
    (hspells : fields.Spells s) : decode .refused d = s.counted := by
  obtain ⟨hmain, harmor, hoffhand, hcrafting⟩ := Fields.spells_iff.mp hspells
  simp only [decode, hfields, hmain, harmor, hoffhand, hcrafting, bind, Except.bind]
  rfl

theorem decode_eq_ok {d : Datum} {inventory : Inventory} :
    decode .refused d = .ok inventory ↔
      ∃ fields, d.fields .refused ["main", "armor", "offhand", "crafting"] = .ok fields ∧
        fields.Spells inventory.sections := by
  constructor
  · intro h
    simp only [decode, except_bind_eq_ok] at h
    obtain ⟨fields, hfields, main, hmain, armor, harmor, h⟩ := h
    obtain ⟨offhand, hoffhand, crafting, hcrafting, h⟩ := h
    split at h
    · obtain rfl := Except.ok.inj h
      exact ⟨fields, hfields, Fields.spells_iff.mpr ⟨hmain, harmor, hoffhand, hcrafting⟩⟩
    · cases h
  · rintro ⟨fields, hfields, hspells⟩
    rw [decode_of_spells hfields hspells, counted_sections]

theorem ofJson_of_spelledBy {s : Sections} {text : String} (h : s.SpelledBy text) :
    ofJson text = s.counted := by
  obtain ⟨d, fields, hread, hfields, hspells⟩ := h
  rw [ofJson, hread]
  exact decode_of_spells hfields hspells

theorem ofJson_eq_ok {text : String} {inventory : Inventory} :
    ofJson text = .ok inventory ↔ inventory.sections.SpelledBy text := by
  unfold ofJson Sections.SpelledBy
  cases Json.read? text with
  | none => simp
  | some d => simp [decode_eq_ok]

/-- The text of an inventory is read as that inventory.  Any text is read as an inventory exactly if
it spells its sections; a text that spells sections is rejected exactly if the main grid has another
number of places, and that number is said. -/
theorem ofJson_exact (text : String) :
    (∀ inventory : Inventory, ofJson inventory.toJson = .ok inventory) ∧
      (∀ inventory, ofJson text = .ok inventory ↔ inventory.sections.SpelledBy text) ∧
        (∀ s : Sections, s.SpelledBy text → ∀ cause, ofJson text = .error cause ↔
          s.main.length ≠ gridSize ∧ cause = .mainCount s.main.length) ∧
          ∀ n, (DecodeError.mainCount n).message? =
            some ("expected 45 main slots, got " ++ Text.natText n) := by
  refine ⟨fun inventory => ?_, fun inventory => ofJson_eq_ok, fun s hs cause => ?_, fun n => rfl⟩
  · exact ofJson_eq_ok.mpr inventory.spelledBy_toJson
  · rw [ofJson_of_spelledBy hs, Sections.counted_eq_error]

/-- A main grid of two places is counted. -/
theorem ofJson_two_places :
    ofJson "\x7b\"main\":[null,null]\x7d" = .error (.mainCount 2) := by
  have htext : "\x7b\"main\":[null,null]\x7d" =
      Json.write (.record [("main", .list [.absent, .absent])]) := by
    decide
  have hread := Json.read?_write (d := .record [("main", .list [.absent, .absent])])
    (Json.readsBack_record (by simp [Json.readsBack_list, Json.readsBack_absent]))
  have hspelled : (Sections.mk [none, none] (.empty armorSize) none (.empty craftingSize)).SpelledBy
      "\x7b\"main\":[null,null]\x7d" := by
    rw [htext]
    refine ⟨_, _, hread, rfl, ⟨_, rfl, .list (.cons .empty (.cons .empty .nil))⟩, ?_, ?_, ?_⟩
    all_goals exact Or.inr ⟨rfl, rfl⟩
  exact ((ofJson_exact _).2.2.1 _ hspelled _).mpr ⟨by decide, rfl⟩

end Inventory

end InventoryTokens
