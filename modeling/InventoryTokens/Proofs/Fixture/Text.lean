import InventoryTokens.Fixture
import InventoryTokens.Proofs.Item
import InventoryTokens.Proofs.Toml.Fits

/-!
# Fixtures as texts

A fixture has a text exactly if its identifiers and armour places fit in 64 signed bits, and its
text is read as that fixture, whatever texts it holds.
-/

namespace InventoryTokens

theorem Metadata.fits_encode (m : Metadata) : Toml.Fits m.encode := by
  rw [encode_eq, members, Toml.fits_record]
  simp only [List.forall_mem_append, Toml.fits_member?, Toml.fits_members?]
  refine ⟨⟨fun name _ => .text name, fun line _ => .text line⟩, fun damage _ => ?_⟩
  have hdamage := damage.toNat_lt
  exact Toml.fits_nat.mpr (by omega)

theorem Metadata.tidy_members (m : Metadata) : Toml.Tidy 1 m.members := by
  refine Toml.tidy_of_names m.members [] (by decide) m.names_members
    (List.append_nil _) ?_ (by simp)
  intro member hmember
  simp only [members, List.mem_append, Datum.mem_member?, Datum.mem_members?] at hmember
  rcases hmember with (⟨name, -, rfl⟩ | ⟨-, rfl⟩) | ⟨damage, -, rfl⟩
  · exact .atom (.text name)
  · refine .list fun item hitem => ?_
    obtain ⟨line, -, rfl⟩ := List.mem_map.mp hitem
    exact .text line
  · exact .atom (.whole _)

namespace Placed

variable {ι : Type}

/-- The members of an encoded stack at a place. -/
def members (index : ι → Nat) (p : Placed ι) : Fields :=
  [("slot", .nat (index p.slot)), ("item", .text p.item.text), ("count", .nat p.count.toNat)] ++
    Datum.member? "meta" Metadata.encode p.metadata

theorem encode_eq (index : ι → Nat) (p : Placed ι) : p.encode index = .record (p.members index) :=
  rfl

theorem names_members (index : ι → Nat) (p : Placed ι) :
    ((p.members index).map Prod.fst).Sublist ["slot", "item", "count", "meta"] := by
  rw [members, List.map_append]
  exact (List.Sublist.refl ["slot", "item", "count"]).append (Datum.names_member? ..)

theorem decode_encode {index : ι → Nat} {slot : Datum → Decoded ι}
    (h : ∀ i, slot (.nat (index i)) = .ok i) (surplus : Surplus) (p : Placed ι) :
    decode surplus slot (p.encode index) = .ok p := by
  have hslot : (p.members index).required "slot" slot = .ok p.slot := by
    rw [Fields.required_eq (d := .nat (index p.slot)) (by simp [members]), h]
  have hitem : (p.members index).required "item" Datum.asKey = .ok p.item := by
    rw [Fields.required_eq (d := .text p.item.text) (by simp [members, Table.lookup_cons_eq]),
      Datum.asKey_text]
  have hcount : (p.members index).withDefault "count" 1 Datum.asUInt32 = .ok p.count := by
    rw [Fields.withDefault_eq (d := .nat p.count.toNat) (by simp [members, Table.lookup_cons_eq]),
      Datum.asUInt32_nat]
  have hmeta : (p.members index).optional "meta" (Metadata.decode surplus) = .ok p.metadata := by
    refine Fields.optional_eq_ok ?_ (Metadata.decode_encode surplus) (fun _ => by
      simp [Metadata.encode])
    simp [members, Table.lookup_cons_eq]
  have hfields := Datum.fields_record (by decide) (p.names_members index) surplus
  simp only [encode_eq, decode, except_bind_eq_ok]
  exact ⟨_, hfields, _, hslot, _, hitem, _, hcount, _, hmeta, rfl⟩

theorem tidy_members (index : ι → Nat) (p : Placed ι) : Toml.Tidy 2 (p.members index) := by
  refine Toml.tidy_of_names
    [("slot", .nat (index p.slot)), ("item", .text p.item.text), ("count", .nat p.count.toNat)]
    (Toml.Nest.optional "meta" (p.metadata.map Metadata.members)) (by decide)
    (p.names_members index) ?_ ?_ ?_
  · rw [Toml.Nest.nestedMembers_optional Metadata.encode_eq]
    rfl
  · simp only [List.forall_mem_cons]
    exact ⟨.atom (.whole _), .atom (.text _), .atom (.whole _), by simp⟩
  · intro m hm record hrecord
    rw [Toml.Nest.records_optional hm] at hrecord
    obtain ⟨metadata, -, rfl⟩ := Option.map_eq_some_iff.mp (Option.mem_toList.mp hrecord)
    exact metadata.tidy_members

theorem fits_encode (index : ι → Nat) (p : Placed ι) :
    Toml.Fits (p.encode index) ↔ index p.slot ≤ 0x7FFFFFFFFFFFFFFF := by
  have hcount := p.count.toNat_lt
  have hmeta : ∀ m ∈ Datum.member? "meta" Metadata.encode p.metadata, Toml.Fits m.2 :=
    Toml.fits_member?.mpr fun m _ => m.fits_encode
  have hitem : Toml.Fits (.text p.item.text) := .text _
  have hcount : Toml.Fits (.nat p.count.toNat) := Toml.fits_nat.mpr (by omega)
  rw [encode_eq, members, Toml.fits_record, List.forall_mem_append, and_iff_left hmeta]
  simp [Toml.fits_nat, hitem, hcount]

end Placed

namespace Entry

/-- The members of an encoded entry. -/
def members (e : Entry) : Fields :=
  [("id", .nat e.id.toNat), ("name", .text e.name)] ++
    Datum.members? "slots" (Placed.encode Fin.val) e.slots ++
    Datum.members? "armor" (Placed.encode UInt64.toNat) e.armor ++
    Datum.member? "offhand" (Placed.encode UInt8.toNat) e.offhand

theorem encode_eq (e : Entry) : e.encode = .record e.members := rfl

theorem names_members (e : Entry) :
    (e.members.map Prod.fst).Sublist ["id", "name", "slots", "armor", "offhand"] := by
  rw [members, List.map_append, List.map_append, List.map_append]
  exact (((List.Sublist.refl ["id", "name"]).append (Datum.names_members? ..)).append
    (Datum.names_members? ..)).append (Datum.names_member? ..)

theorem decode_encode (surplus : Surplus) (e : Entry) : decode surplus e.encode = .ok e := by
  have hid : e.members.required "id" Datum.asUInt64 = .ok e.id := by
    rw [Fields.required_eq (d := .nat e.id.toNat) (by simp [members]), Datum.asUInt64_nat]
  have hname : e.members.required "name" Datum.asText = .ok e.name := by
    rw [Fields.required_eq (d := .text e.name) (by simp [members, Table.lookup_cons_eq]),
      Datum.asText]
  have hslots : e.members.withDefault "slots" []
      (Datum.asList (Placed.decode surplus Datum.asSlot)) = .ok e.slots := by
    refine Fields.withDefault_list ?_ (Placed.decode_encode Datum.asSlot_nat surplus)
    simp [members, Table.lookup_cons_eq, List.lookup_append]
  have harmor : e.members.withDefault "armor" []
      (Datum.asList (Placed.decode surplus Datum.asUInt64)) = .ok e.armor := by
    refine Fields.withDefault_list ?_ (Placed.decode_encode Datum.asUInt64_nat surplus)
    simp [members, Table.lookup_cons_eq, List.lookup_append]
  have hoffhand : e.members.optional "offhand" (Placed.decode surplus Datum.asUInt8) =
      .ok e.offhand := by
    refine Fields.optional_eq_ok ?_ (Placed.decode_encode Datum.asUInt8_nat surplus) (fun _ => by
      simp [Placed.encode])
    simp [members, Table.lookup_cons_eq, List.lookup_append]
  have hfields := Datum.fields_record (by decide) e.names_members surplus
  simp only [encode_eq, decode, except_bind_eq_ok]
  exact ⟨_, hfields, _, hid, _, hname, _, hslots, _, harmor, _, hoffhand, rfl⟩

theorem tidy_members (e : Entry) : Toml.Tidy 3 e.members := by
  refine Toml.tidy_of_names [("id", .nat e.id.toNat), ("name", .text e.name)]
    (Toml.Nest.listed "slots" (e.slots.map (Placed.members Fin.val)) ++
      Toml.Nest.listed "armor" (e.armor.map (Placed.members UInt64.toNat)) ++
      Toml.Nest.optional "offhand" (e.offhand.map (Placed.members UInt8.toNat)))
    (by decide) e.names_members ?_ ?_ ?_
  · rw [Toml.nestedMembers_append, Toml.nestedMembers_append,
      Toml.Nest.nestedMembers_listed (Placed.encode_eq _),
      Toml.Nest.nestedMembers_listed (Placed.encode_eq _),
      Toml.Nest.nestedMembers_optional (Placed.encode_eq _)]
    simp [members]
  · simp only [List.forall_mem_cons]
    exact ⟨.atom (.whole _), .atom (.text _), by simp⟩
  · intro m hm record hrecord
    rcases List.mem_append.mp hm with hm | hm
    · rcases List.mem_append.mp hm with hm | hm
      · rw [Toml.Nest.records_listed hm] at hrecord
        obtain ⟨p, -, rfl⟩ := List.mem_map.mp hrecord
        exact p.tidy_members _
      · rw [Toml.Nest.records_listed hm] at hrecord
        obtain ⟨p, -, rfl⟩ := List.mem_map.mp hrecord
        exact p.tidy_members _
    · rw [Toml.Nest.records_optional hm] at hrecord
      obtain ⟨p, -, rfl⟩ := Option.map_eq_some_iff.mp (Option.mem_toList.mp hrecord)
      exact p.tidy_members _

theorem fits_encode (e : Entry) :
    Toml.Fits e.encode ↔
      e.id.toNat ≤ 0x7FFFFFFFFFFFFFFF ∧ ∀ p ∈ e.armor, p.slot.toNat ≤ 0x7FFFFFFFFFFFFFFF := by
  have hname : Toml.Fits (.text e.name) := .text _
  have hslots : ∀ p ∈ e.slots, Toml.Fits (p.encode Fin.val) := by
    intro p _
    have hslot : p.slot.val < 45 := p.slot.isLt
    exact (p.fits_encode _).mpr (by omega)
  have hoffhand : ∀ p, e.offhand = some p → Toml.Fits (p.encode UInt8.toNat) := by
    intro p _
    have hslot := p.slot.toNat_lt
    exact (p.fits_encode _).mpr (by omega)
  have hplain : (∀ m ∈ [("id", Datum.nat e.id.toNat), ("name", .text e.name)], Toml.Fits m.2) ↔
      e.id.toNat ≤ 0x7FFFFFFFFFFFFFFF := by
    simp [Toml.fits_nat, hname]
  rw [encode_eq, members, Toml.fits_record]
  simp only [List.forall_mem_append, Toml.fits_member?, Toml.fits_members?,
    Placed.fits_encode UInt64.toNat]
  rw [hplain, and_iff_left hslots, and_iff_left hoffhand]

end Entry

namespace Fixture

/-- The members of an encoded fixture. -/
def members (f : Fixture) : Fields :=
  [("players", .list (f.players.map Entry.encode))]

theorem encode_eq (f : Fixture) : f.encode = .record f.members := rfl

theorem decode_encode (surplus : Surplus) (f : Fixture) : decode surplus f.encode = .ok f := by
  have hplayers : f.members.withDefault "players" [] (Datum.asList (Entry.decode surplus)) =
      .ok f.players := by
    rw [Fields.withDefault_eq (d := .list (f.players.map Entry.encode)) (by simp [members]),
      Datum.asList_map fun e _ => e.decode_encode surplus]
  have hnames : (f.members.map Prod.fst).Sublist ["players"] := .refl _
  have hfields := Datum.fields_record (by decide) hnames surplus
  simp only [encode_eq, decode, except_bind_eq_ok]
  exact ⟨_, hfields, _, hplayers, rfl⟩

theorem tidy_members (f : Fixture) : Toml.Tidy 4 f.members := by
  have hnames : (f.members.map Prod.fst).Sublist ["players"] := .refl _
  cases h : f.players with
  | nil =>
    refine Toml.tidy_of_names f.members [] (by decide) hnames
      (List.append_nil _) ?_ (by simp)
    intro m hm
    rw [members, h] at hm
    rw [List.mem_singleton.mp hm]
    exact .list (by simp)
  | cons first rest =>
    refine Toml.tidy_of_names [] (Toml.Nest.listed "players" (f.players.map Entry.members))
      (by decide) hnames ?_ (by simp) ?_
    · rw [Toml.Nest.nestedMembers_listed Entry.encode_eq, h, members, h]
      rfl
    · intro m hm record hrecord
      rw [Toml.Nest.records_listed hm] at hrecord
      obtain ⟨e, -, rfl⟩ := List.mem_map.mp hrecord
      exact e.tidy_members

theorem fits_encode (f : Fixture) :
    Toml.Fits f.encode ↔ ∀ e ∈ f.players,
      e.id.toNat ≤ 0x7FFFFFFFFFFFFFFF ∧ ∀ p ∈ e.armor, p.slot.toNat ≤ 0x7FFFFFFFFFFFFFFF := by
  rw [encode_eq, members, Toml.fits_record]
  simp [Toml.fits_list, Entry.fits_encode]

/-- A fixture has a text exactly if no identifier and no armour place in it is too large, and its
text reads back as the fixture. -/
theorem toToml?_reads_back (f : Fixture) :
    (f.toToml?.isSome = true ↔ ∀ e ∈ f.players,
      e.id.toNat ≤ 0x7FFFFFFFFFFFFFFF ∧ ∀ p ∈ e.armor, p.slot.toNat ≤ 0x7FFFFFFFFFFFFFFF) ∧
    ∀ text, f.toToml? = some text → ofToml text = .ok f := by
  refine ⟨?_, fun text htext => ?_⟩
  · rw [toToml?, encode_eq, Toml.isSome_write? f.tidy_members, ← encode_eq, fits_encode]
  · have hread := Toml.read?_of_write? f.tidy_members (by decide) htext
    rw [ofToml, hread, ← encode_eq]
    simp only [decode_encode]

end Fixture

end InventoryTokens
