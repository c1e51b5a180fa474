import InventoryTokens.Item
import InventoryTokens.Proofs.Decode

/-!
# Encoded stacks decode

Metadata is decoded from what it is encoded as, also metadata that says nothing, and so is a stack
with it or without.
-/

namespace InventoryTokens

namespace Metadata

/-- The members of encoded metadata. -/
def members (m : Metadata) : Fields :=
  Datum.member? "display_name" .text m.displayName ++ Datum.members? "lore" .text m.lore ++
    Datum.member? "damage" (fun n => Datum.nat n.toNat) m.damage

theorem encode_eq (m : Metadata) : m.encode = .record m.members := rfl

theorem names_members (m : Metadata) :
    (m.members.map Prod.fst).Sublist ["display_name", "lore", "damage"] := by
  rw [members, List.map_append, List.map_append]
  exact ((Datum.names_member? ..).append (Datum.names_members? ..)).append (Datum.names_member? ..)

theorem decode_encode (surplus : Surplus) (m : Metadata) : decode surplus m.encode = .ok m := by
  have hname : m.members.optional "display_name" Datum.asText = .ok m.displayName := by
    have hlookup : m.members.lookup "display_name" = m.displayName.map .text := by
      simp [members, List.lookup_append]
    exact Fields.optional_eq_ok hlookup (fun _ => rfl) (fun _ => by simp)
  have hlore : m.members.withDefault "lore" [] (Datum.asList Datum.asText) = .ok m.lore := by
    have hlookup : m.members.lookup "lore" =
        if m.lore ≠ [] then some (.list (m.lore.map .text)) else none := by
      simp [members, List.lookup_append]
    exact Fields.withDefault_list hlookup (fun _ => rfl)
  have hdamage : m.members.optional "damage" Datum.asUInt32 = .ok m.damage := by
    refine Fields.optional_eq_ok ?_ Datum.asUInt32_nat (fun _ => by simp [Datum.nat])
    simp [members, List.lookup_append]
  have hfields := Datum.fields_record (by decide) m.names_members surplus
  simp only [encode_eq, decode, except_bind_eq_ok]
  exact ⟨_, hfields, _, hname, _, hlore, _, hdamage, rfl⟩

end Metadata

namespace Stack

/-- The members of an encoded stack. -/
def members (s : Stack) : Fields :=
  [("item", .text s.item.text), ("count", .nat s.count.toNat)] ++
    Datum.member? "meta" Metadata.encode s.metadata

theorem encode_eq (s : Stack) : s.encode = .record s.members := rfl

theorem names_members (s : Stack) :
    (s.members.map Prod.fst).Sublist ["item", "count", "meta"] := by
  rw [members, List.map_append]
  exact (List.Sublist.refl ["item", "count"]).append (Datum.names_member? ..)

theorem decode_encode (surplus : Surplus) (s : Stack) : decode surplus s.encode = .ok s := by
  have hitem : s.members.required "item" Datum.asKey = .ok s.item := by
    rw [Fields.required_eq (d := .text s.item.text) (by simp [members]), Datum.asKey_text]
  have hcount : s.members.required "count" Datum.asUInt32 = .ok s.count := by
    rw [Fields.required_eq (d := .nat s.count.toNat) (by simp [members, Table.lookup_cons_eq]),
      Datum.asUInt32_nat]
  have hmeta : s.members.optional "meta" (Metadata.decode surplus) = .ok s.metadata := by
    refine Fields.optional_eq_ok ?_ (Metadata.decode_encode surplus) (fun _ => by
      simp [Metadata.encode])
    simp [members, Table.lookup_cons_eq]
  have hfields := Datum.fields_record (by decide) s.names_members surplus
  simp only [encode_eq, decode, except_bind_eq_ok]
  exact ⟨_, hfields, _, hitem, _, hcount, _, hmeta, rfl⟩

end Stack

end InventoryTokens
