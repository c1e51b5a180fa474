import InventoryTokens.Decode
import InventoryTokens.Proofs.Grid
import InventoryTokens.Proofs.Key
import InventoryTokens.Table
import Mathlib.Data.List.Forall2

/-!
# Encoded values decode

What each way of encoding a field gives is decoded to the value again: words of fixed width, lists,
and members of a record, which may be left out if they hold nothing.  A list is decoded item by
item, and a field as what is given for it or else as its default.
-/

namespace InventoryTokens

/-- A computation in two steps succeeds exactly if each step does. -/
theorem except_bind_eq_ok {ε α β : Type} {x : Except ε α} {f : α → Except ε β} {b : β} :
    (x >>= f) = .ok b ↔ ∃ a, x = .ok a ∧ f a = .ok b := by
  cases x with
  | error e => simp [bind, Except.bind]
  | ok a => simp [bind, Except.bind]

/-- A list is gone through with success exactly if each item is. -/
theorem mapM_eq_ok_iff {ε α β : Type} {f : α → Except ε β} {items : List α} {values : List β} :
    items.mapM f = .ok values ↔
      List.Forall₂ (fun item value => f item = .ok value) items values := by
  induction items generalizing values with
  | nil => simp [pure, Except.pure, eq_comm]
  | cons item items ih =>
    rw [List.mapM_cons, except_bind_eq_ok, List.forall₂_cons_left_iff]
    refine exists_congr fun value => ?_
    simp only [except_bind_eq_ok, ih, pure, Except.pure, Except.ok.injEq, eq_comm (a := _ :: _)]
    constructor
    · rintro ⟨hvalue, rest, hrest, he⟩
      exact ⟨rest, hvalue, hrest, he⟩
    · rintro ⟨rest, hvalue, hrest, he⟩
      exact ⟨hvalue, rest, hrest, he⟩

namespace Datum

theorem asUInt64_whole (n : Int) : asUInt64 (.whole n) = orShape (Text.uint64? n) := rfl

theorem asUInt32_whole (n : Int) : asUInt32 (.whole n) = orShape (Text.uint32? n) := rfl

theorem asUInt8_whole (n : Int) : asUInt8 (.whole n) = orShape (Text.uint8? n) := rfl

theorem asUInt64_nat (n : UInt64) : asUInt64 (.nat n.toNat) = .ok n := by
  have hlt := n.toNat_lt
  rw [nat, asUInt64_whole, Text.uint64?, if_pos (by omega), Int.toNat_natCast, UInt64.ofNat_toNat,
    orShape]

theorem asUInt32_nat (n : UInt32) : asUInt32 (.nat n.toNat) = .ok n := by
  have hlt := n.toNat_lt
  rw [nat, asUInt32_whole, Text.uint32?, if_pos (by omega), Int.toNat_natCast, UInt32.ofNat_toNat,
    orShape]

theorem asUInt8_nat (n : UInt8) : asUInt8 (.nat n.toNat) = .ok n := by
  have hlt := n.toNat_lt
  rw [nat, asUInt8_whole, Text.uint8?, if_pos (by omega), Int.toNat_natCast, UInt8.ofNat_toNat,
    orShape]

theorem asSlot_whole (n : Int) :
    asSlot (.whole n) = (orShape (Text.int64? n)).bind fun index =>
      match Slot.ofIndex index.toInt with
      | .ok slot => .ok slot
      | .error cause => .error (.grid cause) := rfl

theorem asSlot_nat (slot : Slot) : asSlot (.nat slot.val) = .ok slot := by
  rw [nat, asSlot_whole, slot.int64?_val]
  simp only [orShape, Except.bind, slot.toInt_ofInt_val, slot.ofIndex_val]

theorem asKey_text (key : Key) : asKey (.text key.text) = .ok key := by
  simp only [asKey, asText, bind, Except.bind, key.parse_text]

variable {α : Type}

/-- Items that do not all decode to what they encode decode to what each of them does. -/
theorem asList_map_eq {β : Type} {encode : α → Datum} {decode : Datum → Decoded β} {f : α → β}
    {items : List α} (h : ∀ a ∈ items, decode (encode a) = .ok (f a)) :
    asList decode (.list (items.map encode)) = .ok (items.map f) :=
  mapM_eq_ok_iff.mpr (List.forall₂_map_left_iff.mpr (List.forall₂_map_right_iff.mpr
    (List.forall₂_same.mpr h)))

theorem asList_map {encode : α → Datum} {decode : Datum → Decoded α} {items : List α}
    (h : ∀ a ∈ items, decode (encode a) = .ok a) :
    asList decode (.list (items.map encode)) = .ok items := by
  rw [asList_map_eq h, List.map_id']

theorem asText_eq_ok {d : Datum} {s : String} : d.asText = .ok s ↔ d = .text s := by
  cases d <;> simp [asText]

theorem asList_eq_ok {decode : Datum → Decoded α} {d : Datum} {values : List α} :
    d.asList decode = .ok values ↔
      ∃ items, d = .list items ∧
        List.Forall₂ (fun item value => decode item = .ok value) items values := by
  cases d with
  | list items =>
    rw [asList, mapM_eq_ok_iff]
    simp only [Datum.list.injEq, exists_eq_left']
  | _ => simp [asList]

theorem asOption_eq_ok {decode : Datum → Decoded α} {d : Datum} {value : Option α} :
    d.asOption decode = .ok value ↔
      d = .absent ∧ value = none ∨ d ≠ .absent ∧ ∃ a, value = some a ∧ decode d = .ok a := by
  by_cases hd : d = .absent
  · subst hd
    simp [asOption, eq_comm]
  · rw [asOption]
    · cases decode d <;> simp [hd, Except.map, eq_comm]
    · exact hd

theorem asVector_eq_ok {n : Nat} {decode : Datum → Decoded α} {d : Datum} {values : Vector α n} :
    d.asVector n decode = .ok values ↔ d.asList decode = .ok values.toList := by
  unfold asVector
  rw [except_bind_eq_ok]
  constructor
  · rintro ⟨items, hitems, h⟩
    split at h
    · obtain rfl := Except.ok.inj h
      exact hitems
    · cases h
  · intro h
    refine ⟨values.toList, h, ?_⟩
    rw [dif_pos values.length_toList]
    rfl

theorem mem_member? {name : String} {encode : α → Datum} {value : Option α} {m : String × Datum} :
    m ∈ member? name encode value ↔ ∃ a, value = some a ∧ m = (name, encode a) := by
  cases value <;> simp [member?]

theorem mem_members? {name : String} {encode : α → Datum} {items : List α} {m : String × Datum} :
    m ∈ members? name encode items ↔ items ≠ [] ∧ m = (name, .list (items.map encode)) := by
  cases items <;> simp [members?]

@[simp] theorem lookup_member? (name other : String) (encode : α → Datum) (value : Option α) :
    (member? name encode value).lookup other =
      if other = name then value.map encode else none := by
  cases value with
  | none => simp [member?]
  | some a => exact Table.lookup_cons_eq other name (encode a) []

@[simp] theorem lookup_members? (name other : String) (encode : α → Datum) (items : List α) :
    (members? name encode items).lookup other =
      if other = name ∧ items ≠ [] then some (.list (items.map encode)) else none := by
  cases items with
  | nil => simp [members?]
  | cons a items =>
    rw [members?, Table.lookup_cons_eq]
    · simp
    · simp

theorem names_member? (name : String) (encode : α → Datum) (value : Option α) :
    ((member? name encode value).map Prod.fst).Sublist [name] := by
  cases value <;> simp [member?]

theorem names_members? (name : String) (encode : α → Datum) (items : List α) :
    ((members? name encode items).map Prod.fst).Sublist [name] := by
  cases items <;> simp [members?]

/-- A record in which no name stands twice gives those of its members that are known. -/
theorem fields_of_nodup {members : List (String × Datum)} (h : (members.map Prod.fst).Nodup)
    (surplus : Surplus) (names : List String) : (Datum.record members).fields surplus names =
      .ok (members.filter fun m => names.contains m.1) :=
  if_pos ((List.filter_sublist.map Prod.fst).nodup h)

/-- A record gives its members, if they are known and in the order of the names. -/
theorem fields_record {names : List String} (hnames : names.Nodup)
    {members : List (String × Datum)} (h : (members.map Prod.fst).Sublist names)
    (surplus : Surplus) : (Datum.record members).fields surplus names = .ok members := by
  have hknown : members.filter (fun m => names.contains m.1) = members := by
    refine List.filter_eq_self.mpr fun m hm => ?_
    exact List.contains_iff_mem.mpr (h.subset (List.mem_map_of_mem hm))
  rw [fields_of_nodup (h.nodup hnames), hknown]

end Datum

namespace Fields

variable {α : Type} {fields : Fields} {name : String} {encode : α → Datum}
  {decode : Datum → Decoded α}

theorem required_eq {d : Datum} (h : fields.lookup name = some d) :
    fields.required name decode = decode d := by
  rw [required, h]

theorem withDefault_eq {default : α} {d : Datum} (h : fields.lookup name = some d) :
    fields.withDefault name default decode = decode d := by
  rw [withDefault, h]

theorem required_eq_ok {a : α} :
    fields.required name decode = .ok a ↔
      ∃ d, fields.lookup name = some d ∧ decode d = .ok a := by
  unfold required
  cases fields.lookup name <;> simp

theorem withDefault_eq_ok {default a : α} :
    fields.withDefault name default decode = .ok a ↔
      (∃ d, fields.lookup name = some d ∧ decode d = .ok a) ∨
        fields.lookup name = none ∧ a = default := by
  unfold withDefault
  cases fields.lookup name <;> simp [eq_comm]

theorem optional_eq_ok {value : Option α} (h : fields.lookup name = value.map encode)
    (hdecode : ∀ a, decode (encode a) = .ok a) (habsent : ∀ a, encode a ≠ .absent) :
    fields.optional name decode = .ok value := by
  cases value with
  | none => rw [optional, withDefault, h, Option.map_none]
  | some a =>
    have hsome : Datum.asOption decode (encode a) = .ok (some a) := by
      rw [Datum.asOption, hdecode]
      · rfl
      · exact habsent a
    rw [optional, withDefault_eq h, hsome]

theorem withDefault_list {items : List α}
    (h : fields.lookup name = if items ≠ [] then some (.list (items.map encode)) else none)
    (hdecode : ∀ a, decode (encode a) = .ok a) :
    fields.withDefault name [] (Datum.asList decode) = .ok items := by
  by_cases hitems : items = []
  · rw [if_neg (by simp [hitems])] at h
    rw [withDefault, h, hitems]
  · rw [if_pos hitems] at h
    rw [withDefault_eq h, Datum.asList_map fun a _ => hdecode a]

theorem withDefault_text_eq_ok {default value : String} :
    fields.withDefault name default Datum.asText = .ok value ↔
      fields.lookup name = some (.text value) ∨ fields.lookup name = none ∧ value = default := by
  simp only [withDefault_eq_ok, Datum.asText_eq_ok, exists_eq_right]

theorem optional_text_eq_ok (hpresent : fields.lookup name ≠ some .absent)
    {value : Option String} :
    fields.optional name Datum.asText = .ok value ↔ fields.lookup name = value.map .text := by
  constructor
  · intro h
    rw [optional, withDefault_eq_ok] at h
    rcases h with ⟨d, hd, hvalue⟩ | ⟨hnone, rfl⟩
    · rcases Datum.asOption_eq_ok.mp hvalue with ⟨rfl, -⟩ | ⟨-, s, rfl, hs⟩
      · exact absurd hd hpresent
      · rw [hd, Datum.asText_eq_ok.mp hs, Option.map_some]
    · exact hnone
  · intro h
    exact optional_eq_ok h (fun _ => rfl) (by simp)

end Fields

end InventoryTokens
