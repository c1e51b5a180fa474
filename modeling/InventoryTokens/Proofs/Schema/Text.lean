import InventoryTokens.Proofs.Decode
import InventoryTokens.Proofs.Dispatch
import InventoryTokens.Proofs.Json.Whole
import InventoryTokens.Proofs.Parameter

/-!
# Schemas as texts

A bound that is not finite is written as nothing, and read as a bound that is not there.  Apart from
that the text of a schema is read as the schema, provided that the finite bounds are read back from
their own texts.
-/

namespace InventoryTokens

theorem Kind.decode_text (kind : Kind) : decode (.text kind.text) = .ok kind := by
  cases kind <;> rfl

/-- A bound that is not finite is written as nothing. -/
theorem Fields.optional_writtenNumber {fields : Fields} {name : String} {bound : Option Double}
    (h : fields.lookup name = bound.map Json.writtenNumber) :
    fields.optional name Datum.asDouble = .ok (bound.filter Double.isFinite) := by
  cases bound with
  | none => rw [optional, withDefault, h, Option.map_none, Option.filter_none]
  | some x =>
    rw [optional, withDefault_eq h]
    by_cases hx : x.isFinite = true
    · rw [Json.writtenNumber, if_pos hx, Option.filter_some_pos hx, Datum.asOption, Datum.asDouble,
        if_pos hx]
      · rfl
      · simp
    · rw [Json.writtenNumber, if_neg hx, Option.filter_some_neg (by simpa using hx), Datum.asOption]

namespace Parameter

/-- The parameter without those bounds that are not finite. -/
def withFiniteBounds (p : Parameter) : Parameter :=
  { p with
    minimum := p.minimum.filter Double.isFinite
    maximum := p.maximum.filter Double.isFinite }

/-- The members of a parameter, as a text holds them. -/
def members (p : Parameter) : Fields :=
  [("name", .text p.name), ("type", .text p.kind.text)] ++
    Datum.member? "minimum" Json.writtenNumber p.minimum ++
    Datum.member? "maximum" Json.writtenNumber p.maximum

theorem names_members (p : Parameter) :
    (p.members.map Prod.fst).Sublist ["name", "type", "minimum", "maximum"] := by
  rw [members, List.map_append, List.map_append]
  exact ((List.Sublist.refl ["name", "type"]).append (Datum.names_member? ..)).append
    (Datum.names_member? ..)

theorem decode_members (surplus : Surplus) (p : Parameter) :
    decode surplus (.record p.members) = .ok p.withFiniteBounds := by
  have hname : p.members.required "name" Datum.asText = .ok p.name := by
    rw [Fields.required_eq (d := .text p.name) (by simp [members]), Datum.asText]
  have hkind : p.members.required "type" Kind.decode = .ok p.kind := by
    rw [Fields.required_eq (d := .text p.kind.text) (by simp [members, Table.lookup_cons_eq]),
      p.kind.decode_text]
  have hminimum : p.members.optional "minimum" Datum.asDouble =
      .ok (p.minimum.filter Double.isFinite) := by
    apply Fields.optional_writtenNumber
    simp [members, Table.lookup_cons_eq, List.lookup_append]
  have hmaximum : p.members.optional "maximum" Datum.asDouble =
      .ok (p.maximum.filter Double.isFinite) := by
    apply Fields.optional_writtenNumber
    simp [members, Table.lookup_cons_eq, List.lookup_append]
  have hfields := Datum.fields_record (by decide) p.names_members surplus
  simp only [decode, except_bind_eq_ok]
  exact ⟨_, hfields, _, hname, _, hkind, _, hminimum, _, hmaximum, rfl⟩

theorem readsBack_members {p : Parameter}
    (h : ∀ x, p.HasBound x → x.isFinite = true → Json.Keeps x) :
    Json.ReadsBack (.record p.members) := by
  refine Json.readsBack_record fun member hmember => ?_
  simp only [members, List.mem_append, List.mem_cons, List.not_mem_nil, or_false,
    Datum.mem_member?] at hmember
  obtain ((rfl | rfl) | ⟨low, hlow, rfl⟩) | ⟨high, hhigh, rfl⟩ := hmember
  · exact Json.readsBack_text p.name
  · exact Json.readsBack_text p.kind.text
  · exact Json.readsBack_writtenNumber (h low (Or.inl hlow))
  · exact Json.readsBack_writtenNumber (h high (Or.inr hhigh))

/-- The text does not tell a bound that is not finite from one that is written as nothing. -/
theorem chars_encode (p : Parameter) : Json.chars p.encode = Json.chars (.record p.members) := by
  have hbound : ∀ (name : String) (bound : Option Double),
      List.Forall₂ (fun m n => Json.charsMember m = Json.charsMember n)
        (Datum.member? name .number bound) (Datum.member? name Json.writtenNumber bound) := by
    intro name bound
    cases bound with
    | none => exact .nil
    | some x =>
      refine .cons ?_ .nil
      rw [Json.charsMember, Json.charsMember, Json.chars_writtenNumber]
  exact Json.chars_record_congr (.cons rfl (.cons rfl
    (List.rel_append (hbound "minimum" p.minimum) (hbound "maximum" p.maximum))))

theorem sameBound_filter (bound : Option Double) :
    sameBound bound (bound.filter Double.isFinite) = true ↔ ∀ x ∈ bound, x.isFinite = true := by
  cases bound with
  | none => simp [sameBound]
  | some x =>
    by_cases hx : x.isFinite = true
    · have hself := Double.equal_eq (Double.order?_eq hx) (Double.order?_eq hx)
      simp [sameBound, Option.filter_some_pos hx, hself, hx]
    · simp [sameBound, hx]

/-- A parameter is equal to itself without bounds that are not finite only if it has none. -/
theorem same_withFiniteBounds (p : Parameter) :
    p.same p.withFiniteBounds = true ↔ ∀ x, p.HasBound x → x.isFinite = true := by
  simp only [same, withFiniteBounds, decide_true, Bool.true_and, Bool.and_eq_true,
    sameBound_filter, HasBound, or_imp, forall_and]

theorem withFiniteBounds_eq_self {p : Parameter} (h : ∀ x, p.HasBound x → x.isFinite = true) :
    p.withFiniteBounds = p := by
  have hkept : ∀ bound : Option Double, (∀ x ∈ bound, x.isFinite = true) →
      bound.filter Double.isFinite = bound := by
    intro bound hbound
    cases bound with
    | none => rfl
    | some x => exact Option.filter_some_pos (hbound x rfl)
  rw [withFiniteBounds, hkept p.minimum fun x hx => h x (Or.inl hx),
    hkept p.maximum fun x hx => h x (Or.inr hx)]

end Parameter

namespace Schema

/-- A double is a bound of some parameter. -/
def HasBound (s : Schema) (x : Double) : Prop :=
  ∃ overload ∈ s.overloads, ∃ p ∈ overload, p.HasBound x

/-- The schema without those bounds that are not finite. -/
def withFiniteBounds (s : Schema) : Schema :=
  ⟨s.overloads.map (List.map Parameter.withFiniteBounds)⟩

/-- The members of a schema, as a text holds them. -/
def members (s : Schema) : Fields :=
  [("overloads", .list (s.overloads.map fun overload =>
    .list (overload.map fun p => .record p.members)))]

theorem names_members (s : Schema) : (s.members.map Prod.fst).Sublist ["overloads"] :=
  List.Sublist.refl ["overloads"]

theorem decode_members (surplus : Surplus) (s : Schema) :
    decode surplus (.record s.members) = .ok s.withFiniteBounds := by
  have hoverload : ∀ overload ∈ s.overloads,
      Datum.asList (Parameter.decode surplus) (.list (overload.map fun p => .record p.members)) =
        .ok (overload.map Parameter.withFiniteBounds) :=
    fun overload _ => Datum.asList_map_eq fun p _ => p.decode_members surplus
  have hoverloads : s.members.withDefault "overloads" []
      (Datum.asList (Datum.asList (Parameter.decode surplus))) =
        .ok s.withFiniteBounds.overloads := by
    rw [members, Fields.withDefault_eq List.lookup_cons_self, Datum.asList_map_eq hoverload,
      withFiniteBounds]
  have hfields := Datum.fields_record (by decide) s.names_members surplus
  simp only [decode, except_bind_eq_ok]
  exact ⟨_, hfields, _, hoverloads, rfl⟩

theorem readsBack_members {s : Schema}
    (h : ∀ x, s.HasBound x → x.isFinite = true → Json.Keeps x) :
    Json.ReadsBack (.record s.members) := by
  refine Json.readsBack_record fun member hmember => ?_
  obtain rfl := List.mem_singleton.mp hmember
  refine Json.readsBack_list fun item hitem => ?_
  obtain ⟨overload, hoverload, rfl⟩ := List.mem_map.mp hitem
  refine Json.readsBack_list fun item hitem => ?_
  obtain ⟨p, hp, rfl⟩ := List.mem_map.mp hitem
  exact Parameter.readsBack_members fun x hx => h x ⟨overload, hoverload, p, hp, hx⟩

theorem write_encode (s : Schema) : Json.write s.encode = Json.write (.record s.members) := by
  have hoverload : ∀ overload : Overload, Json.chars (.list (overload.map Parameter.encode)) =
      Json.chars (.list (overload.map fun p => .record p.members)) :=
    fun overload => Json.chars_list_congr (List.forall₂_map_left_iff.mpr
      (List.forall₂_map_right_iff.mpr (List.forall₂_same.mpr fun p _ => p.chars_encode)))
  have hoverloads : Json.chars (.list (s.overloads.map fun overload =>
      .list (overload.map Parameter.encode))) =
      Json.chars (.list (s.overloads.map fun overload =>
        .list (overload.map fun p => .record p.members))) :=
    Json.chars_list_congr (List.forall₂_map_left_iff.mpr (List.forall₂_map_right_iff.mpr
      (List.forall₂_same.mpr fun overload _ => hoverload overload)))
  rw [Json.write, Json.write, encode, members]
  congr 1
  apply Json.chars_record_congr
  refine .cons ?_ .nil
  rw [Json.charsMember, Json.charsMember, hoverloads]

theorem readAs_write {s : Schema} (h : ∀ x, s.HasBound x → x.isFinite = true → Json.Keeps x)
    (surplus : Surplus) :
    Json.readAs (decode surplus) (Json.write s.encode) = .ok s.withFiniteBounds := by
  rw [Json.readAs, write_encode, Json.read?_write (readsBack_members h)]
  exact s.decode_members surplus

/-- Schemas are equal exactly if their parameters are, one by one. -/
theorem same_eq_true {s t : Schema} :
    s.same t = true ↔
      List.Forall₂ (List.Forall₂ fun p q => p.same q = true) s.overloads t.overloads := by
  have hoverload : ∀ a b : Overload,
      Overload.same a b = true ↔ List.Forall₂ (fun p q => p.same q = true) a b :=
    fun a b => zip_all_eq_true
  rw [same, zip_all_eq_true]
  simp only [hoverload]

/-- A schema is equal to itself without bounds that are not finite only if it has none. -/
theorem same_withFiniteBounds (s : Schema) :
    s.same s.withFiniteBounds = true ↔ ∀ x, s.HasBound x → x.isFinite = true := by
  rw [same_eq_true, withFiniteBounds]
  simp only [List.forall₂_map_right_iff, List.forall₂_same, Parameter.same_withFiniteBounds]
  constructor
  · intro h x hx
    obtain ⟨overload, hoverload, p, hp, hx⟩ := hx
    exact h overload hoverload p hp x hx
  · intro h overload hoverload p hp x hx
    exact h x ⟨overload, hoverload, p, hp, hx⟩

theorem withFiniteBounds_eq_self {s : Schema} (h : ∀ x, s.HasBound x → x.isFinite = true) :
    s.withFiniteBounds = s := by
  have hoverload : ∀ overload ∈ s.overloads,
      overload.map Parameter.withFiniteBounds = overload := by
    intro overload hmem
    have hparameter : ∀ p ∈ overload, p.withFiniteBounds = p := fun p hp =>
      Parameter.withFiniteBounds_eq_self fun x hx => h x ⟨overload, hmem, p, hp, hx⟩
    rw [List.map_congr_left hparameter, List.map_id']
  rw [withFiniteBounds, List.map_congr_left hoverload, List.map_id']

/-- The text of every schema is read.  What is read is the schema without those bounds that are not
finite, which is equal to the schema exactly if all its bounds are finite; then it chooses and shows
the same overloads. -/
theorem readAs_write_encode {s : Schema}
    (h : ∀ x, s.HasBound x → x.isFinite = true → Json.Keeps x) :
    ∃ again, Json.readAs (decode .refused) (Json.write s.encode) = .ok again ∧
      again = s.withFiniteBounds ∧
      (s.same again = true ↔ ∀ x, s.HasBound x → x.isFinite = true) ∧
      ((∀ x, s.HasBound x → x.isFinite = true) →
        again = s ∧ (∀ arguments, again.matching? arguments = s.matching? arguments) ∧
          ∀ name, again.usage name = s.usage name) := by
  refine ⟨s.withFiniteBounds, readAs_write h .refused, rfl, s.same_withFiniteBounds, ?_⟩
  intro hfinite
  rw [withFiniteBounds_eq_self hfinite]
  exact ⟨rfl, fun _ => rfl, fun _ => rfl⟩

/-- A slot, or a share from a half on with a largest one that is undefined. -/
def slotOrShare : Schema :=
  ⟨[[⟨"slot", .int, some (.ofInt 0), some (.ofInt 44)⟩],
    [⟨"\"share\"", .number, some (.ofDecimal false ⟨5, -1⟩), some .nan⟩]]⟩

theorem slotOrShare_bound {x : Double} :
    slotOrShare.HasBound x ↔
      x = .ofInt 0 ∨ x = .ofInt 44 ∨ x = .ofDecimal false ⟨5, -1⟩ ∨ x = .nan := by
  simp [slotOrShare, HasBound, Parameter.HasBound, or_assoc, eq_comm (b := x)]

/-- Only the undefined bound is lost, and that is a loss. -/
theorem readAs_write_slotOrShare :
    Json.readAs (decode .refused) (Json.write slotOrShare.encode) =
      .ok ⟨[[⟨"slot", .int, some (.ofInt 0), some (.ofInt 44)⟩],
        [⟨"\"share\"", .number, some (.ofDecimal false ⟨5, -1⟩), none⟩]]⟩ ∧
    slotOrShare.same slotOrShare.withFiniteBounds ≠ true := by
  have hkeeps : ∀ x, slotOrShare.HasBound x → x.isFinite = true → Json.Keeps x := by
    intro x hx hfinite
    rcases slotOrShare_bound.mp hx with h | h | h | h
    · exact h ▸ Json.keeps_ofInt (by decide)
    · exact h ▸ Json.keeps_ofInt (by decide)
    · rw [h]
      decide +kernel
    · rw [h] at hfinite
      cases hfinite
  obtain ⟨again, hread, rfl, hsame, -⟩ := readAs_write_encode hkeeps
  refine ⟨hread.trans (by decide +kernel), fun he => ?_⟩
  have hfinite := hsame.mp he .nan (slotOrShare_bound.mpr (Or.inr (Or.inr (Or.inr rfl))))
  cases hfinite

end Schema

end InventoryTokens
