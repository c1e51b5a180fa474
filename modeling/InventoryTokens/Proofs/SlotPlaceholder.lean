import InventoryTokens.Proofs.Double.Rounding
import InventoryTokens.Proofs.Grid
import InventoryTokens.Registry

/-!
# What the slot placeholder accepts and answers

The schema compares doubles and the placeholder compares integers; both draw the line at the same
slots.  Behind the schema the placeholder always has an answer, and the answer depends on nothing
but the slot and the grid that is shown for the player.  A direct call goes past the schema and is
answered more often, never otherwise.
-/

namespace InventoryTokens.SlotPlaceholder

/-- What a player is shown for a slot: nothing without a grid, and air where the grid is empty. -/
def shown (player : Option Player) (inventories : Provider) (slot : Slot) : Option Stack :=
  (player.bind inventories).map fun view => (view.slots.get slot).getD .air

/-- The arguments of a call for a slot: one whole number, the index of the slot. -/
def Asks (arguments : List Argument) (slot : Slot) : Prop :=
  ∃ w : Int64, arguments = [.whole w] ∧ w.toInt = slot.val

/-- The index of a slot as an argument. -/
def argument (slot : Slot) : Argument := .whole (Int64.ofInt slot.val)

theorem asks_argument (slot : Slot) : Asks [argument slot] slot :=
  ⟨Int64.ofInt slot.val, rfl, Slot.toInt_ofInt_val slot⟩

/-- The one parameter of the one overload. -/
def parameter : Parameter where
  name := "slot"
  kind := .int
  minimum := some (.ofInt 0)
  maximum := some (.ofInt (gridSize - 1))

theorem schema_eq : schema = ⟨[[parameter]]⟩ := rfl

/-- Bounds of doubles and of integers agree on every 64-bit word. -/
theorem inRange_iff (w : Int64) :
    parameter.inRange (.ofInt w.toInt) = true ↔ ∃ slot : Slot, w.toInt = slot.val := by
  rw [Parameter.inRange, parameter, Option.all_some, Option.all_some,
    Double.atMost_ofInt (Or.inl (by decide)), Double.atMost_ofInt (Or.inr (by decide)),
    Bool.and_eq_true, decide_eq_true_eq, decide_eq_true_eq]
  constructor
  · rintro ⟨h₀, h₁⟩
    exact ⟨⟨w.toInt.toNat, by omega⟩, (Int.toNat_of_nonneg h₀).symm⟩
  · rintro ⟨slot, hslot⟩
    have hlt := slot.isLt
    omega

theorem accepts_eq (argument : Argument) : parameter.accepts argument =
    argument.asWhole?.any fun w => parameter.inRange (.ofInt w.toInt) := rfl

theorem accepts_iff (argument : Argument) :
    parameter.accepts argument = true ↔ ∃ slot, Asks [argument] slot := by
  rw [accepts_eq]
  cases argument with
  | whole w =>
    rw [Argument.asWhole?, Option.any_some, inRange_iff]
    simp [Asks]
  | number | text | flag => simp [Argument.asWhole?, Asks]

/-- An overload of one parameter takes one argument. -/
theorem overload_accepts_iff (p : Parameter) (arguments : List Argument) :
    Overload.accepts [p] arguments = true ↔ ∃ a, arguments = [a] ∧ p.accepts a = true := by
  match arguments with
  | [] => simp [Overload.accepts]
  | [a] => simp [Overload.accepts]
  | _ :: _ :: _ => simp [Overload.accepts]

theorem schema_validate?_eq (p : Parameter) (arguments : List Argument) :
    Schema.validate? ⟨[[p]]⟩ arguments =
      if Overload.accepts [p] arguments then some 0 else none := by
  simp [Schema.validate?, Schema.matching?, List.findIdx?_cons]

/-- The schema accepts the calls for a slot and no others, always with overload zero. -/
theorem validate?_eq_some {arguments : List Argument} {overload : Nat} :
    schema.validate? arguments = some overload ↔ overload = 0 ∧ ∃ slot, Asks arguments slot := by
  have haccepts : Overload.accepts [parameter] arguments = true ↔ ∃ slot, Asks arguments slot := by
    rw [overload_accepts_iff]
    constructor
    · rintro ⟨a, rfl, ha⟩
      exact (accepts_iff a).mp ha
    · rintro ⟨slot, w, rfl, hw⟩
      exact ⟨.whole w, rfl, (accepts_iff _).mpr ⟨slot, w, rfl, hw⟩⟩
  rw [schema_eq, schema_validate?_eq, ← haccepts]
  split
  · rename_i h
    rw [Option.some.injEq, and_iff_left h, eq_comm]
  · rename_i h
    exact ⟨fun he => absurd he (by simp), fun he => absurd he.2 h⟩

theorem validate?_eq_none {arguments : List Argument} :
    schema.validate? arguments = none ↔ ¬∃ slot, Asks arguments slot := by
  rw [Option.eq_none_iff_forall_ne_some]
  simp only [ne_eq, validate?_eq_some, not_and, forall_eq]

/-- The first argument decides which slot is addressed; the others are not looked at. -/
theorem slotArgument_eq_ok {arguments : List Argument} {slot : Slot} :
    slotArgument arguments = .ok slot ↔
      ∃ first rest, arguments = first :: rest ∧ Asks [first] slot := by
  cases arguments with
  | nil => simp [slotArgument]
  | cons first rest =>
    have hasks : (∃ f r, first :: rest = f :: r ∧ Asks [f] slot) ↔ Asks [first] slot := by simp
    rw [hasks, slotArgument]
    cases first with
    | whole w =>
      have hw : Asks [.whole w] slot ↔ w.toInt = slot.val := by simp [Asks]
      rw [hw, ← Slot.ofIndex_eq_ok, Argument.asWhole?]
      cases h : Slot.ofIndex w.toInt <;> simp [h]
    | number | text | flag => simp [Argument.asWhole?, Asks]

/-- A call for a slot is answered by what the grid shows there; the way from the slot to its
coordinate and back loses nothing. -/
theorem value_resolve {arguments : List Argument} {slot : Slot} (h : Asks arguments slot)
    (player : Option Player) (inventories : Provider) :
    (resolve player inventories arguments).value = .ok (shown player inventories slot) := by
  cases player with
  | none => rfl
  | some player =>
    have hslot : slotArgument arguments = .ok slot := by
      obtain ⟨w, rfl, hw⟩ := h
      exact slotArgument_eq_ok.mpr ⟨.whole w, [], rfl, w, rfl, hw⟩
    simp only [resolve, hslot, shown, Option.bind_some]
    cases inventories player with
    | none => rfl
    | some view =>
      have hget : view.slots.get slot = view.slots[slot] := rfl
      simp [GridView.peek, hget]

theorem get?_name : Registry.withDefaults.get? name = some placeholder := by
  simp [Registry.get?, Registry.withDefaults, Registry.put, Table.find?_insert, placeholder]

/-- A call for a slot passes the schema, and the placeholder answers it as if called directly. -/
theorem dispatch_of_asks {arguments : List Argument} (h : ∃ slot, Asks arguments slot)
    (player : Option Player) (inventories : Provider) :
    Registry.withDefaults.dispatch name player inventories arguments =
      resolve player inventories arguments := by
  have hschema : placeholder.schema = schema := rfl
  have hvalid := validate?_eq_some.mpr ⟨rfl, h⟩
  simp only [Registry.dispatch, get?_name, Registry.validate, hschema, hvalid]
  rfl

/-- Any other call is refused for its shape, and the placeholder does not run. -/
theorem value_dispatch_of_not_asks {arguments : List Argument} (h : ¬∃ slot, Asks arguments slot)
    (player : Option Player) (inventories : Provider) :
    (Registry.withDefaults.dispatch name player inventories arguments).value =
      .error (.noMatchingOverload name arguments.length (schema.usage name)) := by
  have hschema : placeholder.schema = schema := rfl
  have hvalid := validate?_eq_none.mpr h
  simp only [Registry.dispatch, get?_name, Registry.validate, hschema, hvalid]
  rfl

/-- Dispatch answers the calls for a slot and refuses all others for their shape. -/
theorem value_dispatch (player : Option Player) (inventories : Provider)
    (arguments : List Argument) :
    (∃ slot, Asks arguments slot ∧
      (Registry.withDefaults.dispatch name player inventories arguments).value =
        .ok (shown player inventories slot)) ∨
    ((¬∃ slot, Asks arguments slot) ∧
      (Registry.withDefaults.dispatch name player inventories arguments).value =
        .error (.noMatchingOverload name arguments.length (schema.usage name))) := by
  by_cases hasks : ∃ slot, Asks arguments slot
  · have hdispatch := dispatch_of_asks hasks player inventories
    obtain ⟨slot, hslot⟩ := hasks
    exact Or.inl ⟨slot, hslot, by rw [hdispatch, value_resolve hslot]⟩
  · exact Or.inr ⟨hasks, value_dispatch_of_not_asks hasks player inventories⟩

theorem isOk_dispatch (player : Option Player) (inventories : Provider)
    (arguments : List Argument) :
    (Registry.withDefaults.dispatch name player inventories arguments).value.isOk = true ↔
      ∃ slot, Asks arguments slot := by
  rcases value_dispatch player inventories arguments with ⟨slot, hslot, hvalue⟩ | ⟨hnone, hvalue⟩
  · rw [hvalue]
    exact iff_of_true rfl ⟨slot, hslot⟩
  · rw [hvalue]
    exact iff_of_false (by simp [Except.isOk, Except.toBool]) hnone

/-- Called directly, the placeholder looks at no argument but the first, and at none without a
player. -/
theorem isOk_resolve (player : Option Player) (inventories : Provider)
    (arguments : List Argument) :
    (resolve player inventories arguments).value.isOk = true ↔
      player = none ∨ ∃ first rest slot, arguments = first :: rest ∧ Asks [first] slot := by
  cases player with
  | none => exact iff_of_true rfl (Or.inl rfl)
  | some player =>
    rw [or_iff_right (Option.some_ne_none player)]
    simp only [exists_comm (α := List Argument) (β := Slot),
      exists_comm (α := Argument) (β := Slot), ← slotArgument_eq_ok, resolve]
    cases slotArgument arguments with
    | error cause => exact iff_of_false (by simp [Except.isOk, Except.toBool]) (by simp)
    | ok slot => cases inventories player <;> exact iff_of_true rfl ⟨slot, rfl⟩

/-- A direct call for a slot that is no call for the schema has more arguments than it looks at. -/
theorem exists_second_of_not_asks {arguments : List Argument} :
    ((∃ first rest slot, arguments = first :: rest ∧ Asks [first] slot) ∧
        ¬∃ slot, Asks arguments slot) ↔
      ∃ first second rest slot, arguments = first :: second :: rest ∧ Asks [first] slot := by
  constructor
  · rintro ⟨⟨first, rest, slot, rfl, hslot⟩, hnone⟩
    cases rest with
    | nil => exact absurd ⟨slot, hslot⟩ hnone
    | cons second rest => exact ⟨first, second, rest, slot, rfl, hslot⟩
  · rintro ⟨first, second, rest, slot, rfl, hslot⟩
    exact ⟨⟨first, second :: rest, slot, rfl, hslot⟩, by simp [Asks]⟩

/-- A call behind the schema and a direct call.  Behind the schema no error is left but that of the
shape, and an answer is the answer of the direct call, with the same events.  With a player and at
most one argument either both answer or neither.  Where they part it is the direct call that
answers, for want of a player or because it looks at the first argument only. -/
theorem dispatch_against_resolve (player : Option Player) (inventories : Provider)
    (arguments : List Argument) :
    let dispatched := Registry.withDefaults.dispatch name player inventories arguments
    let direct := resolve player inventories arguments
    (∀ cause, dispatched.value = .error cause →
      cause = .noMatchingOverload name arguments.length (schema.usage name)) ∧
    (∀ answer, dispatched.value = .ok answer → dispatched = direct) ∧
    (player ≠ none → arguments.length ≤ 1 → dispatched.value.isOk = direct.value.isOk) ∧
    (dispatched.value.isOk ≠ direct.value.isOk → direct.value.isOk = true) ∧
    (dispatched.value.isOk ≠ direct.value.isOk ↔
      (player = none ∧ ¬∃ slot, Asks arguments slot) ∨
      (player ≠ none ∧ ∃ first second rest slot,
        arguments = first :: second :: rest ∧ Asks [first] slot)) := by
  intro dispatched direct
  have hdispatched : dispatched.value.isOk = true ↔ ∃ slot, Asks arguments slot :=
    isOk_dispatch player inventories arguments
  have hsame : (∃ slot, Asks arguments slot) → dispatched = direct := fun h =>
    dispatch_of_asks h player inventories
  have hpart : dispatched.value.isOk ≠ direct.value.isOk ↔
      direct.value.isOk = true ∧ ¬∃ slot, Asks arguments slot := by
    by_cases hasks : ∃ slot, Asks arguments slot
    · simp [hsame hasks, hasks]
    · have hrefused : dispatched.value.isOk = false := by
        rw [← Bool.not_eq_true, hdispatched]
        exact hasks
      rw [hrefused, and_iff_left hasks, ne_comm, Bool.ne_false_iff]
  have hregion : dispatched.value.isOk ≠ direct.value.isOk ↔
      (player = none ∧ ¬∃ slot, Asks arguments slot) ∨
      (player ≠ none ∧ ∃ first second rest slot,
        arguments = first :: second :: rest ∧ Asks [first] slot) := by
    rw [hpart, isOk_resolve, ← exists_second_of_not_asks]
    by_cases hplayer : player = none <;> simp [hplayer]
  refine ⟨fun cause hcause => ?_, fun answer hanswer => ?_, fun hplayer hlength => ?_,
    fun h => (hpart.mp h).1, hregion⟩
  · have hnone : ¬∃ slot, Asks arguments slot := by
      rw [← hdispatched, hcause]
      simp [Except.isOk, Except.toBool]
    have hvalue := value_dispatch_of_not_asks hnone player inventories
    rw [show dispatched.value = _ from hvalue, Except.error.injEq] at hcause
    exact hcause.symm
  · exact hsame (hdispatched.mp (by rw [hanswer]; rfl))
  · by_contra hne
    rcases hregion.mp hne with ⟨hnone, -⟩ | ⟨-, first, second, rest, slot, rfl, -⟩
    · exact hplayer hnone
    · simp at hlength

/-- A second argument is refused by the schema, and not looked at in a direct call; an argument
outside of the grid is refused by both. -/
theorem dispatch_second_argument :
    (Registry.withDefaults.dispatch name (some ⟨1, "Steve"⟩) (fun _ => none)
        [.whole 13, .flag true]).value.isOk ≠
      (resolve (some ⟨1, "Steve"⟩) (fun _ => none) [.whole 13, .flag true]).value.isOk ∧
    (Registry.withDefaults.dispatch name (some ⟨1, "Steve"⟩) (fun _ => none)
        [.whole 45]).value.isOk =
      (resolve (some ⟨1, "Steve"⟩) (fun _ => none) [.whole 45]).value.isOk := by
  have hasks : Asks [.whole 13] 13 := ⟨13, rfl, by decide⟩
  obtain ⟨-, -, -, -, hpart⟩ :=
    dispatch_against_resolve (some ⟨1, "Steve"⟩) (fun _ => none) [.whole 13, .flag true]
  obtain ⟨-, -, hagree, -, -⟩ :=
    dispatch_against_resolve (some ⟨1, "Steve"⟩) (fun _ => none) [.whole 45]
  exact ⟨hpart.mpr (Or.inr ⟨by simp, _, _, _, 13, rfl, hasks⟩), hagree (by simp) (by simp)⟩

end InventoryTokens.SlotPlaceholder
