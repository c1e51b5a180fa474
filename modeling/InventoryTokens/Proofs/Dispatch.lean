import InventoryTokens.Proofs.Registry
import Mathlib.Data.List.Forall2

/-!
# Calls behind a schema

A schema chooses the first overload that has as many parameters as there are arguments and accepts
them one by one.  A placeholder runs exactly if one is chosen, with the arguments as they came and
the number of the overload; without a choice the call is refused and the outcome does not depend on
how the placeholder resolves.  Which arguments a single parameter accepts is not looked into here.
-/

namespace InventoryTokens

/-- There is a parameter for each argument, and it accepts the argument. -/
def Overload.Fits (overload : Overload) (arguments : List Argument) : Prop :=
  List.Forall₂ (fun p a => p.accepts a = true) overload arguments

/-- Two lists are compared as a whole: they are equally long, and each item fits the one at its
place. -/
theorem zip_all_eq_true {α β : Type} {fits : α → β → Bool} {as : List α} {bs : List β} :
    (as.length = bs.length && (as.zip bs).all fun (a, b) => fits a b) = true ↔
      List.Forall₂ (fun a b => fits a b = true) as bs := by
  rw [Bool.and_eq_true, decide_eq_true_eq, List.forall₂_iff_zip]
  apply and_congr_right
  intro hlength
  rw [List.all_eq_true]
  exact ⟨fun h a b hmem => h (a, b) hmem, fun h pair hmem => h hmem⟩

theorem Overload.accepts_eq_true {overload : Overload} {arguments : List Argument} :
    overload.accepts arguments = true ↔ overload.Fits arguments :=
  zip_all_eq_true

namespace Schema

/-- What a schema chooses for arguments: the smallest number of an overload that they fit, and zero
if there are no overloads. -/
inductive Chooses (schema : Schema) (arguments : List Argument) : Nat → Prop
  | unchecked (none : schema.overloads = []) : Chooses schema arguments 0
  | first {number : Nat} (lt : number < schema.overloads.length)
    (fits : schema.overloads[number].Fits arguments)
    (least : ∀ (before : Nat) (h : before < number), ¬schema.overloads[before].Fits arguments) :
    Chooses schema arguments number

variable {schema : Schema} {arguments : List Argument}

theorem matching?_eq_some {number : Nat} :
    schema.matching? arguments = some number ↔
      ∃ lt : number < schema.overloads.length, schema.overloads[number].Fits arguments ∧
        ∀ (before : Nat) (h : before < number), ¬schema.overloads[before].Fits arguments := by
  simp only [matching?, List.findIdx?_eq_some_iff_getElem, Overload.accepts_eq_true]

/-- Some overload matches exactly if the arguments fit one. -/
theorem exists_matching?_iff :
    (∃ number, schema.matching? arguments = some number) ↔
      ∃ overload ∈ schema.overloads, overload.Fits arguments := by
  rw [← Option.isSome_iff_exists, matching?, List.findIdx?_isSome, List.any_eq_true]
  simp only [Overload.accepts_eq_true]

theorem validate?_of_fits (h : ∃ overload ∈ schema.overloads, overload.Fits arguments) :
    schema.validate? arguments = schema.matching? arguments := by
  obtain ⟨overload, hmem, -⟩ := h
  rw [validate?, if_neg]
  rw [List.isEmpty_iff]
  exact List.ne_nil_of_mem hmem

theorem validate?_eq_some_iff {number : Nat} :
    schema.validate? arguments = some number ↔ schema.Chooses arguments number := by
  by_cases hnone : schema.overloads = []
  · rw [validate?, if_pos (List.isEmpty_iff.mpr hnone), Option.some.injEq]
    constructor
    · rintro rfl
      exact .unchecked hnone
    · intro h
      cases h with
      | unchecked => rfl
      | first lt => simp [hnone] at lt
  · rw [validate?, if_neg (by rwa [List.isEmpty_iff]), matching?_eq_some]
    constructor
    · rintro ⟨lt, fits, least⟩
      exact .first lt fits least
    · intro h
      cases h with
      | unchecked h => exact absurd h hnone
      | first lt fits least => exact ⟨lt, fits, least⟩

/-- An overload is chosen exactly if there is none or the arguments fit one. -/
theorem exists_chooses_iff :
    (∃ number, schema.Chooses arguments number) ↔
      schema.overloads = [] ∨ ∃ overload ∈ schema.overloads, overload.Fits arguments := by
  simp only [← validate?_eq_some_iff]
  by_cases hnone : schema.overloads = []
  · rw [validate?, if_pos (List.isEmpty_iff.mpr hnone)]
    exact iff_of_true ⟨0, rfl⟩ (Or.inl hnone)
  · rw [validate?, if_neg (by rwa [List.isEmpty_iff]), exists_matching?_iff, or_iff_right hnone]

theorem validate?_eq_none_iff :
    schema.validate? arguments = none ↔ ¬∃ number, schema.Chooses arguments number := by
  simp only [Option.eq_none_iff_forall_ne_some, ne_eq, validate?_eq_some_iff, not_exists]

theorem usage_of_ne_nil (h : schema.overloads ≠ []) (name : String) :
    schema.usage name = " | ".intercalate (schema.overloads.map (Overload.usage name)) := by
  rw [usage, if_neg (by rwa [List.isEmpty_iff])]

/-- Overloads after one that fits are not reached. -/
theorem validate?_append (h : ∃ overload ∈ schema.overloads, overload.Fits arguments)
    (more : List Overload) :
    (Schema.mk (schema.overloads ++ more)).validate? arguments = schema.validate? arguments := by
  obtain ⟨number, hnumber⟩ := exists_matching?_iff.mpr h
  obtain ⟨overload, hmem, hfits⟩ := h
  have hlonger : ∃ overload ∈ (Schema.mk (schema.overloads ++ more)).overloads,
      overload.Fits arguments := ⟨overload, List.mem_append_left more hmem, hfits⟩
  rw [validate?_of_fits hlonger, validate?_of_fits ⟨overload, hmem, hfits⟩, hnumber]
  rw [matching?] at hnumber
  rw [matching?, List.findIdx?_append, hnumber, Option.some_or]

/-- Overloads in front that do not fit are passed over, and the others move up by their number. -/
theorem validate?_prepend (h : ∃ overload ∈ schema.overloads, overload.Fits arguments)
    {before : List Overload} (hbefore : ∀ overload ∈ before, ¬overload.Fits arguments) :
    (Schema.mk (before ++ schema.overloads)).validate? arguments =
      (schema.validate? arguments).map (before.length + ·) := by
  have hnone : before.findIdx? (fun overload => overload.accepts arguments) = none := by
    rw [List.findIdx?_eq_none_iff]
    intro overload hmem
    rw [← Bool.not_eq_true, Overload.accepts_eq_true]
    exact hbefore overload hmem
  obtain ⟨overload, hmem, hfits⟩ := h
  have hlonger : ∃ overload ∈ (Schema.mk (before ++ schema.overloads)).overloads,
      overload.Fits arguments := ⟨overload, List.mem_append_right before hmem, hfits⟩
  rw [validate?_of_fits hlonger, validate?_of_fits ⟨overload, hmem, hfits⟩, matching?, matching?,
    List.findIdx?_append, hnone, Option.none_or]
  simp only [Nat.add_comm]

end Schema

namespace Registry

/-- The outcome of a call if the placeholder that is called had another way to resolve. -/
def callWith (registry : Registry) (placeholder : Placeholder) (player : Option Player)
    (inventories : Provider) (arguments : List Argument)
    (resolve : CallContext → List Argument → Logged Resolution) : Logged Resolution :=
  (registry.put { placeholder with resolve }).dispatch placeholder.name player inventories arguments

/-- A call runs the placeholder in a context and with arguments passed on: whatever way to resolve
the placeholder has, the outcome is what that gives. -/
def Runs (registry : Registry) (placeholder : Placeholder) (player : Option Player)
    (inventories : Provider) (arguments : List Argument) (context : CallContext)
    (passed : List Argument) : Prop :=
  ∀ resolve, registry.callWith placeholder player inventories arguments resolve =
    resolve context passed

/-- A call does not run the placeholder: its outcome is one and the same, whatever way to resolve
the placeholder has. -/
def Spares (registry : Registry) (placeholder : Placeholder) (player : Option Player)
    (inventories : Provider) (arguments : List Argument) : Prop :=
  ∃ outcome, ∀ resolve,
    registry.callWith placeholder player inventories arguments resolve = outcome

variable {registry : Registry} {placeholder : Placeholder} {arguments : List Argument}

theorem get?_put_self (registry : Registry) (placeholder : Placeholder) :
    (registry.put placeholder).get? placeholder.name = some placeholder := by
  rw [get?_put, if_pos rfl]

theorem callWith_of_chooses {number : Nat} (h : placeholder.schema.Chooses arguments number)
    (player : Option Player) (inventories : Provider)
    (resolve : CallContext → List Argument → Logged Resolution) :
    registry.callWith placeholder player inventories arguments resolve =
      resolve { player, inventories, overload := number } arguments := by
  rw [← Schema.validate?_eq_some_iff] at h
  exact dispatch_of_validate? (get?_put_self registry { placeholder with resolve }) h player
    inventories

/-- What a refused call leaves: the error that shows every overload, and an event that says so. -/
def refusal (name : String) (schema : Schema) (arguments : List Argument) : Logged Resolution :=
  let cause := PlaceholderError.noMatchingOverload name arguments.length (schema.usage name)
  ⟨.error cause, [⟨.debug, logTarget, "arguments rejected",
    [("placeholder", Text.shown name), ("err", cause.message)]⟩]⟩

/-- How the placeholder resolves does not come into a refused call. -/
theorem dispatch_of_refused {name : String} (h : registry.get? name = some placeholder)
    (hrefused : ¬∃ number, placeholder.schema.Chooses arguments number) (player : Option Player)
    (inventories : Provider) :
    registry.dispatch name player inventories arguments =
      refusal name placeholder.schema arguments := by
  rw [← Schema.validate?_eq_none_iff] at hrefused
  simp only [dispatch, h, validate, hrefused]
  rfl

theorem callWith_of_refused (hrefused : ¬∃ number, placeholder.schema.Chooses arguments number)
    (player : Option Player) (inventories : Provider)
    (resolve : CallContext → List Argument → Logged Resolution) :
    registry.callWith placeholder player inventories arguments resolve =
      refusal placeholder.name placeholder.schema arguments :=
  dispatch_of_refused (get?_put_self registry { placeholder with resolve }) hrefused player
    inventories

/-- The context in which a placeholder runs, and what it is passed, are settled by the schema. -/
theorem runs_iff (player : Option Player) (inventories : Provider) {context : CallContext}
    {passed : List Argument} :
    registry.Runs placeholder player inventories arguments context passed ↔
      passed = arguments ∧ ∃ number, placeholder.schema.Chooses arguments number ∧
        context = { player, inventories, overload := number } := by
  constructor
  · intro hruns
    by_cases hchosen : ∃ number, placeholder.schema.Chooses arguments number
    · obtain ⟨number, hnumber⟩ := hchosen
      -- A way to resolve that tells the one context and the arguments from all others.
      classical
      have hprobe := hruns fun c a => pure (.error (.unsupportedOverload ""
        (if a = arguments ∧ c = { player, inventories, overload := number } then 1 else 0)))
      rw [callWith_of_chooses hnumber, if_pos ⟨rfl, rfl⟩] at hprobe
      by_cases hsame : passed = arguments ∧ context = { player, inventories, overload := number }
      · exact ⟨hsame.1, number, hnumber, hsame.2⟩
      · rw [if_neg hsame] at hprobe
        cases congrArg Logged.value hprobe
    · have hprobe := hruns fun _ _ => pure (.ok none)
      rw [callWith_of_refused hchosen] at hprobe
      cases congrArg Logged.value hprobe
  · rintro ⟨rfl, number, hnumber, rfl⟩ resolve
    exact callWith_of_chooses hnumber player inventories resolve

theorem spares_iff (player : Option Player) (inventories : Provider) :
    registry.Spares placeholder player inventories arguments ↔
      ¬∃ number, placeholder.schema.Chooses arguments number := by
  refine ⟨?_, fun hrefused => ⟨_, callWith_of_refused hrefused player inventories⟩⟩
  rintro ⟨outcome, hspares⟩ ⟨number, hnumber⟩
  have hnone := hspares fun _ _ => pure (.ok none)
  have hother := hspares fun _ _ => pure (.error (.malformedToken ""))
  rw [callWith_of_chooses hnumber] at hnone hother
  cases congrArg Logged.value (hnone.trans hother.symm)

/-- Every call of a registered placeholder.  It runs exactly if the schema has no overload or the
arguments fit one, in the context that names the first such overload and with the arguments as they
came, and its answer is the outcome.  Otherwise the outcome shows all overloads and is the same
however the placeholder resolves.  More overloads at the end change no choice, and overloads in
front that the arguments do not fit shift it by how many they are. -/
theorem dispatch_first_fit {name : String} (h : registry.get? name = some placeholder)
    (player : Option Player) (inventories : Provider) (arguments : List Argument) :
    let schema := placeholder.schema
    let outcome := registry.dispatch name player inventories arguments
    ((∃ number, schema.Chooses arguments number) ↔
      schema.overloads = [] ∨ ∃ overload ∈ schema.overloads, overload.Fits arguments) ∧
    (∀ context passed, registry.Runs placeholder player inventories arguments context passed ↔
      passed = arguments ∧ ∃ number, schema.Chooses arguments number ∧
        context = { player, inventories, overload := number }) ∧
    (∀ number, schema.Chooses arguments number →
      outcome = placeholder.resolve { player, inventories, overload := number } arguments) ∧
    (registry.Spares placeholder player inventories arguments ↔
      ¬∃ number, schema.Chooses arguments number) ∧
    ((¬∃ number, schema.Chooses arguments number) →
      outcome.value = .error (.noMatchingOverload name arguments.length
        (" | ".intercalate (schema.overloads.map (Overload.usage name))))) ∧
    ((∃ overload ∈ schema.overloads, overload.Fits arguments) →
      ∃ number, schema.Chooses arguments number ∧
        (∀ more, (Schema.mk (schema.overloads ++ more)).Chooses arguments number) ∧
        ∀ before : List Overload, (∀ overload ∈ before, ¬overload.Fits arguments) →
          (Schema.mk (before ++ schema.overloads)).Chooses arguments (before.length + number)) := by
  intro schema outcome
  refine ⟨Schema.exists_chooses_iff, fun context passed => runs_iff player inventories, ?_,
    spares_iff player inventories, ?_, ?_⟩
  · intro number hnumber
    exact dispatch_of_validate? h (Schema.validate?_eq_some_iff.mpr hnumber) player inventories
  · intro hrefused
    have hsome : schema.overloads ≠ [] := fun hnone => hrefused ⟨0, .unchecked hnone⟩
    show (registry.dispatch name player inventories arguments).value = _
    rw [dispatch_of_refused h hrefused, refusal, Schema.usage_of_ne_nil hsome]
  · intro hfits
    obtain ⟨number, hnumber⟩ := Schema.exists_chooses_iff.mpr (Or.inr hfits)
    have hvalid := Schema.validate?_eq_some_iff.mpr hnumber
    refine ⟨number, hnumber, fun more => ?_, fun before hbefore => ?_⟩
    · rw [← Schema.validate?_eq_some_iff, Schema.validate?_append hfits, hvalid]
    · rw [← Schema.validate?_eq_some_iff, Schema.validate?_prepend hfits hbefore, hvalid,
        Option.map_some]

/-- A placeholder for a slot or a name, which answers air as often as the number of the overload. -/
def slotOrName : Placeholder where
  name := "pick"
  schema := ⟨[[⟨"slot", .int, some (.ofInt 0), some (.ofInt 44)⟩],
    [⟨"name", .string, none, none⟩]]⟩
  resolve context _ := pure (.ok (some ⟨.air, UInt32.ofNat context.overload, none⟩))

/-- A slot beyond the grid is taken for a name, also behind overloads for no arguments and for two;
a call without arguments is refused. -/
theorem dispatch_slotOrName :
    let registry := Registry.empty.put slotOrName
    let passedOver : List Overload :=
      [[], [⟨"x", .int, none, none⟩, ⟨"y", .int, none, none⟩]]
    registry.dispatch "pick" none (fun _ => none) [.whole 99] =
      pure (.ok (some ⟨.air, 1, none⟩)) ∧
    (Schema.mk (passedOver ++ slotOrName.schema.overloads)).Chooses [.whole 99] 3 ∧
    (registry.dispatch "pick" none (fun _ => none) []).value =
      .error (.noMatchingOverload "pick" 0 "$pick:<slot:int 0..=44> | $pick:<name:string>") := by
  intro registry passedOver
  have hget : registry.get? "pick" = some slotOrName := get?_put_self .empty slotOrName
  have hsecond : slotOrName.schema.Chooses [.whole 99] 1 :=
    Schema.validate?_eq_some_iff.mp (by decide +kernel)
  have hrefused : ¬∃ number, slotOrName.schema.Chooses [] number :=
    Schema.validate?_eq_none_iff.mp (by decide +kernel)
  have hfits : ∃ overload ∈ slotOrName.schema.overloads, overload.Fits [.whole 99] :=
    ⟨[⟨"name", .string, none, none⟩], by simp [slotOrName], .cons rfl .nil⟩
  have hpassed : ∀ overload ∈ passedOver, ¬overload.Fits [.whole 99] := by
    simp [passedOver, Overload.Fits]
  obtain ⟨-, -, hruns, -, -, hshift⟩ := dispatch_first_fit hget none (fun _ => none) [.whole 99]
  obtain ⟨-, -, -, -, hrefusal, -⟩ := dispatch_first_fit hget none (fun _ => none) []
  refine ⟨hruns 1 hsecond, ?_, ?_⟩
  · obtain ⟨number, hnumber, -, hbefore⟩ := hshift hfits
    obtain rfl : number = 1 := by
      rw [← Schema.validate?_eq_some_iff] at hnumber hsecond
      exact Option.some.inj (hnumber.symm.trans hsecond)
    exact hbefore passedOver hpassed
  · rw [hrefusal hrefused]
    decide +kernel

end Registry

end InventoryTokens
