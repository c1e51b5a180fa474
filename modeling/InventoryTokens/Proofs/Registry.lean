import InventoryTokens.Proofs.Table
import InventoryTokens.Registry

/-!
# Runs of registrations

A run is any sequence of calls that offer placeholders to a registry.  The first placeholder to take
a name keeps it to the end of the run, a later one of the same name is refused, and a call of the
name reaches the placeholder that holds it and no other.  Placeholders are values here, so the name
of one cannot change between calls.
-/

namespace InventoryTokens.Registry

/-- What a registry begins with. -/
inductive Origin where
  | bare
  | builtIn
  deriving DecidableEq, Repr

namespace Origin

def registry : Origin → Registry
  | bare => .empty
  | builtIn => .withDefaults

/-- The placeholders that are there before any call. -/
def placeholders : Origin → List Placeholder
  | bare => []
  | builtIn => [SlotPlaceholder.placeholder]

end Origin

/-- The registry after a call to register a placeholder; a call that fails leaves it as it is. -/
def attempt (registry : Registry) (placeholder : Placeholder) : Registry :=
  match (registry.register placeholder).value with
  | .ok next => next
  | .error _ => registry

def run (origin : Origin) (calls : List Placeholder) : Registry :=
  calls.foldl attempt origin.registry

/-- The placeholders whose registration succeeds, in the order of the calls. -/
def accepted (registry : Registry) : List Placeholder → List Placeholder
  | [] => []
  | placeholder :: rest =>
    match (registry.register placeholder).value with
    | .ok next => placeholder :: accepted next rest
    | .error _ => accepted registry rest

/-- The placeholders that hold a name after a run: those of the beginning and those accepted. -/
def holders (origin : Origin) (calls : List Placeholder) : List Placeholder :=
  origin.placeholders ++ accepted origin.registry calls

/-- The placeholder of a list that has a name. -/
def holder? (held : List Placeholder) (name : String) : Option Placeholder :=
  held.find? fun placeholder => placeholder.name = name

theorem holder?_eq_none {held : List Placeholder} {name : String} :
    holder? held name = none ↔ name ∉ held.map Placeholder.name := by
  simp [holder?]

theorem holder?_append_singleton (held : List Placeholder) (placeholder : Placeholder)
    (name : String) :
    holder? (held ++ [placeholder]) name =
      (holder? held name).or (if placeholder.name = name then some placeholder else none) := by
  rw [holder?, List.find?_append, holder?]
  by_cases h : placeholder.name = name <;> simp [h]

theorem holder?_of_mem {held : List Placeholder} (hnodup : (held.map Placeholder.name).Nodup)
    {placeholder : Placeholder} (h : placeholder ∈ held) :
    holder? held placeholder.name = some placeholder := by
  cases hfind : holder? held placeholder.name with
  | none => exact absurd (List.mem_map_of_mem h) (holder?_eq_none.mp hfind)
  | some other =>
    have hname : other.name = placeholder.name := by simpa using List.find?_some hfind
    have hmem : other ∈ held := List.mem_of_find?_eq_some hfind
    rw [List.inj_on_of_nodup_map hnodup hmem h hname]

/-- A registry holds the placeholders of a list, no two of one name, and nothing else. -/
structure Holds (registry : Registry) (held : List Placeholder) : Prop where
  names_nodup : (held.map Placeholder.name).Nodup
  get?_eq : ∀ name, registry.get? name = holder? held name

theorem get?_put (registry : Registry) (placeholder : Placeholder) (name : String) :
    (registry.put placeholder).get? name =
      if name = placeholder.name then some placeholder else registry.get? name :=
  Table.find?_insert ..

theorem Origin.holds (origin : Origin) : Holds origin.registry origin.placeholders := by
  cases origin with
  | bare => exact ⟨List.nodup_nil, fun _ => rfl⟩
  | builtIn =>
    refine ⟨List.nodup_singleton _, fun name => ?_⟩
    show (Registry.empty.put SlotPlaceholder.placeholder).get? name = _
    rw [get?_put]
    by_cases h : name = SlotPlaceholder.placeholder.name
    · simp [Origin.placeholders, holder?, h]
    · have hnot : ¬SlotPlaceholder.placeholder.name = name := fun he => h he.symm
      simp [Origin.placeholders, holder?, h, hnot, get?, Registry.empty]

/-- A placeholder is refused if its name is held, and else put under its name. -/
theorem value_register (registry : Registry) (placeholder : Placeholder) :
    (registry.register placeholder).value =
      if (registry.get? placeholder.name).isSome then
        .error (.duplicatePlaceholder placeholder.name)
      else .ok (registry.put placeholder) := by
  have hcontains : registry.table.contains placeholder.name =
      (registry.get? placeholder.name).isSome := rfl
  unfold register
  rw [hcontains]
  split <;> rfl

namespace Holds

variable {registry : Registry} {held : List Placeholder}

theorem isSome_get? (h : Holds registry held) {name : String} :
    (registry.get? name).isSome = true ↔ ∃ placeholder ∈ held, placeholder.name = name := by
  rw [h.get?_eq, holder?, List.find?_isSome]
  simp

theorem get?_of_mem (h : Holds registry held) {placeholder : Placeholder}
    (hmem : placeholder ∈ held) : registry.get? placeholder.name = some placeholder := by
  rw [h.get?_eq, holder?_of_mem h.names_nodup hmem]

/-- A registration fails exactly if the name is held, and then because it is. -/
theorem register_eq_error (h : Holds registry held) {placeholder : Placeholder}
    {cause : PlaceholderError} :
    (registry.register placeholder).value = .error cause ↔
      (∃ other ∈ held, other.name = placeholder.name) ∧
        cause = .duplicatePlaceholder placeholder.name := by
  rw [value_register, ← h.isSome_get?]
  by_cases hname : (registry.get? placeholder.name).isSome = true
  · rw [if_pos hname, Except.error.injEq, and_iff_right hname, eq_comm]
  · rw [if_neg hname]
    simp [hname]

theorem put (h : Holds registry held) {placeholder : Placeholder}
    (hfree : placeholder.name ∉ held.map Placeholder.name) :
    Holds (registry.put placeholder) (held ++ [placeholder]) := by
  constructor
  · rw [List.map_append, List.map_singleton]
    exact List.nodup_append_comm.mp (List.nodup_cons.mpr ⟨hfree, h.names_nodup⟩)
  · intro name
    rw [get?_put, holder?_append_singleton, h.get?_eq]
    by_cases hname : name = placeholder.name
    · rw [if_pos hname, hname, holder?_eq_none.mpr hfree, if_pos rfl, Option.none_or]
    · rw [if_neg hname, if_neg (Ne.symm hname), Option.or_none]

/-- After more calls a registry also holds what was accepted of them. -/
theorem foldl_attempt (h : Holds registry held) (calls : List Placeholder) :
    Holds (calls.foldl attempt registry) (held ++ accepted registry calls) := by
  induction calls generalizing registry held with
  | nil =>
    rw [accepted, List.append_nil]
    exact h
  | cons placeholder rest ih =>
    rw [List.foldl_cons, attempt, accepted]
    cases hcall : (registry.register placeholder).value with
    | error cause => exact ih h
    | ok next =>
      rw [value_register] at hcall
      split at hcall
      · cases hcall
      · rename_i hname
        have hfree : placeholder.name ∉ held.map Placeholder.name := by
          rw [← holder?_eq_none, ← h.get?_eq]
          simpa using hname
        obtain rfl := Except.ok.inj hcall
        have hput := ih (h.put hfree)
        rw [List.append_assoc, List.singleton_append] at hput
        exact hput

theorem mem_names (h : Holds registry held) {name : String} :
    name ∈ registry.names ↔ ∃ placeholder ∈ held, placeholder.name = name := by
  rw [← h.isSome_get?, names, Table.keys, List.mem_map, Option.isSome_iff_exists]
  constructor
  · intro ⟨⟨key, placeholder⟩, hentry, hkey⟩
    exact ⟨placeholder, hkey ▸ Table.mem_entries_iff.mp hentry⟩
  · intro ⟨placeholder, hfind⟩
    exact ⟨(name, placeholder), Table.mem_entries_iff.mpr hfind, rfl⟩

end Holds

theorem holds_run (origin : Origin) (calls : List Placeholder) :
    Holds (run origin calls) (holders origin calls) :=
  origin.holds.foldl_attempt calls

theorem accepted_append (registry : Registry) (before after : List Placeholder) :
    accepted registry (before ++ after) =
      accepted registry before ++ accepted (before.foldl attempt registry) after := by
  induction before generalizing registry with
  | nil => rfl
  | cons placeholder rest ih =>
    rw [List.cons_append, accepted, accepted, List.foldl_cons, attempt]
    cases (registry.register placeholder).value with
    | error cause => exact ih registry
    | ok next => exact congrArg (placeholder :: ·) (ih next)

/-- Whoever holds a name holds it to the end of the run; more calls only add holders. -/
theorem holders_append (origin : Origin) (before after : List Placeholder) :
    holders origin (before ++ after) =
      holders origin before ++ accepted (run origin before) after := by
  rw [holders, accepted_append, holders, List.append_assoc]
  rfl

theorem run_append_singleton (origin : Origin) (before : List Placeholder)
    (placeholder : Placeholder) :
    run origin (before ++ [placeholder]) = (run origin before).attempt placeholder :=
  List.foldl_append

theorem mem_holders_of_ok {origin : Origin} {before : List Placeholder} {placeholder : Placeholder}
    (h : ((run origin before).register placeholder).value.isOk = true)
    (after : List Placeholder) : placeholder ∈ holders origin (before ++ placeholder :: after) := by
  rw [holders_append, accepted]
  cases hcall : ((run origin before).register placeholder).value with
  | error cause =>
    rw [hcall] at h
    cases h
  | ok next => simp

/-- A call of a name reaches the placeholder under it, if the schema has a form for the
arguments. -/
theorem dispatch_of_validate? {registry : Registry} {name : String} {placeholder : Placeholder}
    (h : registry.get? name = some placeholder) {arguments : List Argument} {overload : Nat}
    (hvalid : placeholder.schema.validate? arguments = some overload) (player : Option Player)
    (inventories : Provider) :
    registry.dispatch name player inventories arguments =
      placeholder.resolve { player, inventories, overload } arguments := by
  simp only [dispatch, h, validate, hvalid]

theorem value_dispatch_of_refused {registry : Registry} {name : String} {placeholder : Placeholder}
    (h : registry.get? name = some placeholder) {arguments : List Argument}
    (hrefused : placeholder.schema.validate? arguments = none) (player : Option Player)
    (inventories : Provider) :
    (registry.dispatch name player inventories arguments).value =
      .error (.noMatchingOverload name arguments.length (placeholder.schema.usage name)) := by
  simp only [dispatch, h, validate, hrefused]
  rfl

theorem dispatch_of_get?_none {registry : Registry} {name : String}
    (h : registry.get? name = none) (player : Option Player) (inventories : Provider)
    (arguments : List Argument) :
    registry.dispatch name player inventories arguments =
      pure (.error (.unknownPlaceholder name)) := by
  simp only [dispatch, h]

/-- Every run of registrations.  A call fails exactly if its name is held, says so and changes
nothing; one that succeeds gives its placeholder the name to the end of the run.  What the registry
then holds is what was there at first and what was accepted, each under its own name, and the names
are listed once and in order.  A call of a name runs its holder or nothing. -/
theorem run_first_holds (origin : Origin) (calls : List Placeholder) :
    let registry := run origin calls
    let held := holders origin calls
    (∀ before placeholder after, calls = before ++ placeholder :: after →
      let outcome := ((run origin before).register placeholder).value
      (∀ cause, outcome = .error cause ↔
        (∃ other ∈ holders origin before, other.name = placeholder.name) ∧
          cause = .duplicatePlaceholder placeholder.name) ∧
      (outcome.isOk = false → run origin (before ++ [placeholder]) = run origin before) ∧
      (outcome.isOk = true → registry.get? placeholder.name = some placeholder)) ∧
    (∀ placeholder ∈ origin.placeholders,
      registry.get? placeholder.name = some placeholder) ∧
    (∀ name placeholder, registry.get? name = some placeholder ↔
      placeholder ∈ held ∧ placeholder.name = name) ∧
    registry.names.Pairwise (· < ·) ∧
    (∀ name, name ∈ registry.names ↔ ∃ placeholder ∈ held, placeholder.name = name) ∧
    ∀ name player inventories arguments,
      let outcome := registry.dispatch name player inventories arguments
      (∀ placeholder ∈ held, placeholder.name = name →
        (∀ overload, placeholder.schema.validate? arguments = some overload →
          outcome = placeholder.resolve { player, inventories, overload } arguments) ∧
        (placeholder.schema.validate? arguments = none → outcome.value =
          .error (.noMatchingOverload name arguments.length (placeholder.schema.usage name)))) ∧
      ((∀ placeholder ∈ held, placeholder.name ≠ name) →
        outcome = pure (.error (.unknownPlaceholder name))) := by
  intro registry held
  have hholds : Holds registry held := holds_run origin calls
  refine ⟨?_, ?_, ?_, registry.table.keys_ascending, fun name => hholds.mem_names, ?_⟩
  · intro before placeholder after hcalls outcome
    refine ⟨fun cause => (holds_run origin before).register_eq_error, ?_, ?_⟩
    · intro hfails
      rw [run_append_singleton, attempt]
      cases hcall : ((run origin before).register placeholder).value with
      | error cause => rfl
      | ok next =>
        rw [show outcome = _ from hcall] at hfails
        cases hfails
    · intro hok
      apply hholds.get?_of_mem
      rw [show held = holders origin (before ++ placeholder :: after) from
        congrArg (holders origin) hcalls]
      exact mem_holders_of_ok hok after
  · intro placeholder hmem
    exact hholds.get?_of_mem (List.mem_append_left _ hmem)
  · intro name placeholder
    constructor
    · intro hfind
      have hname := registry.named name placeholder hfind
      rw [hholds.get?_eq] at hfind
      exact ⟨List.mem_of_find?_eq_some hfind, hname⟩
    · intro ⟨hmem, hname⟩
      rw [← hname]
      exact hholds.get?_of_mem hmem
  · intro name player inventories arguments outcome
    constructor
    · intro placeholder hmem hname
      have hget : registry.get? name = some placeholder := hname ▸ hholds.get?_of_mem hmem
      exact ⟨fun overload hvalid => dispatch_of_validate? hget hvalid player inventories,
        fun hrefused => value_dispatch_of_refused hget hrefused player inventories⟩
    · intro hnone
      apply dispatch_of_get?_none
      rw [hholds.get?_eq, holder?_eq_none, List.mem_map]
      intro ⟨placeholder, hmem, hname⟩
      exact hnone placeholder hmem hname

/-- A placeholder for a name, which takes any arguments and answers air as often as it is told. -/
def counter (name : String) (count : UInt32) : Placeholder where
  name := name
  schema := {}
  resolve _ _ := pure (.ok (some ⟨.air, count, none⟩))

/-- The built-in name and a name taken before are refused, and the first counter answers. -/
theorem run_counters :
    let calls := [counter "playerinv" 1, counter "count" 2, counter "count" 3]
    ((run .builtIn []).register (counter "playerinv" 1)).value =
      .error (.duplicatePlaceholder "playerinv") ∧
    (run .builtIn calls).get? "count" = some (counter "count" 2) ∧
    (run .builtIn calls).dispatch "count" none (fun _ => none) [] =
      pure (.ok (some ⟨.air, 2, none⟩)) := by
  intro calls
  obtain ⟨hcalls, -, hfound, -, -, hdispatch⟩ := run_first_holds .builtIn calls
  obtain ⟨hfirst, -, -⟩ := hcalls [] (counter "playerinv" 1) _ rfl
  obtain ⟨-, -, hsecond⟩ := hcalls [counter "playerinv" 1] (counter "count" 2) _ rfl
  have hget := hsecond rfl
  obtain ⟨hheld, -⟩ := (hfound "count" (counter "count" 2)).mp hget
  obtain ⟨hreached, -⟩ := hdispatch "count" none (fun _ => none) []
  refine ⟨(hfirst _).mpr ⟨⟨SlotPlaceholder.placeholder, List.mem_cons_self, rfl⟩, rfl⟩, hget, ?_⟩
  exact (hreached (counter "count" 2) hheld rfl).1 0 rfl

end InventoryTokens.Registry
