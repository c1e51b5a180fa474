import InventoryTokens.Host
import InventoryTokens.Proofs.Inventory
import InventoryTokens.Proofs.SlotPlaceholder
import Mathlib.Data.List.Induction

/-!
# Runs of a host

A run is any sequence of what callers may do to a host: players come, go and come back, and what
they carry changes.  After every run the placeholder shows for a slot what was put there last since
the player last came, whatever else was done in between.
-/

namespace InventoryTokens.Host

open Inventory (Change)

/-- One thing that is done to a host. -/
inductive Operation where
  | insert (player : Player) (inventory : Inventory)
  | remove (id : UInt64)
  | alter (id : UInt64) (change : Change)
  deriving DecidableEq, Repr

/-- The host after an operation. -/
def perform (host : Host) : Operation → Host
  | .insert player inventory => (host.insert player inventory).2
  | .remove id => (host.remove id).2
  | .alter id change => host.modify id change.apply

/-- The host after a run that begins with no players. -/
def run (operations : List Operation) : Host := operations.foldl perform empty

theorem inventory?_insert (host : Host) (player : Player) (inventory : Inventory) (id : UInt64) :
    (host.insert player inventory).2.inventory? id =
      if id = player.id then some inventory else host.inventory? id := by
  rw [inventory?, insert, find?_put]
  split <;> rfl

theorem inventory?_remove (host : Host) (key id : UInt64) :
    (host.remove key).2.inventory? id = if id = key then none else host.inventory? id := by
  rw [inventory?, remove, find?_without]
  split <;> rfl

/-- A change keeps every player under the player's identifier, so it is found where it was made. -/
theorem inventory?_modify (host : Host) (key id : UInt64) (f : Inventory → Inventory) :
    (host.modify key f).inventory? id =
      if id = key then (host.inventory? id).map f else host.inventory? id := by
  rw [modify]
  cases hfind : host.residents.find? key with
  | none =>
    dsimp only
    split
    · rename_i he
      rw [he, inventory?, hfind]
      rfl
    · rfl
  | some resident =>
    simp only [inventory?, find?_put, host.keyed key resident hfind]
    split
    · rename_i he
      rw [he, hfind]
      rfl
    · rfl

/-- What a slot of a player holds, if the player is online. -/
def held (host : Host) (id : UInt64) (slot : Slot) : Option (Option Stack) :=
  (host.inventory? id).map fun inventory => inventory.get slot

/-- What an operation puts into a slot of a player who stays online. -/
def Operation.written? (id : UInt64) (slot : Slot) : Operation → Option (Option Stack)
  | .alter key change => if key = id then change.written? slot else none
  | _ => none

/-- Whether an operation lets a player come or go. -/
def Operation.movesPlayer (id : UInt64) : Operation → Bool
  | .insert player _ => player.id = id
  | .remove key => key = id
  | .alter _ _ => false

/-- Whether an operation has to do with a slot of a player: the player comes or goes, or the very
slot is written. -/
def Operation.concerns (id : UInt64) (slot : Slot) : Operation → Bool
  | .insert player _ => player.id = id
  | .remove key => key = id
  | .alter key (.set s _) => key = id && s = slot
  | .alter key (.take s) => key = id && s = slot
  | .alter _ _ => false

/-- What an operation makes of the content of one slot of one player. -/
def heldStep (id : UInt64) (slot : Slot) (content : Option (Option Stack)) :
    Operation → Option (Option Stack)
  | .insert player inventory => if player.id = id then some (inventory.get slot) else content
  | .remove key => if key = id then none else content
  | .alter key change =>
    if key = id then content.map fun old => (change.written? slot).getD old else content

theorem held_perform (host : Host) (operation : Operation) (id : UInt64) (slot : Slot) :
    (host.perform operation).held id slot = heldStep id slot (host.held id slot) operation := by
  cases operation with
  | insert player inventory =>
    rw [held, perform, inventory?_insert, heldStep]
    by_cases h : player.id = id
    · rw [if_pos h.symm, if_pos h]
      rfl
    · rw [if_neg (Ne.symm h), if_neg h]
      rfl
  | remove key =>
    rw [held, perform, inventory?_remove, heldStep]
    by_cases h : key = id
    · rw [if_pos h.symm, if_pos h]
      rfl
    · rw [if_neg (Ne.symm h), if_neg h]
      rfl
  | alter key change =>
    rw [held, perform, inventory?_modify, heldStep]
    by_cases h : key = id
    · rw [if_pos h.symm, if_pos h, held, Option.map_map, Option.map_map]
      exact Option.map_congr fun inventory _ => Inventory.get_apply inventory change slot
    · rw [if_neg (Ne.symm h), if_neg h]
      rfl

/-- A slot of a player can be followed through a run without the rest of the host. -/
theorem held_run (operations : List Operation) (id : UInt64) (slot : Slot) :
    (run operations).held id slot = operations.foldl (heldStep id slot) none := by
  suffices ∀ host : Host, (operations.foldl perform host).held id slot =
      operations.foldl (heldStep id slot) (host.held id slot) from this empty
  induction operations with
  | nil => intro host; rfl
  | cons operation operations ih =>
    intro host
    rw [List.foldl_cons, List.foldl_cons, ih, held_perform]

/-- While a player stays, a slot of the player keeps its content unless it is written. -/
theorem heldStep_of_stays {id : UInt64} {operation : Operation}
    (h : operation.movesPlayer id = false) (slot : Slot) (content : Option (Option Stack)) :
    heldStep id slot content operation =
      content.map fun old => (operation.written? id slot).getD old := by
  cases operation with
  | insert player inventory =>
    have hid : player.id ≠ id := by simpa [Operation.movesPlayer] using h
    rw [heldStep, if_neg hid]
    exact Option.map_id'.symm
  | remove key =>
    have hid : key ≠ id := by simpa [Operation.movesPlayer] using h
    rw [heldStep, if_neg hid]
    exact Option.map_id'.symm
  | alter key change =>
    rw [heldStep, Operation.written?]
    split
    · rfl
    · exact Option.map_id'.symm

theorem of_not_concerns {id : UInt64} {slot : Slot} {operation : Operation}
    (h : operation.concerns id slot = false) :
    operation.movesPlayer id = false ∧ operation.written? id slot = none := by
  cases operation with
  | insert | remove => exact ⟨h, rfl⟩
  | alter key change =>
    refine ⟨rfl, ?_⟩
    rw [Operation.written?]
    split
    · rename_i hkey
      cases change <;> simp_all [Operation.concerns, Change.written?]
    · rfl

/-- Operations that do not concern a slot may be left out of a run. -/
theorem held_run_filter (operations : List Operation) (id : UInt64) (slot : Slot) :
    (run (operations.filter (Operation.concerns id slot))).held id slot =
      (run operations).held id slot := by
  rw [held_run, held_run]
  generalize (none : Option (Option Stack)) = content
  induction operations generalizing content with
  | nil => rfl
  | cons operation operations ih =>
    cases h : operation.concerns id slot with
    | true => rw [List.filter_cons_of_pos h, List.foldl_cons, List.foldl_cons, ih]
    | false =>
      obtain ⟨hstays, hwritten⟩ := of_not_concerns h
      have hstep : heldStep id slot content operation = content := by
        rw [heldStep_of_stays hstays, hwritten]
        exact Option.map_id'
      rw [List.filter_cons_of_neg (by simp [h]), List.foldl_cons, hstep, ih]

/-- While a player stays, a slot of the player holds what was written there last. -/
theorem foldl_heldStep_of_stays {id : UInt64} {slot : Slot} {operations : List Operation}
    (h : ∀ operation ∈ operations, operation.movesPlayer id = false) (old : Option Stack) :
    operations.foldl (heldStep id slot) (some old) =
      some ((operations.filterMap (Operation.written? id slot)).getLast?.getD old) := by
  induction operations generalizing old with
  | nil => rfl
  | cons operation operations ih =>
    rw [List.foldl_cons, heldStep_of_stays (h operation (by simp)), Option.map_some,
      ih fun operation ho => h operation (by simp [ho]), List.filterMap_cons]
    cases operation.written? id slot with
    | none => rfl
    | some stack =>
      rw [List.getLast?_cons]
      rfl

/-- A player who is online and never removed is online at the end. -/
theorem foldl_heldStep_isSome {id : UInt64} {slot : Slot} {operations : List Operation}
    (h : .remove id ∉ operations) {content : Option (Option Stack)} (hc : content.isSome) :
    (operations.foldl (heldStep id slot) content).isSome := by
  induction operations generalizing content with
  | nil => exact hc
  | cons operation operations ih =>
    refine ih (fun hm => h (by simp [hm])) ?_
    by_cases hstays : operation.movesPlayer id = false
    · rwa [heldStep_of_stays hstays, Option.isSome_map]
    · cases operation with
      | insert player inventory =>
        have hid : player.id = id := by simpa [Operation.movesPlayer] using hstays
        rw [heldStep, if_pos hid]
        rfl
      | remove key =>
        have hid : key = id := by simpa [Operation.movesPlayer] using hstays
        exact absurd (by simp [hid]) h
      | alter key change => exact absurd rfl hstays

/-- A run after which a player is online has a last insert of the player, and after it the player
neither goes nor comes. -/
theorem exists_last_insert {operations : List Operation} {id : UInt64} {slot : Slot}
    (h : (operations.foldl (heldStep id slot) none).isSome) :
    ∃ before player inventory after,
      operations = before ++ .insert player inventory :: after ∧ player.id = id ∧
        ∀ operation ∈ after, operation.movesPlayer id = false := by
  -- From the end of the run, since it is the last insert that is wanted.
  induction operations using List.reverseRecOn with
  | nil => simp at h
  | append_singleton operations operation ih =>
    rw [List.foldl_append, List.foldl_cons, List.foldl_nil] at h
    by_cases hstays : operation.movesPlayer id = false
    · rw [heldStep_of_stays hstays, Option.isSome_map] at h
      obtain ⟨before, player, inventory, after, rfl, hid, hafter⟩ := ih h
      refine ⟨before, player, inventory, after ++ [operation], by simp, hid, ?_⟩
      intro other hother
      rcases List.mem_append.mp hother with hold | hnew
      · exact hafter other hold
      · rwa [List.mem_singleton.mp hnew]
    · cases operation with
      | insert player inventory =>
        have hid : player.id = id := by simpa [Operation.movesPlayer] using hstays
        exact ⟨operations, player, inventory, [], rfl, hid, by simp⟩
      | remove key =>
        have hid : key = id := by simpa [Operation.movesPlayer] using hstays
        rw [heldStep, if_pos hid] at h
        simp at h
      | alter key change => exact absurd rfl hstays

theorem foldl_heldStep_insert {id : UInt64} {player : Player} (hid : player.id = id) (slot : Slot)
    (before : List Operation) (inventory : Inventory) (after : List Operation) :
    (before ++ .insert player inventory :: after).foldl (heldStep id slot) none =
      after.foldl (heldStep id slot) (some (inventory.get slot)) := by
  rw [List.foldl_append, List.foldl_cons, heldStep, if_pos hid]

/-- After a run a player is away exactly if each insert of the player is followed by a remove. -/
theorem held_run_eq_none {operations : List Operation} {id : UInt64} {slot : Slot} :
    (run operations).held id slot = none ↔
      ∀ before player inventory after, operations = before ++ .insert player inventory :: after →
        player.id = id → .remove id ∈ after := by
  rw [held_run]
  constructor
  · rintro hnone before player inventory after rfl hid
    by_contra hremove
    rw [foldl_heldStep_insert hid] at hnone
    have hsome : (after.foldl (heldStep id slot) (some (inventory.get slot))).isSome :=
      foldl_heldStep_isSome hremove rfl
    rw [hnone] at hsome
    simp at hsome
  · intro h
    by_contra hsome
    obtain ⟨before, player, inventory, after, heq, hid, hstays⟩ :=
      exists_last_insert (Option.isSome_iff_ne_none.mpr hsome)
    have hmoves := hstays _ (h before player inventory after heq hid)
    simp [Operation.movesPlayer] at hmoves

/-- After a run a slot of a player holds what was written there last after the last insert of the
player, or what the inserted inventory holds there. -/
theorem held_run_eq_some {operations : List Operation} {id : UInt64} {slot : Slot}
    {content : Option Stack} :
    (run operations).held id slot = some content ↔
      ∃ before player inventory after,
        operations = before ++ .insert player inventory :: after ∧ player.id = id ∧
          (∀ operation ∈ after, operation.movesPlayer id = false) ∧
          content = (after.filterMap (Operation.written? id slot)).getLast?.getD
            (inventory.get slot) := by
  rw [held_run]
  constructor
  · intro hsome
    obtain ⟨before, player, inventory, after, rfl, hid, hstays⟩ :=
      exists_last_insert (Option.isSome_iff_exists.mpr ⟨content, hsome⟩)
    rw [foldl_heldStep_insert hid, foldl_heldStep_of_stays hstays, Option.some.injEq] at hsome
    exact ⟨before, player, inventory, after, rfl, hid, hstays, hsome.symm⟩
  · rintro ⟨before, player, inventory, after, rfl, hid, hstays, rfl⟩
    rw [foldl_heldStep_insert hid, foldl_heldStep_of_stays hstays]

/-- What the placeholder shows of a host is what the slot holds. -/
theorem shown_provider (host : Host) (player : Player) (slot : Slot) :
    SlotPlaceholder.shown (some player) host.provider slot =
      (host.held player.id slot).map fun content => content.getD .air := by
  rw [SlotPlaceholder.shown, Option.bind_some, provider, held, Option.map_map, Option.map_map]
  rfl

/-- After any run a slot is resolved to what was put there last since the player last came, to air
if that is nothing, and to no answer if the player is not there.  Only what concerns the slot
counts, and the player's own inventory alone gives the same answer. -/
theorem resolve_run (operations : List Operation) (player : Player) (slot : Slot) :
    let answer := fun (p : Player) (inventories : Provider) =>
      (SlotPlaceholder.resolve (some p) inventories [SlotPlaceholder.argument slot]).value
    let host := run operations
    (answer player host.provider = .ok none ↔
      ∀ before p inventory after, operations = before ++ .insert p inventory :: after →
        p.id = player.id → .remove player.id ∈ after) ∧
    (∀ stack, answer player host.provider = .ok (some stack) ↔
      ∃ before p inventory after, operations = before ++ .insert p inventory :: after ∧
        p.id = player.id ∧ (∀ operation ∈ after, operation.movesPlayer player.id = false) ∧
        stack = ((after.filterMap (Operation.written? player.id slot)).getLast?.getD
          (inventory.get slot)).getD .air) ∧
    (∀ cause, answer player host.provider ≠ .error cause) ∧
    (answer player host.provider =
      match host.inventory? player.id with
      | some inventory => answer player inventory.provider
      | none => .ok none) ∧
    (answer player (run (operations.filter (Operation.concerns player.id slot))).provider =
      answer player host.provider) ∧
    (∀ name, answer ⟨player.id, name⟩ host.provider = answer player host.provider) := by
  intro answer host
  have hanswer : ∀ p inventories, answer p inventories =
      .ok (SlotPlaceholder.shown (some p) inventories slot) :=
    fun p inventories => SlotPlaceholder.value_resolve (SlotPlaceholder.asks_argument slot) _ _
  have hheld : ∀ (p : Player) (h : Host), answer p h.provider =
      .ok ((h.held p.id slot).map fun content => content.getD .air) :=
    fun p h => by rw [hanswer, shown_provider]
  refine ⟨?_, fun stack => ?_, fun cause => ?_, ?_, ?_, fun name => ?_⟩
  · rw [hheld, Except.ok.injEq, Option.map_eq_none_iff, held_run_eq_none]
  · rw [hheld, Except.ok.injEq, Option.map_eq_some_iff]
    simp only [host, held_run_eq_some]
    constructor
    · rintro ⟨content, ⟨before, p, inventory, after, heq, hid, hstays, rfl⟩, rfl⟩
      exact ⟨before, p, inventory, after, heq, hid, hstays, rfl⟩
    · rintro ⟨before, p, inventory, after, heq, hid, hstays, rfl⟩
      exact ⟨_, ⟨before, p, inventory, after, heq, hid, hstays, rfl⟩, rfl⟩
  · rw [hanswer]
    simp
  · rw [hheld, held]
    cases host.inventory? player.id with
    | none => rfl
    | some inventory => exact (hanswer player inventory.provider).symm
  · rw [hheld, hheld, held_run_filter]
  · rw [hheld, hheld]

end InventoryTokens.Host
