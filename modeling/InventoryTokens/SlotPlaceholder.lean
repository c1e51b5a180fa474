import InventoryTokens.Placeholder

/-!
# The slot placeholder

Resolves the index of a main-grid slot to the stack in it.  Without a player, or without an
inventory for the player, there is no answer; an empty slot shows air.  An index outside the grid is
an error and is never moved into it.
-/

namespace InventoryTokens.SlotPlaceholder

def name : String := "playerinv"

def logTarget : String := "playerinv_placeholder::playerinv"

/-- One overload: a slot index within the grid. -/
def schema : Schema :=
  ⟨[[{ name := "slot", kind := .int, minimum := some (.ofInt 0),
       maximum := some (.ofInt (gridSize - 1)) }]]⟩

/-- The slot that the first argument addresses. -/
def slotArgument : List Argument → Except PlaceholderError Slot
  | [] => .error (.missingArgument 0 "slot")
  | argument :: _ =>
    match argument.asWhole? with
    | none => .error (.argumentType 0 "slot" .int argument.render)
    | some index =>
      match Slot.ofIndex index.toInt with
      | .ok slot => .ok slot
      | .error cause => .error (.grid cause)

/-- Resolves a slot for a player.  The arguments are looked at only if there is a player, and the
inventory only if they are in order. -/
def resolve (player : Option Player) (inventories : Provider) (arguments : List Argument) :
    Logged Resolution := do
  match player with
  | none =>
    Logged.log .trace logTarget "no player in context" []
    return .ok none
  | some player =>
    match slotArgument arguments with
    | .error cause => return .error cause
    | .ok slot =>
      match inventories player with
      | none =>
        Logged.log .debug logTarget "no inventory for player"
          [("player", player.name), ("id", player.idText)]
        return .ok none
      | some grid =>
        let stack := (grid.peek slot.coordinate).getD .air
        Logged.log .trace logTarget "resolved playerinv"
          [("player", player.name), ("slot", slot.text),
            ("column", Text.natText slot.coordinate.column.val),
            ("row", Text.natText slot.coordinate.row.val), ("item", stack.item.text)]
        return .ok (some stack)

/-- The placeholder; it has overload number zero only. -/
def placeholder : Placeholder where
  name := name
  schema := schema
  resolve context arguments :=
    if context.overload = 0 then resolve context.player context.inventories arguments
    else pure (.error (.unsupportedOverload name context.overload))

end InventoryTokens.SlotPlaceholder
