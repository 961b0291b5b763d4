import Conquest.Board.Query
import Conquest.Epoch
import Conquest.Order
import Conquest.Tally

/-!
# Hosts

A host owns a board, answers questions about it, and applies or refuses the commands of the players.
It applies a command before it answers the next question, so planning sees the effects of what was
commanded before.
-/

namespace Conquest

/-- Why a host refuses a command. -/
inductive Rejection where
  | emptyOrder
  | unknownPiece (piece : PieceId)
  | notOwned (piece : PieceId)
  | wrongStart (piece : PieceId)
  | notAdjacent (source goal : TerritoryId)
  | insufficientMovement (piece : PieceId) (needed left : Nat)
  | impassable (piece : PieceId) (territory : TerritoryId)
  | blocked (territory : TerritoryId)
  | transportFull (transport : PieceId)
  | noCargo (transport : PieceId)
  | notCombatPhase (territory : TerritoryId)
  | overBudget (cost budget : Nat)
  | unknownKind (kind : KindId)
  | noFactory (territory : TerritoryId)
  | capacityExceeded (territory : TerritoryId) (capacity : Nat)
  | notPurchased (kind : KindId)
deriving DecidableEq, Repr

/-- The text of a rejection. -/
def Rejection.message : Rejection → String
  | .emptyOrder => "order contains no units"
  | .unknownPiece u => "unknown unit " ++ pieceLabel u
  | .notOwned u => "unit " ++ pieceLabel u ++ " is not owned by the moving player"
  | .wrongStart u => "unit " ++ pieceLabel u ++ " is not at the start of the route"
  | .notAdjacent a b =>
    "route steps " ++ territoryLabel a ++ " -> " ++ territoryLabel b ++ " are not adjacent"
  | .insufficientMovement u needed left =>
    "unit " ++ pieceLabel u ++ s!" needs {needed} movement but has {left}"
  | .impassable u t => "unit " ++ pieceLabel u ++ " cannot enter " ++ territoryLabel t
  | .blocked t => "route passes through contested territory " ++ territoryLabel t
  | .transportFull u => "transport " ++ pieceLabel u ++ " lacks room for the cargo"
  | .noCargo u => "unit " ++ pieceLabel u ++ " carries no cargo to unload"
  | .notCombatPhase t => "cannot attack " ++ territoryLabel t ++ " outside the combat move"
  | .overBudget cost budget => s!"purchase costs {cost} but only {budget} is available"
  | .unknownKind k => "unknown unit type " ++ kindLabel k
  | .noFactory t => territoryLabel t ++ " cannot receive new units"
  | .capacityExceeded t capacity => territoryLabel t ++ s!" can take {capacity} more units"
  | .notPurchased k => "unit type " ++ kindLabel k ++ " was not purchased"

/-- What a planner needs of a host. A refused command leaves the host as it was. -/
class Host (η : Type) where
  board : η → Board
  /-- New pieces that a territory may still receive this turn. -/
  placementCapacity : η → TerritoryId → Nat
  /-- The round of the game, for reports; a host that does not count rounds says 0. -/
  round : η → Nat
  /-- Tells the host which move segment starts. -/
  beginEpoch : η → PlayerId → Epoch → η
  submitMove : η → PlayerId → Order → Except Rejection η
  submitPurchase : η → PlayerId → Tally → Except Rejection η
  submitPlacement : η → PlayerId → Placement → Except Rejection η

end Conquest
