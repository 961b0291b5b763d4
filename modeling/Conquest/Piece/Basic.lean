import Conquest.Piece.Kind

/-!
# Pieces

A piece is one unit on the board. An asset is a piece together with its kind, which is what
planning looks at.
-/

namespace Conquest

/-- One unit on the board. -/
structure Piece where
  id : PieceId
  kind : KindId
  owner : PlayerId
  territory : TerritoryId
  movementLeft : Nat
  hits : Nat := 0
  /-- The transport that the piece is aboard. -/
  carrier : Option PieceId := none
  movedThisTurn : Bool := false
deriving DecidableEq, Repr, Inhabited

/-- A piece and the statistics of its kind. -/
structure Asset where
  piece : Piece
  kind : PieceKind
deriving DecidableEq, Repr, Inhabited

namespace Asset

def id (a : Asset) : PieceId := a.piece.id

/-- Whether the piece is aboard a transport. -/
def isAboard (a : Asset) : Bool := a.piece.carrier.isSome

theorem not_isAboard_iff {a : Asset} : ¬ a.isAboard = true ↔ a.piece.carrier = none := by
  unfold isAboard
  cases a.piece.carrier with
  | none => simp
  | some c => simp

/-- Whether the piece survives one more hit. -/
def hasSpareHit (a : Asset) : Bool := decide (wrap (a.piece.hits + 1) < a.kind.hitPoints)

end Asset

end Conquest
