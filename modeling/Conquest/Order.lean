import Conquest.Identifier
import Conquest.Route

/-!
# Orders and placements

An order sends pieces along a route: they move, go aboard a transport, or are transports that land
their cargo on the last territory. A placement puts new pieces on the board.
-/

namespace Conquest

/-- What the pieces of an order do on its route. -/
inductive Action where
  | move
  /-- Go aboard a transport that waits at the end of the route. -/
  | load (transport : PieceId)
  /-- Sail up to the last step and put the cargo ashore there. -/
  | unload
deriving DecidableEq, Repr

/-- A command to pieces. -/
structure Order where
  pieces : List PieceId
  route : Route
  action : Action := .move
deriving DecidableEq, Repr

/-- Whether an order lands cargo. -/
def Order.isUnload (o : Order) : Bool := o.action == .unload

/-- New pieces for one territory, given by kind. -/
structure Placement where
  territory : TerritoryId
  kinds : List KindId
deriving DecidableEq, Repr

end Conquest
