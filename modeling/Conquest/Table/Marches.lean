import Conquest.Table.Play

/-!
# The marches of a turn

An order makes the pieces that it names take steps: all steps of its route if they move, one step if
they go aboard, and all steps but the last if they are ships that put their cargo ashore there. The
orders of a player's turn are those that have been taken since the player last ended a turn. Orders
that were refused are not among them.
-/

namespace Conquest

/-- The steps that an order makes every piece that it names take. -/
def Order.stride (o : Order) : Nat :=
  match o.action with
  | .move => o.route.length
  | .load _ => 1
  | .unload => o.route.length - 1

/-- The steps that orders make a piece take. -/
def marched (orders : List Order) (u : PieceId) : Nat :=
  sumOf ((orders.filter (·.pieces.contains u)).map (·.stride))

namespace Table

/-- The orders of a turn of `p` after one more command, if `turn` were those before. -/
def ordersAfter (h : Table) (p : PlayerId) (turn : List Order) : Command → List Order
  | .move q o =>
    match h.submitMove q o with
    | .ok _ => turn ++ [o]
    | .error _ => turn
  | .endTurn q => if q = p then [] else turn
  | .purchase .. | .placement .. | .beginEpoch .. => turn

/-- The orders of a turn of `p` after a list of commands, if `turn` were those before. -/
def turnOrders (h : Table) (p : PlayerId) (turn : List Order) : List Command → List Order
  | [] => turn
  | c :: rest => (h.obey c).turnOrders p (h.ordersAfter p turn c) rest

end Table

end Conquest
