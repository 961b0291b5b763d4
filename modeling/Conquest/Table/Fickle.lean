import Conquest.Table.Supply

/-!
# The fickle table

A table that turns down some orders for reasons of its own and otherwise keeps to the rules. What a
planner takes for granted must not depend on the host taking its orders.
-/

namespace Conquest

/-- A table with a whim: why it turns down an order that the rules would let it take. -/
structure Fickle where
  table : Table
  whim : Table → PlayerId → Order → Option Rejection

namespace Fickle

/-- Carries out an order, unless the whim or the rules refuse it. -/
def submitMove (h : Fickle) (p : PlayerId) (o : Order) : Except Rejection Fickle :=
  match h.whim h.table p o with
  | some refusal => .error refusal
  | none => (h.table.submitMove p o).map fun table => { h with table }

instance : Host Fickle where
  board h := h.table.board
  placementCapacity h := h.table.placementCapacity
  round h := h.table.board.round
  beginEpoch h _ e := { h with table := h.table.beginEpoch e }
  submitMove := submitMove
  submitPurchase h p bought := (h.table.submitPurchase p bought).map fun table => { h with table }
  submitPlacement h p placement :=
    (h.table.submitPlacement p placement).map fun table => { h with table }

end Fickle

end Conquest
