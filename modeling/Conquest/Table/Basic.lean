import Conquest.Host

/-!
# The table

The table is the reference host. Beside the board it keeps the epoch, what each player has bought
but not yet placed, and how many pieces were placed at each factory since the last end of a turn.
Battles are not fought: entering a defended territory marks a battle, and land that nobody defends
is captured by land pieces that enter it.
-/

namespace Conquest

/-- A game position with what the rules of a turn need. -/
structure Table where
  board : Board
  epoch : Epoch
  /-- Bought but not yet placed, for each player. -/
  pending : Array Tally
  /-- Pieces charged to each factory since the last end of a turn. -/
  placed : Array Nat
deriving Inhabited

namespace Table

/-- A table at the start of a turn. -/
def ofBoard (b : Board) : Table where
  board := b
  epoch := .combat
  pending := Array.replicate b.players.size .empty
  placed := Array.replicate b.atlas.size 0

/-- What a player has bought but not yet placed. -/
def pendingOf (h : Table) (p : PlayerId) : Tally := h.pending.getD p .empty

/-- Ends a player's turn: movement is restored, the marks of the turn are cleared, income is
collected, and the next round begins with the combat move. -/
def endTurn (h : Table) (p : PlayerId) : Table :=
  let b := h.board.refresh p
  { h with
    board := { b.setBudget p (b.budget p + b.income p) with round := wrap (b.round + 1) }
    epoch := .combat
    placed := h.placed.map fun _ => 0 }

/-- Tells the table which move segment starts. -/
def beginEpoch (h : Table) (e : Epoch) : Table := { h with epoch := e }

/-! ## Room for new pieces -/

/-- Room left at a factory. -/
def factoryRoom (h : Table) (t : TerritoryId) : Nat :=
  h.board.factoryOutput t - h.placed.getD t 0

/-- New pieces that a territory may still receive: a sea zone as many as the roomiest factory next
to it, land that was captured this turn none. -/
def placementCapacity (h : Table) (t : TerritoryId) : Nat :=
  if h.board.atlas.isWater t then
    (((h.board.atlas.neighbors t).filter fun f =>
      (h.board.territory f).hasFactory && !h.board.isConquered f).map h.factoryRoom).foldl max 0
  else if h.board.isConquered t then 0
  else h.factoryRoom t

end Table

end Conquest
