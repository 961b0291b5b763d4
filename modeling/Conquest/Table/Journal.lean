import Conquest.Table.Play

/-!
# The journal of a game

The journal of a game lists what its commands did with money: the income that was collected at the
ends of turns, and the pieces that arrived on the board, with the factory they were charged to.
Commands that were refused leave no trace in it, and neither do moves and purchases.
-/

namespace Conquest

/-- An entry of a journal. -/
inductive Posting where
  | income (player : PlayerId) (amount : Nat)
  | arrival (player : PlayerId) (kinds : List KindId) (factory : TerritoryId)
deriving DecidableEq

namespace Posting

/-- The income of a player in an entry. -/
def incomeOf (p : PlayerId) : Posting → Nat
  | income q amount => if q = p then amount else 0
  | arrival .. => 0

/-- The pieces that arrive with an entry, each with its owner. -/
def newcomers : Posting → List (PlayerId × KindId)
  | income .. => []
  | arrival p kinds _ => kinds.map (p, ·)

/-- How many pieces are charged to a factory after an entry, if `n` were before. Whoever ends a
turn, nothing is charged to any factory afterwards. -/
def charge (t : TerritoryId) (n : Nat) : Posting → Nat
  | income .. => 0
  | arrival _ kinds factory => if factory = t then n + kinds.length else n

end Posting

/-- What a player has collected in a journal. -/
def collected (journal : List Posting) (p : PlayerId) : Nat := sumOf (journal.map (·.incomeOf p))

/-- The pieces that have arrived, in order, each with its owner. -/
def newcomers (journal : List Posting) : List (PlayerId × KindId) :=
  journal.flatMap (·.newcomers)

/-- The pieces that have arrived for a player. -/
def arrivalsOf (journal : List Posting) (p : PlayerId) : List KindId :=
  ((newcomers journal).filter (·.1 == p)).map (·.2)

/-- How many pieces have been charged to a factory since the last end of a turn. -/
def charged (journal : List Posting) (t : TerritoryId) : Nat := journal.foldl (Posting.charge t) 0

/-- All pieces of a board in order, each as its owner and its kind. -/
def Board.roster (b : Board) : List (PlayerId × KindId) :=
  b.pieces.toList.map fun q => (q.owner, q.kind)

namespace Table

/-- What is entered for a command. -/
def posting? (h : Table) : Command → Option Posting
  | .placement p x =>
    match h.submitPlacement p x, h.chargedFactory? p x.territory with
    | .ok _, some factory => some (.arrival p x.kinds factory)
    | _, _ => none
  | .endTurn p => some (.income p (h.board.income p))
  | .move .. | .purchase .. | .beginEpoch .. => none

/-- The journal of a list of commands. -/
def journal (h : Table) : List Command → List Posting
  | [] => []
  | c :: rest => (h.posting? c).toList ++ (h.obey c).journal rest

end Table

end Conquest
