import Conquest.Table.Supply

/-!
# Playing at the table

A game is a list of commands of any players, in any order. A command that is refused changes
nothing.
-/

namespace Conquest

/-- What a player can tell the table. -/
inductive Command where
  | move (player : PlayerId) (order : Order)
  | purchase (player : PlayerId) (bought : Tally)
  | placement (player : PlayerId) (placement : Placement)
  | beginEpoch (player : PlayerId) (epoch : Epoch)
  | endTurn (player : PlayerId)
deriving DecidableEq

namespace Table

/-- The table after a command, or why the command is refused. -/
def answer (h : Table) : Command → Except Rejection Table
  | .move p o => h.submitMove p o
  | .purchase p bought => h.submitPurchase p bought
  | .placement p placement => h.submitPlacement p placement
  | .beginEpoch _ e => .ok (h.beginEpoch e)
  | .endTurn p => .ok (h.endTurn p)

/-- The table after a command that may have been refused. -/
def obey (h : Table) (c : Command) : Table :=
  match h.answer c with
  | .ok h' => h'
  | .error _ => h

/-- The table after a list of commands. -/
def play (h : Table) (commands : List Command) : Table := commands.foldl obey h

end Table

end Conquest
