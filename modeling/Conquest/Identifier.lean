/-!
# Identifiers

Territories, players, pieces and kinds of piece are addressed by their position in the table that
holds them. The labels are the spelling of an identifier inside a message.
-/

namespace Conquest

/-- Position of a territory in its atlas. -/
abbrev TerritoryId := Nat

/-- Position of a player in the board's list of players. -/
abbrev PlayerId := Nat

/-- Position of a piece in the board's table of pieces; a piece keeps it for the whole game. -/
abbrev PieceId := Nat

/-- Position of a kind of piece in the board's catalogue. -/
abbrev KindId := Nat

/-- A territory as messages name it. -/
def territoryLabel (t : TerritoryId) : String := s!"TerritoryId({t})"

/-- A piece as messages name it. -/
def pieceLabel (u : PieceId) : String := s!"UnitId({u})"

/-- A kind of piece as messages name it. -/
def kindLabel (k : KindId) : String := s!"UnitTypeId({k})"

end Conquest
