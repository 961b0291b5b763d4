import Conquest.Identifier

/-!
# Territories and players

A territory is a land region or a sea zone. Players of one team are allies.
-/

namespace Conquest

/-- A region of the map. -/
structure Territory where
  id : TerritoryId
  name : String
  isWater : Bool := false
  owner : Option PlayerId := none
  production : Nat := 0
  impassable : Bool := false
  hasFactory : Bool := false
  victoryCity : Bool := false
deriving DecidableEq, Repr, Inhabited

/-- Land that pieces may enter at all. -/
def Territory.isPassableLand (t : Territory) : Bool := !t.isWater && !t.impassable

/-- A side of the game. -/
structure Player where
  id : PlayerId
  name : String
  team : Nat := 0
  capital : Option TerritoryId := none
deriving DecidableEq, Repr, Inhabited

end Conquest
