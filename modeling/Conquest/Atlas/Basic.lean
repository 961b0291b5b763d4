import Conquest.Territory

/-!
# The atlas

An atlas holds the territories of the map and, for each of them, its neighbours in the order in
which they were connected. That order decides every tie between routes of equal length.
-/

namespace Conquest

/-- The territories of the map and their neighbours. -/
structure Atlas where
  territories : Array Territory
  adjacency : Array (List TerritoryId)
deriving Inhabited

/-- Which territories a distance may step through. -/
inductive Passage where
  /-- Land that is not impassable. -/
  | land
  /-- Sea zones. -/
  | sea
  /-- Whatever is not impassable. -/
  | any
deriving DecidableEq, Repr

namespace Atlas

/-- The atlas of `ts` without any connection. -/
def ofTerritories (ts : Array Territory) : Atlas := ⟨ts, ts.map fun _ => []⟩

/-- Number of territories. -/
def size (m : Atlas) : Nat := m.territories.size

/-- The identifiers of the atlas, in order. -/
def ids (m : Atlas) : List TerritoryId := List.range m.size

/-- The territory with an identifier. -/
def territory (m : Atlas) (t : TerritoryId) : Territory := m.territories.getD t default

/-- The neighbours of a territory, in the order of connection. -/
def neighbors (m : Atlas) (t : TerritoryId) : List TerritoryId := m.adjacency.getD t []

/-- Whether `b` is a neighbour of `a`. -/
def isAdjacent (m : Atlas) (a b : TerritoryId) : Bool := (m.neighbors a).contains b

/-- Connects two territories in both directions. A territory is never connected to itself, to
something outside the atlas, or twice to the same neighbour. -/
def connect (m : Atlas) (a b : TerritoryId) : Atlas :=
  if a = b ∨ m.adjacency.size ≤ a ∨ m.adjacency.size ≤ b ∨ m.isAdjacent a b then m
  else { m with adjacency := (m.adjacency.modify a (· ++ [b])).modify b (· ++ [a]) }

/-- Replaces the entry of one territory. -/
def modify (m : Atlas) (t : TerritoryId) (f : Territory → Territory) : Atlas :=
  { m with territories := m.territories.modify t f }

/-- The first territory with a name. -/
def find? (m : Atlas) (name : String) : Option TerritoryId :=
  (m.territories.toList.find? (·.name == name)).map (·.id)

/-- The sea zones, in order. -/
def seaZones (m : Atlas) : List TerritoryId :=
  (m.territories.toList.filter (·.isWater)).map (·.id)

/-- Whether a territory is a sea zone. -/
def isWater (m : Atlas) (t : TerritoryId) : Bool := (m.territory t).isWater

/-- Whether pieces may enter a territory at all. -/
def isOpen (m : Atlas) (t : TerritoryId) : Bool := !(m.territory t).impassable

/-- Whether a territory is land that can be entered. -/
def isPassableLand (m : Atlas) (t : TerritoryId) : Bool := (m.territory t).isPassableLand

/-- Land next to a sea zone. -/
def isCoastal (m : Atlas) (t : TerritoryId) : Bool :=
  !m.isWater t && (m.neighbors t).any m.isWater

/-- Land without a land neighbour. -/
def isIsland (m : Atlas) (t : TerritoryId) : Bool :=
  !m.isWater t && !(m.neighbors t).any m.isPassableLand

/-- The sea zones next to a territory. -/
def shores (m : Atlas) (t : TerritoryId) : List TerritoryId := (m.neighbors t).filter m.isWater

/-- Whether a passage leads through a territory. -/
def admits (m : Atlas) : Passage → TerritoryId → Bool
  | .land => m.isPassableLand
  | .sea => m.isWater
  | .any => m.isOpen

end Atlas

end Conquest
