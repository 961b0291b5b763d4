import Conquest.Ranking
import Conquest.Order
import Conquest.Tally

/-!
# Placing what was bought

Land pieces and aircraft go to the factory that ranks highest for defense, the capital first while
it is in danger, and to the next one when a factory is full. Ships go to the least threatened safe
sea zone next to such a factory and take its room. What fits nowhere is left out.
-/

namespace Conquest

/-- A factory with the room left at it. -/
structure Yard where
  factory : TerritoryId
  room : Nat
deriving DecidableEq, Repr

/-- Takes one place at the first yard with room that has a site for the new piece; the site is where
the piece will stand. -/
def Yard.take? (site? : TerritoryId → Option TerritoryId) :
    List Yard → Option (TerritoryId × List Yard)
  | [] => none
  | y :: rest =>
    match if y.room = 0 then none else site? y.factory with
    | some site => some (site, { y with room := y.room - 1 } :: rest)
    | none => (take? site? rest).map fun (site, rest) => (site, y :: rest)

/-- Finds sites for pieces one after another, until one of them finds none; the yards that are left
come last. -/
def Yard.fill (site? : TerritoryId → Option TerritoryId) :
    List KindId → List Yard → List (TerritoryId × KindId) × List Yard
  | [], yards => ([], yards)
  | k :: rest, yards =>
    match Yard.take? site? yards with
    | none => ([], yards)
    | some (site, yards) =>
      let (others, left) := fill site? rest yards
      ((site, k) :: others, left)

namespace Context

/-- The factories that new pieces may go to, in order of preference. -/
def yardOrder (c : Context) (b : Board) : List TerritoryId :=
  let order := c.bestFirst b
    (c.factories.filter fun f => b.isFriendlyLand f c.player && !b.isConquered f) .defend
  match c.capital.filter fun t => c.capitalDanger && order.contains t with
  | some capital => capital :: order.filter (· != capital)
  | none => order

/-- The least threatened sea zone next to a factory without an enemy force; of equal ones the
lowest. -/
def harbor? (c : Context) (b : Board) (factory : TerritoryId) : Option TerritoryId :=
  (firstLeast? (fun x y => (Binary32.order x.1 y.1).then (compare x.2 y.2))
    (((b.atlas.shores factory).filter fun z => !b.hasEnemyForce z c.player).map fun z =>
      (c.threat b z, z))).map (·.2)

end Context

/-- Where the pieces of a purchase go, by ascending territory. `capacity` is the room that the host
offers in a territory. -/
def planPlacements (b : Board) (capacity : TerritoryId → Nat) (c : Context) (bought : Tally) :
    List Placement :=
  let yards := (c.yardOrder b).map fun f => (⟨f, capacity f⟩ : Yard)
  let (ships, others) := bought.toKinds.partition fun k => (b.kind k).isSea
  let (ashore, yards) := Yard.fill some others yards
  let (afloat, _) := Yard.fill (c.harbor? b) ships yards
  (groupByKey (·.1) (ashore ++ afloat)).map fun (territory, group) =>
    ⟨territory, group.map (·.2)⟩

end Conquest
