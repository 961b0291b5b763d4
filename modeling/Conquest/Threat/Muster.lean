import Conquest.Threat

/-!
# Mustering the attackers one by one

The attackers of a location as a clerk enters them on a roll: from place to place and from piece to
piece, with one look at the pieces to be ignored and one at those already on the roll. A piece that
is offered by several branches is entered where it is met first. What a transport could fetch is
counted against the room that is left aboard, and room is taken up by every piece that would board,
entered or not.
-/

namespace Conquest

/-- A roll, and the numbers of the pieces on it. -/
structure Muster where
  seen : List PieceId
  roll : List Asset

namespace Muster

/-- The roll before anybody is entered. -/
def blank : Muster := ⟨[], []⟩

section Clerk

variable (ignore : List PieceId)

/-- Enters an asset, unless it is to be ignored or is on the roll already. -/
def enter (m : Muster) (a : Asset) : Muster :=
  if ignore.contains a.id then m
  else if m.seen.contains a.id then m
  else ⟨a.id :: m.seen, m.roll ++ [a]⟩

/-- Goes through the pieces of the attacker in some places and enters those that are wanted
there. -/
def enterIn (b : Board) (attacker : PlayerId) (wanted : TerritoryId → Asset → Bool)
    (places : List TerritoryId) (m : Muster) : Muster :=
  places.foldl (fun m t =>
    (b.ownedIn t attacker).foldl (fun m a => if wanted t a then m.enter ignore a else m) m) m

/-! ## Transports -/

/-- Takes a piece aboard if there is room, and enters it. The first component is the room. -/
def embark (state : Nat × Muster) (a : Asset) : Nat × Muster :=
  if a.kind.transportCost ≤ state.1 then
    (state.1 - a.kind.transportCost, state.2.enter ignore a)
  else state

/-- Takes aboard what waits on a coast; there is no coast in a sea zone. -/
def fetchFrom (b : Board) (attacker : PlayerId) (state : Nat × Muster) (coast : TerritoryId) :
    Nat × Muster :=
  if b.atlas.isWater coast then state
  else (Threat.loadableAt b coast attacker).foldl (embark ignore) state

/-- Enters what a transport could land: its cargo, or what it could fetch. Ships without cargo space
and those out of reach of the landing zones are passed over. -/
def enterLanding (b : Board) (attacker : PlayerId) (landing : List TerritoryId)
    (zone : TerritoryId) (m : Muster) (ship : Asset) : Muster :=
  if ship.kind.transportCapacity == 0 || !ship.kind.isSea then m
  else if !landing.any fun z =>
      Atlas.reachableWithin (b.atlas.distance .sea zone z) ship.kind.movement then m
  else if !(b.cargoOf ship.id).isEmpty then
    ((b.cargoOf ship.id).filterMap b.asset?).foldl (enter ignore) m
  else
    ((b.atlas.neighbors zone).foldl (fetchFrom ignore b attacker)
      (ship.kind.transportCapacity, m)).2

/-- Adds a zone at the end, unless it is listed already. -/
def addZone (zones : List TerritoryId) (zone : TerritoryId) : List TerritoryId :=
  if zones.contains zone then zones else zones ++ [zone]

/-- The landing zones, and after them the zones in reach of each. -/
def zonesFor (b : Board) (landing : List TerritoryId) (reach : Nat) : List TerritoryId :=
  landing.foldl (fun zones z =>
    (b.atlas.neighborsWithin z reach b.atlas.isWater).foldl addZone zones) landing

/-- Enters what transports in reach could land at the location. -/
def enterLandings (b : Board) (location : TerritoryId) (attacker : PlayerId) (m : Muster) :
    Muster :=
  if (b.atlas.shores location).isEmpty then m
  else
    (zonesFor b (b.atlas.shores location)
        (greatestMovement (b.kindsWhere (·.carriesCargo)))).foldl
      (fun m zone => (b.ownedIn zone attacker).foldl
        (enterLanding ignore b attacker (b.atlas.shores location) zone) m) m

/-! ## The roll -/

/-- Enters the pieces next to the location. -/
def enterNeighbors (b : Board) (location : TerritoryId) (attacker : PlayerId) (m : Muster) :
    Muster :=
  m.enterIn ignore b attacker
    (fun _ a =>
      if b.atlas.isWater location then a.kind.isSea
      else a.kind.isLand && a.piece.carrier.isNone && !a.kind.isInfrastructure)
    (b.atlas.neighbors location)

/-- Enters the ships near a sea zone. -/
def enterShips (b : Board) (c : Config) (location : TerritoryId) (attacker : PlayerId)
    (m : Muster) : Muster :=
  m.enterIn ignore b attacker
    (fun t a => a.kind.isSea &&
      Atlas.reachableWithin (b.atlas.distance .sea t location) (wrap (a.kind.movement + 1)))
    (b.atlas.neighborsWithin location c.shipThreatRadius b.atlas.isWater)

/-- Enters the blitzers that have a clear way into the location. -/
def enterBlitzers (b : Board) (c : Config) (location : TerritoryId) (attacker : PlayerId)
    (m : Muster) : Muster :=
  m.enterIn ignore b attacker
    (fun s a =>
      if !a.kind.isLand || !a.kind.canBlitz || a.piece.carrier.isSome then false
      else
        (b.atlas.routeInto? s location fun t =>
          b.atlas.isPassableLand t && !b.hasEnemyForce t attacker).any
          fun r => decide (r.length ≤ a.kind.movement))
    (b.atlas.neighborsWithin location c.blitzThreatRadius b.atlas.isPassableLand)

/-- Enters the aircraft in range. -/
def enterAircraft (b : Board) (location : TerritoryId) (attacker : PlayerId) (m : Muster) :
    Muster :=
  let reach := greatestMovement (b.kindsWhere (·.isAir))
  if 1 < reach then
    m.enterIn ignore b attacker
      (fun t a => a.kind.isAir && (b.atlas.distance .any t location).any (· < a.kind.movement))
      (b.atlas.neighborsWithin location (reach - 1) b.atlas.isOpen)
  else m

end Clerk

end Muster

/-- The attackers as they are entered one by one. -/
def musterAttackers (b : Board) (c : Config) (location : TerritoryId) (attacker : PlayerId)
    (ignore : List PieceId) : List Asset :=
  let next := Muster.blank.enterNeighbors ignore b location attacker
  let main :=
    if b.atlas.isWater location then next.enterShips ignore b c location attacker
    else
      (next.enterBlitzers ignore b c location attacker).enterLandings ignore b location attacker
  (main.enterAircraft ignore b location attacker).roll

end Conquest
