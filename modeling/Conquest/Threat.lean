import Conquest.Atlas.Distance
import Conquest.Atlas.Search
import Conquest.Board.Query
import Conquest.Cargo
import Conquest.Ordered
import Conquest.Strength

/-!
# Threat

How much force each hostile player could bring against a territory on its next turn: neighbours,
ships nearby, blitzers with a clear way, what transports could land, aircraft in range. Each branch
offers assets; the attackers are the offered assets without the ignored ones, each once. The
strongest enemy counts fully and the others in part.
-/

namespace Conquest

/-- The strength of the garrison of `t`: of `p` and its allies, or of those hostile to `p`. -/
def territoryStrength (b : Board) (e : Evaluator) (t : TerritoryId) (p : PlayerId)
    (attacking allied : Bool) : Float32 :=
  e.evaluate ⟨attacking, b.atlas.isWater t, b.rules.transportsCanDie⟩
    (if allied then b.alliedIn t p else b.hostileIn t p)

namespace Threat

/-- Pieces next to the location: ships against a sea zone, otherwise land pieces that are not
aboard. -/
def neighbors (b : Board) (location : TerritoryId) (attacker : PlayerId) : List Asset :=
  (b.atlas.neighbors location).flatMap fun n =>
    (b.ownedIn n attacker).filter fun a =>
      if b.atlas.isWater location then a.kind.isSea
      else a.kind.isLand && !a.isAboard && !a.kind.isInfrastructure

/-- Ships near a sea zone that can sail next to it and one step on. -/
def ships (b : Board) (c : Config) (location : TerritoryId) (attacker : PlayerId) : List Asset :=
  (b.atlas.neighborsWithin location c.shipThreatRadius b.atlas.isWater).flatMap fun t =>
    (b.ownedIn t attacker).filter fun a =>
      a.kind.isSea &&
        Atlas.reachableWithin (b.atlas.distance .sea t location) (wrap (a.kind.movement + 1))

/-- Blitzing pieces with a clear way into the location. -/
def blitzers (b : Board) (c : Config) (location : TerritoryId) (attacker : PlayerId) :
    List Asset :=
  (b.atlas.neighborsWithin location c.blitzThreatRadius b.atlas.isPassableLand).flatMap fun s =>
    (b.ownedIn s attacker).filter fun a =>
      a.kind.isLand && a.kind.canBlitz && !a.isAboard &&
        (b.atlas.routeInto? s location fun t =>
          b.atlas.isPassableLand t && !b.hasEnemyForce t attacker).any
          fun r => decide (r.length ≤ a.kind.movement)

/-- Pieces ashore that a transport could carry, the better attackers first. -/
def loadableAt (b : Board) (coast : TerritoryId) (attacker : PlayerId) : List Asset :=
  sortBy (fun x y => (compare y.kind.attack x.kind.attack).then (compare x.id y.id))
    ((b.ownedIn coast attacker).filter fun a => a.kind.canBeTransported && !a.isAboard)

/-- What an empty transport with some room could fetch from a list of coasts. -/
def fetchable (b : Board) (attacker : PlayerId) : Nat → List TerritoryId → List Asset
  | _, [] => []
  | room, coast :: rest =>
    let (taken, left) := fillHold room (loadableAt b coast attacker)
    taken ++ fetchable b attacker left rest

/-- The zones from which a fleet with some reach can arrive at one of the landing zones. -/
def stagingZones (b : Board) (landings : List TerritoryId) (reach : Nat) : List TerritoryId :=
  (landings ++ landings.flatMap fun z =>
    b.atlas.neighborsWithin z reach b.atlas.isWater).eraseDups

/-- What a transport in `zone` could land: its cargo, or what it could fetch from the coasts of its
zone. -/
def landedBy (b : Board) (attacker : PlayerId) (zone : TerritoryId) (transport : Asset) :
    List Asset :=
  let cargo := b.cargoOf transport.id
  if cargo.isEmpty then
    fetchable b attacker transport.kind.transportCapacity
      ((b.atlas.neighbors zone).filter fun t => !b.atlas.isWater t)
  else cargo.filterMap b.asset?

/-- What transports in reach of the location's shores could land. -/
def landings (b : Board) (location : TerritoryId) (attacker : PlayerId) : List Asset :=
  let shores := b.atlas.shores location
  if shores.isEmpty then []
  else
    let reach := greatestMovement (b.kindsWhere (·.carriesCargo))
    (stagingZones b shores reach).flatMap fun zone =>
      ((b.ownedIn zone attacker).filter fun a =>
        a.kind.carriesCargo && shores.any fun z =>
          Atlas.reachableWithin (b.atlas.distance .sea zone z) a.kind.movement).flatMap
        (landedBy b attacker zone)

/-- Aircraft that could reach the location with a step to spare. -/
def aircraft (b : Board) (location : TerritoryId) (attacker : PlayerId) : List Asset :=
  let reach := greatestMovement (b.kindsWhere (·.isAir))
  if reach ≤ 1 then []
  else
    (b.atlas.neighborsWithin location (reach - 1) b.atlas.isOpen).flatMap fun t =>
      (b.ownedIn t attacker).filter fun a =>
        a.kind.isAir && (b.atlas.distance .any t location).any (· < a.kind.movement)

/-- Everything that the attacker could commit against the location, with repetitions. -/
def offers (b : Board) (c : Config) (location : TerritoryId) (attacker : PlayerId) :
    List Asset :=
  neighbors b location attacker ++
    (if b.atlas.isWater location then ships b c location attacker
     else blitzers b c location attacker ++ landings b location attacker) ++
    aircraft b location attacker

end Threat

/-- The assets that the attacker could commit against the location, each once, without the ignored
pieces. -/
def potentialAttackers (b : Board) (c : Config) (location : TerritoryId) (attacker : PlayerId)
    (ignore : List PieceId) : List Asset :=
  distinctAssets ((Threat.offers b c location attacker).filter fun a => !ignore.contains a.id)

/-- The force that players hostile to `p` could bring against the location. -/
def potentialStrength (b : Board) (e : Evaluator) (c : Config) (location : TerritoryId)
    (p : PlayerId) (ignore : List PieceId) : Float32 :=
  let strengths := (b.enemiesOf p).map fun enemy =>
    e.evaluate ⟨true, b.atlas.isWater location, b.rules.transportsCanDie⟩
      (potentialAttackers b c location enemy ignore)
  let strongest := Binary32.largest strengths
  strongest + c.otherEnemiesFactor * (Binary32.sum strengths - strongest)

/-- Whether the enemy could overwhelm the capital of `p` even after the expected reinforcement. -/
def capitalInDanger (b : Board) (e : Evaluator) (c : Config) (p : PlayerId) : Bool :=
  match (b.player p).capital with
  | none => false
  | some capital =>
    b.isFriendlyLand capital p &&
      decide ((territoryStrength b e capital p false true + c.expectedReinforcement)
        * c.capitalThreatFactor < potentialStrength b e c capital p [])

end Conquest
