import Conquest.Context

/-!
# Ranking of territories

Candidates are scored from the player's point of view, as targets of an attack or as land to
defend, and listed best first. Equal scores go to the territory nearer to the capital, then to the
lower identifier.
-/

namespace Conquest

/-- What a ranking is for. -/
inductive Purpose where
  | attack
  | defend
deriving DecidableEq, Repr

/-- A scored territory. -/
structure Ranked where
  territory : TerritoryId
  score : Float32
  /-- Steps from the capital; none if it cannot be reached. -/
  capitalDistance : Option Nat

/-- The order of distances: shorter first, unreachable last. -/
def compareDistance : Option Nat → Option Nat → Ordering
  | some m, some n => compare m n
  | some _, none => .lt
  | none, some _ => .gt
  | none, none => .eq

/-- Best first: higher score, then nearer to the capital, then lower identifier. -/
def Ranked.order (x y : Ranked) : Ordering :=
  (Binary32.order y.score x.score).then <|
  (compareDistance x.capitalDistance y.capitalDistance).then (compare x.territory y.territory)

/-- The shortest of the distances that are finite. -/
def shortestDistance? (distances : List (Option Nat)) : Option Nat :=
  (distances.filterMap id).min?

namespace Context

/-- Whether a territory lies on a shortest land path between the capital and an enemy capital. -/
def onCapitalPath (c : Context) (b : Board) (t : TerritoryId) : Bool :=
  c.capital.any fun home => c.enemyCapitals.any fun enemy =>
    match b.atlas.distance .land home enemy, b.atlas.distance .land home t,
      b.atlas.distance .land t enemy with
    | some whole, some first, some second => first + second == whole
    | _, _, _ => false

/-- What distance to the enemy's capitals is worth in an attack: a bonus for a land route that
decays with its length, a bonus on a path between capitals, and a penalty for every step. -/
def capitalValue (c : Context) (b : Board) (t : TerritoryId) (value : Float32) : Float32 :=
  let routed :=
    match shortestDistance? (c.enemyCapitals.map (b.atlas.distance .land t)) with
    | some d =>
      value + (c.config.capitalRouteBonus -
        Binary32.smaller (.ofNat (d - 1)) c.config.capitalRouteDecayCap)
    | none => value
  let onPath := if c.onCapitalPath b t then routed + c.config.capitalPathBonus else routed
  match shortestDistance? (c.enemyCapitals.map (b.atlas.distance .any t)) with
  | some d => onPath - .ofNat (d - 1)
  | none => onPath

/-- The force that could be brought against `t` from the point of view of `owner`. -/
def reachAgainst (c : Context) (b : Board) (t : TerritoryId) (owner : Option PlayerId) :
    Float32 :=
  match owner with
  | none => 0
  | some o => potentialStrength b c.evaluator c.config t o []

/-- The value of attacking land. -/
def landAttackScore (c : Context) (b : Board) (t : TerritoryId) : Float32 :=
  let land := b.territory t
  let production : Float32 := .ofNat land.production
  if land.owner.isNone then production - c.config.neutralPenalty
  else
    let city : Float32 := if land.victoryCity then 2 else 0
    let produced := c.capitalValue b t city + production * c.config.productionWeight
    let industrial := if land.hasFactory then produced + c.config.factoryBonus else produced
    let planes := (b.hostileIn t c.player).countP (·.kind.isAir)
    let exposed := industrial + .ofNat planes * c.config.airTargetBonus
    let value := if b.atlas.isIsland t then exposed + c.config.islandBonus else exposed
    let net := c.reachAgainst b t land.owner - c.defense b t - 0.5 * c.threat b t
    value + net * c.config.attackNetWeight

/-- The value of attacking a sea zone. Sea zones have no owner; the reach is measured against the
owner of the first hostile piece. -/
def seaAttackScore (c : Context) (b : Board) (t : TerritoryId) : Float32 :=
  let hostile := b.hostileIn t c.player
  let transports : Float32 := .ofNat (hostile.countP (·.kind.isTransport))
  let loot := transports * 2
  let value :=
    if (b.atlas.neighbors t).any c.factories.contains then loot + c.config.factoryBonus else loot
  let net := c.reachAgainst b t (hostile.head?.map (·.piece.owner)) - c.defense b t
  value + net * c.config.attackNetWeight

/-- The value of defending land. -/
def defendScore (c : Context) (b : Board) (t : TerritoryId) : Float32 :=
  let land := b.territory t
  let island : Float32 := if b.atlas.isIsland t then 0 - c.config.islandBonus else 0
  let facesEnemy := (b.atlas.neighbors t).any fun n =>
    b.isEnemyLand n c.player || (!b.atlas.isWater n && b.hasEnemyForce n c.player)
  let exposed := island +
    (if facesEnemy then c.config.enemyNeighborBonus else -c.config.enemyNeighborBonus)
  let servesAlly := (b.atlas.neighbors t).any fun n =>
    (b.territory n).hasFactory && b.isFriendlyLand n c.player
      && (b.territory n).owner != some c.player
  let allied := if servesAlly then exposed + c.config.alliedFactoryNeighborBonus else exposed
  let near :=
    match shortestDistance? ((b.enemyTerritories c.player).map (b.atlas.distance .land t)) with
    | none => allied - c.config.noEnemyRoutePenalty
    | some d =>
      let penalty := Binary32.smaller (Binary32.larger (.ofNat d - 2) 0)
        c.config.enemyRoutePenaltyCap
      allied + (.ofNat land.production - penalty)
  let threat := c.threat b t
  let industrial :=
    if land.hasFactory then
      let bonus := near + c.config.factoryBonus
      if facesEnemy && (5 < threat : Bool) then bonus + 3 else bonus
    else near
  let value := if c.capital == some t then industrial + c.config.factoryBonus else industrial
  value + (threat - c.garrison b t) * c.config.defendNetWeight

/-- The score of one territory. -/
def score (c : Context) (b : Board) (purpose : Purpose) (t : TerritoryId) : Float32 :=
  let score :=
    match purpose with
    | .attack => if b.atlas.isWater t then c.seaAttackScore b t else c.landAttackScore b t
    | .defend => c.defendScore b t
  if c.isAttacked t then score - c.config.attackedPenalty else score

/-- The scored territory. -/
def scored (c : Context) (b : Board) (purpose : Purpose) (t : TerritoryId) : Ranked where
  territory := t
  score := c.score b purpose t
  capitalDistance := c.capital.bind fun home => b.atlas.distance .any home t

/-- The candidates with their scores, best first. -/
def rank (c : Context) (b : Board) (candidates : List TerritoryId) (purpose : Purpose) :
    List Ranked :=
  sortBy Ranked.order (candidates.map (c.scored b purpose))

/-- The candidates, best first. -/
def bestFirst (c : Context) (b : Board) (candidates : List TerritoryId) (purpose : Purpose) :
    List TerritoryId :=
  (c.rank b candidates purpose).map (·.territory)

end Context

end Conquest
