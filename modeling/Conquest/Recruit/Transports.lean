import Conquest.Recruit.Sources

/-!
# Recruiting by sea

A loaded transport that can reach a sea zone next to the objective sails there and lands its cargo.
If the landing zone is threatened, warships of its zone sail ahead until their defense covers the
threat. Cargo that embarked earlier in the epoch is committed already and lands with its transport.
-/

namespace Conquest

/-- The cargo that the next order of a transport would land: what embarked in this epoch and what
is aboard and not committed. -/
def landableCargo (b : Board) (l : Ledger) (transport : PieceId) : List PieceId :=
  (b.cargoOf transport).filter fun u =>
    (l.embarked transport).contains u || !l.isCommitted u

/-- A transport, its route to a landing zone and the cargo that it would land. -/
structure Voyage where
  transport : Asset
  route : Route
  cargo : List Asset

/-- Nearest first, then the lowest transport. -/
def Voyage.order (x y : Voyage) : Ordering :=
  (compare x.route.length y.route.length).then (compare x.transport.id y.transport.id)

namespace Context

/-- The shortest route from `zone` to one of the landing zones that is free of enemies and within
`left` steps; of equal ones the route to the lowest zone. -/
def landingRoute? (c : Context) (b : Board) (landings : List TerritoryId) (zone : TerritoryId)
    (left : Nat) : Option Route :=
  firstLeast? (fun x y => (compare x.length y.length).then (compare x.dest y.dest))
    (landings.filterMap fun z =>
      (b.atlas.route? zone z fun t =>
        b.atlas.isWater t && (t == z || !b.hasEnemyForce t c.player)).filter fun r =>
          decide (r.length ≤ left) && !b.hasEnemyForce z c.player)

/-- The voyage that a ship with cargo space can make. -/
def voyage? (c : Context) (b : Board) (l : Ledger) (landings : List TerritoryId)
    (zone : TerritoryId) (transport : Asset) : Option Voyage := do
  guard (transport.kind.carriesCargo && !l.isCommitted transport.id && !b.hasBattle zone)
  guard (isCombat l || !transport.piece.movedThisTurn
    || decide (0 < transport.piece.movementLeft))
  let cargo := (landableCargo b l transport.id).filterMap b.asset?
  guard !cargo.isEmpty
  let route ← c.landingRoute? b landings zone transport.piece.movementLeft
  return ⟨transport, route, cargo⟩

/-- The voyages that could land cargo at the objective, nearest first. -/
def voyages (c : Context) (b : Board) (l : Ledger) (target : Target) : List Voyage :=
  let landings := b.atlas.shores target.objective
  if landings.isEmpty then []
  else
    let reach := greatestMovement (b.kindsWhere (·.carriesCargo))
    let zones := (Threat.stagingZones b landings reach).filter fun z => !target.exclude.contains z
    sortBy Voyage.order (zones.flatMap fun zone =>
      (b.ownedIn zone c.player).filterMap (c.voyage? b l landings zone))

/-! ## Escorts -/

/-- The first ships of a list that bring a fleet's defense up to a threat. -/
def escortsNeeded (c : Context) (threat : Float32) : List Asset → List Asset → List Asset
  | _, [] => []
  | fleet, ship :: rest =>
    if threat ≤ c.strength false true fleet then []
    else ship :: escortsNeeded c threat (fleet ++ [ship]) rest

/-- The warships in `source` that sail a route with a transport, if its end is threatened. -/
def escorts (c : Context) (b : Board) (l : Ledger) (source : TerritoryId) (route : Route) :
    List Asset :=
  let threat := c.threat b route.dest
  if threat ≤ 0 then []
  else
    let ships := (b.ownedIn source c.player).filter fun a =>
      a.kind.isSea && !a.kind.isTransport
        && decide (route.length ≤ a.piece.movementLeft) && c.isUsable b l a
    c.escortsNeeded threat (b.alliedIn route.dest c.player) (c.preferenceOrder false ships)

/-- Commits a transport with its cargo and its escorts, and gives their orders. -/
def sail (c : Context) (b : Board) (objective : TerritoryId) (v : Voyage) :
    Planning (List Order) := do
  let l ← get
  let cargo := (v.cargo.map (·.id)).filter fun u => !l.isCommitted u
  Planning.commitAll (v.transport.id :: cargo)
  let landing : Order :=
    { pieces := [v.transport.id], route := v.route.extend objective, action := .unload }
  if v.route.isEmpty then return [landing]
  else
    let escorts := c.escorts b (← get) v.transport.piece.territory v.route
    Planning.commitEach (escorts.map (·.id))
    return Requirement.orderFor escorts v.route ++ [landing]

/-- Sails voyages in order until the landed cargo is strong enough. -/
def sailAll (c : Context) (b : Board) (target : Target) (combat : Bool) :
    List Voyage → List Asset → List Order → Planning Haul
  | [], landed, orders => return ⟨c.strength combat false landed, orders⟩
  | v :: rest, landed, orders =>
    if target.needed ≤ c.strength combat false landed then
      return ⟨c.strength combat false landed, orders⟩
    else do
      let sailed ← c.sail b target.objective v
      sailAll c b target combat rest (landed ++ v.cargo) (orders ++ sailed)

/-- Recruits loaded transports for an objective on land. -/
def recruitTransports (c : Context) (b : Board) (target : Target) : Planning Haul := do
  let l ← get
  let o := target.objective
  if !b.atlas.isPassableLand o || (!isCombat l && !b.isFriendlyLand o c.player) then return {}
  else c.sailAll b target (isCombat l) (c.voyages b l target) [] []

end Context

end Conquest
