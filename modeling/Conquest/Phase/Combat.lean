import Conquest.Phase.Loading

/-!
# The combat move

Fleets are attacked first, then transports are loaded for the invasion, the garrison that the
capital needs is held, coasts are assaulted, land is attacked, and idle bombers raid factories.
-/

namespace Conquest

namespace Context

/-- Whether a piece of the player that can move stands within some steps of `t`. -/
def isWithinReach (c : Context) (b : Board) (reach : Nat) (t : TerritoryId) : Bool :=
  (b.atlas.neighborsWithin t reach b.atlas.isOpen).any fun n =>
    (b.ownedIn n c.player).any fun a =>
      !a.kind.isInfrastructure && decide (0 < a.piece.movementLeft)

/-- The most that any piece moves. -/
def greatestReach (b : Board) : Nat := greatestMovement b.kinds.toList

/-- Whether a haul brings at least one land piece, on foot or from a transport. -/
def landsTroops (b : Board) (h : Haul) : Bool :=
  h.orders.any fun o => o.isUnload || (o.pieces.filterMap b.asset?).any (·.kind.isLand)

/-- The best targets of a list, no more than the configuration allows. -/
def bestTargets (c : Context) (b : Board) (candidates : List TerritoryId) : List TerritoryId :=
  (c.bestFirst b candidates .attack).take c.config.maxAttackTargets

/-! ## Attacks -/

/-- The sea zones with an enemy force within reach and without a battle. -/
def fleetTargets (c : Context) (b : Board) : List TerritoryId :=
  (b.atlas.seaZones.filter fun t => b.hasEnemyForce t c.player && !b.hasBattle t).filter
    (c.isWithinReach b (greatestReach b))

/-- Coastal enemy land that has not been attacked, the invasion target first. -/
def coastalTargets (c : Context) (b : Board) : List TerritoryId :=
  let coastal := (b.enemyTerritories c.player).filter fun t =>
    b.atlas.isCoastal t && !c.isAttacked t
  let ranked := c.bestFirst b coastal .attack
  match c.invasionTarget with
  | none => ranked
  | some first =>
    let others := ranked.filter (· != first)
    if coastal.contains first then first :: others else others

/-- Enemy land within reach that has not been attacked. -/
def landTargets (c : Context) (b : Board) : List TerritoryId :=
  (b.enemyTerritories c.player).filter fun t =>
    !c.isAttacked t && c.isWithinReach b (greatestReach b) t

/-- The branches that attack a territory overland: undefended land takes blitzers or single land
pieces, defended land draws on everything in reach. -/
def landBranches (b : Board) (c : Context) (target : TerritoryId) : List Branch :=
  if c.defense b target ≤ 0 then [.blitz, .land] else [.blitz, .transports, .air, .land]

end Context

namespace Drafting

/-- Attacks enemy fleets with warships and aircraft. -/
def seaCombat (b : Board) : Drafting (List Order) := do
  let c := (← get).context
  attackEach b (fun _ _ => [.ships, .air]) (fun _ => true) (c.bestTargets b (c.fleetTargets b))

/-- Lands troops on enemy coasts with bombardment and aircraft in support. -/
def amphibiousAssault (b : Board) : Drafting (List Order) := do
  let c := (← get).context
  attackEach b (fun _ _ => [.transports, .bombard, .air]) (fun h => h.orders.any (·.isUnload))
    ((c.coastalTargets b).take c.config.maxAttackTargets)

/-- Attacks enemy land overland. -/
def landCombat (b : Board) : Drafting (List Order) := do
  let c := (← get).context
  attackEach b (Context.landBranches b) (Context.landsTroops b)
    (c.bestTargets b (c.landTargets b))

end Drafting

namespace Context

/-! ## Preparation -/

/-- Loads troops onto transports that can reach the invasion target this turn. -/
def loadForInvasion (c : Context) (b : Board) : Planning (List Order) :=
  match c.invasionTarget with
  | none => return []
  | some target =>
    c.loadTransports b fun a => (b.atlas.shores target).any fun z =>
      Atlas.reachableWithin (b.atlas.distance .sea a.piece.territory z) a.piece.movementLeft

/-- The capital, if it is in danger and not lost. -/
def endangeredCapital? (c : Context) : Option TerritoryId :=
  c.capital.filter fun _ => c.capitalDanger && !c.capitalLost

/-- The better defender first, then the lower identifier. -/
def defenderOrder (x y : Asset) : Ordering :=
  (compare y.kind.defense x.kind.defense).then (compare x.id y.id)

/-- Holds pieces of a list until what is held can face a threat. -/
def holdAgainst (c : Context) (threat : Float32) : List Asset → List Asset → Planning Unit
  | _, [] => return
  | held, a :: rest =>
    if threat ≤ c.strength false false held then return
    else do
      if ← Planning.hold a.id then holdAgainst c threat (held ++ [a]) rest
      else holdAgainst c threat held rest

/-- Holds enough of the garrison of an endangered capital to face the threat. -/
def holdCapital (c : Context) (b : Board) : Planning (List Order) := do
  match c.endangeredCapital? with
  | none => return []
  | some capital =>
    let l ← get
    let garrison := (b.ownedIn capital c.player).filter fun a =>
      !a.kind.isInfrastructure && !l.isCommitted a.id
    c.holdAgainst (c.threat b capital) [] (sortBy defenderOrder garrison)
    return []

/-! ## Bombing -/

/-- The raid on the most productive factory that a bomber can reach and land after; of equal ones
the nearest, then the lowest. -/
def raidFor? (c : Context) (b : Board) (factories : List TerritoryId) (bomber : Asset) :
    Option Route :=
  lastGreatest? (fun x y =>
    (compare (b.territory x.dest).production (b.territory y.dest).production).then <|
    (compare y.length x.length).then (compare y.dest x.dest))
    (factories.filterMap fun f =>
      (b.atlas.route? bomber.piece.territory f b.atlas.isOpen).filter fun r =>
        decide (r.length ≤ bomber.piece.movementLeft) &&
          canLandNear b c.player f (bomber.piece.movementLeft - r.length))

/-- The bombers of the player that can still be sent out. -/
def idleBombers (c : Context) (b : Board) (l : Ledger) : List Asset :=
  (b.atlas.territories.toList.flatMap fun t => b.ownedIn t.id c.player).filter fun a =>
    a.kind.isStrategicBomber && decide (0 < a.piece.movementLeft)
      && !l.isCommitted a.id && !b.hasBattle a.piece.territory

/-- Sends idle bombers against enemy factories. -/
def strategicBombing (c : Context) (b : Board) : Planning (List Order) := do
  let factories := (b.enemyTerritories c.player).filter fun t => (b.territory t).hasFactory
  if factories.isEmpty then return []
  else
    collect (fun bomber => do
      match c.raidFor? b factories bomber with
      | none => return []
      | some route =>
        Planning.apply (·.commit bomber.id)
        return [{ pieces := [bomber.id], route }]) (c.idleBombers b (← get))

end Context

end Conquest
