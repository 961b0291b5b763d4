import Conquest.Phase.Combat

/-!
# The non-combat move

Nothing that moves here may end in hostile territory. The capital is reinforced, the fleet gathers,
transports sail toward the invasion, aircraft take up better bases, threatened land is reinforced
and idle troops walk toward the front, gaps are blocked, aircraft come home and cargo is put ashore.
-/

namespace Conquest.Context

/-- The pieces of the player in `t` that may still make a non-combat move. -/
def idle (c : Context) (b : Board) (l : Ledger) (t : TerritoryId) : List Asset :=
  (b.ownedIn t c.player).filter fun a =>
    !a.kind.isInfrastructure && !a.piece.movedThisTurn && decide (0 < a.piece.movementLeft)
      && !a.isAboard && !l.isCommitted a.id

/-- Pieces in groups of equal movement, so that each group can share a route. -/
def byMovement (assets : List Asset) : List (Nat × List Asset) :=
  groupByKey (fun a => a.piece.movementLeft) assets

/-- The longest part of a route whose end the group could hold against the threat there. -/
def safePart? (c : Context) (b : Board) (route : Route) (group : List Asset) : Option Route :=
  ((List.range route.length).reverse.map fun k => route.truncate (k + 1)).find? fun r =>
    decide (c.threat b r.dest ≤
      c.strength false (b.atlas.isWater r.dest) (b.alliedIn r.dest c.player ++ group))

/-! ## Capital and transports -/

/-- Loads troops for the next turn's invasion. -/
def loadForNextTurn (c : Context) (b : Board) : Planning (List Order) :=
  if c.invasion.isNone then return []
  else c.loadTransports b fun a => !a.piece.movedThisTurn

/-- Reinforces an endangered capital and keeps its garrison in place. -/
def reinforceCapital (c : Context) (b : Board) : Planning (List Order) := do
  match c.endangeredCapital? with
  | none => return []
  | some capital =>
    let target : Target :=
      { objective := capital, needed := c.threat b capital - c.garrison b capital }
    let haul ← c.recruitChain b target [.land, .transports, .air] {}
    ((b.ownedIn capital c.player).filter fun a => !a.kind.isInfrastructure).forM fun a =>
      discard (Planning.hold a.id)
    return haul.orders

/-- Where the fleet gathers: at the end of the invasion route, otherwise in the most threatened safe
zone next to home. -/
def fleetStation? (c : Context) (b : Board) : Option TerritoryId :=
  match c.invasionRoute with
  | some route => some route.dest
  | none =>
    c.home?.bind fun home =>
      (lastGreatest? (fun x y => (Binary32.order x.1 y.1).then (compare y.2 x.2))
        (((b.atlas.neighbors home).filter (c.isSafeWater b)).map fun z =>
          (c.threat b z, z))).map (·.2)

/-- Moves idle warships toward the fleet station, stopping short of zones they could not hold. -/
def navalReposition (c : Context) (b : Board) : Planning (List Order) :=
  match c.fleetStation? b with
  | none => return []
  | some station =>
    collect (fun zone => do
      if zone == station || b.hasBattle zone then return []
      else
        let ships := (c.idle b (← get) zone).filter fun a => a.kind.isSea && !a.kind.isTransport
        if ships.isEmpty then return []
        else match b.atlas.route? zone station (c.isSafeWater b) with
          | none => return []
          | some full =>
            collect (fun (movement, group) =>
              match c.safePart? b (full.truncate movement) group with
              | none => return []
              | some route => do
                let pieces := group.map (·.id)
                Planning.commitAll pieces
                return [{ pieces, route }]) (byMovement ships)) b.atlas.seaZones

/-- Sails loaded transports toward the zone next to the invasion target. -/
def amphibiousReinforce (c : Context) (b : Board) : Planning (List Order) :=
  match c.invasionRoute.map Route.dest with
  | none => return []
  | some landing =>
    collect (fun zone => do
      if zone == landing || b.hasBattle zone then return []
      else
        collect (fun transport => do
          let cargo := b.cargoOf transport.id
          if !transport.kind.isTransport || cargo.isEmpty then return []
          else
            let route? := (b.atlas.route? zone landing (c.isSafeWater b)).bind fun full =>
              c.safePart? b (full.truncate transport.piece.movementLeft) [transport]
            match route? with
            | none => return []
            | some route =>
              let l ← get
              Planning.commitAll (transport.id :: cargo.filter fun u => !l.isCommitted u)
              return [{ pieces := [transport.id], route }]) (c.idle b (← get) zone))
      b.atlas.seaZones

/-! ## Aircraft -/

/-- The land of the player that aircraft may end the turn in, best to defend first. -/
def airBases (c : Context) (b : Board) : List TerritoryId :=
  c.bestFirst b ((b.territoriesOf c.player).filter (b.isLandable c.player)) .defend

/-- Where aircraft with some movement should go from a base: to the best base in reach, which may be
the one they are in. -/
def bestBase? (b : Board) (bases : List TerritoryId) (source : TerritoryId) (movement : Nat) :
    Option Route :=
  bases.findSome? fun base =>
    if base = source then some (.stay source)
    else (b.atlas.route? source base b.atlas.isOpen).filter fun r => decide (r.length ≤ movement)

/-- Moves idle aircraft to the best base they can reach; those that are there already are held. -/
def airReposition (c : Context) (b : Board) : Planning (List Order) :=
  let bases := c.airBases b
  collect (fun source => do
    let planes := (c.idle b (← get) source).filter (·.kind.isAir)
    collect (fun (movement, group) => do
      let pieces := group.map (·.id)
      match (bestBase? b bases source movement).filter fun r => !r.isEmpty with
      | some route =>
        Planning.commitAll pieces
        return [{ pieces, route }]
      | none =>
        pieces.forM fun u => discard (Planning.hold u)
        return []) (byMovement planes)) bases

/-- Whether an aircraft may end the turn where it is: over friendly land that was not captured this
turn, or, if it can land on carriers, in a zone with a carrier of the player or an ally. -/
def mayStay (c : Context) (b : Board) (a : Asset) : Bool :=
  let t := a.piece.territory
  if b.atlas.isWater t then
    a.kind.isCarrierBorne && (b.alliedIn t c.player).any (·.kind.isCarrier)
  else b.isLandable c.player t

/-- Brings aircraft back to somewhere they can land. -/
def airLanding (c : Context) (b : Board) : Planning (List Order) :=
  collect (fun t =>
    collect (fun plane => do
      if !plane.kind.isAir || (← get).isCommitted plane.id || c.mayStay b plane then return []
      else match (landingFor? b c plane).filter fun r => !r.isEmpty with
        | none => return []
        | some route =>
          Planning.apply (·.commit plane.id)
          return [{ pieces := [plane.id], route }]) (b.ownedIn t c.player)) b.atlas.ids

/-! ## Land -/

/-- The friendly land whose threat exceeds its garrison, with the difference. -/
def gaps (c : Context) (b : Board) : List (TerritoryId × Float32) :=
  ((b.territoriesWhere fun t => b.isFriendlyLand t.id c.player).map fun t =>
    (t, c.threat b t - c.garrison b t)).filter fun (_, gap) => decide (0 < gap)

/-- Reinforces threatened land, the player's or an ally's, without weakening other threatened
land. -/
def reinforceGaps (c : Context) (b : Board) (gaps : List (TerritoryId × Float32)) :
    Planning (List Order) :=
  let threatened := gaps.map (·.1)
  collect (fun t => do
    let target : Target :=
      { objective := t, needed := (gaps.lookup t).getD 0, exclude := threatened }
    return (← c.recruitChain b target [.land, .transports] {}).orders)
    ((c.bestFirst b threatened .defend).take c.config.maxAttackTargets)

/-- The enemy land nearest to `source` over land; of equal ones the lowest. -/
def nearestFront? (c : Context) (b : Board) (source : TerritoryId) : Option TerritoryId :=
  (firstLeast? (fun x y => (compare x.1 y.1).then (compare x.2 y.2))
    ((b.enemyTerritories c.player).filterMap fun e =>
      (b.atlas.distance .land source e).map (·, e))).map (·.2)

/-- Walks the idle troops of a safe territory toward the nearest enemy, at most up to its border. -/
def marchFrom (c : Context) (b : Board) (source : TerritoryId) : Planning (List Order) := do
  let troops := (c.idle b (← get) source).filter (·.kind.isLand)
  if troops.isEmpty then return []
  else
    let route? := (c.nearestFront? b source).bind fun front =>
      b.atlas.routeInto? source front fun t =>
        b.isFriendlyLand t c.player && !b.hasEnemyForce t c.player
    match route? with
    | none => return []
    | some full =>
      collect (fun (movement, group) =>
        let steps := min movement (full.length - 1)
        if steps = 0 then return []
        else do
          let pieces := group.map (·.id)
          Planning.commitAll pieces
          return [{ pieces, route := full.truncate steps }]) (byMovement troops)

/-- Reinforces threatened land, then walks idle rear troops toward the enemy. -/
def consolidation (c : Context) (b : Board) : Planning (List Order) := do
  let gaps := c.gaps b
  let own := (b.territoriesOf c.player).filter fun t => b.isFriendlyLand t c.player
  let reinforced ← c.reinforceGaps b gaps
  let marched ← collect (fun t =>
    if (gaps.map (·.1)).contains t || (0 < c.threat b t : Bool) then return []
    else c.marchFrom b t) own
  return reinforced ++ marched

/-- Whether `gap` is empty friendly land that enemy blitzers could drive through. -/
def isGap (c : Context) (b : Board) (gap : TerritoryId) : Bool :=
  b.isFriendlyLand gap c.player && (b.alliedIn gap c.player).isEmpty
    && ((b.atlas.neighbors gap).any fun n =>
      (b.hostileIn n c.player).any fun a => a.kind.canBlitz && a.kind.isLand)
    && (b.atlas.neighbors gap).any fun n => b.isFriendlyLand n c.player

/-- The idle land pieces in `n` that leave at least one piece of the player behind. -/
def spareTroops (c : Context) (b : Board) (l : Ledger) (n : TerritoryId) : List Asset :=
  let pool := c.idle b l n
  if 1 < pool.length || pool.length < (b.ownedIn n c.player).length then
    pool.filter (·.kind.isLand)
  else []

/-- The cheapest spare piece next to a gap and where it stands. -/
def blocker? (c : Context) (b : Board) (l : Ledger) (gap : TerritoryId) :
    Option (Asset × TerritoryId) :=
  firstLeast? (fun x y =>
    (compare x.1.kind.cost y.1.kind.cost).then <|
    (compare x.1.id y.1.id).then (compare x.2 y.2))
    (((b.atlas.neighbors gap).filter fun n => b.isFriendlyLand n c.player).flatMap fun n =>
      (c.spareTroops b l n).map (·, n))

/-- Fills gaps that enemy blitzers could drive through with a single cheap piece. -/
def blitzBlock (c : Context) (b : Board) : Planning (List Order) :=
  collect (fun gap => do
    if c.isGap b gap then
      match c.blocker? b (← get) gap with
      | none => return []
      | some (a, source) =>
        Planning.apply (·.commit a.id)
        return [{ pieces := [a.id], route := .step source gap }]
    else return []) (b.territoriesOf c.player)

/-! ## Unloading -/

/-- Whether cargo may go ashore in `t`: anywhere, or, while an invasion is prepared, only next to
its target or where the target can be reached over land. -/
def isBeachhead (c : Context) (b : Board) (t : TerritoryId) : Bool :=
  match c.invasionTarget with
  | none => true
  | some target => b.atlas.isAdjacent t target || (b.atlas.distance .land t target).isSome

/-- Puts cargo ashore on the best shore to defend. Transports that sailed or took on cargo in this
epoch keep it aboard. -/
def transportUnload (c : Context) (b : Board) : Planning (List Order) :=
  let shores := c.bestFirst b
    ((b.territoriesOf c.player).filter fun t =>
      b.isFriendlyLand t c.player && b.atlas.isCoastal t) .defend
  collect (fun zone =>
    collect (fun transport => do
      let l ← get
      if !transport.kind.isTransport || l.isCommitted transport.id
          || !(l.embarked transport.id).isEmpty then return []
      else
        let cargo := (b.cargoOf transport.id).filter fun u => !l.isCommitted u
        if cargo.isEmpty then return []
        else match shores.find? fun t => b.atlas.isAdjacent zone t && c.isBeachhead b t with
          | none => return []
          | some goal =>
            Planning.commitAll (transport.id :: cargo)
            return [{ pieces := [transport.id], route := .step zone goal, action := .unload }])
      (b.ownedIn zone c.player)) b.atlas.seaZones

end Conquest.Context
