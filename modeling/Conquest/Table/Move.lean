import Conquest.Table.Basic

/-!
# Moves on the table

An order is checked in full before anything moves. The checks come in the order of the rules: an
order names pieces, its route is connected, each piece is the player's, stands at the start, has
the movement and may enter every step; and only in combat may an order end in a fight.
-/

namespace Conquest.Table

/-! ## Checks -/

/-- A piece that the player may command. -/
def commanded (h : Table) (p : PlayerId) (u : PieceId) : Except Rejection Asset :=
  match h.board.asset? u with
  | none => .error (.unknownPiece u)
  | some a => if a.piece.owner = p then .ok a else .error (.notOwned u)

/-- The steps of a route are connected. -/
def checkConnected (m : Atlas) : TerritoryId → List TerritoryId → Except Rejection Unit
  | _, [] => .ok ()
  | a, b :: rest =>
    if m.isAdjacent a b then checkConnected m b rest else .error (.notAdjacent a b)

/-- Whether ending in `t` starts a fight. -/
def isAttack (h : Table) (p : PlayerId) (t : TerritoryId) : Bool :=
  h.board.isEnemyLand t p || h.board.hasEnemyForce t p

/-- Whether a land piece may pass through `t`: safe friendly land, or, for a blitzing piece in
combat, any owned land without an enemy force. -/
def mayPass (h : Table) (p : PlayerId) (k : PieceKind) (t : TerritoryId) : Bool :=
  !h.board.hasEnemyForce t p &&
    (h.board.isFriendlyLand t p ||
      (k.canBlitz && h.board.rules.blitzThroughEmptyEnemy && h.epoch == .combat))

/-- Whether a territory is owned land that can be entered. -/
def isHeldLand (h : Table) (t : TerritoryId) : Bool :=
  (h.board.territory t).isPassableLand && (h.board.territory t).owner.isSome

/-- A piece may enter `t`, as the last step of its route or on the way. -/
def checkStep (h : Table) (p : PlayerId) (a : Asset) (t : TerritoryId) (last : Bool) :
    Except Rejection Unit :=
  match a.kind.domain with
  | .land =>
    if !h.isHeldLand t then .error (.impassable a.id t)
    else if last || h.mayPass p a.kind t then .ok ()
    else .error (.blocked t)
  | .sea =>
    if !h.board.atlas.isWater t then .error (.impassable a.id t)
    else if !last && h.board.hasEnemyForce t p then .error (.blocked t)
    else .ok ()
  | .air =>
    let land := h.board.territory t
    if land.impassable || (last && !land.isWater && land.owner.isNone) then
      .error (.impassable a.id t)
    else .ok ()

/-- A piece may take all steps of a route. -/
def checkSteps (h : Table) (p : PlayerId) (a : Asset) : List TerritoryId → Except Rejection Unit
  | [] => .ok ()
  | t :: rest => do
    h.checkStep p a t rest.isEmpty
    checkSteps h p a rest

/-- A piece may move along a route. -/
def checkMover (h : Table) (p : PlayerId) (route : Route) (u : PieceId) :
    Except Rejection Unit := do
  let a ← h.commanded p u
  if a.piece.territory ≠ route.start then throw (.wrongStart u)
  if a.piece.movementLeft < route.length then
    throw (.insufficientMovement u route.length a.piece.movementLeft)
  if a.isAboard then throw (.impassable u route.dest)
  h.checkSteps p a route.steps

/-- Outside combat an order may not end in a fight. -/
def checkPeace (h : Table) (p : PlayerId) (t : TerritoryId) : Except Rejection Unit :=
  if h.epoch = .nonCombat ∧ h.isAttack p t = true then .error (.notCombatPhase t) else .ok ()

/-- An order to move is legal. -/
def checkMove (h : Table) (p : PlayerId) (o : Order) : Except Rejection Unit := do
  o.pieces.forM (h.checkMover p o.route)
  unless o.route.isEmpty do h.checkPeace p o.route.dest

/-- A piece may go aboard at the end of a route. -/
def checkPassenger (h : Table) (p : PlayerId) (route : Route) (u : PieceId) :
    Except Rejection Unit := do
  let a ← h.commanded p u
  if a.piece.territory ≠ route.start ∨ a.isAboard = true then throw (.wrongStart u)
  unless a.kind.canBeTransported do throw (.impassable u route.dest)
  if a.piece.movementLeft = 0 then throw (.insufficientMovement u 1 0)

/-- What a list of pieces takes up aboard a transport; a piece listed twice counts twice. -/
def cargoCost (b : Board) (pieces : List PieceId) : Nat :=
  sumOf ((pieces.filterMap b.asset?).map (·.kind.transportCost))

/-- An order to load is legal. -/
def checkLoad (h : Table) (p : PlayerId) (o : Order) (transport : PieceId) :
    Except Rejection Unit := do
  let t ← h.commanded p transport
  if t.kind.transportCapacity = 0 then throw (.transportFull transport)
  if o.route.length ≠ 1 ∨ t.piece.territory ≠ o.route.dest then throw (.wrongStart transport)
  o.pieces.forM (h.checkPassenger p o.route)
  if h.board.freeCapacity transport < wrap (cargoCost h.board o.pieces) then
    throw (.transportFull transport)

/-- The part of an unloading route that is sailed. -/
def seaLeg (route : Route) : Route := route.truncate (route.length - 1)

/-- A transport may sail over `t`. -/
def checkSailing (h : Table) (p : PlayerId) (u : PieceId) (t : TerritoryId) :
    Except Rejection Unit :=
  if !h.board.atlas.isWater t then .error (.impassable u t)
  else if h.board.hasEnemyForce t p then .error (.blocked t)
  else .ok ()

/-- A transport may sail a route and land its cargo at the end. -/
def checkLander (h : Table) (p : PlayerId) (route : Route) (u : PieceId) :
    Except Rejection Unit := do
  let a ← h.commanded p u
  if !a.kind.carriesCargo || (h.board.cargoOf u).isEmpty then throw (.noCargo u)
  if a.piece.territory ≠ route.start then throw (.wrongStart u)
  if a.piece.movementLeft < (seaLeg route).length then
    throw (.insufficientMovement u (seaLeg route).length a.piece.movementLeft)
  (seaLeg route).steps.forM (h.checkSailing p u)
  unless h.isHeldLand route.dest do throw (.impassable u route.dest)

/-- An order to unload is legal. -/
def checkUnload (h : Table) (p : PlayerId) (o : Order) : Except Rejection Unit := do
  if o.route.isEmpty then throw (.notAdjacent o.route.start o.route.dest)
  o.pieces.forM (h.checkLander p o.route)
  h.checkPeace p o.route.dest

/-! ## Effects -/

/-- Arrival in `t`: a battle where an enemy force stands, otherwise capture of enemy land if land
pieces have arrived. -/
def arrive (p : PlayerId) (landArrived : Bool) (b : Board) (t : TerritoryId) : Board :=
  if b.hasEnemyForce t p then b.setBattle t true
  else if landArrived && b.isEnemyLand t p then
    (b.modifyTerritory t fun land => { land with owner := some p }).setConquered t true
  else b

/-- Land pieces capture the enemy land that they drive through. -/
def passThrough (p : PlayerId) (b : Board) (t : TerritoryId) : Board :=
  if b.isEnemyLand t p then arrive p true b t else b

/-- The effect of an order to move. -/
def moveAlong (b : Board) (p : PlayerId) (o : Order) : Board :=
  let landArrived := (o.pieces.filterMap b.asset?).any (·.kind.isLand)
  let moved := o.pieces.foldl (fun b u => b.relocate u o.route) b
  let passed := if landArrived then o.route.between.foldl (passThrough p) moved else moved
  if o.route.isEmpty then passed else arrive p landArrived passed o.route.dest

/-- A piece goes aboard. -/
def embark (transport : PieceId) (route : Route) (b : Board) (u : PieceId) : Board :=
  (b.relocate u route).modifyPiece u fun q => { q with carrier := some transport }

/-- A piece goes ashore and has no movement left. -/
def disembark (ashore : Route) (b : Board) (u : PieceId) : Board :=
  ((b.modifyPiece u fun q => { q with carrier := none }).relocate u ashore).modifyPiece u
    fun q => { q with movementLeft := 0 }

/-- A transport sails and lands its cargo. -/
def land (route : Route) (b : Board) (transport : PieceId) : Board :=
  let sea := seaLeg route
  let sailed := b.relocate transport sea
  (sailed.cargoOf transport).foldl (disembark (.step sea.dest route.dest)) sailed

/-- Carries out an order, or says why it is refused. -/
def submitMove (h : Table) (p : PlayerId) (o : Order) : Except Rejection Table := do
  if o.pieces.isEmpty then throw .emptyOrder
  checkConnected h.board.atlas o.route.start o.route.steps
  match o.action with
  | .move =>
    h.checkMove p o
    return { h with board := moveAlong h.board p o }
  | .load transport =>
    h.checkLoad p o transport
    return { h with board := o.pieces.foldl (embark transport o.route) h.board }
  | .unload =>
    h.checkUnload p o
    return { h with board := arrive p true (o.pieces.foldl (land o.route) h.board) o.route.dest }

end Conquest.Table
