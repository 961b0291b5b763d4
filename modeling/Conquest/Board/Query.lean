import Conquest.Board.Basic

/-!
# Questions to the board

Relations between players, who stands where, whose land is whose, and what is aboard a transport.
Neutral land is neither friendly nor enemy; infrastructure is hostile but no enemy force.
-/

namespace Conquest.Board

/-! ## Players -/

/-- Whether two players are the same or on one team. -/
def isAllied (b : Board) (p q : PlayerId) : Bool := p == q || (b.player p).team == (b.player q).team

def isEnemy (b : Board) (p q : PlayerId) : Bool := !b.isAllied p q

/-- The players hostile to `p`. -/
def enemiesOf (b : Board) (p : PlayerId) : List PlayerId :=
  (b.players.toList.map (·.id)).filter (b.isEnemy p)

/-- The capitals of hostile players that are in hostile hands. -/
def enemyCapitals (b : Board) (p : PlayerId) : List TerritoryId :=
  ((b.enemiesOf p).filterMap fun q => (b.player q).capital).filter fun c =>
    (b.territory c).owner.any (b.isEnemy p)

/-! ## Pieces in a territory -/

/-- The assets in a territory, in order of arrival. -/
def assetsIn (b : Board) (t : TerritoryId) : List Asset := (b.garrison t).filterMap b.asset?

/-- The assets of `p` in a territory. -/
def ownedIn (b : Board) (t : TerritoryId) (p : PlayerId) : List Asset :=
  (b.assetsIn t).filter fun a => a.piece.owner == p

/-- The assets of `p` and its allies in a territory. -/
def alliedIn (b : Board) (t : TerritoryId) (p : PlayerId) : List Asset :=
  (b.assetsIn t).filter fun a => b.isAllied p a.piece.owner

/-- The assets hostile to `p` in a territory. -/
def hostileIn (b : Board) (t : TerritoryId) (p : PlayerId) : List Asset :=
  (b.assetsIn t).filter fun a => b.isEnemy p a.piece.owner

/-- Whether a force hostile to `p` stands in a territory; infrastructure is no force. -/
def hasEnemyForce (b : Board) (t : TerritoryId) (p : PlayerId) : Bool :=
  (b.assetsIn t).any fun a => b.isEnemy p a.piece.owner && !a.kind.isInfrastructure

/-! ## Whose land -/

/-- Passable land of `p` or an ally. -/
def isFriendlyLand (b : Board) (t : TerritoryId) (p : PlayerId) : Bool :=
  (b.territory t).isPassableLand && (b.territory t).owner.any (b.isAllied p)

/-- Passable land of a player hostile to `p`. -/
def isEnemyLand (b : Board) (t : TerritoryId) (p : PlayerId) : Bool :=
  (b.territory t).isPassableLand && (b.territory t).owner.any (b.isEnemy p)

/-- The identifiers of the territories with a property, in order. -/
def territoriesWhere (b : Board) (f : Territory → Bool) : List TerritoryId :=
  (b.atlas.territories.toList.filter f).map (·.id)

/-- The territories of `p`. -/
def territoriesOf (b : Board) (p : PlayerId) : List TerritoryId :=
  b.territoriesWhere fun t => t.owner == some p

/-- The enemy land of `p`. -/
def enemyTerritories (b : Board) (p : PlayerId) : List TerritoryId :=
  b.territoriesWhere fun t => b.isEnemyLand t.id p

/-- The territories where `p` holds a factory. -/
def factoriesOf (b : Board) (p : PlayerId) : List TerritoryId :=
  b.territoriesWhere fun t => t.owner == some p && t.hasFactory

/-- What a factory makes in a turn: its production on land with a factory, otherwise nothing. -/
def factoryOutput (b : Board) (t : TerritoryId) : Nat :=
  if (b.territory t).hasFactory then (b.territory t).production else 0

/-- Friendly land that aircraft may land on: land captured this turn does not count. -/
def isLandable (b : Board) (p : PlayerId) (t : TerritoryId) : Bool :=
  b.isFriendlyLand t p && !b.isConquered t

/-! ## Cargo -/

/-- The pieces aboard a transport, in order of arrival in its territory. -/
def cargoOf (b : Board) (transport : PieceId) : List PieceId :=
  match b.asset? transport with
  | none => []
  | some a =>
    ((b.assetsIn a.piece.territory).filter fun c => c.piece.carrier == some transport).map (·.id)

/-- Room left aboard a transport. -/
def freeCapacity (b : Board) (transport : PieceId) : Nat :=
  match b.asset? transport with
  | none => 0
  | some a =>
    a.kind.transportCapacity
      - wrap (sumOf (((b.cargoOf transport).filterMap b.asset?).map (·.kind.transportCost)))

/-- The kinds with a property, in catalogue order. -/
def kindsWhere (b : Board) (f : PieceKind → Bool) : List PieceKind := b.kinds.toList.filter f

end Conquest.Board
