import Conquest.Context

/-!
# Questions during a battle

Which pieces to lose, and whether to retreat. Pieces that survive a hit take the first hits, then
transports fall if they may, then the pieces that are worth least; hits that are still left destroy
the damaged pieces.
-/

namespace Conquest

namespace Context

/-- What a piece alone contributes to a defense. -/
def worth (c : Context) (atSea : Bool) (a : Asset) : Float32 := c.strength false atSea [a]

/-- The piece of least worth first, then the cheaper one, then the lower identifier. -/
def lossOrder (c : Context) (atSea : Bool) (x y : Asset) : Ordering :=
  (Binary32.order (c.worth atSea x) (c.worth atSea y)).then <|
  (compare x.kind.cost y.kind.cost).then (compare x.id y.id)

/-- Everything that may be lost, in the order in which it is lost. -/
def lossSequence (c : Context) (atSea : Bool) (assets : List Asset) : List Asset :=
  let (sturdy, frail) := assets.partition (·.hasSpareHit)
  let (transports, fighters) := frail.partition (·.kind.isTransport)
  let damaged := sortBy (c.lossOrder atSea) sturdy
  damaged ++ (if c.rules.transportsCanDie then transports else [])
    ++ sortBy (c.lossOrder atSea) fighters ++ damaged

end Context

/-- The pieces that take `count` hits; a piece is listed twice if it is damaged and then lost. The
battle is where the first candidate stands. -/
def selectCasualties (b : Board) (c : Context) (candidates : List PieceId) (count : Nat) :
    List PieceId :=
  let assets := candidates.filterMap b.asset?
  let atSea := assets.head?.any fun a => b.atlas.isWater a.piece.territory
  ((c.lossSequence atSea assets).take count).map (·.id)

/-- Where an attack should retreat to: nowhere while it can stand against the defense, otherwise to
the least threatened option; of equal ones the lowest. -/
def retreat? (b : Board) (c : Context) (battle : TerritoryId) (options : List TerritoryId) :
    Option TerritoryId :=
  let attack := c.strength true (b.atlas.isWater battle) (b.ownedIn battle c.player)
  if c.defense b battle * c.config.retreatRatio ≤ attack then none
  else
    (firstLeast? (fun x y => (Binary32.order x.1 y.1).then (compare x.2 y.2))
      (options.map fun t => (c.threat b t, t))).map (·.2)

end Conquest
