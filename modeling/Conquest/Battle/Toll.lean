import Conquest.Battle

/-!
# Losses written down group by group

The pieces that take the hits of a battle, as a clerk writes them down: the damaged ones, the
transports, the fighters, and then the damaged ones once more, as far as they are on the list. Each
group is cut to the hits that are left. How many are left is a difference of two counts; it would be
negative if more pieces were on the list than there are hits, and then there is no answer.
-/

namespace Conquest

/-- The hits that are left when some pieces are on the list, unless these are too many. -/
def hitsLeft? (count : Nat) (listed : List PieceId) : Option Nat :=
  if listed.length ≤ count then some (count - listed.length) else none

/-- Adds a group to the list as far as there are hits left. -/
def strike? (count : Nat) (listed group : List PieceId) : Option (List PieceId) :=
  (hitsLeft? count listed).map fun left => listed ++ group.take left

/-- The pieces that take `count` hits, written down group by group. -/
def toll? (b : Board) (c : Context) (candidates : List PieceId) (count : Nat) :
    Option (List PieceId) := do
  let assets := candidates.filterMap b.asset?
  let atSea := assets.head?.any fun a => b.atlas.isWater a.piece.territory
  let ranked (group : List Asset) := (sortBy (c.lossOrder atSea) group).map (·.id)
  let transports := assets.filter fun a => a.kind.isTransport && !a.hasSpareHit
  let fighters := assets.filter fun a => !a.kind.isTransport && !a.hasSpareHit
  let damaged := (ranked (assets.filter (·.hasSpareHit))).take count
  let listed ←
    if c.rules.transportsCanDie then strike? count damaged (transports.map (·.id))
    else some damaged
  let listed ← strike? count listed (ranked fighters)
  strike? count listed damaged

end Conquest
