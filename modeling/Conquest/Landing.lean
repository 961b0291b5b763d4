import Conquest.Context

/-!
# Landing of aircraft

An aircraft may end its move on friendly land that was not captured this turn. Impassable territory
cannot be flown over.
-/

namespace Conquest

/-- Whether an aircraft of `p` in `t` with some movement left can reach land to land on; `t` itself
counts. -/
def canLandNear (b : Board) (p : PlayerId) (t : TerritoryId) (left : Nat) : Bool :=
  b.isLandable p t || (b.atlas.neighborsWithin t left b.atlas.isOpen).any (b.isLandable p)

/-- A landing spot with the route there and the threat against it. -/
structure LandingSpot where
  threat : Float32
  route : Route

/-- The least threatened spot first, then the nearest, then the lowest identifier. -/
def LandingSpot.order (x y : LandingSpot) : Ordering :=
  (Binary32.order x.threat y.threat).then <|
  (compare x.route.length y.route.length).then (compare x.route.dest y.route.dest)

/-- The landing spots that an aircraft can still reach. -/
def landingSpots (b : Board) (c : Context) (a : Asset) : List LandingSpot :=
  let source := a.piece.territory
  let left := a.piece.movementLeft
  ((source :: b.atlas.neighborsWithin source left b.atlas.isOpen).filter
    (b.isLandable c.player)).filterMap fun t =>
      ((b.atlas.route? source t b.atlas.isOpen).filter fun r => decide (r.length ≤ left)).map
        fun r => ⟨c.threat b t, r⟩

/-- The route to the best landing spot that an aircraft can still reach. -/
def landingFor? (b : Board) (c : Context) (a : Asset) : Option Route :=
  if canLandNear b c.player a.piece.territory a.piece.movementLeft then
    (firstLeast? LandingSpot.order (landingSpots b c a)).map (·.route)
  else none

end Conquest
