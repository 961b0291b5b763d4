import Conquest.Atlas.Basic
import Conquest.Route

/-!
# Route search

The search keeps whole routes. Each round extends the routes of the round before by every admitted
neighbour of their ends that no earlier route has reached; of several routes to one territory the
first stays. So the route that is found first is shortest, and among the shortest it is the first
in the order of the neighbour lists.
-/

namespace Conquest.Atlas

/-- All ways to prolong a route by one step. -/
def extensions (m : Atlas) (r : Route) : List Route := (m.neighbors r.dest).map r.extend

/-- The rounds of a route search that has already reached `reached` and goes on from the routes
`frontier`. -/
def toursFrom (m : Atlas) (passable : TerritoryId → Bool) :
    Nat → List TerritoryId → List Route → List (List Route)
  | 0, _, _ => []
  | rounds + 1, reached, frontier =>
    let tour := ((frontier.flatMap m.extensions).filter fun r =>
      passable r.dest && !reached.contains r.dest).eraseDupsBy fun a b => a.dest == b.dest
    if tour.isEmpty then []
    else tour :: toursFrom m passable rounds (reached ++ tour.map Route.dest) tour

/-- The first shortest route on which every entered territory is passable. The start is never
tested, so the route that stays where it is always exists. -/
def route? (m : Atlas) (source goal : TerritoryId) (passable : TerritoryId → Bool) :
    Option Route :=
  if source = goal then some (.stay source)
  else (m.toursFrom passable m.size [source] [.stay source]).flatten.find? (·.dest == goal)

/-- The first shortest route whose last step may enter anything while the steps before it are
passable. -/
def routeInto? (m : Atlas) (source goal : TerritoryId) (through : TerritoryId → Bool) :
    Option Route :=
  m.route? source goal fun t => t == goal || through t

end Conquest.Atlas
