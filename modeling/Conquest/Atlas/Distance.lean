import Conquest.Atlas.Basic

/-!
# Distances

A breadth-first search proceeds in waves: each wave holds the territories first reached after one
more step, in the order in which they are found. The distance to a territory is the number of the
wave that holds it; a territory in no wave is unreachable, and its distance is `none`. Where a
distance is compared with a number that is given, an unreachable territory counts as the farthest.
-/

namespace Conquest.Atlas

/-- The waves of a search, at most `rounds` of them, that has already reached `reached` and goes
on from `frontier`. Only admitted territories are entered. -/
def wavesFrom (m : Atlas) (admits : TerritoryId → Bool) :
    Nat → List TerritoryId → List TerritoryId → List (List TerritoryId)
  | 0, _, _ => []
  | rounds + 1, reached, frontier =>
    let wave := ((frontier.flatMap m.neighbors).filter fun t =>
      admits t && !reached.contains t).eraseDups
    if wave.isEmpty then [] else wave :: wavesFrom m admits rounds (reached ++ wave) wave

/-- The waves around `source`, which is itself in none of them and need not be admitted. -/
def waves (m : Atlas) (admits : TerritoryId → Bool) (rounds : Nat) (source : TerritoryId) :
    List (List TerritoryId) :=
  m.wavesFrom admits rounds [source] [source]

/-- What can be reached from `t` in at most `radius` steps, nearest first, `t` excluded. -/
def neighborsWithin (m : Atlas) (t : TerritoryId) (radius : Nat)
    (passable : TerritoryId → Bool) : List TerritoryId :=
  (m.waves passable radius t).flatten

/-- Steps from one territory to another through a passage. Every territory is at distance 0 from
itself; from a territory outside the passage nothing else can be reached. -/
def distance (m : Atlas) (passage : Passage) (source goal : TerritoryId) : Option Nat :=
  if source = goal then some 0
  else if m.admits passage source then
    ((m.waves (m.admits passage) m.size source).findIdx? (·.contains goal)).map (· + 1)
  else none

/-- The distances from a territory to every territory, in order. -/
def distancesFrom (m : Atlas) (passage : Passage) (source : TerritoryId) : List (Option Nat) :=
  m.ids.map (m.distance passage source)

/-- What the distance to an unreachable territory counts as: the greatest number of 32 bits, more
than the steps of any route. -/
def farthest : Nat := 4294967295

/-- The number that a distance counts as. -/
def stepsOf (distance : Option Nat) : Nat := distance.getD farthest

/-- The territories exactly `radius` steps away through whatever is not impassable. -/
def ring (m : Atlas) (t : TerritoryId) (radius : Nat) : List TerritoryId :=
  m.ids.filter fun o => stepsOf (m.distance .any t o) == radius

/-- Whether a distance is at most a number of steps. -/
def reachableWithin (distance : Option Nat) (steps : Nat) : Bool :=
  decide (stepsOf distance ≤ steps)

end Conquest.Atlas
