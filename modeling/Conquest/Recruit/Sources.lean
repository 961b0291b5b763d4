import Conquest.Landing
import Conquest.Recruit.Preference

/-!
# Sources of a force

Where the pieces of each branch can come from, which way they take, and in which order the sources
are used: land from the least exposed source, aircraft and bombarding ships from the nearest, ships
from the strongest.
-/

namespace Conquest.Context

/-- Whether pieces may be drawn from a territory toward the target. -/
def allowsSource (target : Target) (s : TerritoryId) : Bool :=
  s != target.objective && !target.exclude.contains s

/-- Whether the epoch of the ledger is the combat move. -/
def isCombat (l : Ledger) : Bool := l.epoch == .combat

/-! ## Land -/

/-- Whether a land piece can pass through `t` on the way to an objective: safe friendly land, and
enemy land without a force for blitzing pieces in combat. -/
def landPassable (c : Context) (b : Board) (blitz combat : Bool) (t : TerritoryId) : Bool :=
  !b.hasEnemyForce t c.player && !b.hasBattle t &&
    (b.isFriendlyLand t c.player ||
      (blitz && combat && c.rules.blitzThroughEmptyEnemy && b.isEnemyLand t c.player))

/-- Hostile land pieces next to a territory. -/
def exposure (c : Context) (b : Board) (s : TerritoryId) : Nat :=
  sumOf (((b.atlas.neighbors s).filter fun n => !b.atlas.isWater n).map fun n =>
    (b.hostileIn n c.player).countP (·.kind.isLand))

/-- Land pieces in `s` that can reach the objective. -/
def landSource? (c : Context) (b : Board) (l : Ledger) (target : Target) (blitz : Bool)
    (s : TerritoryId) : Option Source := do
  let combat := isCombat l
  guard (allowsSource target s && b.isFriendlyLand s c.player)
  guard (!blitz || b.atlas.distance .land s target.objective == some 2)
  let route ← b.atlas.routeInto? s target.objective (c.landPassable b blitz combat)
  let pool := (b.ownedIn s c.player).filter fun a =>
    a.kind.isLand && !a.isAboard && (!blitz || a.kind.canBlitz)
      && decide (route.length ≤ a.piece.movementLeft) && c.isUsable b l a
  guard !pool.isEmpty
  return ⟨s, route, c.preferenceOrder combat pool⟩

/-- Sources of land pieces: least exposed first, then nearest, then lowest identifier. -/
def landSources (c : Context) (b : Board) (l : Ledger) (target : Target) (blitz : Bool) :
    List Source :=
  let o := target.objective
  if !b.atlas.isPassableLand o || (!isCombat l && !b.isFriendlyLand o c.player) then []
  else
    let reach := greatestMovement (b.kindsWhere (·.isLand))
    let found := (b.atlas.neighborsWithin o reach b.atlas.isPassableLand).filterMap fun s =>
      (c.landSource? b l target blitz s).map fun source => (c.exposure b s, source)
    (sortBy (fun x y => (compare x.1 y.1).then <|
      (compare x.2.route.length y.2.route.length).then
        (compare x.2.territory y.2.territory)) found).map (·.2)

/-! ## Aircraft -/

/-- Whether an aircraft that reaches `o` with some movement left can land: near it in combat, in it
otherwise. -/
def canLandAfter (c : Context) (b : Board) (combat : Bool) (o : TerritoryId) (left : Nat) : Bool :=
  if combat then canLandNear b c.player o left else b.isLandable c.player o

/-- Nearest source first, then lowest identifier. -/
def nearerFirst (x y : Source) : Ordering :=
  (compare x.route.length y.route.length).then (compare x.territory y.territory)

/-- Aircraft in `s` that can reach the objective and land afterwards. -/
def airSource? (c : Context) (b : Board) (l : Ledger) (target : Target) (s : TerritoryId) :
    Option Source := do
  let combat := isCombat l
  guard (allowsSource target s)
  let route ← b.atlas.route? s target.objective b.atlas.isOpen
  let pool := (b.ownedIn s c.player).filter fun a =>
    a.kind.isAir && decide (route.length ≤ a.piece.movementLeft)
      && c.canLandAfter b combat target.objective (a.piece.movementLeft - route.length)
      && c.isUsable b l a
  guard !pool.isEmpty
  return ⟨s, route, c.preferenceOrder combat pool⟩

/-- Sources of aircraft, nearest first. -/
def airSources (c : Context) (b : Board) (l : Ledger) (target : Target) : List Source :=
  let reach := greatestMovement (b.kindsWhere (·.isAir))
  sortBy nearerFirst
    ((b.atlas.neighborsWithin target.objective reach b.atlas.isOpen).filterMap
      (c.airSource? b l target))

/-! ## Ships -/

/-- Whether ships of the player can sail through `t` without a fight. -/
def isSafeWater (c : Context) (b : Board) (t : TerritoryId) : Bool :=
  b.atlas.isWater t && !b.hasEnemyForce t c.player

/-- Warships in `s`, and the carrier-borne aircraft with them, that can reach the objective. -/
def shipSource? (c : Context) (b : Board) (l : Ledger) (target : Target) (s : TerritoryId) :
    Option (Float32 × Source) := do
  let combat := isCombat l
  guard (allowsSource target s)
  let route ← b.atlas.routeInto? s target.objective (c.isSafeWater b)
  let pool := (b.ownedIn s c.player).filter fun a =>
    ((a.kind.isSea && !a.kind.isTransport) || a.kind.isCarrierBorne)
      && decide (route.length ≤ a.piece.movementLeft) && c.isUsable b l a
  guard !pool.isEmpty
  return (c.strength combat true pool, ⟨s, route, c.preferenceOrder combat pool⟩)

/-- Sources of warships for an objective at sea: strongest first, then nearest, then lowest
identifier. -/
def shipSources (c : Context) (b : Board) (l : Ledger) (target : Target) : List Source :=
  if b.atlas.isWater target.objective then
    let reach := greatestMovement (b.kindsWhere (·.isSea))
    let found := (b.atlas.neighborsWithin target.objective reach b.atlas.isWater).filterMap
      (c.shipSource? b l target)
    (sortBy (fun x y => (Binary32.order y.1 x.1).then (nearerFirst x.2 y.2)) found).map (·.2)
  else []

/-- Bombarding ships in `s` that can reach the zone `z` next to the objective. -/
def bombardSource? (c : Context) (b : Board) (l : Ledger) (target : Target)
    (z s : TerritoryId) : Option Source := do
  guard !target.exclude.contains s
  let route ← b.atlas.route? s z (c.isSafeWater b)
  let pool := (b.ownedIn s c.player).filter fun a =>
    a.kind.canBombard && a.kind.isSea
      && decide (max route.length 1 ≤ a.piece.movementLeft) && c.isUsable b l a
  guard !pool.isEmpty
  return ⟨s, route, c.preferenceOrder true pool⟩

/-- Sources of bombarding ships for an objective on land, nearest first. Ships that stand in a zone
next to the objective are in place. -/
def bombardSources (c : Context) (b : Board) (l : Ledger) (target : Target) : List Source :=
  let o := target.objective
  if b.atlas.isWater o || !isCombat l then []
  else
    let reach := greatestMovement (b.kindsWhere (·.isSea))
    sortBy nearerFirst (((b.atlas.neighbors o).filter (c.isSafeWater b)).flatMap fun z =>
      (z :: b.atlas.neighborsWithin z reach b.atlas.isWater).filterMap
        (c.bombardSource? b l target z))

end Conquest.Context
