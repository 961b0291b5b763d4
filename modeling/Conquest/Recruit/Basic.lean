import Conquest.Context
import Conquest.Ledger
import Conquest.Order

/-!
# Recruiting a force

A force is gathered toward an objective from sources, one after another, until the strength that is
needed is reached. Within a source the next piece is the first one that completes the requirement
within the slack, failing that the one that completes it with the least overshoot, failing that the
next in the source's order. Every recruited piece is committed as it is taken.
-/

namespace Conquest

/-- A plan in the making: it changes the ledger, and when it fails the ledger stays as it was at
that moment. -/
abbrev Planning := EStateM PlanError Ledger

namespace Planning

/-- Applies an operation of the ledger. -/
def apply (f : Ledger → Except PlanError Ledger) : Planning Unit := fun l =>
  match f l with
  | .ok l' => .ok () l'
  | .error e => .error e l

/-- Assigns pieces to an order, all of them or none. -/
def commitAll (pieces : List PieceId) : Planning Unit := apply (·.commitAll pieces)

/-- Assigns pieces to orders one after another. -/
def commitEach (pieces : List PieceId) : Planning Unit :=
  pieces.forM fun u => apply (·.commit u)

/-- Holds a piece in place; says whether it was still free. -/
def hold (u : PieceId) : Planning Bool := fun l =>
  match l.hold? u with
  | some l' => .ok true l'
  | none => .ok false l

end Planning

/-- The pools that a force can be recruited from. -/
inductive Branch where
  /-- Blitzing land pieces two steps away over clear ground. -/
  | blitz
  /-- Land pieces moving over land. -/
  | land
  /-- Aircraft that can still land afterwards. -/
  | air
  /-- Loaded transports that can reach a sea zone next to the objective. -/
  | transports
  /-- Warships, and the aircraft in their zones, for objectives at sea. -/
  | ships
  /-- Ships that bombard in support of a landing. -/
  | bombard
deriving DecidableEq, Repr

/-- An objective and the strength still missing there. -/
structure Target where
  objective : TerritoryId
  needed : Float32
  /-- Territories whose pieces stay where they are. -/
  exclude : List TerritoryId := []

/-- Whether nothing is missing any more. -/
def Target.isMet (t : Target) : Bool := t.needed ≤ 0

/-- What recruiting has achieved. -/
structure Haul where
  achieved : Float32 := 0
  orders : List Order := []
deriving Inhabited

namespace Haul

/-- The pieces named in the orders. -/
def pieces (h : Haul) : List PieceId := h.orders.flatMap (·.pieces)

def isEmpty (h : Haul) : Bool := h.orders.isEmpty

/-- Joins two hauls. -/
def merge (h k : Haul) : Haul := ⟨h.achieved + k.achieved, h.orders ++ k.orders⟩

end Haul

/-- A territory, the route that its pieces take and the pieces that may take it, in order of
preference. -/
structure Source where
  territory : TerritoryId
  route : Route
  assets : List Asset

namespace Context

/-- Whether a piece may be recruited in the epoch of the ledger. -/
def isUsable (c : Context) (b : Board) (l : Ledger) (a : Asset) : Bool :=
  a.piece.owner == c.player && !l.isCommitted a.id && decide (0 < a.piece.movementLeft)
    && !a.kind.isInfrastructure && !b.hasBattle a.piece.territory
    && (l.epoch == .combat || !a.piece.movedThisTurn)

end Context

/-! ## Choosing pieces -/

/-- The requirement that pieces are chosen for: how a force is valued, the value to reach, and the
value that should not be exceeded. -/
structure Requirement where
  value : List Asset → Float32
  needed : Float32
  limit : Float32

namespace Requirement

/-- The position of the piece to take next from a pool, on top of a force. -/
def choice (r : Requirement) (force pool : List Asset) : Nat :=
  let totals := (pool.map fun a => r.value (force ++ [a])).zipIdx
  let sufficient := totals.filter fun (total, _) => r.needed ≤ total
  let within := sufficient.find? fun (total, _) => total ≤ r.limit
  let closest := firstLeast? (fun x y => Binary32.order x.1 y.1) sufficient
  ((within.or closest).map (·.2)).getD 0

/-- The pieces to take from a pool, on top of a force, in the order in which they are taken. At
most `count` pieces are taken. -/
def draw (r : Requirement) : Nat → List Asset → List Asset → List Asset
  | 0, _, _ => []
  | count + 1, force, pool =>
    if r.value force < r.needed then
      let i := r.choice force pool
      match pool[i]? with
      | none => []
      | some a => a :: draw r count (force ++ [a]) (pool.eraseIdx i)
    else []

/-- The order that sends pieces along a route; pieces that are in place need none. -/
def orderFor (taken : List Asset) (route : Route) : List Order :=
  if taken.isEmpty || route.isEmpty then [] else [{ pieces := taken.map (·.id), route }]

/-- Gathers a force from sources in order, on top of what has been gathered before. -/
def gather (r : Requirement) : List Source → List Asset → List Order → Planning Haul
  | [], force, orders => return ⟨r.value force, orders⟩
  | s :: rest, force, orders =>
    if r.needed ≤ r.value force then return ⟨r.value force, orders⟩
    else do
      let l ← get
      let pool := s.assets.filter fun a => !l.isCommitted a.id
      let taken := r.draw pool.length force pool
      Planning.commitEach (taken.map (·.id))
      gather r rest (force ++ taken) (orders ++ orderFor taken s.route)

end Requirement

/-- The requirement of a target for a force at sea or on land. -/
def Context.requirement (c : Context) (target : Target) (attacking atSea : Bool) : Requirement where
  value := c.strength attacking atSea
  needed := target.needed
  limit := target.needed * c.config.recruitSlack

end Conquest
