import Conquest.Context
import Conquest.Purchase.Allocation

/-!
# The purchase of a turn

The money goes to the mix of the strategy that the policy chooses, over the kinds that the factories
can place. If an invasion lacks a transport, one is reserved before.
-/

namespace Conquest

namespace Context

/-- The room at the factories for new pieces, as a word; one captured this turn offers none. -/
def slots (c : Context) (b : Board) (capacity : TerritoryId → Nat) : Nat :=
  wrap (sumOf ((c.factories.filter fun f => !b.isConquered f).map capacity))

/-- Whether some factory can build ships. -/
def hasCoastalFactory (c : Context) (b : Board) : Bool := c.factories.any b.atlas.isCoastal

/-- The player's aircraft in the capital that could fly onto a new carrier. -/
def idleFighters (c : Context) (b : Board) : Nat :=
  match c.capital with
  | none => 0
  | some capital => (b.ownedIn capital c.player).countP (·.kind.isCarrierBorne)

/-- What the factories can build. -/
def offers (c : Context) (b : Board) : List Offer :=
  (b.kindsWhere fun k => !k.isInfrastructure && (c.hasCoastalFactory b || !k.isSea)).map fun k =>
    .ofKind k (c.idleFighters b)

/-- Whether the player has a transport at sea or in a harbour. -/
def hasTransport (c : Context) (b : Board) : Bool :=
  (b.territoriesOf c.player ++ b.atlas.seaZones).any fun t =>
    (b.ownedIn t c.player).any (·.kind.isTransport)

/-- Whether a transport is to be bought before anything else. -/
def lacksTransport (c : Context) (b : Board) (slots : Nat) : Bool :=
  c.config.reserveTransport && c.invasion.isSome && c.hasCoastalFactory b && !c.hasTransport b
    && decide (0 < slots)

/-- The cheapest transport within a budget; of equal ones the lowest. -/
def cheapestTransport? (b : Board) (budget : Nat) : Option PieceKind :=
  firstLeast? (fun x y => (compare x.cost y.cost).then (compare x.id y.id))
    (b.kindsWhere fun k => k.isTransport && decide (k.cost ≤ budget))

/-- The transport that is reserved, if one is lacking and affordable. -/
def reserved? (c : Context) (b : Board) (slots : Nat) : Option PieceKind :=
  if c.lacksTransport b slots then cheapestTransport? b (b.budget c.player) else none

end Context

/-- Why a turn goes no further. -/
inductive Abort where
  | planning (error : PlanError)
  /-- The draw of a strategy stops the program. -/
  | draw
deriving DecidableEq, Repr

/-- The purchase of a turn and its strategy. `capacity` is the room that the host offers in a
territory. -/
def planPurchase {σ : Type} [Lottery σ] (b : Board) (capacity : TerritoryId → Nat) (c : Context)
    (policy : Policy σ) : Except Abort ((Strategy × Tally) × Policy σ) := do
  let slots := c.slots b capacity
  let budget := b.budget c.player
  let (reserved, budget, slots) :=
    match c.reserved? b slots with
    | some k => (Tally.empty.add k.id 1, budget - k.cost, slots - 1)
    | none => (Tally.empty, budget, slots)
  let mixes ← (allocate budget (c.offers b) slots).mapError .planning
  match policy.choose c.capitalDanger with
  | none => throw .draw
  | some (strategy, policy) =>
    return ((strategy, reserved.merge (mixes.get strategy)), policy)

end Conquest
