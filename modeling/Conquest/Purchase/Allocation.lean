import Conquest.Ledger
import Conquest.Ordered
import Conquest.Piece.Kind
import Conquest.Purchase.Strategy
import Conquest.Tally

/-!
# Allocation of a budget

Every kind that can be bought is an offer with one score for each strategy. A strategy takes the
offers in descending order of score per cost and buys of each as many as money and slots allow.
-/

namespace Conquest

/-- A kind that can be bought, with what it is worth. -/
structure Offer where
  kind : KindId
  cost : Nat
  attack : Float32
  defense : Float32
  movement : Nat
  isSea : Bool
deriving Inhabited

/-! ## The worth of a kind -/

/-- Attack and defense of a kind as far as a purchase counts them. Submarines lose a point, what
cannot move does not attack, and one-sided kinds lose value on the side they are strong on: one
point if the other side is 0, two if it is at least 4 below. -/
def countedStrength (k : PieceKind) : Nat × Nat :=
  let seen : Nat × Nat :=
    if !k.isSubmarine then (k.attack, k.defense)
    else if 1 ≤ k.attack then (k.attack - 1, k.defense)
    else (k.attack, k.defense - 1)
  let attack := if k.movement = 0 then 0 else seen.1
  let lost (strong weak : Nat) : Nat :=
    if weak + 4 ≤ strong then 2 else if weak = 0 ∧ 1 ≤ strong then 1 else 0
  (attack - lost k.attack k.defense, seen.2 - lost k.defense k.attack)

/-- The offer of a kind. Kinds that survive a hit count twice, and a carrier is worth the idle
fighters that could fly onto it. -/
def Offer.ofKind (k : PieceKind) (idleFighters : Nat) : Offer :=
  let (attack, defense) := countedStrength k
  let rolls : Float32 := .ofNat (max k.attackRolls 1)
  let hitFactor : Float32 := if k.isMultiHit then 2 else 1
  let carried : Float32 := .ofNat (min k.carrierCapacity idleFighters)
  { kind := k.id
    cost := k.cost
    attack := .ofNat attack * rolls * hitFactor + carried * 3
    defense := .ofNat defense * rolls * hitFactor + carried * 4
    movement := k.movement
    isSea := k.isSea }

/-- What an offer is worth to a strategy. -/
def Offer.score (o : Offer) : Strategy → Float32
  | .attack => o.attack
  | .defense => o.defense
  | .maxUnits => 1 + (o.attack + o.defense) / 100
  | .mobility => o.attack * .ofNat o.movement

/-- The score per cost. -/
def Offer.yield (o : Offer) (s : Strategy) : Float32 := o.score s / .ofNat o.cost

/-! ## Allocation -/

/-- Higher yield first, then lower cost, then lower kind. -/
def Offer.order (s : Strategy) (x y : Offer) : Ordering :=
  (Binary32.order (y.yield s) (x.yield s)).then <|
  (compare x.cost y.cost).then (compare x.kind y.kind)

/-- The offers that a strategy would take, best first. -/
def worthwhile (s : Strategy) (offers : List Offer) : List Offer :=
  sortBy (Offer.order s) (offers.filter fun o => decide (0 < o.cost) && decide (0 < o.score s))

/-- Buys of each offer in turn as many as money and slots allow. -/
def buyInOrder : List Offer → Nat → Nat → Tally → Tally
  | [], _, _, bought => bought
  | o :: rest, money, slots, bought =>
    let n := min (money / o.cost) slots
    if n = 0 then buyInOrder rest money slots bought
    else buyInOrder rest (money - o.cost * n) (slots - n) (bought.add o.kind n)

/-- The purchase of a strategy, within budget and slots. -/
def allocateFor (s : Strategy) (budget : Int) (offers : List Offer) (slots : Nat) :
    Except PlanError Tally :=
  if budget < 0 then .error (.negativeBudget budget)
  else .ok (buyInOrder (worthwhile s offers) budget.toNat slots .empty)

/-- One purchase for each strategy. -/
structure Mixes where
  attack : Tally
  defense : Tally
  maxUnits : Tally
  mobility : Tally

/-- The purchase of a strategy. -/
def Mixes.get (m : Mixes) : Strategy → Tally
  | .attack => m.attack
  | .defense => m.defense
  | .maxUnits => m.maxUnits
  | .mobility => m.mobility

/-- The purchases of all strategies. -/
def allocate (budget : Int) (offers : List Offer) (slots : Nat) : Except PlanError Mixes := do
  return {
    attack := ← allocateFor .attack budget offers slots
    defense := ← allocateFor .defense budget offers slots
    maxUnits := ← allocateFor .maxUnits budget offers slots
    mobility := ← allocateFor .mobility budget offers slots }

end Conquest
