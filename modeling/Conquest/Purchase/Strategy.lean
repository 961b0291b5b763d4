import Conquest.Binary32
import Conquest.Config.Basic

/-!
# Strategies

A purchase follows one of four strategies. While the capital is in danger it is defense; otherwise
the policy draws one with the odds of the configuration. Who draws is a parameter: a lottery that
may refuse to draw, and that may stop the program instead.
-/

namespace Conquest

/-- What a purchase optimizes for. -/
inductive Strategy where
  | attack
  | defense
  | maxUnits
  | mobility
deriving DecidableEq, Repr, Inhabited

/-- The name of a strategy in reports. -/
def Strategy.name : Strategy → String
  | .attack => "Attack"
  | .defense => "Defense"
  | .maxUnits => "MaxUnits"
  | .mobility => "Mobility"

/-- All strategies, in the order of their odds. -/
def Strategy.all : List Strategy := [.attack, .defense, .maxUnits, .mobility]

/-! ## Lotteries -/

/-- What becomes of a draw. -/
inductive Draw (σ : Type) where
  /-- The odds are no odds, or all of them are 0. -/
  | refused
  /-- The position of what is drawn, and what to draw from next. -/
  | drawn (index : Nat) (rest : σ)
  /-- The program stops. -/
  | stopped

/-- A source of randomness: where a seed starts it, and how it draws with some odds. -/
class Lottery (σ : Type) where
  ofSeed : UInt64 → σ
  draw : σ → List Float32 → Draw σ

/-- What a planner knows of a lottery, for odds that are all at least 0. -/
class LawfulLottery (σ : Type) [Lottery σ] : Prop where
  /-- Nothing is drawn if the odds add up to 0. -/
  refuses : ∀ (source : σ) (odds : List Float32), (∀ w ∈ odds, 0 ≤ w) →
    (Binary32.sum odds == 0) = true → Lottery.draw source odds = .refused
  /-- If they add up to a positive number, the position of one of them is drawn. -/
  draws : ∀ (source : σ) (odds : List Float32), (∀ w ∈ odds, 0 ≤ w) →
    (Binary32.sum odds == 0) = false → (Binary32.sum odds).isFinite = true →
    ∃ i rest, Lottery.draw source odds = .drawn i rest ∧ i < odds.length
  /-- There is no range to draw from if the sum is beyond all numbers. -/
  stops : ∀ (source : σ) (odds : List Float32), (∀ w ∈ odds, 0 ≤ w) →
    (Binary32.sum odds).isFinite = false → Lottery.draw source odds = .stopped

/-! ## Policies -/

/-- Draws strategies at random. -/
structure Policy (σ : Type) where
  source : σ
  weights : StrategyWeights

namespace Policy

variable {σ : Type}

/-- The odds, none below 0. -/
def odds (p : Policy σ) : List Float32 := p.weights.toList.map (Binary32.larger · 0)

variable [Lottery σ]

/-- The policy of a seed. -/
def ofSeed (seed : Nat) (weights : StrategyWeights) : Policy σ :=
  ⟨Lottery.ofSeed seed.toUInt64, weights⟩

/-- Chooses the strategy of a turn, unless the draw stops the program. Nothing is drawn while the
capital is in danger; where the lottery refuses to draw, the strategy is attack. -/
def choose (p : Policy σ) (capitalDanger : Bool) : Option (Strategy × Policy σ) :=
  if capitalDanger then some (.defense, p)
  else
    match Lottery.draw p.source p.odds with
    | .refused => some (.attack, p)
    | .drawn i source => (Strategy.all[i]?).map fun s => (s, { p with source })
    | .stopped => none

end Policy

end Conquest
