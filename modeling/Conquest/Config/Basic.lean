import Conquest.Binary32
import Conquest.Decimal.Shortest

/-!
# Planner configuration

Every coefficient of the planner is a field with a tuned default. `check` names the first value
that the planner cannot work with.
-/

namespace Conquest

/-- The relative odds of the four strategies when the capital is safe. -/
structure StrategyWeights where
  attack : Float32
  defense : Float32
  maxUnits : Float32
  mobility : Float32
deriving DecidableEq, Inhabited

/-- The odds in the order attack, defense, most units, mobility. -/
def StrategyWeights.toList (w : StrategyWeights) : List Float32 :=
  [w.attack, w.defense, w.maxUnits, w.mobility]

/-- The coefficients of evaluation, ranking, recruitment and purchasing. -/
structure Config where
  /-- Seed of the purchase policy; none leaves the choice to the caller. -/
  seed : Option Nat := none
  /-- Value that every fighting piece carries before its statistic. -/
  baseUnitValue : Float32 := 1.0
  /-- Deducted from attackers without attack. -/
  zeroAttackPenalty : Float32 := 0.5
  /-- Value of a transport that may be lost. -/
  transportEscortValue : Float32 := 0.5
  /-- Multiplier of submarines that cannot be targeted. -/
  unescortedSubmarineFactor : Float32 := 0.0
  /-- Added for each pair of artillery and supported piece in a land attack. -/
  artilleryBonus : Float32 := 1.0
  /-- Share of the weaker enemies that counts beside the strongest. -/
  otherEnemiesFactor : Float32 := 0.4
  /-- Land steps that a blitzing piece may cover to threaten a territory. -/
  blitzThreatRadius : Nat := 2
  /-- Sea steps that a ship may cover to threaten a sea zone. -/
  shipThreatRadius : Nat := 3
  /-- Reinforcement expected at the capital before an attack lands. -/
  expectedReinforcement : Float32 := 5.0
  /-- Multiplier of the capital's garrison when danger is judged. -/
  capitalThreatFactor : Float32 := 1.0
  /-- Multiplier of the defense for ordinary attacks. -/
  attackFactor : Float32 := 1.36
  /-- Multiplier for targets next to the own capital. -/
  emergencyAttackFactor : Float32 := 1.22
  /-- Multiplier once the own capital has fallen. -/
  capitalLostAttackFactor : Float32 := 0.72
  /-- Added to every scaled requirement. -/
  safetyMargin : Float32 := 3.0
  /-- Overshoot tolerated when the last recruit is chosen. -/
  recruitSlack : Float32 := 1.25
  /-- Objectives examined per phase. -/
  maxAttackTargets : Nat := 8
  productionWeight : Float32 := 2.0
  /-- Bonus of land with a land route to an enemy capital. -/
  capitalRouteBonus : Float32 := 16.0
  /-- Cap of what distance takes from that bonus. -/
  capitalRouteDecayCap : Float32 := 8.0
  /-- Bonus of land on a shortest path between capitals. -/
  capitalPathBonus : Float32 := 4.0
  factoryBonus : Float32 := 4.0
  /-- Bonus for each enemy aircraft in a target. -/
  airTargetBonus : Float32 := 2.0
  islandBonus : Float32 := 5.0
  /-- Penalty of territories already attacked in the epoch. -/
  attackedPenalty : Float32 := 20.0
  neutralPenalty : Float32 := 100.0
  /-- Weight of the net strength when attacks are ranked. -/
  attackNetWeight : Float32 := 0.25
  /-- Weight of the net strength when defenses are ranked. -/
  defendNetWeight : Float32 := 0.5
  enemyNeighborBonus : Float32 := 2.0
  alliedFactoryNeighborBonus : Float32 := 8.0
  /-- Penalty of friendly land without a route to an enemy. -/
  noEnemyRoutePenalty : Float32 := 20.0
  /-- Cap of the penalty of friendly land far from enemies. -/
  enemyRoutePenaltyCap : Float32 := 10.0
  /-- Share of the defense below which an attack retreats. -/
  retreatRatio : Float32 := 0.8
  strategyWeights : StrategyWeights := ⟨0.35, 0.2, 0.25, 0.2⟩
  /-- Buy a transport first when an invasion lacks one. -/
  reserveTransport : Bool := true
deriving DecidableEq, Inhabited

/-- Why a configuration is refused. -/
inductive ConfigError where
  /-- The file cannot be read; the text is the system's. -/
  | unreadable (reason : String)
  | malformed (reason : String)
  /-- A field has a value that the planner cannot work with. -/
  | invalid (field reason : String)
deriving DecidableEq, Repr

/-- The text of a configuration error. -/
def ConfigError.message : ConfigError → String
  | .unreadable reason => s!"cannot read config file: {reason}"
  | .malformed reason => s!"invalid config JSON: {reason}"
  | .invalid field reason => s!"invalid value for {field}: {reason}"

namespace Config

/-- The factors that must not be negative, by field name. -/
def factors (c : Config) : List (String × Float32) :=
  [("attack_factor", c.attackFactor), ("emergency_attack_factor", c.emergencyAttackFactor),
    ("capital_lost_attack_factor", c.capitalLostAttackFactor),
    ("base_unit_value", c.baseUnitValue)]

/-- Whether no weight is negative and some weight is positive. -/
def hasUsableWeights (c : Config) : Bool :=
  !(c.strategyWeights.toList.any (· < 0)) && !(Binary32.sum c.strategyWeights.toList ≤ 0 : Bool)

/-- Refuses a configuration that the planner cannot work with. -/
def check (c : Config) : Except ConfigError Unit := do
  if c.recruitSlack < 1 then
    throw (.invalid "recruit_slack" (Decimal.ofBinary32 c.recruitSlack ++ " is below 1.0"))
  unless c.hasUsableWeights do
    throw (.invalid "strategy_weights" "weights must be non-negative with a positive sum")
  c.factors.forM fun (field, value) =>
    if value.isNaN || (value < 0 : Bool) then
      throw (.invalid field (Decimal.ofBinary32 value ++ " is negative"))
    else pure ()

end Config

end Conquest
