import Conquest.Config.Basic
import Conquest.Json.Record

/-!
# Reading a configuration

A configuration is an open record in which every field has a default.
-/

namespace Conquest

open Json

/-- The four odds, as an array of exactly four numbers. -/
def readStrategyWeights (v : Value) : Read StrategyWeights := do
  match ← readList readBinary32 v with
  | [attack, defense, maxUnits, mobility] => return ⟨attack, defense, maxUnits, mobility⟩
  | _ => throw (.mismatch "four weights")

namespace Config

/-- The fields of a configuration in declaration order. -/
def fieldNames : List String :=
  ["seed", "base_unit_value", "zero_attack_penalty", "transport_escort_value",
    "unescorted_submarine_factor", "artillery_bonus", "other_enemies_factor",
    "blitz_threat_radius", "ship_threat_radius", "expected_reinforcement",
    "capital_threat_factor", "attack_factor", "emergency_attack_factor",
    "capital_lost_attack_factor", "safety_margin", "recruit_slack", "max_attack_targets",
    "production_weight", "capital_route_bonus", "capital_route_decay_cap", "capital_path_bonus",
    "factory_bonus", "air_target_bonus", "island_bonus", "attacked_penalty", "neutral_penalty",
    "attack_net_weight", "defend_net_weight", "enemy_neighbor_bonus",
    "allied_factory_neighbor_bonus", "no_enemy_route_penalty", "enemy_route_penalty_cap",
    "retreat_ratio", "strategy_weights", "reserve_transport"]

/-- Reads a configuration without checking its values. -/
def ofValue (v : Value) : Read Config := do
  let f ← readFields fieldNames false v
  let d : Config := {}
  let number (name : String) (default : Float32) : Read Float32 :=
    f.optional name default readBinary32
  return {
    seed := ← f.optional "seed" d.seed (readOption (readNat 64))
    baseUnitValue := ← number "base_unit_value" d.baseUnitValue
    zeroAttackPenalty := ← number "zero_attack_penalty" d.zeroAttackPenalty
    transportEscortValue := ← number "transport_escort_value" d.transportEscortValue
    unescortedSubmarineFactor := ← number "unescorted_submarine_factor" d.unescortedSubmarineFactor
    artilleryBonus := ← number "artillery_bonus" d.artilleryBonus
    otherEnemiesFactor := ← number "other_enemies_factor" d.otherEnemiesFactor
    blitzThreatRadius := ← f.optional "blitz_threat_radius" d.blitzThreatRadius (readNat 32)
    shipThreatRadius := ← f.optional "ship_threat_radius" d.shipThreatRadius (readNat 32)
    expectedReinforcement := ← number "expected_reinforcement" d.expectedReinforcement
    capitalThreatFactor := ← number "capital_threat_factor" d.capitalThreatFactor
    attackFactor := ← number "attack_factor" d.attackFactor
    emergencyAttackFactor := ← number "emergency_attack_factor" d.emergencyAttackFactor
    capitalLostAttackFactor := ← number "capital_lost_attack_factor" d.capitalLostAttackFactor
    safetyMargin := ← number "safety_margin" d.safetyMargin
    recruitSlack := ← number "recruit_slack" d.recruitSlack
    maxAttackTargets := ← f.optional "max_attack_targets" d.maxAttackTargets (readNat 64)
    productionWeight := ← number "production_weight" d.productionWeight
    capitalRouteBonus := ← number "capital_route_bonus" d.capitalRouteBonus
    capitalRouteDecayCap := ← number "capital_route_decay_cap" d.capitalRouteDecayCap
    capitalPathBonus := ← number "capital_path_bonus" d.capitalPathBonus
    factoryBonus := ← number "factory_bonus" d.factoryBonus
    airTargetBonus := ← number "air_target_bonus" d.airTargetBonus
    islandBonus := ← number "island_bonus" d.islandBonus
    attackedPenalty := ← number "attacked_penalty" d.attackedPenalty
    neutralPenalty := ← number "neutral_penalty" d.neutralPenalty
    attackNetWeight := ← number "attack_net_weight" d.attackNetWeight
    defendNetWeight := ← number "defend_net_weight" d.defendNetWeight
    enemyNeighborBonus := ← number "enemy_neighbor_bonus" d.enemyNeighborBonus
    alliedFactoryNeighborBonus := ←
      number "allied_factory_neighbor_bonus" d.alliedFactoryNeighborBonus
    noEnemyRoutePenalty := ← number "no_enemy_route_penalty" d.noEnemyRoutePenalty
    enemyRoutePenaltyCap := ← number "enemy_route_penalty_cap" d.enemyRoutePenaltyCap
    retreatRatio := ← number "retreat_ratio" d.retreatRatio
    strategyWeights := ← f.optional "strategy_weights" d.strategyWeights readStrategyWeights
    reserveTransport := ← f.optional "reserve_transport" d.reserveTransport readBool }

/-- Reads a configuration from a JSON value and checks it. -/
def read (v : Value) : Except ConfigError Config := do
  match ofValue v with
  | .error e => throw (.malformed e.message)
  | .ok c =>
    c.check
    return c

/-- Reads a configuration from a text and checks it. -/
def parse (text : String) : Except ConfigError Config :=
  match Json.parse text with
  | .error e => throw (.malformed e.message)
  | .ok v => read v

end Config

end Conquest
