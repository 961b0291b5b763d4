import Conquest.Json.Record
import Conquest.Scenario.Basic

/-!
# Reading a scenario

The scenario, its players, territories and pieces are closed records; kinds of piece and rules are
open ones in which every field has a default.
-/

namespace Conquest

open Json

/-- A domain: its name, alone or as the only field of an object whose value is `null`. -/
def readDomain (v : Value) : Read Domain := do
  let name ← match v with
    | .object [(some name, .null)] => pure name
    | v => readString v
  match name with
  | "land" => return .land
  | "sea" => return .sea
  | "air" => return .air
  | _ => throw (.mismatch "a domain")

/-- The fields of a kind of piece in declaration order. -/
def PieceKind.fieldNames : List String :=
  ["id", "name", "domain", "attack", "attack_rolls", "defense", "movement", "cost", "hit_points",
    "transport_capacity", "transport_cost", "carrier_capacity", "carrier_cost", "can_blitz",
    "is_submarine", "is_destroyer", "is_strategic_bomber", "is_artillery",
    "artillery_supportable", "is_infantry", "is_infrastructure", "can_bombard"]

def PieceKind.read (v : Value) : Read PieceKind := do
  let f ← readFields PieceKind.fieldNames false v
  let d : PieceKind := {}
  let stat (name : String) (default : Nat) : Read UInt32 :=
    f.optional name (.ofNat default) readWord
  let flag (name : String) : Read Bool := f.optional name false readBool
  return {
    id := ← f.optional "id" d.id (readNat 16)
    name := ← f.optional "name" d.name readString
    domain := ← f.optional "domain" d.domain readDomain
    attack := (← stat "attack" d.attack).toNat
    attackRolls := (← stat "attack_rolls" d.attackRolls).toNat
    defense := (← stat "defense" d.defense).toNat
    movement := (← stat "movement" d.movement).toNat
    cost := (← stat "cost" d.cost).toNat
    hitPoints := (← stat "hit_points" d.hitPoints).toNat
    transportCapacity := (← stat "transport_capacity" d.transportCapacity).toNat
    transportCost := (← stat "transport_cost" d.transportCost).toNat
    carrierCapacity := (← stat "carrier_capacity" d.carrierCapacity).toNat
    carrierCost := (← stat "carrier_cost" d.carrierCost).toNat
    canBlitz := ← flag "can_blitz"
    isSubmarine := ← flag "is_submarine"
    isDestroyer := ← flag "is_destroyer"
    isStrategicBomber := ← flag "is_strategic_bomber"
    isArtillery := ← flag "is_artillery"
    artillerySupportable := ← flag "artillery_supportable"
    isInfantry := ← flag "is_infantry"
    isInfrastructure := ← flag "is_infrastructure"
    canBombard := ← flag "can_bombard"
    words := by simp only [areWords_cons, areWords_nil, UInt32.toNat_lt_size, and_self] }

def Rules.read (v : Value) : Read Rules := do
  let f ← readFields
    ["transports_can_die", "submarines_need_destroyer", "air_attacks_at_sea",
      "blitz_through_empty_enemy"] false v
  let d : Rules := {}
  return {
    transportsCanDie := ← f.optional "transports_can_die" d.transportsCanDie readBool
    submarinesNeedDestroyer :=
      ← f.optional "submarines_need_destroyer" d.submarinesNeedDestroyer readBool
    airAttacksAtSea := ← f.optional "air_attacks_at_sea" d.airAttacksAtSea readBool
    blitzThroughEmptyEnemy :=
      ← f.optional "blitz_through_empty_enemy" d.blitzThroughEmptyEnemy readBool }

def PlayerSpec.read (v : Value) : Read PlayerSpec := do
  let f ← readFields ["name", "team", "capital", "budget"] true v
  return {
    name := ← f.required "name" readString
    team := ← f.optional "team" 0 (readNat 8)
    capital := ← f.optional "capital" none (readOption readString)
    budget := ← f.optional "budget" 0 readWord }

def TerritorySpec.read (v : Value) : Read TerritorySpec := do
  let f ← readFields
    ["name", "water", "owner", "production", "factory", "impassable", "victory_city"] true v
  return {
    name := ← f.required "name" readString
    water := ← f.optional "water" false readBool
    owner := ← f.optional "owner" none (readOption readString)
    production := ← f.optional "production" 0 (readNat 32)
    factory := ← f.optional "factory" false readBool
    impassable := ← f.optional "impassable" false readBool
    victoryCity := ← f.optional "victory_city" false readBool }

def PieceSpec.read (v : Value) : Read PieceSpec := do
  let f ← readFields ["type", "owner", "at", "count"] true v
  return {
    kind := ← f.required "type" readString
    owner := ← f.required "owner" readString
    place := ← f.required "at" readString
    count := ← f.optional "count" 1 (readNat 32) }

/-- A pair of neighbours, as an array of exactly two names. -/
def readConnection (v : Value) : Read (String × String) := do
  match ← readList readString v with
  | [a, b] => return (a, b)
  | _ => throw (.mismatch "two names")

namespace Scenario

/-- Reads a scenario from a JSON value. -/
def ofValue (v : Value) : Read Scenario := do
  let f ← readFields
    ["rules", "players", "territories", "connections", "unit_types", "units"] true v
  return {
    rules := ← f.optional "rules" {} Rules.read
    players := ← f.required "players" (readList PlayerSpec.read)
    territories := ← f.required "territories" (readList TerritorySpec.read)
    connections := ← f.required "connections" (readList readConnection)
    kinds := ← f.required "unit_types" (readList PieceKind.read)
    pieces := ← f.optional "units" [] (readList PieceSpec.read) }

/-- Reads a scenario from a text. -/
def parse (text : String) : Except ScenarioError Scenario :=
  match Json.parse text >>= ofValue with
  | .error e => .error (.malformed e.message)
  | .ok s => .ok s

end Scenario

end Conquest
