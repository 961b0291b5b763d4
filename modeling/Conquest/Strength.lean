import Conquest.Binary32
import Conquest.Config.Basic
import Conquest.Piece.Basic
import Conquest.Rules
import Conquest.Word

/-!
# Strength

The strength of a stack of pieces says how much it can achieve in one battle. Every piece that takes
part contributes a base value and its attack or defense, twice if it survives a hit; an attack in
which nobody can attack is worth nothing. Each piece counts once, however often it is listed.
-/

namespace Conquest

/-- Weights and rule switches of strength. -/
structure Evaluator where
  baseValue : Float32
  zeroAttackPenalty : Float32
  transportEscortValue : Float32
  /-- Multiplier of submarines that cannot be targeted. -/
  submarineFactor : Float32
  artilleryBonus : Float32
  submarinesNeedDestroyer : Bool
  airAttacksAtSea : Bool
deriving DecidableEq, Inhabited

/-- The kind of battle that strength is judged for. -/
structure Engagement where
  attacking : Bool
  atSea : Bool
  transportsCanDie : Bool
deriving DecidableEq, Repr

/-- The assets of a list without those whose piece is listed before. -/
def distinctAssets (assets : List Asset) : List Asset :=
  assets.eraseDupsBy fun a b => a.id == b.id

namespace Evaluator

/-- The evaluator of a configuration: values and bonuses are at least 0, the submarine factor lies
between 0 and 1. -/
def ofConfig (c : Config) (rules : Rules) : Evaluator where
  baseValue := Binary32.larger c.baseUnitValue 0
  zeroAttackPenalty := c.zeroAttackPenalty
  transportEscortValue := Binary32.larger c.transportEscortValue 0
  submarineFactor := Binary32.clamp c.unescortedSubmarineFactor 0 1
  artilleryBonus := Binary32.larger c.artilleryBonus 0
  submarinesNeedDestroyer := rules.submarinesNeedDestroyer
  airAttacksAtSea := rules.airAttacksAtSea

/-- Whether an asset takes part in a battle. -/
def participates (e : Evaluator) (g : Engagement) (a : Asset) : Bool :=
  if a.kind.isInfrastructure then false
  else if g.atSea then
    a.kind.isSea || (a.kind.isAir && (!g.attacking || e.airAttacksAtSea))
  else !a.kind.isSea

/-- The assets that take part in a battle, each piece once. -/
def members (e : Evaluator) (g : Engagement) (assets : List Asset) : List Asset :=
  (distinctAssets assets).filter (e.participates g)

/-- The value of one participant, never below 0. -/
def assetValue (e : Evaluator) (g : Engagement) (targetable : Bool) (k : PieceKind) : Float32 :=
  if k.isTransport then
    if g.transportsCanDie then e.transportEscortValue else 0
  else
    let hitFactor := Float32.ofNat (if k.isMultiHit then 2 else 1)
    let combat :=
      Float32.ofNat (if g.attacking then wrap (k.attack * max k.attackRolls 1) else k.defense)
    let full := e.baseValue + combat * hitFactor
    let armed := if g.attacking && k.attack == 0 then full - e.zeroAttackPenalty else full
    let shown := if k.isSubmarine && !targetable then armed * e.submarineFactor else armed
    Binary32.larger shown 0

/-- The strength of a list of participants. -/
def total (e : Evaluator) (g : Engagement) (members : List Asset) : Float32 :=
  let targetable := !e.submarinesNeedDestroyer || members.any (·.kind.isDestroyer)
  let values := Binary32.sum (members.map fun a => e.assetValue g targetable a.kind)
  if g.attacking && !g.atSea then
    let artillery := members.countP (·.kind.isArtillery)
    let supportable := members.countP (·.kind.artillerySupportable)
    values + e.artilleryBonus * Float32.ofNat (min artillery supportable)
  else values

/-- The strength of a stack in a battle. -/
def evaluate (e : Evaluator) (g : Engagement) (assets : List Asset) : Float32 :=
  let members := e.members g assets
  if members.isEmpty || (g.attacking && !members.any fun a => decide (1 ≤ a.kind.attack)) then
    0
  else e.total g members

end Evaluator

end Conquest
