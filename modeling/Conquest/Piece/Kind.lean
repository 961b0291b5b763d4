import Conquest.Identifier
import Conquest.Word

/-!
# Kinds of piece

A kind carries the statistics that all pieces of the kind share. What a piece may do (sail, land on
a carrier, be carried) is read off its kind.
-/

namespace Conquest

/-- Where a piece moves. -/
inductive Domain where
  | land
  | sea
  | air
deriving DecidableEq, Repr, Inhabited

/-- The statistics shared by the pieces of one kind; every count among them is a word. -/
structure PieceKind where
  id : KindId := 0
  name : String := ""
  domain : Domain := .land
  attack : Nat := 0
  attackRolls : Nat := 1
  defense : Nat := 0
  movement : Nat := 1
  cost : Nat := 0
  hitPoints : Nat := 1
  /-- Cargo space, in units of transport cost. -/
  transportCapacity : Nat := 0
  /-- Space taken aboard a transport; 0 means that it cannot be carried. -/
  transportCost : Nat := 0
  carrierCapacity : Nat := 0
  carrierCost : Nat := 0
  canBlitz : Bool := false
  isSubmarine : Bool := false
  isDestroyer : Bool := false
  isStrategicBomber : Bool := false
  isArtillery : Bool := false
  artillerySupportable : Bool := false
  isInfantry : Bool := false
  isInfrastructure : Bool := false
  canBombard : Bool := false
  words : AreWords [attack, attackRolls, defense, movement, cost, hitPoints, transportCapacity,
    transportCost, carrierCapacity, carrierCost] := by exact Eq.refl true
deriving DecidableEq, Repr, Inhabited

namespace PieceKind

theorem hitPoints_lt (k : PieceKind) : k.hitPoints < UInt32.size := k.words.lt_of_mem (by simp)

theorem transportCapacity_lt (k : PieceKind) : k.transportCapacity < UInt32.size :=
  k.words.lt_of_mem (by simp)

def isLand (k : PieceKind) : Bool := k.domain == .land

def isSea (k : PieceKind) : Bool := k.domain == .sea

def isAir (k : PieceKind) : Bool := k.domain == .air

/-- A ship with cargo space, armed or not. -/
def carriesCargo (k : PieceKind) : Bool := k.isSea && decide (0 < k.transportCapacity)

/-- An unarmed ship with cargo space. -/
def isTransport (k : PieceKind) : Bool := k.carriesCargo && k.attack == 0

/-- A ship that aircraft can land on. -/
def isCarrier (k : PieceKind) : Bool := k.isSea && decide (0 < k.carrierCapacity)

/-- An aircraft that can land on a carrier. -/
def isCarrierBorne (k : PieceKind) : Bool := k.isAir && decide (0 < k.carrierCost)

/-- A land piece that fits aboard a transport. -/
def canBeTransported (k : PieceKind) : Bool :=
  k.isLand && decide (0 < k.transportCost) && !k.isInfrastructure

/-- A piece that survives its first hit. -/
def isMultiHit (k : PieceKind) : Bool := decide (1 < k.hitPoints)

end PieceKind

/-- The most that any listed kind moves; 0 for no kind at all. -/
def greatestMovement (kinds : List PieceKind) : Nat := (kinds.map (·.movement)).foldl max 0

end Conquest
