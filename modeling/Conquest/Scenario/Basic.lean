import Conquest.Piece.Kind
import Conquest.Rules

/-!
# Scenarios

A scenario describes a game position by names: players, the map, kinds of piece, pieces, money and
rule switches. Nothing in it is resolved yet.
-/

namespace Conquest

/-- A player of a scenario. -/
structure PlayerSpec where
  name : String
  team : Nat := 0
  capital : Option String := none
  budget : UInt32 := 0
deriving DecidableEq, Repr, Inhabited

/-- A territory of a scenario. -/
structure TerritorySpec where
  name : String
  water : Bool := false
  owner : Option String := none
  production : Nat := 0
  factory : Bool := false
  impassable : Bool := false
  victoryCity : Bool := false
deriving DecidableEq, Repr, Inhabited

/-- Some pieces of one kind and owner in one place. -/
structure PieceSpec where
  kind : String
  owner : String
  place : String
  count : Nat := 1
deriving DecidableEq, Repr, Inhabited

/-- A game position described by names. -/
structure Scenario where
  rules : Rules := {}
  players : List PlayerSpec
  territories : List TerritorySpec
  /-- Pairs of neighbours. -/
  connections : List (String × String)
  kinds : List PieceKind
  pieces : List PieceSpec := []
deriving DecidableEq, Repr, Inhabited

/-- The lists of a scenario whose entries have names. -/
inductive Register where
  | players
  | territories
  | kinds
deriving DecidableEq, Repr

/-- The name of a register in messages. -/
def Register.name : Register → String
  | .players => "players"
  | .territories => "territories"
  | .kinds => "unit types"

/-- How many entries a register may have. -/
def Register.limit : Register → Nat
  | .players => 255
  | .territories => 65535
  | .kinds => 65535

/-- Why a scenario is refused. -/
inductive ScenarioError where
  /-- The file cannot be read; the text is the system's. -/
  | unreadable (reason : String)
  | malformed (reason : String)
  | unknownTerritory (name : String)
  | unknownPlayer (name : String)
  | unknownKind (name : String)
  | duplicateName (name : String)
  | tooMany (register : Register)
  /-- A land piece is listed in a sea zone without a transport that has room for it. -/
  | stranded (kind territory : String)
deriving DecidableEq, Repr

/-- The text of a scenario error. -/
def ScenarioError.message : ScenarioError → String
  | .unreadable reason => s!"cannot read scenario: {reason}"
  | .malformed reason => s!"malformed scenario: {reason}"
  | .unknownTerritory name => s!"unknown territory: {name}"
  | .unknownPlayer name => s!"unknown player: {name}"
  | .unknownKind name => s!"unknown unit type: {name}"
  | .duplicateName name => s!"duplicate name: {name}"
  | .tooMany register => "too many " ++ register.name
  | .stranded kind territory => s!"no transport room for {kind} in {territory}"

/-- The error of a name that is in no entry of a register. -/
def Register.unknown : Register → String → ScenarioError
  | .players => .unknownPlayer
  | .territories => .unknownTerritory
  | .kinds => .unknownKind

end Conquest
