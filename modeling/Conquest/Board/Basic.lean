import Conquest.Atlas.Basic
import Conquest.Piece.Basic
import Conquest.Route
import Conquest.Rules
import Conquest.Word

/-!
# The board

The board owns every territory, player, kind and piece. Pieces are never removed, so a piece's
identifier stays valid. Where a piece stands is written twice, in the piece and in the garrison of
its territory; `addPiece` and `relocate` are the only operations that move pieces, and they change
both.
-/

namespace Conquest

/-- A position of the game. -/
structure Board where
  round : Nat
  atlas : Atlas
  players : Array Player
  kinds : Array PieceKind
  rules : Rules
  pieces : Array Piece
  /-- The pieces in each territory, in order of arrival. -/
  garrisons : Array (List PieceId)
  /-- Territories captured during the current turn. -/
  conquered : Array Bool
  /-- Territories with a battle pending or fought this turn. -/
  battles : Array Bool
  /-- Unspent production points of each player. -/
  budgets : Array UInt32
deriving Inhabited

namespace Board

/-- A board in its first round, without pieces and money. -/
def ofAtlas (atlas : Atlas) (players : Array Player) (kinds : Array PieceKind) (rules : Rules) :
    Board where
  round := 1
  atlas := atlas
  players := players
  kinds := kinds
  rules := rules
  pieces := #[]
  garrisons := Array.replicate atlas.size []
  conquered := Array.replicate atlas.size false
  battles := Array.replicate atlas.size false
  budgets := Array.replicate players.size 0

/-! ## Looking things up -/

def territory (b : Board) (t : TerritoryId) : Territory := b.atlas.territory t

def player (b : Board) (p : PlayerId) : Player := b.players.getD p default

def kind (b : Board) (k : KindId) : PieceKind := b.kinds.getD k default

def piece? (b : Board) (u : PieceId) : Option Piece := b.pieces[u]?

/-- A piece of the board with its kind. -/
def asset? (b : Board) (u : PieceId) : Option Asset :=
  (b.piece? u).map fun p => ⟨p, b.kind p.kind⟩

/-- The pieces in a territory, in order of arrival. -/
def garrison (b : Board) (t : TerritoryId) : List PieceId := b.garrisons.getD t []

/-- Whether a territory was captured during the current turn. -/
def isConquered (b : Board) (t : TerritoryId) : Bool := b.conquered.getD t false

/-- Whether a battle is pending in a territory or was fought there this turn. -/
def hasBattle (b : Board) (t : TerritoryId) : Bool := b.battles.getD t false

/-- Unspent production points. -/
def budget (b : Board) (p : PlayerId) : Nat := (b.budgets.getD p 0).toNat

/-- The first player with a name. -/
def findPlayer? (b : Board) (name : String) : Option PlayerId :=
  (b.players.toList.find? (·.name == name)).map (·.id)

/-! ## Changing single entries -/

def modifyPiece (b : Board) (u : PieceId) (f : Piece → Piece) : Board :=
  { b with pieces := b.pieces.modify u f }

/-- Makes the points of a player what a word keeps of an amount. -/
def setBudget (b : Board) (p : PlayerId) (amount : Nat) : Board :=
  { b with budgets := b.budgets.setIfInBounds p (.ofNat amount) }

def setConquered (b : Board) (t : TerritoryId) (flag : Bool) : Board :=
  { b with conquered := b.conquered.setIfInBounds t flag }

def setBattle (b : Board) (t : TerritoryId) (flag : Bool) : Board :=
  { b with battles := b.battles.setIfInBounds t flag }

def modifyTerritory (b : Board) (t : TerritoryId) (f : Territory → Territory) : Board :=
  { b with atlas := b.atlas.modify t f }

/-! ## Pieces come and go -/

/-- Adds a fresh piece with full movement. Its identifier is the number of pieces before it. -/
def addPiece (b : Board) (kind : KindId) (owner : PlayerId) (t : TerritoryId) : Board :=
  { b with
    pieces := b.pieces.push
      { id := b.pieces.size, kind, owner, territory := t, movementLeft := (b.kind kind).movement }
    garrisons := b.garrisons.modify t (· ++ [b.pieces.size]) }

/-- Moves a piece from one garrison to the end of another; nothing happens when both are the same
territory. -/
def transfer (b : Board) (u : PieceId) (source goal : TerritoryId) : Board :=
  if source = goal then b
  else { b with
    garrisons := (b.garrisons.modify source (·.filter (· != u))).modify goal (· ++ [u]) }

/-- The pieces aboard a transport, wherever they stand. -/
def aboard (b : Board) (transport : PieceId) : List PieceId :=
  (b.pieces.toList.filter (·.carrier == some transport)).map (·.id)

/-- Moves a piece to the end of a route, one movement point a step. What is aboard the piece
travels with it and keeps its own movement. -/
def relocate (b : Board) (u : PieceId) (route : Route) : Board :=
  match b.piece? u with
  | none => b
  | some p =>
    let goal := route.dest
    let moved := (b.transfer u p.territory goal).modifyPiece u fun q =>
      { q with
        territory := goal
        movementLeft := q.movementLeft - route.length
        movedThisTurn := true }
    (b.aboard u).foldl (fun b c =>
      (b.transfer c p.territory goal).modifyPiece c fun q => { q with territory := goal }) moved

/-! ## Turns -/

/-- Restores the movement of a player's pieces and clears the marks of the turn. -/
def refresh (b : Board) (p : PlayerId) : Board :=
  { b with
    pieces := b.pieces.map fun q =>
      if q.owner = p then
        { q with movementLeft := (b.kind q.kind).movement, movedThisTurn := false }
      else q
    conquered := b.conquered.map fun _ => false
    battles := b.battles.map fun _ => false }

/-- Total production of the territories that a player owns. -/
def production (b : Board) (p : PlayerId) : Nat :=
  sumOf ((b.atlas.territories.toList.filter (·.owner == some p)).map (·.production))

/-- What a player collects at the end of a turn. -/
def income (b : Board) (p : PlayerId) : Nat := wrap (b.production p)

end Board

end Conquest
