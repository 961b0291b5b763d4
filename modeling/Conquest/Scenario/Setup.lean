import Conquest.Scenario.Basic
import Conquest.Table.Basic

/-!
# Setting up a scenario

Setting up resolves every name to its position in its register and puts the pieces on the board.
Land pieces listed in a sea zone go aboard a transport of their owner in that zone. All other
pieces come first, so that such cargo finds its transport; within both groups the order of the
scenario is kept.
-/

namespace Conquest

/-- Refuses a register with more entries than its limit or with a name given twice; the entries are
looked at one by one, those before are in `seen`. -/
def Register.check (r : Register) : List String → List String → Except ScenarioError Unit
  | _, [] => .ok ()
  | seen, name :: rest =>
    if r.limit ≤ seen.length then .error (.tooMany r)
    else if seen.contains name then .error (.duplicateName name)
    else r.check (name :: seen) rest

/-- The position of a name in a register. -/
def Register.find (r : Register) (names : List String) (name : String) :
    Except ScenarioError Nat :=
  match names.idxOf? name with
  | some i => .ok i
  | none => .error (r.unknown name)

namespace Scenario

/-- The names in a register. -/
def names (s : Scenario) : Register → List String
  | .players => s.players.map (·.name)
  | .territories => s.territories.map (·.name)
  | .kinds => s.kinds.map (·.name)

/-- Checks a register of the scenario. -/
def check (s : Scenario) (r : Register) : Except ScenarioError Unit := r.check [] (s.names r)

/-- The position of a name in a register of the scenario. -/
def find (s : Scenario) (r : Register) (name : String) : Except ScenarioError Nat :=
  r.find (s.names r) name

/-! ## The map and the players -/

/-- The territory of a specification. -/
def territory (s : Scenario) (spec : TerritorySpec) (id : TerritoryId) :
    Except ScenarioError Territory := do
  return {
    id
    name := spec.name
    isWater := spec.water
    owner := ← spec.owner.mapM (s.find .players)
    production := spec.production
    impassable := spec.impassable
    hasFactory := spec.factory
    victoryCity := spec.victoryCity }

/-- The player of a specification. -/
def player (s : Scenario) (spec : PlayerSpec) (id : PlayerId) : Except ScenarioError Player := do
  return {
    id
    name := spec.name
    team := spec.team
    capital := ← spec.capital.mapM (s.find .territories) }

/-- Connects a pair of neighbours. -/
def connect (s : Scenario) (m : Atlas) (pair : String × String) : Except ScenarioError Atlas := do
  let a ← s.find .territories pair.1
  let b ← s.find .territories pair.2
  return m.connect a b

/-- The map of a scenario. -/
def atlas (s : Scenario) : Except ScenarioError Atlas := do
  let territories ← s.territories.zipIdx.mapM fun (spec, id) => s.territory spec id
  s.connections.foldlM s.connect (.ofTerritories territories.toArray)

/-- The kinds of a scenario, each with its position for an identifier. -/
def catalogue (s : Scenario) : Array PieceKind :=
  (s.kinds.zipIdx.map fun (k, id) => { k with id }).toArray

/-- The board of a scenario before any piece is on it. -/
def emptyBoard (s : Scenario) : Except ScenarioError Board := do
  let atlas ← s.atlas
  let players ← s.players.zipIdx.mapM fun (spec, id) => s.player spec id
  return { Board.ofAtlas atlas players.toArray s.catalogue s.rules with
    budgets := (s.players.map (·.budget)).toArray }

/-! ## The pieces -/

/-- Where a specification puts its pieces. -/
structure Deployment where
  kind : KindId
  owner : PlayerId
  territory : TerritoryId
deriving DecidableEq, Repr

/-- Resolves the names of a specification. -/
def deployment (s : Scenario) (spec : PieceSpec) : Except ScenarioError Deployment := do
  return {
    kind := ← s.find .kinds spec.kind
    owner := ← s.find .players spec.owner
    territory := ← s.find .territories spec.place }

/-- Whether a specification lists land pieces in a sea zone. -/
def listsCargo (s : Scenario) (b : Board) (spec : PieceSpec) : Bool :=
  match s.find .kinds spec.kind, s.find .territories spec.place with
  | .ok k, .ok t => (b.kind k).isLand && b.atlas.isWater t
  | _, _ => false

/-- The first transport in the place of a deployment that belongs to its owner and has room for one
of its pieces. -/
def carrierFor? (b : Board) (d : Deployment) : Option PieceId :=
  ((b.assetsIn d.territory).find? fun a =>
    a.piece.owner == d.owner && a.kind.isTransport
      && decide ((b.kind d.kind).transportCost ≤ b.freeCapacity a.id)).map (·.id)

/-- Puts some pieces on the board. -/
def deploy (d : Deployment) : Nat → Board → Board
  | 0, b => b
  | n + 1, b => deploy d n (b.addPiece d.kind d.owner d.territory)

/-- Puts some pieces aboard transports; there is no such board if a piece finds no room. -/
def stow? (d : Deployment) : Nat → Board → Option Board
  | 0, b => some b
  | n + 1, b =>
    match carrierFor? b d with
    | none => none
    | some carrier =>
      stow? d n ((b.addPiece d.kind d.owner d.territory).modifyPiece b.pieces.size fun p =>
        { p with carrier := some carrier })

/-- Puts the pieces of a specification on the board. -/
def place (s : Scenario) (b : Board) (spec : PieceSpec) : Except ScenarioError Board := do
  return deploy (← s.deployment spec) spec.count b

/-- Puts the pieces of a specification aboard transports. -/
def load (s : Scenario) (b : Board) (spec : PieceSpec) : Except ScenarioError Board := do
  match stow? (← s.deployment spec) spec.count b with
  | some b => return b
  | none => throw (.stranded spec.kind spec.place)

/-- The board of a scenario with all its pieces. -/
def board (s : Scenario) : Except ScenarioError Board := do
  let empty ← s.emptyBoard
  let (cargo, others) := s.pieces.partition (s.listsCargo empty)
  let placed ← others.foldlM s.place empty
  cargo.foldlM s.load placed

/-- The table at which a scenario is played. -/
def setUp (s : Scenario) : Except ScenarioError Table := do
  s.check .players
  s.check .territories
  s.check .kinds
  return .ofBoard (← s.board)

/-- A scenario whose table passes a test can be set up. -/
theorem exists_setUp {s : Scenario} {test : Table → Bool}
    (hpass : s.setUp.toOption.any test = true) : ∃ h, s.setUp = .ok h ∧ test h = true := by
  cases hset : s.setUp with
  | error e =>
    rw [hset] at hpass
    cases hpass
  | ok h =>
    rw [hset] at hpass
    exact ⟨h, rfl, hpass⟩

end Scenario

end Conquest
