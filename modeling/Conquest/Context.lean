import Conquest.Threat

/-!
# The context of a turn

What a phase has to know beside the board: whose turn it is, how the capital stands, where an
invasion is prepared, and what has been attacked in this epoch. The context is built when a turn
starts and derived anew from the board at the start of each epoch.
-/

namespace Conquest

/-- An invasion by sea: the land to take and the sea route from a launch zone to a zone next to
it. -/
structure Invasion where
  target : TerritoryId
  route : Option Route
deriving DecidableEq, Repr

/-- The planning state of one turn. -/
structure Context where
  player : PlayerId
  capital : Option TerritoryId
  /-- There is a capital, but it is not friendly land. -/
  capitalLost : Bool
  capitalDanger : Bool
  factories : List TerritoryId
  enemyCapitals : List TerritoryId
  /-- What to invade when no enemy land can be reached over land. -/
  invasion : Option Invasion
  /-- Territories attacked in this epoch, latest first. -/
  attacked : List TerritoryId
  rules : Rules
  evaluator : Evaluator
  config : Config
deriving Inhabited

/-! ## The invasion target -/

/-- A way to invade: land, the zone the fleet launches from and the zone it lands from. -/
structure Crossing where
  distance : Nat
  target : TerritoryId
  launch : TerritoryId
  landing : TerritoryId
deriving DecidableEq, Repr

/-- Nearer crossings first, then richer land, then lower identifiers. -/
def Crossing.order (b : Board) (x y : Crossing) : Ordering :=
  (compare x.distance y.distance).then <|
  (compare (b.territory y.target).production (b.territory x.target).production).then <|
  (compare x.target y.target).then <|
  (compare x.launch y.launch).then (compare x.landing y.landing)

/-- The sea zones next to a list of bases, each once. -/
def launchZones (b : Board) (bases : List TerritoryId) : List TerritoryId :=
  (bases.flatMap b.atlas.shores).eraseDups

/-- All crossings from the launch zones to coastal land of a list. -/
def crossings (b : Board) (launches targets : List TerritoryId) : List Crossing :=
  (targets.filter b.atlas.isCoastal).flatMap fun target =>
    (b.atlas.shores target).flatMap fun landing =>
      launches.filterMap fun launch =>
        (b.atlas.distance .sea launch landing).map fun d => ⟨d, target, launch, landing⟩

/-- Where to invade from `home` and the factories, if no enemy land can be reached over land. -/
def findInvasion (b : Board) (p : PlayerId) (home : TerritoryId) (factories : List TerritoryId) :
    Option Invasion :=
  let enemyLand := b.enemyTerritories p
  if enemyLand.any fun e => (b.atlas.distance .land home e).isSome then none
  else
    (firstLeast? (Crossing.order b)
      (crossings b (launchZones b (home :: factories)) enemyLand)).map fun x =>
        ⟨x.target, b.atlas.route? x.launch x.landing b.atlas.isWater⟩

namespace Context

/-- Where the player is at home: the capital if it is friendly land, otherwise the first factory. -/
def home? (c : Context) : Option TerritoryId :=
  (c.capital.filter fun _ => !c.capitalLost).or c.factories.head?

/-- The land to invade when no enemy land can be reached over land, with the sea route there. -/
def findInvasion? (b : Board) (c : Context) : Option Invasion :=
  c.home?.bind fun home => findInvasion b c.player home c.factories

/-- Derives anew what depends on the board and forgets what was attacked. -/
def refresh (c : Context) (b : Board) : Context :=
  let known := { c with
    capitalLost := c.capital.any fun t => !b.isFriendlyLand t c.player
    capitalDanger := capitalInDanger b c.evaluator c.config c.player
    factories := b.factoriesOf c.player
    enemyCapitals := b.enemyCapitals c.player
    attacked := [] }
  { known with invasion := known.findInvasion? b }

/-- The context of a player's turn on a board. -/
def build (b : Board) (p : PlayerId) (config : Config) : Context :=
  Context.refresh
    { player := p
      capital := (b.player p).capital
      capitalLost := false
      capitalDanger := false
      factories := []
      enemyCapitals := []
      invasion := none
      attacked := []
      rules := b.rules
      evaluator := .ofConfig config b.rules
      config := config } b

/-- The land to invade. -/
def invasionTarget (c : Context) : Option TerritoryId := c.invasion.map (·.target)

/-- The sea route of the invasion. -/
def invasionRoute (c : Context) : Option Route := c.invasion.bind (·.route)

/-! ## Measures of a territory -/

/-- The strength of a stack as this turn judges it. -/
def strength (c : Context) (attacking atSea : Bool) (assets : List Asset) : Float32 :=
  c.evaluator.evaluate ⟨attacking, atSea, c.rules.transportsCanDie⟩ assets

/-- The hostile force that could reach a territory next turn. -/
def threat (c : Context) (b : Board) (t : TerritoryId) : Float32 :=
  potentialStrength b c.evaluator c.config t c.player []

/-- The hostile defense of a territory. -/
def defense (c : Context) (b : Board) (t : TerritoryId) : Float32 :=
  territoryStrength b c.evaluator t c.player false false

/-- The defense of a territory by the player and its allies. -/
def garrison (c : Context) (b : Board) (t : TerritoryId) : Float32 :=
  territoryStrength b c.evaluator t c.player false true

/-- How far an attack has to outweigh the defense of its target. -/
def attackFactor (c : Context) (b : Board) (target : TerritoryId) : Float32 :=
  if c.capitalLost then c.config.capitalLostAttackFactor
  else if c.capital.any fun t => b.atlas.isAdjacent t target then c.config.emergencyAttackFactor
  else c.config.attackFactor

/-- The strength that an attack must reach. Undefended land takes one armed piece. -/
def requiredStrength (c : Context) (b : Board) (target : TerritoryId) : Float32 :=
  let defense := c.defense b target
  if defense ≤ 0 then 1 else defense * c.attackFactor b target + c.config.safetyMargin

/-! ## Marks -/

/-- Marks a territory as attacked. -/
def markAttacked (c : Context) (t : TerritoryId) : Context :=
  if c.attacked.contains t then c else { c with attacked := t :: c.attacked }

/-- Whether a territory has been attacked in this epoch. -/
def isAttacked (c : Context) (t : TerritoryId) : Bool := c.attacked.contains t

end Context

end Conquest
