import Conquest.Battle
import Conquest.Campaign
import Conquest.Deployment
import Conquest.Purchase.Plan

/-!
# The engine

An engine plays whole turns for one player: purchase, combat move, non-combat move, placement. It
keeps the random state of its policy from turn to turn. Refused commands are counted and never end a
turn.
-/

namespace Conquest

/-- What an engine keeps between turns. -/
structure Engine (σ : Type) where
  player : PlayerId
  config : Config
  /-- Options by name, in the order in which they were first set. -/
  options : List (String × String)
  policy : Policy σ
  /-- Seed of the policy where the configuration has none. -/
  entropy : Nat

/-- A whole number below `2 ^ bits` as an argument spells it: decimal digits after at most one
plus. -/
def wholeOf? (bits : Nat) (s : String) : Option Nat :=
  let digits := match s.toList with
    | '+' :: rest => rest
    | cs => cs
  if digits.isEmpty || digits.any (!·.isDigit) then none
  else
    let n := digits.foldl (fun n c => 10 * n + (c.toNat - '0'.toNat)) 0
    if n < Nat.pow 2 bits then some n else none

/-- What happened in a turn. -/
structure TurnReport where
  player : String
  round : Nat
  strategy : Strategy
  /-- Pieces bought, by the name of their kind, in the order of the names. -/
  purchase : List (String × Nat)
  purchaseAccepted : Bool
  combat : EpochRecord
  nonCombat : EpochRecord
  /-- Number of pieces placed. -/
  placed : Nat
  /-- Number of placements refused. -/
  placementsRejected : Nat

/-- Number of commands that the host refused in a turn. -/
def TurnReport.rejected (r : TurnReport) : Nat :=
  r.combat.rejected + r.nonCombat.rejected + r.placementsRejected
    + if !r.purchaseAccepted && !r.purchase.isEmpty then 1 else 0

namespace Engine

variable {σ : Type} [Lottery σ]

/-- A fresh policy with a seed, or with the seed of the configuration. -/
def freshPolicy (config : Config) (entropy : Nat) (seed : Option Nat) : Policy σ :=
  .ofSeed ((seed.or config.seed).getD entropy) config.strategyWeights

/-- An engine for a player. -/
def new (player : PlayerId) (config : Config) (entropy : Nat) : Engine σ where
  player := player
  config := config
  options := []
  policy := freshPolicy config entropy none
  entropy := entropy

/-- Writes an option. -/
def putOption (name value : String) : List (String × String) → List (String × String)
  | [] => [(name, value)]
  | e :: rest => if e.1 = name then (name, value) :: rest else e :: putOption name value rest

/-- Sets an option; the option `Seed` starts the policy anew, with the seed of the configuration if
the value is no number. -/
def setOption (e : Engine σ) (name : String) (value : Option String) : Engine σ :=
  let value := value.getD ""
  { e with
    options := putOption name value e.options
    policy :=
      if name = "Seed" then freshPolicy e.config e.entropy (wholeOf? 64 value) else e.policy }

/-- The context of the engine's turn on a board. -/
def context (e : Engine σ) (b : Board) : Context := .build b e.player e.config

/-- The pieces to lose for `count` hits. -/
def selectCasualties (e : Engine σ) (b : Board) (candidates : List PieceId) (count : Nat) :
    List PieceId :=
  Conquest.selectCasualties b (e.context b) candidates count

/-- Where to retreat from a battle, if at all. -/
def retreat? (e : Engine σ) (b : Board) (battle : TerritoryId) (options : List TerritoryId) :
    Option TerritoryId :=
  Conquest.retreat? b (e.context b) battle options

end Engine

/-! ## Playing a turn -/

/-- An engine at its host. -/
structure Seat (σ η : Type) where
  engine : Engine σ
  host : η

/-- A turn being played: when it goes no further, engine and host stay as they were at that
moment. -/
abbrev Playing (σ η : Type) := EStateM Abort (Seat σ η)

namespace Seat

variable {σ η : Type} [Lottery σ] [Host η]

/-- The board of the host. -/
def board (s : Seat σ η) : Board := Host.board s.host

/-- Plans the purchase. -/
def choosePurchase (c : Context) : Playing σ η (Strategy × Tally) := fun s =>
  match planPurchase s.board (Host.placementCapacity s.host) c s.engine.policy with
  | .error e => .error e s
  | .ok (choice, policy) => .ok choice { s with engine := { s.engine with policy } }

/-- Submits a purchase; says whether it was accepted. An empty purchase is not submitted and counts
as accepted. -/
def buy (bought : Tally) : Playing σ η Bool := fun s =>
  if bought.isEmpty then .ok true s
  else
    match Host.submitPurchase s.host s.engine.player bought with
    | .ok host => .ok true { s with host }
    | .error _ => .ok false s

/-- Runs both epochs of the turn. -/
def move (c : Context) : Playing σ η (Context × EpochRecord × EpochRecord) := fun s =>
  match Campaign.runTurn ⟨s.host, ⟨c, .new .combat⟩⟩ with
  | .ok (combat, nonCombat) last =>
    .ok (last.desk.context, combat, nonCombat) { s with host := last.host }
  | .error e last => .error (.planning e) { s with host := last.host }

/-- Submits placements one after another; counts the pieces placed and the placements refused. -/
def submitPlacements (p : PlayerId) : List Placement → η → (Nat × Nat) × η
  | [], host => ((0, 0), host)
  | x :: rest, host =>
    match Host.submitPlacement host p x with
    | .ok next =>
      let ((placed, refused), last) := submitPlacements p rest next
      ((x.kinds.length + placed, refused), last)
    | .error _ =>
      let ((placed, refused), last) := submitPlacements p rest host
      ((placed, refused + 1), last)

/-- Places what was bought. -/
def place (c : Context) (bought : Tally) : Playing σ η (Nat × Nat) := fun s =>
  let plan :=
    planPlacements s.board (Host.placementCapacity s.host) (c.refresh s.board) bought
  let (counts, host) := submitPlacements s.engine.player plan s.host
  .ok counts { s with host }

/-- A purchase by names, in the order of the names. -/
def named (b : Board) (bought : Tally) : List (String × Nat) :=
  sortBy (fun x y => compare x.1 y.1) (bought.entries.map fun e => ((b.kind e.1).name, e.2))

/-- Plays a whole turn. Nothing is placed if the purchase was refused. -/
def playTurn : Playing σ η TurnReport := do
  let s ← get
  let c := s.engine.context s.board
  let (strategy, bought) ← choosePurchase c
  let purchaseAccepted ← buy bought
  let purchase := named (← get).board bought
  let (c, combat, nonCombat) ← move c
  let (placed, placementsRejected) ← if purchaseAccepted then place c bought else pure (0, 0)
  let s ← get
  return {
    player := (s.board.player s.engine.player).name
    round := Host.round s.host
    strategy
    purchase
    purchaseAccepted
    combat
    nonCombat
    placed
    placementsRejected }

end Seat

end Conquest
