import Conquest.Ranking
import Conquest.Recruit.Chain

/-!
# Phases

A turn is planned in named phases, each of which reads the board, may mark territories as attacked,
commits pieces and returns the orders that it wants submitted.
-/

namespace Conquest

/-- A named step of the move plan. -/
inductive Phase where
  | seaCombat
  | transportLoad
  | defendCapital
  | amphibiousAssault
  | landCombat
  | strategicBombing
  | navalReposition
  | amphibiousReinforce
  | airReposition
  | consolidation
  | blitzBlock
  | airLanding
  | transportUnload
deriving DecidableEq, Repr

namespace Phase

/-- The phases of an epoch, in order. -/
def sequence : Epoch → List Phase
  | .combat =>
    [.seaCombat, .transportLoad, .defendCapital, .amphibiousAssault, .landCombat,
      .strategicBombing]
  | .nonCombat =>
    [.transportLoad, .defendCapital, .navalReposition, .amphibiousReinforce, .airReposition,
      .consolidation, .blitzBlock, .airLanding, .transportUnload]

/-- The name of a phase in reports. -/
def name : Phase → String
  | .seaCombat => "sea-combat"
  | .transportLoad => "transport-load"
  | .defendCapital => "defend-capital"
  | .amphibiousAssault => "amphibious-assault"
  | .landCombat => "land-combat"
  | .strategicBombing => "strategic-bombing"
  | .navalReposition => "naval-reposition"
  | .amphibiousReinforce => "amphibious-reinforce"
  | .airReposition => "air-reposition"
  | .consolidation => "consolidation"
  | .blitzBlock => "blitz-block"
  | .airLanding => "air-landing"
  | .transportUnload => "transport-unload"

/-- All phases. -/
def all : List Phase :=
  [.seaCombat, .transportLoad, .defendCapital, .amphibiousAssault, .landCombat, .strategicBombing,
    .navalReposition, .amphibiousReinforce, .airReposition, .consolidation, .blitzBlock,
    .airLanding, .transportUnload]

end Phase

/-! ## Drafting orders -/

/-- What a phase works on: the context of the turn and the ledger of the epoch. -/
structure Desk where
  context : Context
  ledger : Ledger
deriving Inhabited

/-- A phase in the making: it changes context and ledger, and when it fails both stay as they were
at that moment. -/
abbrev Drafting := EStateM PlanError Desk

/-- Does something for each element of a list and joins the results. -/
def collect {m : Type → Type} [Monad m] {α β : Type} (f : α → m (List β)) : List α → m (List β)
  | [] => pure []
  | x :: rest => do
    let first ← f x
    let others ← collect f rest
    return first ++ others

namespace Drafting

/-- A plan that changes the ledger only. -/
def plan {α : Type} (p : Context → Planning α) : Drafting α := fun d =>
  match p d.context d.ledger with
  | .ok a l => .ok a { d with ledger := l }
  | .error e l => .error e { d with ledger := l }

/-- Marks a territory as attacked. -/
def markAttacked (t : TerritoryId) : Drafting Unit :=
  modify fun d => { d with context := d.context.markAttacked t }

/-- Tries to gather `need` against an objective on a fork of the ledger. The fork is absorbed only
if it has orders, reaches the requirement and is accepted; otherwise everything it took stays
free. -/
def attempt (b : Board) (objective : TerritoryId) (need : Float32) (branches : List Branch)
    (accept : Haul → Bool) : Drafting (Option Haul) := fun d =>
  let target : Target := { objective, needed := need, exclude := d.context.attacked }
  match d.context.recruitChain b target branches {} d.ledger.fork with
  | .error e _ => .error e d
  | .ok haul fork =>
    if haul.isEmpty || (haul.achieved < need : Bool) || !accept haul then .ok none d
    else
      match d.ledger.absorb fork with
      | .error e => .error e d
      | .ok l => .ok (some haul) { d with ledger := l }

/-- Attacks the targets of a list one after another with all that is required, and marks those for
which a force was found. -/
def attackEach (b : Board) (branches : Context → TerritoryId → List Branch)
    (accept : Haul → Bool) (targets : List TerritoryId) : Drafting (List Order) :=
  collect (fun target => do
    let c := (← get).context
    match ← attempt b target (c.requiredStrength b target) (branches c target) accept with
    | none => return []
    | some haul =>
      markAttacked target
      return haul.orders) targets

end Drafting

end Conquest
