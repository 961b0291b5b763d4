import Conquest.Phase.NonCombat

/-!
# Planning a phase

What a phase does depends on the epoch of the ledger; a phase that does not belong to the epoch
does nothing.
-/

namespace Conquest

/-- Plans a phase in the epoch of the ledger and gives its orders in the order of submission. -/
def Phase.plan (phase : Phase) (b : Board) : Drafting (List Order) := do
  match (← get).ledger.epoch, phase with
  | .combat, .seaCombat => Drafting.seaCombat b
  | .combat, .transportLoad => Drafting.plan (·.loadForInvasion b)
  | .combat, .defendCapital => Drafting.plan (·.holdCapital b)
  | .combat, .amphibiousAssault => Drafting.amphibiousAssault b
  | .combat, .landCombat => Drafting.landCombat b
  | .combat, .strategicBombing => Drafting.plan (·.strategicBombing b)
  | .nonCombat, .transportLoad => Drafting.plan (·.loadForNextTurn b)
  | .nonCombat, .defendCapital => Drafting.plan (·.reinforceCapital b)
  | .nonCombat, .navalReposition => Drafting.plan (·.navalReposition b)
  | .nonCombat, .amphibiousReinforce => Drafting.plan (·.amphibiousReinforce b)
  | .nonCombat, .airReposition => Drafting.plan (·.airReposition b)
  | .nonCombat, .consolidation => Drafting.plan (·.consolidation b)
  | .nonCombat, .blitzBlock => Drafting.plan (·.blitzBlock b)
  | .nonCombat, .airLanding => Drafting.plan (·.airLanding b)
  | .nonCombat, .transportUnload => Drafting.plan (·.transportUnload b)
  | _, _ => return []

end Conquest
