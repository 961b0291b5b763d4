import Conquest.Recruit.Transports

/-!
# Recruiting branch by branch

One call recruits from one branch; a chain runs through several branches, each of which covers what
the ones before left open.
-/

namespace Conquest.Context

/-- The sources of a branch other than transports. -/
def sources (c : Context) (b : Board) (l : Ledger) (target : Target) : Branch → List Source
  | .blitz => c.landSources b l target true
  | .land => c.landSources b l target false
  | .air => c.airSources b l target
  | .transports => []
  | .ships => c.shipSources b l target
  | .bombard => c.bombardSources b l target

/-- Whether the force of a branch is valued in a battle at sea. -/
def valuedAtSea (b : Board) (target : Target) : Branch → Bool
  | .ships | .bombard => true
  | _ => b.atlas.isWater target.objective

/-- Recruits from one branch until the target is met. A target that is met recruits nothing. -/
def recruit (c : Context) (b : Board) (target : Target) (branch : Branch) : Planning Haul := do
  if target.isMet then return {}
  else if branch = .transports then c.recruitTransports b target
  else
    let l ← get
    (c.requirement target (isCombat l) (valuedAtSea b target branch)).gather
      (c.sources b l target branch) [] []

/-- Recruits from several branches in order, each covering what is still missing. -/
def recruitChain (c : Context) (b : Board) : Target → List Branch → Haul → Planning Haul
  | _, [], haul => return haul
  | target, branch :: rest, haul =>
    if target.isMet then return haul
    else do
      let got ← c.recruit b target branch
      recruitChain c b { target with needed := target.needed - got.achieved } rest
        (haul.merge got)

end Conquest.Context
