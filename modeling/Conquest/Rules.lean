/-!
# Rules

Switches that change how strength and movement are judged.
-/

namespace Conquest

/-- The rule variants in force. -/
structure Rules where
  transportsCanDie : Bool := true
  submarinesNeedDestroyer : Bool := false
  airAttacksAtSea : Bool := true
  blitzThroughEmptyEnemy : Bool := true
deriving DecidableEq, Repr, Inhabited

end Conquest
