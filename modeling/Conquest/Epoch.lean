/-!
# Epochs

A turn has two move segments: the combat move, then the non-combat move.
-/

namespace Conquest

/-- A move segment of a turn. -/
inductive Epoch where
  | combat
  | nonCombat
deriving DecidableEq, Repr, Inhabited

/-- The name of an epoch in messages and reports. -/
def Epoch.name : Epoch → String
  | .combat => "Combat"
  | .nonCombat => "NonCombat"

end Conquest
