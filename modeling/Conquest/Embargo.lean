import Conquest.Host

/-!
# Hosts that refuse

A host under an embargo refuses every command of some sorts, takes all others, does not hear of
epochs and does not count rounds. Planning has to get through a turn on such a host too.
-/

namespace Conquest

/-- The sorts of command that a host may refuse as a whole. -/
inductive CommandSort where
  | move
  | purchase
  | placement
deriving DecidableEq, Repr

/-- A host that refuses commands of some sorts. -/
structure Embargo (η : Type) where
  host : η
  refused : List CommandSort

namespace Embargo

variable {η : Type} [Host η]

/-- The answer to a command of some sort. -/
def pass (h : Embargo η) (sort : CommandSort) (answer : Except Rejection η) :
    Except Rejection (Embargo η) :=
  if h.refused.contains sort then .error .emptyOrder
  else answer.map fun host => { h with host }

instance : Host (Embargo η) where
  board h := Host.board h.host
  placementCapacity h := Host.placementCapacity h.host
  round _ := 0
  beginEpoch h _ _ := h
  submitMove h p o := h.pass .move (Host.submitMove h.host p o)
  submitPurchase h p bought := h.pass .purchase (Host.submitPurchase h.host p bought)
  submitPlacement h p placement := h.pass .placement (Host.submitPlacement h.host p placement)

end Embargo

end Conquest
