import Conquest.Engine
import Conquest.Json.Writer

/-!
# Reports

What happened in an epoch or a turn, as a JSON value. Fields stand in a fixed order.
-/

namespace Conquest

open Json

/-- The report of a phase. -/
def PhaseRecord.report (r : PhaseRecord) : Value :=
  .record [("phase", .text r.phase.name), ("submitted", .ofNat r.submitted),
    ("rejected", .ofNat r.rejected)]

/-- The report of an epoch. -/
def EpochRecord.report (r : EpochRecord) : Value :=
  .record [("epoch", .text r.epoch.name), ("submitted", .ofNat r.submitted),
    ("rejected", .ofNat r.rejected), ("phases", .array (r.phases.map (·.report)))]

/-- The report of a turn. -/
def TurnReport.report (r : TurnReport) : Value :=
  .record [("player", .text r.player), ("round", .ofNat r.round),
    ("strategy", .text r.strategy.name),
    ("purchase", .record (r.purchase.map fun (name, n) => (name, .ofNat n))),
    ("purchase_accepted", .bool r.purchaseAccepted), ("combat", r.combat.report),
    ("noncombat", r.nonCombat.report), ("placed", .ofNat r.placed),
    ("placements_rejected", .ofNat r.placementsRejected)]

end Conquest
