import Conquest.Host
import Conquest.Phase.Plan

/-!
# Running an epoch

A campaign plans on a host: the phases of an epoch run in their fixed order, and the orders of one
phase are submitted before the next phase plans, so that later phases see the board as the host left
it. A refused order is passed over. What was planned, on which board, and what the host answered is
recorded; reports only count the records.
-/

namespace Conquest

/-- An order with the board it was submitted on and the refusal, if it was refused. -/
structure Dispatch where
  order : Order
  board : Board
  refusal : Option Rejection

/-- A phase with the board it was planned on and what became of its orders. -/
structure PhaseRecord where
  phase : Phase
  board : Board
  dispatches : List Dispatch

/-- The phases of an epoch, in order. -/
structure EpochRecord where
  epoch : Epoch
  phases : List PhaseRecord

/-- Whether the host took an order. -/
def Dispatch.isAccepted (d : Dispatch) : Bool := d.refusal.isNone

namespace PhaseRecord

/-- The orders of the phase. -/
def orders (r : PhaseRecord) : List Order := r.dispatches.map (·.order)

/-- Number of orders that the host took. -/
def submitted (r : PhaseRecord) : Nat := r.dispatches.countP (·.isAccepted)

/-- Number of orders that the host refused. -/
def rejected (r : PhaseRecord) : Nat := r.dispatches.countP (!·.isAccepted)

end PhaseRecord

namespace EpochRecord

/-- The orders of all phases. -/
def orders (r : EpochRecord) : List Order := r.phases.flatMap (·.orders)

/-- Number of orders that the host took. -/
def submitted (r : EpochRecord) : Nat := sumOf (r.phases.map (·.submitted))

/-- Number of orders that the host refused. -/
def rejected (r : EpochRecord) : Nat := sumOf (r.phases.map (·.rejected))

end EpochRecord

/-- A player's turn in progress: the host, and the desk at which the phases are planned. -/
structure Campaign (η : Type) where
  host : η
  desk : Desk

/-- A turn in the making: when planning fails, host and desk stay as they were at that moment. -/
abbrev Running (η : Type) := EStateM PlanError (Campaign η)

namespace Campaign

variable {η : Type} [Host η]

/-- Submits orders one after another. -/
def submit (p : PlayerId) : List Order → η → List Dispatch × η
  | [], host => ([], host)
  | o :: rest, host =>
    match Host.submitMove host p o with
    | .ok next =>
      let (others, last) := submit p rest next
      (⟨o, Host.board host, none⟩ :: others, last)
    | .error refusal =>
      let (others, last) := submit p rest host
      (⟨o, Host.board host, some refusal⟩ :: others, last)

/-- Plans a phase on the board of the host and submits its orders. -/
def runPhase (phase : Phase) : Running η PhaseRecord := fun s =>
  let board := Host.board s.host
  match phase.plan board s.desk with
  | .error e desk => .error e { s with desk }
  | .ok orders desk =>
    let (dispatches, host) := submit desk.context.player orders s.host
    .ok ⟨phase, board, dispatches⟩ ⟨host, desk⟩

/-- Starts an epoch: nothing is taken, the context is derived anew, the host is told. -/
def start (s : Campaign η) (e : Epoch) : Campaign η where
  host := Host.beginEpoch s.host s.desk.context.player e
  desk := ⟨s.desk.context.refresh (Host.board s.host), s.desk.ledger.advance e⟩

/-- Runs the phases of an epoch. -/
def runEpoch (e : Epoch) : Running η EpochRecord := do
  modify (start · e)
  return ⟨e, ← (Phase.sequence e).mapM runPhase⟩

/-- Runs the combat move and the non-combat move; then nothing is taken any more. -/
def runTurn : Running η (EpochRecord × EpochRecord) := do
  let combat ← runEpoch .combat
  let nonCombat ← runEpoch .nonCombat
  modify fun s => { s with desk := { s.desk with ledger := s.desk.ledger.advance .combat } }
  return (combat, nonCombat)

end Campaign

end Conquest
