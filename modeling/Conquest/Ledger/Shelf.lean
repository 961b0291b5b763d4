import Conquest.Ledger

/-!
# Keeping ledgers

A planner asks a ledger to write down what it takes; a request that the ledger refuses leaves it as
it was. Forks are branched off and absorbed, also into other ledgers than the one they were taken
from, so ledgers that belong together stand on one shelf, by number.
-/

namespace Conquest

namespace Ledger

/-- What a ledger is asked to write down. -/
inductive Request where
  | commit (piece : PieceId)
  | commitAll (pieces : List PieceId)
  | embark (transport : PieceId) (cargo : List PieceId)
  | hold (piece : PieceId)
deriving DecidableEq, Repr

/-- The ledger after a request, unless it is refused. -/
def answer? (l : Ledger) : Request → Option Ledger
  | .commit u => (l.commit u).toOption
  | .commitAll us => (l.commitAll us).toOption
  | .embark transport cargo => (l.embark transport cargo).toOption
  | .hold u => l.hold? u

/-- The ledger after a request that may be refused. -/
def obey (l : Ledger) (r : Request) : Ledger := (l.answer? r).getD l

/-- The ledger after a list of requests. -/
def run (l : Ledger) (requests : List Request) : Ledger := requests.foldl obey l

/-- The ledger after it was to absorb a fork. -/
def takeIn (l fork : Ledger) : Ledger := (l.absorb fork).toOption.getD l

end Ledger

/-- Ledgers by number. -/
def Shelf : Type := Nat → Option Ledger

namespace Shelf

/-- What is done with the ledgers of a shelf. -/
inductive Deed where
  | new (number : Nat) (epoch : Epoch)
  | request (number : Nat) (request : Ledger.Request)
  /-- Branches a fork off the first ledger and gives it the second number. -/
  | fork (number copy : Nat)
  /-- Absorbs the second ledger into the first; the second is used up, also by a failure. -/
  | absorb (number fork : Nat)
  | advance (number : Nat) (epoch : Epoch)
deriving DecidableEq, Repr

/-- A shelf without ledgers. -/
def empty : Shelf := fun _ => none

/-- Puts a ledger in a place, or clears the place. -/
def put (s : Shelf) (number : Nat) (l : Option Ledger) : Shelf :=
  fun n => if n = number then l else s n

/-- The shelf after a deed. A deed that names a ledger that is not there does nothing, and no ledger
absorbs itself. -/
def obey (s : Shelf) : Deed → Shelf
  | .new n e => s.put n (some (.new e))
  | .request n r => s.put n ((s n).map (·.obey r))
  | .fork n copy =>
    match s n with
    | some l => s.put copy (some l.fork)
    | none => s
  | .absorb n fork =>
    match s n, s fork with
    | some l, some f => if n = fork then s else (s.put fork none).put n (some (l.takeIn f))
    | _, _ => s
  | .advance n e => s.put n ((s n).map (·.advance e))

/-- The shelf after a list of deeds. -/
def run (s : Shelf) (deeds : List Deed) : Shelf := deeds.foldl obey s

end Shelf

end Conquest
