import Mathlib.Data.Finset.Insert
import Conquest.Ledger.Shelf

/-!
# Logbooks

A logbook is a ledger as it is kept in place. Beside the entries stands an index of the taken
pieces for look-ups, cargo is listed by transport, and pieces are entered one at a time. What an
operation has written stays written when it fails, so a batch is looked through before the first
of its pieces is entered.
-/

namespace Conquest

/-- The commitments of one epoch, with an index. -/
structure Logbook where
  epoch : Epoch
  /-- Taken pieces with the reason, in the order in which they were taken. -/
  entries : List (PieceId × Commitment)
  /-- The taken pieces. -/
  index : Finset PieceId
  /-- The cargo embarked on each transport, in order. -/
  aboard : PieceId → List PieceId
  /-- Number of entries inherited from the logbook that this one was forked from. -/
  inherited : Nat

/-- An operation on a logbook that may fail on the way. -/
abbrev Keeping : Type → Type := EStateM PlanError Logbook

namespace Logbook

/-- A logbook without commitments. -/
def new (e : Epoch) : Logbook := ⟨e, [], ∅, fun _ => [], 0⟩

/-- Whether a piece is taken. -/
def isCommitted (r : Logbook) (u : PieceId) : Bool := decide (u ∈ r.index)

/-- What a fork has taken since it branched off. -/
def gained (r : Logbook) : List (PieceId × Commitment) := r.entries.drop r.inherited

/-- Enters a piece that the index does not have. -/
def enter (u : PieceId) (how : Commitment) : Keeping Unit := do
  let r ← get
  if r.isCommitted u then throw (.doubleCommit u r.epoch)
  set { r with entries := r.entries ++ [(u, how)], index := insert u r.index }

/-- Fails at the first piece that is taken already or listed before. -/
def check (batch : Finset PieceId) : List PieceId → Keeping Unit
  | [] => return
  | u :: rest => do
    let r ← get
    if r.isCommitted u || decide (u ∈ batch) then throw (.doubleCommit u r.epoch)
    check (insert u batch) rest

/-- Enters one piece after the other. -/
def enterEach : List (PieceId × Commitment) → Keeping Unit
  | [] => return
  | e :: rest => do
    enter e.1 e.2
    enterEach rest

/-- Enters a batch that has been looked through. -/
def enterAll (added : List (PieceId × Commitment)) : Keeping Unit := do
  check ∅ (added.map (·.1))
  enterEach added

/-- Assigns a piece to an order. -/
def commit (u : PieceId) : Keeping Unit := enter u .moved

/-- Assigns pieces to an order. -/
def commitAll (us : List PieceId) : Keeping Unit := enterAll (us.map (·, .moved))

/-- Assigns cargo as loaded onto a transport. -/
def embark (transport : PieceId) (cargo : List PieceId) : Keeping Unit := do
  commitAll cargo
  modify fun r =>
    { r with aboard := fun t => if t = transport then r.aboard t ++ cargo else r.aboard t }

/-- Holds a piece in place; whether it was free. -/
def hold (u : PieceId) : Keeping Bool :=
  tryCatch (do enter u .held; return true) fun _ => return false

/-- Branches off a tentative logbook. -/
def fork (r : Logbook) : Logbook := { r with inherited := r.entries.length }

/-- Lists cargo that is not listed already. -/
def enlist (listed news : List PieceId) : List PieceId :=
  news.foldl (fun listed u => if listed.contains u then listed else listed ++ [u]) listed

/-- Appends what a fork added since it branched. Cargo that is listed for its transport already is
not listed again. -/
def absorb (fork : Logbook) : Keeping Unit := do
  let r ← get
  if fork.epoch ≠ r.epoch then throw (.epochMismatch r.epoch fork.epoch)
  enterAll fork.gained
  modify fun r =>
    { r with aboard := fun t => enlist (r.aboard t) (fork.aboard t) }

/-- Starts another epoch with nothing taken. -/
def advance (_ : Logbook) (e : Epoch) : Logbook := new e

/-- Writes down what is asked for; whether it was granted. -/
def perform : Ledger.Request → Keeping Bool
  | .commit u => do commit u; return true
  | .commitAll us => do commitAll us; return true
  | .embark transport cargo => do embark transport cargo; return true
  | .hold u => hold u

/-- The logbook that an operation leaves behind, also by failing. -/
def after {α : Type} (act : Keeping α) (r : Logbook) : Logbook :=
  match act r with
  | .ok _ r' => r'
  | .error _ r' => r'

end Logbook

/-- Logbooks by number. -/
def Logbooks : Type := Nat → Option Logbook

namespace Logbooks

/-- No logbook at all. -/
def empty : Logbooks := fun _ => none

/-- Puts a logbook in a place, or clears the place. -/
def put (s : Logbooks) (number : Nat) (r : Option Logbook) : Logbooks :=
  fun n => if n = number then r else s n

/-- The logbooks after a deed, which is done with them as with the ledgers of a shelf. -/
def obey (s : Logbooks) : Shelf.Deed → Logbooks
  | .new n e => s.put n (some (.new e))
  | .request n q => s.put n ((s n).map (Logbook.after (Logbook.perform q)))
  | .fork n copy =>
    match s n with
    | some r => s.put copy (some r.fork)
    | none => s
  | .absorb n fork =>
    match s n, s fork with
    | some r, some f =>
      if n = fork then s else (s.put fork none).put n (some (Logbook.after (Logbook.absorb f) r))
    | _, _ => s
  | .advance n e => s.put n ((s n).map (·.advance e))

/-- The logbooks after a list of deeds. -/
def run (s : Logbooks) (deeds : List Shelf.Deed) : Logbooks := deeds.foldl obey s

end Logbooks

end Conquest
