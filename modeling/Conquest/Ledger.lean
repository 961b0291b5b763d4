import Conquest.Epoch
import Conquest.Identifier

/-!
# The ledger of commitments

The ledger of an epoch records which pieces are taken: assigned to an order or held in place. A
piece is taken at most once per epoch, and taking it again is an error of the planner. Cargo is
taken as it embarks, and the manifest remembers which transport carries it, so that the phase which
sails the transport lands the cargo without naming it.

Tentative plans work on a fork. Absorbing a fork appends what it added since it branched; an
operation that fails leaves the ledger as it was.
-/

namespace Conquest

/-- Why a piece is taken. -/
inductive Commitment where
  /-- Assigned to an order. -/
  | moved
  /-- Kept in place on purpose. -/
  | held
deriving DecidableEq, Repr

/-- The name of a commitment in reports. -/
def Commitment.name : Commitment → String
  | .moved => "Moved"
  | .held => "Held"

/-- A rule of the planner that planning itself has broken. -/
inductive PlanError where
  | doubleCommit (piece : PieceId) (epoch : Epoch)
  | epochMismatch (expected found : Epoch)
  | negativeBudget (budget : Int)
deriving DecidableEq, Repr

/-- The text of a planner error. -/
def PlanError.message : PlanError → String
  | .doubleCommit u e => "unit " ++ pieceLabel u ++ " committed twice in the " ++ e.name ++ " epoch"
  | .epochMismatch expected found =>
    "cannot merge a " ++ found.name ++ " ledger into the " ++ expected.name ++ " epoch"
  | .negativeBudget n => s!"negative purchase budget {n}"

/-- The commitments of one epoch. -/
structure Ledger where
  epoch : Epoch
  /-- Taken pieces with the reason, in the order in which they were taken. -/
  entries : List (PieceId × Commitment)
  /-- Transport and cargo of each embarkation, in order. -/
  manifest : List (PieceId × PieceId)
  /-- Number of entries inherited from the ledger that this one was forked from. -/
  inherited : Nat
deriving DecidableEq, Repr

namespace Ledger

/-- A ledger without commitments. -/
def new (e : Epoch) : Ledger := ⟨e, [], [], 0⟩

instance : Inhabited Ledger := ⟨new .combat⟩

def length (l : Ledger) : Nat := l.entries.length

def isEmpty (l : Ledger) : Bool := l.entries.isEmpty

/-- The taken pieces, in order. -/
def pieces (l : Ledger) : List PieceId := l.entries.map (·.1)

/-- Whether a piece is taken. -/
def isCommitted (l : Ledger) (u : PieceId) : Bool := l.pieces.contains u

/-- The pieces assigned to orders, in order. -/
def moved (l : Ledger) : List PieceId := (l.entries.filter (·.2 == .moved)).map (·.1)

/-- The cargo embarked on a transport, in order. -/
def embarked (l : Ledger) (transport : PieceId) : List PieceId :=
  (l.manifest.filter (·.1 == transport)).map (·.2)

/-- The first piece of a batch that is taken already or listed before. -/
def conflict? (l : Ledger) : List PieceId → List PieceId → Option PieceId
  | _, [] => none
  | batch, u :: rest =>
    if l.isCommitted u || batch.contains u then some u else conflict? l (u :: batch) rest

/-- Appends entries, all of them or none. -/
def record (l : Ledger) (added : List (PieceId × Commitment)) : Except PlanError Ledger :=
  match l.conflict? [] (added.map (·.1)) with
  | some u => .error (.doubleCommit u l.epoch)
  | none => .ok { l with entries := l.entries ++ added }

/-- Assigns pieces to an order, all of them or none. -/
def commitAll (l : Ledger) (pieces : List PieceId) : Except PlanError Ledger :=
  l.record (pieces.map (·, .moved))

/-- Assigns a piece to an order. -/
def commit (l : Ledger) (u : PieceId) : Except PlanError Ledger := l.commitAll [u]

/-- Assigns cargo as loaded onto a transport. The transport itself stays free for the phase that
sails it. -/
def embark (l : Ledger) (transport : PieceId) (cargo : List PieceId) :
    Except PlanError Ledger := do
  let taken ← l.commitAll cargo
  return { taken with manifest := taken.manifest ++ cargo.map (transport, ·) }

/-- Holds a piece in place. There is no ledger that holds a piece taken before. -/
def hold? (l : Ledger) (u : PieceId) : Option Ledger := (l.record [(u, .held)]).toOption

/-- Branches off a tentative ledger. -/
def fork (l : Ledger) : Ledger := { l with inherited := l.length }

/-- Appends what a fork added since it branched. Cargo that is listed for its transport already is
not listed again. -/
def absorb (l fork : Ledger) : Except PlanError Ledger := do
  if fork.epoch ≠ l.epoch then throw (.epochMismatch l.epoch fork.epoch)
  let taken ← l.record (fork.entries.drop fork.inherited)
  return { taken with
    manifest := fork.manifest.foldl
      (fun listed e => if listed.contains e then listed else listed ++ [e]) taken.manifest }

/-- Starts another epoch with nothing taken. -/
def advance (_ : Ledger) (e : Epoch) : Ledger := new e

end Ledger

end Conquest
