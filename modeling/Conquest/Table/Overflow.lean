import Conquest.Table.Play

/-!
# Overflow

The sums that a command makes the table take. Each of them becomes a word, so it wraps around where
the words end. A game is in range if this happens with no command that is taken; what is refused
leaves no trace.
-/

namespace Conquest.Table

/-- The sums that a command takes, before they are cut down to words. -/
def sums (h : Table) : Command → List Nat
  | .move _ o =>
    match o.action with
    | .load transport => [cargoCost h.board o.pieces, cargoCost h.board (h.board.cargoOf transport)]
    | .move | .unload => []
  | .purchase p bought =>
    bought.cost (fun k => (h.board.kind k).cost) ::
      bought.nonzero.map fun e => (h.pendingOf p).count e.1 + e.2
  | .endTurn p =>
    [h.board.production p, h.board.budget p + h.board.income p, h.board.round + 1]
  | .placement .. | .beginEpoch .. => []

/-- A command is taken, and one of its sums wraps around. -/
def overflows (h : Table) (c : Command) : Bool :=
  (h.answer c).isOk && !decide (AreWords (h.sums c))

/-- What is taken without overflow has words for sums. -/
theorem areWords_of_not_overflows {h h' : Table} {c : Command} (htaken : h.answer c = .ok h')
    (hfits : h.overflows c = false) : AreWords (h.sums c) := by
  simpa [overflows, htaken, Except.isOk, Except.toBool] using hfits

/-- Whether no sum of a game wraps around. -/
def isInRange (h : Table) : List Command → Bool
  | [] => true
  | c :: rest => !h.overflows c && (h.obey c).isInRange rest

theorem isInRange_cons {h : Table} {c : Command} {rest : List Command} :
    h.isInRange (c :: rest) = true ↔
      h.overflows c = false ∧ (h.obey c).isInRange rest = true := by
  simp [isInRange]

end Conquest.Table
