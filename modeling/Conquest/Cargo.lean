import Conquest.Piece.Basic

/-!
# Filling a hold

Cargo is taken in the order of a list; what does not fit any more is passed over.
-/

namespace Conquest

/-- The pieces of a list that fit into some room one after another, and the room left. -/
def fillHold : Nat → List Asset → List Asset × Nat
  | room, [] => ([], room)
  | room, a :: rest =>
    if a.kind.transportCost ≤ room then
      let (taken, left) := fillHold (room - a.kind.transportCost) rest
      (a :: taken, left)
    else fillHold room rest

end Conquest
