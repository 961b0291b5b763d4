import Conquest.Recruit.Basic

/-!
# Order of preference

In an attack artillery and the pieces it supports alternate, everything else follows; within each
group the stronger piece comes first. A defense lists the stronger piece first throughout.
-/

namespace Conquest

/-- Takes from two lists in turn, and then what is left of the longer one. -/
def interleave {α : Type} : List α → List α → List α
  | [], ys => ys
  | xs, [] => xs
  | x :: xs, y :: ys => x :: y :: interleave xs ys

namespace Context

/-- What a piece is worth alone, at sea if it is a ship. -/
def soloStrength (c : Context) (attacking : Bool) (a : Asset) : Float32 :=
  c.strength attacking a.kind.isSea [a]

/-- The stronger piece first, then the lower identifier. -/
def strongerFirst (c : Context) (attacking : Bool) (x y : Asset) : Ordering :=
  (Binary32.order (c.soloStrength attacking y) (c.soloStrength attacking x)).then
    (compare x.id y.id)

/-- The order in which a pool is offered. -/
def preferenceOrder (c : Context) (attacking : Bool) (pool : List Asset) : List Asset :=
  let ordered := sortBy (c.strongerFirst attacking) pool
  if attacking then
    let (artillery, rest) := ordered.partition (·.kind.isArtillery)
    let (supported, others) := rest.partition (·.kind.artillerySupportable)
    interleave artillery supported ++ others
  else ordered

end Context

end Conquest
