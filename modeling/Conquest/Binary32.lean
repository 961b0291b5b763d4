/-!
# Single-precision numbers

How the planner computes with single-precision numbers: two numbers that cannot be compared count as
equal in an order, the larger of a number and a non-number is the number, bounding keeps a
non-number, and sums are taken from left to right, rounded at every step.
-/

namespace Conquest.Binary32

/-- The larger of two numbers, ignoring what is not a number. -/
def larger (a b : Float32) : Float32 :=
  if a.isNaN then b else if b.isNaN then a else if a < b then b else a

/-- The smaller of two numbers, ignoring what is not a number. -/
def smaller (a b : Float32) : Float32 :=
  if a.isNaN then b else if b.isNaN then a else if b < a then b else a

/-- `x` bounded to the range from `low` to `high`. -/
def clamp (x low high : Float32) : Float32 :=
  if x < low then low else if high < x then high else x

/-- The order of two numbers; numbers that cannot be compared are equal in it. -/
def order (a b : Float32) : Ordering :=
  if a < b then .lt else if b < a then .gt else .eq

/-- The sum from left to right. -/
def sum (xs : List Float32) : Float32 := xs.foldl (· + ·) 0

/-- The largest of a list, or 0 if all are below it. -/
def largest (xs : List Float32) : Float32 := xs.foldl larger 0

end Conquest.Binary32
