/-!
# Shortest decimals

A binary number `m · 2 ^ q` is written with the fewest decimal digits that read back as the same
number: the coarsest grid of decimals that has a point in the interval of reals rounding to the
number decides the digits, and of two such points the nearer is taken, or the greater if they are
equally near. Everything is exact arithmetic on natural numbers.
-/

namespace Conquest.Decimal

/-- The decimal `digits · 10 ^ exponent`. -/
structure Grid where
  digits : Nat
  exponent : Int
deriving DecidableEq, Repr

/-- The interval of reals that round to a number, in units of `2 ^ unit`. -/
structure Interval where
  low : Nat
  value : Nat
  high : Nat
  unit : Int
  /-- Whether the ends of the interval round to the number too. -/
  closed : Bool
deriving DecidableEq, Repr

/-- The interval of `m · 2 ^ q`. Below a power of two the neighbour is only half as far away, unless
the number is the least of the normal ones. -/
def Interval.of (m : Nat) (q : Int) (narrowBelow : Bool) : Interval where
  low := if narrowBelow then 4 * m - 1 else 4 * m - 2
  value := 4 * m
  high := 4 * m + 2
  unit := q - 2
  closed := m % 2 == 0

/-- The point of the interval on the grid `10 ^ k` that is nearest to the number, if there is one;
of two equally near points the greater. The two factors bring grid points and interval to a common
unit. -/
def Interval.pointOn? (i : Interval) (k : Int) : Option Grid :=
  let gridUnit := Nat.pow 10 k.toNat * Nat.pow 2 (-i.unit).toNat
  let binaryUnit := Nat.pow 10 (-k).toNat * Nat.pow 2 i.unit.toNat
  let value := i.value * binaryUnit
  let inside (d : Nat) : Bool :=
    let x := d * gridUnit
    decide (0 < d) &&
      (if i.closed then decide (i.low * binaryUnit ≤ x) && decide (x ≤ i.high * binaryUnit)
       else decide (i.low * binaryUnit < x) && decide (x < i.high * binaryUnit))
  let below := value / gridUnit
  let above := below + 1
  let nearer := value - below * gridUnit < above * gridUnit - value
  if inside below && (nearer || !inside above) then some ⟨below, k⟩
  else if inside above then some ⟨above, k⟩
  else none

/-- The shortest decimal of the interval, searched from the grid `10 ^ top` downward. -/
def Interval.shortest (i : Interval) : Nat → Int → Grid
  | 0, _ => ⟨0, 0⟩
  | grids + 1, top => (i.pointOn? top).getD (i.shortest grids (top - 1))

/-- A decimal in positional notation: no exponent, and no fraction for a whole number. -/
def Grid.text (g : Grid) : String :=
  let digits := (Nat.toDigits 10 g.digits)
  if 0 ≤ g.exponent then
    String.ofList (digits ++ List.replicate g.exponent.toNat '0')
  else
    let places := (-g.exponent).toNat
    let padded := List.replicate (places + 1 - digits.length) '0' ++ digits
    let whole := padded.length - places
    String.ofList (padded.take whole ++ '.' :: padded.drop whole)

/-- A single-precision number as text. -/
def ofBinary32 (x : Float32) : String :=
  let bits := x.toBits.toNat
  let fraction : Nat := bits % Nat.pow 2 23
  let biased : Nat := bits / Nat.pow 2 23 % 256
  let sign := if bits / Nat.pow 2 31 = 1 then "-" else ""
  if biased = 255 then if fraction = 0 then sign ++ "inf" else "NaN"
  else if biased = 0 ∧ fraction = 0 then sign ++ "0"
  else
    let interval :=
      if biased = 0 then Interval.of fraction (-149) false
      else Interval.of (Nat.pow 2 23 + fraction) ((biased : Int) - 150)
        (fraction == 0 && decide (1 < biased))
    sign ++ (interval.shortest 90 40).text

example : ofBinary32 (-12345.678) = "-12345.678" := by decide +kernel

example : ofBinary32 (-2097152.25) = "-2097152.3" := by decide +kernel

example : ofBinary32 (-1e-7) = "-0.0000001" := by decide +kernel

example : ofBinary32 16777216 = "16777216" := by decide +kernel

end Conquest.Decimal
