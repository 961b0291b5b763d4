import Conquest.Generator
import Conquest.Purchase.Strategy

/-!
# The lottery of the program

The program draws with a generator of random words. The high bits of a word make a number below 1,
which is spread over the numbers below the sum of the odds; it falls to the entry whose part of the
sum it lies in.
-/

namespace Conquest.Generator

/-- The sums of a list from the left, the whole list included. -/
def partialSums : Float32 → List Float32 → List Float32
  | _, [] => []
  | s, w :: rest => (s + w) :: partialSums (s + w) rest

theorem length_partialSums (s : Float32) (odds : List Float32) :
    (partialSums s odds).length = odds.length := by
  induction odds generalizing s with
  | nil => rfl
  | cons w rest ih => simp [partialSums, ih]

/-- A number below 1 with 23 binary places, from the high bits of a word. -/
def unitInterval (word : UInt32) : Float32 :=
  (word >>> 9).toFloat32 / 8388608

/-- The next smaller positive number. -/
def below (x : Float32) : Float32 := Float32.ofBits (x.toBits - 1)

/-- The factor that spreads numbers below 1 over the numbers below `total`: the total itself, unless
the greatest of them would be rounded up to it. -/
def spread (total : Float32) : Float32 :=
  if total ≤ total * unitInterval 0xffffffff then below total else total

/-- The position that a number between 0 and the sum of the odds falls to. -/
def pick (odds : List Float32) (x : Float32) : Nat :=
  (partialSums 0 odds).dropLast.countP fun s => decide (s ≤ x)

theorem pick_lt {odds : List Float32} (h : odds ≠ []) (x : Float32) :
    pick odds x < odds.length := by
  have hpos : 0 < odds.length := List.length_pos_iff.2 h
  have hle : pick odds x ≤ (partialSums 0 odds).dropLast.length := List.countP_le_length
  rw [List.length_dropLast, length_partialSums] at hle
  omega

/-- Draws with some odds. -/
def draw (g : Generator) (odds : List Float32) : Draw Generator :=
  let total := Binary32.sum odds
  if odds.any (fun w => !decide (0 ≤ w)) || total == 0 then .refused
  else if !total.isFinite then .stopped
  else
    let (word, rest) := g.nextHalf
    .drawn (pick odds (unitInterval word * spread total)) rest

instance : Lottery Generator where
  ofSeed := ofSeed
  draw := draw

theorem any_negative_eq_false {odds : List Float32} (h : ∀ w ∈ odds, 0 ≤ w) :
    odds.any (fun w => !decide (0 ≤ w)) = false := by
  simpa using h

/-- What is no number below infinity is not 0. -/
theorem beq_zero_eq_false {x : Float32} (h : x.isFinite = false) : (x == 0) = false := by
  have hzero : (0 : Float32).toModel.unpack = .zero .positive := rfl
  change (x.toModel.unpack.compare (0 : Float32).toModel.unpack == some .eq) = false
  change x.toModel.unpack.isFinite = false at h
  rw [hzero]
  cases hx : x.toModel.unpack with
  | notANumber => rfl
  | infinity s => cases s <;> rfl
  | zero s =>
    rw [hx] at h
    cases h
  | finite s m e =>
    rw [hx] at h
    cases h

instance : LawfulLottery Generator where
  refuses g odds hodds hzero := by
    show draw g odds = .refused
    simp [draw, any_negative_eq_false hodds, hzero]
  draws g odds hodds hzero hfinite := by
    -- the sum of no odds is 0
    have hsome : odds ≠ [] := by
      rintro rfl
      cases hzero
    refine ⟨pick odds (unitInterval g.nextHalf.1 * spread (Binary32.sum odds)), g.nextHalf.2, ?_,
      pick_lt hsome _⟩
    show draw g odds = .drawn _ g.nextHalf.2
    simp [draw, any_negative_eq_false hodds, hzero, hfinite]
  stops g odds hodds hinfinite := by
    show draw g odds = .stopped
    simp [draw, any_negative_eq_false hodds, beq_zero_eq_false hinfinite, hinfinite]

end Conquest.Generator
