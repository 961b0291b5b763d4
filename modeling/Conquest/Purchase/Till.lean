import Mathlib.Algebra.Group.Nat.Defs
import Conquest.Purchase.Allocation

/-!
# Allocation in machine words

The allocation of a budget counts money in words of 64 bits and pieces in words of 32 bits. An
operation whose result does not fit its word gives nothing, so an allocation that gives a purchase
has met no overflow on its way. The fill stops as soon as no slot or no money is left, and of an
offer that could be bought more often than a word of 32 bits can say it takes as many as the word
can say.
-/

namespace Conquest

/-! ## Words -/

namespace Word

variable {w : Nat}

/-- The sum of two words, if it is one. -/
def plus? (a b : BitVec w) : Option (BitVec w) :=
  if a.toNat + b.toNat < 2 ^ w then some (a + b) else none

/-- The product of two words, if it is one. -/
def times? (a b : BitVec w) : Option (BitVec w) :=
  if a.toNat * b.toNat < 2 ^ w then some (a * b) else none

/-- The difference of two words, unless it is negative. -/
def minus? (a b : BitVec w) : Option (BitVec w) := if b ≤ a then some (a - b) else none

/-- The quotient of two words, unless the divisor is 0. -/
def over? (a b : BitVec w) : Option (BitVec w) := if b = 0 then none else some (a / b)

/-- A word in fewer bits; what does not fit becomes the greatest word. -/
def saturate (v : Nat) (a : BitVec w) : BitVec v :=
  if a.toNat < 2 ^ v then a.setWidth v else BitVec.allOnes v

end Word

/-- Counts more pieces of a kind, whose count must stay a word of 32 bits. -/
def Tally.addWord? (c : Tally) (k : KindId) (n : BitVec 32) : Option Tally :=
  if c.count k + n.toNat < 2 ^ 32 then some (c.add k n.toNat) else none

/-! ## The till -/

/-- What was spent so far, how many pieces were bought for it, and which. -/
structure Till where
  spent : BitVec 64
  count : BitVec 32
  bought : Tally

namespace Till

/-- The till before anything is bought. -/
def empty : Till := ⟨0, 0, .empty⟩

/-- The price of an offer, which has no more than 32 bits, as a word of 64 bits. -/
def price (o : Offer) : BitVec 64 := (BitVec.ofNat 32 o.cost).setWidth 64

/-- How many pieces of an offer the rest of the budget and of the slots allow. -/
def most? (budget : BitVec 64) (slots : BitVec 32) (t : Till) (o : Offer) :
    Option (BitVec 32) := do
  let fits ← Word.over? (← Word.minus? budget t.spent) (price o)
  let room ← Word.minus? slots t.count
  let most := Word.saturate 32 fits
  return if most ≤ room then most else room

/-- Enters pieces of an offer. -/
def enter? (t : Till) (o : Offer) (n : BitVec 32) : Option Till := do
  return {
    spent := ← Word.plus? t.spent (← Word.times? (price o) (n.setWidth 64))
    count := ← Word.plus? t.count n
    bought := ← t.bought.addWord? o.kind n }

/-- Buys of an offer as many pieces as can be bought, if any. -/
def take? (budget : BitVec 64) (slots : BitVec 32) (t : Till) (o : Offer) : Option Till := do
  let n ← t.most? budget slots o
  if n = 0 then return t else t.enter? o n

/-- Buys of each offer in turn until the slots or the budget are used up. -/
def fill? (budget : BitVec 64) (slots : BitVec 32) : List Offer → Till → Option Till
  | [], t => some t
  | o :: rest, t =>
    if slots ≤ t.count ∨ budget ≤ t.spent then some t
    else (t.take? budget slots o).bind (fill? budget slots rest)

end Till

/-- The purchase of a strategy for a signed budget of 64 bits and slots of 32 bits. -/
def allocateWords? (s : Strategy) (budget : Int64) (offers : List Offer) (slots : UInt32) :
    Option (Except PlanError Tally) :=
  if budget < 0 then some (.error (.negativeBudget budget.toInt))
  else
    (Till.fill? budget.toBitVec slots.toBitVec (worthwhile s offers) .empty).map
      fun t => .ok t.bought

end Conquest
