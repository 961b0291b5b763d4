/-!
# Random words

A small generator of 64-bit words. Its state is four words, its seed a single one; the same seed
gives the same words.
-/

namespace Conquest

/-- The state of a generator. -/
structure Generator where
  a : UInt64
  b : UInt64
  c : UInt64
  d : UInt64
deriving DecidableEq, Repr, Inhabited

/-- The bits of a word moved to the left by `n` places, around the end. -/
def rotateLeft64 (x : UInt64) (n : UInt64) : UInt64 := (x <<< n) ||| (x >>> (64 - n))

/-- The bits of a word moved to the right by `n` places, around the end. -/
def rotateRight32 (x : UInt32) (n : UInt32) : UInt32 := (x >>> n) ||| (x <<< (32 - n))

/-- The words that a seed is stretched to: a linear congruence whose high bits are mixed into 32
bits. -/
def seedWords : Nat → UInt64 → List UInt32
  | 0, _ => []
  | n + 1, s =>
    let s := s * 6364136223846793005 + 11634580027462260723
    let mixed := (((s >>> 18) ^^^ s) >>> 27).toUInt32
    rotateRight32 mixed (s >>> 59).toUInt32 :: seedWords n s

/-- Two halves as a word, the low one first. -/
def joinHalves (low high : UInt32) : UInt64 := low.toUInt64 ||| (high.toUInt64 <<< 32)

namespace Generator

/-- The generator of a seed. -/
def ofSeed (seed : UInt64) : Generator :=
  match seedWords 8 seed with
  | [p, q, r, s, t, u, v, w] =>
    ⟨joinHalves p q, joinHalves r s, joinHalves t u, joinHalves v w⟩
  | _ => default

/-- The next word. -/
def next (g : Generator) : UInt64 × Generator :=
  let word := rotateLeft64 (g.a + g.d) 23 + g.a
  let c := g.c ^^^ g.a
  let d := g.d ^^^ g.b
  (word, ⟨g.a ^^^ d, g.b ^^^ c, c ^^^ (g.b <<< 17), rotateLeft64 d 45⟩)

/-- The high half of the next word. -/
def nextHalf (g : Generator) : UInt32 × Generator :=
  let (word, g) := g.next
  ((word >>> 32).toUInt32, g)

end Generator

end Conquest
