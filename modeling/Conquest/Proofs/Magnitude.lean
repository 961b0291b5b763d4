import Mathlib.Data.Int.Order.Basic
import Mathlib.Data.Prod.Lex
import Mathlib.Order.Compare
import Conquest.Binary32

/-!
# The order of numbers

Single-precision numbers that are numbers at all have places in a linear order: first the negative
infinity, then the negative numbers, zero with either sign, the positive numbers and the positive
infinity; within one sign the exponent decides and then the mantissa. All comparisons of numbers are
comparisons of their places.

* `Binary32.place`: the place of a number.
* `lt_iff_place_lt`, `le_iff_place_le`, `beq_iff_place_eq`, `order_eq_compare_place`: how numbers
  are compared.
* `isNaN_eq_false_of_lt`, `isNaN_eq_false_of_le`: what can be compared is a number.
-/

namespace Conquest

/-! ## Lexicographic comparison -/

/-- Pairs are compared by the first entry and then by the second one. -/
theorem compare_toLex {α β : Type} [LinearOrder α] [LinearOrder β] (a c : α) (b d : β) :
    compare (toLex (a, b)) (toLex (c, d)) = (compare a c).then (compare b d) := by
  rw [Prod.Lex.compare_def]
  rfl

theorem compare_neg (a b : Int) : compare (-a) (-b) = (compare a b).swap := by
  rcases lt_trichotomy a b with h | rfl | h
  · rw [compare_lt_iff_lt.2 h, compare_gt_iff_gt.2 (Int.neg_lt_neg h)]
    rfl
  · rw [compare_eq_iff_eq.2 rfl, compare_eq_iff_eq.2 rfl]
    rfl
  · rw [compare_gt_iff_gt.2 h, compare_lt_iff_lt.2 (Int.neg_lt_neg h)]
    rfl

/-- What keeps the strict order keeps all comparisons. -/
theorem compare_of_strictMono {α β : Type} [LinearOrder α] [LinearOrder β] {f : α → β}
    (hf : StrictMono f) (a b : α) : compare (f a) (f b) = compare a b := by
  rw [← cmp_eq_compare, hf.cmp_map_eq, cmp_eq_compare]

theorem compare_natCast (a b : Nat) : compare (a : Int) b = compare a b :=
  compare_of_strictMono (fun _ _ => Int.ofNat_lt.2) a b

namespace Binary32

open Float.Model (UnpackedFloat)

/-! ## Places -/

/-- On which side of zero a number that is taken apart lies; the infinities lie beyond all others. -/
def side : UnpackedFloat → Int
  | .infinity .negative => -2
  | .finite .negative _ _ _ => -1
  | .zero _ => 0
  | .finite .positive _ _ _ => 1
  | .infinity .positive => 2
  | .notANumber => 0

/-- The place on its side: the exponent and then the mantissa, turned around below zero. -/
def rank : UnpackedFloat → Int ×ₗ Int
  | .finite .negative m e _ => toLex (-e, -(m : Int))
  | .finite .positive m e _ => toLex (e, (m : Int))
  | _ => toLex (0, 0)

/-- The place of a number. What is not a number has no place of its own. -/
def place (a : Float32) : Int ×ₗ Int ×ₗ Int :=
  toLex (side a.toModel.unpack, rank a.toModel.unpack)

/-- Numbers are compared by their sides and then by their ranks. -/
theorem compare_eq_compare_side {x y : UnpackedFloat} (hx : x.isNaN = false)
    (hy : y.isNaN = false) :
    x.compare y = some ((compare (side x) (side y)).then (compare (rank x) (rank y))) := by
  -- the rank decides only between two finite numbers of one sign
  cases x with
  | notANumber => cases hx
  | infinity s =>
    cases y with
    | notANumber => cases hy
    | infinity s' => cases s <;> cases s' <;> rfl
    | zero s' => cases s <;> rfl
    | finite s' m' e' _ => cases s <;> cases s' <;> rfl
  | zero s =>
    cases y with
    | notANumber => cases hy
    | infinity s' => cases s' <;> rfl
    | zero s' => rfl
    | finite s' m' e' _ => cases s' <;> rfl
  | finite s m e _ =>
    cases y with
    | notANumber => cases hy
    | infinity s' => cases s <;> cases s' <;> rfl
    | zero s' => cases s <;> rfl
    | finite s' m' e' _ =>
      cases s with
      | negative =>
        cases s' with
        | negative =>
          show _ = some (compare (toLex (-e, -(m : Int))) (toLex (-e', -(m' : Int))))
          rw [compare_toLex, compare_neg, compare_neg, compare_natCast, ← Ordering.swap_then]
          rfl
        | positive => rfl
      | positive =>
        cases s' with
        | negative => rfl
        | positive =>
          show _ = some (compare (toLex (e, (m : Int))) (toLex (e', (m' : Int))))
          rw [compare_toLex, compare_natCast]
          rfl

variable {a b : Float32}

/-- Numbers are compared by their places. -/
theorem compare_unpack (ha : a.isNaN = false) (hb : b.isNaN = false) :
    a.toModel.unpack.compare b.toModel.unpack = some (compare (place a) (place b)) := by
  rw [compare_eq_compare_side ha hb, place, place, compare_toLex]

/-- Numbers are ordered as their places are. -/
theorem lt_iff_place_lt (ha : a.isNaN = false) (hb : b.isNaN = false) :
    a < b ↔ place a < place b := by
  have hlt : a < b ↔ (a.toModel.unpack.compare b.toModel.unpack == some .lt) = true := by
    show decide (_ = true) = true ↔ _
    rw [decide_eq_true_iff]
    rfl
  rw [hlt, compare_unpack ha hb, beq_iff_eq, Option.some.injEq, compare_lt_iff_lt]

/-- Numbers are equal where their places are; the two zeros share one. -/
theorem beq_iff_place_eq (ha : a.isNaN = false) (hb : b.isNaN = false) :
    (a == b) = true ↔ place a = place b := by
  have hbeq : (a == b) = (a.toModel.unpack.compare b.toModel.unpack == some .eq) := rfl
  rw [hbeq, compare_unpack ha hb, beq_iff_eq, Option.some.injEq, compare_eq_iff_eq]

/-- The order of two numbers is the order of their places. -/
theorem order_eq_compare_place (ha : a.isNaN = false) (hb : b.isNaN = false) :
    order a b = compare (place a) (place b) := by
  unfold order
  simp only [lt_iff_place_lt ha hb, lt_iff_place_lt hb ha]
  rcases lt_trichotomy (place a) (place b) with h | h | h
  · rw [if_pos h, compare_lt_iff_lt.2 h]
  · rw [h, if_neg (lt_irrefl _), if_neg (lt_irrefl _), compare_eq_iff_eq.2 rfl]
  · rw [if_neg (lt_asymm h), if_pos h, compare_gt_iff_gt.2 h]

/-! ## Comparable numbers -/

/-- Of two numbers that can be compared neither is a non-number. -/
theorem isNaN_eq_false_of_compare {x y : UnpackedFloat} {o : Ordering}
    (h : x.compare y = some o) : x.isNaN = false ∧ y.isNaN = false := by
  cases x with
  | notANumber => cases h
  | infinity s =>
    cases y with
    | notANumber => cases h
    | infinity s' => exact ⟨rfl, rfl⟩
    | zero s' => exact ⟨rfl, rfl⟩
    | finite s' m' e' _ => exact ⟨rfl, rfl⟩
  | zero s =>
    cases y with
    | notANumber => cases h
    | infinity s' => exact ⟨rfl, rfl⟩
    | zero s' => exact ⟨rfl, rfl⟩
    | finite s' m' e' _ => exact ⟨rfl, rfl⟩
  | finite s m e _ =>
    cases y with
    | notANumber => cases h
    | infinity s' => exact ⟨rfl, rfl⟩
    | zero s' => exact ⟨rfl, rfl⟩
    | finite s' m' e' _ => exact ⟨rfl, rfl⟩

theorem lt_iff_eq_lt : a < b ↔ a.toModel.unpack.compare b.toModel.unpack = some .lt := by
  show decide (_ = true) = true ↔ _
  rw [decide_eq_true_iff]
  exact beq_iff_eq

theorem le_iff_isLE :
    a ≤ b ↔ ((a.toModel.unpack.compare b.toModel.unpack).any (·.isLE)) = true := by
  show decide (_ = true) = true ↔ _
  rw [decide_eq_true_iff]
  rfl

theorem isNaN_eq_false_of_lt (h : a < b) : a.isNaN = false ∧ b.isNaN = false :=
  isNaN_eq_false_of_compare (lt_iff_eq_lt.1 h)

theorem isNaN_eq_false_of_le (h : a ≤ b) : a.isNaN = false ∧ b.isNaN = false := by
  rw [le_iff_isLE, Option.any_eq_true] at h
  rcases h with ⟨o, ho, -⟩
  exact isNaN_eq_false_of_compare ho

theorem le_iff_place_le (ha : a.isNaN = false) (hb : b.isNaN = false) :
    a ≤ b ↔ place a ≤ place b := by
  rw [le_iff_isLE, compare_unpack ha hb, Option.any_some, ← compare_le_iff_le]
  cases compare (place a) (place b) <;> simp

theorem le_reflexive (h : a.isNaN = false) : a ≤ a := (le_iff_place_le h h).2 (le_refl _)

theorem le_transitive {c : Float32} (hab : a ≤ b) (hbc : b ≤ c) : a ≤ c := by
  rcases isNaN_eq_false_of_le hab with ⟨ha, hb⟩
  rcases isNaN_eq_false_of_le hbc with ⟨-, hc⟩
  rw [le_iff_place_le ha hb] at hab
  rw [le_iff_place_le hb hc] at hbc
  rw [le_iff_place_le ha hc]
  exact le_trans hab hbc

/-- Any two numbers can be compared. -/
theorem le_of_not_lt (ha : a.isNaN = false) (hb : b.isNaN = false) (h : ¬ a < b) : b ≤ a := by
  rw [lt_iff_place_lt ha hb] at h
  rw [le_iff_place_le hb ha]
  exact le_of_not_gt h

/-- What is at most another is not greater. -/
theorem not_lt_of_le (h : a ≤ b) : ¬ b < a := by
  rcases isNaN_eq_false_of_le h with ⟨ha, hb⟩
  rw [lt_iff_place_lt hb ha]
  exact not_lt_of_ge ((le_iff_place_le ha hb).1 h)

theorem not_le_of_lt (h : a < b) : ¬ b ≤ a := fun hle => not_lt_of_le hle h

theorem not_lt_of_lt (h : a < b) : ¬ b < a := by
  rcases isNaN_eq_false_of_lt h with ⟨ha, hb⟩
  rw [lt_iff_place_lt hb ha]
  exact lt_asymm ((lt_iff_place_lt ha hb).1 h)

/-- A greater number is ordered after. -/
theorem order_eq_gt (h : b < a) : order a b = .gt := by
  unfold order
  rw [if_neg (not_lt_of_lt h), if_pos h]

end Binary32

end Conquest
