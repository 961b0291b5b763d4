import Conquest.Proofs.Choice
import Conquest.Proofs.Magnitude

/-!
# The greatest measure first

Territories, pieces and offers are put in order by a measure, the greatest first, and something else
tells apart those that measure the same. Where every measure is a number this is a linear order: the
sorted list is in order, and if all elements can be told apart, it does not matter in which order
they are offered.

* `Binary32.descending`: by what elements are compared; `order_eq_compare_descending`.
* `Binary32.descending_lt_iff`, `Binary32.descending_le_iff`: what comes first, in terms of the
  measure.
* `pairwise_sortBy_descending`, `sortBy_descending_of_perm`: the sorted list.
-/

namespace Conquest

namespace Binary32

section Descending

variable {α β : Type} [LinearOrder β] (measure : α → Float32) (tie : α → β)

/-- By what elements are compared when the greater measure comes first and `tie` decides between
those that measure the same. -/
def descending (x : α) : (Int ×ₗ Int ×ₗ Int)ᵒᵈ ×ₗ β :=
  toLex (OrderDual.toDual (place (measure x)), tie x)

variable {x y : α}

/-- Comparing measures the other way round and then ties is a linear order on numbers. -/
theorem order_eq_compare_descending (hx : (measure x).isNaN = false)
    (hy : (measure y).isNaN = false) :
    (order (measure y) (measure x)).then (compare (tie x) (tie y)) =
      compare (descending measure tie x) (descending measure tie y) := by
  rw [order_eq_compare_place hy hx, descending, descending, compare_toLex]
  rfl

/-- Sorted descending, the greater measure is first, and among equals the lesser tie. -/
theorem descending_lt_iff (hx : (measure x).isNaN = false) (hy : (measure y).isNaN = false) :
    descending measure tie x < descending measure tie y ↔
      measure y < measure x ∨ (measure y == measure x) = true ∧ tie x < tie y := by
  rw [descending, descending, Prod.Lex.toLex_lt_toLex, OrderDual.toDual_lt_toDual,
    OrderDual.toDual_inj, lt_iff_place_lt hy hx, beq_iff_place_eq hy hx, eq_comm]

theorem descending_le_iff (hx : (measure x).isNaN = false) (hy : (measure y).isNaN = false) :
    descending measure tie x ≤ descending measure tie y ↔
      measure y < measure x ∨ (measure y == measure x) = true ∧ tie x ≤ tie y := by
  rw [descending, descending, Prod.Lex.toLex_le_toLex, OrderDual.toDual_lt_toDual,
    OrderDual.toDual_inj, lt_iff_place_lt hy hx, beq_iff_place_eq hy hx, eq_comm]

end Descending

end Binary32

section Sorted

variable {α β : Type} [LinearOrder β] {measure : α → Float32} {tie : α → β}
  {cmp : α → α → Ordering} {xs ys : List α}

theorem eq_compare_descending
    (hcmp : ∀ x y, cmp x y =
      (Binary32.order (measure y) (measure x)).then (compare (tie x) (tie y)))
    (hnumbers : ∀ x ∈ xs, (measure x).isNaN = false) :
    ∀ x ∈ xs, ∀ y ∈ xs, cmp x y =
      compare (Binary32.descending measure tie x) (Binary32.descending measure tie y) := by
  intro x hx y hy
  rw [hcmp, Binary32.order_eq_compare_descending measure tie (hnumbers x hx) (hnumbers y hy)]

/-- Where every measure is a number, the sorted list has the greatest first. -/
theorem pairwise_sortBy_descending
    (hcmp : ∀ x y, cmp x y =
      (Binary32.order (measure y) (measure x)).then (compare (tie x) (tie y)))
    (hnumbers : ∀ x ∈ xs, (measure x).isNaN = false) :
    (sortBy cmp xs).Pairwise fun x y =>
      measure y < measure x ∨ (measure y == measure x) = true ∧ tie x ≤ tie y := by
  -- on numbers the comparison is a linear order, so the list is sorted by it
  refine (pairwise_sortBy (eq_compare_descending hcmp hnumbers)).imp_of_mem ?_
  intro x y hx hy hle
  rw [mem_sortBy] at hx hy
  exact (Binary32.descending_le_iff measure tie (hnumbers x hx) (hnumbers y hy)).1 hle

/-- Where every measure is a number and no two elements tie, it does not matter in which order the
elements are offered. -/
theorem sortBy_descending_of_perm
    (hcmp : ∀ x y, cmp x y =
      (Binary32.order (measure y) (measure x)).then (compare (tie x) (tie y)))
    (hnumbers : ∀ x ∈ xs, (measure x).isNaN = false)
    (htie : ∀ x ∈ xs, ∀ y ∈ xs, tie x = tie y → x = y) (h : ys.Perm xs) :
    sortBy cmp ys = sortBy cmp xs := by
  refine sortBy_eq_of_perm (eq_compare_descending hcmp hnumbers) ?_ h
  intro x hx y hy heq
  exact htie x hx y hy (congrArg (fun k => (ofLex k).2) heq)

end Sorted

end Conquest
