/-!
# Choosing by an order

Lists are put in order by a stable sort, and the first least or the last greatest element of a list
is chosen by a comparison. Comparisons are chained with `Ordering.then`. The sort inserts the
elements one after another, each at the back, so the result is fixed for every comparison, also for
one that is no order because a strength has no value.
-/

namespace Conquest

/-- Moves an element that comes last before those greater than it. The list is in reverse: the
greatest element stands first. -/
def insertLast {α : Type} (cmp : α → α → Ordering) (x : α) : List α → List α
  | [] => [x]
  | y :: ys => if (cmp x y).isLT then y :: insertLast cmp x ys else x :: y :: ys

/-- A list in the order of a comparison; equal elements keep their places. -/
def sortBy {α : Type} (cmp : α → α → Ordering) (xs : List α) : List α :=
  (xs.foldl (fun sorted x => insertLast cmp x sorted) []).reverse

/-- The first least element of a list. -/
def firstLeast? {α : Type} (cmp : α → α → Ordering) : List α → Option α
  | [] => none
  | x :: xs => some (xs.foldl (fun best y => if (cmp y best).isLT then y else best) x)

/-- The last greatest element of a list. -/
def lastGreatest? {α : Type} (cmp : α → α → Ordering) : List α → Option α
  | [] => none
  | x :: xs => some (xs.foldl (fun best y => if (cmp y best).isGE then y else best) x)

/-- The elements of a list in groups of one key, ascending by key; within a group the order of the
list is kept. -/
def groupByKey {α : Type} (key : α → Nat) (xs : List α) : List (Nat × List α) :=
  ((sortBy compare (xs.map key)).eraseDups).map fun k => (k, xs.filter fun x => key x == k)

theorem insertLast_perm {α : Type} (cmp : α → α → Ordering) (x : α) (ys : List α) :
    (insertLast cmp x ys).Perm (x :: ys) := by
  induction ys with
  | nil => exact .refl _
  | cons y ys ih =>
    simp only [insertLast]
    split
    · exact (ih.cons y).trans (.swap x y ys)
    · exact .refl _

/-- Sorting neither adds nor drops an element. -/
theorem sortBy_perm {α : Type} (cmp : α → α → Ordering) (xs : List α) :
    (sortBy cmp xs).Perm xs := by
  suffices h : ∀ sorted, (xs.foldl (fun sorted x => insertLast cmp x sorted) sorted).Perm
      (xs ++ sorted) by
    exact (List.reverse_perm _).trans ((h []).trans (by rw [List.append_nil]))
  induction xs with
  | nil => exact fun sorted => .refl _
  | cons x xs ih =>
    intro sorted
    exact (ih _).trans (((insertLast_perm cmp x sorted).append_left xs).trans List.perm_middle)

example : sortBy (fun x y => compare x.1 y.1) [(2, 'a'), (1, 'b'), (2, 'c'), (1, 'd')] =
    [(1, 'b'), (1, 'd'), (2, 'a'), (2, 'c')] := by decide

end Conquest
