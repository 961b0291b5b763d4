import Mathlib.Algebra.Order.BigOperators.Group.List
import Mathlib.Algebra.Order.Group.Nat
import Mathlib.Algebra.Ring.Nat
import Mathlib.Data.List.Perm.Subperm
import Conquest.Word

/-!
# Sums of counts

What the program adds up is reasoned about as a sum of a list. Two facts are needed beyond the
library's: a sum over the groups of a list, and a sum over fewer things.
-/

namespace Conquest

theorem sumOf_eq (counts : List Nat) : sumOf counts = counts.sum := rfl

/-- What the groups of some keys have of a sort is what the list has of it under these keys. -/
theorem sum_countP {α : Type} (P : Nat × α → Bool) (l : List (Nat × α)) {ts : List Nat}
    (hts : ts.Nodup) :
    (ts.map fun t => (l.filter (·.1 == t)).countP P).sum =
      l.countP fun e => P e && ts.contains e.1 := by
  induction ts with
  | nil => simp
  | cons t rest ih =>
    obtain ⟨hnot, hrest⟩ := List.nodup_cons.1 hts
    rw [List.map_cons, List.sum_cons, ih hrest, List.countP_filter]
    simp only [List.contains_cons]
    -- no element has both the first key and a later one
    clear ih hts hrest
    induction l with
    | nil => rfl
    | cons e l ih =>
      rw [List.countP_cons, List.countP_cons, List.countP_cons, ← ih]
      by_cases het : e.1 = t
      · have hout : rest.contains t = false := by simpa using hnot
        simp only [het, hout, beq_self_eq_true, Bool.and_false, Bool.true_or, Bool.false_eq_true,
          if_false]
        omega
      · have hbeq : (e.1 == t) = false := by simpa using het
        simp only [hbeq, Bool.and_false, Bool.false_or, Bool.false_eq_true, if_false]
        omega

/-- What is greater than 0 in a sum and stands in another list adds up to no more there. -/
theorem sum_map_le_of_subset {α : Type} {f : α → Nat} {xs ys : List α} (hxs : xs.Nodup)
    (hsub : ∀ x ∈ xs, 0 < f x → x ∈ ys) : (xs.map f).sum ≤ (ys.map f).sum := by
  have hsame : ∀ xs : List α,
      (xs.map f).sum = ((xs.filter fun x => decide (0 < f x)).map f).sum := by
    intro xs
    induction xs with
    | nil => rfl
    | cons x rest ih =>
      rw [List.map_cons, List.sum_cons, ih, List.filter_cons]
      by_cases hx : 0 < f x
      · simp [hx]
      · simp [Nat.eq_zero_of_not_pos hx]
  have hsubset : xs.filter (fun x => decide (0 < f x)) ⊆ ys := by
    intro x hx
    obtain ⟨hmem, hpos⟩ := List.mem_filter.1 hx
    exact hsub x hmem (of_decide_eq_true hpos)
  obtain ⟨zs, hperm, hzs⟩ := List.subperm_of_subset (hxs.filter _) hsubset
  rw [hsame, ← List.Perm.sum_nat (hperm.map f)]
  exact List.Sublist.sum_le_sum (hzs.map f) fun _ _ => Nat.zero_le _

end Conquest
