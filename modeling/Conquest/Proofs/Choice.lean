import Mathlib.Order.Compare
import Mathlib.Order.Lattice
import Mathlib.Order.Nat
import Conquest.Cargo
import Conquest.Proofs.Sums
import Conquest.Ranking
import Conquest.Recruit.Transports

/-!
# Choosing keeps to what is offered

Every choice of the planner is made from a list: the first least element, a group of equal key, a
pool in order of preference, the pieces drawn from it, the cargo that fits a hold. The statements
here say that a choice is an element, a sublist or a rearrangement of the list it is made from.

* `sortBy_perm`, `mem_sortBy`: sorting rearranges.
* `pairwise_sortBy`, `sortBy_eq_of_perm`: elements that are compared by a key come in the order of
  their keys, and where no two share a key there is one such order only.
* `mem_of_firstLeast?`, `mem_of_lastGreatest?`: an extreme element is an element.
* `lastGreatest?_le`, `firstLeast?_ne_gt`: nothing is greater than the greatest element, and the
  least one is not greater than anything.
* `eraseDupsBy_append`, `filter_eraseDupsBy`: what dropping duplicates does to joined and to
  filtered lists.
* `mem_groupByKey`, `groupByKey_disjoint`: groups are sublists, and two of them share nothing.
* `bestFirst_perm`: ranking rearranges.
* `preferenceOrder_perm`, `draw_subperm`, `escortsNeeded_sublist`, `fillHold_sublist`: what is
  recruited comes out of the pool, each piece once.
-/

namespace Conquest

variable {α : Type}

/-! ## Order -/

theorem mem_sortBy {cmp : α → α → Ordering} {xs : List α} {x : α} :
    x ∈ sortBy cmp xs ↔ x ∈ xs :=
  (sortBy_perm cmp xs).mem_iff

section Sorted

variable {β : Type} [LinearOrder β] {cmp : α → α → Ordering} {key : α → β}

/-- In a list with the greatest key first an element moves behind all that have greater keys. -/
theorem pairwise_insertLast {x : α} {ys : List α}
    (hcmp : ∀ y ∈ ys, cmp x y = compare (key x) (key y))
    (hys : ys.Pairwise fun a b => key b ≤ key a) :
    (insertLast cmp x ys).Pairwise fun a b => key b ≤ key a := by
  induction ys with
  | nil => exact List.pairwise_singleton _ _
  | cons y ys ih =>
    rcases List.forall_mem_cons.1 hcmp with ⟨hfirst, hrest⟩
    rcases List.pairwise_cons.1 hys with ⟨hbelow, hsorted⟩
    have hlt : (cmp x y).isLT = true ↔ key x < key y := by
      rw [hfirst, Ordering.isLT_iff_eq_lt, compare_lt_iff_lt]
    unfold insertLast
    split
    · rename_i hbefore
      refine List.pairwise_cons.2 ⟨fun z hz => ?_, ih hrest hsorted⟩
      rcases List.mem_cons.1 ((insertLast_perm cmp x ys).mem_iff.1 hz) with rfl | hz
      · exact le_of_lt (hlt.1 hbefore)
      · exact hbelow z hz
    · rename_i hbehind
      have hge : key y ≤ key x := not_lt.1 fun h => hbehind (hlt.2 h)
      refine List.pairwise_cons.2 ⟨fun z hz => ?_, hys⟩
      rcases List.mem_cons.1 hz with rfl | hz
      · exact hge
      · exact le_trans (hbelow z hz) hge

theorem pairwise_foldl_insertLast {xs sorted : List α}
    (hcmp : ∀ x ∈ sorted ++ xs, ∀ y ∈ sorted ++ xs, cmp x y = compare (key x) (key y))
    (hsorted : sorted.Pairwise fun a b => key b ≤ key a) :
    (xs.foldl (fun sorted x => insertLast cmp x sorted) sorted).Pairwise
      fun a b => key b ≤ key a := by
  induction xs generalizing sorted with
  | nil => exact hsorted
  | cons x xs ih =>
    -- the element that is inserted is one of those that are compared
    have hsub : insertLast cmp x sorted ++ xs ⊆ sorted ++ x :: xs := by
      have hperm := (insertLast_perm cmp x sorted).append_right xs
      exact (hperm.trans List.perm_middle.symm).subset
    rw [List.foldl_cons]
    apply ih
    · exact fun y hy z hz => hcmp y (hsub hy) z (hsub hz)
    · apply pairwise_insertLast _ hsorted
      intro y hy
      exact hcmp x (by simp) y (by simp [hy])

/-- Where the elements are compared by a key, the sorted list has ascending keys. -/
theorem pairwise_sortBy {xs : List α}
    (hcmp : ∀ x ∈ xs, ∀ y ∈ xs, cmp x y = compare (key x) (key y)) :
    (sortBy cmp xs).Pairwise fun a b => key a ≤ key b :=
  List.pairwise_reverse.2 (pairwise_foldl_insertLast hcmp .nil)

/-- Where no two elements share a key, the order in which they are offered does not matter. -/
theorem sortBy_eq_of_perm {xs ys : List α}
    (hcmp : ∀ x ∈ xs, ∀ y ∈ xs, cmp x y = compare (key x) (key y))
    (hkey : ∀ x ∈ xs, ∀ y ∈ xs, key x = key y → x = y) (h : ys.Perm xs) :
    sortBy cmp ys = sortBy cmp xs := by
  have hperm : (sortBy cmp ys).Perm (sortBy cmp xs) :=
    (sortBy_perm cmp ys).trans (h.trans (sortBy_perm cmp xs).symm)
  have hsorted : (sortBy cmp ys).Pairwise fun a b => key a ≤ key b :=
    pairwise_sortBy fun x hx y hy => hcmp x (h.mem_iff.1 hx) y (h.mem_iff.1 hy)
  refine List.Perm.eq_of_pairwise ?_ hsorted (pairwise_sortBy hcmp) hperm
  intro x y hx hy hxy hyx
  exact hkey x (h.mem_iff.1 (mem_sortBy.1 hx)) y (mem_sortBy.1 hy) (le_antisymm hxy hyx)

end Sorted

/-- Going through a list and keeping the better of two ends with an element. -/
theorem foldl_select_mem (better : α → α → Bool) (x : α) (xs : List α) :
    xs.foldl (fun best y => if better y best then y else best) x ∈ x :: xs := by
  induction xs generalizing x with
  | nil => exact List.mem_cons_self
  | cons y ys ih =>
    have h := ih (if better y x then y else x)
    rw [List.foldl_cons]
    -- the best so far is one of the two that were compared
    rcases List.mem_cons.1 h with h | h
    · rw [h]
      by_cases hb : better y x
      · simp [hb]
      · simp [hb]
    · exact List.mem_cons_of_mem _ (List.mem_cons_of_mem _ h)

theorem mem_of_firstLeast? {cmp : α → α → Ordering} {xs : List α} {x : α}
    (h : firstLeast? cmp xs = some x) : x ∈ xs := by
  cases xs with
  | nil => cases h
  | cons y ys =>
    cases h
    exact foldl_select_mem (fun a b => (cmp a b).isLT) y ys

theorem mem_of_lastGreatest? {cmp : α → α → Ordering} {xs : List α} {x : α}
    (h : lastGreatest? cmp xs = some x) : x ∈ xs := by
  cases xs with
  | nil => cases h
  | cons y ys =>
    cases h
    exact foldl_select_mem (fun a b => (cmp a b).isGE) y ys

/-- A measure that the comparison of the elements respects is at its greatest in what is kept. -/
theorem foldl_select_le {β : Type} [Preorder β] {better : α → α → Bool} {size : α → β} {x : α}
    {xs : List α}
    (hbetter : ∀ y ∈ x :: xs, ∀ z ∈ x :: xs, better y z = true → size z ≤ size y)
    (hworse : ∀ y ∈ x :: xs, ∀ z ∈ x :: xs, better y z = false → size y ≤ size z) :
    ∀ y ∈ x :: xs,
      size y ≤ size (xs.foldl (fun best y => if better y best then y else best) x) := by
  induction xs generalizing x with
  | nil => simp
  | cons z zs ih =>
    intro y hy
    rw [List.foldl_cons]
    have hx : x ∈ x :: z :: zs := List.mem_cons_self
    have hz : z ∈ x :: z :: zs := List.mem_cons_of_mem _ List.mem_cons_self
    -- the better of the first two goes on against the rest
    have hsub : (if better z x then z else x) :: zs ⊆ x :: z :: zs := by
      refine List.cons_subset.2 ⟨?_, fun w hw => by simp [hw]⟩
      split
      · exact hz
      · exact hx
    have hkept := ih (fun u hu v hv => hbetter u (hsub hu) v (hsub hv))
      (fun u hu v hv => hworse u (hsub hu) v (hsub hv))
    have hfirst := hkept _ List.mem_cons_self
    rw [List.mem_cons, List.mem_cons] at hy
    rcases hy with rfl | rfl | hy
    · refine le_trans ?_ hfirst
      split
      · rename_i hb
        exact hbetter z hz y hx hb
      · exact le_refl _
    · refine le_trans ?_ hfirst
      split
      · exact le_refl _
      · rename_i hb
        exact hworse y hz x hx (Bool.eq_false_iff.2 hb)
    · exact hkept y (List.mem_cons_of_mem _ hy)

theorem lastGreatest?_le {cmp : α → α → Ordering} {size : α → Nat}
    (hge : ∀ y x, (cmp y x).isGE = true → size x ≤ size y)
    (hlt : ∀ y x, (cmp y x).isGE = false → size y ≤ size x) {xs : List α} {x : α}
    (h : lastGreatest? cmp xs = some x) : ∀ y ∈ xs, size y ≤ size x := by
  cases xs with
  | nil => cases h
  | cons z zs =>
    cases h
    exact @foldl_select_le α Nat _ (fun y best => (cmp y best).isGE) size z zs
      (fun y _ x _ => hge y x) (fun y _ x _ => hlt y x)

/-- Where the elements are compared by a key, the first least element is not greater than any. -/
theorem firstLeast?_ne_gt {β : Type} [LinearOrder β] {cmp : α → α → Ordering} {key : α → β}
    {xs : List α} (hcmp : ∀ x ∈ xs, ∀ y ∈ xs, cmp x y = compare (key x) (key y)) {x : α}
    (h : firstLeast? cmp xs = some x) : ∀ y ∈ xs, cmp x y ≠ .gt := by
  have hx := mem_of_firstLeast? h
  intro y hy
  rw [hcmp x hx y hy, compare_le_iff_le]
  revert y
  cases xs with
  | nil => cases h
  | cons z zs =>
    cases h
    -- the least is the greatest in the order turned around
    refine @foldl_select_le α βᵒᵈ _ (fun y best => (cmp y best).isLT)
      (fun y => OrderDual.toDual (key y)) z zs ?_ ?_
    · intro y hy w hw hlt
      rw [hcmp y hy w hw, Ordering.isLT_iff_eq_lt, compare_lt_iff_lt] at hlt
      exact le_of_lt hlt
    · intro y hy w hw hlt
      rw [hcmp y hy w hw, Bool.eq_false_iff, ne_eq, Ordering.isLT_iff_eq_lt,
        compare_lt_iff_lt, not_lt] at hlt
      exact hlt

theorem exists_firstLeast? {cmp : α → α → Ordering} {xs : List α} {x : α} (hx : x ∈ xs) :
    ∃ y, firstLeast? cmp xs = some y := by
  cases xs with
  | nil => cases hx
  | cons z zs => exact ⟨_, rfl⟩

theorem exists_lastGreatest? {cmp : α → α → Ordering} {xs : List α} {x : α} (hx : x ∈ xs) :
    ∃ y, lastGreatest? cmp xs = some y := by
  cases xs with
  | nil => cases hx
  | cons z zs => exact ⟨_, rfl⟩

/-! ## Groups -/

/-- An induction for what goes on with a part of the tail only: a list without duplicates is made
by keeping the head and filtering the tail. -/
theorem filter_induction {motive : List α → Prop} (keep : α → α → Bool) (nil : motive [])
    (cons : ∀ x xs, motive (xs.filter (keep x)) → motive (x :: xs)) (xs : List α) :
    motive xs := by
  generalize hn : xs.length = n
  induction n using Nat.strongRecOn generalizing xs with
  | ind n ih =>
    cases xs with
    | nil => exact nil
    | cons x xs =>
      have hlen : (xs.filter (keep x)).length < n := by
        have hle := List.length_filter_le (keep x) xs
        rw [List.length_cons] at hn
        omega
      exact cons x xs (ih _ hlen _ rfl)

/-- Dropping duplicates keeps the order and adds nothing. -/
theorem eraseDupsBy_sublist (r : α → α → Bool) (xs : List α) :
    (xs.eraseDupsBy r).Sublist xs := by
  induction xs using filter_induction (fun x b => decide (r b x = false)) with
  | nil => simp
  | cons x xs ih =>
    rw [List.eraseDupsBy_cons]
    exact (ih.trans List.filter_sublist).cons_cons x

theorem nodup_eraseDups [BEq α] [LawfulBEq α] (xs : List α) : xs.eraseDups.Nodup := by
  induction xs using filter_induction (fun x b : α => !b == x) with
  | nil => simp
  | cons x xs ih =>
    rw [List.eraseDups_cons, List.nodup_cons]
    exact ⟨by simp, ih⟩

/-- Of the elements with one key the first is kept. -/
theorem exists_mem_eraseDupsBy {key : α → Nat} {R : α → α → Prop} {xs : List α}
    (hxs : xs.Pairwise R) {x : α} (hx : x ∈ xs) :
    ∃ y ∈ xs.eraseDupsBy (fun a b => key a == key b), key y = key x ∧ (y = x ∨ R y x) := by
  induction xs using filter_induction (fun x b => decide ((key b == key x) = false)) with
  | nil => cases hx
  | cons z zs ih =>
    rw [List.eraseDupsBy_cons]
    rw [List.pairwise_cons] at hxs
    by_cases hkey : key x = key z
    · -- the head has the key, so it is the one that is kept
      refine ⟨z, List.mem_cons_self, hkey.symm, ?_⟩
      rcases List.mem_cons.1 hx with rfl | hx
      · exact .inl rfl
      · exact .inr (hxs.1 x hx)
    · have hmem : x ∈ zs.filter fun b => (key b == key z) = false := by
        rcases List.mem_cons.1 hx with rfl | hx
        · exact absurd rfl hkey
        · simp [hx, hkey]
      rcases ih (hxs.2.filter _) hmem with ⟨y, hy, hrest⟩
      exact ⟨y, List.mem_cons_of_mem _ hy, hrest⟩

/-- Keeping one element of each key keeps each key once. -/
theorem map_eraseDupsBy (key : α → Nat) (xs : List α) :
    (xs.eraseDupsBy fun a b => key a == key b).map key = (xs.map key).eraseDups := by
  induction xs using filter_induction (fun x b => decide ((key b == key x) = false)) with
  | nil => rfl
  | cons z zs ih =>
    have hfilter : (zs.filter fun b => decide ((key b == key z) = false)) =
        zs.filter ((fun k => !k == key z) ∘ key) := by
      apply List.filter_congr
      intro b _
      cases hb : key b == key z with
      | false => simp [hb]
      | true => simp [hb]
    rw [List.eraseDupsBy_cons, List.map_cons, List.map_cons, List.eraseDups_cons, ih,
      List.filter_map, hfilter]

/-- Of two lists that are joined, the second one loses what the first one has. -/
theorem eraseDupsBy_append (key : α → Nat) (xs ys : List α) :
    (xs ++ ys).eraseDupsBy (fun a b => key a == key b) =
      xs.eraseDupsBy (fun a b => key a == key b) ++
        (ys.filter fun y => !(xs.map key).contains (key y)).eraseDupsBy
          fun a b => key a == key b := by
  induction xs using filter_induction (fun x b => decide ((key b == key x) = false))
    generalizing ys with
  | nil => simp
  | cons x xs ih =>
    -- the head takes its duplicates out of both lists
    rw [List.cons_append, List.eraseDupsBy_cons, List.eraseDupsBy_cons, List.filter_append, ih,
      List.filter_filter, List.cons_append]
    congr 3
    apply List.filter_congr
    intro y _
    by_cases hy : key y = key x
    · simp [hy]
    · have hkept : (∃ a, (a ∈ xs ∧ ¬key a = key x) ∧ key a = key y) ↔
          ∃ a, a ∈ xs ∧ key a = key y := by
        constructor
        · rintro ⟨a, ⟨ha, -⟩, hkey⟩
          exact ⟨a, ha, hkey⟩
        · rintro ⟨a, ha, hkey⟩
          exact ⟨a, ⟨ha, fun hx => hy (hkey.symm.trans hx)⟩, hkey⟩
      simp [hy, hkept]

/-- A test of the key may be made before or after duplicates are dropped. -/
theorem filter_eraseDupsBy (key : α → Nat) (test : Nat → Bool) (xs : List α) :
    (xs.filter fun a => test (key a)).eraseDupsBy (fun a b => key a == key b) =
      (xs.eraseDupsBy fun a b => key a == key b).filter fun a => test (key a) := by
  induction xs using filter_induction (fun x b => decide ((key b == key x) = false)) with
  | nil => rfl
  | cons x xs ih =>
    rw [List.eraseDupsBy_cons]
    by_cases hx : test (key x) = true
    · rw [List.filter_cons, if_pos hx, List.filter_cons, if_pos hx, List.eraseDupsBy_cons, ← ih,
        List.filter_filter, List.filter_filter]
      congr 3
      funext y
      exact Bool.and_comm _ _
    · -- whatever has the key of the head fails the test as well
      have hrest : (xs.filter fun a => test (key a)) =
          (xs.filter fun b => decide ((key b == key x) = false)).filter fun a => test (key a) := by
        rw [List.filter_filter]
        apply List.filter_congr
        intro y _
        by_cases hy : key y = key x
        · simp [hy, hx]
        · simp [hy]
      rw [List.filter_cons, if_neg hx, List.filter_cons, if_neg hx, hrest, ih]

/-- What one of the lists holds once and the others not at all. -/
theorem count_flatMap_eq {f : Nat → List Nat} {u t : Nat}
    (h : ∀ x, (f x).count u = if x = t then 1 else 0) (xs : List Nat) :
    (xs.flatMap f).count u = xs.count t := by
  induction xs with
  | nil => rfl
  | cons x rest ih =>
    rw [List.flatMap_cons, List.count_append, h, ih, List.count_cons, Nat.add_comm]
    by_cases hx : x = t
    · simp [hx]
    · simp [hx]

/-- What a partial function finds, seen through a key that it keeps. -/
theorem map_filterMap_eq {α β γ : Type} {f : α → Option β} {g : β → γ} {h : α → γ}
    (hkey : ∀ x y, f x = some y → g y = h x) (xs : List α) :
    (xs.filterMap f).map g = (xs.filter fun x => (f x).isSome).map h := by
  induction xs with
  | nil => rfl
  | cons x rest ih =>
    cases hx : f x with
    | none => simpa [hx] using ih
    | some y => simpa [hx, hkey x y hx] using ih

/-- A group is all that has its key, and there is one for every key that occurs. -/
theorem mem_groupByKey {key : α → Nat} {xs : List α} {g : Nat × List α} :
    g ∈ groupByKey key xs ↔ g.1 ∈ xs.map key ∧ g.2 = xs.filter fun x => key x == g.1 := by
  unfold groupByKey
  simp only [List.mem_map, List.mem_eraseDups, mem_sortBy]
  constructor
  · rintro ⟨k, hk, rfl⟩
    exact ⟨hk, rfl⟩
  · rintro ⟨hk, hg⟩
    exact ⟨g.1, hk, by rw [← hg]⟩

theorem nodup_keys_groupByKey (key : α → Nat) (xs : List α) :
    ((groupByKey key xs).map (·.1)).Nodup := by
  unfold groupByKey
  rw [List.map_map]
  exact (List.map_id _).symm ▸ nodup_eraseDups _

theorem groupByKey_sublist {key : α → Nat} {xs : List α} {g : Nat × List α}
    (h : g ∈ groupByKey key xs) : g.2.Sublist xs := by
  rcases List.mem_map.1 h with ⟨k, -, rfl⟩
  exact List.filter_sublist

theorem groupByKey_disjoint (key : α → Nat) (xs : List α) :
    (groupByKey key xs).Pairwise fun g g' => g.2.Disjoint g'.2 := by
  unfold groupByKey
  rw [List.pairwise_map]
  refine (nodup_eraseDups _).imp fun {k k'} hne => ?_
  -- an element of both groups would have two keys
  intro x hx hx'
  have hk : key x = k := by simpa using (List.mem_filter.1 hx).2
  have hk' : key x = k' := by simpa using (List.mem_filter.1 hx').2
  exact hne (hk.symm.trans hk')

/-! ## Pools -/

theorem interleave_perm (xs ys : List α) : (interleave xs ys).Perm (xs ++ ys) := by
  induction xs generalizing ys with
  | nil => exact .refl _
  | cons x xs ih =>
    cases ys with
    | nil => simp [interleave]
    | cons y ys =>
      have hstep : (interleave xs ys).Perm (xs ++ ys) := ih ys
      have hmid : (y :: (xs ++ ys)).Perm (xs ++ y :: ys) := List.perm_middle.symm
      exact ((hstep.cons y).trans hmid).cons x

namespace Context

theorem bestFirst_perm (c : Context) (b : Board) (candidates : List TerritoryId)
    (purpose : Purpose) : (c.bestFirst b candidates purpose).Perm candidates := by
  unfold bestFirst rank
  have hsort := (sortBy_perm Ranked.order (candidates.map (c.scored b purpose))).map
    (·.territory)
  rw [List.map_map] at hsort
  exact hsort.trans (.of_eq (List.map_id _))

theorem preferenceOrder_perm (c : Context) (attacking : Bool) (pool : List Asset) :
    (c.preferenceOrder attacking pool).Perm pool := by
  unfold preferenceOrder
  have hsort := sortBy_perm (c.strongerFirst attacking) pool
  cases attacking with
  | false => simpa using hsort
  | true =>
    simp only [if_true, List.partition_eq_filter_filter]
    set ordered := sortBy (c.strongerFirst true) pool
    -- the artillery, then those that it supports in turn with it, then all others
    have hrest := List.filter_append_perm (·.kind.artillerySupportable)
      (ordered.filter (not ∘ (·.kind.isArtillery)))
    have hall := List.filter_append_perm (·.kind.isArtillery) ordered
    refine List.Perm.trans ?_ hsort
    refine List.Perm.trans ?_ hall
    refine ((interleave_perm _ _).append_right _).trans ?_
    rw [List.append_assoc]
    exact hrest.append_left _

theorem escortsNeeded_sublist (c : Context) (threat : Float32) (fleet ships : List Asset) :
    (c.escortsNeeded threat fleet ships).Sublist ships := by
  induction ships generalizing fleet with
  | nil => exact .slnil
  | cons ship rest ih =>
    unfold escortsNeeded
    split
    · exact List.nil_sublist _
    · exact (ih _).cons_cons ship

end Context

/-- What is drawn is part of the pool, each element no more often than the pool has it. -/
theorem Requirement.draw_subperm (r : Requirement) (count : Nat) (force pool : List Asset) :
    (r.draw count force pool).Subperm pool := by
  induction count generalizing force pool with
  | zero => exact List.nil_subperm
  | succ count ih =>
    simp only [draw]
    split
    · cases hget : pool[r.choice force pool]? with
      | none => exact List.nil_subperm
      | some a =>
        rcases List.getElem?_eq_some_iff.1 hget with ⟨hlt, rfl⟩
        -- the piece that is drawn leaves the pool before the next draw
        have hperm := List.getElem_cons_eraseIdx_perm hlt
        exact ((List.subperm_cons _).2 (ih _ _)).trans hperm.subperm
    · exact List.nil_subperm

theorem nodup_map_of_subperm {β : Type} {f : α → β} {xs ys : List α} (h : xs.Subperm ys)
    (hys : (ys.map f).Nodup) : (xs.map f).Nodup := by
  rcases h with ⟨zs, hperm, hsub⟩
  exact (hperm.map f).nodup_iff.1 (hys.sublist (hsub.map f))

theorem fillHold_sublist (room : Nat) (pool : List Asset) :
    (fillHold room pool).1.Sublist pool := by
  induction pool generalizing room with
  | nil => exact .slnil
  | cons a rest ih =>
    unfold fillHold
    split
    · exact (ih _).cons_cons a
    · exact (ih _).cons a

/-- What is taken aboard and the room left make up the room there was. -/
theorem fillHold_room (room : Nat) (pool : List Asset) :
    ((fillHold room pool).1.map (·.kind.transportCost)).sum + (fillHold room pool).2 = room := by
  induction pool generalizing room with
  | nil => simp [fillHold]
  | cons a rest ih =>
    unfold fillHold
    split
    · rename_i hfits
      have h := ih (room - a.kind.transportCost)
      simp only [List.map_cons, List.sum_cons]
      omega
    · exact ih room

end Conquest
