import Conquest.Proofs.Sums
import Conquest.Tally

/-!
# Counting with tallies

A tally is known by its counts: each operation is described by what it does to the count of every
kind.

* `Tally.count_add`, `Tally.count_spend`: the counts after one kind has been written.
* `Tally.count_ofKinds`, `Tally.count_toKinds`: from lists of pieces to tallies and back.
* `Tally.count_foldl_spend`: the counts after all of another tally has been spent.
* `Tally.count_merge`: the counts of two tallies together; `Tally.count_foldl_nonzero`: the same
  counted in words.
* `Tally.cost_of_count`: what is counted determines what it costs.
-/

namespace Conquest.Tally

variable {c d : Tally} {k j : KindId} {n : Nat} {l : List (KindId × Nat)}

/-! ## Entries -/

/-- A kind below all entries has no entry. -/
theorem lookup_eq_none_of_lt (h : ∀ e ∈ l, k < e.1) : l.lookup k = none := by
  rw [List.lookup_eq_none_iff]
  intro e he
  have hne : k ≠ e.1 := Nat.ne_of_lt (h e he)
  simpa using hne

/-- In an ascending list a kind is found exactly with the count it is listed with. -/
theorem lookup_eq_some_iff (h : l.Pairwise fun a b => a.1 < b.1) :
    l.lookup k = some n ↔ (k, n) ∈ l := by
  induction l with
  | nil => simp
  | cons e rest ih =>
    obtain ⟨j, m⟩ := e
    obtain ⟨hbelow, hrest⟩ := List.pairwise_cons.1 h
    rw [List.lookup_cons, List.mem_cons, Prod.mk.injEq]
    by_cases hkj : k = j
    · -- the kind does not come again further on
      subst hkj
      have hnot : (k, n) ∉ rest := fun hin => Nat.lt_irrefl k (hbelow _ hin)
      simp only [beq_self_eq_true, Option.some.injEq, true_and, hnot, or_false]
      exact eq_comm
    · have hbeq : (k == j) = false := by simpa using hkj
      simp only [hbeq, ih hrest, hkj, false_and, false_or]

/-- An update changes what is found for its kind alone. -/
theorem lookup_update (h : l.Pairwise fun a b => a.1 < b.1) (f : Option Nat → Nat) (j : KindId) :
    (update k f l).lookup j = if j = k then some (f (l.lookup k)) else l.lookup j := by
  induction l with
  | nil =>
    by_cases hjk : j = k
    · simp [update, hjk]
    · have hbeq : (j == k) = false := by simpa using hjk
      simp [update, List.lookup_cons, hjk, hbeq]
  | cons e rest ih =>
    obtain ⟨i, m⟩ := e
    obtain ⟨hbelow, hrest⟩ := List.pairwise_cons.1 h
    unfold update
    -- the place of the kind is before, behind or at the first entry
    rcases Nat.lt_trichotomy k i with hlt | heq | hgt
    · have hnone : ((i, m) :: rest).lookup k = none := by
        apply lookup_eq_none_of_lt
        intro e he
        rcases List.mem_cons.1 he with rfl | he
        · exact hlt
        · exact Nat.lt_trans hlt (hbelow e he)
      rw [if_pos hlt, List.lookup_cons, hnone]
      by_cases hjk : j = k
      · simp [hjk]
      · have hbeq : (j == k) = false := by simpa using hjk
        simp [hjk, hbeq]
    · subst heq
      rw [if_neg (Nat.lt_irrefl _), if_neg (Nat.lt_irrefl _), List.lookup_cons]
      by_cases hjk : j = k
      · simp [hjk]
      · have hbeq : (j == k) = false := by simpa using hjk
        simp [List.lookup_cons, hjk, hbeq]
    · rw [if_neg (Nat.not_lt_of_gt hgt), if_pos hgt, List.lookup_cons, List.lookup_cons, ih hrest]
      have hki : (k == i) = false := by simpa using Nat.ne_of_gt hgt
      by_cases hji : j = i
      · have hjk : j ≠ k := hji ▸ Nat.ne_of_lt hgt
        simp [hji, hji ▸ hjk]
      · have hbeq : (j == i) = false := by simpa using hji
        simp [List.lookup_cons, hbeq, hki]

theorem count_of_mem {e : KindId × Nat} (he : e ∈ c.entries) : c.count e.1 = e.2 := by
  unfold count
  rw [(lookup_eq_some_iff c.ascending).2 he]
  rfl

/-- What is counted is listed. -/
theorem mem_of_count_pos (h : 0 < c.count k) : (k, c.count k) ∈ c.entries := by
  rw [← lookup_eq_some_iff c.ascending]
  unfold count at h ⊢
  cases hlookup : c.entries.lookup k with
  | none =>
    rw [hlookup] at h
    exact absurd h (Nat.lt_irrefl 0)
  | some m => rfl

/-- Writing one entry twice is writing it once. -/
theorem update_update (f g : Option Nat → Nat) (l : List (KindId × Nat)) :
    update k f (update k g l) = update k (fun e => f (some (g e))) l := by
  induction l with
  | nil => simp [update]
  | cons e rest ih =>
    obtain ⟨j, m⟩ := e
    simp only [update]
    rcases Nat.lt_trichotomy k j with hlt | heq | hgt
    · simp [update, hlt]
    · subst heq
      simp [update]
    · simp [update, hgt, Nat.lt_asymm hgt, ih]

theorem add_add (c : Tally) (k : KindId) (n m : Nat) : (c.add k n).add k m = c.add k (n + m) := by
  apply Tally.ext
  show update k _ (update k _ c.entries) = update k _ c.entries
  rw [update_update]
  simp only [Option.getD_some, Nat.add_assoc]

/-! ## Counts -/

@[simp] theorem count_empty (k : KindId) : empty.count k = 0 := rfl

/-- Adding pieces of a kind changes the count of that kind alone. -/
theorem count_add (c : Tally) (k : KindId) (n : Nat) (j : KindId) :
    (c.add k n).count j = c.count j + if j = k then n else 0 := by
  unfold count add
  rw [lookup_update c.ascending]
  by_cases hjk : j = k
  · subst hjk
    simp
  · simp [hjk]

/-- So does spending them, which stops at 0. -/
theorem count_spend (c : Tally) (k : KindId) (n : Nat) (j : KindId) :
    (c.spend k n).count j = c.count j - if j = k then n else 0 := by
  unfold spend
  split
  · -- the entry is used up
    rename_i hall
    have herased : (c.erase k).count j = if j = k then 0 else c.count j := by
      unfold count erase
      by_cases hjk : j = k
      · have hnone : (c.entries.filter (·.1 != k)).lookup k = none := by
          rw [List.lookup_eq_none_iff]
          intro e he
          have hne := (List.mem_filter.1 he).2
          rw [bne_iff_ne] at hne
          simpa using Ne.symm hne
        simp [hjk, hnone]
      · rw [if_neg hjk]
        have hsame : (c.entries.filter (·.1 != k)).lookup j = c.entries.lookup j := by
          apply Option.ext
          intro m
          rw [lookup_eq_some_iff (c.ascending.filter _), lookup_eq_some_iff c.ascending,
            List.mem_filter]
          simp [hjk]
        rw [hsame]
    rw [herased]
    by_cases hjk : j = k
    · subst hjk
      simp only [if_true]
      omega
    · simp [hjk]
  · -- the entry stays with what is left
    unfold count set
    rw [lookup_update c.ascending]
    by_cases hjk : j = k
    · subst hjk
      simp
    · simp [hjk]

theorem count_foldl_add (c : Tally) (kinds : List KindId) (k : KindId) :
    (kinds.foldl (fun c k => c.add k 1) c).count k = c.count k + kinds.count k := by
  induction kinds generalizing c with
  | nil => rfl
  | cons i rest ih =>
    rw [List.foldl_cons, ih, count_add, List.count_cons]
    by_cases hki : k = i
    · subst hki
      simp only [if_true, beq_self_eq_true]
      omega
    · have hik : ¬(i == k) = true := by simpa using Ne.symm hki
      simp [hki, hik]

/-- The tally of a list counts what the list has. -/
@[simp] theorem count_ofKinds (kinds : List KindId) (k : KindId) :
    (ofKinds kinds).count k = kinds.count k := by
  unfold ofKinds
  rw [count_foldl_add, count_empty, Nat.zero_add]

/-- Every piece of a list is counted in the tally of the list. -/
theorem mem_entries_ofKinds {kinds : List KindId} (hk : k ∈ kinds) :
    (k, kinds.count k) ∈ (ofKinds kinds).entries := by
  have hpos : 0 < (ofKinds kinds).count k := by
    rw [count_ofKinds]
    exact List.count_pos_iff.2 hk
  have hmem := mem_of_count_pos hpos
  rw [count_ofKinds] at hmem
  exact hmem

/-- The tally of a list has entries for what is in the list only. -/
theorem mem_of_mem_entries_ofKinds {kinds : List KindId} {e : KindId × Nat}
    (he : e ∈ (ofKinds kinds).entries) : e.1 ∈ kinds := by
  have hsource : ∀ c : Tally, e ∈ (kinds.foldl (fun c k => c.add k 1) c).entries →
      e.1 ∈ kinds ∨ ∃ e' ∈ c.entries, e'.1 = e.1 := by
    clear he
    induction kinds with
    | nil => exact fun c he => .inr ⟨e, he, rfl⟩
    | cons k rest ih =>
      intro c he
      rcases ih (c.add k 1) he with hrest | ⟨e', he', heq⟩
      · exact .inl (List.mem_cons_of_mem _ hrest)
      · rcases mem_keys_update he' with hk | ⟨e₀, he₀, heq₀⟩
        · rw [← heq, hk]
          exact .inl List.mem_cons_self
        · exact .inr ⟨e₀, he₀, heq₀.trans heq⟩
  rcases hsource empty he with hmem | ⟨e', he', -⟩
  · exact hmem
  · cases he'

/-- An entry after others were added is of a kind that had one or was added. -/
theorem mem_keys_foldl_add {e : KindId × Nat}
    (he : e ∈ (l.foldl (fun c e => c.add e.1 e.2) c).entries) :
    (∃ e' ∈ c.entries, e'.1 = e.1) ∨ ∃ e' ∈ l, e'.1 = e.1 := by
  induction l generalizing c with
  | nil => exact .inl ⟨e, he, rfl⟩
  | cons d rest ih =>
    obtain ⟨e', he', heq⟩ | ⟨e', he', heq⟩ := ih he
    · obtain hnew | ⟨e₀, he₀, heq₀⟩ := mem_keys_update he'
      · exact .inr ⟨d, List.mem_cons_self, hnew.symm.trans heq⟩
      · exact .inl ⟨e₀, he₀, heq₀.trans heq⟩
    · exact .inr ⟨e', List.mem_cons_of_mem _ he', heq⟩

/-- A list of entries counts a kind as often as its entry says. -/
theorem count_flatMap_entries (h : l.Pairwise fun a b => a.1 < b.1) (k : KindId) :
    (l.flatMap fun e => List.replicate e.2 e.1).count k = (l.lookup k).getD 0 := by
  induction l with
  | nil => rfl
  | cons e rest ih =>
    obtain ⟨j, m⟩ := e
    obtain ⟨hbelow, hrest⟩ := List.pairwise_cons.1 h
    rw [List.flatMap_cons, List.count_append, ih hrest, List.count_replicate, List.lookup_cons]
    by_cases hkj : k = j
    · have hnone : rest.lookup k = none := lookup_eq_none_of_lt fun e he => hkj ▸ hbelow e he
      simp [hkj, hkj ▸ hnone]
    · have hbeq : (k == j) = false := by simpa using hkj
      have hbeq' : (j == k) = false := by simpa using Ne.symm hkj
      simp [hbeq, hbeq']

/-- A tally written out as pieces has each kind as often as it is counted. -/
@[simp] theorem count_toKinds (c : Tally) (k : KindId) : c.toKinds.count k = c.count k :=
  count_flatMap_entries c.ascending k

/-- Spending a tally takes from every kind what the tally counts of it. -/
theorem count_foldl_spend (c d : Tally) (k : KindId) :
    (d.entries.foldl (fun c e => c.spend e.1 e.2) c).count k = c.count k - d.count k := by
  unfold count
  obtain ⟨l, h⟩ := d
  show (Tally.count _ k) = Tally.count c k - (l.lookup k).getD 0
  induction l generalizing c with
  | nil => simp
  | cons e rest ih =>
    obtain ⟨j, m⟩ := e
    obtain ⟨hbelow, hrest⟩ := List.pairwise_cons.1 h
    rw [List.foldl_cons, ih _ hrest, count_spend, List.lookup_cons]
    by_cases hkj : k = j
    · -- the kind is not spent again
      have hnone : rest.lookup k = none := lookup_eq_none_of_lt fun e he => hkj ▸ hbelow e he
      simp [hkj, hkj ▸ hnone]
    · have hbeq : (k == j) = false := by simpa using hkj
      simp [hkj, hbeq]

/-- Adding entries counts what the entries say. -/
theorem count_foldl_add_entries (c : Tally) (h : l.Pairwise fun a b => a.1 < b.1) (k : KindId) :
    (l.foldl (fun c e => c.add e.1 e.2) c).count k = c.count k + (l.lookup k).getD 0 := by
  induction l generalizing c with
  | nil => rfl
  | cons e rest ih =>
    obtain ⟨j, m⟩ := e
    obtain ⟨hbelow, hrest⟩ := List.pairwise_cons.1 h
    rw [List.foldl_cons, ih _ hrest, count_add, List.lookup_cons]
    by_cases hkj : k = j
    · -- the kind does not come again further on
      have hnone : rest.lookup k = none := lookup_eq_none_of_lt fun e he => hkj ▸ hbelow e he
      simp [hkj, hkj ▸ hnone]
    · have hbeq : (k == j) = false := by simpa using hkj
      simp [hkj, hbeq]

/-- Merging adds the counts. -/
@[simp] theorem count_merge (c d : Tally) (k : KindId) :
    (c.merge d).count k = c.count k + d.count k :=
  count_foldl_add_entries c d.ascending k

/-! ## Counting in words -/

theorem count_addWrapped (c : Tally) (k : KindId) (n : Nat) (j : KindId) :
    (c.addWrapped k n).count j = if j = k then wrap (c.count k + n) else c.count j := by
  unfold count addWrapped
  rw [lookup_update c.ascending]
  by_cases hjk : j = k
  · simp [hjk]
  · simp [hjk]

/-- Every entry is added to the count of its kind, and the sum is cut down to a word. -/
theorem count_foldl_addWrapped (c : Tally) (h : l.Pairwise fun a b => a.1 < b.1) (k : KindId) :
    (l.foldl (fun c e => c.addWrapped e.1 e.2) c).count k =
      ((l.lookup k).map fun n => wrap (c.count k + n)).getD (c.count k) := by
  induction l generalizing c with
  | nil => rfl
  | cons e rest ih =>
    obtain ⟨j, m⟩ := e
    obtain ⟨hbelow, hrest⟩ := List.pairwise_cons.1 h
    rw [List.foldl_cons, ih _ hrest, count_addWrapped, List.lookup_cons]
    by_cases hkj : k = j
    · -- the kind does not come again further on
      have hnone : rest.lookup k = none := lookup_eq_none_of_lt fun e he => hkj ▸ hbelow e he
      simp [hkj, hkj ▸ hnone]
    · have hbeq : (k == j) = false := by simpa using hkj
      simp [hkj, hbeq]

/-- Without the empty entries a tally is still ascending. -/
theorem ascending_nonzero (c : Tally) : c.nonzero.Pairwise fun a b => a.1 < b.1 :=
  c.ascending.filter _

theorem lookup_nonzero (c : Tally) (k : KindId) :
    c.nonzero.lookup k = if 0 < c.count k then some (c.count k) else none := by
  by_cases hpos : 0 < c.count k
  · rw [if_pos hpos, lookup_eq_some_iff c.ascending_nonzero]
    apply List.mem_filter.2
    exact ⟨mem_of_count_pos hpos, by simpa using hpos⟩
  · rw [if_neg hpos, List.lookup_eq_none_iff]
    intro e he
    obtain ⟨hmem, hcounts⟩ := List.mem_filter.1 he
    have hcount := count_of_mem hmem
    rw [bne_iff_ne]
    rintro rfl
    exact hpos (hcount ▸ of_decide_eq_true hcounts)

/-- What counts nothing adds nothing. -/
theorem count_foldl_nonzero (c d : Tally) (k : KindId) :
    (d.nonzero.foldl (fun c e => c.addWrapped e.1 e.2) c).count k =
      if 0 < d.count k then wrap (c.count k + d.count k) else c.count k := by
  rw [count_foldl_addWrapped c d.ascending_nonzero, lookup_nonzero]
  split
  · rfl
  · rfl

/-! ## What a tally costs -/

/-- A tally costs what its pieces cost. -/
theorem cost_eq (c : Tally) (price : KindId → Nat) :
    c.cost price = (c.toKinds.map price).sum := by
  unfold cost toKinds
  rw [sumOf_eq]
  induction c.entries with
  | nil => rfl
  | cons e rest ih =>
    rw [List.map_cons, List.sum_cons, ih, List.flatMap_cons, List.map_append, List.sum_append_nat,
      List.map_replicate, List.sum_replicate_nat, Nat.mul_comm]

/-- What is counted beside another tally is paid beside it. -/
theorem cost_of_count {kinds : List KindId} (h : ∀ k, c.count k = d.count k + kinds.count k)
    (price : KindId → Nat) : c.cost price = d.cost price + (kinds.map price).sum := by
  have hperm : c.toKinds.Perm (d.toKinds ++ kinds) := by
    apply List.perm_iff_count.2
    intro k
    rw [List.count_append, count_toKinds, count_toKinds, h k]
  rw [cost_eq, cost_eq, List.Perm.sum_nat (hperm.map price), List.map_append, List.sum_append_nat]

/-- More pieces of a kind cost their price more. -/
@[simp] theorem cost_add (c : Tally) (k : KindId) (n : Nat) (price : KindId → Nat) :
    (c.add k n).cost price = c.cost price + price k * n := by
  have hcount : ∀ j, (c.add k n).count j = c.count j + (List.replicate n k).count j := by
    intro j
    rw [count_add, List.count_replicate]
    by_cases hjk : j = k
    · simp [hjk]
    · simp [hjk, Ne.symm hjk]
  rw [cost_of_count hcount, List.map_replicate, List.sum_replicate_nat, Nat.mul_comm]

/-- Two tallies together cost what each costs. -/
@[simp] theorem cost_merge (c d : Tally) (price : KindId → Nat) :
    (c.merge d).cost price = c.cost price + d.cost price := by
  have hcount : ∀ k, (c.merge d).count k = c.count k + d.toKinds.count k := by
    intro k
    rw [count_merge, count_toKinds]
  rw [cost_of_count hcount, cost_eq d]

/-- As a word, what is counted beside a tally costs what it costs beside it. -/
theorem wrap_cost_addWrapped (c : Tally) (k : KindId) (n : Nat) (price : KindId → Nat) :
    wrap ((c.addWrapped k n).cost price) = wrap (c.cost price + price k * n) := by
  -- what is cut off is a number of whole words
  have hcount : ∀ j, ((c.addWrapped k n).add k
        (UInt32.size * ((c.count k + n) / UInt32.size))).count j =
      (c.add k n).count j + ([] : List KindId).count j := by
    intro j
    rw [count_add, count_add, count_addWrapped, List.count_nil, Nat.add_zero]
    by_cases hjk : j = k
    · rw [if_pos hjk, if_pos hjk, if_pos hjk, hjk]
      exact Nat.mod_add_div _ _
    · simp [hjk]
  have hcost := cost_of_count hcount price
  rw [cost_add, cost_add, List.map_nil, List.sum_nil, Nat.add_zero, Nat.mul_left_comm] at hcost
  rw [← hcost]
  exact (Nat.add_mul_mod_self_left _ _ _).symm

/-- As a word, a tally to which entries are added costs what it and they cost. -/
theorem wrap_cost_foldl_addWrapped (c : Tally) (l : List (KindId × Nat)) (price : KindId → Nat) :
    wrap ((l.foldl (fun c e => c.addWrapped e.1 e.2) c).cost price) =
      wrap (c.cost price + (l.map fun e => price e.1 * e.2).sum) := by
  induction l generalizing c with
  | nil => rfl
  | cons e rest ih =>
    rw [List.foldl_cons, ih, List.map_cons, List.sum_cons, ← Nat.add_assoc]
    exact wrap_add_congr (wrap_cost_addWrapped c e.1 e.2 price) _

/-- Entries that count nothing cost nothing. -/
theorem cost_nonzero (c : Tally) (price : KindId → Nat) :
    (c.nonzero.map fun e => price e.1 * e.2).sum = c.cost price := by
  unfold nonzero cost
  rw [sumOf_eq]
  induction c.entries with
  | nil => rfl
  | cons e rest ih =>
    by_cases hpos : 0 < e.2
    · rw [List.filter_cons_of_pos (by simpa using hpos), List.map_cons, List.map_cons,
        List.sum_cons, List.sum_cons, ih]
    · have hzero : e.2 = 0 := Nat.eq_zero_of_not_pos hpos
      rw [List.filter_cons_of_neg (by simpa using hzero), ih, List.map_cons, List.sum_cons, hzero,
        Nat.mul_zero, Nat.zero_add]

/-- The total is the number of pieces written out. -/
theorem total_eq_length (c : Tally) : c.total = c.toKinds.length := by
  unfold total toKinds
  rw [sumOf_eq]
  induction c.entries with
  | nil => rfl
  | cons e rest ih =>
    rw [List.map_cons, List.sum_cons, ih, List.flatMap_cons, List.length_append,
      List.length_replicate]

theorem count_le_total (c : Tally) (k : KindId) : c.count k ≤ c.total := by
  rw [total_eq_length, ← count_toKinds]
  exact List.count_le_length

/-- The number of pieces is what they cost at one point each. -/
theorem total_eq_cost (c : Tally) : c.total = c.cost fun _ => 1 := by
  unfold total cost
  simp

end Conquest.Tally
