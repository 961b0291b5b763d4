import Conquest.Proofs.Magnitude
import Conquest.Proofs.Play
import Conquest.Proofs.Recruiting

/-!
# How a force is gathered

Gathering is two greedy loops. The inner one draws pieces from a pool until the requirement is met,
and among the pieces that would meet it chooses one that fits; the outer one goes from source to
source. What a force is worth is not the sum of what its pieces are worth, so everything is said of
the force as it grows.

* `Requirement.Draws`, `Requirement.Gathers`: the steps of the two loops; `draws_draw`,
  `gather_gathers`: the loops take no others.
* `Requirement.Gathers.lt_needed`: the requirement is not met before the last piece is taken.
* `Requirement.Gathers.fits`: the piece that meets the requirement fits.
* `Requirement.Gathers.exhausts`: what falls short has taken all there was.
* `Drawable`, `drawable_of_mem_sources`: what the sources of all branches have in common.
* `recruit_greedy`: recruiting from one branch.
-/

namespace Conquest

/-! ## Taking assets -/

namespace Ledger

/-- The ledger after some assets have been assigned to orders. -/
def taking (l : Ledger) (as : List Asset) : Ledger :=
  l.withEntries ((as.map (·.id)).map (·, .moved))

variable {l : Ledger} {as as' : List Asset} {u : PieceId}

@[simp] theorem taking_nil : l.taking [] = l := by
  unfold taking withEntries
  rw [List.map_nil, List.map_nil, List.append_nil]

/-- Taking some and then others is taking both. -/
theorem taking_taking : (l.taking as).taking as' = l.taking (as ++ as') := by
  unfold taking withEntries
  rw [List.map_append, List.map_append, List.append_assoc]

theorem mem_pieces_taking : u ∈ (l.taking as).pieces ↔ u ∈ l.pieces ∨ u ∈ as.map (·.id) :=
  mem_pieces_moved

end Ledger

/-- Free pieces can be taken one after another. -/
theorem Planning.commitEach_of_free {us : List PieceId} {l : Ledger} (hnodup : us.Nodup)
    (hfree : ∀ u ∈ us, u ∉ l.pieces) :
    Planning.commitEach us l = .ok () (l.withEntries (us.map (·, .moved))) := by
  induction us generalizing l with
  | nil =>
    unfold Ledger.withEntries
    rw [List.map_nil, List.append_nil]
    rfl
  | cons u rest ih =>
    rcases Ledger.free_cons_iff.1 ⟨hnodup, hfree⟩ with ⟨hu, hrestNodup, hrestFree⟩
    have hfirst : Planning.commitAll [u] l = .ok () (l.withEntries [(u, .moved)]) := by
      have hrecord : l.commitAll [u] = .ok (l.withEntries [(u, .moved)]) :=
        Ledger.record_of_free (by simp) (by simpa using hu)
      unfold Planning.commitAll Planning.apply
      simp only [hrecord]
    have hunfold : Planning.commitEach (u :: rest) l =
        EStateM.bind (Planning.commitAll [u]) (fun _ => Planning.commitEach rest) l := rfl
    rw [hunfold, EStateM.bind, hfirst]
    -- the others stand as before against the ledger that has the first piece
    show Planning.commitEach rest (l.withEntries [(u, .moved)]) = _
    rw [ih hrestNodup hrestFree]
    simp [Ledger.withEntries]

/-! ## Drawing from a pool -/

namespace Requirement

variable {r : Requirement} {force pool taken rest : List Asset} {a : Asset}

/-- Taking `x` on top of a force would meet the requirement within the limit, or with less than
taking `a`. -/
def Betters (r : Requirement) (force : List Asset) (x a : Asset) : Prop :=
  r.needed ≤ r.value (force ++ [x]) ∧
    (r.value (force ++ [x]) ≤ r.limit ∨ r.value (force ++ [x]) < r.value (force ++ [a]))

/-- Taking `a` stays within the limit, or nothing in the pool betters it. -/
def FitsBest (r : Requirement) (pool force : List Asset) (a : Asset) : Prop :=
  r.value (force ++ [a]) ≤ r.limit ∨ ∀ x ∈ pool, ¬ r.Betters force x a

theorem FitsBest.mono {pool' : List Asset} (h : r.FitsBest pool force a) (hsub : pool' ⊆ pool) :
    r.FitsBest pool' force a :=
  h.imp id fun hall x hx => hall x (hsub hx)

/-- The values that a force can grow to, each with the position of the piece in the pool. -/
def totals (r : Requirement) (force pool : List Asset) : List (Float32 × Nat) :=
  (pool.map fun a => r.value (force ++ [a])).zipIdx

theorem mem_totals {x : Float32 × Nat} :
    x ∈ r.totals force pool ↔ ∃ a, pool[x.2]? = some a ∧ x.1 = r.value (force ++ [a]) := by
  unfold totals
  rw [List.mem_zipIdx_iff_getElem?, List.getElem?_map, Option.map_eq_some_iff]
  constructor
  · rintro ⟨a, ha, hx⟩
    exact ⟨a, ha, hx.symm⟩
  · rintro ⟨a, ha, hx⟩
    exact ⟨a, ha, hx.symm⟩

/-- The choice is the first that meets the need within the limit, or else the least that meets it;
if none does, the first of the pool. -/
theorem choice_eq : r.choice force pool =
    (((((r.totals force pool).filter fun x => r.needed ≤ x.1).find? fun x => x.1 ≤ r.limit).or
      (firstLeast? (fun x y => Binary32.order x.1 y.1)
        ((r.totals force pool).filter fun x => r.needed ≤ x.1))).map (·.2)).getD 0 := rfl

/-- A piece is chosen as long as there is one. -/
theorem exists_choice (hsome : pool ≠ []) : ∃ a, pool[r.choice force pool]? = some a := by
  rw [choice_eq]
  set met := (r.totals force pool).filter fun x => r.needed ≤ x.1 with hmet
  cases hfound : (met.find? fun x => x.1 ≤ r.limit).or
      (firstLeast? (fun x y => Binary32.order x.1 y.1) met) with
  | none =>
    rcases List.exists_cons_of_ne_nil hsome with ⟨a, others, rfl⟩
    exact ⟨a, rfl⟩
  | some x =>
    have hx : x ∈ met := by
      rcases Option.or_eq_some_iff.1 hfound with h | ⟨-, h⟩
      · exact List.mem_of_find?_eq_some h
      · exact mem_of_firstLeast? h
    rcases mem_totals.1 (List.mem_filter.1 hx).1 with ⟨a, ha, -⟩
    exact ⟨a, ha⟩

/-- The piece that is chosen fits if it meets the requirement. -/
theorem choice_fits (hget : pool[r.choice force pool]? = some a)
    (hmeets : r.needed ≤ r.value (force ++ [a])) : r.FitsBest pool force a := by
  rw [choice_eq] at hget
  set met := (r.totals force pool).filter fun x => r.needed ≤ x.1 with hmet
  have hmem : ∀ {x : Float32 × Nat}, x ∈ met ↔
      (∃ a, pool[x.2]? = some a ∧ x.1 = r.value (force ++ [a])) ∧ r.needed ≤ x.1 := by
    intro x
    rw [hmet, List.mem_filter, mem_totals, decide_eq_true_eq]
  -- a position that is chosen is that of the piece
  have hvalue : ∀ x ∈ met, pool[x.2]? = some a → x.1 = r.value (force ++ [a]) := by
    intro x hx hxa
    rcases (hmem.1 hx).1 with ⟨w, hw, hxw⟩
    rw [hxa, Option.some.injEq] at hw
    exact hw ▸ hxw
  cases hwithin : met.find? fun x => x.1 ≤ r.limit with
  | some x =>
    rw [hwithin, Option.some_or, Option.map_some, Option.getD_some] at hget
    have hlimit := List.find?_some hwithin
    rw [decide_eq_true_eq, hvalue x (List.mem_of_find?_eq_some hwithin) hget] at hlimit
    exact .inl hlimit
  | none =>
    rw [hwithin, Option.none_or] at hget
    -- there is a closest piece, since the chosen one would do
    have hsome : ∃ x, firstLeast? (fun x y => Binary32.order x.1 y.1) met = some x := by
      rcases List.mem_iff_getElem?.1 (List.mem_of_getElem? hget) with ⟨i, hi⟩
      exact exists_firstLeast? (x := (r.value (force ++ [a]), i)) (hmem.2 ⟨⟨a, hi, rfl⟩, hmeets⟩)
    rcases hsome with ⟨x, hclosest⟩
    rw [hclosest, Option.map_some, Option.getD_some] at hget
    refine .inr ?_
    rintro w hw ⟨hwmeets, hbetter⟩
    rcases List.mem_iff_getElem?.1 hw with ⟨j, hj⟩
    have hwmet : (r.value (force ++ [w]), j) ∈ met := hmem.2 ⟨⟨w, hj, rfl⟩, hwmeets⟩
    rcases hbetter with hlimit | hless
    · exact List.find?_eq_none.1 hwithin _ hwmet (decide_eq_true hlimit)
    · -- what meets the requirement is a number, so the least is compared by its place
      have hnumber : ∀ y ∈ met, y.1.isNaN = false := fun y hy =>
        (Binary32.isNaN_eq_false_of_le (hmem.1 hy).2).2
      have hcmp : ∀ y ∈ met, ∀ z ∈ met, Binary32.order y.1 z.1 =
          compare (Binary32.place y.1) (Binary32.place z.1) := fun y hy z hz =>
        Binary32.order_eq_compare_place (hnumber y hy) (hnumber z hz)
      have hleast := firstLeast?_ne_gt hcmp hclosest _ hwmet
      rw [hvalue x (mem_of_firstLeast? hclosest) hget] at hleast
      exact hleast (Binary32.order_eq_gt hless)

/-- `taken` is drawn one by one from a pool on top of a force, and `rest` is left of the pool. -/
inductive Draws (r : Requirement) : List Asset → List Asset → List Asset → List Asset → Prop
  /-- Nothing is drawn once the requirement is not open any more or the pool is empty. -/
  | stop {force pool : List Asset} (h : ¬ r.value force < r.needed ∨ pool = []) :
      Draws r force pool [] pool
  /-- The chosen piece leaves the pool and joins the force. -/
  | take {force pool taken rest : List Asset} {a : Asset} (hopen : r.value force < r.needed)
      (hget : pool[r.choice force pool]? = some a)
      (hdraws : Draws r (force ++ [a]) (pool.eraseIdx (r.choice force pool)) taken rest) :
      Draws r force pool (a :: taken) rest

/-- The inner loop takes no steps but those of `Draws`. -/
theorem draws_draw {count : Nat} (hcount : pool.length ≤ count) :
    ∃ rest, r.Draws force pool (r.draw count force pool) rest := by
  induction count generalizing force pool with
  | zero =>
    have hnil : pool = [] := List.length_eq_zero_iff.1 (Nat.le_zero.1 hcount)
    exact ⟨pool, .stop (.inr hnil)⟩
  | succ count ih =>
    simp only [draw]
    by_cases hopen : r.value force < r.needed
    · rw [if_pos hopen]
      by_cases hnil : pool = []
      · subst hnil
        exact ⟨[], .stop (.inr rfl)⟩
      · -- one piece leaves the pool, so the count lasts
        have hchoice : ∃ a, pool[r.choice force pool]? = some a := exists_choice hnil
        rcases hchoice with ⟨a, ha⟩
        have hlt := (List.getElem?_eq_some_iff.1 ha).1
        have hshorter : (pool.eraseIdx (r.choice force pool)).length ≤ count := by
          rw [List.length_eraseIdx_of_lt hlt]
          omega
        have hmore : ∃ rest, r.Draws (force ++ [a]) (pool.eraseIdx (r.choice force pool))
            (r.draw count (force ++ [a]) (pool.eraseIdx (r.choice force pool))) rest := ih hshorter
        rcases hmore with ⟨rest, hrest⟩
        simp only [ha]
        exact ⟨rest, .take hopen ha hrest⟩
    · rw [if_neg hopen]
      exact ⟨pool, .stop (.inl hopen)⟩

namespace Draws

/-- What is drawn and what is left make up the pool. -/
theorem perm (h : r.Draws force pool taken rest) : (taken ++ rest).Perm pool := by
  induction h with
  | stop => exact .refl _
  | take _ hget _ ih =>
    rcases List.getElem?_eq_some_iff.1 hget with ⟨hlt, rfl⟩
    exact (ih.cons _).trans (List.getElem_cons_eraseIdx_perm hlt)

theorem subset (h : r.Draws force pool taken rest) : taken ⊆ pool := fun _ ha =>
  h.perm.subset (List.mem_append_left rest ha)

/-- The requirement is open before each piece that is drawn. -/
theorem lt_needed (h : r.Draws force pool taken rest) :
    ∀ j < taken.length, r.value (force ++ taken.take j) < r.needed := by
  induction h with
  | stop =>
    intro j hj
    cases hj
  | @take force _ taken _ a hopen _ _ ih =>
    intro j hj
    cases j with
    | zero =>
      rw [List.take_zero, List.append_nil]
      exact hopen
    | succ j =>
      have hless := ih j (Nat.lt_of_succ_lt_succ hj)
      rw [List.append_assoc] at hless
      exact hless

/-- The last piece that is drawn fits, if it meets the requirement. -/
theorem fits {init : List Asset} (h : r.Draws force pool (init ++ [a]) rest)
    (hmeets : r.needed ≤ r.value (force ++ init ++ [a])) :
    r.FitsBest rest (force ++ init) a := by
  induction init generalizing force pool with
  | nil =>
    rw [List.append_nil] at hmeets ⊢
    cases h with
    | take hopen hget hdraws =>
      have hfit := choice_fits hget hmeets
      -- the draw has ended with this piece, so what is left is the pool without it
      cases hdraws with
      | stop => exact hfit.mono (List.eraseIdx_subset)
  | cons x init ih =>
    cases h with
    | take hopen hget hdraws =>
      rw [List.append_cons force x init] at hmeets ⊢
      exact ih hdraws hmeets

/-- If the requirement is still open, nothing is left of the pool. -/
theorem exhausts (h : r.Draws force pool taken rest)
    (hopen : r.value (force ++ taken) < r.needed) : rest = [] := by
  induction h with
  | stop hstop =>
    rw [List.append_nil] at hopen
    exact hstop.resolve_left fun hmet => hmet hopen
  | take _ _ _ ih =>
    rw [List.append_assoc] at ih
    exact ih hopen

end Draws

end Requirement

/-! ## Going from source to source -/

/-- A source and what is taken from it. -/
structure Intake where
  source : Source
  taken : List Asset

namespace Intake

/-- What is taken from all sources, in order. -/
def force (xs : List Intake) : List Asset := xs.flatMap (·.taken)

/-- The orders for what is taken: one for each source and route that is used. -/
def orders (xs : List Intake) : List Order :=
  xs.flatMap fun x => Requirement.orderFor x.taken x.source.route

@[simp] theorem force_nil : force [] = [] := rfl

@[simp] theorem force_cons (x : Intake) (xs : List Intake) :
    force (x :: xs) = x.taken ++ force xs := rfl

@[simp] theorem orders_nil : orders [] = [] := rfl

@[simp] theorem orders_cons (x : Intake) (xs : List Intake) :
    orders (x :: xs) = Requirement.orderFor x.taken x.source.route ++ orders xs := rfl

end Intake

namespace Requirement

variable {r : Requirement} {force : List Asset} {l : Ledger} {sources : List Source}
  {xs : List Intake}

/-- The assets of a source that the ledger has free. -/
def freeOf (l : Ledger) (s : Source) : List Asset := s.assets.filter fun a => !l.isCommitted a.id

/-- Free of a source is what is not in the books. -/
theorem mem_freeOf {s : Source} {a : Asset} :
    a ∈ freeOf l s ↔ a ∈ s.assets ∧ a.id ∉ l.pieces := by
  unfold freeOf
  rw [List.mem_filter, Bool.not_eq_true', Ledger.isCommitted_eq_false_iff]

/-- Nothing is drawn twice. -/
theorem Draws.nodup_ids {s : Source} {taken rest : List Asset}
    (h : r.Draws force (freeOf l s) taken rest) (hs : (s.assets.map (·.id)).Nodup) :
    (taken.map (·.id)).Nodup := by
  have hfree : ((freeOf l s).map (·.id)).Nodup := hs.sublist (List.filter_sublist.map _)
  have hsub : taken.Subperm (freeOf l s) :=
    (List.sublist_append_left taken rest).subperm.trans h.perm.subperm
  exact nodup_map_of_subperm hsub hfree

/-- `xs` is taken from sources in order, on top of a force and starting from a ledger. -/
inductive Gathers (r : Requirement) : Ledger → List Asset → List Source → List Intake → Prop
  /-- The requirement is met, or there is no source left. -/
  | stop {l : Ledger} {force : List Asset} {sources : List Source}
      (h : r.needed ≤ r.value force ∨ sources = []) : Gathers r l force sources []
  /-- What is free of the next source is drawn from. -/
  | take {l : Ledger} {force taken rest : List Asset} {s : Source} {sources : List Source}
      {xs : List Intake} (hopen : ¬ r.needed ≤ r.value force)
      (hdraws : r.Draws force (freeOf l s) taken rest)
      (hgathers : Gathers r (l.taking taken) (force ++ taken) sources xs) :
      Gathers r l force (s :: sources) (⟨s, taken⟩ :: xs)

/-- Gathering from sources that list no piece twice does not fail. -/
theorem gather_gathers (hs : ∀ s ∈ sources, (s.assets.map (·.id)).Nodup) (orders : List Order) :
    ∃ xs, r.Gathers l force sources xs ∧ r.gather sources force orders l =
      .ok ⟨r.value (force ++ Intake.force xs), orders ++ Intake.orders xs⟩
        (l.taking (Intake.force xs)) := by
  induction sources generalizing l force orders with
  | nil =>
    refine ⟨[], .stop (.inr rfl), ?_⟩
    rw [Intake.force_nil, Intake.orders_nil, List.append_nil, List.append_nil, Ledger.taking_nil]
    rfl
  | cons s rest ih =>
    unfold gather
    by_cases hmet : r.needed ≤ r.value force
    · refine ⟨[], .stop (.inl hmet), ?_⟩
      rw [if_pos hmet, Intake.force_nil, Intake.orders_nil, List.append_nil, List.append_nil,
        Ledger.taking_nil]
      rfl
    · rw [if_neg hmet]
      set taken := r.draw (freeOf l s).length force (freeOf l s) with htaken
      have hdrawn : ∃ left, r.Draws force (freeOf l s) taken left := draws_draw (le_refl _)
      rcases hdrawn with ⟨left, hdraws⟩
      have hnodup : (taken.map (·.id)).Nodup := hdraws.nodup_ids (hs s List.mem_cons_self)
      have hfree : ∀ u ∈ taken.map (·.id), u ∉ l.pieces := by
        intro u hu
        rcases List.mem_map.1 hu with ⟨a, ha, rfl⟩
        exact (mem_freeOf.1 (hdraws.subset ha)).2
      have hothers := @ih (force ++ taken) (l.taking taken)
        (fun x hx => hs x (List.mem_cons_of_mem _ hx)) (orders ++ orderFor taken s.route)
      rcases hothers with ⟨xs, hgathers, hgather⟩
      -- committing what was drawn is the one step that could fail
      refine ⟨⟨s, taken⟩ :: xs, .take hmet hdraws hgathers, ?_⟩
      have hunfold : (do
          let l ← get
          let pool := s.assets.filter fun a => !l.isCommitted a.id
          let taken := r.draw pool.length force pool
          Planning.commitEach (taken.map (·.id))
          gather r rest (force ++ taken) (orders ++ orderFor taken s.route) : Planning Haul) l =
          EStateM.bind (Planning.commitEach (taken.map (·.id)))
            (fun _ => gather r rest (force ++ taken) (orders ++ orderFor taken s.route)) l := rfl
      rw [hunfold, EStateM.bind, Planning.commitEach_of_free hnodup hfree]
      show gather r rest (force ++ taken) (orders ++ orderFor taken s.route) (l.taking taken) = _
      rw [hgather, Intake.force_cons, Intake.orders_cons, Ledger.taking_taking,
        List.append_assoc, List.append_assoc]

namespace Gathers

theorem sources_prefix (h : r.Gathers l force sources xs) : xs.map (·.source) <+: sources := by
  induction h with
  | stop => exact List.nil_prefix
  | take _ _ _ ih => exact (List.prefix_cons_inj _).2 ih

/-- What is taken was free and is offered by its source. -/
theorem free (h : r.Gathers l force sources xs) :
    ∀ x ∈ xs, ∀ a ∈ x.taken, a ∈ x.source.assets ∧ a.id ∉ l.pieces := by
  induction h with
  | stop => simp
  | @take l _ taken rest s _ _ _ hdraws _ ih =>
    intro x hx a ha
    rcases List.mem_cons.1 hx with rfl | hx
    · exact mem_freeOf.1 (hdraws.subset ha)
    · rcases ih x hx a ha with ⟨hmem, hfree⟩
      exact ⟨hmem, fun hin => hfree (Ledger.mem_pieces_taking.2 (.inl hin))⟩

/-- Nothing is taken twice. -/
theorem nodup (h : r.Gathers l force sources xs)
    (hs : ∀ s ∈ sources, (s.assets.map (·.id)).Nodup) :
    ((Intake.force xs).map (·.id)).Nodup := by
  induction h with
  | stop => exact List.nodup_nil
  | @take l _ taken rest s _ xs _ hdraws hgathers ih =>
    rw [Intake.force_cons, List.map_append, List.nodup_append]
    refine ⟨?_, ih fun x hx => hs x (List.mem_cons_of_mem _ hx), ?_⟩
    · exact hdraws.nodup_ids (hs s List.mem_cons_self)
    · -- what later sources give was free once this one had been drawn from
      intro u hu w hw huw
      rcases List.mem_map.1 hw with ⟨a, ha, rfl⟩
      rcases List.mem_flatMap.1 ha with ⟨x, hx, hax⟩
      exact (hgathers.free x hx a hax).2 (Ledger.mem_pieces_taking.2 (.inr (huw ▸ hu)))

/-- The requirement is open before each piece that is taken. -/
theorem lt_needed (h : r.Gathers l force sources xs) :
    ∀ j < (Intake.force xs).length, r.value (force ++ (Intake.force xs).take j) < r.needed := by
  induction h with
  | stop =>
    intro j hj
    cases hj
  | @take _ force taken _ _ _ xs _ hdraws _ ih =>
    intro j hj
    rw [Intake.force_cons] at hj ⊢
    dsimp only at hj ⊢
    rw [List.length_append] at hj
    by_cases hlt : j < taken.length
    · rw [List.take_append_of_le_length (le_of_lt hlt)]
      exact hdraws.lt_needed j hlt
    · have hless := ih (j - taken.length) (by omega)
      rw [List.take_append, List.take_of_length_le (Nat.le_of_not_lt hlt), ← List.append_assoc]
      exact hless

/-- The piece that meets the requirement fits among all that its source had left. -/
theorem fits (h : r.Gathers l force sources xs) (hopen : ¬ r.needed ≤ r.value force)
    (hmeets : r.needed ≤ r.value (force ++ Intake.force xs)) :
    ∃ before s init a, xs = before ++ [⟨s, init ++ [a]⟩] ∧
      (r.value (force ++ Intake.force xs) ≤ r.limit ∨ ∀ x ∈ s.assets, x.id ∉ l.pieces →
        x.id ∉ (Intake.force xs).map (·.id) →
          ¬ r.Betters (force ++ Intake.force before ++ init) x a) := by
  induction h with
  | stop =>
    rw [Intake.force_nil, List.append_nil] at hmeets
    exact absurd hmeets hopen
  | @take l force taken rest s sources xs _ hdraws hgathers ih =>
    rw [Intake.force_cons] at hmeets ⊢
    by_cases hlast : r.needed ≤ r.value (force ++ taken)
    · -- nothing is taken from the sources that follow
      have hnil : xs = [] := by
        cases hgathers with
        | stop => rfl
        | take hstill => exact absurd hlast hstill
      subst hnil
      rcases List.eq_nil_or_concat' taken with rfl | ⟨init, a, rfl⟩
      · rw [List.append_nil] at hlast
        exact absurd hlast hopen
      · refine ⟨[], s, init, a, rfl, ?_⟩
        rw [Intake.force_nil, List.append_nil, List.append_nil]
        rw [← List.append_assoc] at hlast ⊢
        refine (hdraws.fits hlast).imp id ?_
        intro hall x hx hfree hnew
        refine hall x ?_
        -- what is free and was not drawn is left of the pool
        have hpool := hdraws.perm.mem_iff.2 (mem_freeOf.2 ⟨hx, hfree⟩)
        refine (List.mem_append.1 hpool).resolve_left ?_
        intro hin
        exact hnew (List.mem_map.2 ⟨x, hin, rfl⟩)
    · rw [← List.append_assoc] at hmeets ⊢
      rcases ih hlast hmeets with ⟨before, s', init, a, hxs, hfit⟩
      refine ⟨⟨s, taken⟩ :: before, s', init, a, by rw [hxs, List.cons_append], hfit.imp id ?_⟩
      intro hall x hx hfree hnew
      rw [List.map_append, List.mem_append, not_or] at hnew
      rw [Intake.force_cons, ← List.append_assoc]
      refine hall x hx ?_ hnew.2
      intro hin
      exact (Ledger.mem_pieces_taking.1 hin).elim hfree hnew.1

/-- If the requirement is still open, all that the sources offer is taken. -/
theorem exhausts (h : r.Gathers l force sources xs)
    (hopen : r.value (force ++ Intake.force xs) < r.needed) :
    ∀ s ∈ sources, ∀ a ∈ s.assets, a.id ∈ (l.taking (Intake.force xs)).pieces := by
  induction h with
  | @stop _ force sources hstop =>
    rw [Intake.force_nil, List.append_nil] at hopen
    rcases hstop with hmet | rfl
    · exact absurd hmet (Binary32.not_le_of_lt hopen)
    · intro s hs
      cases hs
  | @take l force taken rest s sources xs _ hdraws hgathers ih =>
    rw [Intake.force_cons, ← List.append_assoc] at hopen
    -- it was open when this source had been drawn from, too
    have hstill : r.value (force ++ taken) < r.needed := by
      cases hxs : Intake.force xs with
      | nil =>
        rw [hxs, List.append_nil] at hopen
        exact hopen
      | cons a others =>
        have hfirst := hgathers.lt_needed 0 (by rw [hxs]; exact Nat.succ_pos _)
        rw [List.take_zero, List.append_nil] at hfirst
        exact hfirst
    rw [Intake.force_cons, ← Ledger.taking_taking]
    intro x hx a ha
    rcases List.mem_cons.1 hx with rfl | hx
    · rw [Ledger.mem_pieces_taking, Ledger.mem_pieces_taking]
      by_cases htaken : a.id ∈ l.pieces
      · exact .inl (.inl htaken)
      · have hpool := hdraws.perm.mem_iff.2 (mem_freeOf.2 ⟨ha, htaken⟩)
        rw [hdraws.exhausts hstill, List.append_nil] at hpool
        exact .inl (.inr (List.mem_map.2 ⟨a, hpool, rfl⟩))
    · exact ih hopen x hx a ha

end Gathers

end Requirement

/-! ## What sources have in common -/

/-- A source that lists usable pieces of the player in one territory, away from the objective and
from what is excluded. -/
structure Drawable (b : Board) (c : Context) (l : Ledger) (target : Target) (s : Source) :
    Prop where
  listed : ∃ pool, pool.Sublist (b.ownedIn s.territory c.player) ∧ s.assets.Perm pool
  usable : ∀ a ∈ s.assets, c.isUsable b l a = true
  /-- Land pieces are not drawn from aboard a transport. -/
  ashore : ∀ a ∈ s.assets, a.kind.isLand = true → a.piece.carrier = none
  away : s.territory ≠ target.objective
  kept : s.territory ∉ target.exclude

/-- Ships and aircraft are no land pieces. -/
theorem PieceKind.not_isLand {k : PieceKind} (h : k.isSea = true ∨ k.isAir = true) :
    ¬ k.isLand = true := by
  rw [isLand_eq_false h]
  exact Bool.false_ne_true

/-- On a well-formed board the pieces of a source stand by themselves. -/
theorem Drawable.alone {b : Board} {c : Context} {l : Ledger} {target : Target} {s : Source}
    (h : Drawable b c l target s) (hb : b.Sound) : ∀ a ∈ s.assets, a.piece.carrier = none := by
  rcases h.listed with ⟨pool, hsub, hperm⟩
  intro a ha
  cases hland : a.kind.isLand with
  | true => exact h.ashore a ha hland
  | false => exact hb.alone (hsub.subset (hperm.mem_iff.1 ha)) hland

namespace Context

variable {b : Board} {c : Context} {l : Ledger} {target : Target} {t : TerritoryId} {s : Source}

theorem drawable_of_pool {route : Route} {attacking : Bool} {keep : Asset → Bool}
    (haway : t ≠ target.objective) (hkept : t ∉ target.exclude)
    (hkeep : ∀ a, keep a = true → c.isUsable b l a = true ∧
      (a.kind.isLand = true → a.piece.carrier = none)) :
    Drawable b c l target
      ⟨t, route, c.preferenceOrder attacking ((b.ownedIn t c.player).filter keep)⟩ := by
  have hperm := c.preferenceOrder_perm attacking ((b.ownedIn t c.player).filter keep)
  have hall : ∀ a ∈ c.preferenceOrder attacking ((b.ownedIn t c.player).filter keep),
      keep a = true := fun a ha => (List.mem_filter.1 (hperm.mem_iff.1 ha)).2
  exact ⟨⟨_, List.filter_sublist, hperm⟩, fun a ha => (hkeep a (hall a ha)).1,
    fun a ha => (hkeep a (hall a ha)).2, haway, hkept⟩

theorem drawable_of_landSource? {blitz : Bool} (h : c.landSource? b l target blitz t = some s) :
    Drawable b c l target s := by
  unfold landSource? at h
  rcases guard_bind_eq_some.1 h with ⟨hallow, h⟩
  rcases guard_bind_eq_some.1 h with ⟨-, h⟩
  rcases Option.bind_eq_some_iff.1 h with ⟨route, -, h⟩
  rcases guard_bind_eq_some.1 h with ⟨-, h⟩
  cases h
  rw [Bool.and_eq_true, allowsSource_iff] at hallow
  refine drawable_of_pool hallow.1.1 hallow.1.2 ?_
  intro a ha
  simp only [Bool.and_eq_true, Bool.not_eq_true'] at ha
  exact ⟨ha.2, fun _ => Asset.not_isAboard_iff.1 (Bool.not_eq_true _ ▸ ha.1.1.1.2)⟩

theorem drawable_of_airSource? (h : c.airSource? b l target t = some s) :
    Drawable b c l target s := by
  unfold airSource? at h
  rcases guard_bind_eq_some.1 h with ⟨hallow, h⟩
  rcases Option.bind_eq_some_iff.1 h with ⟨route, -, h⟩
  rcases guard_bind_eq_some.1 h with ⟨-, h⟩
  cases h
  rw [allowsSource_iff] at hallow
  refine drawable_of_pool hallow.1 hallow.2 ?_
  intro a ha
  simp only [Bool.and_eq_true] at ha
  exact ⟨ha.2, fun hland => absurd hland (PieceKind.not_isLand (.inr ha.1.1.1))⟩

theorem drawable_of_shipSource? {x : Float32 × Source}
    (h : c.shipSource? b l target t = some x) : Drawable b c l target x.2 := by
  unfold shipSource? at h
  rcases guard_bind_eq_some.1 h with ⟨hallow, h⟩
  rcases Option.bind_eq_some_iff.1 h with ⟨route, -, h⟩
  rcases guard_bind_eq_some.1 h with ⟨-, h⟩
  cases h
  rw [allowsSource_iff] at hallow
  refine drawable_of_pool hallow.1 hallow.2 ?_
  intro a ha
  unfold PieceKind.isCarrierBorne at ha
  simp only [Bool.and_eq_true, Bool.or_eq_true] at ha
  exact ⟨ha.2, fun hland => absurd hland (PieceKind.not_isLand (ha.1.1.imp (·.1) (·.1)))⟩

/-- Nobody asks whether ships bombard from the objective, which lies on land. -/
theorem drawable_of_bombardSource? {z : TerritoryId} (haway : t ≠ target.objective)
    (h : c.bombardSource? b l target z t = some s) : Drawable b c l target s := by
  unfold bombardSource? at h
  rcases guard_bind_eq_some.1 h with ⟨hkept, h⟩
  rcases Option.bind_eq_some_iff.1 h with ⟨route, -, h⟩
  rcases guard_bind_eq_some.1 h with ⟨-, h⟩
  cases h
  have hnot : t ∉ target.exclude := by simpa using hkept
  refine drawable_of_pool haway hnot ?_
  intro a ha
  simp only [Bool.and_eq_true] at ha
  exact ⟨ha.2, fun hland => absurd hland (PieceKind.not_isLand (.inl ha.1.1.2))⟩

/-- Whatever the branch, what a source offers is drawable. -/
theorem drawable_of_mem_sources {branch : Branch} (hs : s ∈ c.sources b l target branch) :
    Drawable b c l target s := by
  cases branch with
  | blitz =>
    rcases mem_landSources.1 hs with ⟨-, -, t, -, hsource⟩
    exact drawable_of_landSource? hsource
  | land =>
    rcases mem_landSources.1 hs with ⟨-, -, t, -, hsource⟩
    exact drawable_of_landSource? hsource
  | air =>
    change s ∈ c.airSources b l target at hs
    unfold airSources at hs
    rw [mem_sortBy, List.mem_filterMap] at hs
    rcases hs with ⟨t, -, hsource⟩
    exact drawable_of_airSource? hsource
  | transports => cases hs
  | ships =>
    change s ∈ c.shipSources b l target at hs
    unfold shipSources at hs
    split at hs
    · rcases List.mem_map.1 hs with ⟨x, hx, rfl⟩
      rw [mem_sortBy, List.mem_filterMap] at hx
      rcases hx with ⟨t, -, hsource⟩
      exact drawable_of_shipSource? hsource
    · cases hs
  | bombard =>
    change s ∈ c.bombardSources b l target at hs
    unfold bombardSources at hs
    dsimp only at hs
    split at hs
    · cases hs
    · rename_i hdry
      rw [mem_sortBy] at hs
      rcases List.mem_flatMap.1 hs with ⟨z, hz, hs⟩
      rcases List.mem_filterMap.1 hs with ⟨t, ht, hsource⟩
      refine drawable_of_bombardSource? ?_ hsource
      -- the ships stand at sea
      have hwater : b.atlas.isWater t = true := by
        rcases List.mem_cons.1 ht with rfl | ht
        · exact (isSafeWater_iff.1 (List.mem_filter.1 hz).2).1
        · exact Atlas.passable_of_mem_neighborsWithin ht
      rintro rfl
      rw [hwater] at hdry
      exact hdry rfl

end Context

/-! ## Recruiting -/

/-- No territory lists a piece twice. -/
def Board.ListsOnce (b : Board) : Prop := ∀ t, ((b.assetsIn t).map (·.id)).Nodup

/-- On a well-formed board on which only ships have cargo space the place of every piece is
certain, so no territory lists it twice. -/
theorem Board.Sound.listsOnce {b : Board} (hb : b.Sound) (hcarry : b.OnlyShipsCarry) :
    b.ListsOnce := by
  intro t
  refine hb.nodup_ids (.refl _) ?_
  intro a ha carrier s hcarrier hs
  rcases hb.cargo a.id a.piece carrier (asset?_eq_some.1 (hb.asset?_of_mem ha)).1 hcarrier with
    ⟨s', hs', hcarries⟩
  rw [hs, Option.some.injEq] at hs'
  exact hcarry s.kind (hs' ▸ hcarries.room)

namespace Context

variable {b : Board} {c : Context} {l : Ledger} {target : Target} {branch : Branch}

theorem nodup_of_listsOnce (hlists : b.ListsOnce) :
    ∀ s ∈ c.sources b l target branch, (s.assets.map (·.id)).Nodup := by
  intro s hs
  rcases (drawable_of_mem_sources hs).listed with ⟨pool, hsub, hperm⟩
  rw [(hperm.map (·.id)).nodup_iff]
  exact (hlists s.territory).sublist ((hsub.trans (b.ownedIn_sublist s.territory c.player)).map _)

/-- On a well-formed board no source lists a piece twice. -/
theorem nodup_of_sound (hb : b.Sound) :
    ∀ s ∈ c.sources b l target branch, (s.assets.map (·.id)).Nodup := by
  intro s hs
  rcases (drawable_of_mem_sources hs).listed with ⟨pool, hsub, hperm⟩
  exact nodup_of_perm hb hperm hsub fun a ha =>
    (drawable_of_mem_sources hs).alone hb a (hperm.mem_iff.2 ha)

/-- A target of which something is needed is open. -/
theorem isMet_eq_false (h : 0 < target.needed) : target.isMet = false :=
  decide_eq_false (Binary32.not_le_of_lt h)

/-- A force of nothing is worth nothing. -/
theorem strength_nil (c : Context) (attacking atSea : Bool) :
    c.strength attacking atSea [] = 0 := rfl

/-- Recruiting for an open target gathers from the sources of the branch. -/
theorem recruit_gathers (hs : ∀ s ∈ c.sources b l target branch, (s.assets.map (·.id)).Nodup)
    (hopen : target.isMet = false) (hbranch : branch ≠ .transports) :
    ∃ xs, (c.requirement target (isCombat l) (valuedAtSea b target branch)).Gathers l []
        (c.sources b l target branch) xs ∧
      c.recruit b target branch l =
        .ok ⟨c.strength (isCombat l) (valuedAtSea b target branch) (Intake.force xs),
          Intake.orders xs⟩ (l.taking (Intake.force xs)) := by
  rcases @Requirement.gather_gathers
    (c.requirement target (isCombat l) (valuedAtSea b target branch)) [] l _ hs [] with
    ⟨xs, hgathers, hgather⟩
  refine ⟨xs, hgathers, ?_⟩
  have hunfold : c.recruit b target branch l =
      (c.requirement target (isCombat l) (valuedAtSea b target branch)).gather
        (c.sources b l target branch) [] [] l := by
    unfold recruit
    rw [hopen, if_neg Bool.false_ne_true, if_neg hbranch]
    rfl
  rw [hunfold, hgather]
  rfl

/-- Recruiting takes pieces one by one until the target is met. It does not fail where no territory
lists a piece twice. It takes pieces that the ledger has free, from one source after another, each
piece once, and gives one order for each source that it takes pieces from unless they are in place.
The force is worth less than what is needed before every piece that is taken. If it is worth enough
in the end, the last piece keeps it within the slack, or no other piece that its source had left
would have been enough within the slack or with a smaller total. -/
theorem recruit_greedy (c : Context) (b : Board) (hlists : b.ListsOnce) (l : Ledger)
    (target : Target) (hneeded : 0 < target.needed) (branch : Branch)
    (hbranch : branch ≠ .transports) :
    let value := c.strength (isCombat l) (valuedAtSea b target branch)
    let limit := target.needed * c.config.recruitSlack
    ∃ xs : List Intake, ∃ force : List Asset, force = xs.flatMap (·.taken) ∧
      c.recruit b target branch l =
        .ok ⟨value force, xs.flatMap fun x => Requirement.orderFor x.taken x.source.route⟩
          (l.withEntries (force.map fun a => (a.id, .moved))) ∧
      xs.map (·.source) <+: c.sources b l target branch ∧
      (∀ x ∈ xs, ∀ a ∈ x.taken, a ∈ x.source.assets ∧ a.id ∉ l.pieces) ∧
      (force.map (·.id)).Nodup ∧
      value [] = 0 ∧
      (∀ j < force.length, value (force.take j) < target.needed) ∧
      (target.needed ≤ value force → ∃ before s init a, xs = before ++ [⟨s, init ++ [a]⟩] ∧
        (value force ≤ limit ∨ ∀ x ∈ s.assets, x.id ∉ l.pieces → x.id ∉ force.map (·.id) →
          let instead := value (before.flatMap (·.taken) ++ init ++ [x])
          ¬ (target.needed ≤ instead ∧ (instead ≤ limit ∨ instead < value force)))) := by
  intro value limit
  have hs : ∀ s ∈ c.sources b l target branch, (s.assets.map (·.id)).Nodup :=
    nodup_of_listsOnce hlists
  rcases recruit_gathers hs (isMet_eq_false hneeded) hbranch with ⟨xs, hgathers, hrecruit⟩
  have hopen : ¬ target.needed ≤ value [] := by
    show ¬ target.needed ≤ c.strength (isCombat l) (valuedAtSea b target branch) []
    rw [strength_nil]
    exact Binary32.not_le_of_lt hneeded
  refine ⟨xs, Intake.force xs, rfl, ?_, hgathers.sources_prefix, hgathers.free,
    hgathers.nodup hs, strength_nil c _ _, hgathers.lt_needed, ?_⟩
  · rw [hrecruit, Ledger.taking, List.map_map]
    rfl
  · intro hmeets
    rcases hgathers.fits hopen hmeets with ⟨before, s, init, a, hxs, hfit⟩
    refine ⟨before, s, init, a, hxs, hfit.imp (fun h => h) ?_⟩
    intro hall x hx hfree hnew instead hbetter
    -- the last piece stands at the end of what its source gave
    have hforce : Intake.force xs = Intake.force before ++ init ++ [a] := by
      rw [hxs]
      simp [Intake.force]
    refine hall x hx hfree hnew ⟨hbetter.1, hbetter.2.imp (fun h => h) ?_⟩
    intro hless
    rw [hforce] at hless
    exact hless

end Context

namespace Scenario

/-- Red can attack the fort of Blue from the north with infantry and from the south with a tank and
infantry. -/
def pincer : Scenario where
  players := [{ name := "Red" }, { name := "Blue", team := 1 }]
  territories := [
    { name := "Fort", owner := some "Blue" }, { name := "North", owner := some "Red" },
    { name := "South", owner := some "Red" }]
  connections := [("Fort", "North"), ("Fort", "South")]
  kinds := [
    { name := "infantry", attack := 1, defense := 2, cost := 3 },
    { name := "tank", movement := 2, attack := 3, defense := 3, cost := 6 }]
  pieces := [
    { kind := "infantry", owner := "Red", place := "North" },
    { kind := "tank", owner := "Red", place := "South" },
    { kind := "infantry", owner := "Red", place := "South" },
    { kind := "infantry", owner := "Blue", place := "Fort" }]

set_option maxRecDepth 100000 in
/-- Both infantries together are worth the 4 that are needed, and the tank stays at home. -/
theorem recruit_greedy_pincer : ∃ h, pincer.setUp = .ok h ∧ h.board.ListsOnce ∧
    (0 : Float32) < 4 ∧ ∃ haul l' force,
      (Context.build h.board 0 {}).recruit h.board ⟨0, 4, []⟩ .land (.new .combat) = .ok haul l' ∧
      haul.pieces = [0, 2] ∧ l'.pieces = [0, 2] ∧ force.map Asset.id = [0, 2] ∧
      (Context.build h.board 0 {}).strength true false (force.take 1) < 4 ∧
      haul.achieved = (Context.build h.board 0 {}).strength true false force := by
  have hpass : (pincer.setUp.toOption.any fun h => endsWith
      (fun haul l' => decide (h.board.atlas.isWater 0 = false ∧ haul.pieces = [0, 2] ∧
        l'.pieces = [0, 2]))
      ((Context.build h.board 0 {}).recruit h.board ⟨0, 4, []⟩ .land) (.new .combat)) = true := by
    decide +kernel
  obtain ⟨h, hset, hcheck⟩ := exists_setUp hpass
  have hlists : h.board.ListsOnce := (setUp_sound hset).listsOnce
    (play_onlyShipsCarry hset (by decide) [])
  obtain ⟨xs, force, -, hrecruit, -, -, -, -, hbelow, -⟩ := Context.recruit_greedy
    (.build h.board 0 {}) h.board hlists (.new .combat) ⟨0, 4, []⟩ (by decide) .land (by decide)
  have hfacts := test_of_endsWith hcheck hrecruit
  obtain ⟨hland, hnamed, htaken⟩ := of_decide_eq_true hfacts
  have hforce : force.map Asset.id = [0, 2] := by
    rw [Ledger.pieces_withEntries, List.map_map] at htaken
    exact htaken
  have hlength : force.length = 2 := by
    rw [← List.length_map (f := Asset.id), hforce]
    rfl
  have hvalued : Context.valuedAtSea h.board ⟨0, 4, []⟩ .land = false := hland
  rw [hvalued] at hrecruit hbelow
  exact ⟨h, hset, hlists, by decide, _, _, force, hrecruit, hnamed, htaken, hforce,
    hbelow 1 (by rw [hlength]; decide), rfl⟩

end Scenario

end Conquest
