import Conquest.Proofs.Planned
import Conquest.Recruit.Chain

/-!
# Recruiting takes every piece once

A force is gathered from sources one after another. Every source offers pieces that stand by
themselves, each once, and a route that they can take; what is free of it is taken as it is named.

* `Serves`: what gathering needs of a source; `sources_serve`: all sources of all branches serve.
* `gather_drafts`: gathering from serving sources drafts.
-/

namespace Conquest

/-! ## Gathering -/

/-- A source that is good for gathering. -/
structure Serves (B : Brief) (s : Source) : Prop where
  nodup : B.board.Sound → (s.assets.map (·.id)).Nodup
  fit : ∀ as, as ≠ [] → as ⊆ s.assets → s.route.isEmpty = false →
    B.fit { pieces := as.map (·.id), route := s.route }
  spot : s.route.isEmpty = true → ∀ a ∈ s.assets, B.spot a.id

section Gathering

variable {b : Board} {c : Context} {e : Epoch} {loading : Bool} {spot : PieceId → Prop}
  {l : Ledger}

/-- What is taken from a source drafts the order that sends it, if it has to be sent at all. -/
theorem Drafts.orderFor {s : Source} (hs : Serves (brief b c e loading spot) s) {taken : List Asset}
    (hsub : taken ⊆ s.assets) (hl : l.pieces.Nodup) (hnodup : (taken.map (·.id)).Nodup)
    (hfree : ∀ u ∈ taken.map (·.id), u ∉ l.pieces) :
    Drafts (brief b c e loading spot) l
      (l.withEntries ((taken.map (·.id)).map (·, .moved)))
      (Requirement.orderFor taken s.route) := by
  unfold Requirement.orderFor
  -- nothing is sent if nothing is taken or if all of it is in place
  by_cases hnone : (taken.isEmpty || s.route.isEmpty) = true
  · rw [if_pos hnone]
    refine .of_moved hl hnodup hfree (by simp) (List.nil_sublist _) ?_
    intro _ u hu
    rcases List.mem_map.1 hu with ⟨a, ha, rfl⟩
    rw [Bool.or_eq_true, List.isEmpty_iff] at hnone
    rcases hnone with hnil | hemp
    · rw [hnil] at ha
      cases ha
    · have hspot : spot a.id := hs.spot hemp a (hsub ha)
      exact .inr (.inr hspot)
  · rw [if_neg hnone]
    rw [Bool.or_eq_true, not_or, List.isEmpty_iff, Bool.not_eq_true] at hnone
    exact .of_order hl hnodup hfree (hs.fit taken hnone.1 hsub hnone.2) (.refl _)
      fun _ u hu => .inl hu

theorem gather_drafts (r : Requirement) {sources : List Source}
    (hs : ∀ s ∈ sources, Serves (brief b c e loading spot) s) (force : List Asset)
    (orders : List Order) (hl : l.pieces.Nodup) (hepoch : l.epoch = e) :
    Ensures (brief b c e loading spot).Fails (r.gather sources force orders) l fun haul l' =>
      ∃ new, haul.orders = orders ++ new ∧ Drafts (brief b c e loading spot) l l' new := by
  induction sources generalizing force orders l with
  | nil => exact .pure ⟨[], (List.append_nil _).symm, .refl hl⟩
  | cons s rest ih =>
    unfold Requirement.gather
    split
    · exact .pure ⟨[], (List.append_nil _).symm, .refl hl⟩
    · refine .bind (.get ?_)
      -- the pool is what the ledger has free now, not when the sources were listed
      set pool := s.assets.filter fun a => !l.isCommitted a.id with hpool
      set taken := r.draw pool.length force pool with htaken
      have hdraw : taken.Subperm pool := r.draw_subperm pool.length force pool
      have hsub : taken ⊆ s.assets := fun a ha => (List.mem_filter.1 (hdraw.subset ha)).1
      have hfree : ∀ u ∈ taken.map (·.id), u ∉ l.pieces := by
        intro u hu
        rcases List.mem_map.1 hu with ⟨a, ha, rfl⟩
        have hkeep := (List.mem_filter.1 (hdraw.subset ha)).2
        rw [Bool.not_eq_true'] at hkeep
        exact Ledger.isCommitted_eq_false_iff.1 hkeep
      refine .bind (Ensures.commitEach_free hepoch (fun hb => ⟨?_, hfree⟩) ?_)
      · -- the requirement draws from the pool, which lists nothing twice
        have hall := (hs s List.mem_cons_self).nodup hb
        have hpoolNodup : (pool.map (·.id)).Nodup := hall.sublist (List.filter_sublist.map _)
        exact nodup_map_of_subperm hdraw hpoolNodup
      · intro hnodup _
        have hfirst := Drafts.orderFor (hs s List.mem_cons_self) hsub hl hnodup hfree
        refine (ih (fun x hx => hs x (List.mem_cons_of_mem _ hx)) (force ++ taken) _ hfirst.nodup
          hepoch).mono ?_
        intro haul l' hrest
        rcases hrest with ⟨new, horders, hdrafts⟩
        refine ⟨Requirement.orderFor taken s.route ++ new, ?_, hfirst.append hdrafts⟩
        rw [horders, List.append_assoc]

end Gathering

/-! ## Sources -/

theorem guard_bind_eq_some {α : Type} {c : Prop} [Decidable c] {f : Unit → Option α} {x : α} :
    ((guard c : Option Unit) >>= f) = some x ↔ c ∧ f () = some x := by
  unfold guard
  by_cases hc : c
  · rw [if_pos hc]
    constructor
    · intro h
      exact ⟨hc, h⟩
    · intro h
      exact h.2
  · rw [if_neg hc]
    constructor
    · intro h
      cases h
    · intro h
      exact absurd h.1 hc

namespace Context

variable {b : Board} {c : Context} {l : Ledger} {target : Target} {spot : PieceId → Prop}

/-- What a usable piece is. -/
theorem isUsable_iff {a : Asset} :
    c.isUsable b l a = true ↔ a.piece.owner = c.player ∧ a.id ∉ l.pieces ∧
      0 < a.piece.movementLeft ∧ a.kind.isInfrastructure = false ∧
      b.hasBattle a.piece.territory = false ∧
      (l.epoch = .combat ∨ a.piece.movedThisTurn = false) := by
  unfold isUsable
  simp only [Bool.and_eq_true, beq_iff_eq, Bool.not_eq_true', Ledger.isCommitted_eq_false_iff,
    decide_eq_true_eq, Bool.or_eq_true, and_assoc]

theorem allowsSource_iff {s : TerritoryId} :
    allowsSource target s = true ↔ s ≠ target.objective ∧ s ∉ target.exclude := by
  simp [allowsSource]

theorem isCombat_eq_false (h : l.epoch = .nonCombat) : isCombat l = false := by
  unfold isCombat
  rw [h]
  rfl

/-- Pieces of a pool that stand by themselves are listed once, in whatever order they come. -/
theorem nodup_of_perm (hb : b.Sound) {t : TerritoryId} {p : PlayerId} {as pool : List Asset}
    (hperm : as.Perm pool) (hsub : pool.Sublist (b.ownedIn t p))
    (halone : ∀ a ∈ pool, a.piece.carrier = none) : (as.map (·.id)).Nodup :=
  (hperm.map (·.id)).nodup_iff.2 (hb.nodup_alone hsub halone)

/-! ### Land -/

/-- What is known of a source of land pieces. -/
theorem of_landSource? {blitz : Bool} {t : TerritoryId} {s : Source}
    (h : c.landSource? b l target blitz t = some s) :
    t ≠ target.objective ∧
    b.atlas.routeInto? t target.objective (c.landPassable b blitz (isCombat l)) = some s.route ∧
    ∃ pool, pool.Sublist (b.ownedIn t c.player) ∧ s.assets.Perm pool ∧ ∀ a ∈ pool,
      a.kind.isLand = true ∧ a.piece.carrier = none ∧ (blitz = true → a.kind.canBlitz = true) ∧
      s.route.length ≤ a.piece.movementLeft := by
  unfold landSource? at h
  rcases guard_bind_eq_some.1 h with ⟨hallow, h⟩
  rcases guard_bind_eq_some.1 h with ⟨-, h⟩
  rw [Bool.and_eq_true, allowsSource_iff] at hallow
  rcases Option.bind_eq_some_iff.1 h with ⟨route, hroute, h⟩
  rcases guard_bind_eq_some.1 h with ⟨-, h⟩
  -- what passes the guards is the pool of the territory, in order of preference
  cases h
  refine ⟨hallow.1.1, hroute, _, List.filter_sublist, c.preferenceOrder_perm _ _, ?_⟩
  intro a ha
  have hkeep := (List.mem_filter.1 ha).2
  simp only [Bool.and_eq_true, Bool.not_eq_true', decide_eq_true_eq, Bool.or_eq_true] at hkeep
  rcases hkeep with ⟨⟨⟨⟨hland, halone⟩, hblitz⟩, hmoves⟩, -⟩
  refine ⟨hland, ?_, ?_, hmoves⟩
  · exact Asset.not_isAboard_iff.1 (Bool.not_eq_true _ ▸ halone)
  · intro hb
    rcases hblitz with hno | hyes
    · rw [hb] at hno
      cases hno
    · exact hyes

/-- Pieces of a land source march into enemy land. -/
theorem march_planned (hb : b.Sound) {blitz : Bool} {t : TerritoryId} {s : Source}
    (h : c.landSource? b l target blitz t = some s) {as : List Asset} (hsome : as ≠ [])
    (has : as ⊆ s.assets) (hgoal : b.isEnemyLand target.objective c.player = true) :
    Planned b c.rules c.player { pieces := as.map (·.id), route := s.route } := by
  rcases of_landSource? h with ⟨hne, hroute, pool, hsub, hperm, hpool⟩
  have hleads := Atlas.route?_leads hroute
  have hmem : ∀ a ∈ as, a ∈ pool := fun a ha => hperm.mem_iff.1 (has ha)
  refine .march as s.route hsome ?_ ?_ ?_ hleads.walk (hleads.isEmpty_eq_false hne) ?_ ?_
  · intro a ha
    rw [hleads.start_eq]
    exact hb.stands (hsub.subset (hmem a ha)) (hpool a (hmem a ha)).2.1
  · intro a ha
    exact (hpool a (hmem a ha)).1
  · intro a ha
    exact (hpool a (hmem a ha)).2.2.2
  · intro x hx
    have hway := Atlas.routeInto?_between hroute x hx
    unfold landPassable at hway
    simp only [Bool.and_eq_true, Bool.not_eq_true', Bool.or_eq_true] at hway
    rcases hway with ⟨⟨hforce, -⟩, hland⟩
    refine ⟨hforce, hland.imp id ?_⟩
    -- enemy land is only open to a source where all can blitz
    rintro ⟨⟨⟨hblitz, -⟩, hrule⟩, henemy⟩
    have hall : ∀ a ∈ as, a.kind.canBlitz = true := fun a ha =>
      (hpool a (hmem a ha)).2.2.1 hblitz
    exact ⟨hall, hrule, henemy⟩
  · rw [hleads.dest_eq]
    exact hgoal

/-- The sources of land pieces are those of single territories, in another order. -/
theorem mem_landSources {blitz : Bool} {s : Source} : s ∈ c.landSources b l target blitz ↔
    b.atlas.isPassableLand target.objective = true ∧
    (isCombat l = false → b.isFriendlyLand target.objective c.player = true) ∧
    ∃ t ∈ b.atlas.neighborsWithin target.objective (greatestMovement (b.kindsWhere (·.isLand)))
      b.atlas.isPassableLand, c.landSource? b l target blitz t = some s := by
  unfold landSources
  dsimp only
  by_cases hclosed : (!b.atlas.isPassableLand target.objective ||
      (!isCombat l && !b.isFriendlyLand target.objective c.player)) = true
  · rw [if_pos hclosed]
    constructor
    · intro hs
      -- a closed objective has no sources
      cases hs
    · rintro ⟨hpassable, hfriendly, -⟩
      rw [hpassable, Bool.not_true, Bool.false_or, Bool.and_eq_true, Bool.not_eq_true',
        Bool.not_eq_true'] at hclosed
      rw [hfriendly hclosed.1] at hclosed
      cases hclosed.2
  · rw [if_neg hclosed]
    rw [Bool.or_eq_true, not_or, Bool.and_eq_true, Bool.not_eq_true', Bool.not_eq_true',
      Bool.not_eq_true', Bool.not_eq_false, not_and, Bool.not_eq_false] at hclosed
    simp only [List.mem_map, mem_sortBy, List.mem_filterMap, Option.map_eq_some_iff]
    constructor
    · rintro ⟨_, ⟨t, ht, source, hsource, rfl⟩, rfl⟩
      exact ⟨hclosed.1, hclosed.2, t, ht, hsource⟩
    · rintro ⟨-, -, t, ht, hsource⟩
      exact ⟨_, ⟨t, ht, s, hsource, rfl⟩, rfl⟩

theorem landSources_serve {blitz : Bool}
    (hobj : b.Sound → l.epoch = .combat → b.IsTarget c.player target.objective) :
    ∀ s ∈ c.landSources b l target blitz, Serves (brief b c l.epoch false spot) s := by
  intro s hs
  rcases mem_landSources.1 hs with ⟨hpassable, hfriendly, t, -, hfind⟩
  rcases of_landSource? hfind with ⟨hne, hroute, pool, hsub, hperm, hpool⟩
  have hleads := Atlas.route?_leads hroute
  have hleaves := hleads.isEmpty_eq_false hne
  refine ⟨?_, ?_, ?_⟩
  · intro hb
    exact nodup_of_perm hb hperm hsub fun a ha => (hpool a ha).2.1
  · intro as hne' has _ hb
    refine ⟨?_, fun he => .inl ?_, rfl⟩
    · intro he
      exact march_planned hb hfind hne' has ((hobj hb he).isEnemyLand hpassable)
    · rw [hleads.dest_eq]
      exact hfriendly (isCombat_eq_false he)
  · intro hemp
    rw [hleaves] at hemp
    cases hemp

/-! ### Aircraft -/

/-- What is known of a source of aircraft. -/
theorem of_airSource? {t : TerritoryId} {s : Source} (h : c.airSource? b l target t = some s) :
    t ≠ target.objective ∧ b.atlas.route? t target.objective b.atlas.isOpen = some s.route ∧
    ∃ pool, pool.Sublist (b.ownedIn t c.player) ∧ s.assets.Perm pool ∧ ∀ a ∈ pool,
      a.kind.isAir = true ∧ s.route.length ≤ a.piece.movementLeft ∧
      (isCombat l = false → b.isLandable c.player target.objective = true) := by
  unfold airSource? at h
  rcases guard_bind_eq_some.1 h with ⟨hallow, h⟩
  rw [allowsSource_iff] at hallow
  rcases Option.bind_eq_some_iff.1 h with ⟨route, hroute, h⟩
  rcases guard_bind_eq_some.1 h with ⟨-, h⟩
  cases h
  refine ⟨hallow.1, hroute, _, List.filter_sublist, c.preferenceOrder_perm _ _, ?_⟩
  intro a ha
  have hkeep := (List.mem_filter.1 ha).2
  simp only [Bool.and_eq_true, decide_eq_true_eq] at hkeep
  rcases hkeep with ⟨⟨⟨hair, hmoves⟩, hland⟩, -⟩
  refine ⟨hair, hmoves, ?_⟩
  intro hpeace
  unfold canLandAfter at hland
  rw [hpeace] at hland
  exact hland

theorem isFriendlyLand_of_isLandable {p : PlayerId} {t : TerritoryId}
    (h : b.isLandable p t = true) : b.isFriendlyLand t p = true := by
  unfold Board.isLandable at h
  rw [Bool.and_eq_true] at h
  exact h.1

theorem airSources_serve
    (hobj : b.Sound → l.epoch = .combat → b.IsTarget c.player target.objective) :
    ∀ s ∈ c.airSources b l target, Serves (brief b c l.epoch false spot) s := by
  intro s hs
  unfold airSources at hs
  dsimp only at hs
  rw [mem_sortBy, List.mem_filterMap] at hs
  rcases hs with ⟨t, -, hsource⟩
  rcases of_airSource? hsource with ⟨hne, hroute, pool, hsub, hperm, hpool⟩
  have hleads := Atlas.route?_leads hroute
  have hleaves := hleads.isEmpty_eq_false hne
  -- aircraft are never cargo
  have halone : b.Sound → ∀ a ∈ pool, a.piece.carrier = none := fun hb a ha =>
    hb.alone (hsub.subset ha) (PieceKind.isLand_eq_false (.inr (hpool a ha).1))
  refine ⟨fun hb => nodup_of_perm hb hperm hsub (halone hb), ?_, ?_⟩
  · intro as hsome has _ hb
    have hmem : ∀ a ∈ as, a ∈ pool := fun a ha => hperm.mem_iff.1 (has ha)
    refine ⟨?_, fun he => .inl ?_, rfl⟩
    · intro he
      refine .fly as s.route hsome ?_ ?_ ?_ hleads.walk hleaves hleads.passable ?_
      · intro a ha
        rw [hleads.start_eq]
        exact hb.stands (hsub.subset (hmem a ha)) (halone hb a (hmem a ha))
      · intro a ha
        exact (hpool a (hmem a ha)).1
      · intro a ha
        exact (hpool a (hmem a ha)).2.1
      · rw [hleads.dest_eq]
        exact hobj hb he
    · rcases List.exists_mem_of_ne_nil as hsome with ⟨a, ha⟩
      rw [hleads.dest_eq]
      have hlandable := (hpool a (hmem a ha)).2.2 (isCombat_eq_false he)
      exact isFriendlyLand_of_isLandable hlandable
  · intro hemp
    rw [hleaves] at hemp
    cases hemp

/-! ### Ships -/

theorem isSafeWater_iff {t : TerritoryId} :
    c.isSafeWater b t = true ↔ b.atlas.isWater t = true ∧ b.hasEnemyForce t c.player = false := by
  unfold isSafeWater
  rw [Bool.and_eq_true, Bool.not_eq_true']

/-- What is known of a source of warships. -/
theorem of_shipSource? {t : TerritoryId} {x : Float32 × Source}
    (h : c.shipSource? b l target t = some x) :
    t ≠ target.objective ∧
    b.atlas.routeInto? t target.objective (c.isSafeWater b) = some x.2.route ∧
    ∃ pool, pool.Sublist (b.ownedIn t c.player) ∧ x.2.assets.Perm pool ∧ ∀ a ∈ pool,
      (a.kind.isSea = true ∨ a.kind.isAir = true) ∧ x.2.route.length ≤ a.piece.movementLeft := by
  unfold shipSource? at h
  rcases guard_bind_eq_some.1 h with ⟨hallow, h⟩
  rw [allowsSource_iff] at hallow
  rcases Option.bind_eq_some_iff.1 h with ⟨route, hroute, h⟩
  rcases guard_bind_eq_some.1 h with ⟨-, h⟩
  cases h
  refine ⟨hallow.1, hroute, _, List.filter_sublist, c.preferenceOrder_perm _ _, ?_⟩
  intro a ha
  have hkeep := (List.mem_filter.1 ha).2
  unfold PieceKind.isCarrierBorne at hkeep
  simp only [Bool.and_eq_true, Bool.or_eq_true, decide_eq_true_eq] at hkeep
  rcases hkeep with ⟨⟨hkind, hmoves⟩, -⟩
  exact ⟨hkind.imp (·.1) (·.1), hmoves⟩

/-- Pieces of a pool of ships sail along a route over safe water. -/
theorem sail_planned (hb : b.Sound) {t : TerritoryId} {as pool : List Asset} {route : Route}
    {goal : TerritoryId} {passable : TerritoryId → Bool}
    (hsub : pool.Sublist (b.ownedIn t c.player))
    (hpool : ∀ a ∈ pool, (a.kind.isSea = true ∨ a.kind.isAir = true) ∧
      route.length ≤ a.piece.movementLeft)
    (hsome : as ≠ []) (hmem : as ⊆ pool) (hleads : b.atlas.Leads passable t goal route)
    (hleaves : route.isEmpty = false) (hwater : ∀ x ∈ route.steps, b.atlas.isWater x = true)
    (hway : ∀ x ∈ route.between, b.hasEnemyForce x c.player = false) :
    Planned b c.rules c.player { pieces := as.map (·.id), route } := by
  refine .sail as route hsome ?_ ?_ ?_ hleads.walk hleaves hwater hway
  · intro a ha
    rw [hleads.start_eq]
    have hown := hsub.subset (hmem ha)
    have hland : a.kind.isLand = false := PieceKind.isLand_eq_false (hpool a (hmem ha)).1
    exact hb.stands hown (hb.alone hown hland)
  · intro a ha
    exact (hpool a (hmem ha)).1
  · intro a ha
    exact (hpool a (hmem ha)).2

theorem shipSources_serve (hepoch : l.epoch = .combat) :
    ∀ s ∈ c.shipSources b l target, Serves (brief b c l.epoch false spot) s := by
  intro s hs
  unfold shipSources at hs
  split at hs
  · rename_i hwater
    dsimp only at hs
    rcases List.mem_map.1 hs with ⟨x, hx, rfl⟩
    rw [mem_sortBy, List.mem_filterMap] at hx
    rcases hx with ⟨t, -, hsource⟩
    rcases of_shipSource? hsource with ⟨hne, hroute, pool, hsub, hperm, hpool⟩
    have hleads := Atlas.route?_leads hroute
    have hleaves := hleads.isEmpty_eq_false hne
    refine ⟨fun hb => nodup_of_perm hb hperm hsub fun a ha =>
      hb.alone (hsub.subset ha) (PieceKind.isLand_eq_false (hpool a ha).1), ?_, ?_⟩
    · intro as hsome has _ hb
      refine ⟨?_, ?_, rfl⟩
      · intro _
        refine sail_planned hb hsub hpool hsome (fun a ha => hperm.mem_iff.1 (has ha)) hleads
          hleaves ?_ ?_
        · intro x hx
          have hpass := hleads.passable x hx
          rw [Bool.or_eq_true, beq_iff_eq, isSafeWater_iff] at hpass
          -- the objective itself may be guarded
          rcases hpass with rfl | hsafe
          · exact hwater
          · exact hsafe.1
        · intro x hx
          exact (isSafeWater_iff.1 (Atlas.routeInto?_between hroute x hx)).2
      · intro he
        rw [hepoch] at he
        cases he
    · intro hemp
      rw [hleaves] at hemp
      cases hemp
  · cases hs

/-- What is known of a source of bombarding ships. -/
theorem of_bombardSource? {z t : TerritoryId} {s : Source}
    (h : c.bombardSource? b l target z t = some s) :
    b.atlas.route? t z (c.isSafeWater b) = some s.route ∧
    ∃ pool, pool.Sublist (b.ownedIn t c.player) ∧ s.assets.Perm pool ∧ ∀ a ∈ pool,
      a.kind.canBombard = true ∧ a.kind.isSea = true ∧ s.route.length ≤ a.piece.movementLeft := by
  unfold bombardSource? at h
  rcases guard_bind_eq_some.1 h with ⟨-, h⟩
  rcases Option.bind_eq_some_iff.1 h with ⟨route, hroute, h⟩
  rcases guard_bind_eq_some.1 h with ⟨-, h⟩
  cases h
  refine ⟨hroute, _, List.filter_sublist, c.preferenceOrder_perm true _, ?_⟩
  intro a ha
  have hkeep := (List.mem_filter.1 ha).2
  simp only [Bool.and_eq_true, decide_eq_true_eq] at hkeep
  rcases hkeep with ⟨⟨⟨hbombard, hsea⟩, hmoves⟩, -⟩
  -- bombarding ships are asked for one step even to stay
  exact ⟨hbombard, hsea, (Nat.le_max_left _ _).trans hmoves⟩

/-- Bombarding ships sail to a zone next to the objective, or serve where they stand. -/
theorem bombardSources_serve
    (hspot : ∀ u, b.Bombards c.player target.objective u → spot u) :
    ∀ s ∈ c.bombardSources b l target, Serves (brief b c l.epoch false spot) s := by
  intro s hs
  unfold bombardSources at hs
  dsimp only at hs
  split at hs
  · cases hs
  · rw [mem_sortBy] at hs
    rcases List.mem_flatMap.1 hs with ⟨z, hz, hs⟩
    rcases List.mem_filter.1 hz with ⟨hz, hsafe⟩
    rcases List.mem_filterMap.1 hs with ⟨t, -, hsource⟩
    rcases of_bombardSource? hsource with ⟨hroute, pool, hsub, hperm, hpool⟩
    have hleads := Atlas.route?_leads hroute
    have hpool' : ∀ a ∈ pool, (a.kind.isSea = true ∨ a.kind.isAir = true) ∧
        s.route.length ≤ a.piece.movementLeft :=
      fun a ha => ⟨.inl (hpool a ha).2.1, (hpool a ha).2.2⟩
    refine ⟨fun hb => nodup_of_perm hb hperm hsub fun a ha =>
      hb.alone (hsub.subset ha) (PieceKind.isLand_eq_false (hpool' a ha).1), ?_, ?_⟩
    · intro as hsome has hleaves hb
      refine ⟨?_, fun _ => .inr ?_, rfl⟩
      · intro _
        refine sail_planned hb hsub hpool' hsome (fun a ha => hperm.mem_iff.1 (has ha)) hleads
          hleaves ?_ ?_
        · intro x hx
          exact (isSafeWater_iff.1 (hleads.passable x hx)).1
        · exact fun x hx =>
            (isSafeWater_iff.1 (hleads.passable x (List.dropLast_subset _ hx))).2
      · rw [hleads.dest_eq]
        exact isSafeWater_iff.1 hsafe
    · intro hemp a ha
      -- a route of no steps starts where it ends
      have hta : t = z := by
        rw [← hleads.start_eq, ← hleads.dest_eq, Route.dest, Route.isEmpty_iff.1 hemp]
        rfl
      have hmem := hperm.mem_iff.1 ha
      refine hspot a.id ⟨z, hz, (isSafeWater_iff.1 hsafe).1, a, ?_, rfl, (hpool a hmem).1,
        (hpool a hmem).2.1⟩
      exact hta ▸ hsub.subset hmem

/-- All sources serve; warships are not recruited outside combat. -/
theorem sources_serve {branch : Branch}
    (hobj : b.Sound → l.epoch = .combat → b.IsTarget c.player target.objective)
    (hspot : branch = .bombard → ∀ u, b.Bombards c.player target.objective u → spot u)
    (hships : branch = .ships → l.epoch = .combat) :
    ∀ s ∈ c.sources b l target branch, Serves (brief b c l.epoch false spot) s := by
  cases branch with
  | blitz => exact landSources_serve hobj
  | land => exact landSources_serve hobj
  | air => exact airSources_serve hobj
  | transports =>
    intro s hs
    cases hs
  | ships => exact shipSources_serve (hships rfl)
  | bombard => exact bombardSources_serve (hspot rfl)

end Context

end Conquest
