import Conquest.Phase.NonCombat
import Conquest.Proofs.CombatMove

/-!
# The non-combat move drafts and ends on friendly ground

Every order outside combat ends on friendly land or on water without an enemy force. Idle pieces
stand by themselves and are free, so no phase takes one twice; only the recruiting by sea can.

* `collect_groups_drafts`: sending idle pieces in groups of equal movement.
* `safePart?_mem`: a route that stops short ends on the full route.
* `reinforceCapital_drafts`, …, `transportUnload_drafts`: the phases.
-/

namespace Conquest.Context

variable {b : Board} {c : Context} {l : Ledger} {spot : PieceId → Prop}

/-- Outside combat only the end of an order matters. -/
theorem fit_of_haven {loading : Bool} {o : Order} (hload : o.isLoad = loading)
    (h : b.Sound → b.IsHaven c.player o.route.dest) :
    (brief b c .nonCombat loading spot).fit o :=
  fun hb => ⟨by simp, fun _ => h hb, hload⟩

/-- Sending free pieces to friendly ground drafts, and takes only them. -/
theorem send_drafts {us : List PieceId} {route : Route} (hl : l.pieces.Nodup)
    (hepoch : l.epoch = .nonCombat) (hfree : b.Sound → us.Nodup ∧ ∀ u ∈ us, u ∉ l.pieces)
    (hhaven : b.Sound → b.IsHaven c.player route.dest) :
    Ensures (brief b c .nonCombat false spot).Fails
      (do
        Planning.commitAll us
        return [{ pieces := us, route }]) l fun orders l' =>
      Drafts (brief b c .nonCombat false spot) l l' orders ∧
        ∀ u ∈ l'.pieces, u ∈ l.pieces ∨ u ∈ us := by
  refine .bind (Ensures.commitAll_free hepoch hfree ?_)
  intro hnodup hnew
  refine .pure ⟨?_, ?_⟩
  · exact .of_order hl hnodup hnew (fit_of_haven rfl hhaven) (.refl us) fun _ u hu => .inl hu
  · intro u hu
    exact Ledger.mem_pieces_moved.1 hu

/-- Sending one free piece to a haven drafts. -/
theorem sendOne_drafts {u : PieceId} {route : Route} (hl : l.pieces.Nodup)
    (hepoch : l.epoch = .nonCombat) (hfree : u ∉ l.pieces)
    (hhaven : b.Sound → b.IsHaven c.player route.dest) :
    Ensures (brief b c .nonCombat false spot).Fails
      (do
        Planning.apply (·.commit u)
        return [{ pieces := [u], route }]) l fun orders l' =>
      Drafts (brief b c .nonCombat false spot) l l' orders := by
  have hsend : Ensures (brief b c .nonCombat false spot).Fails
      (do
        Planning.commitAll [u]
        return [{ pieces := [u], route }]) l fun orders l' =>
      Drafts (brief b c .nonCombat false spot) l l' orders ∧
        ∀ w ∈ l'.pieces, w ∈ l.pieces ∨ w ∈ [u] :=
    send_drafts hl hepoch (fun _ => ⟨List.nodup_singleton u, by simpa using hfree⟩) hhaven
  exact hsend.mono fun _ _ h => h.1

/-- Sending a free ship to a haven drafts, and takes only the ship and what is aboard it. -/
theorem sendShip_drafts {zone : TerritoryId} {ship : Asset} {o : Order} (hl : l.pieces.Nodup)
    (hepoch : l.epoch = .nonCombat) (hship : ship ∈ b.ownedIn zone c.player)
    (hsea : ship.kind.isSea = true) (hfree : b.Sound → ship.id ∉ l.pieces)
    (hpieces : o.pieces = [ship.id]) (hload : o.isLoad = false)
    (hhaven : b.IsHaven c.player o.route.dest) :
    Ensures (brief b c .nonCombat false spot).Fails
      (do
        Planning.commitAll (ship.id :: (b.cargoOf ship.id).filter fun u => !l.isCommitted u)
        return [o]) l fun orders l' =>
      Drafts (brief b c .nonCombat false spot) l l' orders ∧
        ∀ u ∈ l'.pieces, u ∈ l.pieces ∨ u = ship.id ∨ u ∈ b.cargoOf ship.id := by
  -- what is aboard and taken already is left out of the batch
  have hcrew : b.Sound →
      (ship.id :: (b.cargoOf ship.id).filter fun u => !l.isCommitted u).Nodup ∧
      ∀ u ∈ ship.id :: (b.cargoOf ship.id).filter fun u => !l.isCommitted u, u ∉ l.pieces := by
    intro hb
    rcases Board.asset?_eq_some.1 (hb.asset?_of_mem (Board.mem_ownedIn.1 hship).1) with
      ⟨hpiece, hkind⟩
    refine ⟨hb.nodup_crew hpiece (hkind ▸ hsea) List.filter_sublist, ?_⟩
    intro u hu
    rcases List.mem_cons.1 hu with rfl | hu
    · exact hfree hb
    · have hkeep := (List.mem_filter.1 hu).2
      rw [Bool.not_eq_true', Ledger.isCommitted_eq_false_iff] at hkeep
      exact hkeep
  refine .bind (Ensures.commitAll_free hepoch hcrew ?_)
  intro hnodup hnew
  refine .pure ⟨?_, ?_⟩
  · refine .of_order hl hnodup hnew (fit_of_haven hload fun _ => hhaven) ?_ ?_
    · rw [hpieces]
      exact (List.nil_sublist _).cons_cons _
    · intro _ u hu
      rw [hpieces]
      rcases List.mem_cons.1 hu with rfl | hu
      · exact .inl (List.mem_singleton_self _)
      · exact .inr ⟨ship.id, List.mem_singleton_self _, (List.mem_filter.1 hu).1⟩
  · intro u hu
    rw [Ledger.mem_pieces_moved, List.mem_cons] at hu
    exact hu.imp id (Or.imp id fun hu => (List.mem_filter.1 hu).1)

/-! ## Idle pieces -/

/-- What is known of an idle piece. -/
theorem mem_idle {t : TerritoryId} {a : Asset} (h : a ∈ c.idle b l t) :
    a ∈ b.ownedIn t c.player ∧ a.piece.carrier = none ∧ a.id ∉ l.pieces := by
  rcases List.mem_filter.1 h with ⟨hown, hkeep⟩
  simp only [Bool.and_eq_true, Bool.not_eq_true', decide_eq_true_eq,
    Ledger.isCommitted_eq_false_iff] at hkeep
  exact ⟨hown, Asset.not_isAboard_iff.1 (Bool.not_eq_true _ ▸ hkeep.1.2), hkeep.2⟩

theorem nodup_idle (hb : b.Sound) {t : TerritoryId} {as : List Asset}
    (hsub : as.Sublist (c.idle b l t)) : (as.map (·.id)).Nodup :=
  hb.nodup_alone (hsub.trans List.filter_sublist) fun _ ha => (mem_idle (hsub.subset ha)).2.1

/-- Sending idle pieces in groups of equal movement drafts if sending one group does. -/
theorem collect_groups_drafts {f : Nat × List Asset → Planning (List Order)} {t : TerritoryId}
    {pool : List Asset} (hpool : pool.Sublist (c.idle b l t))
    (hstep : ∀ g ∈ byMovement pool, ∀ l₁ : Ledger, l₁.pieces.Nodup → l₁.epoch = .nonCombat →
      (b.Sound → (g.2.map (·.id)).Nodup ∧ ∀ u ∈ g.2.map (·.id), u ∉ l₁.pieces) →
      Ensures (brief b c .nonCombat false spot).Fails (f g) l₁ fun orders l₂ =>
        Drafts (brief b c .nonCombat false spot) l₁ l₂ orders ∧
        ∀ u ∈ l₂.pieces, u ∈ l₁.pieces ∨ u ∈ g.2.map (·.id))
    (hl : l.pieces.Nodup) (hepoch : l.epoch = .nonCombat) :
    Ensures (brief b c .nonCombat false spot).Fails (collect f (byMovement pool)) l
      fun orders l' => Drafts (brief b c .nonCombat false spot) l l' orders := by
  -- the groups that are still to come are free
  refine (Ensures.collect (J := fun rest l₁ out => rest.Sublist (byMovement pool) ∧
    Drafts (brief b c .nonCombat false spot) l l₁ out ∧
    (b.Sound → ∀ g ∈ rest, ∀ u ∈ g.2.map (·.id), u ∉ l₁.pieces)) ?_
    ⟨.refl _, .refl hl, ?_⟩).mono fun orders l' h => h.2.1
  · rintro g rest l₁ out ⟨hsub, hdrafts, hfree⟩
    have hg : g ∈ byMovement pool := hsub.subset List.mem_cons_self
    refine (hstep g hg l₁ hdrafts.nodup (hdrafts.epoch.trans hepoch) fun hb => ⟨?_, ?_⟩).mono
      fun orders l₂ hround => ⟨(List.sublist_cons_self _ _).trans hsub,
        hdrafts.append hround.1, ?_⟩
    · exact nodup_idle hb ((groupByKey_sublist hg).trans hpool)
    · exact hfree hb g List.mem_cons_self
    · intro hb g' hg' u hu hin
      rcases hround.2 u hin with hin | hin
      · exact hfree hb g' (List.mem_cons_of_mem _ hg') u hu hin
      · rcases List.mem_map.1 hin with ⟨a, ha, hid⟩
        rcases List.mem_map.1 hu with ⟨a', ha', hid'⟩
        have hmem := (groupByKey_sublist hg).subset ha
        have hmem' := (groupByKey_sublist (hsub.subset (List.mem_cons_of_mem _ hg'))).subset ha'
        -- one piece cannot be in two groups
        have hsame :=
          List.inj_on_of_nodup_map (nodup_idle hb hpool) hmem hmem' (hid.trans hid'.symm)
        have hdisjoint := (groupByKey_disjoint _ pool).sublist hsub
        exact List.rel_of_pairwise_cons hdisjoint hg' ha (hsame ▸ ha')
  · intro _ g hg u hu
    rcases List.mem_map.1 hu with ⟨a, ha, rfl⟩
    have hmem : a ∈ pool := (groupByKey_sublist hg).subset ha
    exact (mem_idle (hpool.subset hmem)).2.2

/-! ## Routes that stop short -/

/-- A route that stops short ends on the full route. -/
theorem safePart?_mem {route part : Route} {group : List Asset}
    (h : c.safePart? b route group = some part) : part.dest ∈ route.steps := by
  rcases List.mem_map.1 (List.mem_of_find?_eq_some h) with ⟨k, hk, rfl⟩
  have hlt : k < route.length := List.mem_range.1 (List.mem_reverse.1 hk)
  refine Route.steps_truncate_subset route (k + 1) (Route.dest_mem_steps ?_)
  rw [Bool.eq_false_iff, Ne, Route.isEmpty_iff]
  intro hnil
  -- a part has at least one step
  have hlen := route.length_truncate (k + 1)
  rw [Route.length, hnil, List.length_nil] at hlen
  omega

/-- Sailing part of a safe route ends in safe water. -/
theorem haven_of_safePart? {zone station : TerritoryId} {full part : Route} {n : Nat}
    {group : List Asset} (hroute : b.atlas.route? zone station (c.isSafeWater b) = some full)
    (hpart : c.safePart? b (full.truncate n) group = some part) : b.IsHaven c.player part.dest := by
  have hmem := Route.steps_truncate_subset full n (safePart?_mem hpart)
  have hsafe := (Atlas.route?_leads hroute).passable _ hmem
  exact .inr (isSafeWater_iff.1 hsafe)

/-! ## Capital and transports -/

theorem loadForNextTurn_drafts {e : Epoch} (hl : l.pieces.Nodup) (hepoch : l.epoch = e) :
    Ensures (brief b c e true spot).Fails (c.loadForNextTurn b) l fun orders l' =>
      Drafts (brief b c e true spot) l l' orders := by
  unfold loadForNextTurn
  split
  · exact .pure (.refl hl)
  · exact loadTransports_drafts hl hepoch

/-- Outside combat recruiting over land, by sea and by air drafts. -/
theorem reinforce_drafts {target : Target} {branches : List Branch} (hl : l.pieces.Nodup)
    (hepoch : l.epoch = .nonCombat) (hbranches : ∀ x ∈ branches, x ≠ .ships ∧ x ≠ .bombard) :
    Ensures (brief b c .nonCombat false spot).Fails (c.recruitChain b target branches {}) l
      fun haul l' => Drafts (brief b c .nonCombat false spot) l l' haul.orders := by
  rw [← hepoch]
  -- neither warships nor bombardment are recruited, and no target is needed
  refine (recruitChain_drafts {} hl ?_ (fun h => absurd rfl (hbranches _ h).2)
    fun h => absurd rfl (hbranches _ h).1).mono ?_
  · intro _ he
    rw [hepoch] at he
    cases he
  · intro haul l' hgot
    rcases hgot with ⟨new, horders, hdrafts⟩
    have hsame : haul.orders = new := horders
    exact hsame ▸ hdrafts

theorem reinforceCapital_drafts (hl : l.pieces.Nodup) (hepoch : l.epoch = .nonCombat) :
    Ensures (brief b c .nonCombat false spot).Fails (c.reinforceCapital b) l fun orders l' =>
      Drafts (brief b c .nonCombat false spot) l l' orders := by
  unfold reinforceCapital
  split
  · exact .pure (.refl hl)
  · refine .bind ((reinforce_drafts hl hepoch (by simp)).mono ?_)
    intro haul l₁ hfirst
    refine .bind ((Ensures.holdEach hfirst.nodup).mono ?_)
    intro _ l' hheld
    refine .pure ?_
    have hall := hfirst.append hheld.1
    rw [List.append_nil] at hall
    exact hall

theorem navalReposition_drafts (hl : l.pieces.Nodup) (hepoch : l.epoch = .nonCombat) :
    Ensures (brief b c .nonCombat false spot).Fails (c.navalReposition b) l fun orders l' =>
      Drafts (brief b c .nonCombat false spot) l l' orders := by
  unfold navalReposition
  split
  · exact .pure (.refl hl)
  · refine Ensures.collect_drafts ?_ hl hepoch
    intro zone _ l hl hepoch
    split
    · exact .pure (.refl hl)
    · refine .bind (.get ?_)
      dsimp only
      split
      · exact .pure (.refl hl)
      · split
        · exact .pure (.refl hl)
        · rename_i full hroute
          refine collect_groups_drafts List.filter_sublist ?_
            hl hepoch
          intro g _ l₁ hl₁ hepoch₁ hfree
          split
          · exact .pure ⟨.refl hl₁, fun u hu => .inl hu⟩
          · rename_i route hpart
            exact send_drafts hl₁ hepoch₁ hfree fun _ => haven_of_safePart? hroute hpart

/-- Sailing the idle transports of a zone drafts: nothing idle is aboard a transport. -/
theorem amphibiousReinforce_drafts (hl : l.pieces.Nodup) (hepoch : l.epoch = .nonCombat) :
    Ensures (brief b c .nonCombat false spot).Fails (c.amphibiousReinforce b) l fun orders l' =>
      Drafts (brief b c .nonCombat false spot) l l' orders := by
  unfold amphibiousReinforce
  split
  · exact .pure (.refl hl)
  · refine Ensures.collect_drafts ?_ hl hepoch
    intro zone _ l hl hepoch
    split
    · exact .pure (.refl hl)
    · refine .bind (.get ?_)
      refine (Ensures.collect (J := fun rest l₁ out => rest.Sublist (c.idle b l zone) ∧
        Drafts (brief b c .nonCombat false spot) l l₁ out ∧
        (b.Sound → ∀ a ∈ rest, a.id ∉ l₁.pieces)) ?_
        ⟨.refl _, .refl hl, fun _ a ha => (mem_idle ha).2.2⟩).mono fun orders l' h => h.2.1
      rintro a rest l₁ out ⟨hsub, hdrafts, hfree⟩
      have hrest : rest.Sublist (c.idle b l zone) := (List.sublist_cons_self _ _).trans hsub
      have hkeep : b.Sound → ∀ x ∈ rest, x.id ∉ l₁.pieces := fun hb x hx =>
        hfree hb x (List.mem_cons_of_mem _ hx)
      dsimp only
      split
      · refine .pure ⟨hrest, ?_, hkeep⟩
        rw [List.append_nil]
        exact hdrafts
      · rename_i hguard
        rw [Bool.or_eq_true, not_or, Bool.not_eq_true', Bool.not_eq_false] at hguard
        split
        · refine .pure ⟨hrest, ?_, hkeep⟩
          rw [List.append_nil]
          exact hdrafts
        · rename_i route hroute
          rcases Option.bind_eq_some_iff.1 hroute with ⟨full, hfull, hpart⟩
          rcases mem_idle (hsub.subset List.mem_cons_self) with ⟨hown, -, -⟩
          have hcarries := PieceKind.carriesCargo_of_isTransport hguard.1
          have hsea := (PieceKind.carriesCargo_iff.1 hcarries).1
          refine .bind (.get ((sendShip_drafts hdrafts.nodup (hdrafts.epoch.trans hepoch) hown
            hsea (fun hb => hfree hb a List.mem_cons_self) rfl rfl
            (haven_of_safePart? hfull hpart)).mono ?_))
          intro got l₂ hsent
          refine ⟨hrest, hdrafts.append hsent.1, ?_⟩
          intro hb x hx hin
          -- a later transport is neither this one nor aboard it
          rcases hsent.2 x.id hin with hin | heq | hin
          · exact hkeep hb x hx hin
          · have hnodup := nodup_idle hb hsub
            rw [List.map_cons, List.nodup_cons] at hnodup
            exact hnodup.1 (heq ▸ List.mem_map_of_mem hx)
          · rcases mem_idle (hrest.subset hx) with ⟨hown', halone', -⟩
            have hasset := hb.asset?_of_mem (Board.mem_ownedIn.1 hown).1
            exact (hb.stands hown' halone').notMem_cargoOf hb hasset hsea hin

/-! ## Aircraft -/

theorem haven_of_isLandable {t : TerritoryId} (h : b.isLandable c.player t = true) :
    b.IsHaven c.player t :=
  .inl (isFriendlyLand_of_isLandable h)

theorem isLandable_of_mem_airBases {t : TerritoryId} (h : t ∈ c.airBases b) :
    b.isLandable c.player t = true :=
  (List.mem_filter.1 (mem_bestFirst.1 h)).2

/-- A route to the best base ends in a base. -/
theorem dest_mem_of_bestBase? {bases : List TerritoryId} {source : TerritoryId} {movement : Nat}
    {route : Route} (h : bestBase? b bases source movement = some route) : route.dest ∈ bases := by
  rcases List.exists_of_findSome?_eq_some h with ⟨base, hbase, hroute⟩
  -- the base may be where the group already stands
  split at hroute
  · cases hroute
    rename_i heq
    exact heq ▸ hbase
  · rw [Option.filter_eq_some_iff] at hroute
    exact (Atlas.route?_leads hroute.1).dest_eq.symm ▸ hbase

theorem airReposition_drafts (hl : l.pieces.Nodup) (hepoch : l.epoch = .nonCombat) :
    Ensures (brief b c .nonCombat false spot).Fails (c.airReposition b) l fun orders l' =>
      Drafts (brief b c .nonCombat false spot) l l' orders := by
  unfold airReposition
  refine Ensures.collect_drafts ?_ hl hepoch
  intro source _ l hl hepoch
  refine .bind (.get ?_)
  refine collect_groups_drafts List.filter_sublist ?_ hl hepoch
  intro g _ l₁ hl₁ hepoch₁ hfree
  rcases g with ⟨movement, group⟩
  dsimp only
  split
  · rename_i route hroute
    rw [Option.filter_eq_some_iff] at hroute
    exact send_drafts hl₁ hepoch₁ hfree fun _ =>
      haven_of_isLandable (isLandable_of_mem_airBases (dest_mem_of_bestBase? hroute.1))
  · -- without a base in reach the group is held where it is
    refine .bind ((Ensures.holdEach (f := id) hl₁).mono ?_)
    intro _ l₂ hheld
    refine .pure ⟨hheld.1, ?_⟩
    intro u hu
    have hin := hheld.2 u hu
    rw [List.map_id] at hin
    exact hin

/-- An aircraft comes home by a route within its movement, to a place where it can land. -/
theorem of_landingFor? {a : Asset} {route : Route} (h : landingFor? b c a = some route) :
    b.atlas.Leads b.atlas.isOpen a.piece.territory route.dest route ∧
      route.length ≤ a.piece.movementLeft ∧ b.isLandable c.player route.dest = true := by
  unfold landingFor? at h
  split at h
  · rcases Option.map_eq_some_iff.1 h with ⟨spot, hspot, rfl⟩
    rcases List.mem_filterMap.1 (mem_of_firstLeast? hspot) with ⟨t, ht, hfound⟩
    rcases Option.map_eq_some_iff.1 hfound with ⟨r, hroute, rfl⟩
    rw [Option.filter_eq_some_iff, decide_eq_true_eq] at hroute
    have hleads := Atlas.route?_leads hroute.1
    have hdest := hleads.dest_eq
    subst hdest
    exact ⟨hleads, hroute.2, (List.mem_filter.1 ht).2⟩
  · cases h

theorem airLanding_drafts (hl : l.pieces.Nodup) (hepoch : l.epoch = .nonCombat) :
    Ensures (brief b c .nonCombat false spot).Fails (c.airLanding b) l fun orders l' =>
      Drafts (brief b c .nonCombat false spot) l l' orders := by
  unfold airLanding
  refine Ensures.collect_drafts ?_ hl hepoch
  intro t _ l hl hepoch
  refine Ensures.collect_drafts ?_ hl hepoch
  intro plane _ l hl hepoch
  refine .bind (.get ?_)
  split
  · exact .pure (.refl hl)
  · rename_i hguard
    simp only [Bool.or_eq_true, not_or, Bool.not_eq_true, Ledger.isCommitted_eq_false_iff]
      at hguard
    split
    · exact .pure (.refl hl)
    · rename_i route hroute
      rw [Option.filter_eq_some_iff] at hroute
      rcases of_landingFor? hroute.1 with ⟨-, -, hland⟩
      exact sendOne_drafts hl hepoch hguard.1.2 fun _ => haven_of_isLandable hland

/-! ## Land -/

theorem reinforceGaps_drafts (gaps : List (TerritoryId × Float32)) (hl : l.pieces.Nodup)
    (hepoch : l.epoch = .nonCombat) :
    Ensures (brief b c .nonCombat false spot).Fails (c.reinforceGaps b gaps) l fun orders l' =>
      Drafts (brief b c .nonCombat false spot) l l' orders := by
  unfold reinforceGaps
  refine Ensures.collect_drafts ?_ hl hepoch
  intro t _ l hl hepoch
  exact .bind ((reinforce_drafts hl hepoch (by simp)).mono fun haul l' hdrafts => .pure hdrafts)

/-- Troops that walk toward the front stop on friendly land without an enemy force. -/
theorem friendly_of_truncate {source front : TerritoryId} {full : Route} {n : Nat}
    (hroute : b.atlas.routeInto? source front (fun t =>
      b.isFriendlyLand t c.player && !b.hasEnemyForce t c.player) = some full)
    (hpos : n ≠ 0) (hlt : n ≤ full.length - 1) :
    b.isFriendlyLand (full.truncate n).dest c.player = true ∧
      b.hasEnemyForce (full.truncate n).dest c.player = false := by
  have hmem : (full.truncate n).dest ∈ full.between :=
    Route.dest_truncate_mem_between (Nat.pos_of_ne_zero hpos) (by omega)
  -- all but the ends of the route are friendly, and the walk stops before the front
  have hway := Atlas.routeInto?_between hroute _ hmem
  rw [Bool.and_eq_true, Bool.not_eq_true'] at hway
  exact hway

theorem marchFrom_drafts (source : TerritoryId) (hl : l.pieces.Nodup)
    (hepoch : l.epoch = .nonCombat) :
    Ensures (brief b c .nonCombat false spot).Fails (c.marchFrom b source) l fun orders l' =>
      Drafts (brief b c .nonCombat false spot) l l' orders := by
  unfold marchFrom
  refine .bind (.get ?_)
  dsimp only
  split
  · exact .pure (.refl hl)
  · split
    · exact .pure (.refl hl)
    · rename_i full hroute
      rcases Option.bind_eq_some_iff.1 hroute with ⟨front, -, hroute⟩
      refine collect_groups_drafts List.filter_sublist ?_ hl
        hepoch
      intro g _ l₁ hl₁ hepoch₁ hfree
      split
      · exact .pure ⟨.refl hl₁, fun u hu => .inl hu⟩
      · rename_i hsteps
        exact send_drafts hl₁ hepoch₁ hfree fun _ =>
          .inl (friendly_of_truncate hroute hsteps (Nat.min_le_right _ _)).1

theorem consolidation_drafts (hl : l.pieces.Nodup) (hepoch : l.epoch = .nonCombat) :
    Ensures (brief b c .nonCombat false spot).Fails (c.consolidation b) l fun orders l' =>
      Drafts (brief b c .nonCombat false spot) l l' orders := by
  unfold consolidation
  refine .bind ((reinforceGaps_drafts _ hl hepoch).mono ?_)
  intro reinforced l₁ hfirst
  refine .bind (Ensures.mono (Ensures.collect_drafts ?_ hfirst.nodup
    (hfirst.epoch.trans hepoch)) fun marched l' hrest => .pure (hfirst.append hrest))
  intro t _ l hl hepoch
  split
  · exact .pure (.refl hl)
  · exact marchFrom_drafts t hl hepoch

/-- A spare piece is an idle land piece that does not stand alone on the board. -/
theorem mem_spareTroops {t : TerritoryId} {a : Asset} : a ∈ c.spareTroops b l t ↔
    a ∈ c.idle b l t ∧ a.kind.isLand = true ∧
      (1 < (c.idle b l t).length ∨
        (c.idle b l t).length < (b.ownedIn t c.player).length) := by
  unfold spareTroops
  dsimp only
  split
  · rename_i hspare
    rw [Bool.or_eq_true, decide_eq_true_eq, decide_eq_true_eq] at hspare
    rw [List.mem_filter]
    exact ⟨fun ⟨hidle, hland⟩ => ⟨hidle, hland, hspare⟩,
      fun ⟨hidle, hland, _⟩ => ⟨hidle, hland⟩⟩
  · rename_i hnone
    rw [Bool.or_eq_true, decide_eq_true_eq, decide_eq_true_eq] at hnone
    exact ⟨fun h => absurd h List.not_mem_nil, fun ⟨_, _, hspare⟩ => absurd hspare hnone⟩

/-- The piece that fills a gap is one to spare. -/
theorem mem_spareTroops_of_blocker? {gap : TerritoryId} {x : Asset × TerritoryId}
    (h : c.blocker? b l gap = some x) : x.1 ∈ c.spareTroops b l x.2 := by
  rcases List.mem_flatMap.1 (mem_of_firstLeast? h) with ⟨n, -, hx⟩
  rcases List.mem_map.1 hx with ⟨a, ha, rfl⟩
  exact ha

/-- The piece that fills a gap is idle. -/
theorem mem_idle_of_blocker? {gap : TerritoryId} {x : Asset × TerritoryId}
    (h : c.blocker? b l gap = some x) : x.1 ∈ c.idle b l x.2 :=
  (mem_spareTroops.1 (mem_spareTroops_of_blocker? h)).1

theorem blitzBlock_drafts (hl : l.pieces.Nodup) (hepoch : l.epoch = .nonCombat) :
    Ensures (brief b c .nonCombat false spot).Fails (c.blitzBlock b) l fun orders l' =>
      Drafts (brief b c .nonCombat false spot) l l' orders := by
  unfold blitzBlock
  refine Ensures.collect_drafts ?_ hl hepoch
  intro gap _ l hl hepoch
  split
  · rename_i hgap
    refine .bind (.get ?_)
    split
    · exact .pure (.refl hl)
    · rename_i a source hblocker
      have hfree := (mem_idle (mem_idle_of_blocker? hblocker)).2.2
      refine sendOne_drafts hl hepoch hfree ?_
      intro _
      left
      unfold isGap at hgap
      rw [Bool.and_eq_true, Bool.and_eq_true, Bool.and_eq_true] at hgap
      exact hgap.1.1.1
  · exact .pure (.refl hl)

/-! ## Unloading -/

theorem transportUnload_drafts (hl : l.pieces.Nodup) (hepoch : l.epoch = .nonCombat) :
    Ensures (brief b c .nonCombat false spot).Fails (c.transportUnload b) l fun orders l' =>
      Drafts (brief b c .nonCombat false spot) l l' orders := by
  unfold transportUnload
  refine Ensures.collect_drafts ?_ hl hepoch
  intro zone _ l hl hepoch
  refine Ensures.collect_drafts ?_ hl hepoch
  intro a ha l hl hepoch
  refine .bind (.get ?_)
  split
  · exact .pure (.refl hl)
  · rename_i hguard
    simp only [Bool.or_eq_true, not_or, Bool.not_eq_true, Bool.not_eq_true', Bool.not_eq_false,
      Ledger.isCommitted_eq_false_iff] at hguard
    rcases hguard with ⟨⟨hship, hfree⟩, -⟩
    dsimp only
    split
    · exact .pure (.refl hl)
    · split
      · exact .pure (.refl hl)
      · rename_i goal hgoal
        -- the shore was chosen among those that are friendly
        have hshore := mem_bestFirst.1 (List.mem_of_find?_eq_some hgoal)
        have hfriendly := (List.mem_filter.1 hshore).2
        rw [Bool.and_eq_true] at hfriendly
        have hcarries := PieceKind.carriesCargo_of_isTransport hship
        have hsea := (PieceKind.carriesCargo_iff.1 hcarries).1
        set landing : Order :=
          { pieces := [a.id], route := .step zone goal, action := .unload }
        have hhaven : b.IsHaven c.player landing.route.dest := .inl hfriendly.1
        exact (sendShip_drafts hl hepoch ha hsea (fun _ => hfree) rfl rfl hhaven).mono
          fun orders l' hsent => hsent.1

end Conquest.Context
