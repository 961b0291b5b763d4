import Conquest.Proofs.Recruiting

/-!
# Recruiting by sea takes every piece once, or finds a clash

A voyage takes its transport, its cargo and its escorts. Cargo and escorts are free when they are
taken. A transport is free when its voyage is planned, but the list of voyages is made before the
first of them sails, so in the meantime it can have been taken as an escort of an earlier one.

* `Voyage.Sails`: what is known of a planned voyage.
* `nodup_voyages`: every transport makes one voyage.
* `sail_drafts`, `sailAll_drafts`: sailing drafts, or a transport that was an escort is taken twice.
-/

namespace Conquest

variable {b : Board} {c : Context} {l l' : Ledger} {target : Target}

/-- A ship of the player in `zone` with cargo aboard, and a safe way to a zone next to an
objective. -/
structure Voyage.Sails (b : Board) (c : Context) (l : Ledger) (objective zone : TerritoryId)
    (v : Voyage) : Prop where
  here : v.transport ∈ b.ownedIn zone c.player
  ship : v.transport.kind.carriesCargo = true
  free : v.transport.id ∉ l.pieces
  cargo : v.cargo = (landableCargo b l v.transport.id).filterMap b.asset?
  loaded : v.cargo ≠ []
  start : v.route.start = zone
  walk : v.route.territories.IsChain (b.atlas.isAdjacent · · = true)
  moves : v.route.length ≤ v.transport.piece.movementLeft
  way : ∀ t ∈ v.route.steps, b.atlas.isWater t = true ∧ b.hasEnemyForce t c.player = false
  shore : v.route.dest ∈ b.atlas.shores objective

/-! ## Planning voyages -/

namespace Voyage.Sails

variable {objective zone : TerritoryId} {v : Voyage}

/-- The transport stands by itself where the voyage starts. -/
theorem stands (h : v.Sails b c l objective zone) (hb : b.Sound) :
    b.Stands c.player zone v.transport :=
  hb.stands h.here (hb.alone h.here (PieceKind.isLand_eq_false_of_carriesCargo h.ship))

/-- One transport starts from one zone. -/
theorem zone_eq (h : v.Sails b c l objective zone) (hb : b.Sound) {zone' : TerritoryId}
    {v' : Voyage} (h' : v'.Sails b c l objective zone') (heq : v'.transport.id = v.transport.id) :
    zone = zone' :=
  ((h.stands hb).unique (h'.stands hb) heq).2.symm

end Voyage.Sails

namespace Context

/-- What is known of a route to a landing zone. -/
theorem of_landingRoute? {landings : List TerritoryId} {zone : TerritoryId} {left : Nat}
    {r : Route} (h : c.landingRoute? b landings zone left = some r) :
    r.start = zone ∧ r.territories.IsChain (b.atlas.isAdjacent · · = true) ∧ r.length ≤ left ∧
    (∀ t ∈ r.steps, b.atlas.isWater t = true ∧ b.hasEnemyForce t c.player = false) ∧
    r.dest ∈ landings := by
  unfold landingRoute? at h
  rcases List.mem_filterMap.1 (mem_of_firstLeast? h) with ⟨z, hz, hroute⟩
  rw [Option.filter_eq_some_iff, Bool.and_eq_true, decide_eq_true_eq, Bool.not_eq_true'] at hroute
  rcases hroute with ⟨hroute, hmoves, hsafe⟩
  have hleads := Atlas.route?_leads hroute
  refine ⟨hleads.start_eq, hleads.walk, hmoves, ?_, hleads.dest_eq ▸ hz⟩
  intro t ht
  have hpass := hleads.passable t ht
  rw [Bool.and_eq_true, Bool.or_eq_true, beq_iff_eq, Bool.not_eq_true'] at hpass
  refine ⟨hpass.1, ?_⟩
  -- the landing zone is exempt on the way, but checked by itself
  rcases hpass.2 with rfl | hfree
  · exact hsafe
  · exact hfree

theorem transport_of_voyage? {landings : List TerritoryId} {zone : TerritoryId} {a : Asset}
    {v : Voyage} (h : c.voyage? b l landings zone a = some v) : v.transport = a := by
  unfold voyage? at h
  rcases guard_bind_eq_some.1 h with ⟨-, h⟩
  rcases guard_bind_eq_some.1 h with ⟨-, h⟩
  rcases guard_bind_eq_some.1 h with ⟨-, h⟩
  rcases Option.bind_eq_some_iff.1 h with ⟨route, -, h⟩
  cases h
  rfl

theorem of_voyage? {zone : TerritoryId} {a : Asset} {v : Voyage}
    (ha : a ∈ b.ownedIn zone c.player)
    (h : c.voyage? b l (b.atlas.shores target.objective) zone a = some v) :
    v.Sails b c l target.objective zone := by
  unfold voyage? at h
  rcases guard_bind_eq_some.1 h with ⟨hguard, h⟩
  rcases guard_bind_eq_some.1 h with ⟨-, h⟩
  rcases guard_bind_eq_some.1 h with ⟨hsome, h⟩
  rcases Option.bind_eq_some_iff.1 h with ⟨route, hroute, h⟩
  cases h
  rw [Bool.and_eq_true, Bool.and_eq_true, Bool.not_eq_true', Ledger.isCommitted_eq_false_iff]
    at hguard
  rcases hguard with ⟨⟨hship, hfree⟩, -⟩
  rcases of_landingRoute? hroute with ⟨hstart, hwalk, hmoves, hway, hshore⟩
  refine ⟨ha, hship, hfree, rfl, ?_, hstart, hwalk, hmoves, hway, hshore⟩
  intro hnil
  rw [List.isEmpty_iff.2 hnil] at hsome
  cases hsome

theorem mem_voyages {v : Voyage} (hv : v ∈ c.voyages b l target) :
    ∃ zone, v.Sails b c l target.objective zone := by
  unfold voyages at hv
  dsimp only at hv
  split at hv
  · cases hv
  · rw [mem_sortBy] at hv
    rcases List.mem_flatMap.1 hv with ⟨zone, -, hv⟩
    rcases List.mem_filterMap.1 hv with ⟨a, ha, hvoyage⟩
    exact ⟨zone, of_voyage? ha hvoyage⟩

/-- Every transport makes one voyage. -/
theorem nodup_voyages (hb : b.Sound) :
    ((c.voyages b l target).map (·.transport.id)).Nodup := by
  unfold voyages
  dsimp only
  split
  · exact List.nodup_nil
  · refine ((sortBy_perm Voyage.order _).map _).nodup_iff.2 ?_
    -- no zone lists a ship twice, and no two zones list the same ship
    rw [List.map_flatMap, List.nodup_flatMap]
    constructor
    · intro zone _
      rw [map_filterMap_eq (h := (·.id)) fun a v hv => by rw [transport_of_voyage? hv]]
      refine hb.nodup_alone List.filter_sublist ?_
      intro a ha
      rcases List.mem_filter.1 ha with ⟨ha, hsome⟩
      rcases Option.isSome_iff_exists.1 hsome with ⟨v, hv⟩
      have hsails := of_voyage? ha hv
      rw [← transport_of_voyage? hv]
      exact hb.alone hsails.here (PieceKind.isLand_eq_false_of_carriesCargo hsails.ship)
    · refine ((nodup_eraseDups _).sublist List.filter_sublist).imp ?_
      intro zone zone' hne u hu hu'
      rcases List.mem_map.1 hu with ⟨v, hv, rfl⟩
      rcases List.mem_map.1 hu' with ⟨v', hv', heq⟩
      rcases List.mem_filterMap.1 hv with ⟨a, ha, hv⟩
      rcases List.mem_filterMap.1 hv' with ⟨a', ha', hv'⟩
      exact hne ((of_voyage? ha hv).zone_eq hb (of_voyage? ha' hv') heq)

end Context

/-! ## Cargo -/

namespace Voyage.Sails

variable {objective zone : TerritoryId} {v : Voyage}

/-- What a voyage would land is aboard its transport. -/
theorem cargo_sublist (h : v.Sails b c l objective zone) (hb : b.Sound) :
    (v.cargo.map (·.id)).Sublist (b.cargoOf v.transport.id) := by
  rw [h.cargo]
  exact (hb.ids_sublist _).trans List.filter_sublist

theorem isSea (h : v.Sails b c l objective zone) : v.transport.kind.isSea = true :=
  (PieceKind.carriesCargo_iff.1 h.ship).1

/-- A transport and what it would land are different pieces. -/
theorem nodup (h : v.Sails b c l objective zone) (hb : b.Sound) (f : PieceId → Bool) :
    (v.transport.id :: (v.cargo.map (·.id)).filter f).Nodup := by
  rcases Board.asset?_eq_some.1 (h.stands hb).asset with ⟨hpiece, hkind⟩
  have hsea := hkind ▸ h.isSea
  exact hb.nodup_crew hpiece hsea (List.filter_sublist.trans (h.cargo_sublist hb))

theorem cargoOf_ne_nil (h : v.Sails b c l objective zone) : b.cargoOf v.transport.id ≠ [] := by
  intro hnil
  apply h.loaded
  rw [h.cargo, landableCargo, hnil]
  rfl

end Voyage.Sails

/-! ## Sailing -/

/-- A warship of the player in `zone`. -/
def IsWarship (b : Board) (p : PlayerId) (zone : TerritoryId) (a : Asset) : Prop :=
  a ∈ b.ownedIn zone p ∧ a.kind.isSea = true ∧ a.kind.isTransport = false

namespace Context

/-- What is known of escorts. -/
theorem of_escorts (c : Context) (b : Board) (l : Ledger) (zone : TerritoryId) (route : Route) :
    ∃ pool, pool.Sublist (b.ownedIn zone c.player) ∧ (c.escorts b l zone route).Subperm pool ∧
      ∀ a ∈ pool, a.kind.isSea = true ∧ a.kind.isTransport = false ∧
        route.length ≤ a.piece.movementLeft ∧ a.id ∉ l.pieces := by
  unfold escorts
  dsimp only
  split
  · exact ⟨[], List.nil_sublist _, List.nil_subperm, by simp⟩
  · refine ⟨_, List.filter_sublist,
      (c.escortsNeeded_sublist _ _ _).subperm.trans (c.preferenceOrder_perm _ _).subperm, ?_⟩
    intro a ha
    have hkeep := (List.mem_filter.1 ha).2
    simp only [Bool.and_eq_true, Bool.not_eq_true', decide_eq_true_eq, isUsable_iff] at hkeep
    exact ⟨hkeep.1.1.1, hkeep.1.1.2, hkeep.1.2, hkeep.2.2.1⟩

variable {e : Epoch} {spot : PieceId → Prop} {objective zone : TerritoryId} {v : Voyage}

/-- The order that lands the cargo of a voyage is as expected. -/
theorem landing_fit (hv : v.Sails b c l objective zone)
    (hgoal : b.Sound → e = .combat → b.isEnemyLand objective c.player = true)
    (hhaven : e = .nonCombat → b.isFriendlyLand objective c.player = true) :
    (brief b c e false spot).fit
      { pieces := [v.transport.id], route := v.route.extend objective, action := .unload } := by
  intro hb
  refine ⟨?_, fun he => .inl ?_, rfl⟩
  · intro he
    refine .land v.transport v.route objective ?_ hv.ship hv.cargoOf_ne_nil hv.moves ?_ hv.way
      (hgoal hb he)
    · rw [hv.start]
      exact hv.stands hb
    · -- the last step goes from the landing zone to the objective
      have hadj := Atlas.mem_neighbors.1 (List.mem_filter.1 hv.shore).1
      have hlast : v.route.territories.getLast? = some v.route.dest := by
        simp [Route.territories, Route.dest, List.getLast?_cons, List.getLastD_eq_getLast?]
      rw [Route.territories_extend, List.isChain_append]
      refine ⟨hv.walk, .singleton _, ?_⟩
      intro x hx y hy
      rw [hlast] at hx
      cases hx
      cases hy
      exact hb.atlas.adjacent_symm _ _ hadj
  · rw [Route.dest_extend]
    exact hhaven he

/-- The escorts of a voyage are a source of pieces. -/
theorem escorts_serve (l' : Ledger) (hv : v.Sails b c l objective zone)
    (hleaves : v.route.isEmpty = false) (hplace : b.Sound → v.transport.piece.territory = zone) :
    Serves (brief b c e false spot) ⟨zone, v.route,
      c.escorts b l' v.transport.piece.territory v.route⟩ := by
  obtain ⟨pool, hsub, hperm, hpool⟩ :=
    of_escorts c b l' v.transport.piece.territory v.route
  have hkind : ∀ a ∈ pool, (a.kind.isSea = true ∨ a.kind.isAir = true) ∧
      v.route.length ≤ a.piece.movementLeft := fun a ha => ⟨.inl (hpool a ha).1, (hpool a ha).2.2.1⟩
  refine ⟨?_, ?_, ?_⟩
  · intro hb
    refine nodup_map_of_subperm hperm (hb.nodup_alone hsub ?_)
    intro a ha
    exact hb.alone (hsub.subset ha) (PieceKind.isLand_eq_false (hkind a ha).1)
  · intro as hsome has _ hb
    refine ⟨?_, fun _ => .inr ?_, rfl⟩
    · intro _
      refine .sail as v.route hsome ?_ ?_ ?_ hv.walk hleaves (fun t ht => (hv.way t ht).1)
        fun t ht => (hv.way t (List.dropLast_subset _ ht)).2
      · intro a ha
        have hown := hsub.subset (hperm.subset (has ha))
        rw [hv.start, ← hplace hb]
        have hland := PieceKind.isLand_eq_false (hkind a (hperm.subset (has ha))).1
        -- warships are never aboard, so they stand in the zone of the transport
        exact hb.stands hown (hb.alone hown hland)
      · intro a ha
        have hmem := hperm.subset (has ha)
        exact (hkind a hmem).1
      · intro a ha
        have hmem := hperm.subset (has ha)
        exact (hkind a hmem).2
    · exact hv.way _ (Route.dest_mem_steps hleaves)
  · intro hemp
    rw [hleaves] at hemp
    cases hemp

/-- Taking the escorts of a voyage drafts the order that sends them along. -/
theorem escorts_drafts (hv : v.Sails b c l objective zone) (hleaves : v.route.isEmpty = false)
    (hl : l'.pieces.Nodup) (hepoch : l'.epoch = e) {post : Unit → Ledger → Prop}
    (hok : ∀ l'', Drafts (brief b c e false spot) l' l'' (Requirement.orderFor
        (c.escorts b l' v.transport.piece.territory v.route) v.route) →
      (∀ u ∈ l''.pieces, u ∈ l'.pieces ∨
        ∃ a, IsWarship b c.player v.transport.piece.territory a ∧ a.id = u) → post () l'') :
    Ensures (brief b c e false spot).Fails (Planning.commitEach
      ((c.escorts b l' v.transport.piece.territory v.route).map (·.id))) l' post := by
  have hserve : Serves (brief b c e false spot) ⟨zone, v.route, _⟩ :=
    escorts_serve l' hv hleaves fun hb => (hv.stands hb).place
  obtain ⟨pool, hsub, hperm, hpool⟩ := of_escorts c b l' v.transport.piece.territory v.route
  set ships := c.escorts b l' v.transport.piece.territory v.route
  have hfree : ∀ u ∈ ships.map (·.id), u ∉ l'.pieces := by
    intro u hu
    rcases List.mem_map.1 hu with ⟨a, ha, rfl⟩
    exact (hpool a (hperm.subset ha)).2.2.2
  refine Ensures.commitEach_free hepoch (fun hb => ⟨hserve.nodup hb, hfree⟩) ?_
  intro hnodup _
  refine hok _ (Drafts.orderFor hserve (fun _ ha => ha) hl hnodup hfree) ?_
  intro u hu
  rcases Ledger.mem_pieces_moved.1 hu with hu | hu
  · exact .inl hu
  · rcases List.mem_map.1 hu with ⟨a, ha, rfl⟩
    have hin := hperm.subset ha
    -- whoever is taken besides is an escort
    have hwarship : IsWarship b c.player v.transport.piece.territory a :=
      ⟨hsub.subset hin, (hpool a hin).1, (hpool a hin).2.1⟩
    exact .inr ⟨a, hwarship, rfl⟩

/-- A transport and cargo of it that are free draft the order to land. -/
theorem landing_drafts (hv : v.Sails b c l objective zone)
    (hgoal : b.Sound → e = .combat → b.isEnemyLand objective c.player = true)
    (hhaven : e = .nonCombat → b.isFriendlyLand objective c.player = true)
    (hl : l'.pieces.Nodup) {cargo : List PieceId} (hsub : cargo ⊆ v.cargo.map (·.id))
    (hnodup : (v.transport.id :: cargo).Nodup)
    (hfree : ∀ u ∈ v.transport.id :: cargo, u ∉ l'.pieces) :
    Drafts (brief b c e false spot) l'
      (l'.withEntries ((v.transport.id :: cargo).map (·, .moved)))
      [{ pieces := [v.transport.id], route := v.route.extend objective, action := .unload }] := by
  refine .of_order hl hnodup hfree (landing_fit hv hgoal hhaven) ?_ ?_
  · exact (List.nil_sublist _).cons_cons _
  · intro hb u hu
    rcases List.mem_cons.1 hu with rfl | hu
    · exact .inl (List.mem_singleton_self _)
    · exact .inr ⟨_, List.mem_singleton_self _, (hv.cargo_sublist hb).subset (hsub hu)⟩

/-- Sailing takes the transport, its cargo and warships of its zone. -/
theorem sail_drafts (hv : v.Sails b c l objective zone)
    (hgoal : b.Sound → e = .combat → b.isEnemyLand objective c.player = true)
    (hhaven : e = .nonCombat → b.isFriendlyLand objective c.player = true)
    (hl : l'.pieces.Nodup) (hepoch : l'.epoch = e)
    (hslip : b.Sound → v.transport.id ∈ l'.pieces → b.EscortClash c.player v.transport.id) :
    Ensures (brief b c e false spot).Fails (c.sail b objective v) l' fun orders l'' =>
      Drafts (brief b c e false spot) l' l'' orders ∧ ∀ u ∈ l''.pieces, u ∈ l'.pieces ∨
        u = v.transport.id ∨ u ∈ v.cargo.map (·.id) ∨
        ∃ a, IsWarship b c.player v.transport.piece.territory a ∧ a.id = u := by
  unfold sail
  refine .bind (.get (.bind ?_))
  set cargo := (v.cargo.map (·.id)).filter fun u => !l'.isCommitted u with hcargo
  have hsub : cargo ⊆ v.cargo.map (·.id) := List.filter_subset_self _
  refine Ensures.commitAll hepoch ?_ ?_
  · intro u hu hb
    rcases Ledger.mem_of_conflict? hu with ⟨hmem, hin⟩
    have htaken := hin (hv.nodup hb _) List.not_mem_nil
    -- cargo that is taken by then is left out, so only the transport can clash
    rcases List.mem_cons.1 hmem with rfl | hmem
    · exact .inl (hslip hb htaken)
    · have hkeep := (List.mem_filter.1 hmem).2
      rw [Bool.not_eq_true', Ledger.isCommitted_eq_false_iff] at hkeep
      exact absurd htaken hkeep
  · intro hnodup hfree
    set l₁ := l'.withEntries ((v.transport.id :: cargo).map (·, .moved)) with hl₁
    have hfirst : Drafts (brief b c e false spot) l' l₁ _ :=
      landing_drafts hv hgoal hhaven hl hsub hnodup hfree
    have hnew : ∀ u ∈ l₁.pieces, u ∈ l'.pieces ∨ u = v.transport.id ∨
        u ∈ v.cargo.map (·.id) := by
      intro u hu
      rw [hl₁, Ledger.mem_pieces_moved, List.mem_cons] at hu
      exact hu.imp id fun hu => hu.imp id fun hu => hsub hu
    split
    · refine .pure ⟨hfirst, ?_⟩
      intro u hu
      exact (hnew u hu).imp id fun hu => hu.imp id .inl
    · rename_i hleaves
      rw [Bool.not_eq_true] at hleaves
      refine .bind (.get (.bind ?_))
      refine escorts_drafts hv hleaves hfirst.nodup hepoch ?_
      intro l'' hsecond hescorts
      refine .pure ⟨?_, ?_⟩
      · -- the escorts are taken after the transport but sail before it
        exact (hfirst.append hsecond).perm List.perm_append_comm
      · intro u hu
        rcases hescorts u hu with hu | hwarship
        · exact (hnew u hu).imp id fun hu => hu.imp id .inl
        · exact .inr (.inr (.inr hwarship))

/-- A transport that an earlier voyage has taken went along as an armed escort. -/
theorem escortClash_of_warship (hb : b.Sound) {zone' : TerritoryId} {v' : Voyage}
    (hv : v.Sails b c l objective zone) (hv' : v'.Sails b c l objective zone')
    (hne : v.transport.id ≠ v'.transport.id) {a : Asset}
    (ha : IsWarship b c.player v.transport.piece.territory a) (hid : a.id = v'.transport.id) :
    b.EscortClash c.player v'.transport.id := by
  rcases ha with ⟨hown, hsea, hwar⟩
  rw [(hv.stands hb).place] at hown
  -- the escort is the transport of the later voyage
  have hsame : a = v'.transport := by
    have hasset := hb.asset?_of_mem (Board.mem_ownedIn.1 hown).1
    rw [hid, (hv'.stands hb).asset, Option.some.injEq] at hasset
    exact hasset.symm
  have hship : a.kind.carriesCargo = true := hsame ▸ hv'.ship
  refine ⟨zone, a, hown, hid, hship, ?_, hv'.cargoOf_ne_nil, v.transport, hv.here, hne,
    hv.ship, hv.cargoOf_ne_nil⟩
  -- a ship with cargo space that is no transport is armed
  unfold PieceKind.isTransport at hwar
  rw [hship, Bool.true_and, beq_eq_false_iff_ne] at hwar
  exact Nat.pos_of_ne_zero hwar

/-- Cargo does not sail by itself. -/
theorem transport_notMem_cargo (hb : b.Sound) {zone' : TerritoryId} {v' : Voyage}
    (hv : v.Sails b c l objective zone) (hv' : v'.Sails b c l objective zone') :
    v'.transport.id ∉ v.cargo.map (·.id) := by
  intro hin
  exact (hv'.stands hb).notMem_cargoOf hb (hv.stands hb).asset hv.isSea
    ((hv.cargo_sublist hb).subset hin)

/-- Sailing one voyage after another drafts, or takes a transport twice that was an escort. -/
theorem sailAll_drafts {combat : Bool} {vs : List Voyage}
    (hvs : ∀ v ∈ vs, ∃ zone, v.Sails b c l target.objective zone)
    (hgoal : b.Sound → e = .combat → b.isEnemyLand target.objective c.player = true)
    (hhaven : e = .nonCombat → b.isFriendlyLand target.objective c.player = true)
    (hnodup : b.Sound → (vs.map (·.transport.id)).Nodup)
    (hslip : b.Sound → ∀ v ∈ vs, v.transport.id ∈ l'.pieces →
      b.EscortClash c.player v.transport.id)
    (landed : List Asset) (orders : List Order) (hl : l'.pieces.Nodup) (hepoch : l'.epoch = e) :
    Ensures (brief b c e false spot).Fails (c.sailAll b target combat vs landed orders) l'
      fun haul l'' => ∃ new, haul.orders = orders ++ new ∧
        Drafts (brief b c e false spot) l' l'' new := by
  induction vs generalizing landed orders l' with
  | nil => exact .pure ⟨[], (List.append_nil _).symm, .refl hl⟩
  | cons v rest ih =>
    unfold sailAll
    split
    · exact .pure ⟨[], (List.append_nil _).symm, .refl hl⟩
    · rcases hvs v List.mem_cons_self with ⟨zone, hv⟩
      refine .bind ((sail_drafts hv hgoal hhaven hl hepoch fun hb =>
        hslip hb v List.mem_cons_self).mono ?_)
      intro sailed l₁ hsailed
      rcases hsailed with ⟨hdrafts, hnew⟩
      refine (ih (fun v' hv' => hvs v' (List.mem_cons_of_mem _ hv')) ?_ ?_ _ _ hdrafts.nodup
        (hdrafts.epoch.trans hepoch)).mono ?_
      · intro hb
        exact (List.nodup_cons.1 (hnodup hb)).2
      · intro hb v' hmem htaken
        rcases hvs v' (List.mem_cons_of_mem _ hmem) with ⟨zone', hv'⟩
        have hne : v.transport.id ≠ v'.transport.id := by
          intro heq
          exact (List.nodup_cons.1 (hnodup hb)).1 (List.mem_map.2 ⟨v', hmem, heq.symm⟩)
        -- how the later transport came to be taken: before, as the same, as cargo, as an escort
        rcases hnew _ htaken with hold | heq | hcargo | ⟨a, hwarship, hid⟩
        · exact hslip hb v' (List.mem_cons_of_mem _ hmem) hold
        · exact absurd heq.symm hne
        · exact absurd hcargo (transport_notMem_cargo hb hv hv')
        · exact escortClash_of_warship hb hv hv' hne hwarship hid
      · intro haul l'' hrest
        rcases hrest with ⟨new, horders, hnew⟩
        refine ⟨sailed ++ new, ?_, hdrafts.append hnew⟩
        rw [horders, List.append_assoc]

/-- Recruiting loaded transports drafts, or takes a transport twice. -/
theorem recruitTransports_drafts (hl : l.pieces.Nodup)
    (hobj : b.Sound → l.epoch = .combat → b.IsTarget c.player target.objective) :
    Ensures (brief b c l.epoch false spot).Fails (c.recruitTransports b target) l fun haul l' =>
      Drafts (brief b c l.epoch false spot) l l' haul.orders := by
  unfold recruitTransports
  refine .bind (.get ?_)
  dsimp only
  split
  · exact .pure (.refl hl)
  · rename_i hguard
    rw [Bool.or_eq_true, not_or, Bool.and_eq_true, Bool.not_eq_true', Bool.not_eq_true',
      Bool.not_eq_true', Bool.not_eq_false, not_and, Bool.not_eq_false] at hguard
    rcases hguard with ⟨hpassable, hfriendly⟩
    refine (sailAll_drafts (fun v hv => mem_voyages hv) ?_ ?_ nodup_voyages ?_ [] [] hl
      rfl).mono ?_
    · exact fun hb he => (hobj hb he).isEnemyLand hpassable
    · intro he
      exact hfriendly (isCombat_eq_false he)
    · intro _ v hv htaken
      rcases mem_voyages hv with ⟨zone, hsails⟩
      exact absurd htaken hsails.free
    · intro haul l' hsailed
      rcases hsailed with ⟨new, horders, hdrafts⟩
      rw [List.nil_append] at horders
      exact horders ▸ hdrafts

/-! ## Recruiting branch by branch -/

/-- Recruiting from one branch drafts. -/
theorem recruit_drafts {branch : Branch} (hl : l.pieces.Nodup)
    (hobj : b.Sound → l.epoch = .combat → b.IsTarget c.player target.objective)
    (hspot : branch = .bombard → ∀ u, b.Bombards c.player target.objective u → spot u)
    (hships : branch = .ships → l.epoch = .combat) :
    Ensures (brief b c l.epoch false spot).Fails (c.recruit b target branch) l fun haul l' =>
      Drafts (brief b c l.epoch false spot) l l' haul.orders := by
  unfold recruit
  split
  · exact .pure (.refl hl)
  · split
    · exact recruitTransports_drafts hl hobj
    · refine .bind (.get ((gather_drafts _ (sources_serve hobj hspot hships) [] [] hl
        rfl).mono ?_))
      intro haul l' hgathered
      rcases hgathered with ⟨new, horders, hdrafts⟩
      rw [List.nil_append] at horders
      exact horders ▸ hdrafts

/-- Recruiting from several branches drafts. -/
theorem recruitChain_drafts {branches : List Branch} (haul : Haul) (hl : l.pieces.Nodup)
    (hobj : b.Sound → l.epoch = .combat → b.IsTarget c.player target.objective)
    (hspot : .bombard ∈ branches → ∀ u, b.Bombards c.player target.objective u → spot u)
    (hships : .ships ∈ branches → l.epoch = .combat) :
    Ensures (brief b c l.epoch false spot).Fails (c.recruitChain b target branches haul) l
      fun haul' l' => ∃ new, haul'.orders = haul.orders ++ new ∧
        Drafts (brief b c l.epoch false spot) l l' new := by
  induction branches generalizing target haul l with
  | nil => exact .pure ⟨[], (List.append_nil _).symm, .refl hl⟩
  | cons branch rest ih =>
    unfold recruitChain
    split
    · exact .pure ⟨[], (List.append_nil _).symm, .refl hl⟩
    · refine .bind ((recruit_drafts hl hobj (fun h => hspot (h ▸ List.mem_cons_self)) fun h =>
        hships (h ▸ List.mem_cons_self)).mono ?_)
      intro got l₁ hgot
      rw [← hgot.epoch] at hobj hships ⊢
      -- what is still needed changes from branch to branch, the objective does not
      set next : Target := { target with needed := target.needed - got.achieved } with hnext
      have hobj' : b.Sound → l₁.epoch = .combat → b.IsTarget c.player next.objective := hobj
      have hspot' := fun h => hspot (List.mem_cons_of_mem branch h)
      have hships' := fun h => hships (List.mem_cons_of_mem branch h)
      refine (ih (haul.merge got) hgot.nodup hobj' hspot' hships').mono ?_
      intro haul' l' hrest
      rcases hrest with ⟨new, horders, hdrafts⟩
      refine ⟨got.orders ++ new, ?_, ?_⟩
      · rw [horders, Haul.merge, List.append_assoc]
      · rw [← hgot.epoch] at hgot
        exact hgot.append hdrafts

end Context

end Conquest
