import Conquest.Phase.Loading
import Conquest.Proofs.Voyages
import Conquest.Table.Move

/-!
# Loading transports

Every order to load sends land pieces from a shore to a transport that waits next to it, and all
orders for one transport together fit into the room that it has.

* `loadFrom_drafts`, `loadTransports_drafts`: loading drafts.
* `stowed`: what some orders send aboard a transport.
* `loadTransports_stowed`: no transport is given more than its free capacity.
-/

namespace Conquest

variable {b : Board} {c : Context} {l : Ledger} {e : Epoch} {spot : PieceId → Prop}
  {zone : TerritoryId}

namespace Context

/-- What is known of the cargo that is taken from a shore. -/
theorem of_shoreCargo (c : Context) (b : Board) (l : Ledger) (shore : TerritoryId) (room : Nat) :
    ∃ pool, pool.Sublist (b.ownedIn shore c.player) ∧
      (c.shoreCargo b l shore room).1.Subperm pool ∧ ∀ a ∈ pool,
        a.kind.canBeTransported = true ∧ a.piece.carrier = none ∧ a.piece.movementLeft ≠ 0 ∧
        a.id ∉ l.pieces := by
  unfold shoreCargo
  dsimp only
  refine ⟨_, List.filter_sublist, ((fillHold_sublist room _).trans
    (List.take_sublist _ _)).subperm.trans (sortBy_perm loadingOrder _).subperm, ?_⟩
  intro a ha
  have hkeep := (List.mem_filter.1 ha).2
  simp only [Bool.and_eq_true, Bool.not_eq_true', decide_eq_true_eq,
    Ledger.isCommitted_eq_false_iff] at hkeep
  rcases hkeep with ⟨⟨⟨⟨hcan, halone⟩, hmoves⟩, -⟩, hfree⟩
  have hnone := Asset.not_isAboard_iff.1 (Bool.not_eq_true _ ▸ halone)
  exact ⟨hcan, hnone, Nat.pos_iff_ne_zero.1 hmoves, hfree⟩

/-- A transport that waits in a zone without enemies. -/
structure Waits (b : Board) (p : PlayerId) (zone : TerritoryId) (ship : Asset) : Prop where
  here : ship ∈ b.ownedIn zone p
  room : ship.kind.carriesCargo = true
  haven : b.IsHaven p zone

/-- The order to load some pieces from a shore is as expected. -/
theorem load_fit {ship : Asset} {shore : TerritoryId} {cargo pool : List Asset}
    (hship : b.Sound → Waits b c.player zone ship) (hshore : shore ∈ b.atlas.neighbors zone)
    (hsub : pool.Sublist (b.ownedIn shore c.player)) (hperm : cargo.Subperm pool)
    (hpool : ∀ a ∈ pool, a.kind.canBeTransported = true ∧ a.piece.carrier = none ∧
      a.piece.movementLeft ≠ 0 ∧ a.id ∉ l.pieces) (hsome : cargo ≠ []) :
    (brief b c e true spot).fit
      { pieces := cargo.map (·.id), route := .step shore zone, action := .load ship.id } := by
  intro hb
  have hwaits := hship hb
  have hmem : ∀ a ∈ cargo, a ∈ pool := fun a ha => hperm.subset ha
  refine ⟨?_, fun _ => hwaits.haven, rfl⟩
  intro _
  refine .load cargo shore zone ship hsome ?_ ?_ ?_ ?_ ?_ hwaits.room
  · intro a ha
    exact hb.stands (hsub.subset (hmem a ha)) (hpool a (hmem a ha)).2.1
  · intro a ha
    exact (hpool a (hmem a ha)).1
  · intro a ha
    exact (hpool a (hmem a ha)).2.2.1
  · exact hb.atlas.adjacent_symm _ _ (Atlas.mem_neighbors.1 hshore)
  · have hland := PieceKind.isLand_eq_false_of_carriesCargo hwaits.room
    exact hb.stands hwaits.here (hb.alone hwaits.here hland)

/-- Loading one transport drafts. -/
theorem loadFrom_drafts {ship : Asset} {room : Nat} {shores : List TerritoryId}
    (hship : b.Sound → Waits b c.player zone ship) (hshores : shores ⊆ b.atlas.neighbors zone)
    (hl : l.pieces.Nodup) (hepoch : l.epoch = e) :
    Ensures (brief b c e true spot).Fails (c.loadFrom b zone ship.id room shores) l
      fun orders l' => Drafts (brief b c e true spot) l l' orders := by
  induction shores generalizing room l with
  | nil => exact .pure (.refl hl)
  | cons shore rest ih =>
    have hrest : rest ⊆ b.atlas.neighbors zone := fun t ht => hshores (List.mem_cons_of_mem _ ht)
    unfold loadFrom
    split
    · exact .pure (.refl hl)
    · split
      · refine .bind (.get ?_)
        rcases of_shoreCargo c b l shore room with ⟨pool, hsub, hperm, hpool⟩
        dsimp only
        set cargo := (c.shoreCargo b l shore room).1
        split
        · exact ih hrest hl hepoch
        · rename_i hsome
          rw [List.isEmpty_iff] at hsome
          have hnodup : b.Sound → (cargo.map (·.id)).Nodup := fun hb =>
            nodup_map_of_subperm hperm (hb.nodup_alone hsub fun a ha => (hpool a ha).2.1)
          have hfree : ∀ u ∈ cargo.map (·.id), u ∉ l.pieces := by
            intro u hu
            rcases List.mem_map.1 hu with ⟨a, ha, rfl⟩
            exact (hpool a (hperm.subset ha)).2.2.2
          -- the cargo was filtered for free pieces just before, so nothing can clash
          refine .bind (Ensures.embark hepoch ?_ ?_)
          · intro u hu hb
            rcases Ledger.mem_of_conflict? hu with ⟨hmem, hin⟩
            exact absurd (hin (hnodup hb) List.not_mem_nil) (hfree u hmem)
          · intro hnodup' hfree' manifest
            set order : Order :=
              { pieces := cargo.map (·.id), route := .step shore zone, action := .load ship.id }
            have hfit : (brief b c e true spot).fit order :=
              load_fit hship (hshores List.mem_cons_self) hsub hperm hpool hsome
            have hfirst : Drafts (brief b c e true spot) l
                { l.withEntries ((cargo.map (·.id)).map (·, .moved)) with manifest := manifest }
                [order] := by
              have htaken := Drafts.of_order hl hnodup' hfree' hfit (.refl _) fun _ u hu => .inl hu
              exact htaken.withManifest _
            refine .bind ((ih hrest hfirst.nodup hepoch).mono ?_)
            intro others l' hothers
            exact .pure (hfirst.append hothers)
      · exact ih hrest hl hepoch

/-- Loading all transports that are worth it drafts. -/
theorem loadTransports_drafts {worthLoading : Asset → Bool} (hl : l.pieces.Nodup)
    (hepoch : l.epoch = e) :
    Ensures (brief b c e true spot).Fails (c.loadTransports b worthLoading) l fun orders l' =>
      Drafts (brief b c e true spot) l l' orders := by
  refine Ensures.collect_drafts ?_ hl hepoch
  intro zone hzone l hl hepoch
  split
  · exact .pure (.refl hl)
  · rename_i hguard
    rw [Bool.or_eq_true, not_or, Bool.not_eq_true, Bool.not_eq_true] at hguard
    refine Ensures.collect_drafts ?_ hl hepoch
    intro ship hship l hl hepoch
    refine .bind (.get ?_)
    split
    · rename_i hload
      rw [Bool.and_eq_true, Bool.and_eq_true] at hload
      have hroom := PieceKind.carriesCargo_of_isTransport hload.1.1
      refine loadFrom_drafts (fun hb => ⟨hship, hroom, .inr ⟨?_, hguard.2⟩⟩)
        (fun _ ht => ht) hl hepoch
      exact Atlas.isWater_of_mem_seaZones hb.atlas hzone
    · exact .pure (.refl hl)

end Context

/-! ## Room -/

/-- What some orders send aboard a transport, in units of transport cost. -/
def stowed (b : Board) (ship : PieceId) (orders : List Order) : Nat :=
  ((orders.filter fun o => o.action == .load ship).map fun o => Table.cargoCost b o.pieces).sum

@[simp] theorem stowed_append (b : Board) (ship : PieceId) (xs ys : List Order) :
    stowed b ship (xs ++ ys) = stowed b ship xs + stowed b ship ys := by
  simp [stowed]

theorem stowed_cons (b : Board) (ship : PieceId) (o : Order) (rest : List Order) :
    stowed b ship (o :: rest) =
      (if o.action = .load ship then Table.cargoCost b o.pieces else 0) + stowed b ship rest := by
  by_cases ho : o.action = .load ship
  · simp [stowed, ho]
  · simp [stowed, ho]

/-- Orders for one transport send nothing aboard another. -/
theorem stowed_of_ne {ship ship' : PieceId} {orders : List Order} (hne : ship ≠ ship')
    (h : ∀ o ∈ orders, o.action = .load ship') : stowed b ship orders = 0 := by
  induction orders with
  | nil => rfl
  | cons o rest ih =>
    have ho := h o List.mem_cons_self
    rw [stowed_cons, ih fun x hx => h x (List.mem_cons_of_mem _ hx), ho, if_neg]
    intro heq
    cases heq
    exact hne rfl

namespace Context

/-- The orders for one transport fit into the room that was given. -/
theorem loadFrom_stowed (hb : b.Sound) {ship : PieceId} {room : Nat} {shores : List TerritoryId} :
    Ensures (fun _ _ => True) (c.loadFrom b zone ship room shores) l fun orders _ =>
      (∀ o ∈ orders, o.action = .load ship) ∧ stowed b ship orders ≤ room := by
  induction shores generalizing room l with
  | nil => exact .pure ⟨by simp, Nat.zero_le room⟩
  | cons shore rest ih =>
    unfold loadFrom
    split
    · exact .pure ⟨by simp, Nat.zero_le room⟩
    · split
      · refine .bind (.get ?_)
        rcases of_shoreCargo c b l shore room with ⟨pool, hsub, hperm, -⟩
        -- what is loaded and what is left over make up the room that there was
        have hroom : ((c.shoreCargo b l shore room).1.map (·.kind.transportCost)).sum +
            (c.shoreCargo b l shore room).2 = room := fillHold_room room _
        have hcost : Table.cargoCost b ((c.shoreCargo b l shore room).1.map (·.id)) =
            ((c.shoreCargo b l shore room).1.map (·.kind.transportCost)).sum := by
          unfold Table.cargoCost
          have hlisted : (c.shoreCargo b l shore room).1 ⊆ b.assetsIn shore := fun a ha =>
            (Board.mem_ownedIn.1 (hsub.subset (hperm.subset ha))).1
          rw [hb.filterMap_ids hlisted, sumOf_eq]
        dsimp only
        split
        · refine ih.mono ?_
          intro orders l' hrest
          refine ⟨hrest.1, ?_⟩
          omega
        · refine .bind ((Ensures.trivial _ _).mono ?_)
          intro _ l₁ _
          refine .bind (ih.mono ?_)
          intro others l' hothers
          refine .pure ⟨?_, ?_⟩
          · intro o ho
            rcases List.mem_cons.1 ho with rfl | ho
            · rfl
            · exact hothers.1 o ho
          · rw [stowed_cons, if_pos rfl, hcost]
            have hrest := hothers.2
            omega
      · exact ih

theorem nodup_transports (hb : b.Sound) {p : PlayerId} {ships : List Asset}
    (hsub : ships.Sublist (b.ownedIn zone p)) :
    ((ships.filter (·.kind.isTransport)).map (·.id)).Nodup := by
  refine hb.nodup_alone (List.filter_sublist.trans hsub) ?_
  intro a ha
  rcases List.mem_filter.1 ha with ⟨ha, hship⟩
  exact hb.alone (hsub.subset ha)
    (PieceKind.isLand_eq_false_of_carriesCargo (PieceKind.carriesCargo_of_isTransport hship))

/-- A transport is listed in one place. -/
theorem ne_of_transport (hb : b.Sound) {p : PlayerId} {zone zone' : TerritoryId} {a a' : Asset}
    (ha : a ∈ b.ownedIn zone p) (ha' : a' ∈ b.ownedIn zone' p) (hship : a.kind.isTransport = true)
    (hne : zone ≠ zone') : a.id ≠ a'.id := by
  intro heq
  have hasset := hb.asset?_of_mem (Board.mem_ownedIn.1 ha).1
  rw [heq, hb.asset?_of_mem (Board.mem_ownedIn.1 ha').1, Option.some.injEq] at hasset
  subst hasset
  -- a transport stands by itself, so its place is certain
  have halone := hb.alone ha
    (PieceKind.isLand_eq_false_of_carriesCargo (PieceKind.carriesCargo_of_isTransport hship))
  exact hne ((hb.stands ha halone).place.symm.trans (hb.stands ha' halone).place)

/-- No transport is sent more than it has room for, and those in the listed zones nothing. -/
structure Stows (b : Board) (p : PlayerId) (zones : List TerritoryId) (orders : List Order) :
    Prop where
  fits : ∀ ship, stowed b ship orders ≤ b.freeCapacity ship
  untouched : ∀ z ∈ zones, ∀ a ∈ b.ownedIn z p, a.kind.isTransport = true →
    stowed b a.id orders = 0

/-- One more transport is loaded, from a zone that is not listed. -/
theorem Stows.append {p : PlayerId} {zones : List TerritoryId} {orders more : List Order}
    (h : Stows b p zones orders) (hb : b.Sound) {ship : Asset} (hship : ship ∈ b.ownedIn zone p)
    (hzone : zone ∉ zones) (hempty : stowed b ship.id orders = 0)
    (hload : ∀ o ∈ more, o.action = .load ship.id)
    (hroom : stowed b ship.id more ≤ b.freeCapacity ship.id) :
    Stows b p zones (orders ++ more) := by
  constructor
  · intro u
    rw [stowed_append]
    by_cases hu : u = ship.id
    · rw [hu, hempty, Nat.zero_add]
      exact hroom
    · rw [stowed_of_ne hu hload, Nat.add_zero]
      exact h.fits u
  · intro z hz a ha hatransport
    have hne : a.id ≠ ship.id :=
      ne_of_transport hb ha hship hatransport fun heq => hzone (heq ▸ hz)
    rw [stowed_append, stowed_of_ne hne hload, h.untouched z hz a ha hatransport]

/-- No transport is given more than its free capacity. -/
theorem loadTransports_stowed (hb : b.Sound) (worthLoading : Asset → Bool) (l : Ledger) :
    Ensures (fun _ _ => True) (c.loadTransports b worthLoading) l fun orders _ =>
      ∀ ship, stowed b ship orders ≤ b.freeCapacity ship := by
  refine (Ensures.collect (J := fun rest _ out => rest.Nodup ∧ Stows b c.player rest out) ?_
    ⟨Atlas.nodup_map_id_filter hb.atlas _, ?_, ?_⟩).mono fun orders _ h => h.2.fits
  · rintro zone rest l out ⟨hnodup, hstows⟩
    rcases List.nodup_cons.1 hnodup with ⟨hzone, hnodup⟩
    have hrest : Stows b c.player rest out :=
      ⟨hstows.fits, fun z hz => hstows.untouched z (List.mem_cons_of_mem _ hz)⟩
    split
    · refine .pure ⟨hnodup, ?_⟩
      rw [List.append_nil]
      exact hrest
    · -- the transports of the zone that are still to come have not been loaded either
      refine (Ensures.collect_from (J := fun ships _ out =>
        ships.Sublist (b.ownedIn zone c.player) ∧
        Stows b c.player rest out ∧
        ∀ a ∈ ships, a.kind.isTransport = true → stowed b a.id out = 0) ?_
        ⟨.refl _, hrest, hstows.untouched zone List.mem_cons_self⟩).mono
          fun got _ h => ⟨hnodup, h.2.1⟩
      rintro ship ships l out ⟨hsub, hstows, hempty⟩
      have hships : ships.Sublist (b.ownedIn zone c.player) :=
        (List.sublist_cons_self _ _).trans hsub
      refine .bind (.get ?_)
      split
      · rename_i hload
        rw [Bool.and_eq_true, Bool.and_eq_true] at hload
        have hkind := hload.1.1
        refine (loadFrom_stowed hb).mono ?_
        intro got _ hgot
        refine ⟨hships, ?_, ?_⟩
        · exact hstows.append hb (hsub.subset List.mem_cons_self) hzone
            (hempty ship List.mem_cons_self hkind) hgot.1 hgot.2
        · intro a ha hatransport
          -- no transport of the zone is listed twice
          have hne : a.id ≠ ship.id := by
            have hnodup := nodup_transports hb hsub
            rw [List.filter_cons, if_pos hkind, List.map_cons, List.nodup_cons] at hnodup
            exact fun heq => hnodup.1
              (heq ▸ List.mem_map_of_mem (List.mem_filter.2 ⟨ha, hatransport⟩))
          rw [stowed_append, stowed_of_ne hne hgot.1,
            hempty a (List.mem_cons_of_mem _ ha) hatransport]
      · refine .pure ⟨hships, ?_, ?_⟩
        · rw [List.append_nil]
          exact hstows
        · intro a ha hatransport
          rw [List.append_nil]
          exact hempty a (List.mem_cons_of_mem _ ha) hatransport
  · intro ship
    exact Nat.zero_le _
  · intro _ _ _ _ _
    exact rfl

end Context

end Conquest
