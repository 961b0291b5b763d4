import Conquest.Proofs.Forks
import Conquest.Proofs.Loads

/-!
# Where orders come from

Every order sends a party along a walk that it has the movement for. What recruiting gives is traced
back to the branch that gave it: land pieces leave friendly land, aircraft can land afterwards, and
no land piece leaves a territory that is excluded. What goes aboard a transport leaves friendly land
that was not attacked.

* `Party`: pieces, a walk and the movement for it.
* `Recruited`: what recruiting gives; `recruitChain_recruited`: it gives nothing else.
* `Loading`: what loading gives; `loadTransports_loads`: it gives nothing else.
-/

namespace Conquest

/-! ## Results of loops -/

namespace Ensures

variable {σ α β : Type}

/-- A first step of which nothing is needed. -/
theorem andThen {m : EStateM PlanError σ α} {f : α → EStateM PlanError σ β} {s : σ}
    {post : β → σ → Prop}
    (h : ∀ a s', Ensures (fun _ _ => True) (f a) s' post) :
    Ensures (fun _ _ => True) (m >>= f) s post :=
  .bind ((trivial m s).mono fun a s' _ => h a s')

/-- What holds of the results of every round holds of all results. -/
theorem collect_forall {f : α → EStateM PlanError σ (List β)} {K : σ → Prop} {P : β → Prop}
    {xs : List α}
    (hstep : ∀ x ∈ xs, ∀ s, K s →
      Ensures (fun _ _ => True) (f x) s fun out s' => K s' ∧ ∀ y ∈ out, P y)
    {s : σ} (hs : K s) :
    Ensures (fun _ _ => True) (Conquest.collect f xs) s fun out s' => K s' ∧ ∀ y ∈ out, P y := by
  refine (collect (J := fun rest s' out => rest ⊆ xs ∧ K s' ∧ ∀ y ∈ out, P y) ?_
    ⟨fun _ h => h, hs, by simp⟩).mono fun out s' h => h.2
  rintro x rest s' out ⟨hsub, hK, hall⟩
  refine (hstep x (hsub List.mem_cons_self) s' hK).mono ?_
  intro got s'' hgot
  refine ⟨fun y hy => hsub (List.mem_cons_of_mem _ hy), hgot.1, ?_⟩
  intro y hy
  exact (List.mem_append.1 hy).elim (hall y) (hgot.2 y)

/-- A loop that takes nothing in: what holds of the results of every round holds of all. -/
theorem collect_all {f : α → EStateM PlanError σ (List β)} {P : β → Prop} {xs : List α}
    (hstep : ∀ x ∈ xs, ∀ s, Ensures (fun _ _ => True) (f x) s fun out _ => ∀ y ∈ out, P y) (s : σ) :
    Ensures (fun _ _ => True) (Conquest.collect f xs) s fun out _ => ∀ y ∈ out, P y :=
  (collect_forall (K := fun _ => True) (fun x hx s _ =>
    (hstep x hx s).mono fun _ _ h => ⟨True.intro, h⟩) True.intro).mono fun _ _ h => h.2

end Ensures

/-! ## The epoch of a ledger -/

namespace Ledger

variable {l m : Ledger}

theorem epoch_record {added : List (PieceId × Commitment)} (h : l.record added = .ok m) :
    m.epoch = l.epoch := by
  rw [(record_eq_ok_iff.1 h).2, epoch_withEntries]

theorem epoch_absorb {f : Ledger} (h : l.absorb f = .ok m) : m.epoch = l.epoch := by
  rw [(absorb_eq_ok_iff.1 h).2.2]
  rfl

end Ledger

namespace Planning

theorem apply_epoch {f : Ledger → Except PlanError Ledger} {l : Ledger}
    (hf : ∀ l', f l = .ok l' → l'.epoch = l.epoch) :
    Ensures (fun _ _ => True) (apply f) l fun _ l' => l'.epoch = l.epoch := by
  unfold Ensures apply
  cases h : f l with
  | ok l' => exact hf l' h
  | error e => exact True.intro

theorem commitAll_epoch (us : List PieceId) (l : Ledger) :
    Ensures (fun _ _ => True) (commitAll us) l fun _ l' => l'.epoch = l.epoch :=
  apply_epoch fun _ h => Ledger.epoch_record h

theorem commitEach_epoch (us : List PieceId) (l : Ledger) :
    Ensures (fun _ _ => True) (commitEach us) l fun _ l' => l'.epoch = l.epoch := by
  induction us generalizing l with
  | nil => exact .pure rfl
  | cons u rest ih =>
    have hunfold : commitEach (u :: rest) = (commitAll [u] >>= fun _ => commitEach rest) := rfl
    rw [hunfold]
    refine .bind ((commitAll_epoch [u] l).mono ?_)
    intro _ l₁ hfirst
    exact (ih l₁).mono fun _ l' hrest => hrest.trans hfirst

theorem hold_epoch (u : PieceId) (l : Ledger) :
    Ensures (fun _ _ => True) (hold u) l fun _ l' => l'.epoch = l.epoch := by
  unfold Ensures hold Ledger.hold?
  cases h : l.record [(u, .held)] with
  | ok l' => exact Ledger.epoch_record h
  | error e => exact rfl

end Planning

/-! ## Parties -/

/-- Pieces of `p` at the start of a walk, each with the movement for it. -/
structure Party (b : Board) (p : PlayerId) (as : List Asset) (route : Route) : Prop where
  asset : ∀ a ∈ as, b.asset? a.id = some a
  owner : ∀ a ∈ as, a.piece.owner = p
  place : ∀ a ∈ as, a.piece.territory = route.start
  moves : ∀ a ∈ as, route.length ≤ a.piece.movementLeft
  walk : route.territories.IsChain (b.atlas.isAdjacent · · = true)

namespace Party

variable {b : Board} {p : PlayerId} {t : TerritoryId} {as : List Asset} {route : Route}

theorem of_stands (hstands : ∀ a ∈ as, b.Stands p route.start a)
    (hmoves : ∀ a ∈ as, route.length ≤ a.piece.movementLeft)
    (hwalk : route.territories.IsChain (b.atlas.isAdjacent · · = true)) : Party b p as route :=
  ⟨fun a ha => (hstands a ha).asset, fun a ha => (hstands a ha).owner,
    fun a ha => (hstands a ha).place, hmoves, hwalk⟩

/-- Pieces that are listed in a territory and stand by themselves make a party. -/
theorem of_mem (hb : b.Sound) (hmem : ∀ a ∈ as, a ∈ b.ownedIn t p)
    (halone : ∀ a ∈ as, a.piece.carrier = none) (hstart : route.start = t)
    (hmoves : ∀ a ∈ as, route.length ≤ a.piece.movementLeft)
    (hwalk : route.territories.IsChain (b.atlas.isAdjacent · · = true)) : Party b p as route :=
  of_stands (fun a ha => hstart ▸ hb.stands (hmem a ha) (halone a ha)) hmoves hwalk

/-- Pieces that are no land pieces need not be asked whether they stand by themselves. -/
theorem of_fleet (hb : b.Sound) (hmem : ∀ a ∈ as, a ∈ b.ownedIn t p)
    (hkind : ∀ a ∈ as, a.kind.isLand = false) (hstart : route.start = t)
    (hmoves : ∀ a ∈ as, route.length ≤ a.piece.movementLeft)
    (hwalk : route.territories.IsChain (b.atlas.isAdjacent · · = true)) : Party b p as route :=
  of_mem hb hmem (fun a ha => hb.alone (hmem a ha) (hkind a ha)) hstart hmoves hwalk

/-- One piece is a party. -/
theorem one {a : Asset} (hasset : b.asset? a.id = some a) (howner : a.piece.owner = p)
    (hplace : a.piece.territory = route.start) (hmoves : route.length ≤ a.piece.movementLeft)
    (hwalk : route.territories.IsChain (b.atlas.isAdjacent · · = true)) : Party b p [a] route :=
  ⟨by simpa using hasset, by simpa using howner, by simpa using hplace, by simpa using hmoves,
    hwalk⟩

theorem of_stand {a : Asset} (h : b.Stands p route.start a)
    (hmoves : route.length ≤ a.piece.movementLeft)
    (hwalk : route.territories.IsChain (b.atlas.isAdjacent · · = true)) : Party b p [a] route :=
  .one h.asset h.owner h.place hmoves hwalk

/-- The pieces of a party are those that its order names. -/
theorem mem_of_asset (h : Party b p as route) {u : PieceId} {a : Asset} (hu : u ∈ as.map (·.id))
    (ha : b.asset? u = some a) : a ∈ as := by
  rcases List.mem_map.1 hu with ⟨x, hx, rfl⟩
  rw [h.asset x hx, Option.some.injEq] at ha
  exact ha ▸ hx

end Party

/-! ## Recruiting -/

/-- Ships and what ships carry on deck are no land pieces. -/
theorem PieceKind.isLand_eq_false_of_sails {k : PieceKind}
    (h : k.isSea = true ∨ k.isCarrierBorne = true) : k.isLand = false := by
  unfold isCarrierBorne at h
  rw [Bool.and_eq_true] at h
  exact isLand_eq_false (h.imp (fun hsea => hsea) (·.1))

/-- A route from sea zone to sea zone. -/
def Atlas.IsCrossing (m : Atlas) (route : Route) : Prop :=
  m.isWater route.start = true ∧ m.isWater route.dest = true

/-- The orders that recruiting for an objective gives. -/
inductive Recruited (b : Board) (p : PlayerId) (e : Epoch) (objective : TerritoryId)
    (exclude : List TerritoryId) : Order → Prop
  /-- Land pieces leave friendly land. -/
  | march (as : List Asset) (route : Route) (party : Party b p as route)
      (land : ∀ a ∈ as, a.kind.isLand = true)
      (home : b.isFriendlyLand route.start p = true) (free : route.start ∉ exclude)
      (goal : route.dest = objective) :
      Recruited b p e objective exclude { pieces := as.map (·.id), route }
  /-- Aircraft can land with the movement that they have left. -/
  | fly (as : List Asset) (route : Route) (party : Party b p as route)
      (air : ∀ a ∈ as, a.kind.isAir = true)
      (lands : e = .combat → ∀ a ∈ as,
        canLandNear b p objective (a.piece.movementLeft - route.length) = true)
      (goal : route.dest = objective) :
      Recruited b p e objective exclude { pieces := as.map (·.id), route }
  /-- Ships sail, and carrier-borne aircraft with them from sea zone to sea zone. -/
  | sail (as : List Asset) (route : Route) (party : Party b p as route)
      (ships : ∀ a ∈ as, a.kind.isSea = true ∨ a.kind.isCarrierBorne = true)
      (waters : ∀ a ∈ as, a.kind.isSea = false → b.atlas.IsCrossing route) :
      Recruited b p e objective exclude { pieces := as.map (·.id), route }
  /-- A ship sails next to the objective and lands its cargo there. -/
  | land (ship : Asset) (route : Route) (party : Party b p [ship] route)
      (carries : ship.kind.carriesCargo = true)
      (adjacent : b.atlas.isAdjacent route.dest objective = true) :
      Recruited b p e objective exclude
        { pieces := [ship.id], route := route.extend objective, action := .unload }

/-- A party of ships sails anywhere. -/
theorem Recruited.of_ships {b : Board} {p : PlayerId} {e : Epoch} {objective : TerritoryId}
    {exclude : List TerritoryId} {as : List Asset} {route : Route} (party : Party b p as route)
    (hsea : ∀ a ∈ as, a.kind.isSea = true) :
    Recruited b p e objective exclude { pieces := as.map (·.id), route } := by
  refine .sail as route party (fun a ha => .inl (hsea a ha)) ?_
  intro a ha hdry
  rw [hsea a ha] at hdry
  cases hdry

/-- What is excluded can be forgotten. -/
theorem Recruited.mono {b : Board} {p : PlayerId} {e : Epoch} {objective : TerritoryId}
    {exclude exclude' : List TerritoryId} {o : Order} (h : Recruited b p e objective exclude o)
    (hsub : exclude' ⊆ exclude) : Recruited b p e objective exclude' o := by
  cases h with
  | march as route party land home free goal =>
    exact .march as route party land home (fun hin => free (hsub hin)) goal
  | fly as route party air lands goal => exact .fly as route party air lands goal
  | sail as route party ships waters => exact .sail as route party ships waters
  | land ship route party carries adjacent => exact .land ship route party carries adjacent

namespace Context

variable {b : Board} {c : Context} {l : Ledger} {target : Target}

/-! ### Sources -/

/-- Land pieces leave friendly land that is not excluded. -/
theorem home_of_landSource? {blitz : Bool} {t : TerritoryId} {s : Source}
    (h : c.landSource? b l target blitz t = some s) :
    t ∉ target.exclude ∧ b.isFriendlyLand t c.player = true := by
  unfold landSource? at h
  rcases guard_bind_eq_some.1 h with ⟨hallow, -⟩
  rw [Bool.and_eq_true, allowsSource_iff] at hallow
  exact ⟨hallow.1.2, hallow.2⟩

/-- Aircraft are asked whether they can land afterwards. -/
theorem lands_of_airSource? {t : TerritoryId} {s : Source}
    (h : c.airSource? b l target t = some s) {a : Asset} (ha : a ∈ s.assets) :
    c.canLandAfter b (isCombat l) target.objective (a.piece.movementLeft - s.route.length) =
      true := by
  unfold airSource? at h
  rcases guard_bind_eq_some.1 h with ⟨-, h⟩
  rcases Option.bind_eq_some_iff.1 h with ⟨route, -, h⟩
  rcases guard_bind_eq_some.1 h with ⟨-, h⟩
  cases h
  have hkeep := (List.mem_filter.1 ((c.preferenceOrder_perm _ _).mem_iff.1 ha)).2
  rw [Bool.and_eq_true, Bool.and_eq_true] at hkeep
  exact hkeep.1.2

/-- The aircraft among warships are carrier-borne. -/
theorem ships_of_shipSource? {t : TerritoryId} {x : Float32 × Source}
    (h : c.shipSource? b l target t = some x) {a : Asset} (ha : a ∈ x.2.assets) :
    a.kind.isSea = true ∨ a.kind.isCarrierBorne = true := by
  unfold shipSource? at h
  rcases guard_bind_eq_some.1 h with ⟨-, h⟩
  rcases Option.bind_eq_some_iff.1 h with ⟨route, -, h⟩
  rcases guard_bind_eq_some.1 h with ⟨-, h⟩
  cases h
  have hkeep := (List.mem_filter.1 ((c.preferenceOrder_perm _ _).mem_iff.1 ha)).2
  simp only [Bool.and_eq_true, Bool.or_eq_true] at hkeep
  exact hkeep.1.1.imp (·.1) id

theorem landSources_recruited (hb : b.Sound) {blitz : Bool} {s : Source}
    (hs : s ∈ c.landSources b l target blitz) {as : List Asset} (has : as ⊆ s.assets) :
    Recruited b c.player l.epoch target.objective target.exclude
      { pieces := as.map (·.id), route := s.route } := by
  rcases mem_landSources.1 hs with ⟨-, -, t, -, hfind⟩
  rcases of_landSource? hfind with ⟨-, hroute, pool, hsub, hperm, hpool⟩
  rcases home_of_landSource? hfind with ⟨hfree, hhome⟩
  have hleads := Atlas.route?_leads hroute
  have hmem : ∀ a ∈ as, a ∈ pool := fun a ha => hperm.mem_iff.1 (has ha)
  have hparty : Party b c.player as s.route :=
    .of_mem hb (fun a ha => hsub.subset (hmem a ha)) (fun a ha => (hpool a (hmem a ha)).2.1)
      hleads.start_eq (fun a ha => (hpool a (hmem a ha)).2.2.2) hleads.walk
  refine .march as s.route hparty (fun a ha => (hpool a (hmem a ha)).1) ?_ ?_ hleads.dest_eq
  · rw [hleads.start_eq]
    exact hhome
  · rw [hleads.start_eq]
    exact hfree

theorem airSources_recruited (hb : b.Sound) {s : Source} (hs : s ∈ c.airSources b l target)
    {as : List Asset} (has : as ⊆ s.assets) :
    Recruited b c.player l.epoch target.objective target.exclude
      { pieces := as.map (·.id), route := s.route } := by
  unfold airSources at hs
  dsimp only at hs
  rw [mem_sortBy, List.mem_filterMap] at hs
  rcases hs with ⟨t, -, hsource⟩
  rcases of_airSource? hsource with ⟨-, hroute, pool, hsub, hperm, hpool⟩
  have hleads := Atlas.route?_leads hroute
  have hmem : ∀ a ∈ as, a ∈ pool := fun a ha => hperm.mem_iff.1 (has ha)
  have hair : ∀ a ∈ as, a.kind.isAir = true := fun a ha => (hpool a (hmem a ha)).1
  have hparty : Party b c.player as s.route :=
    .of_fleet hb (fun a ha => hsub.subset (hmem a ha))
      (fun a ha => PieceKind.isLand_eq_false_of_isAir (hair a ha)) hleads.start_eq
      (fun a ha => (hpool a (hmem a ha)).2.1) hleads.walk
  refine .fly as s.route hparty hair ?_ hleads.dest_eq
  intro hcombat a ha
  have hlands := lands_of_airSource? hsource (has ha)
  -- in combat it is enough to find land in reach afterwards
  have hrule : isCombat l = true := by
    unfold isCombat
    rw [hcombat]
    rfl
  rw [hrule] at hlands
  exact hlands

theorem shipSources_recruited (hb : b.Sound) {s : Source} (hs : s ∈ c.shipSources b l target)
    {as : List Asset} (has : as ⊆ s.assets) :
    Recruited b c.player l.epoch target.objective target.exclude
      { pieces := as.map (·.id), route := s.route } := by
  unfold shipSources at hs
  split at hs
  · rename_i hgoal
    dsimp only at hs
    rcases List.mem_map.1 hs with ⟨x, hx, rfl⟩
    rw [mem_sortBy, List.mem_filterMap] at hx
    rcases hx with ⟨t, hreach, hsource⟩
    rcases of_shipSource? hsource with ⟨-, hroute, pool, hsub, hperm, hpool⟩
    have hleads := Atlas.route?_leads hroute
    -- what a source offers is its fleet in another order
    have hmem : ∀ a ∈ as, a ∈ pool := fun a ha => hperm.mem_iff.1 (has ha)
    refine .sail as x.2.route (.of_fleet hb (fun a ha => hsub.subset (hmem a ha)) ?_
      hleads.start_eq (fun a ha => (hpool a (hmem a ha)).2) hleads.walk) ?_ ?_
    · intro a ha
      exact PieceKind.isLand_eq_false (hpool a (hmem a ha)).1
    · intro a ha
      exact ships_of_shipSource? hsource (has ha)
    · intro _ _ _
      rw [Atlas.IsCrossing, hleads.start_eq, hleads.dest_eq]
      exact ⟨Atlas.passable_of_mem_neighborsWithin hreach, hgoal⟩
  · cases hs

theorem bombardSources_recruited (hb : b.Sound) {s : Source}
    (hs : s ∈ c.bombardSources b l target) {as : List Asset} (has : as ⊆ s.assets) :
    Recruited b c.player l.epoch target.objective target.exclude
      { pieces := as.map (·.id), route := s.route } := by
  unfold bombardSources at hs
  dsimp only at hs
  split at hs
  · cases hs
  · rw [mem_sortBy] at hs
    rcases List.mem_flatMap.1 hs with ⟨z, -, hs⟩
    rcases List.mem_filterMap.1 hs with ⟨t, -, hsource⟩
    rcases of_bombardSource? hsource with ⟨hroute, pool, hsub, hperm, hpool⟩
    have hleads := Atlas.route?_leads hroute
    have hmem : ∀ a ∈ as, a ∈ pool := fun a ha => hperm.mem_iff.1 (has ha)
    have hsea : ∀ a ∈ as, a.kind.isSea = true := fun a ha => (hpool a (hmem a ha)).2.1
    exact .of_ships (.of_fleet hb (fun a ha => hsub.subset (hmem a ha))
      (fun a ha => PieceKind.isLand_eq_false_of_isSea (hsea a ha)) hleads.start_eq
      (fun a ha => (hpool a (hmem a ha)).2.2) hleads.walk) hsea

/-- Whatever is sent from a source is recruited. -/
theorem sources_recruited (hb : b.Sound) {branch : Branch} {s : Source}
    (hs : s ∈ c.sources b l target branch) {as : List Asset} (has : as ⊆ s.assets) :
    Recruited b c.player l.epoch target.objective target.exclude
      { pieces := as.map (·.id), route := s.route } := by
  cases branch with
  | blitz => exact landSources_recruited hb hs has
  | land => exact landSources_recruited hb hs has
  | air => exact airSources_recruited hb hs has
  | transports => cases hs
  | ships => exact shipSources_recruited hb hs has
  | bombard => exact bombardSources_recruited hb hs has

end Context

/-! ### Gathering -/

theorem Requirement.mem_orderFor {taken : List Asset} {route : Route} {o : Order}
    (h : o ∈ orderFor taken route) : o = { pieces := taken.map (·.id), route } := by
  unfold orderFor at h
  split at h
  · cases h
  · exact List.mem_singleton.1 h

section Gathering

variable {b : Board} {c : Context} {l : Ledger} {R : Order → Prop}

/-- What holds of all that may be sent from the sources holds of what is gathered. -/
theorem Requirement.gather_forall (r : Requirement) {sources : List Source}
    (hs : ∀ s ∈ sources, ∀ as ⊆ s.assets, R { pieces := as.map (·.id), route := s.route })
    (force : List Asset) {orders : List Order} (horders : ∀ o ∈ orders, R o) (l : Ledger) :
    Ensures (fun _ _ => True) (r.gather sources force orders) l fun haul l' =>
      l'.epoch = l.epoch ∧ ∀ o ∈ haul.orders, R o := by
  induction sources generalizing force orders l with
  | nil => exact .pure ⟨rfl, horders⟩
  | cons s rest ih =>
    unfold gather
    split
    · exact .pure ⟨rfl, horders⟩
    · refine .bind (.get ?_)
      -- one order leaves each source, with those of its pieces that are free and needed
      set pool := s.assets.filter fun a => !l.isCommitted a.id
      set taken := r.draw pool.length force pool
      have hsub : taken ⊆ s.assets := fun a ha =>
        (List.mem_filter.1 ((r.draw_subperm pool.length force pool).subset ha)).1
      refine .bind ((Planning.commitEach_epoch _ l).mono ?_)
      intro _ l₁ hepoch
      have hsent : ∀ o ∈ orders ++ orderFor taken s.route, R o := by
        intro o ho
        rcases List.mem_append.1 ho with ho | ho
        · exact horders o ho
        · rw [mem_orderFor ho]
          exact hs s List.mem_cons_self taken hsub
      exact (ih (fun x hx => hs x (List.mem_cons_of_mem _ hx)) (force ++ taken) hsent l₁).mono
        fun haul l' h => ⟨h.1.trans hepoch, h.2⟩

namespace Context

/-- The orders of one voyage: its escorts sail and its cargo lands. -/
theorem sail_forall {objective : TerritoryId} {v : Voyage}
    (hescorts : ∀ l', R { pieces := (c.escorts b l' v.transport.piece.territory v.route).map (·.id),
                          route := v.route })
    (hlanding : R { pieces := [v.transport.id], route := v.route.extend objective,
                    action := .unload }) (l : Ledger) :
    Ensures (fun _ _ => True) (c.sail b objective v) l fun orders l' =>
      l'.epoch = l.epoch ∧ ∀ o ∈ orders, R o := by
  unfold sail
  refine .bind (.get (.bind ((Planning.commitAll_epoch _ l).mono ?_)))
  intro _ l₁ hfirst
  split
  · -- without escorts the landing is the only order
    refine .pure ⟨hfirst, ?_⟩
    intro o ho
    rw [List.mem_singleton.1 ho]
    exact hlanding
  · refine .bind (.get (.bind ((Planning.commitEach_epoch _ l₁).mono ?_)))
    intro _ l₂ hsecond
    refine .pure ⟨hsecond.trans hfirst, ?_⟩
    intro o ho
    rcases List.mem_append.1 ho with ho | ho
    · rw [Requirement.mem_orderFor ho]
      exact hescorts l₁
    · rw [List.mem_singleton.1 ho]
      exact hlanding

theorem sailAll_forall {target : Target} {combat : Bool} {vs : List Voyage}
    (hvs : ∀ v ∈ vs, ∀ l, Ensures (fun _ _ => True) (c.sail b target.objective v) l
      fun orders l' => l'.epoch = l.epoch ∧ ∀ o ∈ orders, R o)
    (landed : List Asset) {orders : List Order} (horders : ∀ o ∈ orders, R o) (l : Ledger) :
    Ensures (fun _ _ => True) (c.sailAll b target combat vs landed orders) l fun haul l' =>
      l'.epoch = l.epoch ∧ ∀ o ∈ haul.orders, R o := by
  induction vs generalizing landed orders l with
  | nil => exact .pure ⟨rfl, horders⟩
  | cons v rest ih =>
    unfold sailAll
    split
    · exact .pure ⟨rfl, horders⟩
    · refine .bind ((hvs v List.mem_cons_self l).mono ?_)
      intro sailed l₁ hsailed
      have hall : ∀ o ∈ orders ++ sailed, R o := fun o ho =>
        (List.mem_append.1 ho).elim (horders o) (hsailed.2 o)
      exact (ih (fun v hv => hvs v (List.mem_cons_of_mem _ hv)) (landed ++ v.cargo) hall l₁).mono
        fun haul l' h => ⟨h.1.trans hsailed.1, h.2⟩

/-- A voyage sails with a party of its own, and so do its escorts. -/
theorem sail_recruited (hb : b.Sound) {e : Epoch} {objective zone : TerritoryId}
    {exclude : List TerritoryId} {l₀ : Ledger} {v : Voyage} (hv : v.Sails b c l₀ objective zone)
    (l : Ledger) :
    Ensures (fun _ _ => True) (c.sail b objective v) l fun orders l' =>
      l'.epoch = l.epoch ∧ ∀ o ∈ orders, Recruited b c.player e objective exclude o := by
  refine sail_forall ?_ ?_ l
  · intro l'
    obtain ⟨pool, hsub, hperm, hpool⟩ := of_escorts c b l' v.transport.piece.territory v.route
    rw [(hv.stands hb).place] at hsub hperm ⊢
    set ships := c.escorts b l' zone v.route
    have hsea : ∀ a ∈ ships, a.kind.isSea = true := fun a ha => (hpool a (hperm.subset ha)).1
    exact .of_ships (.of_fleet hb (fun a ha => hsub.subset (hperm.subset ha))
      (fun a ha => PieceKind.isLand_eq_false_of_isSea (hsea a ha)) hv.start
      (fun a ha => (hpool a (hperm.subset ha)).2.2.1) hv.walk) hsea
  · have hparty : Party b c.player [v.transport] v.route :=
      .of_stand (hv.start.symm ▸ hv.stands hb) hv.moves hv.walk
    have hadj := Atlas.mem_neighbors.1 (List.mem_filter.1 hv.shore).1
    exact .land v.transport v.route hparty hv.ship (hb.atlas.adjacent_symm _ _ hadj)

theorem recruitTransports_recruited (hb : b.Sound) {e : Epoch} {exclude : List TerritoryId}
    {target : Target} (l : Ledger) :
    Ensures (fun _ _ => True) (c.recruitTransports b target) l fun haul l' =>
      l'.epoch = l.epoch ∧ ∀ o ∈ haul.orders,
        Recruited b c.player e target.objective exclude o := by
  unfold recruitTransports
  refine .bind (.get ?_)
  dsimp only
  split
  · exact .pure ⟨rfl, by simp⟩
  · refine sailAll_forall ?_ [] (by simp) l
    intro v hv l'
    rcases mem_voyages hv with ⟨zone, hsails⟩
    exact sail_recruited hb hsails l'

theorem recruit_recruited (hb : b.Sound) {target : Target} (branch : Branch) (l : Ledger) :
    Ensures (fun _ _ => True) (c.recruit b target branch) l fun haul l' =>
      l'.epoch = l.epoch ∧ ∀ o ∈ haul.orders,
        Recruited b c.player l.epoch target.objective target.exclude o := by
  unfold recruit
  split
  · exact .pure ⟨rfl, by simp⟩
  · split
    · exact recruitTransports_recruited hb l
    · refine .bind (.get ?_)
      exact Requirement.gather_forall _ (fun s hs as has => sources_recruited hb hs has) []
        (by simp) l

/-- What holds of the orders of every call, whatever the call still needs, holds of a chain. -/
theorem recruitChain_forall {target : Target} {branches : List Branch} {e : Epoch}
    (hcall : ∀ branch ∈ branches, ∀ needed (l : Ledger), l.epoch = e →
      Ensures (fun _ _ => True) (c.recruit b { target with needed } branch) l fun haul l' =>
        l'.epoch = e ∧ ∀ o ∈ haul.orders, R o)
    {haul : Haul} (hhaul : ∀ o ∈ haul.orders, R o) {l : Ledger} (hl : l.epoch = e) :
    Ensures (fun _ _ => True) (c.recruitChain b target branches haul) l fun haul' l' =>
      l'.epoch = e ∧ ∀ o ∈ haul'.orders, R o := by
  induction branches generalizing target haul l with
  | nil => exact .pure ⟨hl, hhaul⟩
  | cons branch rest ih =>
    unfold recruitChain
    split
    · exact .pure ⟨hl, hhaul⟩
    · refine .bind ((hcall branch List.mem_cons_self target.needed l hl).mono ?_)
      rintro got l₁ ⟨hl₁, hgot⟩
      have hall : ∀ o ∈ (haul.merge got).orders, R o := fun o ho =>
        (List.mem_append.1 ho).elim (hhaul o) (hgot o)
      -- only what is still needed changes from call to call
      refine ih ?_ hall hl₁
      exact fun x hx => hcall x (List.mem_cons_of_mem _ hx)

/-- A chain of branches recruits for one objective. -/
theorem recruitChain_recruited (hb : b.Sound) {target : Target} (branches : List Branch)
    {haul : Haul} (l : Ledger)
    (hhaul : ∀ o ∈ haul.orders, Recruited b c.player l.epoch target.objective target.exclude o) :
    Ensures (fun _ _ => True) (c.recruitChain b target branches haul) l fun haul' l' =>
      l'.epoch = l.epoch ∧ ∀ o ∈ haul'.orders,
        Recruited b c.player l.epoch target.objective target.exclude o := by
  refine recruitChain_forall (fun branch _ needed l₁ hl₁ => ?_) hhaul rfl
  rw [← hl₁]
  exact recruit_recruited hb branch l₁

end Context

end Gathering

/-! ## Loading -/

/-- Land pieces go aboard a transport of `p` next to friendly land that is not excluded. -/
inductive Loading (b : Board) (p : PlayerId) (exclude : List TerritoryId) : Order → Prop
  | load (as : List Asset) (shore zone : TerritoryId) (ship : Asset)
      (party : Party b p as (.step shore zone))
      (fits : ∀ a ∈ as, a.kind.canBeTransported = true)
      (home : b.isFriendlyLand shore p = true) (free : shore ∉ exclude)
      (waits : b.Stands p zone ship) :
      Loading b p exclude
        { pieces := as.map (·.id), route := .step shore zone, action := .load ship.id }

namespace Context

variable {b : Board} {c : Context} {l : Ledger}

/-- Loading one transport. -/
theorem loadFrom_loads (hb : b.Sound) {zone : TerritoryId} {ship : Asset}
    (hship : b.Stands c.player zone ship) {room : Nat} {shores : List TerritoryId}
    (hshores : shores ⊆ b.atlas.neighbors zone) :
    Ensures (fun _ _ => True) (c.loadFrom b zone ship.id room shores) l fun orders l' =>
      l'.epoch = l.epoch ∧ ∀ o ∈ orders, Loading b c.player c.attacked o := by
  induction shores generalizing room l with
  | nil => exact .pure ⟨rfl, by simp⟩
  | cons shore rest ih =>
    have hrest : rest ⊆ b.atlas.neighbors zone := fun t ht => hshores (List.mem_cons_of_mem _ ht)
    unfold loadFrom
    split
    · exact .pure ⟨rfl, by simp⟩
    · split
      · rename_i hmay
        refine .bind (.get ?_)
        rcases of_shoreCargo c b l shore room with ⟨pool, hsub, hperm, hpool⟩
        dsimp only
        set cargo := (c.shoreCargo b l shore room).1
        split
        · exact ih hrest
        · refine .bind ((Planning.apply_epoch ?_).mono ?_)
          · intro l' hl'
            unfold Ledger.embark at hl'
            rcases bind_eq_ok.1 hl' with ⟨taken, htaken, hl'⟩
            cases hl'
            have htaken' : taken.epoch = l.epoch := Ledger.epoch_record htaken
            exact htaken'
          · intro _ l₁ hepoch
            refine .bind ((ih hrest).mono ?_)
            rintro others l' ⟨hepoch', hothers⟩
            refine .pure ⟨hepoch'.trans hepoch, List.forall_mem_cons.2 ⟨?_, hothers⟩⟩
            unfold mayLoadFrom isAttacked at hmay
            simp only [Bool.and_eq_true, Bool.not_eq_true'] at hmay
            have hadj := Atlas.mem_neighbors.1 (hshores List.mem_cons_self)
            -- the cargo stands on the shore and has movement left for the one step
            refine .load cargo shore zone ship (.of_mem hb
              (fun a ha => hsub.subset (hperm.subset ha))
              (fun a ha => (hpool a (hperm.subset ha)).2.1) rfl ?_ ?_)
              (fun a ha => (hpool a (hperm.subset ha)).1) hmay.1.1.1 ?_ hship
            · intro a ha
              exact Nat.pos_of_ne_zero (hpool a (hperm.subset ha)).2.2.1
            · exact List.isChain_pair.2 (hb.atlas.adjacent_symm _ _ hadj)
            · intro hin
              rw [List.contains_iff_mem.2 hin] at hmay
              cases hmay.1.1.2
      · exact ih hrest

/-- Loading transports sends pieces aboard from friendly land that was not attacked. -/
theorem loadTransports_loads (hb : b.Sound) (worthLoading : Asset → Bool) (l : Ledger) :
    Ensures (fun _ _ => True) (c.loadTransports b worthLoading) l fun orders l' =>
      l'.epoch = l.epoch ∧ ∀ o ∈ orders, Loading b c.player c.attacked o := by
  refine Ensures.collect_forall (K := fun l' : Ledger => l'.epoch = l.epoch) ?_ rfl
  intro zone _ l₁ hl₁
  split
  · exact .pure ⟨hl₁, by simp⟩
  · refine Ensures.collect_forall ?_ hl₁
    intro ship hship l₂ hl₂
    refine .bind (.get ?_)
    split
    · rename_i hload
      rw [Bool.and_eq_true, Bool.and_eq_true] at hload
      have hkind := PieceKind.isLand_eq_false_of_carriesCargo
        (PieceKind.carriesCargo_of_isTransport hload.1.1)
      exact (loadFrom_loads hb (hb.stands hship (hb.alone hship hkind)) fun _ ht => ht).mono
        fun orders l' h => ⟨h.1.trans hl₂, h.2⟩
    · exact .pure ⟨hl₂, by simp⟩

end Context

end Conquest
