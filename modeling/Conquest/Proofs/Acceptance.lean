import Conquest.Proofs.Capacity
import Conquest.Proofs.Play
import Conquest.Proofs.Run

/-!
# The table takes every order of the combat move

The forms of planned orders and the checks of the table are written independently of each other.
On the board of the planning every form passes the checks. It still passes them when earlier orders
of the phase have been carried out: they spared the pieces that they did not name, no enemy has
come or gone, land has only become more friendly, and transports have kept the room that was
counted on.

* `Board.Regular`: the kinds and the seas of an ordinary scenario.
* `Planned.passes`: a planned order passes the checks after orders that name other pieces.
* `Campaign.Underway`: the invariant of submitting the orders of a phase.
* `Campaign.runEpoch_rejected`: no order of the combat move is refused.
-/

namespace Conquest

namespace Board

/-- Only ships have cargo space, strategic bombers are aircraft, and sea zones can be entered. -/
structure Regular (b : Board) : Prop where
  ships : b.OnlyShipsCarry
  bombers : ∀ k, (b.kind k).isStrategicBomber = true → (b.kind k).isAir = true
  seas : ∀ t, b.atlas.isWater t = true → (b.territory t).impassable = false

variable {p : PlayerId} {b b' : Board} {done : List PieceId} {t : TerritoryId} {a : Asset}

theorem Regular.of_sameGround (h : b.Regular) (hground : b.SameGround b') : b'.Regular := by
  refine ⟨h.ships.of_sameGround hground, ?_, ?_⟩
  · intro k hk
    rw [hground.kind] at hk ⊢
    exact h.bombers k hk
  · intro t ht
    rw [hground.isWater] at ht
    rw [hground.impassable]
    exact h.seas t ht

theorem Regular.isAir (h : b.Regular) {u : PieceId} (hasset : b.asset? u = some a)
    (hbomber : a.kind.isStrategicBomber = true) : a.kind.isAir = true := by
  rw [(asset?_eq_some.1 hasset).2] at hbomber ⊢
  exact h.bombers _ hbomber

/-- Connected routes stay connected. -/
theorem SameGround.walk (hground : b.SameGround b') {ts : List TerritoryId}
    (hwalk : ts.IsChain (b.atlas.isAdjacent · · = true)) :
    ts.IsChain (b'.atlas.isAdjacent · · = true) := by
  have hadj : b'.atlas.isAdjacent = b.atlas.isAdjacent :=
    funext fun s => funext fun t => hground.isAdjacent s t
  rw [hadj]
  exact hwalk

/-- A piece that was not named stands where it stood. -/
theorem Effect.stands (h : Effect p done b b') (ha : b.Stands p t a) (hfree : a.id ∉ done) :
    b'.Stands p t a := by
  rcases Board.asset?_eq_some.1 ha.asset with ⟨hpiece, hkind⟩
  refine ⟨asset?_eq_some.2 ⟨h.lone a.id a.piece hpiece hfree ha.alone, ?_⟩, ha.owner, ha.alone,
    ha.place⟩
  rw [h.after.kind]
  exact hkind

/-- Land with an owner stays held. -/
theorem After.isHeldLand {h : Table} (hafter : After p b h.board)
    (ht : b.isFriendlyLand t p = true ∨ b.isEnemyLand t p = true) : h.isHeldLand t = true := by
  unfold Table.isHeldLand
  refine hafter.isHeld ?_
  rw [Bool.and_eq_true]
  rcases ht with ht | ht
  · unfold Board.isFriendlyLand at ht
    rw [Bool.and_eq_true] at ht
    exact ⟨ht.1, Option.isSome_of_any ht.2⟩
  · unfold Board.isEnemyLand at ht
    rw [Bool.and_eq_true] at ht
    exact ⟨ht.1, Option.isSome_of_any ht.2⟩

end Board

theorem Route.eq_dest_of_getLast? {route : Route} {t : TerritoryId}
    (ht : t ∈ route.steps.getLast?) : t = route.dest := by
  unfold Route.dest
  rw [List.getLastD_eq_getLast?, Option.mem_def.1 ht, Option.getD_some]

/-! ## Checks that are passed -/

namespace Table

variable {h : Table} {p : PlayerId} {a : Asset} {t : TerritoryId} {last : Bool}

theorem checkStep_land (hland : a.kind.isLand = true) (hheld : h.isHeldLand t = true)
    (hpass : last = true ∨ h.mayPass p a.kind t = true) : h.checkStep p a t last = .ok () := by
  have hdomain : a.kind.domain = .land := by simpa [PieceKind.isLand] using hland
  unfold checkStep
  rw [hdomain]
  rcases hpass with rfl | hpass
  · simp [hheld]
  · simp [hheld, hpass]

theorem checkStep_sea (hsea : a.kind.isSea = true) (hwater : h.board.atlas.isWater t = true)
    (hsafe : last = true ∨ h.board.hasEnemyForce t p = false) :
    h.checkStep p a t last = .ok () := by
  have hdomain : a.kind.domain = .sea := by simpa [PieceKind.isSea] using hsea
  unfold checkStep
  rw [hdomain]
  rcases hsafe with rfl | hsafe
  · simp [hwater]
  · simp [hwater, hsafe]

theorem checkStep_air (hair : a.kind.isAir = true)
    (hopen : (h.board.territory t).impassable = false)
    (hend : last = true → h.board.atlas.isWater t = true ∨ h.isHeldLand t = true) :
    h.checkStep p a t last = .ok () := by
  have hdomain : a.kind.domain = .air := by simpa [PieceKind.isAir] using hair
  unfold checkStep
  rw [hdomain]
  cases last with
  | false => simp [hopen]
  | true =>
    rcases hend rfl with hwater | hheld
    · have hwater : (h.board.territory t).isWater = true := hwater
      simp [hopen, hwater]
    · unfold isHeldLand at hheld
      rw [Bool.and_eq_true] at hheld
      cases howner : (h.board.territory t).owner with
      | none =>
        rw [howner] at hheld
        cases hheld.2
      | some q => simp [hopen, howner]

/-- In the combat move pieces that stand at the start of a route that they can take may move. -/
theorem checkMove_of_stands {as : List Asset} {route : Route} (hepoch : h.epoch = .combat)
    (hstands : ∀ a ∈ as, h.board.Stands p route.start a)
    (hmoves : ∀ a ∈ as, route.length ≤ a.piece.movementLeft)
    (hway : ∀ a ∈ as, ∀ t ∈ route.between, h.checkStep p a t false = .ok ())
    (hgoal : ∀ a ∈ as, ∀ t ∈ route.steps.getLast?, h.checkStep p a t true = .ok ()) :
    h.checkMove p { pieces := as.map (·.id), route } = .ok () := by
  refine checkMove_ok_iff.2 ⟨?_, fun _ => checkPeace_ok_iff.2 ?_⟩
  · intro u hu
    rcases List.mem_map.1 hu with ⟨a, ha, rfl⟩
    have hs := hstands a ha
    refine checkMover_ok_iff.2 ⟨a, hs.asset, hs.owner, hs.place, hmoves a ha, hs.alone, ?_⟩
    exact checkSteps_ok_iff.2 ⟨hway a ha, hgoal a ha⟩
  · rintro ⟨hpeace, -⟩
    rw [hepoch] at hpeace
    cases hpeace

end Table

/-! ## Orders that pass -/

/-- The table after orders of `p` that were planned on `b` and named `done`: the pieces that were
named had stood by themselves. -/
structure Meets (b : Board) (p : PlayerId) (done : List PieceId) (h : Table) : Prop where
  effect : b.Effect p done h.board
  epoch : h.epoch = .combat
  alone : ∀ u ∈ done, ∀ q, b.piece? u = some q → q.carrier = none

section Forms

variable {b : Board} {p : PlayerId} {done : List PieceId} {h : Table} {as : List Asset}
  {route : Route}

/-- What stood by itself and was not named still does. -/
theorem Meets.stands (hm : Meets b p done h) {t : TerritoryId}
    (hstands : ∀ a ∈ as, b.Stands p t a) (hfree : ∀ u ∈ as.map (·.id), u ∉ done) :
    ∀ a ∈ as, h.board.Stands p t a :=
  fun a ha => hm.effect.stands (hstands a ha) (hfree a.id (List.mem_map_of_mem ha))

theorem Meets.march_passes (hm : Meets b p done h)
    (hfree : ∀ u ∈ as.map (·.id), u ∉ done)
    (stands : ∀ a ∈ as, b.Stands p route.start a)
    (land : ∀ a ∈ as, a.kind.isLand = true)
    (moves : ∀ a ∈ as, route.length ≤ a.piece.movementLeft)
    (way : ∀ t ∈ route.between, b.hasEnemyForce t p = false ∧ (b.isFriendlyLand t p = true ∨
      ((∀ a ∈ as, a.kind.canBlitz = true) ∧ b.rules.blitzThroughEmptyEnemy = true ∧
        b.isEnemyLand t p = true)))
    (goal : b.isEnemyLand route.dest p = true) :
    h.checkMove p { pieces := as.map (·.id), route } = .ok () := by
  refine Table.checkMove_of_stands hm.epoch (hm.stands stands hfree) moves ?_ ?_
  · intro a ha t ht
    rcases way t ht with ⟨hsafe, hway⟩
    -- friendly or blitzed, land on the way has an owner and keeps one
    have hheld := hm.effect.after.isHeldLand (hway.imp id fun hblitz => hblitz.2.2)
    refine Table.checkStep_land (land a ha) hheld (.inr ?_)
    unfold Table.mayPass
    rw [hm.effect.after.hasEnemyForce, hsafe]
    rcases hway with hfriendly | ⟨hblitz, hrule, -⟩
    · simp [hm.effect.after.isFriendlyLand hfriendly]
    · simp [hblitz a ha, hm.effect.after.rules, hrule, hm.epoch]
  · intro a ha t ht
    rw [Route.eq_dest_of_getLast? ht]
    exact Table.checkStep_land (land a ha) (hm.effect.after.isHeldLand (.inr goal)) (.inl rfl)

theorem Meets.flight_passes (hm : Meets b p done h)
    (hfree : ∀ u ∈ as.map (·.id), u ∉ done)
    (stands : ∀ a ∈ as, b.Stands p route.start a)
    (air : ∀ a ∈ as, a.kind.isAir = true)
    (moves : ∀ a ∈ as, route.length ≤ a.piece.movementLeft)
    (way : ∀ t ∈ route.steps, b.atlas.isOpen t = true)
    (goal : b.IsTarget p route.dest) :
    h.checkMove p { pieces := as.map (·.id), route } = .ok () := by
  have hopen : ∀ t ∈ route.steps, (h.board.territory t).impassable = false := by
    intro t ht
    rw [hm.effect.after.impassable]
    have hway := way t ht
    unfold Atlas.isOpen at hway
    simpa [Board.territory] using hway
  refine Table.checkMove_of_stands hm.epoch (hm.stands stands hfree) moves ?_ ?_
  · intro a ha t ht
    have hstep : t ∈ route.steps := List.dropLast_subset _ ht
    refine Table.checkStep_air (air a ha) (hopen t hstep) ?_
    intro hlast
    cases hlast
  · intro a ha t ht
    refine Table.checkStep_air (air a ha) (hopen t (List.mem_of_mem_getLast? ht)) ?_
    intro _
    rw [Route.eq_dest_of_getLast? ht]
    -- the target may have been captured since, which still lets the aircraft end there
    rcases goal with henemy | hwater
    · exact .inr (hm.effect.after.isHeldLand (.inr henemy))
    · exact .inl ((hm.effect.after.isWater _).trans hwater)

theorem Meets.sail_passes (hm : Meets b p done h) (hreg : b.Regular)
    (hfree : ∀ u ∈ as.map (·.id), u ∉ done)
    (stands : ∀ a ∈ as, b.Stands p route.start a)
    (ships : ∀ a ∈ as, a.kind.isSea = true ∨ a.kind.isAir = true)
    (moves : ∀ a ∈ as, route.length ≤ a.piece.movementLeft)
    (water : ∀ t ∈ route.steps, b.atlas.isWater t = true)
    (way : ∀ t ∈ route.between, b.hasEnemyForce t p = false) :
    h.checkMove p { pieces := as.map (·.id), route } = .ok () := by
  have hwater : ∀ t ∈ route.steps, h.board.atlas.isWater t = true := fun t ht =>
    (hm.effect.after.isWater t).trans (water t ht)
  have hopen : ∀ t ∈ route.steps, (h.board.territory t).impassable = false := fun t ht =>
    (hm.effect.after.impassable t).trans (hreg.seas t (water t ht))
  refine Table.checkMove_of_stands hm.epoch (hm.stands stands hfree) moves ?_ ?_
  · -- on the way a ship meets no enemy; where it stays it may
    intro a ha t ht
    have hstep : t ∈ route.steps := List.dropLast_subset _ ht
    rcases ships a ha with hsea | hair
    · have hsafe : h.board.hasEnemyForce t p = false :=
        (hm.effect.after.hasEnemyForce t).trans (way t ht)
      exact Table.checkStep_sea hsea (hwater t hstep) (.inr hsafe)
    · exact Table.checkStep_air hair (hopen t hstep) fun _ => .inl (hwater t hstep)
  · intro a ha t ht
    have hstep := List.mem_of_mem_getLast? ht
    rcases ships a ha with hsea | hair
    · exact Table.checkStep_sea hsea (hwater t hstep) (.inl rfl)
    · exact Table.checkStep_air hair (hopen t hstep) fun _ => .inl (hwater t hstep)

theorem Meets.load_passes (hm : Meets b p done h) {shore zone : TerritoryId}
    {ship : Asset} (hfree : ∀ u ∈ as.map (·.id), u ∉ done)
    (stands : ∀ a ∈ as, b.Stands p shore a)
    (fits : ∀ a ∈ as, a.kind.canBeTransported = true)
    (moves : ∀ a ∈ as, a.piece.movementLeft ≠ 0)
    (waits : b.Stands p zone ship) (room : ship.kind.carriesCargo = true) (hship : ship.id ∉ done)
    (hroom : Table.cargoCost h.board (as.map (·.id)) ≤ h.board.freeCapacity ship.id) :
    h.checkLoad p
      { pieces := as.map (·.id), route := .step shore zone, action := .load ship.id } ship.id =
      .ok () := by
  have hwaits := hm.effect.stands waits hship
  have hcapacity : ship.kind.transportCapacity ≠ 0 :=
    Nat.ne_of_gt (PieceKind.carriesCargo_iff.1 room).2
  refine Table.checkLoad_ok_iff.2 ⟨ship, hwaits.asset, hwaits.owner, hcapacity, rfl, hwaits.place,
    ?_, (wrap_le _).trans hroom⟩
  intro u hu
  rcases List.mem_map.1 hu with ⟨a, ha, rfl⟩
  have hs := hm.stands stands hfree a ha
  exact Table.checkPassenger_ok_iff.2
    ⟨a, hs.asset, hs.owner, hs.place, hs.alone, fits a ha, moves a ha⟩

/-- The cargo of a ship that was not named is still aboard. -/
theorem Meets.cargoOf_ne_nil (hm : Meets b p done h) (hb : b.Sound) (hreg : b.Regular)
    {t : TerritoryId} {ship : Asset} (stands : b.Stands p t ship) (hship : ship.id ∉ done)
    (hsea : ship.kind.isSea = true) (loaded : b.cargoOf ship.id ≠ []) :
    h.board.cargoOf ship.id ≠ [] := by
  rcases Board.asset?_eq_some.1 stands.asset with ⟨hpiece, hkind⟩
  rcases List.exists_mem_of_ne_nil _ loaded with ⟨w, hw⟩
  rcases (hb.mem_cargoOf hpiece (hkind ▸ hsea)).1 hw with ⟨q, hq, hcarrier⟩
  -- cargo cannot have been named, as what was named stood by itself
  have hspared : h.board.piece? w = some q := by
    refine hm.effect.spares hreg.ships w q hq ?_ ?_
    · intro hdone
      rw [hm.alone w hdone q hq] at hcarrier
      cases hcarrier
    · intro c hc
      rw [hcarrier, Option.some.injEq] at hc
      exact hc ▸ hship
  obtain ⟨hpiece', hkind'⟩ :=
    Board.asset?_eq_some.1 (hm.effect.stands stands hship).asset
  exact List.ne_nil_of_mem
    ((hm.effect.sound.mem_cargoOf hpiece' (hkind' ▸ hsea)).2 ⟨q, hspared, hcarrier⟩)

theorem Table.seaLeg_extend (route : Route) (t : TerritoryId) :
    Table.seaLeg (route.extend t) = route := by
  simp [Table.seaLeg, Route.truncate, Route.extend, Route.length]

theorem Meets.land_passes (hm : Meets b p done h) (hb : b.Sound) (hreg : b.Regular) {ship : Asset}
    {goal : TerritoryId} (hfree : ship.id ∉ done)
    (stands : b.Stands p route.start ship) (carries : ship.kind.carriesCargo = true)
    (loaded : b.cargoOf ship.id ≠ []) (moves : route.length ≤ ship.piece.movementLeft)
    (way : ∀ t ∈ route.steps, b.atlas.isWater t = true ∧ b.hasEnemyForce t p = false)
    (enemy : b.isEnemyLand goal p = true) :
    h.checkUnload p { pieces := [ship.id], route := route.extend goal, action := .unload } =
      .ok () := by
  have hs := hm.effect.stands stands hfree
  have hsea := (PieceKind.carriesCargo_iff.1 carries).1
  have hcargo := hm.cargoOf_ne_nil hb hreg stands hfree hsea loaded
  refine Table.checkUnload_ok_iff.2 ⟨by simp [Route.isEmpty, Route.extend], ?_,
    Table.checkPeace_ok_iff.2 ?_⟩
  · intro u hu
    rw [List.mem_singleton.1 hu]
    refine Table.checkLander_ok_iff.2
      ⟨ship, hs.asset, hs.owner, carries, hcargo, hs.place, ?_, ?_, ?_⟩
    · rw [Table.seaLeg_extend]
      exact moves
    · rw [Table.seaLeg_extend]
      intro t ht
      exact ⟨(hm.effect.after.isWater t).trans (way t ht).1,
        (hm.effect.after.hasEnemyForce t).trans (way t ht).2⟩
    · rw [Route.dest_extend]
      exact hm.effect.after.isHeldLand (.inr enemy)
  · -- in the combat move no peace has to be kept
    rintro ⟨hpeace, -⟩
    rw [hm.epoch] at hpeace
    cases hpeace

end Forms

namespace Planned

variable {b : Board} {p : PlayerId} {o : Order}

theorem pieces_ne_nil {r : Rules} (ho : Planned b r p o) : o.pieces ≠ [] := by
  cases ho with
  | march as route some => simpa using some
  | fly as route some => simpa using some
  | raid a route => simp
  | sail as route some => simpa using some
  | load as shore zone ship some => simpa using some
  | land ship route goal => simp

theorem walk {r : Rules} (ho : Planned b r p o) :
    o.route.territories.IsChain (b.atlas.isAdjacent · · = true) := by
  cases ho with
  | march as route some stands land moves walk => exact walk
  | fly as route some stands air moves walk => exact walk
  | raid a route asset bomber stands moves walk => exact walk
  | sail as route some stands ships moves walk => exact walk
  | load as shore zone ship some stands fits moves adjacent =>
    exact List.isChain_cons_cons.2 ⟨adjacent, List.isChain_singleton _⟩
  | land ship route goal stands carries loaded moves walk => exact walk

/-- The pieces of an order stand by themselves. -/
theorem exists_stands {r : Rules} (hreg : b.Regular) (ho : Planned b r p o) :
    ∀ u ∈ o.pieces, ∃ a, a.id = u ∧ b.Stands p o.route.start a := by
  cases ho with
  | march as route some stands | fly as route some stands | sail as route some stands
  | load as shore zone ship some stands =>
    intro u hu
    rcases List.mem_map.1 hu with ⟨a, ha, rfl⟩
    exact ⟨a, rfl, stands a ha⟩
  | raid a route asset bomber stands =>
    intro u hu
    exact ⟨a, (List.mem_singleton.1 hu).symm, stands (hreg.isAir asset bomber)⟩
  | land ship route goal stands =>
    intro u hu
    exact ⟨ship, (List.mem_singleton.1 hu).symm, stands⟩

/-- What stands by itself is aboard nothing. -/
theorem alone {r : Rules} (hreg : b.Regular) (ho : Planned b r p o) :
    ∀ u ∈ o.pieces, ∀ q, b.piece? u = some q → q.carrier = none := by
  intro u hu q hq
  rcases ho.exists_stands hreg u hu with ⟨a, rfl, hs⟩
  rw [(Board.asset?_eq_some.1 hs.asset).1, Option.some.injEq] at hq
  exact hq ▸ hs.alone

/-- An order to load is given to land pieces, for a ship with cargo space. -/
theorem of_load {r : Rules} {ship : PieceId} (ho : Planned b r p o)
    (hload : o.action = .load ship) :
    (∀ u ∈ o.pieces, ∃ a, b.asset? u = some a ∧ a.kind.isLand = true) ∧
      ∃ a, b.asset? ship = some a ∧ a.kind.isSea = true := by
  cases ho with
  | march | fly | raid | sail | land => cases hload
  | load as shore zone s some stands fits moves adjacent waits room =>
    cases hload
    refine ⟨?_, s, waits.asset, (PieceKind.carriesCargo_iff.1 room).1⟩
    intro u hu
    rcases List.mem_map.1 hu with ⟨a, ha, rfl⟩
    exact ⟨a, (stands a ha).asset, PieceKind.isLand_of_canBeTransported (fits a ha)⟩

/-- An order passes the checks after orders that named other pieces, given room where it loads. -/
theorem passes {done : List PieceId} {h : Table} (hb : b.Sound) (hreg : b.Regular)
    (hm : Meets b p done h) (ho : Planned b b.rules p o) (hfree : ∀ u ∈ o.pieces, u ∉ done)
    (hload : ∀ ship, o.action = .load ship →
      ship ∉ done ∧ Table.cargoCost h.board o.pieces ≤ h.board.freeCapacity ship) :
    h.checkAction p o = .ok () := by
  cases ho with
  | march as route some stands land moves walk leaves way goal =>
    exact hm.march_passes hfree stands land moves way goal
  | fly as route some stands air moves walk leaves way goal =>
    exact hm.flight_passes hfree stands air moves way goal
  | raid a route asset bomber stands moves walk way goal =>
    have hair := hreg.isAir asset bomber
    show h.checkMove p { pieces := [a].map (·.id), route } = .ok ()
    refine hm.flight_passes hfree ?_ ?_ ?_ way goal
    · exact List.forall_mem_singleton.2 (stands hair)
    · exact List.forall_mem_singleton.2 hair
    · exact List.forall_mem_singleton.2 moves
  | sail as route some stands ships moves walk leaves water way =>
    exact hm.sail_passes hreg hfree stands ships moves water way
  | load as shore zone ship some stands fits moves adjacent waits room =>
    rcases hload ship.id rfl with ⟨hship, hroom⟩
    exact hm.load_passes hfree stands fits moves waits room hship hroom
  | land ship route goal stands carries loaded moves walk way enemy =>
    exact hm.land_passes hb hreg (hfree ship.id (List.mem_singleton_self _)) stands carries loaded
      moves way enemy

end Planned

/-! ## The orders of a phase -/

/-- Where nothing is loaded, nothing is stowed. -/
theorem stowed_of_not_isLoad {b : Board} {ship : PieceId} {orders : List Order}
    (h : ∀ o ∈ orders, o.isLoad = false) : stowed b ship orders = 0 := by
  induction orders with
  | nil => rfl
  | cons o rest ih =>
    rw [stowed_cons, ih fun x hx => h x (List.mem_cons_of_mem _ hx), if_neg]
    intro hload
    have hnot := h o List.mem_cons_self
    rw [Order.isLoad_iff.2 ⟨ship, hload⟩] at hnot
    cases hnot

namespace Campaign

/-- The orders of one phase of the combat move, planned on `b`. -/
structure Batch (b : Board) (p : PlayerId) (loading : Bool) (orders : List Order) : Prop where
  planned : ∀ o ∈ orders, Planned b b.rules p o
  nodup : (named orders).Nodup
  loads : ∀ o ∈ orders, o.isLoad = loading

/-- The table when the orders `done` of a phase have been carried out and `rest` is left: all
transports have room for what is still to be loaded. -/
structure Underway (b : Board) (p : PlayerId) (done rest : List Order) (h : Table) : Prop where
  meets : Meets b p (named done) h
  room : ∀ ship a, b.asset? ship = some a → a.kind.isSea = true →
    stowed b ship rest ≤ h.board.freeCapacity ship

section Steps

variable {b : Board} {p : PlayerId} {loading : Bool} {done rest : List Order} {o : Order}
  {h : Table}

/-- A transport is not named by orders to load. -/
theorem Batch.transport_notMem (hd : Batch b p loading (done ++ o :: rest)) {ship : PieceId}
    (hload : o.action = .load ship) : ship ∉ named done := by
  intro hin
  rcases List.mem_flatMap.1 hin with ⟨o', ho', hship⟩
  have ho : o ∈ done ++ o :: rest := List.mem_append_right _ List.mem_cons_self
  have ho'' : o' ∈ done ++ o :: rest := List.mem_append_left _ ho'
  have hisLoad : o'.isLoad = true := by
    rw [hd.loads o' ho'', ← hd.loads o ho]
    exact Order.isLoad_iff.2 ⟨ship, hload⟩
  rcases (hd.planned o ho).of_load hload with ⟨-, a, ha, hsea⟩
  rcases Order.isLoad_iff.1 hisLoad with ⟨ship', hload'⟩
  -- what such an order names are land pieces, and the transport is a ship
  rcases ((hd.planned o' ho'').of_load hload').1 ship hship with ⟨a', ha', hland⟩
  rw [ha, Option.some.injEq] at ha'
  subst ha'
  exact PieceKind.not_isLand_of_isSea hsea hland

/-- Transports have room for what is left, whether the order loaded one of them or none. -/
theorem Underway.room_carryOut (hd : Batch b p loading (done ++ o :: rest))
    (hu : Underway b p done (o :: rest) h) (hcheck : h.checkAction p o = .ok ()) {ship : PieceId}
    {a : Asset} (ha : b.asset? ship = some a) (hsea : a.kind.isSea = true) :
    stowed b ship rest ≤ (Table.carryOut h.board p o).freeCapacity ship := by
  cases haction : o.action with
  | load transport =>
    have hroom := hu.room ship a ha hsea
    rw [stowed_cons, haction] at hroom
    have hboards : ∀ u ∈ o.pieces, Table.Boards p transport o.route.dest u h.board := by
      unfold Table.checkAction at hcheck
      simp only [haction] at hcheck
      exact Table.boards_of_checkLoad hcheck
    rcases Board.asset?_eq_some.1 ha with ⟨hpiece, hkind⟩
    rcases hu.meets.effect.after.piece_to hpiece with ⟨q, hq, hqkind, -⟩
    have hsea' : (h.board.kind q.kind).isSea = true := by
      rw [hu.meets.effect.after.kind, hqkind, ← hkind]
      exact hsea
    have hasset : h.board.asset? ship = some ⟨q, h.board.kind q.kind⟩ :=
      Board.asset?_eq_some.2 ⟨hq, rfl⟩
    -- the room shrinks by what is embarked, and so does what is left to embark
    have hleft := Table.freeCapacity_load hu.meets.effect.sound hboards hasset hsea'
    rw [hu.meets.effect.after.cargoCost] at hleft
    unfold Table.carryOut
    simp only [haction]
    by_cases hship : transport = ship
    · rw [if_pos (by rw [hship])] at hroom
      rw [if_pos hship] at hleft
      omega
    · rw [if_neg (by simpa using hship)] at hroom
      rw [if_neg hship] at hleft
      omega
  | move | unload =>
    -- such an order belongs to a phase that loads nothing
    have ho : o ∈ done ++ o :: rest := List.mem_append_right _ List.mem_cons_self
    have hnone : loading = false := by
      rw [← hd.loads o ho, Order.isLoad, haction]
    have hrest : ∀ x ∈ rest, x.isLoad = false := fun x hx =>
      (hd.loads x (List.mem_append_right _ (List.mem_cons_of_mem _ hx))).trans hnone
    rw [stowed_of_not_isLoad hrest]
    exact Nat.zero_le _

/-- The next order of a phase is taken, and the table stays underway. -/
theorem Underway.step (hb : b.Sound) (hreg : b.Regular)
    (hd : Batch b p loading (done ++ o :: rest)) (hu : Underway b p done (o :: rest) h) :
    ∃ h', h.submitMove p o = .ok h' ∧ Underway b p (done ++ [o]) rest h' := by
  have ho : o ∈ done ++ o :: rest := List.mem_append_right _ List.mem_cons_self
  have hplanned := hd.planned o ho
  have hnodup := hd.nodup
  rw [named_append, named_cons, List.nodup_append] at hnodup
  -- a phase names every piece once
  have hfree : ∀ u ∈ o.pieces, u ∉ named done := fun u hmem hdone =>
    hnodup.2.2 u hdone u (List.mem_append_left _ hmem) rfl
  have hcheck : h.checkAction p o = .ok () := by
    refine hplanned.passes hb hreg hu.meets hfree ?_
    intro ship hload
    refine ⟨hd.transport_notMem hload, ?_⟩
    rcases hplanned.of_load hload with ⟨-, a, ha, hsea⟩
    have hroom := hu.room ship a ha hsea
    rw [stowed_cons, if_pos hload] at hroom
    rw [hu.meets.effect.after.cargoCost]
    omega
  have htaken : h.submitMove p o = .ok { h with board := Table.carryOut h.board p o } :=
    Table.submitMove_ok_iff.2
      ⟨hplanned.pieces_ne_nil, hu.meets.effect.after.walk hplanned.walk, hcheck, rfl⟩
  have heffect := Table.submitMove_effect hu.meets.effect.sound htaken
  refine ⟨_, htaken, ⟨?_, hu.meets.epoch, ?_⟩, ?_⟩
  · rw [named_append, named_singleton]
    exact (hu.meets.effect.mono (List.subset_append_left _ _)).trans
      (heffect.mono (List.subset_append_right _ _))
  · intro u hmem
    rw [named_append, named_singleton] at hmem
    rcases List.mem_append.1 hmem with hdone | hmem
    · exact hu.meets.alone u hdone
    · exact hplanned.alone hreg u hmem
  · intro ship a ha hsea
    exact Underway.room_carryOut hd hu hcheck ha hsea

end Steps

/-- Every order of a phase of the combat move is taken. -/
theorem Ran.refusal_eq_none {p : PlayerId} {phase : Phase} {s s' : Campaign Table}
    {r : PhaseRecord} (hran : Ran phase s s' r) (hb : s.host.board.Sound)
    (hreg : s.host.board.Regular) (hsits : Sits p .combat s) (hepoch : s.host.epoch = .combat)
    (hrules : s.desk.context.rules = s.host.board.rules) :
    (∀ d ∈ r.dispatches, d.refusal = none) ∧ s'.host.epoch = .combat := by
  have hboard : r.board = s.host.board := hran.board
  have hbatch : Batch s.host.board p (phase == Phase.transportLoad) r.orders := by
    have hfit : ∀ o ∈ r.orders, Fit s.host.board s.host.board.rules p .combat
        (phase == Phase.transportLoad) o := by
      intro o ho
      have hfit := hran.works.drafts.fit o ho (hboard ▸ hb)
      rw [hboard, hrules, hsits.player, hsits.epoch] at hfit
      exact hfit
    exact ⟨fun o ho => (hfit o ho).planned rfl, hran.works.drafts.nodup_named,
      fun o ho => (hfit o ho).loads⟩
  have hroom : ∀ ship, stowed s.host.board ship r.orders ≤ s.host.board.freeCapacity ship := by
    intro ship
    -- only one phase loads, and it counts the room when it plans
    by_cases hphase : phase = .transportLoad
    · have hstowed := Phase.plan_stowed hb s.desk
      unfold Ensures at hstowed
      rw [← hphase, ← hboard, hran.plans] at hstowed
      rw [← hboard]
      exact hstowed ship
    · have hnone : (phase == Phase.transportLoad) = false := beq_false_of_ne hphase
      rw [stowed_of_not_isLoad fun o ho => (hbatch.loads o ho).trans hnone]
      exact Nat.zero_le _
  have hstart : ∃ done, r.orders = done ++ r.orders ∧
      Underway s.host.board p done r.orders s.host := by
    refine ⟨[], rfl, ⟨.refl p _ hb, hepoch, ?_⟩, fun ship _ _ _ => hroom ship⟩
    intro u hu
    cases hu
  -- every order is taken, because the phase is underway whenever one is submitted
  have hall := isAccepted_of_submit (η := Table) (p := p)
    (J := fun rest h => ∃ done, r.orders = done ++ rest ∧ Underway s.host.board p done rest h)
    (fun o rest h hJ => by
      rcases hJ with ⟨done, hsplit, hu⟩
      rcases hu.step hb hreg (hsplit ▸ hbatch) with ⟨h', htaken, hnext⟩
      exact ⟨h', htaken, done ++ [o], by rw [hsplit, List.append_assoc]; rfl, hnext⟩) hstart
  rw [← hsits.player, hran.submits] at hall
  rcases hall with ⟨haccepted, done, -, hlast⟩
  refine ⟨?_, hlast.meets.epoch⟩
  intro d hd
  have hd := haccepted d hd
  unfold Dispatch.isAccepted at hd
  exact Option.isNone_iff_eq_none.1 hd

end Campaign

/-! ## The combat move -/

/-- No order is counted as rejected just when none was refused. -/
theorem EpochRecord.rejected_eq_zero_iff {record : EpochRecord} :
    record.rejected = 0 ↔ ∀ r ∈ record.phases, ∀ d ∈ r.dispatches, d.refusal = none := by
  unfold rejected PhaseRecord.rejected
  rw [sumOf_eq, List.sum_eq_zero_iff_forall_eq_nat, List.forall_mem_map]
  refine forall₂_congr ?_
  intro r _
  rw [List.countP_eq_zero]
  refine forall₂_congr ?_
  intro d _
  unfold Dispatch.isAccepted
  simp

/-- A scenario of the usual sort sets up a regular board. -/
theorem Scenario.regular_setUp {s : Scenario} {h : Table} (hset : s.setUp = .ok h)
    (hships : ∀ k ∈ s.kinds, 0 < k.transportCapacity → k.isSea = true)
    (hbombers : ∀ k ∈ s.kinds, k.isStrategicBomber = true → k.isAir = true)
    (hseas : ∀ t ∈ s.territories, t.water = true → t.impassable = false) : h.board.Regular := by
  constructor
  · exact forall_kind_of_setUp (P := fun k => 0 < k.transportCapacity → k.isSea = true) hset
      (by decide) (fun _ _ h => h) hships
  · exact forall_kind_of_setUp (P := fun k => k.isStrategicBomber = true → k.isAir = true) hset
      (by decide) (fun _ _ h => h) hbombers
  · intro t ht
    exact setUp_seas hset hseas t ht

namespace Campaign

/-- On any board that can be reached from a scenario in which only ships have cargo space, strategic
bombers are aircraft and sea zones can be entered, for every player and configuration: the table
takes every order of the combat move at the moment it is submitted. -/
theorem runEpoch_rejected (s : Scenario) (h : Table) (hset : s.setUp = .ok h)
    (hships : ∀ k ∈ s.kinds, 0 < k.transportCapacity → k.isSea = true)
    (hbombers : ∀ k ∈ s.kinds, k.isStrategicBomber = true → k.isAir = true)
    (hseas : ∀ t ∈ s.territories, t.water = true → t.impassable = false)
    (earlier commands : List Command) (p : PlayerId) (config : Config) (ledger : Ledger)
    (record : EpochRecord) (last : Campaign Table)
    (hrun : runEpoch .combat
      ⟨h.play commands, ⟨.build (h.play earlier).board p config, ledger⟩⟩ = .ok record last) :
    record.rejected = 0 ∧ ∀ r ∈ record.phases, ∀ d ∈ r.dispatches, d.refusal = none := by
  have hregular := Scenario.regular_setUp hset hships hbombers hseas
  have hsound := Scenario.setUp_sound hset
  rcases Table.play_keeps hsound earlier with ⟨-, hearlier⟩
  have hkeeps := runEpoch_keeps (Table.steady h.board)
    (s := ⟨h.play commands, ⟨.build (h.play earlier).board p config, ledger⟩⟩)
    (J := fun records s => s.host.epoch = .combat ∧ s.desk.context.rules = h.board.rules ∧
      ∀ r ∈ records, ∀ d ∈ r.dispatches, d.refusal = none)
    (Table.play_keeps hsound commands) .combat ⟨rfl, hearlier.rules, by simp⟩ ?_
  · -- no refusal in any phase
    unfold Ensures at hkeeps
    rw [hrun] at hkeeps
    rcases hkeeps with ⟨-, ⟨-, -, hnone⟩, -⟩
    exact ⟨EpochRecord.rejected_eq_zero_iff.2 hnone, hnone⟩
  · -- what a phase plans is taken on the board that it was planned on, and the epoch goes on
    rintro phase - s₁ s₂ records r ⟨hs₁, hground⟩ hsits ⟨hepoch, hrules, hnone⟩ hran
    obtain ⟨htaken, hepoch'⟩ := hran.refusal_eq_none hs₁ (hregular.of_sameGround hground) hsits
      hepoch (hrules.trans hground.rules.symm)
    refine ⟨hepoch', hran.works.rules_eq.trans hrules, ?_⟩
    intro r' hr'
    rcases List.mem_append.1 hr' with hr' | hr'
    · exact hnone r' hr'
    · rw [List.mem_singleton.1 hr']
      exact htaken

end Campaign

/-! ## A crossing -/

/-- Troops wait at home for a transport, and an enemy holds the other shore of the bay. -/
def crossing : Scenario where
  players := [{ name := "Red", capital := some "Home" }, { name := "Blue", team := 1 }]
  territories := [
    { name := "Home", owner := some "Red" },
    { name := "Coast", owner := some "Blue", production := 3 },
    { name := "Bay", water := true }]
  connections := [("Home", "Bay"), ("Bay", "Coast")]
  kinds := [
    { name := "infantry", attack := 1, defense := 2, cost := 3, transportCost := 2 },
    { name := "transport", domain := .sea, movement := 2, cost := 7, transportCapacity := 4 },
    { name := "cruiser", domain := .sea, attack := 3, defense := 3, movement := 2, cost := 12,
      canBombard := true }]
  pieces := [
    { kind := "transport", owner := "Red", place := "Bay" },
    { kind := "cruiser", owner := "Red", place := "Bay" },
    { kind := "infantry", owner := "Blue", place := "Coast" },
    { kind := "infantry", owner := "Red", place := "Home", count := 5 }]

namespace Campaign

set_option maxRecDepth 100000 in
/-- Two of the troops are loaded and landed in one combat move. -/
theorem runEpoch_rejected_crossing :
    ∃ (h : Table) (record : EpochRecord) (last : Campaign Table), crossing.setUp = .ok h ∧
      runEpoch .combat ⟨h.play [], ⟨.build (h.play []).board 0 {}, .new .combat⟩⟩ =
        .ok record last ∧
      record.orders.map (·.action) = [.load 0, .unload] ∧ record.rejected = 0 := by
  have hpass : (crossing.setUp.toOption.any fun h =>
      endsWith (fun record _ => record.orders.map (·.action) == [.load 0, .unload])
        (runEpoch .combat) ⟨h.play [], ⟨.build (h.play []).board 0 {}, .new .combat⟩⟩) = true := by
    decide +kernel
  obtain ⟨h, hset, hends⟩ := Scenario.exists_setUp hpass
  obtain ⟨record, last, hrun, hcheck⟩ := exists_of_endsWith hends
  refine ⟨h, record, last, hset, hrun, eq_of_beq hcheck, ?_⟩
  exact (runEpoch_rejected crossing h hset (by decide) (by decide) (by decide) [] [] 0 {}
    (.new .combat) record last hrun).1

end Campaign

end Conquest
