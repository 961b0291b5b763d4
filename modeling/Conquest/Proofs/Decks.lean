import Conquest.Proofs.Returns

/-!
# Aircraft and the carriers under them

Aircraft that ships can carry go into the combat move in two ways. Either they are asked whether
they can land afterwards, or they sail with the fleet of their zone. A fleet is taken piece by
piece, and nobody asks whether a carrier is among the pieces that are taken: aircraft may end at sea
where no carrier is. Whether one is there can be told from the orders alone.

* `Board.hasDeck`: a carrier of the player or an ally stands somewhere.
* `Board.Effect.hasDeck_iff`: where carriers are after some orders: where an order brought one, and
  where one was that no order named.
* `Campaign.runEpoch_decks`: what has become of the aircraft when the combat move is over.
* `Campaign.exists_adrift`: a fighter that left its carrier behind.
-/

namespace Conquest

namespace Board

/-- Whether a carrier of `p` or an ally stands in a territory. -/
def hasDeck (b : Board) (t : TerritoryId) (p : PlayerId) : Bool :=
  (b.alliedIn t p).any (·.kind.isCarrier)

/-- An order that brings a carrier to `t`. -/
def BringsDeck (b : Board) (t : TerritoryId) (o : Order) : Prop :=
  o.leg.dest = t ∧ ∃ u ∈ o.pieces, ∃ a, b.asset? u = some a ∧ a.kind.isCarrier = true

/-- A carrier of `p` or an ally stands in `t` and none of the orders names it. -/
def KeepsDeck (b : Board) (p : PlayerId) (t : TerritoryId) (orders : List Order) : Prop :=
  ∃ a ∈ b.alliedIn t p, a.kind.isCarrier = true ∧ a.id ∉ named orders

/-- A ship or an aircraft is listed among those of its team exactly where it stands. -/
theorem Sound.mem_alliedIn_iff {b : Board} (hb : b.Sound) {t : TerritoryId} {p : PlayerId}
    {a : Asset} (hland : a.kind.isLand = false) :
    a ∈ b.alliedIn t p ↔
      b.asset? a.id = some a ∧ a.piece.territory = t ∧ b.isAllied p a.piece.owner = true := by
  have hset : ∀ u, b.asset? u = some a → b.IsSettled a.piece := by
    intro u ha
    rcases asset?_eq_some.1 ha with ⟨hq, hkind⟩
    exact isSettled_of_carrier (hb.carrier_eq_none hq (hkind ▸ hland))
  unfold alliedIn
  rw [List.mem_filter]
  constructor
  · rintro ⟨hlisted, hallied⟩
    have ha := hb.asset?_of_mem hlisted
    exact ⟨ha, hb.territory_of_mem hlisted (hset a.id ha), hallied⟩
  · rintro ⟨ha, hplace, hallied⟩
    have hlisted := (hb.mem_garrison (asset?_eq_some.1 ha).1 (hset a.id ha)).2 hplace.symm
    exact ⟨mem_assetsIn.2 ⟨a.id, hlisted, ha⟩, hallied⟩

end Board

theorem PieceKind.isLand_eq_false_of_isCarrier {k : PieceKind} (h : k.isCarrier = true) :
    k.isLand = false := by
  unfold isCarrier at h
  rw [Bool.and_eq_true] at h
  exact isLand_eq_false_of_isSea h.1

/-! ## Carriers -/

/-- After orders that have brought to rest what they name, a carrier stands where one was brought,
and where one stood that was not named. -/
theorem Board.Effect.hasDeck_iff {b b' : Board} {p : PlayerId} {orders : List Order}
    (heffect : Effect p (named orders) b b') (hb : b.Sound)
    (hrests : ∀ o ∈ orders, ∀ u ∈ o.pieces, b'.Rests p o u) (t : TerritoryId) :
    b'.hasDeck t p = true ↔ (∃ o ∈ orders, b.BringsDeck t o) ∨ b.KeepsDeck p t orders := by
  have hb' := heffect.sound
  have hafter := heffect.after
  unfold hasDeck
  rw [List.any_eq_true]
  constructor
  · rintro ⟨x, hx, hcarrier⟩
    have hland := PieceKind.isLand_eq_false_of_isCarrier hcarrier
    rcases (hb'.mem_alliedIn_iff hland).1 hx with ⟨hasset, hplace, hallied⟩
    by_cases hnamed : x.id ∈ named orders
    · -- it was brought by the order that names it
      left
      rcases List.mem_flatMap.1 hnamed with ⟨o, ho, hin⟩
      rcases hrests o ho x.id hin with ⟨a, ha, -, hrest⟩
      rw [hasset, Option.some.injEq] at ha
      subst ha
      rcases hafter.asset hasset with ⟨a, ha, hkind, -⟩
      exact ⟨o, ho, (hrest hland).1.symm.trans hplace, x.id, hin, a, ha, hkind ▸ hcarrier⟩
    · -- it was there before
      right
      have hbefore := (heffect.asset?_eq_some_iff hb hnamed hland).1 hasset
      rw [hafter.isAllied] at hallied
      exact ⟨x, (hb.mem_alliedIn_iff hland).2 ⟨hbefore, hplace, hallied⟩, hcarrier, hnamed⟩
  · rintro (⟨o, ho, hend, u, hu, a, ha, hcarrier⟩ | ⟨a, ha, hcarrier, hfree⟩)
    · -- the player's own carrier rests at the end of its way
      rcases hrests o ho u hu with ⟨x, hx, howner, hrest⟩
      rcases hafter.asset hx with ⟨a₀, ha₀, hkind, -⟩
      rw [ha, Option.some.injEq] at ha₀
      subst ha₀
      rw [← hkind] at hcarrier
      have hland := PieceKind.isLand_eq_false_of_isCarrier hcarrier
      have hplace := (hrest hland).1.trans hend
      rw [← hb'.id_asset hx] at hx
      refine ⟨x, (hb'.mem_alliedIn_iff hland).2 ⟨hx, hplace, ?_⟩, hcarrier⟩
      rw [howner]
      exact isAllied_self b' p
    · -- a carrier that was not named is where it was
      have hland := PieceKind.isLand_eq_false_of_isCarrier hcarrier
      rcases (hb.mem_alliedIn_iff hland).1 ha with ⟨hasset, hplace, hallied⟩
      have hstays := (heffect.asset?_eq_some_iff hb hfree hland).2 hasset
      rw [← hafter.isAllied] at hallied
      exact ⟨a, (hb'.mem_alliedIn_iff hland).2 ⟨hstays, hplace, hallied⟩, hcarrier⟩

/-! ## The combat move -/

namespace Campaign

/-- After some phases of a combat move that started on `b₀`: what was sent rests, and what was not
sent is spared. -/
structure Deployed (b₀ : Board) (p : PlayerId) (records : List PhaseRecord) (s : Campaign Table) :
    Prop where
  returned : Returned p records s
  effect : Board.Effect p (named (takenOf records)) b₀ s.host.board

theorem Deployed.step {ground b₀ : Board} {p : PlayerId} {phase : Phase} {s s' : Campaign Table}
    {records : List PhaseRecord} {r : PhaseRecord}
    (hs : s.host.board.Sound ∧ ground.SameGround s.host.board) (hsits : Sits p .combat s)
    (h : Deployed b₀ p records s) (hran : Ran phase s s' r) :
    Deployed b₀ p (records ++ [r]) s' := by
  refine ⟨h.returned.step hs hsits hran, ?_⟩
  rw [takenOf_concat, named_append]
  exact (h.effect.mono (List.subset_append_left _ _)).trans
    ((hran.recovered hs.1 hsits).effect.mono (List.subset_append_right _ _))

/-- On any board that can be reached, for every player and configuration: when the combat move is
over, every piece that was named in an order which the table took is the player's, and if a ship can
carry it, it is at the end of the route. Either it can land near there with the movement that it has
left, or it came from one sea zone to another; there a carrier of the player or an ally is with it
exactly if an order that was taken brought one or none that was taken named one that was there. -/
theorem runEpoch_decks (s : Scenario) (h : Table) (hset : s.setUp = .ok h)
    (commands : List Command) (desk : Desk) (record : EpochRecord) (last : Campaign Table)
    (hrun : runEpoch .combat ⟨h.play commands, desk⟩ = .ok record last) :
    ∀ o ∈ takenOf record.phases, ∀ u ∈ o.pieces, ∃ a, last.host.board.asset? u = some a ∧
      a.piece.owner = desk.context.player ∧ (a.kind.isCarrierBorne = true →
        a.piece.territory = o.route.dest ∧
        (canLandNear last.host.board a.piece.owner a.piece.territory a.piece.movementLeft = true ∨
          last.host.board.atlas.IsCrossing o.route ∧
          (last.host.board.hasDeck a.piece.territory a.piece.owner = true ↔
            (∃ o' ∈ takenOf record.phases,
              (h.play commands).board.BringsDeck a.piece.territory o') ∨
            (h.play commands).board.KeepsDeck a.piece.owner a.piece.territory
              (takenOf record.phases)))) := by
  rcases Table.play_keeps (Scenario.setUp_sound hset) commands with ⟨hb, hground⟩
  have hkeeps := runEpoch_keeps (Table.steady h.board) (s := ⟨h.play commands, desk⟩)
    (J := Deployed (h.play commands).board desk.context.player) ⟨hb, hground⟩ .combat
    ⟨⟨accounted_nil _ rfl, by simp⟩, .refl _ _ hb⟩
    fun phase _ s₁ s₂ records r hs₁ hsits hdeployed hran => hdeployed.step hs₁ hsits hran
  obtain ⟨-, hdeployed, -⟩ := hkeeps.of_ok hrun
  intro o ho u hu
  have hrests := hdeployed.returned.rests
  rcases hrests o ho u hu with ⟨a, ha, howner, hrest⟩
  refine ⟨a, ha, howner, ?_⟩
  intro hborne
  have hair : a.kind.isAir = true := by
    unfold PieceKind.isCarrierBorne at hborne
    rw [Bool.and_eq_true] at hborne
    exact hborne.1
  -- what is carried flies, and a flight ends at the end of its route
  obtain ⟨hplace, hflies⟩ := hrest (PieceKind.isLand_eq_false_of_isAir hair)
  rcases hflies hair with ⟨hmove, hway⟩
  rw [Order.leg_of_move hmove] at hplace
  rw [howner, hplace]
  refine ⟨rfl, hway.imp id ?_⟩
  rintro ⟨-, hcrossing⟩
  exact ⟨hcrossing, hdeployed.effect.hasDeck_iff hb hrests o.route.dest⟩

end Campaign

/-! ## A carrier and its fighter -/

/-- A carrier with a fighter two zones off the coast, and an enemy ship in the zone beyond. -/
def flattop (enemy : String) : Scenario where
  players := [{ name := "Red" }, { name := "Blue", team := 1 }]
  territories := [
    { name := "Home", owner := some "Red" }, { name := "Bay", water := true },
    { name := "Gulf", water := true }, { name := "Ocean", water := true }]
  connections := [("Home", "Bay"), ("Bay", "Gulf"), ("Gulf", "Ocean")]
  kinds := [
    { name := "carrier", domain := .sea, attack := 1, defense := 2, movement := 2, cost := 14,
      carrierCapacity := 2 },
    { name := "fighter", domain := .air, attack := 3, defense := 4, movement := 2, cost := 10,
      carrierCost := 1 },
    { name := "transport", domain := .sea, movement := 2, cost := 7, transportCapacity := 2 },
    { name := "submarine", domain := .sea, attack := 2, defense := 1, movement := 2, cost := 6 }]
  pieces := [
    { kind := "carrier", owner := "Red", place := "Gulf" },
    { kind := "fighter", owner := "Red", place := "Gulf" },
    { kind := enemy, owner := "Blue", place := "Ocean" }]

namespace Campaign

set_option maxRecDepth 100000 in
/-- Against a submarine the carrier is needed too, and the fighter can come down on it. -/
theorem runEpoch_decks_flattop :
    ∃ (h : Table) (record : EpochRecord) (last : Campaign Table),
      (flattop "submarine").setUp = .ok h ∧
      runEpoch .combat ⟨h.play [], .fresh h.board 0 {}⟩ = .ok record last ∧
      ∃ a, last.host.board.asset? 1 = some a ∧ a.kind.isCarrierBorne = true ∧
        a.piece.territory = 3 ∧ canLandNear last.host.board 0 3 a.piece.movementLeft = false ∧
        last.host.board.hasDeck 3 0 = true := by
  have hpass : ((flattop "submarine").setUp.toOption.any fun h =>
      (h.board.asset? 0).any (·.kind.isCarrier) &&
      endsWith (fun record last =>
          takenOf record.phases == [{ pieces := [1, 0], route := .step 2 3 }] &&
          (last.host.board.asset? 1).any fun a => a.kind.isCarrierBorne && a.piece.owner == 0 &&
            !canLandNear last.host.board 0 3 a.piece.movementLeft)
        (runEpoch .combat) ⟨h.play [], .fresh h.board 0 {}⟩) = true := by
    decide +kernel
  obtain ⟨h, hset, hboth⟩ := Scenario.exists_setUp hpass
  obtain ⟨hcarrier, hends⟩ := Bool.and_eq_true_iff.1 hboth
  obtain ⟨record, last, hrun, hseen⟩ := exists_of_endsWith hends
  rw [Bool.and_eq_true, beq_iff_eq] at hseen
  obtain ⟨htaken, hfighter⟩ := hseen
  have hdecks := runEpoch_decks (flattop "submarine") h hset [] (.fresh h.board 0 {}) record last
    hrun
  rw [htaken] at hdecks
  obtain ⟨a, ha, howner, hrests⟩ := hdecks _ List.mem_cons_self 1 (by decide)
  rw [ha, Option.any_some] at hfighter
  simp only [Bool.and_eq_true, beq_iff_eq, Bool.not_eq_true'] at hfighter
  obtain ⟨⟨hborne, hred⟩, hdry⟩ := hfighter
  obtain ⟨hplace, hway⟩ := hrests hborne
  have hocean : a.piece.territory = 3 := hplace
  rw [hred, hocean, hdry] at hway
  rcases hway with habsurd | ⟨-, hdeck⟩
  · cases habsurd
  · refine ⟨h, record, last, hset, hrun, a, ha, hborne, hocean, hdry, ?_⟩
    -- the order that sends the fighter brings the carrier
    obtain ⟨x, hx, hkind⟩ := (Option.any_eq_true _ _).1 hcarrier
    exact hdeck.2 (.inl ⟨_, List.mem_cons_self, rfl, 0, by decide, x, hx, hkind⟩)

set_option maxRecDepth 100000 in
/-- Against a transport the fighter is enough: it goes alone, cannot land and has no carrier where
it is. -/
theorem exists_adrift :
    ∃ (h : Table) (record : EpochRecord) (last : Campaign Table),
      (flattop "transport").setUp = .ok h ∧
      runEpoch .combat ⟨h.play [], .fresh h.board 0 {}⟩ = .ok record last ∧
      ∃ o ∈ takenOf record.phases, 1 ∈ o.pieces ∧
        ∃ a, last.host.board.asset? 1 = some a ∧ a.kind.isCarrierBorne = true ∧
          canLandNear last.host.board a.piece.owner a.piece.territory a.piece.movementLeft =
            false ∧
          last.host.board.hasDeck a.piece.territory a.piece.owner = false := by
  have hpass : ((flattop "transport").setUp.toOption.any fun h =>
      endsWith (fun record last =>
          (takenOf record.phases).any (fun o => o.pieces.contains 1) &&
          (last.host.board.asset? 1).any fun a => a.kind.isCarrierBorne &&
            !canLandNear last.host.board a.piece.owner a.piece.territory a.piece.movementLeft &&
            !last.host.board.hasDeck a.piece.territory a.piece.owner)
        (runEpoch .combat) ⟨h.play [], .fresh h.board 0 {}⟩) = true := by
    decide +kernel
  obtain ⟨h, hset, hends⟩ := Scenario.exists_setUp hpass
  obtain ⟨record, last, hrun, hseen⟩ := exists_of_endsWith hends
  rw [Bool.and_eq_true, List.any_eq_true] at hseen
  obtain ⟨⟨o, ho, hnamed⟩, hfighter⟩ := hseen
  obtain ⟨a, ha, hstray⟩ := (Option.any_eq_true _ _).1 hfighter
  simp only [Bool.and_eq_true, Bool.not_eq_true'] at hstray
  obtain ⟨⟨hborne, hdry⟩, halone⟩ := hstray
  exact ⟨h, record, last, hset, hrun, o, ho, List.contains_iff_mem.1 hnamed, a, ha, hborne, hdry,
    halone⟩

end Campaign

end Conquest
