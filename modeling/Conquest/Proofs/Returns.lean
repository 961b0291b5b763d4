import Conquest.Proofs.Accounts
import Conquest.Proofs.Arrivals
import Conquest.Proofs.Strikes

/-!
# Aircraft can return

In the combat move aircraft that no ship carries are sent where they can land with the movement that
is left to them. No later order takes this from them: none names them again, what is in reach over
open territory stays in reach, and land that is friendly is not captured.

* `Board.After.canLandNear`: where aircraft of the player could land near, they still can.
* `CombatOrder.flies`: where the orders of the combat move send aircraft.
* `Board.Rests`: a piece where an order brought it; `Board.Rests.of_named`, `Board.Rests.keep`:
  orders bring pieces to rest, and leave those that they do not name at rest.
* `Campaign.Returned`: what was sent so far rests; `Campaign.runEpoch_returns`: all aircraft that no
  ship carries and that went into combat can land.
-/

namespace Conquest

/-! ## Landing spots -/

/-- How far a search gets depends on the neighbors only. -/
theorem Atlas.wavesFrom_congr {m m' : Atlas} (h : m'.neighbors = m.neighbors)
    (admits : TerritoryId → Bool) (rounds : Nat) (reached frontier : List TerritoryId) :
    m'.wavesFrom admits rounds reached frontier = m.wavesFrom admits rounds reached frontier := by
  induction rounds generalizing reached frontier with
  | zero => rfl
  | succ rounds ih =>
    unfold wavesFrom
    simp only [h, ih]

namespace Board

variable {p : PlayerId} {b b' : Board}

theorem SameGround.neighborsWithin (h : b.SameGround b') (t : TerritoryId) (radius : Nat)
    (passable : TerritoryId → Bool) :
    b'.atlas.neighborsWithin t radius passable = b.atlas.neighborsWithin t radius passable := by
  have hneighbors : b'.atlas.neighbors = b.atlas.neighbors := by
    funext s
    rw [Atlas.neighbors, h.adjacency, Atlas.neighbors]
  unfold Atlas.neighborsWithin Atlas.waves
  rw [Atlas.wavesFrom_congr hneighbors]

theorem SameGround.isOpen (h : b.SameGround b') : b'.atlas.isOpen = b.atlas.isOpen := by
  funext t
  have himpassable := h.impassable t
  unfold Board.territory at himpassable
  rw [Atlas.isOpen, himpassable, Atlas.isOpen]

/-- Where aircraft could land near, they still can. -/
theorem After.canLandNear (h : After p b b') {t : TerritoryId} {left : Nat}
    (hlands : canLandNear b p t left = true) : canLandNear b' p t left = true := by
  unfold Conquest.canLandNear at hlands ⊢
  rw [h.isOpen, h.neighborsWithin]
  rw [Bool.or_eq_true, List.any_eq_true] at hlands ⊢
  rcases hlands with hhere | ⟨s, hs, hnear⟩
  · exact .inl (h.isLandable hhere)
  · exact .inr ⟨s, hs, h.isLandable hnear⟩

/-- Water stays water. -/
theorem SameGround.isCrossing (h : b.SameGround b') {route : Route} :
    b'.atlas.IsCrossing route = b.atlas.IsCrossing route := by
  rw [Atlas.IsCrossing, h.isWater, h.isWater, Atlas.IsCrossing]

end Board

/-! ## Orders -/

/-- Aircraft move where they can land afterwards, or sail with a fleet that could carry them. -/
theorem CombatOrder.flies {b : Board} {p : PlayerId} {attacked : List TerritoryId} {o : Order}
    (horder : CombatOrder b p attacked o) {u : PieceId} {a : Asset} (hu : u ∈ o.pieces)
    (ha : b.asset? u = some a) (hair : a.kind.isAir = true) :
    o.action = .move ∧
      (canLandNear b p o.route.dest (a.piece.movementLeft - o.route.length) = true ∨
        a.kind.isCarrierBorne = true ∧ b.atlas.IsCrossing o.route) := by
  have hland := PieceKind.isLand_eq_false_of_isAir hair
  have hsea := PieceKind.isSea_eq_false_of_isAir hair
  -- aircraft are sent in flights, in fleets and on raids, and in no other order
  cases horder with
  | attack t recruited =>
    cases recruited with
    | march as route party land home free goal =>
      rw [land a (party.mem_of_asset hu ha)] at hland
      cases hland
    | fly as route party air lands goal =>
      refine ⟨rfl, .inl ?_⟩
      rw [goal]
      exact lands rfl a (party.mem_of_asset hu ha)
    | sail as route party ships waters =>
      have hmem := party.mem_of_asset hu ha
      have hborne := (ships a hmem).resolve_left (Bool.eq_false_iff.1 hsea)
      exact ⟨rfl, .inr ⟨hborne, waters a hmem hsea⟩⟩
    | land ship route party carries adjacent =>
      have hship := List.mem_singleton.1 (party.mem_of_asset hu ha)
      have hcarries := (PieceKind.carriesCargo_iff.1 carries).1
      rw [← hship, hsea] at hcarries
      cases hcarries
  | raid bomber route party isBomber lands =>
    rw [List.mem_singleton.1 (party.mem_of_asset hu ha)]
    exact ⟨rfl, .inl lands⟩
  | loading loads =>
    rcases loads with ⟨as, shore, zone, ship, party, fits, home, free, waits⟩
    have hcan := fits a (party.mem_of_asset hu ha)
    rw [PieceKind.isLand_of_canBeTransported hcan] at hland
    cases hland

/-- A piece of `p` that can land near if it is an aircraft which no ship carries. -/
def Board.Returns (b : Board) (p : PlayerId) (u : PieceId) : Prop :=
  ∃ a, b.asset? u = some a ∧ a.piece.owner = p ∧ (a.kind.isAir = true → a.kind.carrierCost = 0 →
    canLandNear b p a.piece.territory a.piece.movementLeft = true)

/-- A piece of `p` where an order brought it. A ship is at the end of its way, and so is an
aircraft, which can land near unless it came with a fleet that could carry it. -/
def Board.Rests (b : Board) (p : PlayerId) (o : Order) (u : PieceId) : Prop :=
  ∃ a, b.asset? u = some a ∧ a.piece.owner = p ∧ (a.kind.isLand = false →
    a.piece.territory = o.leg.dest ∧ (a.kind.isAir = true → o.action = .move ∧
      (canLandNear b p o.route.dest a.piece.movementLeft = true ∨
        a.kind.isCarrierBorne = true ∧ b.atlas.IsCrossing o.route)))

theorem Order.leg_of_move {o : Order} (h : o.action = .move) : o.leg = o.route := by
  simp [leg, isUnload, h]

namespace Board.Rests

variable {b b' : Board} {p : PlayerId} {o : Order} {u : PieceId}

/-- What no ship carries can land if it rests. -/
theorem returns (h : b.Rests p o u) : b.Returns p u := by
  rcases h with ⟨a, ha, howner, hrests⟩
  refine ⟨a, ha, howner, ?_⟩
  intro hair hcost
  obtain ⟨hplace, hflies⟩ := hrests (PieceKind.isLand_eq_false_of_isAir hair)
  rcases hflies hair with ⟨hmove, hlands | ⟨hborne, -⟩⟩
  · rw [hplace, Order.leg_of_move hmove]
    exact hlands
  · simp [PieceKind.isCarrierBorne, hcost] at hborne

/-- What is not named rests where it is. -/
theorem keep (h : b.Rests p o u) (hb : b.Sound) {named : List PieceId}
    (heffect : Effect p named b b') (hfree : u ∉ named) : b'.Rests p o u := by
  rcases h with ⟨a, ha, howner, hrests⟩
  cases hland : a.kind.isLand with
  | true =>
    -- nothing is said of land pieces
    rcases heffect.after.asset_to ha with ⟨x, hx, hkind, hxowner⟩
    refine ⟨x, hx, hxowner.trans howner, ?_⟩
    intro hxland
    rw [hkind, hland] at hxland
    cases hxland
  | false =>
    refine ⟨a, (heffect.asset?_eq_some_iff hb hfree hland).2 ha, howner, ?_⟩
    intro _
    obtain ⟨hplace, hflies⟩ := hrests hland
    refine ⟨hplace, ?_⟩
    intro hair
    rcases hflies hair with ⟨hmove, hlands | hfleet⟩
    · exact ⟨hmove, .inl (heffect.after.canLandNear hlands)⟩
    · rw [← heffect.after.isCrossing] at hfleet
      exact ⟨hmove, .inr hfleet⟩

/-- What an order of the combat move names rests when the order has been taken. -/
theorem of_named {attacked : List TerritoryId} {h h' : Table} {done : List PieceId}
    (hb : b.Sound) (horder : CombatOrder b p attacked o) (heffect : Effect p done b h.board)
    (hfree : ∀ u ∈ o.pieces, u ∉ done) (hnodup : o.pieces.Nodup)
    (htaken : h.submitMove p o = .ok h') (hu : u ∈ o.pieces) : h'.board.Rests p o u := by
  have hthen := Table.submitMove_effect heffect.sound htaken
  have hafter := heffect.after.trans hthen.after
  rcases Table.named_of_submitMove htaken u hu with ⟨a, ha, howner, -⟩
  rcases hthen.after.asset_to ha with ⟨x, hx, hkind, hxowner⟩
  refine ⟨x, hx, hxowner.trans howner, ?_⟩
  rw [hkind]
  intro hland
  rcases asset?_eq_some.1 ha with ⟨hq, hakind⟩
  have hgone := Table.piece?_submitMove heffect.sound htaken hnodup hu hq (hakind ▸ hland)
  have hpiece : x.piece = a.piece.goneAlong o.leg := by
    have hq' := (asset?_eq_some.1 hx).1
    rw [hgone, Option.some.injEq] at hq'
    exact hq'.symm
  rw [hpiece]
  refine ⟨rfl, ?_⟩
  intro hair
  -- on the board of the planning it stood as it stands when the order is taken
  have hplanned := (heffect.asset?_eq_some_iff hb (hfree u hu) hland).1 ha
  rcases horder.flies hu hplanned hair with ⟨hmove, hlands | ⟨hborne, hcrossing⟩⟩
  · refine ⟨hmove, .inl ?_⟩
    show canLandNear h'.board p o.route.dest (a.piece.movementLeft - o.leg.length) = true
    rw [Order.leg_of_move hmove]
    exact hafter.canLandNear hlands
  · exact ⟨hmove, .inr ⟨hborne, hafter.isCrossing ▸ hcrossing⟩⟩

end Board.Rests

/-! ## Orders that were taken -/

namespace Campaign

/-- The orders among some answers that were taken. -/
def taken (done : List Dispatch) : List Order := (done.filter (·.isAccepted)).map (·.order)

/-- The orders of some phases that were taken. -/
def takenOf (records : List PhaseRecord) : List Order := records.flatMap fun r => taken r.dispatches

@[simp] theorem taken_nil : taken [] = [] := rfl

@[simp] theorem takenOf_nil : takenOf [] = [] := rfl

@[simp] theorem taken_concat_none (done : List Dispatch) (o : Order) (b : Board) :
    taken (done ++ [⟨o, b, none⟩]) = taken done ++ [o] := by
  simp [taken, Dispatch.isAccepted]

@[simp] theorem taken_concat_some (done : List Dispatch) (o : Order) (b : Board)
    (refusal : Rejection) : taken (done ++ [⟨o, b, some refusal⟩]) = taken done := by
  simp [taken, Dispatch.isAccepted]

@[simp] theorem takenOf_concat (records : List PhaseRecord) (r : PhaseRecord) :
    takenOf (records ++ [r]) = takenOf records ++ taken r.dispatches := by
  simp [takenOf]

theorem mem_takenOf {records : List PhaseRecord} {o : Order} :
    o ∈ takenOf records ↔ ∃ r ∈ records, ∃ d ∈ r.dispatches, d.refusal = none ∧ d.order = o := by
  simp [takenOf, taken, Dispatch.isAccepted, and_assoc]

/-- What was taken names nothing but what was ordered. -/
theorem named_taken_subset (done : List Dispatch) :
    named (taken done) ⊆ named (done.map (·.order)) := by
  intro u hu
  rcases List.mem_flatMap.1 hu with ⟨o, ho, hin⟩
  rcases List.mem_map.1 ho with ⟨d, hd, rfl⟩
  exact List.mem_flatMap.2 ⟨d.order, List.mem_map_of_mem (List.mem_filter.1 hd).1, hin⟩

theorem named_takenOf_subset (records : List PhaseRecord) :
    named (takenOf records) ⊆ named (ordersOf records) := by
  intro u hu
  rcases List.mem_flatMap.1 hu with ⟨o, ho, hin⟩
  rcases mem_takenOf.1 ho with ⟨r, hr, d, hd, -, rfl⟩
  exact List.mem_flatMap.2 ⟨d.order, List.mem_flatMap.2 ⟨r, hr, List.mem_map_of_mem hd⟩, hin⟩

/-! ## The combat move -/

/-- After some answers to the orders of a phase: what no order names that was taken is spared, and
what such an order names rests. -/
structure Recovered (b : Board) (p : PlayerId) (done : List Dispatch) (h : Table) : Prop where
  effect : Board.Effect p (named (taken done)) b h.board
  rests : ∀ o ∈ taken done, ∀ u ∈ o.pieces, h.board.Rests p o u

theorem Recovered.step {b : Board} {p : PlayerId} {attacked : List TerritoryId}
    {done : List Dispatch} {o : Order} {h h' : Table} (hr : Recovered b p done h) (hb : b.Sound)
    (horder : CombatOrder b p attacked o) (hnodup : (named (done.map (·.order) ++ [o])).Nodup)
    (htaken : h.submitMove p o = .ok h') : Recovered b p (done ++ [⟨o, h.board, none⟩]) h' := by
  have hthen := Table.submitMove_effect hr.effect.sound htaken
  rw [named_append, named_singleton, List.nodup_append] at hnodup
  rcases hnodup with ⟨-, hpieces, hdisjoint⟩
  -- the order names nothing that was named before
  have hfree : ∀ u ∈ o.pieces, u ∉ named (taken done) := fun u hu hin =>
    hdisjoint u (named_taken_subset done hin) u hu rfl
  constructor
  · rw [taken_concat_none, named_append, named_singleton]
    exact (hr.effect.mono (List.subset_append_left _ _)).trans
      (hthen.mono (List.subset_append_right _ _))
  · rw [taken_concat_none]
    refine List.forall_mem_append.2 ⟨?_, List.forall_mem_singleton.2 ?_⟩
    · intro o' ho' u hu
      refine (hr.rests o' ho' u hu).keep hr.effect.sound hthen ?_
      intro hin
      exact hfree u hin (List.mem_flatMap.2 ⟨o', ho', hu⟩)
    · intro u hu
      exact .of_named hb horder hr.effect hfree hpieces htaken hu

/-- Submitting orders of the combat move that name no piece twice. -/
theorem recovered_submit {p : PlayerId} {attacked : List TerritoryId} {orders : List Order}
    {h : Table} (hb : h.board.Sound)
    (horders : ∀ o ∈ orders, CombatOrder h.board p attacked o) (hnodup : (named orders).Nodup) :
    Recovered h.board p (submit p orders h).1 (submit p orders h).2 := by
  refine submit_keeps (η := Table) (J := Recovered h.board p) ?_ ?_ ⟨.refl p _ hb, by simp⟩
  · intro done o rest met next hsplit hr htaken
    have horder := horders o (hsplit ▸ List.mem_append_right _ List.mem_cons_self)
    refine hr.step hb horder ?_ htaken
    rw [← hsplit, List.append_cons, named_append] at hnodup
    exact (List.nodup_append.1 hnodup).1
  · intro done o rest met refusal _ hr _
    constructor
    · rw [taken_concat_some]
      exact hr.effect
    · rw [taken_concat_some]
      exact hr.rests

/-- What a phase of the combat move does to the table. -/
theorem Ran.recovered {p : PlayerId} {phase : Phase} {s s' : Campaign Table} {r : PhaseRecord}
    (hran : Ran phase s s' r) (hb : s.host.board.Sound) (hsits : Sits p .combat s) :
    Recovered s.host.board p r.dispatches s'.host := by
  have hboard : r.board = s.host.board := hran.board
  have hgives := (hran.strikes (hboard ▸ hb) hsits).gives
  rw [hsits.player, hboard] at hgives
  have hsubmit := recovered_submit hb hgives hran.works.drafts.nodup_named
  rw [← hsits.player, hran.submits, hsits.player] at hsubmit
  exact hsubmit

/-- After some phases of the combat move all that was sent rests. -/
structure Returned (p : PlayerId) (records : List PhaseRecord) (s : Campaign Table) : Prop where
  books : Accounted p records s
  rests : ∀ o ∈ takenOf records, ∀ u ∈ o.pieces, s.host.board.Rests p o u

theorem Returned.returns {p : PlayerId} {records : List PhaseRecord} {s : Campaign Table}
    (h : Returned p records s) : ∀ r ∈ records, ∀ d ∈ r.dispatches, d.refusal = none →
      ∀ u ∈ d.order.pieces, s.host.board.Returns p u := by
  intro r hr d hd hnone u hu
  exact (h.rests d.order (mem_takenOf.2 ⟨r, hr, d, hd, hnone, rfl⟩) u hu).returns

/-- A phase of the combat move brings to rest what it sends, and names none that was sent before. -/
theorem Returned.step {ground : Board} {p : PlayerId} {phase : Phase} {s s' : Campaign Table}
    {records : List PhaseRecord} {r : PhaseRecord}
    (hs : s.host.board.Sound ∧ ground.SameGround s.host.board) (hsits : Sits p .combat s)
    (h : Returned p records s) (hran : Ran phase s s' r) : Returned p (records ++ [r]) s' := by
  have hbooks := h.books.step (Table.steady ground) hs hsits hran
  have hrecovered := hran.recovered hs.1 hsits
  refine ⟨hbooks, ?_⟩
  rw [takenOf_concat]
  refine List.forall_mem_append.2 ⟨?_, hrecovered.rests⟩
  intro o ho u hu
  refine (h.rests o ho u hu).keep hs.1 hrecovered.effect ?_
  intro hin
  have hnodup := hbooks.nodup
  rw [named_ordersOf_concat, List.nodup_append] at hnodup
  have hold : u ∈ named (ordersOf records) :=
    named_takenOf_subset records (List.mem_flatMap.2 ⟨o, ho, hu⟩)
  exact hnodup.2.2 u hold u (named_taken_subset _ hin) rfl

/-- On any board that can be reached, for every player and configuration: when the combat move is
over, every aircraft that no ship carries and that was named in an order which the table took can
still land near where it is with the movement that it has left. -/
theorem runEpoch_returns (s : Scenario) (h : Table) (hset : s.setUp = .ok h)
    (commands : List Command) (desk : Desk) (record : EpochRecord) (last : Campaign Table)
    (hrun : runEpoch .combat ⟨h.play commands, desk⟩ = .ok record last) :
    ∀ r ∈ record.phases, ∀ d ∈ r.dispatches, d.refusal = none → ∀ u ∈ d.order.pieces,
      ∃ a, last.host.board.asset? u = some a ∧ (a.kind.isAir = true → a.kind.carrierCost = 0 →
        canLandNear last.host.board a.piece.owner a.piece.territory a.piece.movementLeft =
          true) := by
  have hkeeps := runEpoch_keeps (Table.steady h.board) (s := ⟨h.play commands, desk⟩)
    (J := Returned desk.context.player) (Table.play_keeps (Scenario.setUp_sound hset) commands)
    .combat ⟨accounted_nil _ rfl, by simp⟩
    fun phase _ s₁ s₂ records r hs₁ hsits hreturned hran => hreturned.step hs₁ hsits hran
  unfold Ensures at hkeeps
  rw [hrun] at hkeeps
  rcases hkeeps with ⟨-, hreturned, -⟩
  intro r hr d hd hnone u hu
  rcases hreturned.returns r hr d hd hnone u hu with ⟨a, ha, howner, hlands⟩
  refine ⟨a, ha, ?_⟩
  rw [howner]
  exact hlands

end Campaign

/-! ## A sortie -/

/-- Two fighters at home and an enemy destroyer in the bay. -/
def sortie : Scenario where
  players := [{ name := "Red", capital := some "Home" }, { name := "Blue", team := 1 }]
  territories := [
    { name := "Home", owner := some "Red" },
    { name := "Isle", owner := some "Blue", production := 1 },
    { name := "Bay", water := true }]
  connections := [("Home", "Bay"), ("Bay", "Isle")]
  kinds := [
    { name := "destroyer", domain := .sea, attack := 2, defense := 2, movement := 2, cost := 8 },
    { name := "fighter", domain := .air, attack := 3, defense := 4, movement := 4, cost := 10 }]
  pieces := [
    { kind := "destroyer", owner := "Blue", place := "Bay" },
    { kind := "fighter", owner := "Red", place := "Home", count := 2 }]

namespace Campaign

set_option maxRecDepth 100000 in
/-- Both fighters fly out over the bay and can land at home again. -/
theorem runEpoch_returns_sortie :
    ∃ (h : Table) (record : EpochRecord) (last : Campaign Table), sortie.setUp = .ok h ∧
      runEpoch .combat ⟨h.play [], .fresh h.board 0 {}⟩ = .ok record last ∧
      ∀ u ∈ [1, 2], ∃ a, last.host.board.asset? u = some a ∧ a.kind.isAir = true ∧
        a.piece.territory = 2 ∧ canLandNear last.host.board 0 2 a.piece.movementLeft = true := by
  have hpass : (sortie.setUp.toOption.any fun h =>
      endsWith (fun record last =>
          (record.phases.any fun r => r.dispatches.any fun d =>
            d.isAccepted && d.order.pieces == [1, 2]) &&
          [1, 2].all fun u => (last.host.board.asset? u).any fun a =>
            a.kind.isAir && a.kind.carrierCost == 0 && a.piece.owner == 0 &&
              a.piece.territory == 2)
        (runEpoch .combat) ⟨h.play [], .fresh h.board 0 {}⟩) = true := by
    decide +kernel
  obtain ⟨h, hset, hends⟩ := Scenario.exists_setUp hpass
  obtain ⟨record, last, hrun, hcheck⟩ := exists_of_endsWith hends
  rw [Bool.and_eq_true, List.any_eq_true] at hcheck
  rcases hcheck with ⟨⟨r, hr, hsent⟩, hout⟩
  rcases List.any_eq_true.1 hsent with ⟨d, hd, hdispatch⟩
  rw [Bool.and_eq_true, beq_iff_eq] at hdispatch
  refine ⟨h, record, last, hset, hrun, ?_⟩
  intro u hu
  -- both are named in the order that was accepted
  rcases runEpoch_returns sortie h hset [] (.fresh h.board 0 {}) record last hrun r hr d hd
    (Option.isNone_iff_eq_none.1 hdispatch.1) u (hdispatch.2 ▸ hu) with ⟨a, ha, hlands⟩
  have hshown := List.all_eq_true.1 hout u hu
  rw [ha, Option.any_some] at hshown
  simp only [Bool.and_eq_true, beq_iff_eq] at hshown
  rcases hshown with ⟨⟨⟨hair, hcost⟩, howner⟩, hplace⟩
  have hback := hlands hair hcost
  rw [howner, hplace] at hback
  exact ⟨a, ha, hair, hplace, hback⟩

end Campaign

end Conquest
