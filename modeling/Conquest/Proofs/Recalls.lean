import Conquest.Proofs.Acceptance
import Conquest.Proofs.Arrivals

/-!
# Loading can be undone

Land pieces that have gone aboard a ship from safe friendly land can be put ashore there again at
once, in combat and outside of it. All cargo then stands ashore by itself, and the ship lies empty
where it lay. Loading does not ask whether the transport is a ship, but unloading does: what has
gone aboard something else stays there.

* `Order.back`: the order that takes a load back.
* `Table.of_piece?_foldl_disembark`, `Table.of_piece?_land`: what becomes of the cargo of a ship
  that lands it.
* `Board.Emptied`: a load that has been taken back; `Table.emptied_back`: the order that takes it
  back does so.
* `Scenario.load_undone`: every load of every game; `Scenario.load_not_undone`: a load that nothing
  undoes.
-/

namespace Conquest

/-- The order to a transport to put ashore again what an order has loaded. -/
def Order.back (o : Order) (transport : PieceId) : Order where
  pieces := [transport]
  route := .step o.route.dest o.route.start
  action := .unload

namespace Board

/-- A load that has been taken back: the pieces `us` stand on the shore by themselves, and the
transport lies at sea with nothing aboard. -/
structure Emptied (b : Board) (transport : PieceId) (us : List PieceId)
    (shore sea : TerritoryId) : Prop where
  ashore : ∀ u ∈ us, u ∈ b.garrison shore ∧
    ∃ q, b.piece? u = some q ∧ q.territory = shore ∧ q.carrier = none
  free : ∀ u q, b.piece? u = some q → q.carrier ≠ some transport
  cargo : b.cargoOf transport = []
  waits : ∃ q, b.piece? transport = some q ∧ q.territory = sea

end Board

namespace Table

open Board

variable {h h' : Table} {p : PlayerId} {b : Board} {o : Order} {transport : PieceId}

/-! ## Landing a cargo -/

/-- What goes ashore stands there by itself, whatever goes ashore after it. -/
theorem of_piece?_foldl_disembark (hb : b.Sound) {ashore : Route}
    (hdest : ashore.dest < b.atlas.size) {cs : List PieceId} (hcs : ∀ c ∈ cs, MayLand p c b)
    {w : PieceId} {x' : Piece} (hx' : (cs.foldl (disembark ashore) b).piece? w = some x') :
    ∃ x, b.piece? w = some x ∧ x'.carrier = (if w ∈ cs then none else x.carrier) ∧
      (w ∈ cs → x'.territory = ashore.dest) := by
  induction cs generalizing b with
  | nil => exact ⟨x', hx', by simp, by simp⟩
  | cons c rest ih =>
    obtain ⟨hc, hrest⟩ := List.forall_mem_cons.1 hcs
    have hfirst := effect_disembark hb hdest hc
    have hdest' : ashore.dest < (disembark ashore b c).atlas.size := hfirst.after.size.symm ▸ hdest
    have hothers : ∀ v ∈ rest, MayLand p v (disembark ashore b c) := fun v hv =>
      hc.disembark hb hdest (hrest v hv)
    obtain ⟨y, hy, hcarrier, hplace⟩ := ih hfirst.sound hdest' hothers hx'
    obtain ⟨x, hx, -, -, hcarrier', hplace'⟩ := of_piece?_disembark hb hc ashore hy
    refine ⟨x, hx, ?_, ?_⟩
    · rw [hcarrier, hcarrier']
      by_cases hw : w ∈ rest
      · simp [hw]
      · by_cases hwc : w = c
        · simp [hwc]
        · simp [hw, hwc]
    · intro hin
      by_cases hw : w ∈ rest
      · exact hplace hw
      · -- the first to go ashore is not touched by the others
        have hwc : w = c := (List.mem_cons.1 hin).resolve_right hw
        rw [if_pos hwc] at hcarrier'
        rw [if_pos (.inl hwc)] at hplace'
        have hstays := (effect_foldl_disembark hfirst.sound hdest' hothers).lone w y hy hw hcarrier'
        rw [List.foldl_cons, hstays, Option.some.injEq] at hx'
        rw [← hx', hplace']

/-- A ship that lands puts ashore all that is aboard it, and nothing else leaves its carrier. -/
theorem of_piece?_land (hb : b.Sound) {route : Route} (hsail : MaySail p route transport b)
    {w : PieceId} {x' : Piece} (hx' : (land route b transport).piece? w = some x') :
    ∃ x, b.piece? w = some x ∧
      x'.carrier = (if x.carrier = some transport then none else x.carrier) ∧
      (x.carrier = some transport → x'.territory = route.dest) := by
  obtain ⟨q, hq, -, hsea⟩ := hsail.ship
  have hsailed := hsail.effect_relocate hb
  obtain ⟨q', hq', hkind, -⟩ := hsailed.after.piece_to hq
  have hsea' : ((b.relocate transport (seaLeg route)).kind q'.kind).isSea = true := by
    rw [hsailed.after.kind, hkind]
    exact hsea
  have hshore : (Route.step (seaLeg route).dest route.dest).dest <
      (b.relocate transport (seaLeg route)).atlas.size := by
    rw [atlas_relocate]
    exact hsail.shore
  have hready : ∀ c ∈ (b.relocate transport (seaLeg route)).cargoOf transport,
      MayLand p c (b.relocate transport (seaLeg route)) := by
    intro c hc
    obtain ⟨-, -, -, -, hland⟩ := hsail.cargo hb hc
    exact hland
  obtain ⟨y, hy, hcarrier, hplace⟩ :=
    of_piece?_foldl_disembark hsailed.sound hshore hready hx'
  obtain ⟨x, hx, -, -, -, hcarrier', -⟩ := hb.of_piece?_relocate hq (seaLeg route) hy
  -- sailing has changed no carrier, so the cargo is what was aboard
  have hcargo : w ∈ (b.relocate transport (seaLeg route)).cargoOf transport ↔
      x.carrier = some transport := by
    rw [hsailed.sound.mem_cargoOf hq' hsea', hy, ← hcarrier']
    simp
  simp only [hcargo, hcarrier'] at hcarrier hplace
  exact ⟨x, hx, hcarrier, hplace⟩

/-! ## Taking a load back -/

/-- No order lands the cargo of what is not a ship. -/
theorem submitMove_ne_ok {a : Asset} (ha : h.board.asset? transport = some a)
    (hland : a.kind.isSea = false) {way : Order} (hunload : way.action = .unload)
    (hin : transport ∈ way.pieces) : h.submitMove p way ≠ .ok h' := by
  intro htaken
  obtain ⟨-, -, hcheck, -⟩ := submitMove_ok_iff.1 htaken
  unfold checkAction at hcheck
  simp only [hunload] at hcheck
  obtain ⟨x, hx, -, hship, -⟩ :=
    checkLander_ok_iff.1 ((checkUnload_ok_iff.1 hcheck).2.1 transport hin)
  rw [ha, Option.some.injEq] at hx
  subst hx
  rw [PieceKind.carriesCargo_iff, hland] at hship
  cases hship.1

/-- A load on a ship: the ship waits as it did, and the party is aboard. -/
structure Laden (p : PlayerId) (o : Order) (transport : PieceId) (a : Asset)
    (b loaded : Board) : Prop where
  effect : Effect p o.pieces b loaded
  ship : loaded.piece? transport = some a.piece
  kind : loaded.kind a.piece.kind = a.kind
  aboard : ∀ u ∈ o.pieces, ∃ q, loaded.piece? u = some q ∧ q.carrier = some transport

/-- What an order to load asks, and what it brings about. -/
theorem load_of_submitMove (haction : o.action = .load transport)
    (htaken : h.submitMove p o = .ok h') :
    h.checkLoad p o transport = .ok () ∧
      h'.board = o.pieces.foldl (embark transport o.route) h.board := by
  obtain ⟨-, -, hcheck, rfl⟩ := submitMove_ok_iff.1 htaken
  unfold checkAction at hcheck
  simp only [haction] at hcheck
  refine ⟨hcheck, ?_⟩
  show carryOut h.board p o = _
  rw [carryOut_load haction, regroup, haction]

/-- Ships do not go aboard, so the ship is as it was. -/
theorem laden_of_submitMove (hb : h.board.Sound) (haction : o.action = .load transport)
    (htaken : h.submitMove p o = .ok h') {a : Asset} (ha : h.board.asset? transport = some a)
    (hsea : a.kind.isSea = true) : Laden p o transport a h.board h'.board := by
  obtain ⟨hcheck, hboard⟩ := load_of_submitMove haction htaken
  have hus := boards_of_checkLoad hcheck
  have heffect := submitMove_effect hb htaken
  obtain ⟨hpiece, hkind⟩ := asset?_eq_some.1 ha
  have hout : transport ∉ o.pieces := by
    intro hin
    obtain ⟨q, hq, -, hland, -⟩ := (hus transport hin).passenger
    rw [hpiece, Option.some.injEq] at hq
    rw [← hq, ← hkind, PieceKind.isLand_eq_false_of_isSea hsea] at hland
    cases hland
  have hnone := hb.carrier_eq_none hpiece (hkind ▸ PieceKind.isLand_eq_false_of_isSea hsea)
  refine ⟨heffect, heffect.lone transport a.piece hpiece hout hnone, ?_, ?_⟩
  · rw [heffect.after.kind]
    exact hkind.symm
  · intro u hu
    obtain ⟨x, hx, -⟩ := (hus u hu).passenger
    obtain ⟨q, hq, -⟩ := heffect.after.piece_to hx
    obtain ⟨x₀, -, hcarrier⟩ := of_piece?_foldl_embark hb hus (hboard ▸ hq)
    rw [if_pos hu] at hcarrier
    exact ⟨q, hq, hcarrier⟩

/-- A load on a ship may be taken back where it came from safe friendly land. -/
theorem checkUnload_back {loaded : Table} (hcheck : h.checkLoad p o transport = .ok ())
    {a : Asset} (ha : h.board.asset? transport = some a) (hsea : a.kind.isSea = true)
    (hsome : o.pieces ≠ []) (hladen : Laden p o transport a h.board loaded.board)
    (hfriendly : h.board.isFriendlyLand o.route.start p = true)
    (hsafe : h.board.hasEnemyForce o.route.start p = false) :
    loaded.checkUnload p (o.back transport) = .ok () := by
  have hafter := hladen.effect.after
  obtain ⟨s, hs, howner, hroom, -, hplace, -⟩ := checkLoad_ok_iff.1 hcheck
  rw [ha, Option.some.injEq] at hs
  subst hs
  refine checkUnload_ok_iff.2 ⟨rfl, ?_, ?_⟩
  · intro u hu
    obtain rfl := List.mem_singleton.1 hu
    refine checkLander_ok_iff.2 ⟨a, asset?_eq_some.2 ⟨hladen.ship, hladen.kind.symm⟩, howner,
      PieceKind.carriesCargo_iff.2 ⟨hsea, Nat.pos_of_ne_zero hroom⟩, ?_, hplace, Nat.zero_le _, ?_,
      hafter.isHeldLand (.inl hfriendly)⟩
    · obtain ⟨c, hc⟩ := List.exists_mem_of_ne_nil _ hsome
      exact List.ne_nil_of_mem
        ((hladen.effect.sound.mem_cargoOf hladen.ship (hladen.kind.symm ▸ hsea)).2
          (hladen.aboard c hc))
    · -- the way ashore is one step, so no sea is sailed
      intro t ht
      cases ht
  · refine checkPeace_ok_iff.2 ?_
    rintro ⟨-, hattack⟩
    have hstill := isEnemyLand_of_isFriendlyLand (hafter.isFriendlyLand hfriendly)
    have hcalm := (hafter.hasEnemyForce o.route.start).trans hsafe
    -- friendly land without an enemy force is not attacked
    unfold isAttack at hattack
    rw [show (o.back transport).route.dest = o.route.start from rfl, hstill, hcalm] at hattack
    cases hattack

/-- What was loaded on a ship stands ashore after the load has been taken back. -/
theorem emptied_back (hb : h.board.Sound) (hladen : ∀ u ∈ o.pieces, ∃ q,
      h.board.piece? u = some q ∧ q.carrier = some transport)
    {a : Asset} (hship : h.board.asset? transport = some a) (hsea : a.kind.isSea = true)
    (htaken : h.submitMove p (o.back transport) = .ok h') :
    h'.board.Emptied transport o.pieces o.route.start o.route.dest := by
  have heffect := submitMove_effect hb htaken
  obtain ⟨-, -, hcheck, heq⟩ := submitMove_ok_iff.1 htaken
  have hsail : MaySail p (o.back transport).route transport h.board :=
    maySail_of_submitMove hb htaken hcheck transport (List.mem_singleton_self transport)
  obtain ⟨hpiece, hkind⟩ := asset?_eq_some.1 hship
  have hmarked : (land (o.back transport).route h.board transport).Remarked h'.board := by
    have hboard : h'.board = carryOut h.board p (o.back transport) := by rw [heq]
    rw [hboard]
    exact remarked_carryOut h.board p (o.back transport)
  -- ashore goes exactly what was aboard
  have hashore : ∀ w x', h'.board.piece? w = some x' → ∃ x, h.board.piece? w = some x ∧
      x'.carrier = (if x.carrier = some transport then none else x.carrier) ∧
      (x.carrier = some transport → x'.territory = o.route.start) := by
    intro w x' hx'
    rw [hmarked.piece?] at hx'
    exact of_piece?_land hb hsail hx'
  have hfree : ∀ u q, h'.board.piece? u = some q → q.carrier ≠ some transport := by
    intro u q hq hcarrier
    obtain ⟨x, -, hout, -⟩ := hashore u q hq
    rw [hcarrier] at hout
    split at hout
    · cases hout
    · rename_i hne
      exact hne hout.symm
  have hwaits := (hsail.piece?_land hb hpiece).2
  rw [← hmarked.piece?] at hwaits
  refine ⟨?_, hfree, ?_, _, hwaits, rfl⟩
  · intro u hu
    obtain ⟨x, hx, hcarrier⟩ := hladen u hu
    obtain ⟨q, hq, -⟩ := heffect.after.piece_to hx
    obtain ⟨x₀, hx₀, hout, hgoal⟩ := hashore u q hq
    rw [hx, Option.some.injEq] at hx₀
    subst hx₀
    rw [if_pos hcarrier] at hout
    exact ⟨(heffect.sound.mem_garrison hq (isSettled_of_carrier hout)).2 (hgoal hcarrier).symm,
      q, hq, hgoal hcarrier, hout⟩
  · rw [List.eq_nil_iff_forall_not_mem]
    intro c hc
    -- what is aboard afterwards would be a piece that is aboard
    have hstill : (h'.board.kind
        (a.piece.goneAlong (seaLeg (o.back transport).route)).kind).isSea = true := by
      show (h'.board.kind a.piece.kind).isSea = true
      rw [heffect.after.kind, ← hkind]
      exact hsea
    obtain ⟨x, hx, hcarrier⟩ := (heffect.sound.mem_cargoOf hwaits hstill).1 hc
    exact hfree c x hx hcarrier

/-- The way back from a load is one step, since neighbors are so in both directions. -/
theorem walk_back (hb : h.board.Sound) (hlength : o.route.length = 1)
    (hwalk : o.route.territories.IsChain (h.board.atlas.isAdjacent · · = true)) :
    (o.back transport).route.territories.IsChain (h.board.atlas.isAdjacent · · = true) := by
  obtain ⟨d, hsteps⟩ := List.length_eq_one_iff.1 hlength
  have hdest : o.route.dest = d := by
    rw [Route.dest, hsteps]
    rfl
  rw [Route.territories, hsteps, List.isChain_pair] at hwalk
  show [o.route.dest, o.route.start].IsChain _
  rw [List.isChain_pair, hdest]
  exact hb.atlas.adjacent_symm _ _ hwalk

/-- A load from safe friendly land onto a ship is undone by the order that takes it back. -/
theorem submitMove_back (hb : h.board.Sound) (haction : o.action = .load transport)
    (htaken : h.submitMove p o = .ok h') {a : Asset} (ha : h.board.asset? transport = some a)
    (hsea : a.kind.isSea = true) (hfriendly : h.board.isFriendlyLand o.route.start p = true)
    (hsafe : h.board.hasEnemyForce o.route.start p = false) {loaded : Table}
    (hloaded : loaded.board = h'.board) :
    ∃ h'', loaded.submitMove p (o.back transport) = .ok h'' ∧
      h''.board.Emptied transport o.pieces o.route.start a.piece.territory := by
  obtain ⟨hsome, hwalk, -⟩ := submitMove_ok_iff.1 htaken
  obtain ⟨hcheck, -⟩ := load_of_submitMove haction htaken
  obtain ⟨s, hs, -, -, hlength, hplace, -⟩ := checkLoad_ok_iff.1 hcheck
  rw [ha, Option.some.injEq] at hs
  subst hs
  have hladen := laden_of_submitMove hb haction htaken ha hsea
  rw [← hloaded] at hladen
  have hback : (o.back transport).route.territories.IsChain
      (loaded.board.atlas.isAdjacent · · = true) := by
    simp only [hladen.effect.after.isAdjacent]
    exact walk_back hb hlength hwalk
  have hcheck' := checkUnload_back hcheck ha hsea hsome hladen hfriendly hsafe
  have hship : loaded.board.asset? transport = some a :=
    asset?_eq_some.2 ⟨hladen.ship, hladen.kind.symm⟩
  have htaken' := submitMove_ok_iff.2 ⟨List.cons_ne_nil _ _, hback, hcheck', rfl⟩
  refine ⟨_, htaken', ?_⟩
  rw [hplace]
  exact emptied_back hladen.effect.sound hladen.aboard hship hsea htaken'

end Table

namespace Scenario

open Board Table

/-- Every load from safe friendly land onto a ship can be undone in either epoch: the order that
takes it back is taken, and then the party stands ashore, and the ship lies empty where it lay. What
is not a ship never lands what it has loaded. -/
theorem load_undone (s : Scenario) (h₀ : Table) (hset : s.setUp = .ok h₀)
    (commands : List Command) (p : PlayerId) (o : Order) (transport : PieceId) (h' : Table)
    (haction : o.action = .load transport)
    (htaken : (h₀.play commands).submitMove p o = .ok h')
    (hfriendly : (h₀.play commands).board.isFriendlyLand o.route.start p = true)
    (hsafe : (h₀.play commands).board.hasEnemyForce o.route.start p = false) (e : Epoch) :
    ∃ a, (h₀.play commands).board.asset? transport = some a ∧
      (a.kind.isSea = true → ∃ h'', (h'.beginEpoch e).submitMove p (o.back transport) = .ok h'' ∧
        h''.board.Emptied transport o.pieces o.route.start a.piece.territory) ∧
      (a.kind.isSea = false → ∀ way : Order, way.action = .unload → transport ∈ way.pieces →
        ∀ h'', (h'.beginEpoch e).submitMove p way ≠ .ok h'') := by
  have hb := (play_keeps (setUp_sound hset) commands).1
  obtain ⟨a, ha, -⟩ := checkLoad_ok_iff.1 (load_of_submitMove haction htaken).1
  refine ⟨a, ha, ?_, ?_⟩
  · intro hsea
    exact submitMove_back hb haction htaken ha hsea hfriendly hsafe rfl
  · intro hland way hunload hin h''
    obtain ⟨x, hx, hkind, -⟩ := (submitMove_effect hb htaken).after.asset_to ha
    exact submitMove_ne_ok (h := h'.beginEpoch e) hx (hkind ▸ hland) hunload hin

/-- A truck with room waits at a depot next to a camp of infantry. -/
def truckDepot : Scenario where
  players := [{ name := "Red" }]
  territories := [
    { name := "Camp", owner := some "Red" }, { name := "Depot", owner := some "Red" }]
  connections := [("Camp", "Depot")]
  kinds := [
    { name := "infantry", attack := 1, defense := 2, cost := 3, transportCost := 2 },
    { name := "truck", movement := 2, cost := 4, transportCapacity := 4 }]
  pieces := [
    { kind := "truck", owner := "Red", place := "Depot" },
    { kind := "infantry", owner := "Red", place := "Camp" }]

/-- The depot is a harbor and the truck a ship. -/
def ferryHarbor : Scenario :=
  { truckDepot with
    territories := [{ name := "Camp", owner := some "Red" }, { name := "Depot", water := true }]
    kinds := truckDepot.kinds.map fun k =>
      if 0 < k.transportCapacity then { k with domain := .sea } else k }

/-- The infantry leaves the camp and goes aboard. -/
def campLoading : Order where
  pieces := [1]
  route := .step 0 1
  action := .load 0

set_option maxRecDepth 100000 in
/-- From the ship the infantry comes back to the camp. -/
theorem load_undone_ferryHarbor : ∃ h h' h'', ferryHarbor.setUp = .ok h ∧
    (h.play []).submitMove 0 campLoading = .ok h' ∧
    (h'.beginEpoch .nonCombat).submitMove 0 (campLoading.back 0) = .ok h'' ∧
    h''.board.cargoOf 0 = [] ∧ 1 ∈ h''.board.garrison 0 := by
  have hpass : (ferryHarbor.setUp.toOption.any fun h =>
      ((h.play []).submitMove 0 campLoading).isOk && decide (
        (h.play []).board.isFriendlyLand 0 0 = true ∧
        (h.play []).board.hasEnemyForce 0 0 = false ∧
        ∀ a ∈ (h.play []).board.asset? 0, a.kind.isSea = true)) = true := by
    decide +kernel
  obtain ⟨h, hset, hcheck⟩ := Scenario.exists_setUp hpass
  rw [Bool.and_eq_true] at hcheck
  obtain ⟨hok, hfacts⟩ := hcheck
  obtain ⟨h', htaken⟩ := exists_eq_ok hok
  obtain ⟨hfriendly, hsafe, hsea⟩ := of_decide_eq_true hfacts
  obtain ⟨a, ha, hundone, -⟩ := load_undone ferryHarbor h hset [] 0 campLoading 0 h' rfl htaken
    hfriendly hsafe .nonCombat
  obtain ⟨h'', hback, hempty⟩ := hundone (hsea a ha)
  exact ⟨h, h', h'', hset, htaken, hback, hempty.cargo, (hempty.ashore 1 (by decide)).1⟩

set_option maxRecDepth 100000 in
/-- The truck takes the infantry aboard in safe friendly land, and no order makes it unload. -/
theorem load_not_undone : ∃ h h', truckDepot.setUp = .ok h ∧
    (h.play []).submitMove 0 campLoading = .ok h' ∧
    (h.play []).board.isFriendlyLand 0 0 = true ∧
    (h.play []).board.hasEnemyForce 0 0 = false ∧
    ∀ (e : Epoch) (way : Order), way.action = .unload → 0 ∈ way.pieces →
      ∀ h'', (h'.beginEpoch e).submitMove 0 way ≠ .ok h'' := by
  have hpass : (truckDepot.setUp.toOption.any fun h =>
      match (h.play []).submitMove 0 campLoading with
      | .error _ => false
      | .ok h' => decide (
          (h.play []).board.isFriendlyLand 0 0 = true ∧
          (h.play []).board.hasEnemyForce 0 0 = false ∧
          ∃ a ∈ h'.board.asset? 0, a.kind.isSea = false)) = true := by
    decide +kernel
  obtain ⟨h, hset, hcheck⟩ := Scenario.exists_setUp hpass
  split at hcheck
  · cases hcheck
  · rename_i h' htaken
    obtain ⟨hfriendly, hsafe, a, ha, hland⟩ := of_decide_eq_true hcheck
    refine ⟨h, h', hset, htaken, hfriendly, hsafe, ?_⟩
    intro e way hunload hin h''
    exact submitMove_ne_ok (h := h'.beginEpoch e) ha hland hunload hin

end Scenario

end Conquest
