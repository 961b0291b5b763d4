import Conquest.Proofs.Acceptance
import Conquest.Proofs.Arrivals
import Conquest.Proofs.Peace
import Conquest.Proofs.Strikes

/-!
# Attacked land is held

Land is marked as attacked with an order that takes it. The table takes this order, so land pieces
stand there and undefended land is captured. They stay: troops leave friendly land that was not
attacked, and what is no land piece leaves them alone.

* `Board.Foothold`: land pieces stand in a territory, and undefended it is the player's.
* `Board.Foothold.of_takes`: an order that takes enemy land gives a foothold.
* `Board.Foothold.step`: every order of the combat move keeps the footholds in attacked and in enemy
  land.
* `Campaign.runEpoch_footholds`: all land that has been attacked is held.
-/

namespace Conquest

/-- A piece that has no carrier stands by itself. -/
theorem Board.Sound.stands_of_piece {b : Board} (hb : b.Sound) {p : PlayerId} {t : TerritoryId}
    {u : PieceId} {q : Piece} (hq : b.piece? u = some q) (howner : q.owner = p)
    (hnone : q.carrier = none) (hplace : q.territory = t) : b.Stands p t ⟨q, b.kind q.kind⟩ := by
  refine ⟨asset?_eq_some.2 ⟨?_, rfl⟩, howner, hnone, hplace⟩
  rw [← hq]
  exact congrArg b.piece? (hb.id_piece u q hq)

/-- What stands by itself is listed where it stands. -/
theorem Board.Sound.mem_ownedIn_of_stands {b : Board} (hb : b.Sound) {p : PlayerId}
    {t : TerritoryId} {a : Asset} (ha : b.Stands p t a) : a ∈ b.ownedIn t p := by
  have hq := (asset?_eq_some.1 ha.asset).1
  have hlisted := (hb.mem_garrison hq (isSettled_of_carrier ha.alone)).2 ha.place.symm
  exact mem_ownedIn.2 ⟨mem_assetsIn.2 ⟨a.id, hlisted, ha.asset⟩, ha.owner⟩

/-- Land pieces of `p` stand in `t`, and if nobody defends it, it is theirs. -/
structure Board.Foothold (b : Board) (p : PlayerId) (t : TerritoryId) : Prop where
  troops : ∃ a, b.Stands p t a ∧ a.kind.isLand = true
  taken : b.hasEnemyForce t p = false → (b.territory t).owner = some p

section Orders

variable {b : Board} {p : PlayerId} {attacked : List TerritoryId} {o : Order}

/-- Land pieces only leave friendly land that was not attacked. -/
theorem CombatOrder.leaves_home (horder : CombatOrder b p attacked o) (hreg : b.Regular)
    {u : PieceId} {a : Asset} (hu : u ∈ o.pieces) (ha : b.asset? u = some a)
    (hland : a.kind.isLand = true) :
    b.isFriendlyLand o.route.start p = true ∧ o.route.start ∉ attacked := by
  -- of all orders only marches and loads move land pieces from where they stand
  cases horder with
  | attack t recruited =>
    cases recruited with
    | march as route party land home free goal => exact ⟨home, free⟩
    | fly as route party air lands goal =>
      rw [PieceKind.isLand_eq_false_of_isAir (air a (party.mem_of_asset hu ha))] at hland
      cases hland
    | sail as route party ships =>
      have hkind := ships a (party.mem_of_asset hu ha)
      rw [PieceKind.isLand_eq_false_of_sails hkind] at hland
      cases hland
    | land ship route party carries adjacent =>
      have hship := party.mem_of_asset hu ha
      rw [List.mem_singleton.1 hship, PieceKind.isLand_eq_false_of_carriesCargo carries] at hland
      cases hland
  | raid bomber route party isBomber lands =>
    have hbomber := List.mem_singleton.1 (party.mem_of_asset hu ha)
    rw [hbomber, PieceKind.isLand_eq_false_of_isAir
      (hreg.isAir (party.asset bomber (List.mem_singleton_self _)) isBomber)] at hland
    cases hland
  | loading loads =>
    rcases loads with ⟨as, shore, zone, ship, party, fits, home, free, waits⟩
    exact ⟨home, free⟩

/-- Cargo is landed from one ship at a time. -/
theorem CombatOrder.exists_ship (horder : CombatOrder b p attacked o)
    (hunload : o.action = .unload) :
    ∃ ship, o.pieces = [ship] := by
  cases horder with
  | attack t recruited =>
    cases recruited with
    | march | fly | sail => cases hunload
    | land ship => exact ⟨ship.id, rfl⟩
  | raid => cases hunload
  | loading loads =>
    rcases loads with ⟨as, shore, zone, ship, -⟩
    cases hunload

end Orders

namespace Board.Foothold

variable {b : Board} {p : PlayerId} {attacked : List TerritoryId} {o : Order} {h h' : Table}
  {t : TerritoryId}

/-- A foothold of pieces that an order does not name stays. -/
theorem keep (hfoot : h.board.Foothold p t) (heffect : Effect p o.pieces h.board h'.board)
    (hfree : ∀ a, h.board.Stands p t a → a.kind.isLand = true → a.id ∉ o.pieces) :
    h'.board.Foothold p t := by
  rcases hfoot with ⟨⟨a, ha, hland⟩, htaken⟩
  refine ⟨⟨a, heffect.stands ha (hfree a ha hland), hland⟩, ?_⟩
  intro hundefended
  rw [heffect.after.hasEnemyForce] at hundefended
  -- land changes hands in favour of the player only
  rcases heffect.after.owner t with howner | ⟨howner, -⟩
  · exact howner.trans (htaken hundefended)
  · exact howner

/-- Orders of the combat move keep the footholds in attacked and in enemy land. -/
theorem step (hfoot : h.board.Foothold p t) (hsound : h.board.Sound) (hreg : b.Regular)
    (horder : CombatOrder b p attacked o) (hafter : After p b h.board)
    (htaken : h.submitMove p o = .ok h') (ht : t ∈ attacked ∨ b.isEnemyLand t p = true) :
    h'.board.Foothold p t := by
  refine hfoot.keep (Table.submitMove_effect hsound htaken) ?_
  intro a ha hland hin
  -- a land piece that is named stands where the order starts
  rcases Table.named_of_submitMove htaken a.id hin with ⟨a', ha', -, hstart⟩
  rw [ha.asset, Option.some.injEq] at ha'
  subst ha'
  rw [ha.place] at hstart
  rcases asset?_eq_some.1 ha.asset with ⟨hpiece, hkind⟩
  rcases hafter.piece a.id a.piece hpiece with ⟨q, hq, hqkind, -⟩
  have hasset : b.asset? a.id = some ⟨q, b.kind q.kind⟩ := asset?_eq_some.2 ⟨hq, rfl⟩
  have hland' : (b.kind q.kind).isLand = true := by
    rw [← hqkind, ← hafter.kind, ← hkind]
    exact hland
  obtain ⟨hhome, hfree⟩ := horder.leaves_home hreg hin hasset hland'
  rw [← hstart] at hhome hfree
  rcases ht with hattacked | henemy
  · exact hfree hattacked
  · rw [isEnemyLand_of_isFriendlyLand hhome] at henemy
    cases henemy

/-- What a ship lands in enemy land gives a foothold there. -/
theorem of_landing {b' : Board} (hb : b'.Sound) (hafter : After p b b') {route : Route}
    {ship : PieceId} (hsail : Table.MaySail p route ship b') (hloaded : b'.cargoOf ship ≠ [])
    (henemy : b.isEnemyLand route.dest p = true) :
    (Table.arrive p true (Table.land route b' ship) route.dest).Foothold p route.dest := by
  have hlanded := Table.effect_land hb hsail
  have harrive := Table.effect_arrive (p := p) hlanded.sound [] true route.dest
  constructor
  · rcases Table.exists_ashore hb hsail hloaded with ⟨c, q, hq, howner, hland, hnone, hplace⟩
    refine ⟨_, harrive.sound.stands_of_piece (u := c) ?_ howner hnone hplace, ?_⟩
    · rw [(Table.remarked_arrive p true _ _).piece?]
      exact hq
    · rw [harrive.after.kind, hlanded.after.kind]
      exact hland
  · intro hundefended
    rw [harrive.after.hasEnemyForce] at hundefended
    exact Table.owner_arrive (hafter.trans hlanded.after) henemy hundefended

/-- Land pieces that march into enemy land have a foothold there. -/
theorem of_march {b' : Board} (hb : b'.Sound) (hafter : After p b b')
    (hdest : o.route.dest < b'.atlas.size) (hnodup : o.pieces.Nodup) (hus : b'.Alone p o.pieces)
    {u : PieceId} {a : Asset} (hu : u ∈ o.pieces) (ha : b'.asset? u = some a)
    (hland : a.kind.isLand = true) (hne : o.route.isEmpty = false)
    (henemy : b.isEnemyLand o.route.dest p = true) :
    (Table.moveAlong b' p o).Foothold p o.route.dest := by
  have hmoved := Table.effect_moveAlong hb hdest hus
  rcases asset?_eq_some.1 ha with ⟨hq, hkind⟩
  rcases hus u hu with ⟨q, hq', howner, hnone⟩
  rw [hq, Option.some.injEq] at hq'
  subst hq'
  constructor
  · refine ⟨_, hmoved.sound.stands_of_piece (Table.piece?_moveAlong hb hdest hnodup hus hu hq)
      howner hnone rfl, ?_⟩
    show ((Table.moveAlong b' p o).kind a.piece.kind).isLand = true
    rw [hmoved.after.kind, ← hkind]
    exact hland
  · intro hundefended
    rw [hmoved.after.hasEnemyForce] at hundefended
    exact Table.owner_moveAlong hb hafter hdest hus ⟨u, hu, a, ha, hland⟩ hne henemy hundefended

/-- An order that takes enemy land gives a foothold there. -/
theorem of_takes (hsound : h.board.Sound) (hreg : b.Regular) (horder : CombatOrder b p attacked o)
    (hnodup : o.pieces.Nodup) (hafter : After p b h.board) (htaken : h.submitMove p o = .ok h')
    (henemy : b.isEnemyLand t p = true) (htakes : b.Takes t o) : h'.board.Foothold p t := by
  have hdest := (Table.dest_lt_of_submitMove hsound htaken).1
  have hships := Table.maySail_of_submitMove hsound htaken
  rcases Table.submitMove_ok_iff.1 htaken with ⟨-, -, hcheck, rfl⟩
  show (Table.carryOut h.board p o).Foothold p t
  unfold Table.checkAction at hcheck
  unfold Table.carryOut
  rcases htakes with ⟨rfl, hunload | ⟨hmove, u, hu, a, ha, hland⟩⟩
  · simp only [hunload] at hcheck ⊢
    -- the cargo of one ship goes ashore
    rcases horder.exists_ship hunload with ⟨ship, hpieces⟩
    have hship : ship ∈ o.pieces := hpieces ▸ List.mem_singleton_self ship
    rcases Table.checkLander_ok_iff.1 ((Table.checkUnload_ok_iff.1 hcheck).2.1 ship hship) with
      ⟨-, -, -, -, hloaded, -⟩
    rw [hpieces, List.foldl_cons, List.foldl_nil]
    exact of_landing hsound hafter (hships hcheck ship hship) hloaded henemy
  · simp only [hmove] at hcheck ⊢
    obtain ⟨hpiece, hkind⟩ := asset?_eq_some.1 ha
    rcases hafter.piece_to hpiece with ⟨q, hq, hqkind, -⟩
    have hasset : h.board.asset? u = some ⟨q, h.board.kind q.kind⟩ := asset?_eq_some.2 ⟨hq, rfl⟩
    have hne : o.route.isEmpty = false := by
      -- troops start from friendly land, so they have a way to go
      rw [Bool.eq_false_iff]
      intro hempty
      have hhome := (horder.leaves_home hreg hu ha hland).1
      rw [Route.dest, Route.isEmpty_iff.1 hempty] at henemy
      rw [List.getLastD_nil, isEnemyLand_of_isFriendlyLand hhome] at henemy
      cases henemy
    refine of_march hsound hafter hdest hnodup (Table.alone_of_checkMove hcheck) hu hasset ?_ hne
      henemy
    rw [hafter.kind, hqkind, ← hkind]
    exact hland

end Board.Foothold

/-! ## The combat move -/

namespace Campaign

/-- What submitting the orders of a phase leaves: the footholds there were, and one wherever an order
that was taken takes enemy land. -/
structure Landed (b : Board) (p : PlayerId) (attacked : List TerritoryId) (done : List Dispatch)
    (h : Table) : Prop where
  sound : h.board.Sound
  after : Board.After p b h.board
  held : ∀ t ∈ attacked, b.atlas.isWater t = false → h.board.Foothold p t
  gained : ∀ d ∈ done, d.refusal = none → ∀ t, b.isEnemyLand t p = true → b.Takes t d.order →
    h.board.Foothold p t

theorem Landed.step {b : Board} {p : PlayerId} {attacked : List TerritoryId} {done : List Dispatch}
    {o : Order} {h h' : Table} (hl : Landed b p attacked done h) (hreg : b.Regular)
    (horder : CombatOrder b p attacked o) (hnodup : o.pieces.Nodup)
    (htaken : h.submitMove p o = .ok h') :
    Landed b p attacked (done ++ [⟨o, h.board, none⟩]) h' := by
  have heffect := Table.submitMove_effect hl.sound htaken
  refine ⟨heffect.sound, hl.after.trans heffect.after, ?_, List.forall_mem_append.2 ⟨?_, ?_⟩⟩
  · intro t ht hdry
    exact (hl.held t ht hdry).step hl.sound hreg horder hl.after htaken (.inl ht)
  · intro d hd hnone t henemy htakes
    exact (hl.gained d hd hnone t henemy htakes).step hl.sound hreg horder hl.after htaken
      (.inr henemy)
  · refine List.forall_mem_singleton.2 ?_
    intro _ t henemy htakes
    exact .of_takes hl.sound hreg horder hnodup hl.after htaken henemy htakes

/-- Submitting orders of the combat move that name no piece twice. -/
theorem landed_submit {b : Board} {p : PlayerId} {attacked : List TerritoryId}
    {orders : List Order} {h : Table} (hreg : b.Regular)
    (horders : ∀ o ∈ orders, CombatOrder b p attacked o ∧ o.pieces.Nodup)
    (hstart : Landed b p attacked [] h) :
    Landed b p attacked (submit p orders h).1 (submit p orders h).2 := by
  refine submit_keeps (η := Table) ?_ ?_ hstart
  · intro done o rest h h' hsplit hl htaken
    rcases horders o (hsplit ▸ List.mem_append_right _ List.mem_cons_self) with ⟨horder, hnodup⟩
    exact hl.step hreg horder hnodup htaken
  · intro done o rest h refusal _ hl _
    refine ⟨hl.sound, hl.after, hl.held, List.forall_mem_append.2 ⟨hl.gained, ?_⟩⟩
    exact List.forall_mem_singleton.2 fun hnone => by cases hnone

theorem nodup_pieces_of_named {orders : List Order} (h : (named orders).Nodup) {o : Order}
    (ho : o ∈ orders) : o.pieces.Nodup :=
  (List.nodup_flatMap.1 h).1 o ho

/-- What holds after some phases of the combat move that started on `b₀`. -/
structure Stormed (b₀ : Board) (p : PlayerId) (records : List PhaseRecord) (s : Campaign Table) :
    Prop where
  epoch : s.host.epoch = .combat
  rules : s.desk.context.rules = b₀.rules
  after : Board.After p b₀ s.host.board
  held : ∀ t ∈ s.desk.context.attacked, b₀.atlas.isWater t = false → s.host.board.Foothold p t
  struck : ∀ t ∈ s.desk.context.attacked, b₀.atlas.isWater t = false →
    ∃ r ∈ records, ∃ d ∈ r.dispatches, d.refusal = none ∧ r.board.Takes t d.order

/-- Where a phase has all its orders taken, land that it marks anew was enemy land, and one of the
orders takes it. -/
theorem Ran.struck {p : PlayerId} {phase : Phase} {s s' : Campaign Table} {r : PhaseRecord}
    (hran : Ran phase s s' r) (hb : r.board.Sound) (hsits : Sits p .combat s)
    (haccepted : ∀ d ∈ r.dispatches, d.refusal = none) {t : TerritoryId}
    (ht : t ∈ s'.desk.context.attacked) (hdry : r.board.atlas.isWater t = false) :
    t ∈ s.desk.context.attacked ∨ r.board.isEnemyLand t p = true ∧
      ∃ d ∈ r.dispatches, d.refusal = none ∧ r.board.Takes t d.order := by
  rcases (hran.strikes hb hsits).marks t ht with hold | hwater | ⟨henemy, o, ho, htakes⟩
  · exact .inl hold
  · rw [hdry] at hwater
    cases hwater
  · rcases List.mem_map.1 ho with ⟨d, hd, rfl⟩
    exact .inr ⟨hsits.player ▸ henemy, d, hd, haccepted d hd, htakes⟩

/-- A phase of the combat move keeps the land that was attacked and holds what it attacks. -/
theorem Stormed.step {b₀ : Board} {p : PlayerId} {phase : Phase} {s s' : Campaign Table}
    {records : List PhaseRecord} {r : PhaseRecord} (hb : s.host.board.Sound) (hreg : b₀.Regular)
    (hsits : Sits p .combat s) (h : Stormed b₀ p records s) (hran : Ran phase s s' r) :
    Stormed b₀ p (records ++ [r]) s' := by
  have hreg' := hreg.of_sameGround h.after.toSameGround
  have hboard : r.board = s.host.board := hran.board
  have hb' : r.board.Sound := hboard ▸ hb
  have hdry : ∀ t, b₀.atlas.isWater t = false → r.board.atlas.isWater t = false := by
    intro t ht
    rw [hboard, h.after.isWater]
    exact ht
  obtain ⟨haccepted, hepoch⟩ := hran.refusal_eq_none hb hreg' hsits h.epoch
    (h.rules.trans h.after.rules.symm)
  -- what the phase gives are combat orders that were all taken
  have hgives : ∀ o ∈ r.orders,
      CombatOrder s.host.board p s.desk.context.attacked o ∧ o.pieces.Nodup := by
    intro o ho
    have horder := (hran.strikes hb' hsits).gives o ho
    rw [hsits.player, hboard] at horder
    exact ⟨horder, nodup_pieces_of_named hran.works.drafts.nodup_named ho⟩
  have hheld : ∀ t ∈ s.desk.context.attacked, s.host.board.atlas.isWater t = false →
      s.host.board.Foothold p t := by
    intro t ht hdry
    rw [h.after.isWater] at hdry
    exact h.held t ht hdry
  have hlanded := landed_submit hreg' hgives ⟨hb, .refl p _, hheld, by simp⟩
  rw [← hsits.player, hran.submits, hsits.player, ← hboard] at hlanded
  refine ⟨hepoch, hran.works.rules_eq.trans h.rules, h.after.trans (hboard ▸ hlanded.after), ?_, ?_⟩
  · intro t ht hland
    -- land is attacked already, or an order of this phase takes it
    rcases hran.struck hb' hsits haccepted ht (hdry t hland) with
      hold | ⟨henemy, d, hd, hnone, htakes⟩
    · exact hlanded.held t hold (hdry t hland)
    · exact hlanded.gained d hd hnone t henemy htakes
  · intro t ht hland
    rcases hran.struck hb' hsits haccepted ht (hdry t hland) with hold | ⟨-, hnew⟩
    · rcases h.struck t hold hland with ⟨r', hr', hd⟩
      exact ⟨r', List.mem_append_left _ hr', hd⟩
    · exact ⟨r, List.mem_append_right _ (List.mem_singleton_self r), hnew⟩

/-- On any board that can be reached from a scenario in which only ships have cargo space, strategic
bombers are aircraft and sea zones can be entered, for every player and configuration: when the
combat move is over, land pieces of the player stand in all land that it marked as attacked; such
land is the player's if no enemy force stands there, which was so from the start; and the table took
an order that lands cargo or marches land pieces there. -/
theorem runEpoch_footholds (s : Scenario) (h : Table) (hset : s.setUp = .ok h)
    (hships : ∀ k ∈ s.kinds, 0 < k.transportCapacity → k.isSea = true)
    (hbombers : ∀ k ∈ s.kinds, k.isStrategicBomber = true → k.isAir = true)
    (hseas : ∀ t ∈ s.territories, t.water = true → t.impassable = false)
    (earlier commands : List Command) (p : PlayerId) (config : Config) (ledger : Ledger)
    (record : EpochRecord) (last : Campaign Table)
    (hrun : runEpoch .combat
      ⟨h.play commands, ⟨.build (h.play earlier).board p config, ledger⟩⟩ = .ok record last) :
    ∀ t ∈ last.desk.context.attacked, last.host.board.atlas.isWater t = false →
      (∃ a ∈ last.host.board.ownedIn t p, a.kind.isLand = true) ∧
      (last.host.board.hasEnemyForce t p = false →
        (last.host.board.territory t).owner = some p) ∧
      last.host.board.hasEnemyForce t p = (h.play commands).board.hasEnemyForce t p ∧
      ∃ r ∈ record.phases, ∃ d ∈ r.dispatches, d.refusal = none ∧ r.board.Takes t d.order := by
  have hregular := Scenario.regular_setUp hset hships hbombers hseas
  have hsound := Scenario.setUp_sound hset
  rcases Table.play_keeps hsound earlier with ⟨-, hearlier⟩
  rcases Table.play_keeps hsound commands with ⟨hb, hground⟩
  have hkeeps := runEpoch_keeps (Table.steady h.board)
    (s := ⟨h.play commands, ⟨.build (h.play earlier).board p config, ledger⟩⟩)
    (J := Stormed (h.play commands).board p) ⟨hb, hground⟩ .combat ?_ ?_
  · unfold Ensures at hkeeps
    rw [hrun] at hkeeps
    rcases hkeeps with ⟨-, hstormed, ⟨hlast, -⟩, -⟩
    intro t ht hdry
    rw [hstormed.after.isWater] at hdry
    rcases hstormed.held t ht hdry with ⟨⟨a, ha, hland⟩, htaken⟩
    refine ⟨⟨a, hlast.mem_ownedIn_of_stands ha, hland⟩, htaken, hstormed.after.hasEnemyForce t,
      hstormed.struck t ht hdry⟩
  · -- at the start of the epoch nothing has been attacked
    refine ⟨rfl, hearlier.rules.trans hground.rules.symm, .refl p _, ?_, ?_⟩
    · intro t ht
      cases ht
    · intro t ht
      cases ht
  · rintro phase - s₁ s₂ records r ⟨hs₁, -⟩ hsits hstormed hran
    exact hstormed.step hs₁ (hregular.of_sameGround hground) hsits hran

end Campaign

/-! ## A march -/

/-- One neighbour is defended, the other is not, and a fighter stands with the troops at home. -/
def marching : Scenario where
  players := [{ name := "Red", capital := some "Home" }, { name := "Blue", team := 1 }]
  territories := [
    { name := "Home", owner := some "Red" },
    { name := "Plain", owner := some "Blue", production := 2 },
    { name := "Hill", owner := some "Blue", production := 3 }]
  connections := [("Home", "Plain"), ("Home", "Hill")]
  kinds := [
    { name := "infantry", attack := 1, defense := 2, cost := 3, transportCost := 2 },
    { name := "fighter", domain := .air, attack := 3, defense := 4, movement := 4, cost := 10 }]
  pieces := [
    { kind := "infantry", owner := "Blue", place := "Hill" },
    { kind := "fighter", owner := "Red", place := "Home" },
    { kind := "infantry", owner := "Red", place := "Home", count := 8 }]

namespace Campaign

set_option maxRecDepth 100000 in
/-- Both neighbours are attacked by land pieces, and the one that nobody defends is captured. -/
theorem runEpoch_footholds_marching :
    ∃ (h : Table) (record : EpochRecord) (last : Campaign Table), marching.setUp = .ok h ∧
      runEpoch .combat ⟨h.play [], ⟨.build (h.play []).board 0 {}, .new .combat⟩⟩ =
        .ok record last ∧
      last.desk.context.attacked = [1, 2] ∧
      (∀ t ∈ [1, 2], ∃ a ∈ last.host.board.ownedIn t 0, a.kind.isLand = true) ∧
      last.host.board.hasEnemyForce 1 0 = false ∧
      (last.host.board.territory 1).owner = some 0 ∧
      last.host.board.hasEnemyForce 2 0 = true := by
  have hpass : (marching.setUp.toOption.any fun h =>
      endsWith (fun _ last => decide (last.desk.context.attacked = [1, 2] ∧
          last.desk.context.attacked.all (!last.host.board.atlas.isWater ·) = true ∧
          last.host.board.hasEnemyForce 1 0 = false ∧
          last.host.board.hasEnemyForce 2 0 = true))
        (runEpoch .combat) ⟨h.play [], ⟨.build (h.play []).board 0 {}, .new .combat⟩⟩) = true := by
    decide +kernel
  obtain ⟨h, hset, hends⟩ := Scenario.exists_setUp hpass
  obtain ⟨record, last, hrun, hcheck⟩ := exists_of_endsWith hends
  rcases of_decide_eq_true hcheck with ⟨hattacked, hall, hundefended, hdefended⟩
  have hheld := runEpoch_footholds marching h hset (by decide) (by decide) (by decide) [] [] 0
    {} (.new .combat) record last hrun
  rw [hattacked] at hheld hall
  have hdry : ∀ t ∈ [1, 2], last.host.board.atlas.isWater t = false := by simpa using hall
  refine ⟨h, record, last, hset, hrun, hattacked, ?_, hundefended, ?_, hdefended⟩
  · intro t ht
    exact (hheld t ht (hdry t ht)).1
  · exact (hheld 1 (by decide) (hdry 1 (by decide))).2.1 hundefended

end Campaign

end Conquest
