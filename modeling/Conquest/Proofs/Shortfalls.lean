import Conquest.Proofs.Gathering
import Conquest.Proofs.Landings
import Conquest.Proofs.Marches
import Conquest.Proofs.Origins
import Conquest.Proofs.Tallies

/-!
# A shortfall is genuine

Land pieces are looked for around the objective, over any passable land and as far as the kinds in
the catalogue go; only then a safe way back is searched for. Nothing is missed: the safe way is a
walk over passable land that can be turned around, and no piece has more movement left than its
kind. So if recruiting on land falls short, every piece that could still come is taken.

* `Board.Catalogued`: every piece is of a kind in the catalogue; `Scenario.play_catalogued`.
* `CanReach`: a land piece that could march to an objective.
* `exists_landSource`: such a piece is offered by a source of land pieces.
* `Scenario.recruit_exhausts`: a shortfall in a game.
-/

namespace Conquest

/-! ## Kinds of the catalogue -/

theorem le_foldl_max {ns : List Nat} {k n : Nat} (h : k ≤ n ∨ k ∈ ns) : k ≤ ns.foldl max n := by
  induction ns generalizing n with
  | nil => simpa using h
  | cons m rest ih =>
    rw [List.foldl_cons]
    apply ih
    rcases h with h | h
    · exact .inl (h.trans (le_max_left n m))
    · rcases List.mem_cons.1 h with rfl | h
      · exact .inl (le_max_right n k)
      · exact .inr h

theorem le_greatestMovement {kinds : List PieceKind} {k : PieceKind} (hk : k ∈ kinds) :
    k.movement ≤ greatestMovement kinds :=
  le_foldl_max (.inr (List.mem_map_of_mem hk))

namespace Board

/-- Every piece is of a kind in the catalogue. -/
def Catalogued (b : Board) : Prop := ∀ u q, b.piece? u = some q → q.kind < b.kinds.size

namespace Catalogued

variable {b b' : Board}

/-- Boards whose pieces keep their kinds stay catalogued. -/
theorem of_pieces (hb : b.Catalogued) (hkinds : b'.kinds = b.kinds)
    (hpieces : ∀ u q', b'.piece? u = some q' → ∃ q, b.piece? u = some q ∧ q'.kind = q.kind) :
    b'.Catalogued := by
  intro u q' hq'
  rcases hpieces u q' hq' with ⟨q, hq, hkind⟩
  rw [hkind, hkinds]
  exact hb u q hq

theorem addPiece (hb : b.Catalogued) {k : KindId} (hk : k < b.kinds.size) (p : PlayerId)
    (t : TerritoryId) : (b.addPiece k p t).Catalogued := by
  intro u q hq
  show q.kind < b.kinds.size
  by_cases hu : u = b.pieces.size
  · rw [hu, piece?_addPiece, Option.some.injEq] at hq
    exact hq ▸ hk
  · rw [piece?_addPiece_of_ne b k p t hu] at hq
    exact hb u q hq

theorem foldl_addPiece {kinds : List KindId} (hb : b.Catalogued)
    (hkinds : ∀ k ∈ kinds, k < b.kinds.size) (p : PlayerId) (t : TerritoryId) :
    (kinds.foldl (fun b k => b.addPiece k p t) b).Catalogued := by
  induction kinds generalizing b with
  | nil => exact hb
  | cons k rest ih =>
    rw [List.forall_mem_cons] at hkinds
    exact ih (hb.addPiece hkinds.1 p t) hkinds.2

/-- Commands keep the board catalogued. -/
theorem answer {h h' : Table} {c : Command} (hb : h.board.Catalogued) (hsound : h.board.Sound)
    (htaken : h.answer c = .ok h') : h'.board.Catalogued := by
  -- pieces come into the game by placements, and those are checked
  cases c with
  | move p o =>
    have hafter := (Table.submitMove_effect hsound htaken).after
    refine hb.of_pieces hafter.kinds ?_
    intro u q' hq'
    rcases hafter.piece u q' hq' with ⟨q, hq, hkind, -⟩
    exact ⟨q, hq, hkind⟩
  | purchase p bought =>
    rcases Table.submitPurchase_ok_iff.1 htaken with ⟨-, -, rfl⟩
    exact hb
  | placement p x =>
    rcases Table.submitPlacement_ok_iff.1 htaken with ⟨hwanted, f, -, -, rfl⟩
    refine hb.foldl_addPiece ?_ p x.territory
    intro k hk
    exact (Table.checkWanted_ok_iff.1 (hwanted _ (Tally.mem_entries_ofKinds hk))).2.1
  | beginEpoch p e =>
    cases htaken
    exact hb
  | endTurn p =>
    cases htaken
    refine hb.of_pieces rfl ?_
    intro u q' hq'
    rcases Table.of_piece?_endTurn hq' with ⟨q, hq, hpost⟩
    exact ⟨q, hq, hpost.kind⟩

end Catalogued

end Board

namespace Scenario

open Board Table

variable {s : Scenario}

theorem setUp_catalogued {h : Table} (hset : s.setUp = .ok h) : h.board.Catalogued := by
  rcases board_forall (setUp_board hset).1 with ⟨empty, hempty, hall⟩
  rcases sound_emptyBoard hempty with ⟨-, -, hkinds⟩
  -- the catalogue is that of the scenario throughout
  have hsize : empty.kinds.size = s.kinds.length := by
    rw [hkinds, catalogue]
    simp
  have hknown : ∀ spec d, s.deployment spec = .ok d → d.kind < empty.kinds.size := by
    intro spec d hd
    rw [hsize]
    simpa [names] using lt_of_find (deployment_ok hd).1
  refine (hall (fun b => b.Catalogued ∧ b.kinds = empty.kinds) ⟨?_, rfl⟩ ?_ ?_).1
  · intro u q hq
    rw [piece?_emptyBoard hempty] at hq
    cases hq
  · rintro spec - - d hd b ⟨hb, hsame⟩
    exact ⟨hb.addPiece (hsame ▸ hknown spec d hd) d.owner d.territory, hsame⟩
  · rintro spec - - d hd b carrier ⟨hb, hsame⟩ -
    have hadded := hb.addPiece (hsame ▸ hknown spec d hd) d.owner d.territory
    refine ⟨hadded.of_pieces rfl ?_, hsame⟩
    intro u q' hq'
    rcases of_piece?_modifyPiece hq' with ⟨q, hq, rfl⟩
    refine ⟨q, hq, ?_⟩
    split
    · rfl
    · rfl

/-- In a whole game every piece is of a kind in the catalogue. -/
theorem play_catalogued {h : Table} (hset : s.setUp = .ok h) (commands : List Command) :
    (h.play commands).board.Catalogued := by
  refine (play_forall (Q := fun h => h.board.Sound ∧ h.board.Catalogued) ?_
    ⟨setUp_sound hset, setUp_catalogued hset⟩ commands).2
  rintro h₁ h₂ c ⟨hsound, hb⟩ htaken
  exact ⟨(answer_keeps hsound htaken).1, hb.answer hsound htaken⟩

end Scenario

/-! ## Pieces that could come -/

/-- Friendly land of `p` without an enemy force and without a battle. -/
def Board.isSafeLand (b : Board) (p : PlayerId) (t : TerritoryId) : Bool :=
  b.isFriendlyLand t p && !b.hasEnemyForce t p && !b.hasBattle t

/-- A land piece of `p` that could march to an objective in an epoch: it stands by itself on
friendly land without a battle, away from the objective and from what is excluded, and has the
movement for the way over safe land. -/
structure CanReach (b : Board) (p : PlayerId) (e : Epoch) (objective : TerritoryId)
    (exclude : List TerritoryId) (u : PieceId) (q : Piece) : Prop where
  piece : b.piece? u = some q
  owner : q.owner = p
  land : (b.kind q.kind).isLand = true
  mobile : (b.kind q.kind).isInfrastructure = false
  alone : q.carrier = none
  left : 0 < q.movementLeft
  rested : e = .nonCombat → q.movedThisTurn = false
  home : b.isFriendlyLand q.territory p = true
  away : q.territory ≠ objective
  kept : q.territory ∉ exclude
  calm : b.hasBattle q.territory = false
  route : ∃ r, b.atlas.routeInto? q.territory objective (b.isSafeLand p) = some r ∧
    r.length ≤ q.movementLeft

namespace CanReach

variable {b : Board} {c : Context} {l : Ledger} {p : PlayerId} {o : TerritoryId}
  {exclude : List TerritoryId} {e : Epoch} {u : PieceId} {q : Piece}

/-- A piece that can reach the objective stands on its territory. -/
theorem mem_ownedIn (h : CanReach b p e o exclude u q) (hb : b.Sound) :
    ⟨q, b.kind q.kind⟩ ∈ b.ownedIn q.territory p := by
  have hmem := (hb.mem_garrison h.piece (Board.isSettled_of_carrier h.alone)).2 rfl
  have hasset : b.asset? u = some ⟨q, b.kind q.kind⟩ := Board.asset?_eq_some.2 ⟨h.piece, rfl⟩
  exact Board.mem_ownedIn.2 ⟨Board.mem_assetsIn.2 ⟨u, hmem, hasset⟩, h.owner⟩

/-- A free piece that can reach the objective is usable. -/
theorem isUsable (h : CanReach b c.player l.epoch o exclude u q) (hb : b.Sound)
    (hfree : u ∉ l.pieces) : c.isUsable b l ⟨q, b.kind q.kind⟩ = true := by
  refine Context.isUsable_iff.2 ⟨h.owner, ?_, h.left, h.mobile, h.calm, ?_⟩
  · show q.id ∉ l.pieces
    rw [hb.id_piece u q h.piece]
    exact hfree
  · cases he : l.epoch with
    | combat => exact .inl rfl
    | nonCombat => exact .inr (h.rested he)

end CanReach

namespace Context

variable {b : Board} {c : Context} {l : Ledger} {target : Target} {u : PieceId} {q : Piece}

/-- Land pieces that do not blitz pass over safe land. -/
theorem landPassable_eq (c : Context) (b : Board) (combat : Bool) :
    c.landPassable b false combat = b.isSafeLand c.player := by
  funext t
  unfold landPassable Board.isSafeLand
  rw [Bool.false_and, Bool.false_and, Bool.false_and, Bool.or_false, Bool.and_comm, Bool.and_assoc]

/-- A safe way in is found from the objective, too, within the length that it has. -/
theorem mem_neighborsWithin_of_routeInto? (hm : b.atlas.Neat)
    {p : PlayerId} {o t : TerritoryId} {r : Route} {reach : Nat} (hne : t ≠ o)
    (ho : b.atlas.isPassableLand o = true) (ht : b.atlas.isPassableLand t = true)
    (hr : b.atlas.routeInto? t o (b.isSafeLand p) = some r) (hreach : r.length ≤ reach) :
    t ∈ b.atlas.neighborsWithin o reach b.atlas.isPassableLand := by
  have hin := ((Atlas.route?_eq_some_iff hm).1 hr).isWalk
  -- all that it enters is passable land
  have hwalk : b.atlas.IsWalk b.atlas.isPassableLand t o r := by
    refine ⟨hin.start_eq, hin.dest_eq, hin.walk, ?_⟩
    intro x hx
    have hpass := hin.passable x hx
    rw [Bool.or_eq_true, beq_iff_eq] at hpass
    rcases hpass with rfl | hsafe
    · exact ho
    · unfold Board.isSafeLand Board.isFriendlyLand at hsafe
      simp only [Bool.and_eq_true] at hsafe
      exact hsafe.1.1.1
  rcases hwalk.reverse hm.toLinked ht with ⟨back, hback, hlength⟩
  rcases Atlas.exists_isFirst hm hback with ⟨first, hfirst⟩
  have hshort := hfirst.length_le hback
  exact (Atlas.mem_neighborsWithin_iff hm).2 ⟨hne, first, hfirst, by omega⟩

/-- A piece that could come and is free is offered by the territory where it stands. -/
theorem exists_landSource (hb : b.Sound) (hfree : u ∉ l.pieces)
    (hcan : CanReach b c.player l.epoch target.objective target.exclude u q) :
    ∃ s, c.landSource? b l target false q.territory = some s ∧ ∃ a ∈ s.assets, a.id = u := by
  rcases hcan.route with ⟨r, hr, hlength⟩
  set pool := (b.ownedIn q.territory c.player).filter fun a =>
    a.kind.isLand && !a.isAboard && (!false || a.kind.canBlitz)
      && decide (r.length ≤ a.piece.movementLeft) && c.isUsable b l a with hpool
  have hmem : ⟨q, b.kind q.kind⟩ ∈ pool := by
    have halone : (⟨q, b.kind q.kind⟩ : Asset).isAboard = false := by
      rw [← Bool.not_eq_true]
      exact Asset.not_isAboard_iff.2 hcan.alone
    refine List.mem_filter.2 ⟨hcan.mem_ownedIn hb, ?_⟩
    rw [hcan.isUsable hb hfree, halone, hcan.land, decide_eq_true hlength]
    rfl
  refine ⟨⟨q.territory, r, c.preferenceOrder (isCombat l) pool⟩, ?_, ⟨q, b.kind q.kind⟩,
    (c.preferenceOrder_perm _ _).mem_iff.2 hmem, hb.id_piece u q hcan.piece⟩
  unfold landSource?
  refine guard_bind_eq_some.2 ⟨?_, guard_bind_eq_some.2 ⟨rfl, ?_⟩⟩
  · rw [Bool.and_eq_true]
    exact ⟨allowsSource_iff.2 ⟨hcan.away, hcan.kept⟩, hcan.home⟩
  · rw [landPassable_eq, hr]
    refine guard_bind_eq_some.2 ⟨?_, rfl⟩
    rw [Bool.not_eq_true', List.isEmpty_eq_false_iff_exists_mem]
    exact ⟨_, hmem⟩

/-- A piece that could come and is free is among the sources of land pieces, if the search goes as
far as the piece could. -/
theorem exists_mem_landSources (hb : b.Sound) (hm : b.atlas.Neat) (hknown : b.Catalogued)
    (hpaced : q.movementLeft ≤ (b.kind q.kind).movement)
    (hland : b.atlas.isPassableLand target.objective = true)
    (hfriendly : l.epoch = .nonCombat → b.isFriendlyLand target.objective c.player = true)
    (hfree : u ∉ l.pieces)
    (hcan : CanReach b c.player l.epoch target.objective target.exclude u q) :
    ∃ s ∈ c.sources b l target .land, ∃ a ∈ s.assets, a.id = u := by
  rcases exists_landSource hb hfree hcan with ⟨s, hsource, hoffered⟩
  refine ⟨s, mem_landSources.2 ⟨hland, ?_, q.territory, ?_, hsource⟩, hoffered⟩
  · intro hpeace
    apply hfriendly
    cases he : l.epoch with
    | combat =>
      unfold isCombat at hpeace
      rw [he] at hpeace
      cases hpeace
    | nonCombat => rfl
  · rcases hcan.route with ⟨r, hr, hlength⟩
    have hhome : b.atlas.isPassableLand q.territory = true := by
      have hhome := hcan.home
      unfold Board.isFriendlyLand at hhome
      rw [Bool.and_eq_true] at hhome
      exact hhome.1
    -- no piece has more movement left than its kind, and the search reaches as far as that
    have hlisted : b.kind q.kind ∈ b.kindsWhere (·.isLand) := by
      refine List.mem_filter.2 ⟨?_, hcan.land⟩
      have hlt := hknown u q hcan.piece
      unfold Board.kind
      rw [Array.getD_eq_getD_getElem?, Array.getElem?_eq_getElem hlt, Option.getD_some]
      exact Array.getElem_mem_toList hlt
    have hreach := le_greatestMovement hlisted
    exact mem_neighborsWithin_of_routeInto? hm hcan.away hland hhome hr (by omega)

end Context

namespace Scenario

open Board Table

/-- In every game recruiting on land does not fail, and if it falls short of what is needed, every
piece that could have come is taken. -/
theorem recruit_exhausts (s : Scenario) (h₀ : Table) (hset : s.setUp = .ok h₀)
    (commands : List Command) (c : Context) (l : Ledger) (target : Target)
    (hneeded : 0 < target.needed)
    (hland : (h₀.play commands).board.atlas.isPassableLand target.objective = true)
    (hfriendly : l.epoch = .nonCombat →
      (h₀.play commands).board.isFriendlyLand target.objective c.player = true) :
    ∃ haul l', c.recruit (h₀.play commands).board target .land l = .ok haul l' ∧
      (haul.achieved < target.needed → ∀ u q,
        CanReach (h₀.play commands).board c.player l.epoch target.objective target.exclude u q →
          u ∈ l'.pieces) := by
  obtain ⟨hsound, hground⟩ := play_keeps (setUp_sound hset) commands
  have hm : (h₀.play commands).board.atlas.Neat := (hground.isDrawn (setUp_isDrawn hset)).neat
  have hs : ∀ s ∈ c.sources (h₀.play commands).board l target .land, (s.assets.map (·.id)).Nodup :=
    Context.nodup_of_sound hsound
  rcases Context.recruit_gathers hs (Context.isMet_eq_false hneeded) (by decide) with
    ⟨xs, hgathers, hrecruit⟩
  refine ⟨_, _, hrecruit, ?_⟩
  intro hshort u q hcan
  by_cases hfree : u ∈ l.pieces
  · exact Ledger.mem_pieces_taking.2 (.inl hfree)
  · have hpaced := (paced_play (setUp_sound hset) (setUp_paced hset q.owner) commands).within u q
      hcan.piece rfl
    rcases Context.exists_mem_landSources hsound hm (play_catalogued hset commands)
      ((Nat.le_add_left _ _).trans hpaced) hland hfriendly hfree hcan with ⟨s, hs, a, ha, rfl⟩
    exact hgathers.exhausts hshort s hs a ha

/-- A tank of Red stands two steps from the fort of Blue, infantry next to it. -/
def relief : Scenario where
  players := [{ name := "Red" }, { name := "Blue", team := 1 }]
  territories := [
    { name := "Fort", owner := some "Blue" }, { name := "Front", owner := some "Red" },
    { name := "Rear", owner := some "Red" }]
  connections := [("Fort", "Front"), ("Front", "Rear")]
  kinds := [
    { name := "infantry", attack := 1, defense := 2, cost := 3 },
    { name := "tank", movement := 2, attack := 3, defense := 3, cost := 6 }]
  pieces := [
    { kind := "tank", owner := "Red", place := "Rear" },
    { kind := "infantry", owner := "Red", place := "Front" },
    { kind := "infantry", owner := "Blue", place := "Fort", count := 2 }]

set_option maxRecDepth 100000 in
/-- All that Red has falls short of 100, so the tank is taken, too. -/
theorem recruit_exhausts_relief : ∃ h b q haul l', relief.setUp = .ok h ∧
    (h.play [.beginEpoch 0 .combat]).board = b ∧ (0 : Float32) < 100 ∧
    b.atlas.isPassableLand 0 = true ∧ CanReach b 0 .combat 0 [] 0 q ∧
    (Context.build b 0 {}).recruit b ⟨0, 100, []⟩ .land (.new .combat) = .ok haul l' ∧
    haul.achieved < 100 ∧ 0 ∈ l'.pieces := by
  have hpass : (relief.setUp.toOption.any fun h =>
      let b := (h.play [.beginEpoch 0 .combat]).board
      decide (
        b.atlas.isPassableLand 0 = true ∧ (∃ q ∈ b.piece? 0, q.owner = 0 ∧
          (b.kind q.kind).isLand = true ∧ (b.kind q.kind).isInfrastructure = false ∧
          q.carrier = none ∧ 0 < q.movementLeft ∧ b.isFriendlyLand q.territory 0 = true ∧
          q.territory ≠ 0 ∧ b.hasBattle q.territory = false ∧
          ∃ r ∈ b.atlas.routeInto? q.territory 0 (b.isSafeLand 0), r.length ≤ q.movementLeft)) &&
      endsWith (fun haul _ => decide (haul.achieved < 100))
        ((Context.build b 0 {}).recruit b ⟨0, 100, []⟩ .land) (.new .combat)) = true := by
    decide +kernel
  obtain ⟨h, hset, hcheck⟩ := exists_setUp hpass
  rw [Bool.and_eq_true] at hcheck
  obtain ⟨hfacts, hshort⟩ := hcheck
  obtain ⟨hland, q, hq, howner, htank, hmobile, halone, hleft, hhome, haway, hcalm, r, hr,
    hlength⟩ := of_decide_eq_true hfacts
  set b := (h.play [.beginEpoch 0 .combat]).board
  have hcan : CanReach b 0 .combat 0 [] 0 q :=
    ⟨hq, howner, htank, hmobile, halone, hleft, by simp, hhome, haway, by simp, hcalm, r, hr,
      hlength⟩
  obtain ⟨haul, l', hrecruit, hall⟩ := recruit_exhausts relief h hset [.beginEpoch 0 .combat]
    (.build b 0 {}) (.new .combat) ⟨0, 100, []⟩ (by decide) hland (by simp [Ledger.new])
  have hachieved := test_of_endsWith hshort hrecruit
  have hless : haul.achieved < 100 := of_decide_eq_true hachieved
  exact ⟨h, b, q, haul, l', hset, rfl, by decide, hland, hcan, hrecruit, hless,
    hall hless 0 q hcan⟩

end Scenario

end Conquest
