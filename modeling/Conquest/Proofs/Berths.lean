import Conquest.Proofs.Capacity
import Conquest.Proofs.Play
import Conquest.Proofs.Tallies
import Conquest.Table.Overflow

/-!
# Every piece in its element

Where only ships have cargo space and ships are set up at sea, ships stay at sea, a land piece is at
sea just while it is aboard a ship, and no ship carries more than it has room for. A place and a
carrier are changed one after the other, so each step of an order is looked at as a whole.

* `Board.Placed`, `Board.Berthed`: the invariant, without and with the room aboard.
* `Board.Sound.room_push`, `Board.Berthed.push`: a new piece, ashore or aboard.
* `Board.Berthed.relocate`, `Table.placed_embark`, `Table.berthed_land`: what orders are made of
  keeps it.
* `Table.obey_berthed`, `Table.play_berthed`: every command keeps it, and so does every game; the
  room aboard is kept as long as no sum wraps around.
-/

namespace Conquest

namespace Board

variable {b b' : Board} {u : PieceId} {q : Piece} {route : Route} {inRange : Prop}

/-- A piece is in its element: a ship at sea, and a land piece at sea just if it is aboard. -/
structure InElement (b : Board) (q : Piece) : Prop where
  ship : (b.kind q.kind).isSea = true → b.atlas.isWater q.territory = true
  land : (b.kind q.kind).isLand = true →
    (b.atlas.isWater q.territory = true ↔ q.carrier.isSome = true)

/-- Only ships carry, and all pieces are in their element. -/
structure Placed (b : Board) : Prop where
  sound : b.Sound
  ships : b.OnlyShipsCarry
  place : ∀ u q, b.piece? u = some q → b.InElement q

/-- Moreover nothing carries more than it has room for, as long as the game has been in range. -/
structure Berthed (inRange : Prop) (b : Board) : Prop extends Placed b where
  room : inRange → ∀ c s, b.piece? c = some s →
    Table.cargoCost b (b.aboard c) ≤ (b.kind s.kind).transportCapacity

/-- Being in its element depends on the kind, the place and the carrier of a piece. -/
theorem InElement.congr {q' : Piece} (h : b.InElement q) (hground : b.SameGround b')
    (hkind : q'.kind = q.kind) (hterr : q'.territory = q.territory)
    (hcarrier : q'.carrier = q.carrier) : b'.InElement q' := by
  constructor
  · intro hsea
    rw [hground.kind, hkind] at hsea
    rw [hground.isWater, hterr]
    exact h.ship hsea
  · intro hland
    rw [hground.kind, hkind] at hland
    rw [hground.isWater, hterr, hcarrier]
    exact h.land hland

/-- A board stays placed if its pieces were in their element before the step. -/
theorem Placed.step (hb : b.Placed) (hsound : b'.Sound) (hground : b.SameGround b')
    (hplace : ∀ w x', b'.piece? w = some x' → b.InElement x') : b'.Placed := by
  refine ⟨hsound, hb.ships.of_sameGround hground, ?_⟩
  intro w x' hx'
  exact (hplace w x' hx').congr hground rfl rfl rfl

/-- Whatever carries is a ship. -/
theorem Placed.isSea_of_carrier (hb : b.Placed) {w c : PieceId} {x : Piece}
    (hx : b.piece? w = some x) (hc : x.carrier = some c) :
    ∃ s, b.piece? c = some s ∧ (b.kind s.kind).isSea = true ∧ b.Carries s x := by
  obtain ⟨s, hs, hcarries⟩ := hb.sound.cargo w x c hx hc
  exact ⟨s, hs, hb.ships s.kind hcarries.room, hcarries⟩

/-- Nothing is aboard a land piece. -/
theorem Placed.carrier_ne (hb : b.Placed) (hq : b.piece? u = some q)
    (hland : (b.kind q.kind).isLand = true) {w : PieceId} {x : Piece}
    (hx : b.piece? w = some x) : x.carrier ≠ some u := by
  intro hc
  obtain ⟨s, hs, hsea, -⟩ := hb.isSea_of_carrier hx hc
  rw [hq, Option.some.injEq] at hs
  rw [← hs] at hsea
  exact absurd hland (PieceKind.not_isLand_of_isSea hsea)

/-! ## Room -/

theorem cargoCost_aboard_le (hb : b.Sound) {c : PieceId} {us : List PieceId}
    (hus : ∀ w x, b.piece? w = some x → x.carrier = some c → w ∈ us) :
    Table.cargoCost b (b.aboard c) ≤ Table.cargoCost b us := by
  refine Table.cargoCost_le b (hb.nodup_aboard c) ?_
  intro w hw
  obtain ⟨x, hx, hc⟩ := hb.mem_aboard.1 hw
  exact hus w x hx hc

/-- Pieces that keep their kinds take up what they took up. -/
theorem cargoCost_of_kind (hground : b.SameGround b')
    (hkind : ∀ w x, b.piece? w = some x → ∃ x', b'.piece? w = some x' ∧ x'.kind = x.kind)
    {us : List PieceId} (hus : ∀ w ∈ us, ∃ x, b.piece? w = some x) :
    Table.cargoCost b' us = Table.cargoCost b us := by
  refine Table.cargoCost_congr fun w hw => ?_
  obtain ⟨x, hx⟩ := hus w hw
  obtain ⟨x', hx', hsame⟩ := hkind w x hx
  unfold asset?
  rw [hx, hx']
  simp [hground.kind, hsame]

/-- Nothing is aboard a piece that is not there. -/
theorem aboard_eq_nil (hb : b.Sound) {c : PieceId} (hnone : b.piece? c = none) :
    b.aboard c = [] := by
  rw [List.eq_nil_iff_forall_not_mem]
  intro w hw
  obtain ⟨x, hx, hc⟩ := hb.mem_aboard.1 hw
  obtain ⟨s, hs, -⟩ := hb.cargo w x c hx hc
  rw [hnone] at hs
  cases hs

/-- What is aboard is a piece. -/
theorem exists_of_mem_aboard (hb : b.Sound) {c : PieceId} :
    ∀ w ∈ b.aboard c, ∃ x, b.piece? w = some x := by
  intro w hw
  obtain ⟨x, hx, -⟩ := hb.mem_aboard.1 hw
  exact ⟨x, hx⟩

/-- The less is known to be in range, the less room is known. -/
theorem Berthed.mono {inRange' : Prop} (hb : b.Berthed inRange) (himp : inRange' → inRange) :
    b.Berthed inRange' :=
  ⟨hb.toPlaced, fun hrange => hb.room (himp hrange)⟩

/-- There is room as long as nothing comes aboard. -/
theorem Berthed.step (hb : b.Berthed inRange) (hplaced : b'.Placed) (hground : b.SameGround b')
    (hkind : ∀ w x, b.piece? w = some x → ∃ x', b'.piece? w = some x' ∧ x'.kind = x.kind)
    (hcargo : ∀ w x', b'.piece? w = some x' → ∀ c, x'.carrier = some c →
      ∃ x, b.piece? w = some x ∧ x.carrier = some c) : b'.Berthed inRange := by
  refine ⟨hplaced, ?_⟩
  intro hrange c s' hs'
  have hsub : ∀ w x', b'.piece? w = some x' → x'.carrier = some c → w ∈ b.aboard c := by
    intro w x' hx' hc
    exact hb.sound.mem_aboard.2 (hcargo w x' hx' c hc)
  have hle := cargoCost_aboard_le hplaced.sound hsub
  rw [cargoCost_of_kind hground hkind (exists_of_mem_aboard hb.sound)] at hle
  cases hs : b.piece? c with
  | some s =>
    obtain ⟨s₀, hs₀, hsame⟩ := hkind c s hs
    rw [hs', Option.some.injEq] at hs₀
    have hroom := hb.room hrange c s hs
    rw [hground.kind, hs₀, hsame]
    omega
  | none =>
    rw [aboard_eq_nil hb.sound hs] at hle
    exact hle.trans (Nat.zero_le _)

/-- Movement and hits, the owners of land and money do not matter. -/
theorem Berthed.of_samePost (hb : b.Berthed inRange) (hsound : b'.Sound) (hground : b.SameGround b')
    (hsize : b'.pieces.size = b.pieces.size)
    (hsame : ∀ w x', b'.piece? w = some x' → ∃ x, b.piece? w = some x ∧ x.SamePost x') :
    b'.Berthed inRange := by
  have hplaced : b'.Placed := by
    refine hb.toPlaced.step hsound hground ?_
    intro w x' hx'
    obtain ⟨x, hx, hpost⟩ := hsame w x' hx'
    exact (hb.place w x hx).congr (.refl b) hpost.kind hpost.territory hpost.carrier
  refine hb.step hplaced hground ?_ ?_
  · intro w x hx
    obtain ⟨x', hx'⟩ := piece?_of_lt (hsize ▸ lt_size_of_piece? hx)
    obtain ⟨x₀, hx₀, hpost⟩ := hsame w x' hx'
    rw [hx, Option.some.injEq] at hx₀
    exact ⟨x', hx', hx₀ ▸ hpost.kind⟩
  · intro w x' hx' c hc
    obtain ⟨x, hx, hpost⟩ := hsame w x' hx'
    exact ⟨x, hx, hpost.carrier ▸ hc⟩

/-- Changes of the marks do not touch the pieces. -/
theorem Berthed.of_pieces (hb : b.Berthed inRange) (hsound : b'.Sound) (hground : b.SameGround b')
    (hpieces : b'.pieces = b.pieces) : b'.Berthed inRange := by
  refine hb.of_samePost hsound hground (by rw [hpieces]) ?_
  intro w x hx
  rw [piece?, hpieces] at hx
  exact ⟨x, hx, rfl, rfl, rfl, rfl, rfl⟩

/-! ## Relocation -/

theorem sameGround_relocate (b : Board) (u : PieceId) (route : Route) :
    b.SameGround (b.relocate u route) :=
  .of_eq (atlas_relocate b u route) (players_relocate b u route) (kinds_relocate b u route)
    (rules_relocate b u route)

/-- A piece that goes where it is in its element leaves all in their element, its cargo included. -/
theorem Placed.relocate (hb : b.Placed) (hq : b.piece? u = some q) (hnone : q.carrier = none)
    (hdest : route.dest < b.atlas.size) (hfits : b.InElement { q with territory := route.dest }) :
    (b.relocate u route).Placed := by
  refine hb.step (hb.sound.relocate hq hdest (.inl hnone)) (sameGround_relocate b u route) ?_
  intro w x' hx'
  obtain ⟨x, hx, -, hkind, -, hcarrier, hterr⟩ := hb.sound.of_piece?_relocate hq route hx'
  by_cases hgoes : w = u ∨ x.carrier = some u
  · rw [if_pos hgoes] at hterr
    rcases hgoes with rfl | haboard
    · rw [hx, Option.some.injEq] at hq
      subst hq
      exact hfits.congr (.refl b) hkind hterr hcarrier
    · -- the cargo of a ship goes where the ship goes, and that is water
      obtain ⟨s, hs, hsea, hcarries⟩ := hb.isSea_of_carrier hx haboard
      rw [hq, Option.some.injEq] at hs
      subst hs
      have hwater : b.atlas.isWater route.dest = true := hfits.ship hsea
      constructor
      · intro _
        rw [hterr]
        exact hwater
      · intro _
        rw [hterr, hcarrier, haboard]
        simp [hwater]
  · rw [if_neg hgoes] at hterr
    exact (hb.place w x hx).congr (.refl b) hkind hterr hcarrier

/-- Relocating a piece takes its cargo along and changes nobody's room. -/
theorem Berthed.relocate (hb : b.Berthed inRange) (hq : b.piece? u = some q)
    (hnone : q.carrier = none) (hdest : route.dest < b.atlas.size)
    (hfits : b.InElement { q with territory := route.dest }) :
    (b.relocate u route).Berthed inRange := by
  have hplaced := hb.toPlaced.relocate hq hnone hdest hfits
  refine hb.step hplaced (sameGround_relocate b u route) ?_ ?_
  · intro w x hx
    obtain ⟨x', hx'⟩ := Sound.exists_piece?_relocate (u := u) hx route
    obtain ⟨x₀, hx₀, -, hkind, -⟩ := hb.sound.of_piece?_relocate hq route hx'
    rw [hx, Option.some.injEq] at hx₀
    exact ⟨x', hx', hx₀ ▸ hkind⟩
  · intro w x' hx' c hc
    obtain ⟨x, hx, -, -, -, hcarrier, -⟩ := hb.sound.of_piece?_relocate hq route hx'
    exact ⟨x, hx, hcarrier ▸ hc⟩

/-! ## New pieces -/

section Push

variable {x : Piece} (hpieces : b'.pieces = b.pieces.push x)
include hpieces

theorem piece?_of_push (w : PieceId) :
    b'.piece? w = if w = b.pieces.size then some x else b.piece? w := by
  rw [piece?, hpieces, Array.getElem?_push]
  rfl

theorem piece?_of_push_of_some {w : PieceId} {q : Piece} (hq : b.piece? w = some q) :
    b'.piece? w = some q := by
  rw [piece?_of_push hpieces, if_neg (Nat.ne_of_lt (lt_size_of_piece? hq)), hq]

theorem of_piece?_of_push {w : PieceId} {q : Piece} (hq : b'.piece? w = some q) :
    q = x ∨ b.piece? w = some q := by
  rw [piece?_of_push hpieces] at hq
  split at hq
  · exact .inl (Option.some.inj hq).symm
  · exact .inr hq

variable (hid : x.id = b.pieces.size)
include hid

/-- Aboard is what was aboard, and the new piece where it has come aboard. -/
theorem Sound.cargoCost_aboard_push (hb : b.Sound) (hground : b.SameGround b') (c : PieceId) :
    Table.cargoCost b' (b'.aboard c) = Table.cargoCost b (b.aboard c) +
      if x.carrier = some c then (b.kind x.kind).transportCost else 0 := by
  have haboard : b'.aboard c = b.aboard c ++ ([x].filter (·.carrier == some c)).map (·.id) := by
    unfold aboard
    rw [hpieces, Array.toList_push, List.filter_append, List.map_append]
  rw [haboard, Table.cargoCost_append, cargoCost_of_kind hground
    (fun w q hq => ⟨q, piece?_of_push_of_some hpieces hq, rfl⟩) (exists_of_mem_aboard hb)]
  congr 1
  by_cases hc : x.carrier = some c
  · have hasset : b'.asset? x.id = some ⟨x, b'.kind x.kind⟩ :=
      asset?_eq_some.2 ⟨by rw [piece?_of_push hpieces, if_pos hid], rfl⟩
    rw [if_pos hc, List.filter_cons_of_pos (by simp [hc]), List.filter_nil, List.map_singleton,
      Table.cargoCost_cons, hasset, ← hground.kind]
    rfl
  · rw [if_neg hc, List.filter_cons_of_neg (by simpa using hc)]
    rfl

/-- Nothing carries more than it has room for if the new piece comes aboard where it fits. -/
theorem Sound.room_push (hb : b.Sound) (hground : b.SameGround b')
    (hroom : ∀ c s, b.piece? c = some s →
      Table.cargoCost b (b.aboard c) ≤ (b.kind s.kind).transportCapacity)
    (hfits : ∀ c, x.carrier = some c → ∃ s, b.piece? c = some s ∧
      Table.cargoCost b (b.aboard c) + (b.kind x.kind).transportCost ≤
        (b.kind s.kind).transportCapacity) :
    ∀ c s, b'.piece? c = some s →
      Table.cargoCost b' (b'.aboard c) ≤ (b'.kind s.kind).transportCapacity := by
  intro c s hs
  rw [hb.cargoCost_aboard_push hpieces hid hground, hground.kind]
  by_cases hc : x.carrier = some c
  · rcases hfits c hc with ⟨s', hs', hle⟩
    rw [piece?_of_push_of_some hpieces hs', Option.some.injEq] at hs
    rw [if_pos hc, ← hs]
    exact hle
  · rw [if_neg hc, Nat.add_zero]
    cases hold : b.piece? c with
    | some s' =>
      rw [piece?_of_push_of_some hpieces hold, Option.some.injEq] at hs
      exact hs ▸ hroom c s' hold
    | none =>
      rw [aboard_eq_nil hb hold]
      exact Nat.zero_le _

/-- A new piece in its element, with room for it where it comes aboard. -/
theorem Berthed.push (hb : b.Berthed inRange) (hsound : b'.Sound) (hground : b.SameGround b')
    (hplace : b.InElement x)
    (hfits : ∀ c, x.carrier = some c → ∃ s, b.piece? c = some s ∧
      Table.cargoCost b (b.aboard c) + (b.kind x.kind).transportCost ≤
        (b.kind s.kind).transportCapacity) : b'.Berthed inRange := by
  refine ⟨hb.toPlaced.step hsound hground ?_, ?_⟩
  · intro w q hq
    rcases of_piece?_of_push hpieces hq with rfl | hq
    · exact hplace
    · exact hb.place w q hq
  · intro hrange
    exact hb.sound.room_push hpieces hid hground (hb.room hrange) hfits

end Push

/-- A new piece is placed in its element and aboard nothing. -/
theorem Berthed.addPiece (hb : b.Berthed inRange) (k : KindId) (p : PlayerId) {t : TerritoryId}
    (ht : t < b.atlas.size) (hship : (b.kind k).isSea = true → b.atlas.isWater t = true)
    (hland : (b.kind k).isLand = true → b.atlas.isWater t = false) :
    (b.addPiece k p t).Berthed inRange := by
  refine hb.push rfl rfl (hb.sound.addPiece k p ht) (.of_eq rfl rfl rfl rfl) ⟨hship, ?_⟩ ?_
  · intro hk
    simp [hland hk]
  · intro c hc
    cases hc

end Board

namespace Table

open Board

variable {h h' : Table} {b : Board} {p : PlayerId} {u : PieceId} {o : Order} {route : Route}
  {inRange : Prop}

/-! ## Moving -/

theorem berthed_arrive (hb : b.Berthed inRange) (landArrived : Bool) (t : TerritoryId) :
    (arrive p landArrived b t).Berthed inRange := by
  have heffect := effect_arrive (p := p) hb.sound [] landArrived t
  exact hb.of_pieces heffect.sound heffect.after.toSameGround
    (remarked_arrive p landArrived b t).pieces

theorem berthed_passThrough (hb : b.Berthed inRange) (t : TerritoryId) :
    (passThrough p b t).Berthed inRange := by
  unfold passThrough
  split
  · exact berthed_arrive hb true t
  · exact hb

/-- The last step of a legal route lies in the element of the piece. -/
theorem inElement_of_checkStep {a : Asset} {t : TerritoryId}
    (hstep : h.checkStep p a t true = .ok ()) :
    (a.kind.isSea = true → h.board.atlas.isWater t = true) ∧
      (a.kind.isLand = true → h.board.atlas.isWater t = false) := by
  unfold checkStep at hstep
  -- what a step is checked for depends on the domain alone
  cases hdomain : a.kind.domain with
  | land =>
    simp only [hdomain] at hstep
    rw [ite_error_eq_ok, Bool.not_eq_true, Bool.not_eq_false'] at hstep
    have hheld := hstep.1
    unfold isHeldLand at hheld
    rw [Bool.and_eq_true] at hheld
    constructor
    · intro hsea
      simp [PieceKind.isSea, hdomain] at hsea
    · intro _
      exact Territory.dry_of_isPassableLand hheld.1
  | sea =>
    simp only [hdomain] at hstep
    rw [ite_error_eq_ok, Bool.not_eq_true, Bool.not_eq_false'] at hstep
    constructor
    · intro _
      exact hstep.1
    · intro hland
      simp [PieceKind.isLand, hdomain] at hland
  | air =>
    constructor
    · intro hsea
      simp [PieceKind.isSea, hdomain] at hsea
    · intro hland
      simp [PieceKind.isLand, hdomain] at hland

/-- A piece that may go to the end of a route by itself. -/
def MayGo (route : Route) (u : PieceId) (b : Board) : Prop :=
  ∃ q, b.piece? u = some q ∧ q.carrier = none ∧ route.dest < b.atlas.size ∧
    b.InElement { q with territory := route.dest }

/-- What the table lets go ends its way in its element. -/
theorem mayGo_of_checkMover (hb : h.board.Berthed inRange)
    (hwalk : route.territories.IsChain (h.board.atlas.isAdjacent · · = true))
    (hcheck : h.checkMover p route u = .ok ()) : MayGo route u h.board := by
  obtain ⟨a, ha, -, hstart, -, hnone, hsteps⟩ := checkMover_ok_iff.1 hcheck
  obtain ⟨hq, hkind⟩ := asset?_eq_some.1 ha
  have hstart' : route.start < h.board.atlas.size := hstart ▸ hb.sound.territory_lt u _ hq
  refine ⟨a.piece, hq, hnone, lt_size_dest hb.sound hwalk hstart', ?_⟩
  cases hlast : route.steps.getLast? with
  | none =>
    -- a route without steps ends where it starts
    have hdest : route.dest = a.piece.territory := by
      rw [Route.dest, List.getLastD_eq_getLast?, hlast, hstart]
      rfl
    rw [hdest]
    exact hb.place u _ hq
  | some t =>
    have hdest : route.dest = t := by
      rw [Route.dest, List.getLastD_eq_getLast?, hlast]
      rfl
    obtain ⟨hship, hland⟩ := inElement_of_checkStep ((checkSteps_ok_iff.1 hsteps).2 t hlast)
    rw [hkind] at hship hland
    rw [hdest]
    refine ⟨hship, ?_⟩
    intro hk
    simp [hland hk, hnone]

/-- That one piece goes does not keep another from going. -/
theorem MayGo.relocate {w : PieceId} (hb : b.Sound) (hu : MayGo route u b)
    (hw : MayGo route w b) : MayGo route w (b.relocate u route) := by
  obtain ⟨q, hq, -⟩ := hu
  obtain ⟨x, hx, hnone, hdest, hfits⟩ := hw
  obtain ⟨x', hx'⟩ := Sound.exists_piece?_relocate (u := u) hx route
  obtain ⟨x₀, hx₀, -, hkind, -, hcarrier, -⟩ := hb.of_piece?_relocate hq route hx'
  rw [hx, Option.some.injEq] at hx₀
  subst hx₀
  refine ⟨x', hx', hcarrier.trans hnone, ?_, ?_⟩
  · rw [atlas_relocate]
    exact hdest
  · exact hfits.congr (sameGround_relocate b u route) hkind rfl hcarrier

/-- The pieces of a move go one after another. -/
theorem berthed_moveAlong (hb : b.Berthed inRange) (hgo : ∀ u ∈ o.pieces, MayGo o.route u b) :
    (moveAlong b p o).Berthed inRange := by
  have hmoved : (o.pieces.foldl (fun b u => b.relocate u o.route) b).Berthed inRange := by
    refine foldl_keeps (Q := Berthed inRange) (P := MayGo o.route) ?_ ?_ hb hgo
    · intro u _ b hb hu
      obtain ⟨q, hq, hnone, hdest, hfits⟩ := hu
      exact hb.relocate hq hnone hdest hfits
    · intro u w b hb hu hw
      exact hu.relocate hb.sound hw
  unfold moveAlong
  set moved := o.pieces.foldl (fun b u => b.relocate u o.route) b
  have hpassed : (if (o.pieces.filterMap b.asset?).any (·.kind.isLand) then
      o.route.between.foldl (passThrough p) moved else moved).Berthed inRange := by
    split
    · refine foldl_keeps (Q := Berthed inRange) (P := fun _ _ => True) ?_
        (fun _ _ _ _ _ _ => trivial) hmoved fun _ _ => trivial
      intro t _ b hb _
      exact berthed_passThrough hb t
    · exact hmoved
  split
  · exact hpassed
  · exact berthed_arrive hpassed _ _

/-! ## Loading -/

theorem placed_embark (hb : b.Placed) {transport : PieceId}
    (hu : Boards p transport route.dest u b) : (embark transport route b u).Placed := by
  have heffect := effect_embark hb.sound hu
  obtain ⟨q, hq, -, hland, -⟩ := hu.passenger
  obtain ⟨s, hs, -, hroom, hplace⟩ := hu.transport
  have hwater : b.atlas.isWater route.dest = true := by
    rw [← hplace]
    exact (hb.place transport s hs).ship (hb.ships s.kind hroom)
  refine hb.step heffect.sound heffect.after.toSameGround ?_
  intro w x' hx'
  obtain ⟨x, hx, hkind, -, hcarrier, hterr⟩ := of_piece?_embark hb.sound hq transport route hx'
  by_cases hwu : w = u
  · subst hwu
    rw [if_pos (.inl rfl)] at hterr
    rw [if_pos rfl] at hcarrier
    constructor
    · intro _
      rw [hterr]
      exact hwater
    · intro _
      rw [hterr, hcarrier]
      simp [hwater]
  · -- nothing is aboard a passenger, so all others stay where they are
    have hcne := hb.carrier_ne hq hland hx
    rw [if_neg hwu] at hcarrier
    rw [if_neg (by simp [hwu, hcne])] at hterr
    exact (hb.place w x hx).congr (.refl b) hkind hterr hcarrier

/-- What is aboard a ship takes up what its room is counted by. -/
theorem cargoCost_aboard (hb : b.Sound) {c : PieceId} {s : Piece}
    (hs : b.piece? c = some s) (hsea : (b.kind s.kind).isSea = true) :
    cargoCost b (b.aboard c) = cargoCost b (b.cargoOf c) := by
  apply Nat.le_antisymm
  · refine cargoCost_aboard_le hb ?_
    intro w x hx hc
    exact (hb.mem_cargoOf hs hsea).2 ⟨x, hx, hc⟩
  · refine cargoCost_le b (hb.nodup_cargoOf hs hsea) ?_
    intro w hw
    exact hb.mem_aboard.2 ((hb.mem_cargoOf hs hsea).1 hw)

/-- What a ship carries and what goes aboard have room together if there is room for the latter. -/
theorem room_of_freeCapacity (hb : b.Sound) {c : PieceId} {s : Piece}
    (hs : b.piece? c = some s) (hsea : (b.kind s.kind).isSea = true)
    (hroom : cargoCost b (b.aboard c) ≤ (b.kind s.kind).transportCapacity) {cost : Nat}
    (hfits : cost ≤ b.freeCapacity c) :
    cargoCost b (b.aboard c) + cost ≤ (b.kind s.kind).transportCapacity := by
  have hasset : b.asset? c = some ⟨s, b.kind s.kind⟩ := asset?_eq_some.2 ⟨hs, rfl⟩
  have hfree : b.freeCapacity c =
      (b.kind s.kind).transportCapacity - wrap (cargoCost b (b.cargoOf c)) := freeCapacity_eq hasset
  -- what fits in a word of room is counted right
  have hword := (b.kind s.kind).transportCapacity_lt
  rw [← cargoCost_aboard hb hs hsea, wrap_of_lt (by omega)] at hfree
  omega

/-- A party that was counted right fits. -/
theorem berthed_load {transport : PieceId} (hb : h.board.Berthed inRange)
    (hcheck : h.checkLoad p o transport = .ok ()) :
    (o.pieces.foldl (embark transport o.route) h.board).Berthed
      (inRange ∧ cargoCost h.board o.pieces < UInt32.size) := by
  have hboards := boards_of_checkLoad hcheck
  have heffect := effect_foldl_embark hb.sound hboards
  have hplaced : (o.pieces.foldl (embark transport o.route) h.board).Placed := by
    refine foldl_keeps (Q := Placed) (P := Boards p transport o.route.dest) ?_ ?_ hb.toPlaced
      hboards
    · intro u _ b hb hu
      exact placed_embark hb hu
    · intro u w b hb hu hw
      exact hu.embark hb.sound hw
  refine ⟨hplaced, ?_⟩
  rintro ⟨hrange, hcounted⟩ c s' hs'
  obtain ⟨s, hs, hkind, -⟩ := heffect.after.piece c s' hs'
  -- what is then aboard was aboard, or has come aboard if this is the transport
  have hsub : ∀ w x', (o.pieces.foldl (embark transport o.route) h.board).piece? w = some x' →
      x'.carrier = some c → w ∈ h.board.aboard c ++ if transport = c then o.pieces else [] := by
    intro w x' hx' hc
    obtain ⟨x, hx, hcarrier⟩ := of_piece?_foldl_embark hb.sound hboards hx'
    rw [hc] at hcarrier
    rw [List.mem_append]
    by_cases hin : w ∈ o.pieces
    · rw [if_pos hin, Option.some.injEq] at hcarrier
      rw [if_pos hcarrier.symm]
      exact .inr hin
    · rw [if_neg hin] at hcarrier
      exact .inl (hb.sound.mem_aboard.2 ⟨x, hx, hcarrier.symm⟩)
  have hle := cargoCost_aboard_le heffect.sound hsub
  rw [heffect.after.cargoCost, heffect.after.cargoCost, cargoCost_append] at hle
  rw [heffect.after.cargoCost, heffect.after.kind, hkind]
  refine hle.trans ?_
  by_cases hc : transport = c
  · obtain ⟨a, ha, -, hroom, -, -, -, hfits⟩ := checkLoad_ok_iff.1 hcheck
    obtain ⟨hpiece, hakind⟩ := asset?_eq_some.1 ha
    subst hc
    rw [hs, Option.some.injEq] at hpiece
    rw [hakind, ← hpiece] at hroom
    have hsea := hb.ships s.kind (Nat.pos_of_ne_zero hroom)
    rw [wrap_of_lt hcounted] at hfits
    rw [if_pos rfl]
    exact room_of_freeCapacity hb.sound hs hsea (hb.room hrange transport s hs) hfits
  · rw [if_neg hc]
    exact hb.room hrange c s hs

/-! ## Unloading -/

/-- A land piece that goes ashore from a ship. -/
def MayDisembark (p : PlayerId) (ashore : Route) (u : PieceId) (b : Board) : Prop :=
  MayLand p u b ∧ (∃ q, b.piece? u = some q ∧ (b.kind q.kind).isLand = true) ∧
    ashore.dest < b.atlas.size ∧ b.atlas.isWater ashore.dest = false

/-- Going ashore leaves room behind. -/
theorem berthed_disembark (hb : b.Berthed inRange) {ashore : Route}
    (hu : MayDisembark p ashore u b) : (disembark ashore b u).Berthed inRange := by
  obtain ⟨hmay, ⟨q, hq, hland⟩, hdest, hdry⟩ := hu
  have heffect := effect_disembark hb.sound hdest hmay
  have hplaced : (disembark ashore b u).Placed := by
    refine hb.toPlaced.step heffect.sound heffect.after.toSameGround ?_
    intro w x' hx'
    obtain ⟨x, hx, hkind, -, hcarrier, hterr⟩ := of_piece?_disembark hb.sound hmay ashore hx'
    by_cases hwu : w = u
    · subst hwu
      rw [if_pos (.inl rfl)] at hterr
      rw [if_pos rfl] at hcarrier
      rw [hx, Option.some.injEq] at hq
      subst hq
      constructor
      · intro hsea
        rw [hkind] at hsea
        exact absurd hland (PieceKind.not_isLand_of_isSea hsea)
      · intro _
        rw [hterr, hcarrier]
        simp [hdry]
    · -- nothing is aboard what goes ashore
      have hcne := hb.toPlaced.carrier_ne hq hland hx
      rw [if_neg hwu] at hcarrier
      rw [if_neg (by simp [hwu, hcne])] at hterr
      exact (hb.place w x hx).congr (.refl b) hkind hterr hcarrier
  refine hb.step hplaced heffect.after.toSameGround ?_ ?_
  · intro w x hx
    obtain ⟨x', hx', hkind, -⟩ := heffect.after.piece_to hx
    exact ⟨x', hx', hkind⟩
  · intro w x' hx' c hc
    obtain ⟨x, hx, -, -, hcarrier, -⟩ := of_piece?_disembark hb.sound hmay ashore hx'
    rw [hc] at hcarrier
    by_cases hwu : w = u
    · rw [if_pos hwu] at hcarrier
      cases hcarrier
    · rw [if_neg hwu] at hcarrier
      exact ⟨x, hx, hcarrier.symm⟩

/-- That one piece lands does not keep another from landing. -/
theorem MayDisembark.disembark (hb : b.Sound) {ashore : Route} {w : PieceId}
    (hu : MayDisembark p ashore u b) (hw : MayDisembark p ashore w b) :
    MayDisembark p ashore w (disembark ashore b u) := by
  have heffect := effect_disembark hb hu.2.2.1 hu.1
  obtain ⟨hmay, ⟨x, hx, hland⟩, hdest, hdry⟩ := hw
  obtain ⟨x', hx', hkind, -⟩ := heffect.after.piece_to hx
  refine ⟨MayLand.disembark hb hu.2.2.1 hu.1 hmay, ⟨x', hx', ?_⟩, ?_, ?_⟩
  · rw [heffect.after.kind, hkind]
    exact hland
  · rw [heffect.after.size]
    exact hdest
  · rw [heffect.after.isWater]
    exact hdry

/-- A ship that may sail over water and land its cargo on land. -/
structure MayUnload (p : PlayerId) (route : Route) (u : PieceId) (b : Board) : Prop where
  sails : MaySail p route u b
  water : b.atlas.isWater (seaLeg route).dest = true
  dry : b.atlas.isWater route.dest = false

theorem MayUnload.after {b' : Board} (h : MayUnload p route u b) (hafter : After p b b') :
    MayUnload p route u b' := by
  refine ⟨h.sails.after hafter, ?_, ?_⟩
  · rw [hafter.isWater]
    exact h.water
  · rw [hafter.isWater]
    exact h.dry

/-- The ship sails first, and then its cargo goes ashore piece by piece. -/
theorem berthed_land (hb : b.Berthed inRange) (hu : MayUnload p route u b) :
    (land route b u).Berthed inRange := by
  obtain ⟨q, hq, howner, hsea⟩ := hu.sails.ship
  have hnone := hb.sound.carrier_eq_none hq (PieceKind.isLand_eq_false_of_isSea hsea)
  have hfits : b.InElement { q with territory := (seaLeg route).dest } := by
    refine ⟨fun _ => hu.water, ?_⟩
    intro hland
    exact absurd hland (PieceKind.not_isLand_of_isSea hsea)
  have hsailed := hb.relocate hq hnone hu.sails.sea hfits
  have hafter := (hb.sound.effect_relocate hq howner hu.sails.sea (.inl hnone)).after
  obtain ⟨q', hq', hkind, howner'⟩ := hafter.piece_to hq
  have hsea' : ((b.relocate u (seaLeg route)).kind q'.kind).isSea = true := by
    rw [hafter.kind, hkind]
    exact hsea
  unfold land
  refine foldl_keeps (Q := Berthed inRange)
    (P := MayDisembark p (.step (seaLeg route).dest route.dest)) ?_ ?_ hsailed ?_
  · intro c _ b hb hc
    exact berthed_disembark hb hc
  · intro c w b hb hc hw
    exact hc.disembark hb.sound hw
  · intro c hc
    obtain ⟨x, hx, hcarrier⟩ := (hsailed.sound.mem_cargoOf hq' hsea').1 hc
    obtain ⟨s, hs, hcarries⟩ := hsailed.sound.cargo c x u hx hcarrier
    rw [hq', Option.some.injEq] at hs
    subst hs
    refine ⟨⟨x, hx, ?_, ?_⟩, ⟨x, hx, hcarries.land⟩, ?_, ?_⟩
    · rw [← hcarries.owner, howner', howner]
    · -- the place of what is aboard a ship is certain
      intro c' s' hc' hs'
      rw [hcarrier, Option.some.injEq] at hc'
      rw [← hc', hq', Option.some.injEq] at hs'
      exact hs' ▸ hsea'
    · rw [atlas_relocate]
      exact hu.sails.shore
    · rw [atlas_relocate]
      exact hu.dry

/-- A legal order to unload names ships that may do so. -/
theorem mayUnload_of_checkLander (hb : h.board.Berthed inRange)
    (hwalk : route.territories.IsChain (h.board.atlas.isAdjacent · · = true))
    (hcheck : h.checkLander p route u = .ok ()) : MayUnload p route u h.board := by
  obtain ⟨a, ha, howner, hship, -, hstart, -, hsea, hheld⟩ := checkLander_ok_iff.1 hcheck
  obtain ⟨hq, hkind⟩ := asset?_eq_some.1 ha
  rw [PieceKind.carriesCargo_iff, hkind] at hship
  have hstart' : route.start < h.board.atlas.size := hstart ▸ hb.sound.territory_lt u _ hq
  constructor
  · exact ⟨⟨a.piece, hq, howner, hship.1⟩, lt_size_dest hb.sound (walk_seaLeg hwalk) hstart',
      lt_size_dest hb.sound hwalk hstart'⟩
  · cases hemp : (seaLeg route).isEmpty with
    | true =>
      -- a ship that does not sail is at sea already
      have hstay : (seaLeg route).dest = a.piece.territory := by
        rw [Route.dest, Route.isEmpty_iff.1 hemp, hstart]
        rfl
      rw [hstay]
      exact (hb.place u _ hq).ship hship.1
    | false => exact (hsea _ (Route.dest_mem_steps hemp)).1
  · unfold isHeldLand at hheld
    rw [Bool.and_eq_true] at hheld
    exact Territory.dry_of_isPassableLand hheld.1

/-! ## Commands -/

theorem submitMove_berthed (hb : h.board.Berthed inRange) (htaken : h.submitMove p o = .ok h') :
    h'.board.Berthed (inRange ∧ AreWords (h.sums (.move p o))) := by
  obtain ⟨-, hwalk, hcheck, rfl⟩ := submitMove_ok_iff.1 htaken
  show (carryOut h.board p o).Berthed _
  unfold checkAction at hcheck
  unfold carryOut
  cases haction : o.action with
  | move =>
    simp only [haction] at hcheck
    have hall := (checkMove_ok_iff.1 hcheck).1
    exact (berthed_moveAlong hb fun u hu => mayGo_of_checkMover hb hwalk (hall u hu)).mono And.left
  | load transport =>
    simp only [haction] at hcheck
    refine (berthed_load hb hcheck).mono ?_
    -- a load is the only order that is charged for
    rintro ⟨hrange, hwords⟩
    simp only [sums, haction, areWords_cons] at hwords
    exact ⟨hrange, hwords.1⟩
  | unload =>
    simp only [haction] at hcheck
    obtain ⟨-, hall, -⟩ := checkUnload_ok_iff.1 hcheck
    -- each ship unloads by itself, and then the shore is taken
    have hlanded : (o.pieces.foldl (land o.route) h.board).Berthed inRange := by
      refine foldl_keeps (Q := Berthed inRange) (P := MayUnload p o.route) ?_ ?_ hb
        fun u hu => mayUnload_of_checkLander hb hwalk (hall u hu)
      · intro u _ b hb hu
        exact berthed_land hb hu
      · intro u w b hb hu hw
        exact hw.after (effect_land hb.sound hu.sails).after
    exact (berthed_arrive hlanded true o.route.dest).mono And.left

theorem submitPurchase_berthed {bought : Tally} (hb : h.board.Berthed inRange)
    (htaken : h.submitPurchase p bought = .ok h') : h'.board.Berthed inRange := by
  have hkeeps := submitPurchase_keeps hb.sound htaken
  obtain ⟨-, -, rfl⟩ := submitPurchase_ok_iff.1 htaken
  exact hb.of_pieces hkeeps.1 hkeeps.2 rfl

/-- Pieces that are placed are placed in their element. -/
theorem submitPlacement_berthed {placement : Placement} (hb : h.board.Berthed inRange)
    (htaken : h.submitPlacement p placement = .ok h') : h'.board.Berthed inRange := by
  obtain ⟨hwanted, factory, hcharged, -, rfl⟩ := submitPlacement_ok_iff.1 htaken
  refine foldl_keeps (Q := Berthed inRange) (P := fun k b => placement.territory < b.atlas.size ∧
    (b.kind k).isSea = b.atlas.isWater placement.territory) ?_ ?_ hb ?_
  · intro k _ b hb hk
    refine hb.addPiece k p hk.1 (fun hsea => hk.2 ▸ hsea) ?_
    intro hland
    rw [← hk.2]
    cases hsea : (b.kind k).isSea with
    | false => rfl
    | true =>
      exact absurd hland (PieceKind.not_isLand_of_isSea hsea)
  · intro k j b _ _ hj
    exact hj
  · intro k hk
    have hcheck := hwanted _ (Tally.mem_entries_ofKinds hk)
    exact ⟨lt_size_of_chargedFactory? hcharged, (checkWanted_ok_iff.1 hcheck).2.2⟩

/-- The end of a turn moves nothing. -/
theorem endTurn_berthed (hb : h.board.Berthed inRange) (p : PlayerId) :
    (h.endTurn p).board.Berthed inRange := by
  have hkeeps := endTurn_keeps p hb.sound
  exact hb.of_samePost hkeeps.1 hkeeps.2 (size_endTurn h p) fun _ _ => of_piece?_endTurn

/-- One command keeps every piece in its element, and the room aboard as long as none of its sums
wraps around. -/
theorem obey_berthed (hb : h.board.Berthed inRange) (c : Command) :
    (h.obey c).board.Berthed (inRange ∧ h.overflows c = false) := by
  unfold obey
  cases htaken : h.answer c with
  | error e => exact hb.mono And.left
  | ok h' =>
    have hwords := areWords_of_not_overflows htaken
    cases c with
    | move p o => exact (submitMove_berthed hb htaken).mono fun hboth => ⟨hboth.1, hwords hboth.2⟩
    | purchase p bought => exact (submitPurchase_berthed hb htaken).mono And.left
    | placement p placement => exact (submitPlacement_berthed hb htaken).mono And.left
    | beginEpoch p e =>
      cases htaken
      exact hb.mono And.left
    | endTurn p =>
      cases htaken
      exact (endTurn_berthed hb p).mono And.left

/-- A whole game keeps every piece in its element, and the room aboard if it is in range. -/
theorem play_berthed (hb : h.board.Berthed inRange) (commands : List Command) :
    (h.play commands).board.Berthed (inRange ∧ h.isInRange commands = true) := by
  unfold play
  induction commands generalizing h inRange with
  | nil => exact hb.mono And.left
  | cons c rest ih =>
    refine (ih (obey_berthed hb c)).mono ?_
    rintro ⟨hrange, hall⟩
    exact and_assoc.2 ⟨hrange, isInRange_cons.1 hall⟩

end Table

end Conquest
