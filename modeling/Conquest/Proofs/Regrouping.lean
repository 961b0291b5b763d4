import Conquest.Proofs.Checks
import Conquest.Proofs.Ground

/-!
# The two halves of an order

An order that is taken first moves pieces and then marks the map: moving changes the pieces and the
garrisons alone, and marking changes the owners of land and the marks of the turn alone. So what
neither half touches is left alone by every order.

* `Board.Regrouped`, `Board.Remarked`: what the two halves may change.
* `Table.regroup`: the first half; `Table.regrouped_regroup`, `Table.remarked_carryOut`: every order
  is carried out in these two halves.
-/

namespace Conquest

namespace Board

variable {b b' b'' : Board}

/-! ## Moving pieces -/

/-- Two boards that differ in the pieces and the garrisons alone. -/
def Regrouped (b b' : Board) : Prop :=
  ∃ pieces garrisons, b' = { b with pieces := pieces, garrisons := garrisons }

namespace Regrouped

theorem refl (b : Board) : b.Regrouped b := ⟨b.pieces, b.garrisons, rfl⟩

theorem trans (h : b.Regrouped b') (h' : b'.Regrouped b'') : b.Regrouped b'' := by
  obtain ⟨_, _, rfl⟩ := h
  obtain ⟨pieces, garrisons, rfl⟩ := h'
  exact ⟨pieces, garrisons, rfl⟩

theorem foldl {α : Type} {f : Board → α → Board} (hf : ∀ (b : Board) x, b.Regrouped (f b x))
    (xs : List α) (b : Board) : b.Regrouped (xs.foldl f b) := by
  induction xs generalizing b with
  | nil => exact refl b
  | cons x rest ih => exact (hf b x).trans (ih (f b x))

/-- A move over the map is a regrouping. -/
theorem relocate (b : Board) (u : PieceId) (route : Route) :
    b.Regrouped (b.relocate u route) := by
  obtain ⟨pieces, garrisons, heq, -⟩ := relocate_frame b u route
  exact ⟨pieces, garrisons, heq⟩

theorem modifyPiece (b : Board) (u : PieceId) (f : Piece → Piece) :
    b.Regrouped (b.modifyPiece u f) :=
  ⟨_, b.garrisons, rfl⟩

theorem addPiece (b : Board) (k : KindId) (p : PlayerId) (t : TerritoryId) :
    b.Regrouped (b.addPiece k p t) :=
  ⟨_, _, rfl⟩

theorem atlas (h : b.Regrouped b') : b'.atlas = b.atlas := by
  obtain ⟨_, _, rfl⟩ := h
  rfl

theorem players (h : b.Regrouped b') : b'.players = b.players := by
  obtain ⟨_, _, rfl⟩ := h
  rfl

theorem budgets (h : b.Regrouped b') : b'.budgets = b.budgets := by
  obtain ⟨_, _, rfl⟩ := h
  rfl

theorem territory (h : b.Regrouped b') (t : TerritoryId) : b'.territory t = b.territory t := by
  obtain ⟨_, _, rfl⟩ := h
  rfl

theorem isConquered (h : b.Regrouped b') (t : TerritoryId) :
    b'.isConquered t = b.isConquered t := by
  obtain ⟨_, _, rfl⟩ := h
  rfl

theorem hasBattle (h : b.Regrouped b') (t : TerritoryId) : b'.hasBattle t = b.hasBattle t := by
  obtain ⟨_, _, rfl⟩ := h
  rfl

/-- Whose land a territory is does not depend on where pieces are. -/
theorem isEnemyLand (h : b.Regrouped b') (t : TerritoryId) (p : PlayerId) :
    b'.isEnemyLand t p = b.isEnemyLand t p := by
  obtain ⟨_, _, rfl⟩ := h
  rfl

end Regrouped

/-! ## Marking the map -/

/-- Two boards that differ in the owners of land and the marks of the turn alone. -/
structure Remarked (b b' : Board) : Prop extends SameGround b b' where
  pieces : b'.pieces = b.pieces
  garrisons : b'.garrisons = b.garrisons
  budgets : b'.budgets = b.budgets
  conquered_size : b'.conquered.size = b.conquered.size
  battles_size : b'.battles.size = b.battles.size

namespace Remarked

theorem refl (b : Board) : b.Remarked b := ⟨.refl b, rfl, rfl, rfl, rfl, rfl⟩

theorem trans (h : b.Remarked b') (h' : b'.Remarked b'') : b.Remarked b'' :=
  ⟨h.toSameGround.trans h'.toSameGround, h'.pieces.trans h.pieces,
    h'.garrisons.trans h.garrisons, h'.budgets.trans h.budgets,
    h'.conquered_size.trans h.conquered_size, h'.battles_size.trans h.battles_size⟩

theorem foldl {α : Type} {f : Board → α → Board} (hf : ∀ (b : Board) x, b.Remarked (f b x))
    (xs : List α) (b : Board) : b.Remarked (xs.foldl f b) := by
  induction xs generalizing b with
  | nil => exact refl b
  | cons x rest ih => exact (hf b x).trans (ih (f b x))

theorem piece? (h : b.Remarked b') (u : PieceId) : b'.piece? u = b.piece? u := by
  rw [Board.piece?, h.pieces, Board.piece?]

theorem garrison (h : b.Remarked b') (t : TerritoryId) : b'.garrison t = b.garrison t := by
  rw [Board.garrison, h.garrisons, Board.garrison]

theorem asset? (h : b.Remarked b') (u : PieceId) : b'.asset? u = b.asset? u := by
  unfold Board.asset?
  rw [h.piece?]
  simp only [h.kind]

/-- Nobody has come or gone. -/
theorem hasEnemyForce (h : b.Remarked b') (t : TerritoryId) (p : PlayerId) :
    b'.hasEnemyForce t p = b.hasEnemyForce t p := by
  unfold Board.hasEnemyForce assetsIn
  rw [h.garrison, funext h.asset?]
  simp only [h.isEnemy]

end Remarked

end Board

namespace Table

open Board

variable {p : PlayerId}

/-! ## Orders -/

theorem regrouped_embark (transport : PieceId) (route : Route) (b : Board) (u : PieceId) :
    b.Regrouped (embark transport route b u) :=
  (Regrouped.relocate b u route).trans (.modifyPiece _ u _)

theorem regrouped_disembark (ashore : Route) (b : Board) (u : PieceId) :
    b.Regrouped (disembark ashore b u) :=
  ((Regrouped.modifyPiece b u _).trans (.relocate _ u ashore)).trans (.modifyPiece _ u _)

theorem regrouped_land (route : Route) (b : Board) (u : PieceId) :
    b.Regrouped (land route b u) :=
  (Regrouped.relocate b u (seaLeg route)).trans (.foldl (regrouped_disembark _) _ _)

/-- The board after the pieces of an order have gone where they go, before anything is marked. -/
def regroup (b : Board) (o : Order) : Board :=
  match o.action with
  | .move => o.pieces.foldl (fun b u => b.relocate u o.route) b
  | .load transport => o.pieces.foldl (embark transport o.route) b
  | .unload => o.pieces.foldl (land o.route) b

/-- Nothing is marked while pieces go. -/
theorem regrouped_regroup (b : Board) (o : Order) : b.Regrouped (regroup b o) := by
  unfold regroup
  cases o.action with
  | move => exact .foldl (fun b u => .relocate b u o.route) o.pieces b
  | load transport => exact .foldl (regrouped_embark transport o.route) o.pieces b
  | unload => exact .foldl (regrouped_land o.route) o.pieces b

/-- The map after land has been captured. -/
theorem territory_capture (b : Board) (t x : TerritoryId) (p : PlayerId) :
    ((b.modifyTerritory t fun land => { land with owner := some p }).setConquered t
      true).territory x =
      if t = x ∧ x < b.atlas.size then { b.territory x with owner := some p }
      else b.territory x := by
  show (b.atlas.modify t _).territory x = _
  unfold Atlas.modify Atlas.territory
  simp only [Array.getD_eq_getD_getElem?, Array.getElem?_modify]
  by_cases hlt : x < b.atlas.size
  · have hget := Atlas.getElem?_territories hlt
    -- outside the map there is nothing to capture
    by_cases htx : t = x
    · simp [htx, hlt, hget, territory]
    · simp [htx, hget, territory]
  · have hget : b.atlas.territories[x]? = none := by
      simpa [Atlas.size] using hlt
    have hdefault : b.territory x = default := Atlas.territory_of_le (Nat.le_of_not_lt hlt)
    by_cases htx : t = x
    · simp [htx, hlt, hget, hdefault]
    · simp [htx, hget, hdefault]

theorem remarked_setBattle (b : Board) (t : TerritoryId) (flag : Bool) :
    b.Remarked (b.setBattle t flag) :=
  ⟨.of_eq rfl rfl rfl rfl, rfl, rfl, rfl, rfl, by simp [setBattle]⟩

/-- A capture changes the owner and the marks, and no piece. -/
theorem remarked_capture (b : Board) (t : TerritoryId) (p : PlayerId) :
    b.Remarked ((b.modifyTerritory t fun land => { land with owner := some p }).setConquered t
      true) := by
  refine ⟨⟨rfl, rfl, rfl, rfl, ?_, ?_⟩, rfl, rfl, rfl, ?_, rfl⟩
  · simp [setConquered, modifyTerritory, Atlas.modify, Atlas.size]
  · intro x
    rw [territory_capture]
    split
    · rfl
    · rfl
  · simp [setConquered, modifyTerritory]

/-- An arrival moves no piece: it captures or marks a battle. -/
theorem remarked_arrive (p : PlayerId) (landArrived : Bool) (b : Board) (t : TerritoryId) :
    b.Remarked (arrive p landArrived b t) := by
  unfold arrive
  split
  · exact remarked_setBattle b t true
  · split
    · exact remarked_capture b t p
    · exact .refl b

/-- Passing through moves no piece. -/
theorem remarked_passThrough (p : PlayerId) (b : Board) (t : TerritoryId) :
    b.Remarked (passThrough p b t) := by
  unfold passThrough
  split
  · exact remarked_arrive p true b t
  · exact .refl b

/-- Whether a land piece is among those that an order names. -/
def bringsLand (b : Board) (o : Order) : Bool :=
  (o.pieces.filterMap b.asset?).any (·.kind.isLand)

/-- An order brings land pieces when one of its pieces is of a land kind. -/
theorem bringsLand_iff {b : Board} {o : Order} :
    bringsLand b o = true ↔ ∃ u ∈ o.pieces, ∃ a, b.asset? u = some a ∧ a.kind.isLand = true := by
  unfold bringsLand
  rw [List.any_eq_true]
  constructor
  · rintro ⟨a, ha, hland⟩
    obtain ⟨u, hu, hasset⟩ := List.mem_filterMap.1 ha
    exact ⟨u, hu, a, hasset, hland⟩
  · rintro ⟨u, hu, a, hasset, hland⟩
    exact ⟨a, List.mem_filterMap.2 ⟨u, hu, hasset⟩, hland⟩

/-- Land pieces that march along a route capture what they pass through. -/
def sweep (p : PlayerId) (landArrived : Bool) (route : Route) (b : Board) : Board :=
  if landArrived then route.between.foldl (passThrough p) b else b

theorem remarked_sweep (p : PlayerId) (landArrived : Bool) (route : Route) (b : Board) :
    b.Remarked (sweep p landArrived route b) := by
  unfold sweep
  split
  · exact .foldl (remarked_passThrough p) _ b
  · exact .refl b

/-- What an order to move marks after all pieces have gone. -/
def occupy (p : PlayerId) (landArrived : Bool) (route : Route) (b : Board) : Board :=
  if route.isEmpty then sweep p landArrived route b
  else arrive p landArrived (sweep p landArrived route b) route.dest

theorem remarked_occupy (p : PlayerId) (landArrived : Bool) (route : Route) (b : Board) :
    b.Remarked (occupy p landArrived route b) := by
  unfold occupy
  split
  · exact remarked_sweep p landArrived route b
  · exact (remarked_sweep p landArrived route b).trans (remarked_arrive p landArrived _ _)

/-- A plain move first relocates its pieces; what follows only changes marks. -/
theorem remarked_moveAlong (b : Board) (p : PlayerId) (o : Order) :
    (o.pieces.foldl (fun b u => b.relocate u o.route) b).Remarked (moveAlong b p o) :=
  remarked_occupy p (bringsLand b o) o.route _

/-- A move regroups and then occupies what it passes and reaches. -/
theorem carryOut_move {b : Board} {o : Order} (haction : o.action = .move) :
    carryOut b p o = occupy p (bringsLand b o) o.route (regroup b o) := by
  unfold carryOut regroup
  rw [haction]
  rfl

/-- Loading only regroups. -/
theorem carryOut_load {b : Board} {o : Order} {transport : PieceId}
    (haction : o.action = .load transport) : carryOut b p o = regroup b o := by
  unfold carryOut regroup
  rw [haction]

/-- An unload regroups and arrives with land pieces at the shore. -/
theorem carryOut_unload {b : Board} {o : Order} (haction : o.action = .unload) :
    carryOut b p o = arrive p true (regroup b o) o.route.dest := by
  unfold carryOut regroup
  rw [haction]

/-- Nothing goes anywhere while the map is marked. -/
theorem remarked_carryOut (b : Board) (p : PlayerId) (o : Order) :
    (regroup b o).Remarked (carryOut b p o) := by
  cases haction : o.action with
  | move =>
    rw [carryOut_move haction]
    exact remarked_occupy p _ _ _
  | load transport =>
    rw [carryOut_load haction]
    exact .refl _
  | unload =>
    rw [carryOut_unload haction]
    exact remarked_arrive p true _ _

end Table

end Conquest
