import Conquest.Proofs.Standing

/-!
# What stays under orders

No command changes the map, the players, the kinds or the rules; only owners of land change. The
orders of a player moreover leave all foreign pieces where they are and capture land for the player
alone, so what is safe for the player stays safe.

* `Board.SameGround`: the map, the owners apart.
* `Board.After`: a board and the board after orders of a player.
* `Board.After.hasEnemyForce`, `Board.After.isFriendlyLand`, `Board.After.isEnemyLand_imp`,
  `Board.After.isLandable`: hostile forces are the same, friendly land stays friendly, no land
  becomes hostile, and aircraft can land where they could.
-/

namespace Conquest.Board

/-! ## The ground -/

/-- Two boards of one game: only the owners of land may differ on the map. -/
structure SameGround (b b' : Board) : Prop where
  players : b'.players = b.players
  kinds : b'.kinds = b.kinds
  rules : b'.rules = b.rules
  adjacency : b'.atlas.adjacency = b.atlas.adjacency
  size : b'.atlas.size = b.atlas.size
  territory : ∀ t, b'.territory t = { b.territory t with owner := (b'.territory t).owner }

namespace SameGround

variable {b b' b'' : Board}

theorem refl (b : Board) : b.SameGround b := ⟨rfl, rfl, rfl, rfl, rfl, fun _ => rfl⟩

/-- Orders after orders are orders. -/
theorem trans (h : b.SameGround b') (h' : b'.SameGround b'') : b.SameGround b'' := by
  constructor
  · exact h'.players.trans h.players
  · exact h'.kinds.trans h.kinds
  · exact h'.rules.trans h.rules
  · exact h'.adjacency.trans h.adjacency
  · exact h'.size.trans h.size
  · intro t
    rw [h'.territory t, h.territory t]

/-- Equal maps, players, kinds and rules. -/
theorem of_eq (hatlas : b'.atlas = b.atlas) (hplayers : b'.players = b.players)
    (hkinds : b'.kinds = b.kinds) (hrules : b'.rules = b.rules) : b.SameGround b' := by
  refine ⟨hplayers, hkinds, hrules, by rw [hatlas], by rw [hatlas], ?_⟩
  intro t
  rw [Board.territory, hatlas, Board.territory]

theorem kind (h : b.SameGround b') (k : KindId) : b'.kind k = b.kind k := by
  rw [Board.kind, h.kinds, Board.kind]

/-- Neighbours stay neighbours. -/
theorem isAdjacent (h : b.SameGround b') (s t : TerritoryId) :
    b'.atlas.isAdjacent s t = b.atlas.isAdjacent s t := by
  rw [Atlas.isAdjacent, Atlas.neighbors, h.adjacency, Atlas.isAdjacent, Atlas.neighbors]

theorem isWater (h : b.SameGround b') (t : TerritoryId) :
    b'.atlas.isWater t = b.atlas.isWater t := by
  have ht := h.territory t
  unfold Board.territory at ht
  rw [Atlas.isWater, ht, Atlas.isWater]

theorem impassable (h : b.SameGround b') (t : TerritoryId) :
    (b'.territory t).impassable = (b.territory t).impassable := by
  rw [h.territory t]

theorem isPassableLand (h : b.SameGround b') (t : TerritoryId) :
    (b'.territory t).isPassableLand = (b.territory t).isPassableLand := by
  rw [h.territory t]
  rfl

/-- Alliances do not change. -/
theorem isAllied (h : b.SameGround b') (p q : PlayerId) : b'.isAllied p q = b.isAllied p q := by
  rw [Board.isAllied, player, player, h.players, Board.isAllied, player, player]

theorem isEnemy (h : b.SameGround b') (p q : PlayerId) : b'.isEnemy p q = b.isEnemy p q := by
  rw [Board.isEnemy, h.isAllied, Board.isEnemy]

end SameGround

theorem isAllied_self (b : Board) (p : PlayerId) : b.isAllied p p = true := by
  simp [isAllied]

theorem isEnemy_self (b : Board) (p : PlayerId) : b.isEnemy p p = false := by
  rw [isEnemy, isAllied_self]
  rfl

theorem ne_of_isEnemy {b : Board} {p q : PlayerId} (h : b.isEnemy p q = true) : q ≠ p := by
  rintro rfl
  rw [isEnemy_self] at h
  cases h

/-- An ally is no enemy. -/
theorem not_isEnemy_of_isAllied {b : Board} {p q : PlayerId} (h : b.isAllied p q = true) :
    b.isEnemy p q = false := by
  rw [isEnemy, h]
  rfl

/-- Land is not friendly and hostile at once. -/
theorem isEnemyLand_of_isFriendlyLand {b : Board} {t : TerritoryId} {p : PlayerId}
    (h : b.isFriendlyLand t p = true) : b.isEnemyLand t p = false := by
  unfold isFriendlyLand at h
  unfold isEnemyLand
  rw [Bool.and_eq_true] at h
  cases howner : (b.territory t).owner with
  | none => simp
  | some q =>
    rw [howner, Option.any_some] at h
    simp [not_isEnemy_of_isAllied h.2]

/-- Water is nobody's land. -/
theorem isEnemyLand_of_isWater {b : Board} {t : TerritoryId} (p : PlayerId)
    (h : b.atlas.isWater t = true) : b.isEnemyLand t p = false := by
  have hw : (b.territory t).isWater = true := h
  simp [isEnemyLand, Territory.isPassableLand, hw]

/-- Beyond the map there is no land. -/
theorem lt_size_of_isEnemyLand {b : Board} {t : TerritoryId} {p : PlayerId}
    (ht : b.isEnemyLand t p = true) :
    t < b.atlas.size := by
  rw [isEnemyLand, Bool.and_eq_true, Option.any_eq_true] at ht
  rcases ht with ⟨-, q, howner, -⟩
  exact Atlas.lt_size_of_owner howner

/-- Friendly land is on the map. -/
theorem lt_size_of_isFriendlyLand {b : Board} {t : TerritoryId} {p : PlayerId}
    (ht : b.isFriendlyLand t p = true) :
    t < b.atlas.size := by
  rw [isFriendlyLand, Bool.and_eq_true, Option.any_eq_true] at ht
  rcases ht with ⟨-, q, howner, -⟩
  exact Atlas.lt_size_of_owner howner

/-! ## Orders of one player -/

/-- A board and the board after orders of `p`: foreign pieces stand where they stood, land that
changed hands was undefended and is the player's, and only enemy land was captured. -/
structure After (p : PlayerId) (b b' : Board) : Prop extends SameGround b b' where
  pieces_size : b'.pieces.size = b.pieces.size
  piece : ∀ u q', b'.piece? u = some q' →
    ∃ q, b.piece? u = some q ∧ q'.kind = q.kind ∧ q'.owner = q.owner
  foreign : ∀ u q, b.piece? u = some q → q.owner ≠ p → ∀ t, u ∈ b'.garrison t ↔ u ∈ b.garrison t
  owner : ∀ t, (b'.territory t).owner = (b.territory t).owner ∨
    (b'.territory t).owner = some p ∧ b.hasEnemyForce t p = false
  conquered : ∀ t, b'.isConquered t = true → b.isConquered t = true ∨ b.isEnemyLand t p = true

namespace After

variable {p : PlayerId} {b b' b'' : Board}

theorem refl (p : PlayerId) (b : Board) : After p b b :=
  ⟨.refl b, rfl, fun _ q hq => ⟨q, hq, rfl, rfl⟩, fun _ _ _ _ _ => .rfl, fun _ => .inl rfl,
    fun _ => .inl⟩

/-- A piece keeps its kind and its owner. -/
theorem piece_to (h : After p b b') {u : PieceId} {q : Piece} (hq : b.piece? u = some q) :
    ∃ q', b'.piece? u = some q' ∧ q'.kind = q.kind ∧ q'.owner = q.owner := by
  rcases piece?_of_lt (h.pieces_size ▸ lt_size_of_piece? hq) with ⟨q', hq'⟩
  rcases h.piece u q' hq' with ⟨q₀, hq₀, hkind, howner⟩
  rw [hq, Option.some.injEq] at hq₀
  subst hq₀
  exact ⟨q', hq', hkind, howner⟩

/-- Pieces keep kind and owner, seen from the later board. -/
theorem asset (h : After p b b') {u : PieceId} {x : Asset} (hx : b'.asset? u = some x) :
    ∃ a, b.asset? u = some a ∧ x.kind = a.kind ∧ x.piece.owner = a.piece.owner := by
  rcases asset?_eq_some.1 hx with ⟨hq', hkind'⟩
  rcases h.piece u x.piece hq' with ⟨q, hq, hkind, howner⟩
  refine ⟨⟨q, b.kind q.kind⟩, asset?_eq_some.2 ⟨hq, rfl⟩, ?_, howner⟩
  rw [hkind', h.kind, hkind]

/-- Pieces keep kind and owner, seen from the earlier board. -/
theorem asset_to (h : After p b b') {u : PieceId} {a : Asset} (ha : b.asset? u = some a) :
    ∃ x, b'.asset? u = some x ∧ x.kind = a.kind ∧ x.piece.owner = a.piece.owner := by
  rcases h.piece_to (asset?_eq_some.1 ha).1 with ⟨q', hq', -⟩
  have hx : b'.asset? u = some ⟨q', b'.kind q'.kind⟩ := asset?_eq_some.2 ⟨hq', rfl⟩
  rcases h.asset hx with ⟨a₀, ha₀, hkind, howner⟩
  rw [ha, Option.some.injEq] at ha₀
  subst ha₀
  exact ⟨_, hx, hkind, howner⟩

/-- Hostile forces are where they were. -/
theorem hasEnemyForce (h : After p b b') (t : TerritoryId) :
    b'.hasEnemyForce t p = b.hasEnemyForce t p := by
  rw [Bool.eq_iff_iff, hasEnemyForce_iff, hasEnemyForce_iff]
  -- a hostile piece is foreign, so it has not moved
  constructor
  · rintro ⟨u, hu, q', hq', henemy, hinfra⟩
    rcases h.piece u q' hq' with ⟨q, hq, hkind, howner⟩
    rw [h.isEnemy, howner] at henemy
    rw [h.kind, hkind] at hinfra
    have hplace := h.foreign u q hq (ne_of_isEnemy henemy) t
    exact ⟨u, hplace.1 hu, q, hq, henemy, hinfra⟩
  · rintro ⟨u, hu, q, hq, henemy, hinfra⟩
    rcases h.piece_to hq with ⟨q', hq', hkind, howner⟩
    have hplace := h.foreign u q hq (ne_of_isEnemy henemy) t
    refine ⟨u, hplace.2 hu, q', hq', ?_, ?_⟩
    · rw [h.isEnemy, howner]
      exact henemy
    · rw [h.kind, hkind]
      exact hinfra

/-- Friendly land stays friendly under one's own orders. -/
theorem isFriendlyLand (h : After p b b') {t : TerritoryId} (ht : b.isFriendlyLand t p = true) :
    b'.isFriendlyLand t p = true := by
  unfold Board.isFriendlyLand at ht ⊢
  rw [Bool.and_eq_true] at ht ⊢
  refine ⟨(h.isPassableLand t).trans ht.1, ?_⟩
  -- land that changed hands is now the player's own
  rcases h.owner t with ho | ⟨ho, -⟩
  · rw [ho]
    cases howner : (b.territory t).owner with
    | none =>
      rw [howner] at ht
      cases ht.2
    | some q =>
      rw [howner, Option.any_some] at ht
      rw [Option.any_some, h.isAllied]
      exact ht.2
  · rw [ho, Option.any_some, isAllied_self]

/-- One's own orders make no enemy land. -/
theorem isEnemyLand_imp (h : After p b b') {t : TerritoryId} (ht : b'.isEnemyLand t p = true) :
    b.isEnemyLand t p = true := by
  unfold Board.isEnemyLand at ht ⊢
  rw [Bool.and_eq_true] at ht ⊢
  refine ⟨(h.isPassableLand t).symm.trans ht.1, ?_⟩
  rcases h.owner t with ho | ⟨ho, -⟩
  · rw [← ho]
    cases howner : (b'.territory t).owner with
    | none =>
      rw [howner] at ht
      cases ht.2
    | some q =>
      rw [howner, Option.any_some, h.isEnemy] at ht
      rw [Option.any_some]
      exact ht.2
  · rw [ho, Option.any_some, isEnemy_self] at ht
    cases ht.2

theorem trans (h : After p b b') (h' : After p b' b'') : After p b b'' := by
  refine ⟨h.toSameGround.trans h'.toSameGround, h'.pieces_size.trans h.pieces_size, ?_, ?_, ?_,
    ?_⟩
  · intro u q'' hq''
    rcases h'.piece u q'' hq'' with ⟨q', hq', hkind', howner'⟩
    rcases h.piece u q' hq' with ⟨q, hq, hkind, howner⟩
    exact ⟨q, hq, hkind'.trans hkind, howner'.trans howner⟩
  · intro u q hq hforeign t
    rcases h.piece_to hq with ⟨q', hq', -, howner⟩
    exact (h'.foreign u q' hq' (howner ▸ hforeign) t).trans (h.foreign u q hq hforeign t)
  · intro t
    -- undefended in between is undefended before, since no hostile force moved
    rcases h'.owner t with h₂ | ⟨h₂, hundefended⟩
    · rw [h₂]
      exact h.owner t
    · exact .inr ⟨h₂, h.hasEnemyForce t ▸ hundefended⟩
  · intro t ht
    rcases h'.conquered t ht with ht | ht
    · exact h.conquered t ht
    · exact .inr (h.isEnemyLand_imp ht)

/-- Where aircraft can land they still can: only enemy land is captured. -/
theorem isLandable (h : After p b b') {t : TerritoryId} (ht : b.isLandable p t = true) :
    b'.isLandable p t = true := by
  unfold Board.isLandable at ht ⊢
  rw [Bool.and_eq_true, Bool.not_eq_true'] at ht ⊢
  refine ⟨h.isFriendlyLand ht.1, ?_⟩
  rw [Bool.eq_false_iff]
  intro hconquered
  rcases h.conquered t hconquered with hold | henemy
  · rw [ht.2] at hold
    cases hold
  · rw [isEnemyLand_of_isFriendlyLand ht.1] at henemy
    cases henemy

/-- Owned land stays owned. -/
theorem isHeld (h : After p b b') {t : TerritoryId}
    (ht : ((b.territory t).isPassableLand && (b.territory t).owner.isSome) = true) :
    ((b'.territory t).isPassableLand && (b'.territory t).owner.isSome) = true := by
  rw [Bool.and_eq_true] at ht ⊢
  refine ⟨(h.isPassableLand t).trans ht.1, ?_⟩
  rcases h.owner t with ho | ⟨ho, -⟩
  · rw [ho]
    exact ht.2
  · rw [ho]
    rfl

/-- Pieces change in nothing that matters to foreign players. -/
theorem of_pieces (hground : b.SameGround b') (howner : ∀ t, (b'.territory t).owner =
    (b.territory t).owner) (hgarrisons : b'.garrisons = b.garrisons)
    (hsize : b'.pieces.size = b.pieces.size) (hconquered : b'.conquered = b.conquered)
    (hpiece : ∀ u q', b'.piece? u = some q' →
      ∃ q, b.piece? u = some q ∧ q'.kind = q.kind ∧ q'.owner = q.owner) : After p b b' := by
  refine ⟨hground, hsize, hpiece, ?_, fun t => .inl (howner t), ?_⟩
  · intro u q _ _ t
    rw [garrison, hgarrisons, garrison]
  · intro t ht
    rw [isConquered, hconquered] at ht
    exact .inl ht

end After

end Conquest.Board
