import Conquest.Proofs.Draft
import Conquest.Proofs.Ground

/-!
# The orders that are planned

Every order of the combat move has one of six forms, each with all that the host will ask for; every
order outside combat ends on friendly land or on water without enemies. Two ways are left in which
a piece can be taken twice.

* `Planned`: the forms of the combat move.
* `Board.IsHaven`: where an order outside combat ends.
* `Board.EscortClash`, `Board.StrayBomber`: the pieces that can be taken twice.
* `brief`: what is expected of every phase and every recruitment.
-/

namespace Conquest

namespace Board

/-- Friendly land, or water without an enemy force. -/
def IsHaven (b : Board) (p : PlayerId) (t : TerritoryId) : Prop :=
  b.isFriendlyLand t p = true ∨ (b.atlas.isWater t = true ∧ b.hasEnemyForce t p = false)

/-- Enemy land, or water. -/
def IsTarget (b : Board) (p : PlayerId) (t : TerritoryId) : Prop :=
  b.isEnemyLand t p = true ∨ b.atlas.isWater t = true

theorem IsTarget.isEnemyLand {b : Board} {p : PlayerId} {t : TerritoryId} (h : b.IsTarget p t)
    (hland : b.atlas.isPassableLand t = true) : b.isEnemyLand t p = true := by
  refine h.resolve_right ?_
  rw [Atlas.isWater, Territory.dry_of_isPassableLand hland]
  exact Bool.false_ne_true

/-- A piece of `p` that stands by itself in `t`. -/
structure Stands (b : Board) (p : PlayerId) (t : TerritoryId) (a : Asset) : Prop where
  asset : b.asset? a.id = some a
  owner : a.piece.owner = p
  alone : a.piece.carrier = none
  place : a.piece.territory = t

theorem Sound.stands {b : Board} (hb : b.Sound) {t : TerritoryId} {p : PlayerId} {a : Asset}
    (h : a ∈ b.ownedIn t p) (halone : a.piece.carrier = none) : b.Stands p t a := by
  rcases mem_ownedIn.1 h with ⟨hmem, howner⟩
  exact ⟨hb.asset?_of_mem hmem, howner, halone,
    hb.territory_of_mem hmem (isSettled_of_carrier halone)⟩

/-- No two pieces share an identifier, and no piece stands in two territories. -/
theorem Stands.unique {b : Board} {p q : PlayerId} {t s : TerritoryId} {a x : Asset}
    (h : b.Stands p t a) (h' : b.Stands q s x) (hid : x.id = a.id) : x = a ∧ s = t := by
  have hasset := h'.asset
  rw [hid, h.asset, Option.some.injEq] at hasset
  subst hasset
  exact ⟨rfl, h'.place.symm.trans h.place⟩

/-- A piece that is no land piece stands by itself. -/
theorem Sound.alone {b : Board} (hb : b.Sound) {t : TerritoryId} {p : PlayerId} {a : Asset}
    (h : a ∈ b.ownedIn t p) (hland : a.kind.isLand = false) : a.piece.carrier = none := by
  rcases asset?_eq_some.1 (hb.asset?_of_mem (mem_ownedIn.1 h).1) with ⟨hpiece, hkind⟩
  exact hb.carrier_eq_none hpiece (hkind ▸ hland)

/-- What stands by itself is no cargo. -/
theorem Stands.notMem_cargoOf {b : Board} {p : PlayerId} {t : TerritoryId} {a ship : Asset}
    (h : b.Stands p t a) (hb : b.Sound) (hship : b.asset? ship.id = some ship)
    (hsea : ship.kind.isSea = true) : a.id ∉ b.cargoOf ship.id := by
  intro hin
  rcases asset?_eq_some.1 hship with ⟨hpiece, hkind⟩
  rcases (hb.mem_cargoOf hpiece (hkind ▸ hsea)).1 hin with ⟨q, hq, hcarrier⟩
  rw [(asset?_eq_some.1 h.asset).1, Option.some.injEq] at hq
  -- aboard the ship it would have a carrier
  rw [← hq, h.alone] at hcarrier
  cases hcarrier

/-- Pieces that stand by themselves are listed once in their territory. -/
theorem Sound.nodup_alone {b : Board} (hb : b.Sound) {t : TerritoryId} {p : PlayerId}
    {as : List Asset} (hsub : as.Sublist (b.ownedIn t p))
    (halone : ∀ a ∈ as, a.piece.carrier = none) : (as.map (·.id)).Nodup :=
  hb.nodup_ids (hsub.trans (ownedIn_sublist b t p)) fun a ha => isSettled_of_carrier (halone a ha)

/-- A bombarding ship of `p` in a sea zone next to `t`. -/
def Bombards (b : Board) (p : PlayerId) (t : TerritoryId) (u : PieceId) : Prop :=
  ∃ z ∈ b.atlas.neighbors t, b.atlas.isWater z = true ∧ ∃ a ∈ b.ownedIn z p, a.id = u ∧
    a.kind.canBombard = true ∧ a.kind.isSea = true

/-! ## Pieces that can be taken twice -/

/-- An armed ship with cargo aboard, in one zone with another loaded ship that it can escort. -/
def EscortClash (b : Board) (p : PlayerId) (u : PieceId) : Prop :=
  ∃ z, ∃ a ∈ b.ownedIn z p, a.id = u ∧ a.kind.carriesCargo = true ∧ 0 < a.kind.attack ∧
    b.cargoOf u ≠ [] ∧
    ∃ a' ∈ b.ownedIn z p, a'.id ≠ u ∧ a'.kind.carriesCargo = true ∧ b.cargoOf a'.id ≠ []

/-- A strategic bomber aboard a carrier that is no ship, listed in more than one place. -/
def StrayBomber (b : Board) (p : PlayerId) (u : PieceId) : Prop :=
  ∃ a, b.asset? u = some a ∧ a.piece.owner = p ∧ a.kind.isStrategicBomber = true ∧
    ¬ b.IsSettled a.piece ∧ 1 < (b.atlas.ids.flatMap b.garrison).count u

/-- A piece that planning may take twice. -/
def Clash (b : Board) (p : PlayerId) (u : PieceId) : Prop :=
  b.EscortClash p u ∨ b.StrayBomber p u

end Board

/-! ## Forms of orders -/

/-- Whether an order sends pieces aboard a transport. -/
def Order.isLoad (o : Order) : Bool :=
  match o.action with
  | .load _ => true
  | _ => false

theorem Order.isLoad_iff {o : Order} : o.isLoad = true ↔ ∃ ship, o.action = .load ship := by
  unfold isLoad
  cases o.action with
  | load ship => simp
  | move => simp
  | unload => simp

/-- The orders of the combat move. -/
inductive Planned (b : Board) (r : Rules) (p : PlayerId) : Order → Prop
  /-- Land pieces walk into enemy land over safe friendly land, or, all of them blitzing, also over
  enemy land without a force. -/
  | march (as : List Asset) (route : Route) (some : as ≠ [])
      (stands : ∀ a ∈ as, b.Stands p route.start a)
      (land : ∀ a ∈ as, a.kind.isLand = true)
      (moves : ∀ a ∈ as, route.length ≤ a.piece.movementLeft)
      (walk : route.territories.IsChain (b.atlas.isAdjacent · · = true))
      (leaves : route.isEmpty = false)
      (way : ∀ t ∈ route.between, b.hasEnemyForce t p = false ∧ (b.isFriendlyLand t p = true ∨
        ((∀ a ∈ as, a.kind.canBlitz = true) ∧ r.blitzThroughEmptyEnemy = true ∧
          b.isEnemyLand t p = true)))
      (goal : b.isEnemyLand route.dest p = true) :
      Planned b r p { pieces := as.map (·.id), route }
  /-- Aircraft fly over open territory to a target. -/
  | fly (as : List Asset) (route : Route) (some : as ≠ [])
      (stands : ∀ a ∈ as, b.Stands p route.start a)
      (air : ∀ a ∈ as, a.kind.isAir = true)
      (moves : ∀ a ∈ as, route.length ≤ a.piece.movementLeft)
      (walk : route.territories.IsChain (b.atlas.isAdjacent · · = true))
      (leaves : route.isEmpty = false)
      (way : ∀ t ∈ route.steps, b.atlas.isOpen t = true)
      (goal : b.IsTarget p route.dest) :
      Planned b r p { pieces := as.map (·.id), route }
  /-- A bomber, which should be an aircraft, flies to enemy land. -/
  | raid (a : Asset) (route : Route)
      (asset : b.asset? a.id = some a)
      (bomber : a.kind.isStrategicBomber = true)
      (stands : a.kind.isAir = true → b.Stands p route.start a)
      (moves : route.length ≤ a.piece.movementLeft)
      (walk : route.territories.IsChain (b.atlas.isAdjacent · · = true))
      (way : ∀ t ∈ route.steps, b.atlas.isOpen t = true)
      (goal : b.IsTarget p route.dest) :
      Planned b r p { pieces := [a.id], route }
  /-- Ships, and aircraft with them, sail over safe water. -/
  | sail (as : List Asset) (route : Route) (some : as ≠ [])
      (stands : ∀ a ∈ as, b.Stands p route.start a)
      (ships : ∀ a ∈ as, a.kind.isSea = true ∨ a.kind.isAir = true)
      (moves : ∀ a ∈ as, route.length ≤ a.piece.movementLeft)
      (walk : route.territories.IsChain (b.atlas.isAdjacent · · = true))
      (leaves : route.isEmpty = false)
      (water : ∀ t ∈ route.steps, b.atlas.isWater t = true)
      (way : ∀ t ∈ route.between, b.hasEnemyForce t p = false) :
      Planned b r p { pieces := as.map (·.id), route }
  /-- Land pieces go aboard a transport next to them. -/
  | load (as : List Asset) (shore zone : TerritoryId) (ship : Asset) (some : as ≠ [])
      (stands : ∀ a ∈ as, b.Stands p shore a)
      (fits : ∀ a ∈ as, a.kind.canBeTransported = true)
      (moves : ∀ a ∈ as, a.piece.movementLeft ≠ 0)
      (adjacent : b.atlas.isAdjacent shore zone = true)
      (waits : b.Stands p zone ship)
      (room : ship.kind.carriesCargo = true) :
      Planned b r p { pieces := as.map (·.id), route := .step shore zone, action := .load ship.id }
  /-- A loaded ship sails over safe water and lands its cargo on enemy land. -/
  | land (ship : Asset) (route : Route) (goal : TerritoryId)
      (stands : b.Stands p route.start ship)
      (carries : ship.kind.carriesCargo = true)
      (loaded : b.cargoOf ship.id ≠ [])
      (moves : route.length ≤ ship.piece.movementLeft)
      (walk : (route.extend goal).territories.IsChain (b.atlas.isAdjacent · · = true))
      (way : ∀ t ∈ route.steps, b.atlas.isWater t = true ∧ b.hasEnemyForce t p = false)
      (enemy : b.isEnemyLand goal p = true) :
      Planned b r p { pieces := [ship.id], route := route.extend goal, action := .unload }

/-- What is expected of an order: its form in combat, its end outside combat. -/
structure Fit (b : Board) (r : Rules) (p : PlayerId) (e : Epoch) (loading : Bool) (o : Order) :
    Prop where
  planned : e = .combat → Planned b r p o
  haven : e = .nonCombat → b.IsHaven p o.route.dest
  loads : o.isLoad = loading

/-- What is expected of the planning of a player on a board in an epoch. Nothing is expected of
orders and failures on a board that is not well-formed. -/
def brief (b : Board) (c : Context) (e : Epoch) (loading : Bool) (spot : PieceId → Prop) :
    Brief where
  board := b
  epoch := e
  fit o := b.Sound → Fit b c.rules c.player e loading o
  spot := spot
  slip u := b.Sound → b.Clash c.player u

section Rules

variable {b : Board} {c : Context} {e : Epoch} {loading : Bool} {spot : PieceId → Prop}
  {l : Ledger} {us : List PieceId} {post : Unit → Ledger → Prop}

/-- On a well-formed board free pieces can be taken. -/
theorem Ensures.commitAll_free (hepoch : l.epoch = e)
    (hfree : b.Sound → us.Nodup ∧ ∀ u ∈ us, u ∉ l.pieces)
    (hok : us.Nodup → (∀ u ∈ us, u ∉ l.pieces) → post () (l.withEntries (us.map (·, .moved)))) :
    Ensures (brief b c e loading spot).Fails (Planning.commitAll us) l post := by
  refine Ensures.commitAll hepoch ?_ hok
  intro u hu hb
  rcases hfree hb with ⟨hnodup, hall⟩
  -- a conflict would be a free piece that is taken
  rcases Ledger.mem_of_conflict? hu with ⟨hmem, hin⟩
  exact absurd (hin hnodup List.not_mem_nil) (hall u hmem)

theorem Ensures.commitEach_free (hepoch : l.epoch = e)
    (hfree : b.Sound → us.Nodup ∧ ∀ u ∈ us, u ∉ l.pieces)
    (hok : us.Nodup → (∀ u ∈ us, u ∉ l.pieces) → post () (l.withEntries (us.map (·, .moved)))) :
    Ensures (brief b c e loading spot).Fails (Planning.commitEach us) l post := by
  refine Ensures.commitEach hepoch ?_ hok
  intro hnot u _ hb
  exact absurd (hfree hb) hnot

end Rules

end Conquest
