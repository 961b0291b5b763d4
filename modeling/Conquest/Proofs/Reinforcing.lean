import Conquest.Proofs.Landings
import Conquest.Proofs.Losses
import Conquest.Proofs.Musters

/-!
# Reinforcing never adds to the threat

A further piece of a player hostile to the attacker gives the attacker nothing. What the attacker
has and what its ships carry is as before, and an enemy more can only close a way to its blitzers:
where fewer territories are passable, the shortest way is not shorter.

* `Atlas.routeInto?_mono`: routes through fewer territories.
* `Board.Reinforced`: what another board has more of; `Board.reinforced_addPiece`: adding a piece.
* `Reinforced.offers_subset`: branch by branch, nothing is offered that was not offered before.
* `mem_potentialAttackers`: who is among the attackers.
* `potentialAttackers_addPiece`: the attackers after reinforcing are attackers before.
-/

namespace Conquest

namespace Atlas

variable {m : Atlas} {source goal : TerritoryId} {through through' : TerritoryId → Bool} {r : Route}

/-- If a route through fewer territories is found, one that is not longer is found through more. -/
theorem routeInto?_mono (hm : m.Neat) (hmore : ∀ t, through t = true → through' t = true)
    (hr : m.routeInto? source goal through = some r) :
    ∃ r', m.routeInto? source goal through' = some r' ∧ r'.length ≤ r.length := by
  have hwalk := ((route?_eq_some_iff hm).1 hr).isWalk
  have hwider : m.IsWalk (fun t => t == goal || through' t) source goal r := by
    refine { hwalk with passable := ?_ }
    intro t ht
    rcases Bool.or_eq_true_iff.1 (hwalk.passable t ht) with hgoal | hthrough
    · exact Bool.or_eq_true_iff.2 (.inl hgoal)
    · exact Bool.or_eq_true_iff.2 (.inr (hmore t hthrough))
  rcases exists_isFirst hm hwider with ⟨r', hfirst⟩
  exact ⟨r', (route?_eq_some_iff hm).2 hfirst, hfirst.length_le hwider⟩

end Atlas

namespace Board

/-! ## One piece more -/

section Addition

variable (b : Board) (kind : KindId) (owner : PlayerId) (t : TerritoryId)

theorem Indexed.addPiece {b : Board} (hb : b.Indexed) : (b.addPiece kind owner t).Indexed := by
  intro u q hq
  by_cases hu : u = b.pieces.size
  · rw [hu, piece?_addPiece, Option.some.injEq] at hq
    rw [← hq, hu]
  · rw [piece?_addPiece_of_ne b kind owner t hu] at hq
    exact hb u q hq

/-- Pieces that were there are found as before. -/
theorem asset?_addPiece_of_some {u : PieceId} {a : Asset} (ha : b.asset? u = some a) :
    (b.addPiece kind owner t).asset? u = some a := by
  rcases asset?_eq_some.1 ha with ⟨hq, hkind⟩
  exact asset?_eq_some.2 ⟨piece?_addPiece_of_some b kind owner t hq, hkind⟩

/-- A new piece stands last in at most one garrison. -/
theorem garrison_addPiece_eq_or (x : TerritoryId) :
    (b.addPiece kind owner t).garrison x = b.garrison x ∨
      (b.addPiece kind owner t).garrison x = b.garrison x ++ [b.pieces.size] := by
  by_cases ht : t < b.garrisons.size
  · rw [garrison_addPiece b kind owner t ht x]
    split
    · exact .inr rfl
    · exact .inl rfl
  · left
    have hsame : b.garrisons.modify t (· ++ [b.pieces.size]) = b.garrisons := by
      rw [Array.modify, Array.modifyM, dif_neg ht]
      rfl
    rw [garrison, garrison, Board.addPiece, hsame]

/-- A test that the new piece fails does not see it. -/
theorem filter_assetsIn_addPiece {test : Asset → Bool}
    (hfails : ∀ a, (b.addPiece kind owner t).asset? b.pieces.size = some a → test a = false)
    (x : TerritoryId) :
    ((b.addPiece kind owner t).assetsIn x).filter test = (b.assetsIn x).filter test := by
  have hnobody : b.asset? b.pieces.size = none := by
    simp [asset?, piece?]
  -- every piece passes the test as before, the new one and nobody alike
  have hsame : ∀ u, ((b.addPiece kind owner t).asset? u).filter test =
      (b.asset? u).filter test := by
    intro u
    by_cases hu : u = b.pieces.size
    · rw [hu, hnobody]
      cases hnew : (b.addPiece kind owner t).asset? b.pieces.size with
      | none => rfl
      | some a => rw [Option.filter_some, hfails a hnew]; rfl
    · rw [asset?, piece?_addPiece_of_ne b kind owner t hu]
      rfl
  unfold assetsIn
  rw [List.filter_filterMap, List.filter_filterMap]
  simp only [hsame]
  rcases garrison_addPiece_eq_or b kind owner t x with hold | hnew
  · rw [hold]
  · rw [hnew, List.filterMap_append, List.filterMap_cons, hnobody]
    exact List.append_nil _

/-- An enemy force stays one when a piece is added. -/
theorem hasEnemyForce_addPiece {x : TerritoryId} {p : PlayerId}
    (h : b.hasEnemyForce x p = true) : (b.addPiece kind owner t).hasEnemyForce x p = true := by
  rcases hasEnemyForce_iff.1 h with ⟨u, hu, q, hq, henemy, hforce⟩
  refine hasEnemyForce_iff.2 ⟨u, ?_, q, piece?_addPiece_of_some b kind owner t hq, henemy, hforce⟩
  rcases garrison_addPiece_eq_or b kind owner t x with hold | hnew
  · rw [hold]
    exact hu
  · rw [hnew]
    exact List.mem_append_left _ hu

end Addition

/-- A board with more enemies of the attacker: what the attacker has is as on the other one, and no
enemy force is gone. -/
structure Reinforced (attacker : PlayerId) (b b' : Board) : Prop where
  atlas : b'.atlas = b.atlas
  kinds : b'.kinds = b.kinds
  ownedIn : ∀ x, b'.ownedIn x attacker = b.ownedIn x attacker
  cargo : ∀ x, ∀ ship ∈ b.ownedIn x attacker, b'.cargoOf ship.id = b.cargoOf ship.id ∧
    (b.cargoOf ship.id).filterMap b'.asset? = (b.cargoOf ship.id).filterMap b.asset?
  force : ∀ x, b.hasEnemyForce x attacker = true → b'.hasEnemyForce x attacker = true

/-- A piece of another player reinforces the board against the attacker. -/
theorem reinforced_addPiece {b : Board} (hb : b.Indexed) {attacker owner : PlayerId}
    (hother : owner ≠ attacker) (kind : KindId) (t : TerritoryId) :
    b.Reinforced attacker (b.addPiece kind owner t) where
  atlas := rfl
  kinds := rfl
  ownedIn x := by
    apply filter_assetsIn_addPiece
    intro a ha
    rcases asset?_eq_some.1 ha with ⟨hq, -⟩
    rw [piece?_addPiece, Option.some.injEq] at hq
    rw [← hq]
    exact beq_false_of_ne hother
  cargo x ship hship := by
    have hasset := hb.asset?_of_mem (mem_ownedIn.1 hship).1
    constructor
    · unfold cargoOf
      rw [hasset, asset?_addPiece_of_some b kind owner t hasset]
      -- the new piece is aboard nothing
      show List.map _ (((b.addPiece kind owner t).assetsIn _).filter _) = _
      rw [filter_assetsIn_addPiece]
      intro a ha
      rcases asset?_eq_some.1 ha with ⟨hq, -⟩
      rw [piece?_addPiece, Option.some.injEq] at hq
      rw [← hq]
      rfl
    · apply List.filterMap_congr
      intro u hu
      unfold cargoOf at hu
      rw [hasset] at hu
      rcases List.mem_map.1 hu with ⟨a, ha, rfl⟩
      have hcarried := hb.asset?_of_mem (List.mem_filter.1 ha).1
      rw [hcarried, asset?_addPiece_of_some b kind owner t hcarried]
  force x := hasEnemyForce_addPiece b kind owner t

end Board

/-! ## Offers -/

namespace Board.Reinforced

variable {attacker : PlayerId} {b b' : Board} (h : b.Reinforced attacker b')
include h

theorem neighbors_eq (location : TerritoryId) :
    Threat.neighbors b' location attacker = Threat.neighbors b location attacker := by
  unfold Threat.neighbors
  simp only [h.atlas, h.ownedIn]

/-- The ships that threaten a place do not depend on the defender's reinforcement. -/
theorem ships_eq (c : Config) (location : TerritoryId) :
    Threat.ships b' c location attacker = Threat.ships b c location attacker := by
  unfold Threat.ships
  simp only [h.atlas, h.ownedIn]

theorem aircraft_eq (location : TerritoryId) :
    Threat.aircraft b' location attacker = Threat.aircraft b location attacker := by
  unfold Threat.aircraft kindsWhere
  simp only [h.atlas, h.kinds, h.ownedIn]

theorem fetchable_eq (room : Nat) (coasts : List TerritoryId) :
    Threat.fetchable b' attacker room coasts = Threat.fetchable b attacker room coasts := by
  induction coasts generalizing room with
  | nil => rfl
  | cons coast coasts ih =>
    have hloadable : Threat.loadableAt b' coast attacker = Threat.loadableAt b coast attacker := by
      rw [Threat.loadableAt, Threat.loadableAt, h.ownedIn]
    rw [Threat.fetchable, Threat.fetchable, hloadable]
    simp only [ih]

/-- Neither do the landings, cargo included. -/
theorem landings_eq (location : TerritoryId) :
    Threat.landings b' location attacker = Threat.landings b location attacker := by
  have hzone : ∀ zone, ∀ ship ∈ b.ownedIn zone attacker,
      Threat.landedBy b' attacker zone ship = Threat.landedBy b attacker zone ship := by
    intro zone ship hship
    rcases h.cargo zone ship hship with ⟨hcargo, hassets⟩
    unfold Threat.landedBy
    simp only [hcargo, hassets, h.fetchable_eq, h.atlas]
  unfold Threat.landings Threat.stagingZones kindsWhere
  simp only [h.atlas, h.kinds, h.ownedIn]
  split
  · rfl
  · apply List.flatMap_congr
    intro zone _
    apply List.flatMap_congr
    intro ship hship
    exact hzone zone ship (List.mem_filter.1 hship).1

/-- A blitzer that has a clear way with more enemies about has one with fewer. -/
theorem blitzers_subset (hm : b.atlas.IsDrawn) (c : Config) (location : TerritoryId) :
    Threat.blitzers b' c location attacker ⊆ Threat.blitzers b c location attacker := by
  intro a ha
  unfold Threat.blitzers at ha ⊢
  rw [h.atlas] at ha
  rcases List.mem_flatMap.1 ha with ⟨s, hs, ha⟩
  rw [h.ownedIn] at ha
  rcases List.mem_filter.1 ha with ⟨howned, hway⟩
  refine List.mem_flatMap.2 ⟨s, hs, List.mem_filter.2 ⟨howned, ?_⟩⟩
  rcases Bool.and_eq_true_iff.1 hway with ⟨hblitz, hway⟩
  rcases (Option.any_eq_true _ _).1 hway with ⟨r, hr, hlength⟩
  -- where the way is clear with the new piece about, it is so without it
  have hclear : ∀ t, (b.atlas.isPassableLand t && !b'.hasEnemyForce t attacker) = true →
      (b.atlas.isPassableLand t && !b.hasEnemyForce t attacker) = true := by
    intro t ht
    rcases Bool.and_eq_true_iff.1 ht with ⟨hland, hnobody⟩
    rw [hland, Bool.true_and, Bool.not_eq_true', ← Bool.not_eq_true]
    intro hforce
    rw [h.force t hforce] at hnobody
    cases hnobody
  rcases Atlas.routeInto?_mono hm.neat hclear hr with ⟨r', hr', hshorter⟩
  rw [hblitz, Bool.true_and, hr', Option.any_some]
  exact decide_eq_true (Nat.le_trans hshorter (of_decide_eq_true hlength))

/-- More enemies about, no more offers. -/
theorem offers_subset (hm : b.atlas.IsDrawn) (c : Config) (location : TerritoryId) :
    Threat.offers b' c location attacker ⊆ Threat.offers b c location attacker := by
  have hblitzers := h.blitzers_subset hm c location
  unfold Threat.offers
  rw [h.neighbors_eq, h.ships_eq, h.landings_eq, h.aircraft_eq, h.atlas]
  intro a ha
  by_cases hwater : b.atlas.isWater location = true
  · rw [if_pos hwater] at ha ⊢
    exact ha
  · rw [if_neg hwater] at ha ⊢
    simp only [List.mem_append] at ha ⊢
    rcases ha with (hnext | hblitz | hlands) | hflies
    · exact .inl (.inl hnext)
    · exact .inl (.inr (.inl (hblitzers hblitz)))
    · exact .inl (.inr (.inr hlands))
    · exact .inr hflies

end Board.Reinforced

section Provenance

variable {b : Board} (hb : b.Indexed) {attacker : PlayerId} {a : Asset}
include hb

theorem asset?_of_mem_ownedIn {x : TerritoryId} (ha : a ∈ b.ownedIn x attacker) :
    b.asset? a.id = some a :=
  hb.asset?_of_mem (Board.mem_ownedIn.1 ha).1

theorem asset?_of_mem_fetchable {room : Nat} {coasts : List TerritoryId}
    (ha : a ∈ Threat.fetchable b attacker room coasts) : b.asset? a.id = some a := by
  induction coasts generalizing room with
  | nil => cases ha
  | cons coast coasts ih =>
    rcases List.mem_append.1 ha with hhere | hrest
    · have hloadable := (fillHold_sublist room _).subset hhere
      exact asset?_of_mem_ownedIn hb (List.mem_filter.1 (mem_sortBy.1 hloadable)).1
    · exact ih hrest

theorem asset?_of_mem_landings {location : TerritoryId}
    (ha : a ∈ Threat.landings b location attacker) : b.asset? a.id = some a := by
  unfold Threat.landings at ha
  dsimp only at ha
  split at ha
  · cases ha
  · rcases List.mem_flatMap.1 ha with ⟨zone, -, ha⟩
    rcases List.mem_flatMap.1 ha with ⟨ship, -, ha⟩
    unfold Threat.landedBy at ha
    dsimp only at ha
    split at ha
    · exact asset?_of_mem_fetchable hb ha
    · rcases List.mem_filterMap.1 ha with ⟨u, -, hu⟩
      rw [hb.id_asset hu]
      exact hu

/-- Whatever is offered stands on the board. -/
theorem asset?_of_mem_offers {c : Config} {location : TerritoryId}
    (ha : a ∈ Threat.offers b c location attacker) : b.asset? a.id = some a := by
  -- all offers but the landings are the attacker's pieces in some places
  have howned : ∀ (places : List TerritoryId) (wanted : TerritoryId → Asset → Bool),
      a ∈ (places.flatMap fun t => (b.ownedIn t attacker).filter (wanted t)) →
      b.asset? a.id = some a := by
    intro places wanted hmem
    rcases List.mem_flatMap.1 hmem with ⟨t, -, hmem⟩
    exact asset?_of_mem_ownedIn hb (List.mem_filter.1 hmem).1
  unfold Threat.offers at ha
  rcases List.mem_append.1 ha with ha | hflies
  · rcases List.mem_append.1 ha with hnext | hmain
    · exact howned _ _ hnext
    · split at hmain
      · exact howned _ _ hmain
      · rcases List.mem_append.1 hmain with hblitz | hlands
        · exact howned _ _ hblitz
        · exact asset?_of_mem_landings hb hlands
  · unfold Threat.aircraft at hflies
    dsimp only at hflies
    split at hflies
    · cases hflies
    · exact howned _ _ hflies

/-- The attackers are what is offered and not ignored. -/
theorem mem_potentialAttackers {c : Config} {location : TerritoryId} {ignore : List PieceId} :
    a ∈ potentialAttackers b c location attacker ignore ↔
      a ∈ Threat.offers b c location attacker ∧ a.id ∉ ignore := by
  have hmem : ∀ x : Asset, x ∈ (Threat.offers b c location attacker).filter
      (fun a => !ignore.contains a.id) ↔
      x ∈ Threat.offers b c location attacker ∧ x.id ∉ ignore := by
    intro x
    rw [List.mem_filter, Bool.not_eq_true', ← Bool.not_eq_true, List.contains_iff_mem]
  rw [← hmem]
  constructor
  · intro ha
    exact (eraseDupsBy_sublist _ _).subset ha
  · intro ha
    -- of the assets with its identifier one is kept, and it is the same
    rcases List.mem_map.1 (mem_ids_distinctAssets.2 (List.mem_map_of_mem ha)) with ⟨x, hx, hid⟩
    have hx' := (hmem x).1 ((eraseDupsBy_sublist _ _).subset hx)
    have heq := asset?_of_mem_offers hb hx'.1
    rw [hid, asset?_of_mem_offers hb ((hmem a).1 ha).1, Option.some.injEq] at heq
    exact heq ▸ hx

end Provenance

/-! ## Reinforcing -/

/-- A piece that is added anywhere for a player hostile to the attacker adds nobody to the
attackers of any location. -/
theorem potentialAttackers_addPiece (b : Board) (hm : b.atlas.IsDrawn) (hb : b.Indexed)
    (c : Config) (location : TerritoryId) (attacker : PlayerId) (ignore : List PieceId)
    (kind : KindId) (owner : PlayerId) (t : TerritoryId)
    (hhostile : b.isEnemy attacker owner = true) :
    potentialAttackers (b.addPiece kind owner t) c location attacker ignore ⊆
      potentialAttackers b c location attacker ignore := by
  have hmore := Board.reinforced_addPiece hb (Board.ne_of_isEnemy hhostile) kind t
  intro a ha
  rcases (mem_potentialAttackers (hb.addPiece kind owner t)).1 ha with ⟨hoffered, hwelcome⟩
  exact (mem_potentialAttackers hb).2 ⟨hmore.offers_subset hm c location hoffered, hwelcome⟩

/-- A tank of Blue behind an empty land of its own, next to a land of Red. -/
def clearPath : Scenario where
  players := [{ name := "Red" }, { name := "Blue", team := 1 }]
  territories := [
    { name := "Border", owner := some "Red" },
    { name := "March", owner := some "Blue" },
    { name := "Camp", owner := some "Blue" }]
  connections := [("Border", "March"), ("March", "Camp")]
  kinds := [
    { name := "infantry", attack := 1, defense := 2, cost := 3 },
    { name := "tank", attack := 3, defense := 3, movement := 2, cost := 6, canBlitz := true }]
  pieces := [{ kind := "tank", owner := "Blue", place := "Camp" }]

set_option maxRecDepth 100000 in
/-- The tank threatens the border, and no more when infantry of Red stands in its way. -/
theorem potentialAttackers_clearPath : ∃ h, clearPath.setUp = .ok h ∧
    h.board.isEnemy 1 0 = true ∧
    potentialAttackers (h.board.addPiece 0 0 1) {} 0 1 [] ⊆
      potentialAttackers h.board {} 0 1 [] ∧
    (potentialAttackers h.board {} 0 1 []).map (·.id) = [0] ∧
    potentialAttackers (h.board.addPiece 0 0 1) {} 0 1 [] = [] := by
  have hpass : (clearPath.setUp.toOption.any fun h => h.board.isEnemy 1 0 &&
      decide ((potentialAttackers h.board {} 0 1 []).map (·.id) = [0] ∧
        potentialAttackers (h.board.addPiece 0 0 1) {} 0 1 [] = [])) = true := by
    decide +kernel
  obtain ⟨h, hset, hfacts⟩ := Scenario.exists_setUp hpass
  rcases Bool.and_eq_true_iff.1 hfacts with ⟨hhostile, hdropped⟩
  refine ⟨h, hset, hhostile, ?_, of_decide_eq_true hdropped⟩
  exact potentialAttackers_addPiece h.board (Scenario.setUp_isDrawn hset)
    (Scenario.setUp_sound hset).indexed {} 0 1 [] 0 0 1 hhostile

end Conquest
