import Conquest.Proofs.Berths

/-!
# Orderly positions

A scenario where only ships have cargo space and ships are listed at sea sets up every piece in its
element: what stands by itself is put on the board first, and cargo comes aboard as it is put there.

* `Scenario.setUp_berthed`: the position that a game starts with.
* `Scenario.play_orderly`: the positions that it comes to; `Scenario.play_overloaded`: the room
  aboard is kept only as long as no sum wraps around.
-/

namespace Conquest

namespace Scenario

open Board Table

variable {s : Scenario} {b b' : Board} {d : Deployment}

/-! ## Setting up -/

/-- A land piece that comes aboard a transport at sea with room for it. -/
theorem berthed_addCargo {carrier : PieceId} (hb : b.Berthed True) (ht : d.territory < b.atlas.size)
    (hland : (b.kind d.kind).isLand = true) (hwater : b.atlas.isWater d.territory = true)
    (hcarrier : carrierFor? b d = some carrier) : (addCargo b d carrier).Berthed True := by
  obtain ⟨hsound, hground⟩ := addCargo_keeps hb.sound ht hland hcarrier
  obtain ⟨q, hq, -, -, htransport, hfits⟩ := carrierFor?_ok hb.sound hcarrier
  have hsea := (PieceKind.carriesCargo_iff.1 (PieceKind.carriesCargo_of_isTransport htransport)).1
  refine hb.push (pieces_addCargo b d carrier) rfl hsound hground ⟨fun _ => hwater, ?_⟩ ?_
  · intro _
    simp [hwater]
  · intro c hc
    cases hc
    exact ⟨q, hq, room_of_freeCapacity hb.sound hq hsea (hb.room trivial carrier q hq) hfits⟩

/-- A kind that is found by name is the one of that name, numbered. -/
theorem kind_of_find (hkinds : b.kinds = s.catalogue) {name : String} {k : KindId}
    (hk : s.find .kinds name = .ok k) :
    ∃ kind ∈ s.kinds, kind.name = name ∧ b.kind k = { kind with id := k } := by
  have hget : (s.kinds.map (·.name))[k]? = some name := getElem?_of_find hk
  rw [List.getElem?_map, Option.map_eq_some_iff] at hget
  obtain ⟨kind, hkind, hname⟩ := hget
  exact ⟨kind, List.mem_of_getElem? hkind, hname, kind_of_getElem? hkinds hkind⟩

/-- A territory that is found by name is on the map and as wet as described. -/
theorem isWater_of_find {m : Atlas} (hmap : s.MapOf m) {name : String} {t : TerritoryId}
    (ht : s.find .territories name = .ok t) :
    t < m.size ∧ ∃ land ∈ s.territories, land.name = name ∧ m.isWater t = land.water := by
  have hget : (s.territories.map (·.name))[t]? = some name := getElem?_of_find ht
  rw [List.getElem?_map, Option.map_eq_some_iff] at hget
  obtain ⟨land, hland, hname⟩ := hget
  have hlt : t < m.size := by
    rw [hmap.size]
    exact (List.getElem?_eq_some_iff.1 hland).1
  obtain ⟨land', hland', hwater, -⟩ := hmap.spec t hlt
  rw [hland, Option.some.injEq] at hland'
  subst hland'
  exact ⟨hlt, land, List.mem_of_getElem? hland, hname, hwater⟩

section Ground

variable {empty : Board} {spec : PieceSpec}

/-- What stands by itself is set up in its element if ships are listed at sea. -/
theorem berthed_placed (hb : b.Berthed True) (hmap : s.MapOf empty.atlas)
    (hkinds : empty.kinds = s.catalogue) (hground : empty.SameGround b)
    (hports : ∀ kind ∈ s.kinds, kind.name = spec.kind → kind.isSea = true →
      ∀ land ∈ s.territories, land.name = spec.place → land.water = true)
    (hlists : s.listsCargo empty spec = false) (hd : s.deployment spec = .ok d) :
    (b.addPiece d.kind d.owner d.territory).Berthed True := by
  obtain ⟨hk, ht⟩ := deployment_ok hd
  obtain ⟨kind, hkind, hkname, hkeq⟩ := kind_of_find hkinds hk
  obtain ⟨hlt, land, hland, hlname, hwater⟩ := isWater_of_find hmap ht
  refine hb.addPiece d.kind d.owner (hground.size ▸ hlt) ?_ ?_
  · intro hsea
    rw [hground.kind, hkeq] at hsea
    rw [hground.isWater, hwater]
    exact hports kind hkind hkname hsea land hland hlname
  · intro hisLand
    rw [hground.kind] at hisLand
    rw [hground.isWater]
    rw [listsCargo_eq hd, hisLand, Bool.true_and] at hlists
    exact hlists

/-- Cargo of a scenario is stowed where there is room for it. -/
theorem berthed_loaded {carrier : PieceId} (hb : b.Berthed True) (hmap : s.MapOf empty.atlas)
    (hground : empty.SameGround b) (hlists : s.listsCargo empty spec = true)
    (hd : s.deployment spec = .ok d) (hcarrier : carrierFor? b d = some carrier) :
    (addCargo b d carrier).Berthed True := by
  have hlt := (isWater_of_find hmap (deployment_ok hd).2).1
  rw [listsCargo_eq hd, Bool.and_eq_true] at hlists
  refine berthed_addCargo hb (hground.size ▸ hlt) ?_ ?_ hcarrier
  · rw [hground.kind]
    exact hlists.1
  · rw [hground.isWater]
    exact hlists.2

end Ground

/-- Without pieces nothing is out of its element or over its room. -/
theorem berthed_emptyBoard {empty : Board}
    (hships : ∀ kind ∈ s.kinds, 0 < kind.transportCapacity → kind.isSea = true)
    (hempty : s.emptyBoard = .ok empty) : empty.Berthed True := by
  obtain ⟨hsound, -, hkinds⟩ := sound_emptyBoard hempty
  have hnone : ∀ u q, empty.piece? u ≠ some q := by simp [piece?_emptyBoard hempty]
  refine ⟨⟨hsound, ?_, ?_⟩, ?_⟩
  · intro k hk
    rcases kind_of_catalogue hkinds k with hdefault | ⟨kind, hkind, heq⟩
    · rw [hdefault] at hk
      cases hk
    · rw [heq] at hk ⊢
      exact hships kind hkind hk
  · intro u q hq
    exact absurd hq (hnone u q)
  · intro _ c s' hs'
    exact absurd hs' (hnone c s')

/-- A scenario sets up its pieces in their element. -/
theorem setUp_berthed {h : Table} (hset : s.setUp = .ok h)
    (hships : ∀ kind ∈ s.kinds, 0 < kind.transportCapacity → kind.isSea = true)
    (hports : ∀ spec ∈ s.pieces, ∀ kind ∈ s.kinds, kind.name = spec.kind → kind.isSea = true →
      ∀ land ∈ s.territories, land.name = spec.place → land.water = true) :
    h.board.Berthed True := by
  obtain ⟨empty, hempty, hall⟩ := board_forall (setUp_board hset).1
  obtain ⟨-, hmap, hkinds⟩ := sound_emptyBoard hempty
  have hboth : h.board.Berthed True ∧ empty.SameGround h.board := by
    apply hall (fun b => b.Berthed True ∧ empty.SameGround b)
      ⟨berthed_emptyBoard hships hempty, .refl empty⟩
    · intro spec hspec hlists d hd b hb
      exact ⟨berthed_placed hb.1 hmap hkinds hb.2 (hports spec hspec) hlists hd,
        hb.2.trans (.of_eq rfl rfl rfl rfl)⟩
    · intro spec _ hlists d hd b carrier hb hcarrier
      exact ⟨berthed_loaded hb.1 hmap hb.2 hlists hd hcarrier,
        hb.2.trans (.of_eq rfl rfl rfl rfl)⟩
  exact hboth.1

end Scenario

/-! ## Positions of a game -/

/-- An orderly position: the garrisons list every piece once, where it stands, and nothing else;
ships are at sea, and land pieces are at sea just while they are aboard; what is aboard is with its
owner's ship and in its place. -/
structure Board.Orderly (b : Board) : Prop where
  once : ∀ u q, b.piece? u = some q → ∀ t,
    (b.garrison t).count u = if t = q.territory then 1 else 0
  known : ∀ t, ∀ u ∈ b.garrison t, ∃ q, b.piece? u = some q
  ship : ∀ u q, b.piece? u = some q → (b.kind q.kind).isSea = true →
    b.atlas.isWater q.territory = true
  land : ∀ u q, b.piece? u = some q → (b.kind q.kind).isLand = true →
    (b.atlas.isWater q.territory = true ↔ ∃ c, q.carrier = some c)
  cargo : ∀ u q c, b.piece? u = some q → q.carrier = some c → ∃ s, b.piece? c = some s ∧
    s.owner = q.owner ∧ s.territory = q.territory ∧ (b.kind s.kind).isSea = true ∧
    s.carrier = none

theorem Board.Placed.orderly {b : Board} (hb : b.Placed) : b.Orderly := by
  constructor
  · intro u q hq t
    refine hb.sound.count u q hq ?_ t
    -- whatever carries is a ship, so the place of every piece is certain
    intro c s hc hs
    obtain ⟨s₀, hs₀, hsea, -⟩ := hb.isSea_of_carrier hq hc
    rw [hs, Option.some.injEq] at hs₀
    exact hs₀ ▸ hsea
  · intro t u hu
    exact piece?_of_lt (hb.sound.garrison_lt t u hu)
  · intro u q hq
    exact (hb.place u q hq).ship
  · intro u q hq hland
    rw [(hb.place u q hq).land hland, Option.isSome_iff_exists]
  · intro u q c hq hc
    obtain ⟨s, hs, hsea, hcarries⟩ := hb.isSea_of_carrier hq hc
    have hnone := hb.sound.carrier_eq_none hs (PieceKind.isLand_eq_false_of_isSea hsea)
    exact ⟨s, hs, hcarries.owner, hcarries.place hsea, hsea, hnone⟩

namespace Scenario

open Table

/-- Every position of a game is orderly, whatever commands were given and taken, if only ships have
cargo space and ships are listed at sea. A ship carries no more than it has room for as long as no
sum of the game wraps around. -/
theorem play_orderly (s : Scenario) (h : Table) (hset : s.setUp = .ok h)
    (hships : ∀ kind ∈ s.kinds, 0 < kind.transportCapacity → kind.isSea = true)
    (hports : ∀ spec ∈ s.pieces, ∀ kind ∈ s.kinds, kind.name = spec.kind → kind.isSea = true →
      ∀ land ∈ s.territories, land.name = spec.place → land.water = true)
    (commands : List Command) :
    (h.play commands).board.Orderly ∧
      (h.isInRange commands = true → ∀ c q, (h.play commands).board.piece? c = some q →
        cargoCost (h.play commands).board ((h.play commands).board.aboard c) ≤
          ((h.play commands).board.kind q.kind).transportCapacity) := by
  have hb := play_berthed (setUp_berthed hset hships hports) commands
  exact ⟨hb.orderly, fun hrange => hb.room ⟨trivial, hrange⟩⟩

/-- Three infantry wait ashore for a transport that has room for two of them. -/
def islandFerry : Scenario where
  players := [{ name := "Red" }]
  territories := [
    { name := "Home", owner := some "Red" }, { name := "Isle", owner := some "Red" },
    { name := "Bay", water := true }, { name := "Strait", water := true }]
  connections := [("Home", "Bay"), ("Bay", "Strait"), ("Strait", "Isle")]
  kinds := [
    { name := "infantry", cost := 3, transportCost := 2 },
    { name := "transport", domain := .sea, movement := 2, cost := 7, transportCapacity := 4 }]
  pieces := [
    { kind := "transport", owner := "Red", place := "Bay" },
    { kind := "infantry", owner := "Red", place := "Home", count := 3 }]

/-- The first order names a piece twice, the third finds no room, and the last sends the ship round
in a loop. -/
def crowding : List Command := [
  .move 0 { pieces := [1, 1], route := .step 0 2, action := .load 0 },
  .move 0 { pieces := [2], route := .step 0 2, action := .load 0 },
  .move 0 { pieces := [3], route := .step 0 2, action := .load 0 },
  .move 0 { pieces := [0], route := ⟨2, [3, 2]⟩, action := .move }]

set_option maxRecDepth 100000 in
/-- Two of the infantry are then aboard, which is all that there is room for, and the third is where
it was. -/
theorem play_orderly_islandFerry : ∃ h, islandFerry.setUp = .ok h ∧
    (h.play crowding).board.Orderly ∧ (h.play crowding).board.garrison 0 = [3] ∧
    (h.play crowding).board.garrison 2 = [0, 1, 2] ∧ (h.play crowding).board.aboard 0 = [1, 2] ∧
    cargoCost (h.play crowding).board [1, 2] ≤ 4 := by
  have hpass : islandFerry.setUp.toOption.any (fun h =>
      h.isInRange crowding && ((h.play crowding).board.piece? 0).any (·.kind == 1) &&
      decide (((h.play crowding).board.kind 1).transportCapacity = 4 ∧
        (h.play crowding).board.garrison 0 = [3] ∧
        (h.play crowding).board.garrison 2 = [0, 1, 2] ∧
        (h.play crowding).board.aboard 0 = [1, 2])) = true := by
    decide +kernel
  obtain ⟨h, hset, hcheck⟩ := exists_setUp hpass
  simp only [Bool.and_eq_true, decide_eq_true_eq] at hcheck
  obtain ⟨⟨hrange, hferry⟩, hcapacity, hleft, hbay, haboard⟩ := hcheck
  obtain ⟨horderly, hroom⟩ := play_orderly islandFerry h hset (by decide) (by decide) crowding
  obtain ⟨q, hq, hkind⟩ := (Option.any_eq_true _ _).1 hferry
  have hfits := hroom hrange 0 q hq
  rw [haboard, beq_iff_eq.1 hkind, hcapacity] at hfits
  exact ⟨h, hset, horderly, hleft, hbay, haboard, hfits⟩

/-- Two pieces that take up half of all words each wait for a ship that has room for five units. -/
def heavyFreight : Scenario where
  players := [{ name := "Red" }]
  territories := [{ name := "Home", owner := some "Red" }, { name := "Bay", water := true }]
  connections := [("Home", "Bay")]
  kinds := [
    { name := "colossus", transportCost := 2147483648 },
    { name := "freighter", domain := .sea, movement := 2, transportCapacity := 5 }]
  pieces := [
    { kind := "freighter", owner := "Red", place := "Bay" },
    { kind := "colossus", owner := "Red", place := "Home", count := 2 }]

/-- Both are loaded at once. -/
def overloading : List Command :=
  [.move 0 { pieces := [1, 2], route := .step 0 1, action := .load 0 }]

set_option maxRecDepth 100000 in
/-- What they take up together wraps around to nothing, so both are taken aboard. -/
theorem play_overloaded : ∃ h, heavyFreight.setUp = .ok h ∧
    (∀ kind ∈ heavyFreight.kinds, 0 < kind.transportCapacity → kind.isSea = true) ∧
    (∀ spec ∈ heavyFreight.pieces, ∀ kind ∈ heavyFreight.kinds, kind.name = spec.kind →
      kind.isSea = true → ∀ land ∈ heavyFreight.territories, land.name = spec.place →
        land.water = true) ∧
    (h.play overloading).board.aboard 0 = [1, 2] ∧
    cargoCost (h.play overloading).board [1, 2] = 4294967296 ∧
    ((h.play overloading).board.asset? 0).map (·.kind.transportCapacity) = some 5 := by
  have hpass : heavyFreight.setUp.toOption.any (fun h => decide (
      (h.play overloading).board.aboard 0 = [1, 2] ∧
      cargoCost (h.play overloading).board [1, 2] = 4294967296 ∧
      ((h.play overloading).board.asset? 0).map (·.kind.transportCapacity) = some 5)) = true := by
    decide +kernel
  obtain ⟨h, hset, hcheck⟩ := exists_setUp hpass
  exact ⟨h, hset, by decide, by decide, of_decide_eq_true hcheck⟩

end Scenario

end Conquest
