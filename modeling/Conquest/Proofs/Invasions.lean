import Mathlib.Data.Prod.Lex
import Conquest.Context
import Conquest.Proofs.Choice
import Conquest.Proofs.Landings

/-!
# The invasion that is prepared is the best one

An invasion is prepared where no enemy land can be reached over land from home. A fleet can be
launched next to home and next to every factory and lands from the zones next to enemy land. Launch
and landing are compared by the table of distances, the route between them is found by a search of
its own; the two agree, so an invasion is prepared whenever a fleet could sail at all, its route is
the shortest, and ties are broken by the production of the land and then by identifiers.

* `Board.Crosses`: from where to where a fleet could sail to invade.
* `mem_crossings_iff`: what is compared.
* `Crossing.order_eq_compare_key`: by what it is compared.
* `exists_route?_of_distance`: the route for a distance by sea.
* `refresh_invasion`: whether an invasion is prepared, and which.
-/

namespace Conquest

/-! ## Where a fleet could sail -/

namespace Board

/-- Where a player is at home: its capital if that is friendly land, otherwise the first territory
in which it holds a factory. -/
def home? (b : Board) (p : PlayerId) (capital : Option TerritoryId) : Option TerritoryId :=
  (capital.filter fun t => b.isFriendlyLand t p).or (b.factoriesOf p).head?

/-- A fleet of `p` can be launched in a zone next to its home or to a factory of its own, and it can
land on enemy land from a zone next to that. -/
structure Crosses (b : Board) (p : PlayerId) (home target launch landing : TerritoryId) :
    Prop where
  launch_isWater : b.atlas.isWater launch = true
  base : ∃ base, (base = home ∨
      ((b.territory base).owner = some p ∧ (b.territory base).hasFactory = true)) ∧
    b.atlas.isAdjacent base launch = true
  isEnemyLand : b.isEnemyLand target p = true
  landing_isWater : b.atlas.isWater landing = true
  landing_adjacent : b.atlas.isAdjacent target landing = true

end Board

/-- What a crossing is judged by: fewer steps are better, then more production, then lower
identifiers. -/
def Crossing.key (b : Board) (x : Crossing) : Nat ×ₗ Natᵒᵈ ×ₗ Nat ×ₗ Nat ×ₗ Nat :=
  toLex (x.distance, toLex (OrderDual.toDual (b.territory x.target).production,
    toLex (x.target, toLex (x.launch, x.landing))))

/-- Crossings are compared by their keys. -/
theorem Crossing.order_eq_compare_key (b : Board) (x y : Crossing) :
    Crossing.order b x y = compare (x.key b) (y.key b) := by
  rw [Crossing.order, Crossing.key, Crossing.key, compare_toLex, compare_toLex, compare_toLex,
    compare_toLex]
  rfl

theorem Crossing.key_le_iff {b : Board} {x y : Crossing} :
    x.key b ≤ y.key b ↔ x.distance < y.distance ∨ (x.distance = y.distance ∧
      ((b.territory y.target).production < (b.territory x.target).production ∨
        ((b.territory x.target).production = (b.territory y.target).production ∧
          (x.target < y.target ∨ (x.target = y.target ∧
            (x.launch < y.launch ∨ (x.launch = y.launch ∧ x.landing ≤ y.landing))))))) := by
  simp only [Crossing.key, Prod.Lex.toLex_le_toLex, OrderDual.toDual_lt_toDual,
    OrderDual.toDual_inj]

section Candidates

variable {b : Board} {p : PlayerId} {home : TerritoryId}

theorem mem_launchZones {bases : List TerritoryId} {z : TerritoryId} :
    z ∈ launchZones b bases ↔
      b.atlas.isWater z = true ∧ ∃ base ∈ bases, b.atlas.isAdjacent base z = true := by
  unfold launchZones
  simp only [List.mem_eraseDups, List.mem_flatMap, Atlas.shores, List.mem_filter,
    Atlas.mem_neighbors]
  constructor
  · rintro ⟨base, hbase, hnext, hwater⟩
    exact ⟨hwater, base, hbase, hnext⟩
  · rintro ⟨hwater, base, hbase, hnext⟩
    exact ⟨base, hbase, hnext, hwater⟩

theorem mem_enemyTerritories_iff (hm : b.atlas.Sound) {t : TerritoryId} :
    t ∈ b.enemyTerritories p ↔ b.isEnemyLand t p = true := by
  unfold Board.enemyTerritories
  rw [Board.mem_territoriesWhere hm]
  constructor
  · rintro ⟨hlt, henemy⟩
    rwa [show (b.territory t).id = t from hm.id_territory t hlt] at henemy
  · intro henemy
    have hlt := Board.lt_size_of_isEnemyLand henemy
    rw [show (b.territory t).id = t from hm.id_territory t hlt]
    exact ⟨hlt, henemy⟩

/-- What is compared are the crossings with their distances by sea. -/
theorem mem_crossings_iff (hm : b.atlas.Sound) {x : Crossing} :
    x ∈ crossings b (launchZones b (home :: b.factoriesOf p)) (b.enemyTerritories p) ↔
      b.Crosses p home x.target x.launch x.landing ∧
        b.atlas.distance .sea x.launch x.landing = some x.distance := by
  unfold crossings
  simp only [List.mem_flatMap, List.mem_filter, List.mem_filterMap, Option.map_eq_some_iff,
    mem_launchZones, mem_enemyTerritories_iff hm, List.mem_cons, Board.mem_factoriesOf hm,
    Atlas.shores, Atlas.mem_neighbors]
  constructor
  · rintro ⟨target, ⟨henemy, -⟩, landing, ⟨hnext, hland⟩, launch, ⟨hwater, hbase⟩, d, hd, rfl⟩
    exact ⟨⟨hwater, hbase, henemy, hland, hnext⟩, hd⟩
  · rintro ⟨hcross, hd⟩
    refine ⟨x.target, ⟨hcross.isEnemyLand, ?_⟩, x.landing,
      ⟨hcross.landing_adjacent, hcross.landing_isWater⟩, x.launch,
      ⟨hcross.launch_isWater, hcross.base⟩, x.distance, hd, rfl⟩
    -- enemy land is dry, and the landing zone makes it coastal
    have hdry : b.atlas.isWater x.target = false :=
      Territory.dry_of_isPassableLand (Bool.and_eq_true_iff.1 hcross.isEnemyLand).1
    rw [Atlas.isCoastal, hdry, Bool.not_false, Bool.true_and]
    exact List.any_eq_true.2
      ⟨x.landing, Atlas.mem_neighbors.2 hcross.landing_adjacent, hcross.landing_isWater⟩

end Candidates

/-! ## The route -/

/-- Between zones at a distance by sea the search finds a route of that length that stays on
water. -/
theorem exists_route?_of_distance {m : Atlas} (hm : m.Neat) {z w : TerritoryId} {d : Nat}
    (hwater : m.isWater z = true) (hd : m.distance .sea z w = some d) :
    ∃ r, m.route? z w m.isWater = some r ∧ m.IsWalk m.isWater z w r ∧ r.length = d ∧
      ∀ t ∈ r.territories, m.isWater t = true := by
  have hfirst : ∃ r, m.IsFirst m.isWater z w r ∧ r.length = d := by
    by_cases hne : z = w
    · subst hne
      rw [Atlas.distance_self, Option.some.injEq] at hd
      exact ⟨.stay z, Atlas.IsFirst.stay m m.isWater z, hd⟩
    · have hadmits : m.admits .sea z = true := hwater
      exact (Atlas.distance_eq_some_iff hm hne hadmits).1 hd
  rcases hfirst with ⟨r, hr, hlen⟩
  refine ⟨r, (Atlas.route?_eq_some_iff hm).2 hr, hr.isWalk, hlen, ?_⟩
  intro t ht
  rcases List.mem_cons.1 ht with rfl | ht
  · rw [hr.isWalk.start_eq]
    exact hwater
  · exact hr.isWalk.passable t ht

/-! ## The invasion -/

/-- What the invasion of a context is derived from. -/
theorem Context.invasion_refresh (b : Board) (c : Context) :
    (c.refresh b).invasion = (b.home? c.player c.capital).bind fun home =>
      findInvasion b c.player home (b.factoriesOf c.player) := by
  have hhome : (c.capital.filter fun _ => !c.capital.any fun t => !b.isFriendlyLand t c.player) =
      c.capital.filter fun t => b.isFriendlyLand t c.player := by
    cases c.capital with
    | none => rfl
    | some t => rw [Option.filter_some, Option.filter_some, Option.any_some, Bool.not_not]
  rw [Board.home?, ← hhome]
  rfl

/-- A route on water from a launch zone to a zone next to enemy land. No crossing takes fewer steps;
of those that take as many steps it leads to the richest land, and among these to the lowest
identifiers of land, launch zone and landing zone, in this order. -/
structure Board.Invades (b : Board) (p : PlayerId) (home target : TerritoryId) (r : Route) :
    Prop where
  crosses : b.Crosses p home target r.start r.dest
  walk : r.territories.IsChain (b.atlas.isAdjacent · · = true)
  water : ∀ t ∈ r.territories, b.atlas.isWater t = true
  distance : b.atlas.distance .sea r.start r.dest = some r.length
  shortest : ∀ target' launch landing d, b.Crosses p home target' launch landing →
    b.atlas.distance .sea launch landing = some d → r.length ≤ d
  preferred : ∀ target' launch landing, b.Crosses p home target' launch landing →
    b.atlas.distance .sea launch landing = some r.length →
    (b.territory target').production < (b.territory target).production ∨
      ((b.territory target).production = (b.territory target').production ∧
        (target < target' ∨ (target = target' ∧
          (r.start < launch ∨ (r.start = launch ∧ r.dest ≤ landing)))))

section Choice

variable {b : Board} {p : PlayerId} {home : TerritoryId}

theorem any_distance_eq_false_iff (hm : b.atlas.Sound) :
    ((b.enemyTerritories p).any fun e => (b.atlas.distance .land home e).isSome) = false ↔
      ∀ e, b.isEnemyLand e p = true → b.atlas.distance .land home e = none := by
  simp only [List.any_eq_false, mem_enemyTerritories_iff hm, Bool.not_eq_true,
    Option.isSome_eq_false_iff, Option.isNone_iff_eq_none]

/-- An invasion is found if and only if no enemy land can be reached over land and a fleet could
sail. -/
theorem isSome_findInvasion_iff (hm : b.atlas.Sound) (hneat : b.atlas.Neat) :
    (findInvasion b p home (b.factoriesOf p)).isSome = true ↔
      (∀ e, b.isEnemyLand e p = true → b.atlas.distance .land home e = none) ∧
      ∃ target launch landing w, b.Crosses p home target launch landing ∧
        b.atlas.IsWalk b.atlas.isWater launch landing w := by
  rw [← any_distance_eq_false_iff hm]
  unfold findInvasion
  dsimp only
  constructor
  · intro hsome
    split at hsome
    · cases hsome
    · rename_i hfar
      rw [Option.isSome_map] at hsome
      rcases Option.isSome_iff_exists.1 hsome with ⟨x, hx⟩
      rcases (mem_crossings_iff hm).1 (mem_of_firstLeast? hx) with ⟨hcross, hd⟩
      rcases exists_route?_of_distance hneat hcross.launch_isWater hd with ⟨r, -, hwalk, -⟩
      exact ⟨Bool.eq_false_iff.2 hfar, x.target, x.launch, x.landing, r, hcross, hwalk⟩
  · rintro ⟨hfar, target, launch, landing, w, hcross, hwalk⟩
    have hadmits : b.atlas.admits .sea launch = true := hcross.launch_isWater
    rcases Atlas.distance_le hneat hadmits hwalk with ⟨d, hd, -⟩
    have hmem := (mem_crossings_iff hm (x := ⟨d, target, launch, landing⟩)).2 ⟨hcross, hd⟩
    rcases exists_firstLeast? hmem with ⟨best, hbest⟩
    rw [hfar, if_neg Bool.false_ne_true, hbest]
    rfl

/-- The invasion that is found is the best. -/
theorem exists_invades_of_findInvasion (hm : b.atlas.Sound) (hneat : b.atlas.Neat) {i : Invasion}
    (hi : findInvasion b p home (b.factoriesOf p) = some i) :
    ∃ r, i.route = some r ∧ b.Invades p home i.target r := by
  unfold findInvasion at hi
  dsimp only at hi
  split at hi
  · cases hi
  · rcases Option.map_eq_some_iff.1 hi with ⟨x, hx, rfl⟩
    rcases (mem_crossings_iff hm).1 (mem_of_firstLeast? hx) with ⟨hcross, hd⟩
    rcases exists_route?_of_distance hneat hcross.launch_isWater hd with
      ⟨r, hr, hwalk, hlen, hwater⟩
    have hstart := hwalk.start_eq
    have hdest := hwalk.dest_eq
    -- the crossing that is chosen has the least key, first by length
    have hleast : ∀ target launch landing d, b.Crosses p home target launch landing →
        b.atlas.distance .sea launch landing = some d →
        x.key b ≤ (Crossing.mk d target launch landing).key b := by
      intro target launch landing d hcross' hd'
      have hle := firstLeast?_ne_gt (fun x _ y _ => Crossing.order_eq_compare_key b x y) hx
        ⟨d, target, launch, landing⟩ ((mem_crossings_iff hm).2 ⟨hcross', hd'⟩)
      rwa [Crossing.order_eq_compare_key, compare_le_iff_le] at hle
    refine ⟨r, hr, ?_⟩
    constructor
    · rw [hstart, hdest]
      exact hcross
    · exact hwalk.walk
    · exact hwater
    · rw [hstart, hdest, hlen]
      exact hd
    · intro target launch landing d hcross' hd'
      rw [hlen]
      rcases Crossing.key_le_iff.1 (hleast target launch landing d hcross' hd') with hlt | ⟨heq, -⟩
      · exact Nat.le_of_lt hlt
      · exact Nat.le_of_eq heq
    · intro target launch landing hcross' hd'
      rw [hstart, hdest]
      rcases Crossing.key_le_iff.1 (hleast target launch landing r.length hcross' hd') with
        hlt | ⟨-, hrest⟩
      · exact absurd hlen (Nat.ne_of_gt hlt)
      · exact hrest

end Choice

/-- On every board whose map is drawn and has each territory at its identifier, and whatever the
context was before: an invasion is prepared if and only if the player is at home somewhere, no enemy
land can be reached over land from there, and some launch zone is joined by water to a zone next to
enemy land. Its route is the best of all. -/
theorem refresh_invasion (b : Board) (hdrawn : b.atlas.IsDrawn)
    (hids : ∀ t < b.atlas.size, (b.territory t).id = t) (c : Context) :
    ((c.refresh b).invasion.isSome = true ↔
      ∃ home, b.home? c.player c.capital = some home ∧
        (∀ e, b.isEnemyLand e c.player = true → b.atlas.distance .land home e = none) ∧
        ∃ target launch landing w, b.Crosses c.player home target launch landing ∧
          b.atlas.IsWalk b.atlas.isWater launch landing w) ∧
    ∀ i, (c.refresh b).invasion = some i →
      ∃ home r, b.home? c.player c.capital = some home ∧ i.route = some r ∧
        b.Invades c.player home i.target r := by
  have hneat := hdrawn.neat
  have hm : b.atlas.Sound := { hneat.toLinked with id_territory := hids }
  rw [c.invasion_refresh b]
  constructor
  · -- who is at home nowhere prepares nothing
    cases hhome : b.home? c.player c.capital with
    | none =>
      constructor
      · intro hsome
        cases hsome
      · rintro ⟨home, hnone, -⟩
        cases hnone
    | some home =>
      rw [Option.bind_some, isSome_findInvasion_iff hm hneat]
      constructor
      · intro hfound
        exact ⟨home, rfl, hfound⟩
      · rintro ⟨home', hsame, hfound⟩
        cases hsame
        exact hfound
  · intro i hi
    rcases Option.bind_eq_some_iff.1 hi with ⟨home, hhome, hfound⟩
    rcases exists_invades_of_findInvasion hm hneat hfound with ⟨r, hr, hinvades⟩
    exact ⟨home, r, hhome, hr, hinvades⟩

/-- An island of Red between two islands of Blue that are equally far away; the second one has
more production. -/
def archipelago : Scenario where
  players := [{ name := "Red", capital := some "Home" }, { name := "Blue", team := 1 }]
  territories := [
    { name := "Home", owner := some "Red", factory := true },
    { name := "Bay", water := true },
    { name := "West", water := true },
    { name := "East", water := true },
    { name := "Atoll", owner := some "Blue", production := 1 },
    { name := "Shore", owner := some "Blue", production := 2 }]
  connections := [("Home", "Bay"), ("Bay", "West"), ("Bay", "East"), ("West", "Atoll"),
    ("East", "Shore")]
  kinds := [{ name := "infantry", attack := 1, defense := 2, cost := 3 }]

set_option maxRecDepth 100000 in
/-- The richer island is to be invaded, from the bay through the eastern zone. -/
theorem refresh_invasion_archipelago : ∃ h, archipelago.setUp = .ok h ∧
    h.board.atlas.IsDrawn ∧ (∀ t < h.board.atlas.size, (h.board.territory t).id = t) ∧
    (Context.build h.board 0 {}).invasion = some ⟨5, some (.step 1 3)⟩ ∧
    h.board.Invades 0 0 5 (.step 1 3) := by
  have hpass : (archipelago.setUp.toOption.any fun h =>
      decide ((Context.build h.board 0 {}).invasion = some ⟨5, some (.step 1 3)⟩ ∧
        h.board.home? 0 (h.board.player 0).capital = some 0)) = true := by
    decide +kernel
  obtain ⟨h, hset, hfacts⟩ := Scenario.exists_setUp hpass
  obtain ⟨hinvasion, hhome⟩ := of_decide_eq_true hfacts
  have hdrawn := Scenario.setUp_isDrawn hset
  have hids := (Scenario.setUp_sound hset).atlas.id_territory
  obtain ⟨home, r, hhome', hr, hinvades⟩ :=
    (refresh_invasion h.board hdrawn hids _).2 _ hinvasion
  cases hr
  cases hhome.symm.trans hhome'
  exact ⟨h, hset, hdrawn, hids, hinvasion, hinvades⟩

end Conquest
