import Conquest.Landing
import Conquest.Proofs.Distances
import Conquest.Proofs.Magnitude
import Conquest.Proofs.Play

/-!
# Aircraft that can land find the best place for it

Whether an aircraft can land is asked of the territories within its reach, the way to land is chosen
among the routes to them. Both accept the same places, so an aircraft that can land finds a way, and
the way leads to the least threatened place, among these to the nearest, and among these to the one
with the lowest identifier.

* `Board.LandsBy`: a walk on which an aircraft can go and land.
* `canLandNear_iff`, `mem_landingSpots_iff`: what the question and the choice look at.
* `order_eq_compare_key`, `best_landingSpot`: places are compared by threat, distance and
  identifier, and the one that is chosen is no worse than any other.
* `landingFor_best`: the way that is found is the best of all.
-/

namespace Conquest

/-! ## Drawn maps -/

namespace Board

/-- Whatever stays on the ground leaves a drawn map a drawn one. -/
theorem SameGround.isDrawn {b b' : Board} (h : b.SameGround b') (hb : b.atlas.IsDrawn) :
    b'.atlas.IsDrawn := by
  rcases hb with ⟨ts, links, hadjacency, hsize⟩
  exact ⟨ts, links, h.adjacency.trans hadjacency, h.size.trans hsize⟩

end Board

/-- The map of a scenario is drawn, connection by connection. -/
theorem Scenario.atlas_isDrawn {s : Scenario} {m : Atlas} (h : s.atlas = .ok m) : m.IsDrawn := by
  unfold Scenario.atlas at h
  rcases bind_eq_ok.1 h with ⟨lands, -, hconnect⟩
  refine foldlM_keeps (Q := Atlas.IsDrawn) ?_ (Atlas.isDrawn_ofTerritories _) hconnect
  intro pair _ m₁ m₂ hm₁ hstep
  rcases Scenario.connect_ok hstep with ⟨a, b, -, -, rfl⟩
  exact hm₁.connect a b

/-- The map of every board that a scenario sets up is drawn. -/
theorem Scenario.setUp_isDrawn {s : Scenario} {h : Table} (hset : s.setUp = .ok h) :
    h.board.atlas.IsDrawn := by
  rcases board_keeps (setUp_board hset).1 with ⟨empty, hempty, -, hground⟩
  rcases Scenario.emptyBoard_ok hempty with ⟨m, players, hm, -, rfl⟩
  exact hground.isDrawn (Scenario.atlas_isDrawn hm)

/-! ## Places to land -/

/-- A walk from `t` on which an aircraft of `p` with some movement left can fly to `l`, over
whatever is not impassable, and land there: on friendly land that was not captured this turn. -/
structure Board.LandsBy (b : Board) (p : PlayerId) (t : TerritoryId) (left : Nat)
    (l : TerritoryId) (w : Route) : Prop where
  walk : b.atlas.IsWalk b.atlas.isOpen t l w
  length_le : w.length ≤ left
  friendly : b.isFriendlyLand l p = true
  unconquered : b.isConquered l = false

theorem isLandable_iff {b : Board} {p : PlayerId} {l : TerritoryId} :
    b.isLandable p l = true ↔ b.isFriendlyLand l p = true ∧ b.isConquered l = false := by
  rw [Board.isLandable, Bool.and_eq_true, Bool.not_eq_true']

section Places

variable {b : Board} {c : Context} {a : Asset} {p : PlayerId} {t l : TerritoryId} {left : Nat}

/-- The start counts as within reach; then within reach is where a first route of so many steps
leads. -/
theorem mem_reach_iff {m : Atlas} (hm : m.Neat) {passable : TerritoryId → Bool} :
    l ∈ t :: m.neighborsWithin t left passable ↔
      ∃ r, m.IsFirst passable t l r ∧ r.length ≤ left := by
  rw [List.mem_cons, Atlas.mem_neighborsWithin_iff hm]
  constructor
  · rintro (rfl | ⟨-, hr⟩)
    · exact ⟨.stay l, Atlas.IsFirst.stay m passable l, Nat.zero_le left⟩
    · exact hr
  · intro hr
    by_cases hl : l = t
    · exact .inl hl
    · exact .inr ⟨hl, hr⟩

/-- An aircraft can land near if some walk leads it to a place to land. -/
theorem canLandNear_iff (hm : b.atlas.Neat) :
    canLandNear b p t left = true ↔ ∃ l w, b.LandsBy p t left l w := by
  have hany : canLandNear b p t left =
      (t :: b.atlas.neighborsWithin t left b.atlas.isOpen).any (b.isLandable p) := by
    rw [canLandNear, List.any_cons]
  rw [hany, List.any_eq_true]
  constructor
  · rintro ⟨l, hl, hland⟩
    rcases (mem_reach_iff hm).1 hl with ⟨r, hr, hle⟩
    rcases isLandable_iff.1 hland with ⟨hfriendly, hunconquered⟩
    exact ⟨l, r, hr.isWalk, hle, hfriendly, hunconquered⟩
  · rintro ⟨l, w, hw, hle, hfriendly, hunconquered⟩
    rcases Atlas.exists_isFirst hm hw with ⟨r, hr⟩
    exact ⟨l, (mem_reach_iff hm).2 ⟨r, hr, Nat.le_trans (hr.length_le hw) hle⟩,
      isLandable_iff.2 ⟨hfriendly, hunconquered⟩⟩

/-- The choice is among the first routes to all places to land. -/
theorem mem_landingSpots_iff (hm : b.atlas.Neat) {s : LandingSpot} :
    s ∈ landingSpots b c a ↔
      b.LandsBy c.player a.piece.territory a.piece.movementLeft s.route.dest s.route ∧
      b.atlas.IsFirst b.atlas.isOpen a.piece.territory s.route.dest s.route ∧
      s.threat = c.threat b s.route.dest := by
  unfold landingSpots
  rw [List.mem_filterMap]
  simp only [List.mem_filter, mem_reach_iff hm, Option.map_eq_some_iff, Option.filter_eq_some_iff,
    decide_eq_true_eq, Atlas.route?_eq_some_iff hm]
  constructor
  · rintro ⟨l, ⟨-, hland⟩, r, ⟨hr, hle⟩, rfl⟩
    have hdest := hr.isWalk.dest_eq
    rcases isLandable_iff.1 hland with ⟨hfriendly, hunconquered⟩
    rw [← hdest] at hr hfriendly hunconquered
    exact ⟨⟨hr.isWalk, hle, hfriendly, hunconquered⟩, hr, congrArg (c.threat b) hdest.symm⟩
  · rintro ⟨hlands, hr, hthreat⟩
    refine ⟨s.route.dest, ⟨⟨s.route, hr, hlands.length_le⟩,
      isLandable_iff.2 ⟨hlands.friendly, hlands.unconquered⟩⟩, s.route, ⟨hr, hlands.length_le⟩, ?_⟩
    rw [← hthreat]

/-- Whatever place an aircraft can land at is one of those to choose from, with a route no longer than
any walk there. -/
theorem exists_landingSpot (hm : b.atlas.Neat) {w : Route}
    (hlands : b.LandsBy c.player a.piece.territory a.piece.movementLeft l w) :
    ∃ s ∈ landingSpots b c a,
      s.threat = c.threat b l ∧ s.route.dest = l ∧ s.route.length ≤ w.length := by
  rcases Atlas.exists_isFirst hm hlands.walk with ⟨v, hv⟩
  have hdest := hv.isWalk.dest_eq
  have hle := hv.length_le hlands.walk
  refine ⟨⟨c.threat b l, v⟩, (mem_landingSpots_iff hm).2 ⟨?_, hdest.symm ▸ hv, ?_⟩, rfl, hdest, hle⟩
  · exact hdest.symm ▸ ⟨hv.isWalk, Nat.le_trans hle hlands.length_le, hlands.friendly,
      hlands.unconquered⟩
  · exact congrArg (c.threat b) hdest.symm

/-! ## The best place -/

/-- What a place to land is judged by: its threat, its distance and its identifier. -/
def LandingSpot.key (s : LandingSpot) : (Int ×ₗ Int ×ₗ Int) ×ₗ Nat ×ₗ Nat :=
  toLex (Binary32.place s.threat, toLex (s.route.length, s.route.dest))

/-- Where threats are numbers, places are compared by their keys. -/
theorem order_eq_compare_key {x y : LandingSpot} (hx : x.threat.isNaN = false)
    (hy : y.threat.isNaN = false) : LandingSpot.order x y = compare x.key y.key := by
  rw [LandingSpot.order, LandingSpot.key, LandingSpot.key, compare_toLex, compare_toLex,
    Binary32.order_eq_compare_place hx hy]

/-- A place that is not greater than another one is no more threatened, no farther away at the same
threat, and of no higher identifier at the same threat and distance. -/
theorem of_order_ne_gt {x y : LandingSpot} (hx : x.threat.isNaN = false)
    (hy : y.threat.isNaN = false) (h : LandingSpot.order x y ≠ .gt) :
    ¬ y.threat < x.threat ∧ ((y.threat == x.threat) = true →
      x.route.length ≤ y.route.length ∧
        (x.route.length = y.route.length → x.route.dest ≤ y.route.dest)) := by
  rw [LandingSpot.order, Binary32.order_eq_compare_place hx hy] at h
  rw [Binary32.lt_iff_place_lt hy hx, Binary32.beq_iff_place_eq hy hx]
  constructor
  · intro hlt
    rw [compare_gt_iff_gt.2 hlt] at h
    exact h rfl
  · intro hsame
    rw [compare_eq_iff_eq.2 hsame.symm, Ordering.eq_then] at h
    refine ⟨?_, fun hlen => ?_⟩
    · by_contra hlt
      rw [compare_gt_iff_gt.2 (Nat.lt_of_not_le hlt)] at h
      exact h rfl
    · rw [compare_eq_iff_eq.2 hlen, Ordering.eq_then, compare_le_iff_le] at h
      exact h

/-- Where threats are numbers, the place that is chosen is no worse than any other. -/
theorem best_landingSpot (hnumber : ∀ s ∈ landingSpots b c a, s.threat.isNaN = false)
    {best s : LandingSpot} (hbest : firstLeast? LandingSpot.order (landingSpots b c a) = some best)
    (hs : s ∈ landingSpots b c a) :
    ¬ s.threat < best.threat ∧ ((s.threat == best.threat) = true →
      best.route.length ≤ s.route.length ∧
        (best.route.length = s.route.length → best.route.dest ≤ s.route.dest)) := by
  have hleast : LandingSpot.order best s ≠ .gt :=
    @firstLeast?_ne_gt _ _ _ LandingSpot.order LandingSpot.key _
      (fun x hx y hy => order_eq_compare_key (hnumber x hx) (hnumber y hy)) best hbest s hs
  exact of_order_ne_gt (hnumber best (mem_of_firstLeast? hbest)) (hnumber s hs) hleast

/-- A way to land is found if and only if the aircraft can land near. -/
theorem isSome_landingFor?_iff (hm : b.atlas.Neat) :
    (landingFor? b c a).isSome = true ↔
      canLandNear b c.player a.piece.territory a.piece.movementLeft = true := by
  unfold landingFor?
  constructor
  · intro hsome
    by_contra hcannot
    rw [if_neg hcannot] at hsome
    cases hsome
  · intro hcan
    rcases (canLandNear_iff hm).1 hcan with ⟨l, w, hlands⟩
    rcases exists_landingSpot hm hlands with ⟨s, hs, -⟩
    rcases exists_firstLeast? hs with ⟨best, hbest⟩
    rw [if_pos hcan, hbest]
    rfl

end Places

/-- On every board with a drawn map a way to land is found for an aircraft if and only if it can
land near. The way starts at the aircraft, leads over whatever is not impassable, takes no more
steps than the movement that is left, and ends on friendly land that was not captured this turn. If
the threats against all such places are numbers, none of them is less threatened; none of the same
threat can be reached in fewer steps; and none of the same threat in the same number of steps has a
lower identifier. -/
theorem landingFor_best (b : Board) (hb : b.atlas.IsDrawn) (c : Context) (a : Asset) :
    ((landingFor? b c a).isSome = true ↔
      canLandNear b c.player a.piece.territory a.piece.movementLeft = true) ∧
    ∀ r, landingFor? b c a = some r →
      r.start = a.piece.territory ∧
      b.LandsBy c.player a.piece.territory a.piece.movementLeft r.dest r ∧
      ((∀ l w, b.LandsBy c.player a.piece.territory a.piece.movementLeft l w →
          (c.threat b l).isNaN = false) →
        ∀ l w, b.LandsBy c.player a.piece.territory a.piece.movementLeft l w →
          ¬ c.threat b l < c.threat b r.dest ∧
          ((c.threat b l == c.threat b r.dest) = true →
            r.length ≤ w.length ∧ (r.length = w.length → r.dest ≤ l))) := by
  have hm := hb.neat
  refine ⟨isSome_landingFor?_iff hm, fun r hr => ?_⟩
  unfold landingFor? at hr
  split at hr
  · rcases Option.map_eq_some_iff.1 hr with ⟨best, hbest, rfl⟩
    rcases (mem_landingSpots_iff hm).1 (mem_of_firstLeast? hbest) with ⟨hlands, -, hthreat⟩
    refine ⟨hlands.walk.start_eq, hlands, fun hnumbers l w hw => ?_⟩
    -- the spots that are compared are places to land, so their threats are numbers
    have hnumber : ∀ s ∈ landingSpots b c a, s.threat.isNaN = false := by
      intro s hs
      rcases (mem_landingSpots_iff hm).1 hs with ⟨hs, -, hthreat⟩
      rw [hthreat]
      exact hnumbers _ _ hs
    rcases exists_landingSpot hm hw with ⟨s, hs, hsthreat, hsdest, hsle⟩
    rw [← hthreat, ← hsthreat, ← hsdest]
    rcases best_landingSpot hnumber hbest hs with ⟨hsafer, hnearer⟩
    refine ⟨hsafer, fun hsame => ?_⟩
    -- the walk may be longer than the first route to the same place
    rcases hnearer hsame with ⟨hshort, hlow⟩
    exact ⟨Nat.le_trans hshort hsle, fun hlen => hlow (Nat.le_antisymm hshort (hlen ▸ hsle))⟩
  · cases hr

/-- A fighter of Red over a bay, a home next to an enemy tank and a haven behind a strait. -/
def homecoming : Scenario where
  players := [{ name := "Red" }, { name := "Blue", team := 1 }]
  territories := [
    { name := "Bay", water := true },
    { name := "Home", owner := some "Red" },
    { name := "Strait", water := true },
    { name := "Haven", owner := some "Red" },
    { name := "Front", owner := some "Blue" }]
  connections := [("Bay", "Home"), ("Bay", "Strait"), ("Strait", "Haven"), ("Home", "Front")]
  kinds := [
    { name := "tank", attack := 3, defense := 3, movement := 2, cost := 6 },
    { name := "fighter", domain := .air, attack := 3, defense := 4, movement := 4, cost := 10 }]
  pieces := [
    { kind := "fighter", owner := "Red", place := "Bay" },
    { kind := "tank", owner := "Blue", place := "Front" }]

set_option maxRecDepth 100000 in
/-- The fighter could land at home with its next step and flies on to the haven, which is no more
threatened. -/
theorem landingFor_best_homecoming :
    ∃ (h : Table) (a : Asset) (r : Route), homecoming.setUp = .ok h ∧ h.board.asset? 0 = some a ∧
      landingFor? h.board (.build h.board 0 {}) a = some r ∧ r.dest = 3 ∧
      h.board.LandsBy 0 0 4 3 r ∧ h.board.LandsBy 0 0 4 1 (.step 0 1) ∧
      ¬ (Context.build h.board 0 {}).threat h.board 1 <
        (Context.build h.board 0 {}).threat h.board 3 := by
  have hpass : (homecoming.setUp.toOption.any fun h =>
      let c : Context := .build h.board 0 {}
      (h.board.asset? 0).any fun a =>
        a.piece.territory == 0 && a.piece.movementLeft == 4 && canLandNear h.board 0 0 4 &&
        (landingFor? h.board c a).all (·.dest == 3) &&
        ((List.range h.board.atlas.size).all fun l => !(c.threat h.board l).isNaN) &&
        h.board.atlas.isAdjacent 0 1 && h.board.atlas.isOpen 1 && h.board.isLandable 0 1) =
          true := by
    decide +kernel
  obtain ⟨h, hset, hcheck⟩ := Scenario.exists_setUp hpass
  rcases (Option.any_eq_true _ _).1 hcheck with ⟨a, ha, hshown⟩
  simp only [Bool.and_eq_true, beq_iff_eq] at hshown
  rcases hshown with ⟨⟨⟨⟨⟨⟨⟨hplace, hleft⟩, hcan⟩, hdest⟩, hnumbers⟩, hnext⟩, hopen⟩, hland⟩
  rcases landingFor_best h.board (Scenario.setUp_isDrawn hset) (.build h.board 0 {}) a with
    ⟨hiff, hbest⟩
  rw [hplace, hleft] at hiff hbest
  rcases Option.isSome_iff_exists.1 (hiff.2 hcan) with ⟨r, hr⟩
  rcases hbest r hr with ⟨-, hlands, hleast⟩
  rw [hr, Option.all_some, beq_iff_eq] at hdest
  have hhome : h.board.LandsBy 0 0 4 1 (.step 0 1) := by
    rcases isLandable_iff.1 hland with ⟨hfriendly, hunconquered⟩
    exact ⟨(h.board.atlas.isWalk_stay _ 0).extend hnext hopen, by decide, hfriendly, hunconquered⟩
  refine ⟨h, a, r, hset, ha, hr, hdest, hdest ▸ hlands, hhome, ?_⟩
  have hsafer := (hleast (fun l w hw => ?_) 1 _ hhome).1
  · rwa [hdest] at hsafer
  · have hlt := List.mem_range.2 (Board.lt_size_of_isFriendlyLand hw.friendly)
    simpa using List.all_eq_true.1 hnumbers l hlt

end Conquest
