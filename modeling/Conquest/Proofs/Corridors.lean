import Conquest.Proofs.Landings
import Conquest.Ranking

/-!
# On the way between two capitals

Whether a territory lies on the way between two capitals is decided by adding distances. Distances
are the lengths of shortest walks, walks are joined where they meet and cut where they come by, so
the sums say which territories some shortest walk comes by. It need not be the walk that a search
for a route finds.

* `Atlas.WalksThrough`, `Atlas.IsShortest`: the walks through a passage and the shortest of them.
* `Atlas.distance_eq_some_iff_isShortest`: a distance is the length of the shortest walks.
* `Atlas.exists_isShortest_through_iff`: where shortest walks come by.
* `Context.onCapitalPath_iff`: what lies between the capitals.
-/

namespace Conquest

namespace Atlas

/-! ## Walks through a passage -/

/-- A walk through a passage: all that it comes by belongs to the passage. A walk without steps may
stay anywhere. -/
structure WalksThrough (m : Atlas) (passage : Passage) (source goal : TerritoryId) (w : Route) :
    Prop extends m.IsWalk (m.admits passage) source goal w where
  admits_source : 0 < w.length → m.admits passage source = true

/-- A walk through a passage that is no longer than any other one. -/
structure IsShortest (m : Atlas) (passage : Passage) (source goal : TerritoryId) (w : Route) :
    Prop extends m.WalksThrough passage source goal w where
  length_le : ∀ v, m.WalksThrough passage source goal v → w.length ≤ v.length

section Passage

variable {m : Atlas} {passage : Passage} {a b t : TerritoryId} {d : Nat} {v w : Route}

theorem WalksThrough.join (h : m.WalksThrough passage a t v) (h' : m.WalksThrough passage t b w) :
    m.WalksThrough passage a b (v.join w) where
  toIsWalk := h.toIsWalk.join h'.toIsWalk
  admits_source hpos := by
    rw [Route.length_join] at hpos
    rcases Nat.eq_zero_or_pos v.length with hzero | hsteps
    · -- the first walk stays, so the second one leaves from the same place
      rw [← (h.eq_stay hzero).2]
      exact h'.admits_source (by omega)
    · exact h.admits_source hsteps

theorem WalksThrough.split (h : m.WalksThrough passage a b w) (ht : t ∈ w.territories) :
    ∃ v v', m.WalksThrough passage a t v ∧ m.WalksThrough passage t b v' ∧ w = v.join v' := by
  rcases h.toIsWalk.split ht with ⟨v, v', hv, hv', rfl⟩
  have hsource : 0 < v.length + v'.length → m.admits passage a = true := by
    rw [← Route.length_join]
    exact h.admits_source
  refine ⟨v, v', ⟨hv, fun hpos => hsource (by omega)⟩, ⟨hv', fun hpos => ?_⟩, rfl⟩
  rcases Nat.eq_zero_or_pos v.length with hzero | hsteps
  · rw [(hv.eq_stay hzero).2]
    exact hsource (by omega)
  · exact hv.passable_goal hsteps

/-- No walk through a passage is shorter than the distance. -/
theorem WalksThrough.exists_distance_le (hm : m.Neat) (h : m.WalksThrough passage a b w) :
    ∃ d, m.distance passage a b = some d ∧ d ≤ w.length := by
  rcases Nat.eq_zero_or_pos w.length with hzero | hpos
  · rw [(h.eq_stay hzero).2, distance_self]
    exact ⟨0, rfl, Nat.zero_le _⟩
  · exact distance_le hm (h.admits_source hpos) h.toIsWalk

theorem exists_isShortest_of_distance (hm : m.Neat) (hd : m.distance passage a b = some d) :
    ∃ w, m.IsShortest passage a b w ∧ w.length = d := by
  rcases exists_walk_of_distance hm hd with ⟨⟨w, hw, hlen⟩, hends⟩
  refine ⟨w, ⟨⟨hw, ?_⟩, ?_⟩, hlen⟩
  · intro hpos
    refine (hends ?_).1
    -- a walk with steps does not end where it starts if its length is the distance
    rintro rfl
    rw [distance_self, Option.some.injEq] at hd
    omega
  · intro v hv
    rcases hv.exists_distance_le hm with ⟨d', hd', hle⟩
    rw [hd, Option.some.injEq] at hd'
    omega

/-- A distance is the length of the shortest walks. -/
theorem distance_eq_some_iff_isShortest (hm : m.Neat) :
    m.distance passage a b = some d ↔ ∃ w, m.IsShortest passage a b w ∧ w.length = d := by
  constructor
  · exact exists_isShortest_of_distance hm
  · rintro ⟨w, hw, rfl⟩
    rcases hw.exists_distance_le hm with ⟨d, hd, hle⟩
    rcases exists_isShortest_of_distance hm hd with ⟨v, hv, hlen⟩
    have hle' := hw.length_le v hv.toWalksThrough
    rw [hd, Option.some.injEq]
    omega

/-- Some shortest walk comes by a territory if and only if the distances before and after it add up
to the whole distance. -/
theorem exists_isShortest_through_iff (hm : m.Neat) :
    (∃ w, m.IsShortest passage a b w ∧ t ∈ w.territories) ↔
      ∃ d e, m.distance passage a t = some d ∧ m.distance passage t b = some e ∧
        m.distance passage a b = some (d + e) := by
  constructor
  · rintro ⟨w, hw, ht⟩
    have hwhole := (distance_eq_some_iff_isShortest hm).2 ⟨w, hw, rfl⟩
    rcases hw.toWalksThrough.split ht with ⟨v, v', hv, hv', rfl⟩
    rcases hv.exists_distance_le hm with ⟨d, hd, hle⟩
    rcases hv'.exists_distance_le hm with ⟨e, he, hle'⟩
    -- the two parts are no longer than the walk, and a detour is not shorter
    rcases distance_triangle hm hd he with ⟨f, hf, hdetour⟩
    rw [hwhole, Option.some.injEq] at hf
    rw [Route.length_join] at hf hwhole
    refine ⟨d, e, hd, he, ?_⟩
    rw [hwhole, Option.some.injEq]
    omega
  · rintro ⟨d, e, hd, he, hwhole⟩
    rcases (distance_eq_some_iff_isShortest hm).1 hd with ⟨v, hv, rfl⟩
    rcases (distance_eq_some_iff_isShortest hm).1 he with ⟨v', hv', rfl⟩
    rcases (distance_eq_some_iff_isShortest hm).1 hwhole with ⟨w, hw, hlen⟩
    refine ⟨v.join v', ⟨hv.toWalksThrough.join hv'.toWalksThrough, ?_⟩, ?_⟩
    · intro u hu
      rw [Route.length_join, ← hlen]
      exact hw.length_le u hu
    · rw [Route.territories_join]
      exact List.mem_append_left _ (hv.dest_eq ▸ List.mem_of_getLast? v.getLast?_territories)

end Passage

end Atlas

/-! ## Between the capitals -/

/-- On every board whose map is drawn and for every context: a territory counts as lying between the
capitals if and only if some shortest walk over passable land from the player's capital to a capital
of an enemy comes by it. A capital that is also an enemy's is its own shortest walk. -/
theorem Context.onCapitalPath_iff (b : Board) (hdrawn : b.atlas.IsDrawn) (c : Context)
    (t : TerritoryId) :
    c.onCapitalPath b t = true ↔
      ∃ home, c.capital = some home ∧ ∃ enemy ∈ c.enemyCapitals,
        ∃ w, b.atlas.IsShortest .land home enemy w ∧ t ∈ w.territories := by
  simp only [Atlas.exists_isShortest_through_iff hdrawn.neat]
  unfold onCapitalPath
  simp only [Option.any_eq_true, List.any_eq_true]
  refine exists_congr fun home => and_congr_right fun _ => exists_congr fun enemy =>
    and_congr_right fun _ => ?_
  constructor
  · intro h
    split at h
    · rename_i whole first second hwhole hfirst hsecond
      exact ⟨first, second, hfirst, hsecond, (beq_iff_eq.1 h).symm ▸ hwhole⟩
    · cases h
  · rintro ⟨first, second, hfirst, hsecond, hwhole⟩
    rw [hwhole, hfirst, hsecond]
    exact beq_self_eq_true _

namespace Scenario

/-- Two equally short ways from the capital of Red to that of Blue, and a hollow beside them. -/
def crossroads : Scenario where
  players := [{ name := "Red", capital := some "Home" },
    { name := "Blue", team := 1, capital := some "Keep" }]
  territories := [
    { name := "Home", owner := some "Red" },
    { name := "North" },
    { name := "South" },
    { name := "Keep", owner := some "Blue" },
    { name := "Hollow" }]
  connections := [("Home", "North"), ("Home", "South"), ("North", "Keep"), ("South", "Keep"),
    ("Home", "Hollow")]
  kinds := [{ name := "infantry", attack := 1, defense := 2, cost := 3 }]

set_option maxRecDepth 100000 in
/-- The search takes the northern way; the south lies on the other one and the hollow on none. -/
theorem onCapitalPath_iff_crossroads : ∃ h, crossroads.setUp = .ok h ∧ h.board.atlas.IsDrawn ∧
    (Context.build h.board 0 {}).capital = some 0 ∧
    (Context.build h.board 0 {}).enemyCapitals = [3] ∧
    h.board.atlas.route? 0 3 h.board.atlas.isPassableLand = some ⟨0, [1, 3]⟩ ∧
    (∃ w, h.board.atlas.IsShortest .land 0 3 w ∧ 2 ∈ w.territories) ∧
    ¬ ∃ w, h.board.atlas.IsShortest .land 0 3 w ∧ 4 ∈ w.territories := by
  have hpass : (crossroads.setUp.toOption.any fun h =>
      let c := Context.build h.board 0 {}
      decide (c.capital = some 0 ∧ c.enemyCapitals = [3] ∧
        h.board.atlas.route? 0 3 h.board.atlas.isPassableLand = some ⟨0, [1, 3]⟩ ∧
        c.onCapitalPath h.board 2 = true ∧ c.onCapitalPath h.board 4 = false)) = true := by
    decide +kernel
  obtain ⟨h, hset, hcheck⟩ := exists_setUp hpass
  obtain ⟨hcapital, henemies, hroute, hsouth, hhollow⟩ := of_decide_eq_true hcheck
  have hdrawn := setUp_isDrawn hset
  obtain ⟨home, hhome, enemy, henemy, hway⟩ :=
    (Context.onCapitalPath_iff h.board hdrawn (.build h.board 0 {}) 2).1 hsouth
  cases hcapital.symm.trans hhome
  rw [henemies, List.mem_singleton] at henemy
  subst henemy
  refine ⟨h, hset, hdrawn, hcapital, henemies, hroute, hway, ?_⟩
  -- a shortest way over the hollow would put it on the path
  intro hbeside
  have hon := (Context.onCapitalPath_iff h.board hdrawn (.build h.board 0 {}) 4).2
    ⟨0, hcapital, 3, henemies ▸ List.mem_singleton.2 rfl, hbeside⟩
  rw [hhollow] at hon
  cases hon

end Scenario

end Conquest
