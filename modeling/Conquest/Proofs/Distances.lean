import Conquest.Proofs.FirstRoute

/-!
# Distances, reach and routes agree

Distances and the territories within reach come from waves of territories, routes from rounds that
keep whole walks. A wave holds the ends of the routes of its round, so all three searches see the
same territories, equally far away.

* `wavesFrom_eq`: the waves are the ends of the routes.
* `mem_neighborsWithin_iff`: what is within reach is where a first route of so many steps leads.
* `distance_eq_some_iff`: a distance is the length of a first route.
* `IsWalk.reverse`, `IsWalk.join`, `IsWalk.split`: walks turn around, are joined and are cut, so
  distances are symmetric and satisfy the triangle inequality.
-/

namespace Conquest

/-! ## Routes one after the other -/

namespace Route

/-- A route and then another one. -/
def join (r w : Route) : Route := ⟨r.start, r.steps ++ w.steps⟩

@[simp] theorem length_join (r w : Route) : (r.join w).length = r.length + w.length :=
  List.length_append

@[simp] theorem territories_join (r w : Route) :
    (r.join w).territories = r.territories ++ w.steps :=
  rfl

/-- If the second route starts where the first one ends, both together end with it. -/
theorem dest_join {r w : Route} (h : w.start = r.dest) : (r.join w).dest = w.dest := by
  rw [dest, dest, h, join, dest, List.getLastD_eq_getLast?, List.getLastD_eq_getLast?,
    List.getLastD_eq_getLast?, List.getLast?_append]
  cases w.steps.getLast? with
  | none => rfl
  | some t => rfl

end Route

namespace Atlas

/-! ## Waves -/

/-- The waves of a search are the ends of the routes that its rounds find. -/
theorem wavesFrom_eq (m : Atlas) (admits : TerritoryId → Bool) (rounds : Nat)
    (reached : List TerritoryId) (frontier : List Route) :
    m.wavesFrom admits rounds reached (frontier.map Route.dest) =
      (m.toursFrom admits rounds reached frontier).map (List.map Route.dest) := by
  induction rounds generalizing reached frontier with
  | zero => rfl
  | succ rounds ih =>
    have hends : (frontier.map Route.dest).flatMap m.neighbors =
        (frontier.flatMap m.extensions).map Route.dest := by
      rw [List.flatMap_map, List.map_flatMap]
      apply List.flatMap_congr
      intro r _
      simp [extensions, Function.comp_def]
    have hwave : (((frontier.map Route.dest).flatMap m.neighbors).filter fun t =>
        admits t && !reached.contains t).eraseDups =
          (m.tour admits reached frontier).map Route.dest := by
      rw [tour, map_eraseDupsBy, hends, List.filter_map]
      rfl
    rw [toursFrom_succ]
    simp only [wavesFrom]
    rw [hwave, List.isEmpty_map, ih]
    split
    · rfl
    · rfl

theorem waves_eq (m : Atlas) (admits : TerritoryId → Bool) (rounds : Nat) (source : TerritoryId) :
    m.waves admits rounds source =
      (m.toursFrom admits rounds [source] [.stay source]).map (List.map Route.dest) :=
  m.wavesFrom_eq admits rounds [source] [.stay source]

/-! ## Within reach -/

section Reach

variable {m : Atlas} {passable : TerritoryId → Bool} {t u : TerritoryId} {radius : Nat}

theorem neighborsWithin_eq (m : Atlas) (t : TerritoryId) (radius : Nat)
    (passable : TerritoryId → Bool) :
    m.neighborsWithin t radius passable =
      (m.toursFrom passable radius [t] [.stay t]).flatten.map Route.dest := by
  rw [neighborsWithin, waves_eq, List.map_flatten]

/-- Within reach are the other territories to which a first route of so many steps leads. -/
theorem mem_neighborsWithin_iff (hm : m.Neat) :
    u ∈ m.neighborsWithin t radius passable ↔
      u ≠ t ∧ ∃ r, m.IsFirst passable t u r ∧ r.length ≤ radius := by
  rw [neighborsWithin_eq, List.mem_map]
  constructor
  · rintro ⟨r, hr, rfl⟩
    rcases (mem_tours_iff hm).1 hr with ⟨hfirst, hpos, hle⟩
    exact ⟨hfirst.length_pos_iff.1 hpos, r, hfirst, hle⟩
  · rintro ⟨hne, r, hfirst, hle⟩
    have hdest := hfirst.isWalk.dest_eq
    have hpos := hfirst.length_pos_iff.2 hne
    exact ⟨r, (mem_tours_iff hm).2 ⟨hdest.symm ▸ hfirst, hpos, hle⟩, hdest⟩

/-- What is within reach comes in the order of the first routes there. -/
theorem pairwise_neighborsWithin (hm : m.Neat) (t : TerritoryId) (radius : Nat)
    (passable : TerritoryId → Bool) :
    (m.neighborsWithin t radius passable).Pairwise fun u v =>
      ∀ r w, m.IsFirst passable t u r → m.IsFirst passable t v w → m.Precedes r w := by
  rcases (m.wavefront_start passable t).sound hm radius with ⟨hfirst, hsorted⟩
  rw [neighborsWithin_eq, List.pairwise_map]
  refine hsorted.imp_of_mem ?_
  intro r w hr hw hrw r' w' hr' hw'
  rw [hr'.unique (hfirst r hr).1, hw'.unique (hfirst w hw).1]
  exact hrw

end Reach

/-- On every map that is drawn by connections, the territories within a radius are listed without
repetition; they are the other territories to which the search finds a route of at most so many
steps, and those to which it takes fewer steps come first. -/
theorem neighborsWithin_routes (ts : Array Territory) (links : List (TerritoryId × TerritoryId))
    (t : TerritoryId) (radius : Nat) (passable : TerritoryId → Bool) :
    ((chart ts links).neighborsWithin t radius passable).Nodup ∧
    (∀ u, u ∈ (chart ts links).neighborsWithin t radius passable ↔
      u ≠ t ∧ ∃ r, (chart ts links).route? t u passable = some r ∧ r.length ≤ radius) ∧
    ((chart ts links).neighborsWithin t radius passable).Pairwise fun u v =>
      ∀ r w, (chart ts links).route? t u passable = some r →
        (chart ts links).route? t v passable = some w → r.length ≤ w.length := by
  have hm := neat_chart ts links
  have horder := pairwise_neighborsWithin hm t radius passable
  simp only [route?_eq_some_iff hm]
  refine ⟨?_, fun u => mem_neighborsWithin_iff hm, ?_⟩
  · -- a territory listed twice would have a first route that comes before itself
    refine horder.imp_of_mem ?_
    rintro u v hu _ huv rfl
    rcases (mem_neighborsWithin_iff hm).1 hu with ⟨-, r, hr, -⟩
    exact Precedes.irrefl r (huv r r hr hr)
  · exact horder.imp fun huv r w hr hw => (huv r w hr hw).length_le

/-! ## Walks turned around, joined and cut -/

namespace IsWalk

variable {m : Atlas} {passable : TerritoryId → Bool} {a b c : TerritoryId} {v w : Route}

/-- A walk after a step to its start. -/
theorem precede (h : m.IsWalk passable b c w) (hadj : m.isAdjacent a b = true)
    (hpass : passable b = true) : m.IsWalk passable a c ⟨a, b :: w.steps⟩ := by
  rcases h with ⟨rfl, hdest, hwalk, hpassable⟩
  refine ⟨rfl, ?_, ?_, ?_⟩
  · rw [← hdest, Route.dest, Route.dest, List.getLastD_cons]
  · exact .cons_cons hadj hwalk
  · intro t ht
    rcases List.mem_cons.1 ht with rfl | ht
    · exact hpass
    · exact hpassable t ht

/-- A walk from a territory that may be entered can be gone back. -/
theorem reverse (hm : m.Linked) (h : m.IsWalk passable a b w) (hpass : passable a = true) :
    ∃ v, m.IsWalk passable b a v ∧ v.length = w.length := by
  -- the last step of the walk is the first step of the way back
  generalize hk : w.length = k
  induction k generalizing b w with
  | zero =>
    rcases h.eq_stay hk with ⟨-, rfl⟩
    exact ⟨.stay b, m.isWalk_stay passable b, rfl⟩
  | succ k ih =>
    rcases h.eq_extend hk with ⟨v, u, hv, hvlen, hadj, -, rfl⟩
    rcases ih hv hvlen with ⟨back, hback, hlen⟩
    have hu : passable u = true := by
      cases k with
      | zero => exact (hv.eq_stay hvlen).2 ▸ hpass
      | succ k =>
        rcases hv.eq_extend hvlen with ⟨-, -, -, -, -, hu, -⟩
        exact hu
    exact ⟨_, hback.precede (hm.adjacent_symm u b hadj) hu, congrArg (· + 1) hlen⟩

/-- Where a walk with steps leads is passable. -/
theorem passable_goal (h : m.IsWalk passable a b w) (hpos : 0 < w.length) : passable b = true := by
  rcases h.eq_extend (Nat.succ_pred_eq_of_pos hpos).symm with ⟨-, -, -, -, -, hpass, -⟩
  exact hpass

/-- Two walks of which one ends where the other starts make one walk. -/
theorem join (h : m.IsWalk passable a b v) (h' : m.IsWalk passable b c w) :
    m.IsWalk passable a c (v.join w) := by
  have hmeet : w.start = v.dest := h'.start_eq.trans h.dest_eq.symm
  have hwalk := List.isChain_cons.1 h'.walk
  refine ⟨h.start_eq, (Route.dest_join hmeet).trans h'.dest_eq, ?_, ?_⟩
  · rw [Route.territories_join, List.isChain_append]
    refine ⟨h.walk, hwalk.2, ?_⟩
    intro x hx y hy
    -- the first walk ends where the second one leaves
    rw [Route.getLast?_territories, ← hmeet] at hx
    cases hx
    exact hwalk.1 y hy
  · intro t ht
    rcases List.mem_append.1 ht with ht | ht
    · exact h.passable t ht
    · exact h'.passable t ht

/-- A walk can be cut in two wherever it comes by. -/
theorem split (h : m.IsWalk passable a b w) {t : TerritoryId} (ht : t ∈ w.territories) :
    ∃ v v', m.IsWalk passable a t v ∧ m.IsWalk passable t b v' ∧ w = v.join v' := by
  rcases w with ⟨start, steps⟩
  have hstart : start = a := h.start_eq
  subst hstart
  rcases List.mem_cons.1 ht with rfl | ht
  · exact ⟨.stay t, ⟨t, steps⟩, m.isWalk_stay passable t, h, rfl⟩
  · rcases List.append_of_mem ht with ⟨before, after, rfl⟩
    have hcut : (⟨start, before ++ t :: after⟩ : Route) =
        (⟨start, before ++ [t]⟩ : Route).join ⟨t, after⟩ := by
      rw [Route.join, List.append_assoc]
      rfl
    have hmeet : (⟨start, before ++ [t]⟩ : Route).dest = t := Route.dest_extend ⟨start, before⟩ t
    have hwalk : ((start :: before) ++ t :: after).IsChain (m.isAdjacent · · = true) := h.walk
    have hdest := h.dest_eq
    have hpassable := h.passable
    rw [hcut] at hdest hpassable
    rw [Route.dest_join hmeet.symm] at hdest
    rcases List.isChain_split.1 hwalk with ⟨hfirst, hsecond⟩
    refine ⟨_, _, ⟨rfl, hmeet, hfirst, ?_⟩, ⟨rfl, hdest, hsecond, ?_⟩, hcut⟩
    · exact fun u hu => hpassable u (List.mem_append_left _ hu)
    · exact fun u hu => hpassable u (List.mem_append_right _ hu)

end IsWalk

/-! ## Distances -/

namespace Wavefront

variable {m : Atlas} {passable : TerritoryId → Bool} {source : TerritoryId} {k : Nat}
  {reached : List TerritoryId} {frontier : List Route}

/-- Each round finds routes of one more step than the round before it. -/
theorem length_of_getElem? (hm : m.Neat) (h : m.Wavefront passable source k reached frontier)
    {rounds i : Nat} {found : List Route}
    (hfound : (m.toursFrom passable rounds reached frontier)[i]? = some found) :
    ∀ r ∈ found, r.length = k + i + 1 := by
  induction rounds generalizing k reached frontier i with
  | zero => simp [toursFrom] at hfound
  | succ rounds ih =>
    have hnext := h.next hm
    rw [toursFrom_succ] at hfound
    split at hfound
    · simp at hfound
    · cases i with
      | zero =>
        rw [List.getElem?_cons_zero, Option.some.injEq] at hfound
        intro r hr
        exact (hnext.first r (hfound.symm ▸ hr)).2
      | succ i =>
        rw [List.getElem?_cons_succ] at hfound
        intro r hr
        have hlen := ih hnext hfound r hr
        omega

end Wavefront

/-- The wave of a search that holds a territory tells how long the first route there is. -/
theorem findIdx?_waves_eq_some_iff {m : Atlas} (hm : m.Neat) {passable : TerritoryId → Bool}
    {source goal : TerritoryId} (hne : goal ≠ source) {rounds i : Nat} :
    (m.waves passable rounds source).findIdx? (·.contains goal) = some i ↔
      i < rounds ∧ ∃ r, m.IsFirst passable source goal r ∧ r.length = i + 1 := by
  rw [waves_eq, List.findIdx?_map]
  generalize htours : m.toursFrom passable rounds [source] [.stay source] = tours
  have hmem : ∀ {r : Route}, r ∈ tours.flatten ↔
      m.IsFirst passable source r.dest r ∧ 0 < r.length ∧ r.length ≤ rounds := by
    intro r
    rw [← htours]
    exact mem_tours_iff hm
  have hfound : ∀ i, tours.findIdx? ((·.contains goal) ∘ List.map Route.dest) = some i →
      i < rounds ∧ ∃ r, m.IsFirst passable source goal r ∧ r.length = i + 1 := by
    intro i hi
    rcases List.findIdx?_eq_some_iff_getElem.1 hi with ⟨hlt, hin, -⟩
    rw [Function.comp_apply, List.contains_iff_mem, List.mem_map] at hin
    rcases hin with ⟨r, hr, rfl⟩
    rcases hmem.1 (List.mem_flatten.2 ⟨_, List.getElem_mem hlt, hr⟩) with ⟨hfirst, -, hle⟩
    have hget : (m.toursFrom passable rounds [source] [.stay source])[i]? = some tours[i] := by
      rw [htours]
      exact List.getElem?_eq_getElem hlt
    have hlen := (m.wavefront_start passable source).length_of_getElem? hm hget r hr
    exact ⟨by omega, r, hfirst, by omega⟩
  constructor
  · exact hfound i
  · rintro ⟨hlt, r, hr, hlen⟩
    have hdest := hr.isWalk.dest_eq
    have hin : r ∈ tours.flatten :=
      hmem.2 ⟨hdest.symm ▸ hr, hr.length_pos_iff.2 hne, by omega⟩
    rcases List.mem_flatten.1 hin with ⟨found, hfoundmem, hrfound⟩
    -- some wave holds the goal, and the route that it tells of is the first one
    have hsome : (tours.findIdx? ((·.contains goal) ∘ List.map Route.dest)).isSome = true := by
      rw [List.findIdx?_isSome, List.any_eq_true]
      refine ⟨found, hfoundmem, ?_⟩
      rw [Function.comp_apply, List.contains_iff_mem]
      exact List.mem_map.2 ⟨r, hrfound, hdest⟩
    rcases Option.isSome_iff_exists.1 hsome with ⟨j, hj⟩
    rcases hfound j hj with ⟨-, r', hr', hlen'⟩
    rw [hr'.unique hr, hlen] at hlen'
    rw [hj, Nat.succ.inj hlen']

section Distance

variable {m : Atlas} {passage : Passage} {a b c : TerritoryId} {d e : Nat}

@[simp] theorem distance_self (m : Atlas) (passage : Passage) (a : TerritoryId) :
    m.distance passage a a = some 0 := by
  rw [distance, if_pos rfl]

/-- From outside of a passage nothing else can be reached. -/
theorem distance_of_not_admits (hne : a ≠ b) (h : m.admits passage a = false) :
    m.distance passage a b = none := by
  rw [distance, if_neg hne, h]
  rfl

/-- The distance to another territory is the number of steps of the first route there. -/
theorem distance_eq_some_iff (hm : m.Neat) (hne : a ≠ b) (hadmits : m.admits passage a = true) :
    m.distance passage a b = some d ↔
      ∃ r, m.IsFirst (m.admits passage) a b r ∧ r.length = d := by
  rw [distance, if_neg hne, hadmits, if_pos rfl, Option.map_eq_some_iff]
  simp only [findIdx?_waves_eq_some_iff hm (Ne.symm hne)]
  constructor
  · rintro ⟨i, ⟨-, r, hr, hlen⟩, rfl⟩
    exact ⟨r, hr, hlen⟩
  · rintro ⟨r, hr, rfl⟩
    have hpos := hr.length_pos_iff.2 (Ne.symm hne)
    have hlt := hr.length_lt hm hpos
    exact ⟨r.length - 1, ⟨by omega, r, hr, by omega⟩, by omega⟩

/-- Distances and routes agree. -/
theorem distance_eq_route? (hm : m.Neat) (hne : a ≠ b) (hadmits : m.admits passage a = true) :
    m.distance passage a b = (m.route? a b (m.admits passage)).map Route.length := by
  apply Option.ext
  intro d
  rw [distance_eq_some_iff hm hne hadmits, Option.map_eq_some_iff]
  simp only [route?_eq_some_iff hm]

/-- No walk through a passage is shorter than the distance. -/
theorem distance_le (hm : m.Neat) (hadmits : m.admits passage a = true) {w : Route}
    (hw : m.IsWalk (m.admits passage) a b w) :
    ∃ d, m.distance passage a b = some d ∧ d ≤ w.length := by
  by_cases hne : a = b
  · rw [hne, distance_self]
    exact ⟨0, rfl, Nat.zero_le _⟩
  · rcases exists_isFirst hm hw with ⟨r, hr⟩
    exact ⟨r.length, (distance_eq_some_iff hm hne hadmits).2 ⟨r, hr, rfl⟩, hr.length_le hw⟩

/-- A distance is the number of steps of a walk, and both ends of the walk lie in the passage if
they are not the same. -/
theorem exists_walk_of_distance (hm : m.Neat) (h : m.distance passage a b = some d) :
    (∃ w, m.IsWalk (m.admits passage) a b w ∧ w.length = d) ∧
      (a ≠ b → m.admits passage a = true ∧ m.admits passage b = true) := by
  by_cases hne : a = b
  · subst hne
    rw [distance_self, Option.some.injEq] at h
    exact ⟨⟨.stay a, m.isWalk_stay _ a, h⟩, absurd rfl⟩
  · cases hadmits : m.admits passage a with
    | false =>
      rw [distance_of_not_admits hne hadmits] at h
      cases h
    | true =>
      rcases (distance_eq_some_iff hm hne hadmits).1 h with ⟨r, hr, hlen⟩
      have hsteps := hr.isWalk.dest_eq ▸
        Route.dest_mem_steps ((hr.leads hm).isEmpty_eq_false hne)
      exact ⟨⟨r, hr.isWalk, hlen⟩, fun _ => ⟨rfl, hr.isWalk.passable b hsteps⟩⟩

/-- The way back is no longer. -/
theorem exists_distance_back (hm : m.Neat) (h : m.distance passage a b = some d) :
    ∃ e, m.distance passage b a = some e ∧ e ≤ d := by
  rcases exists_walk_of_distance hm h with ⟨⟨w, hw, rfl⟩, hends⟩
  by_cases hne : a = b
  · rw [hne, distance_self]
    exact ⟨0, rfl, Nat.zero_le _⟩
  · rcases hw.reverse hm.toLinked (hends hne).1 with ⟨v, hv, hlen⟩
    rw [← hlen]
    exact distance_le hm (hends hne).2 hv

/-- There and back it is equally far. -/
theorem distance_symm (hm : m.Neat) (passage : Passage) (a b : TerritoryId) :
    m.distance passage a b = m.distance passage b a := by
  cases hab : m.distance passage a b with
  | some d =>
    rcases exists_distance_back hm hab with ⟨e, hba, hle⟩
    rcases exists_distance_back hm hba with ⟨d', hab', hle'⟩
    rw [hab, Option.some.injEq] at hab'
    rw [hba, Option.some.injEq]
    omega
  | none =>
    cases hba : m.distance passage b a with
    | none => rfl
    | some e =>
      rcases exists_distance_back hm hba with ⟨d, hab', -⟩
      rw [hab] at hab'
      cases hab'

/-- A detour is not shorter. -/
theorem distance_triangle (hm : m.Neat) (hab : m.distance passage a b = some d)
    (hbc : m.distance passage b c = some e) :
    ∃ f, m.distance passage a c = some f ∧ f ≤ d + e := by
  by_cases hne : a = b
  · subst hne
    exact ⟨e, hbc, Nat.le_add_left e d⟩
  · rcases exists_walk_of_distance hm hab with ⟨⟨v, hv, rfl⟩, hends⟩
    rcases exists_walk_of_distance hm hbc with ⟨⟨w, hw, rfl⟩, -⟩
    rw [← Route.length_join]
    exact distance_le hm (hends hne).1 (hv.join hw)

/-- A number that a distance counts as: its steps, or the greatest number where there is none. -/
theorem stepsOf_eq_iff {distance : Option Nat} {radius : Nat} :
    stepsOf distance = radius ↔
      distance = some radius ∨ (distance = none ∧ radius = farthest) := by
  cases distance with
  | none => simp [stepsOf, eq_comm]
  | some d => simp [stepsOf]

/-- The territories at a distance, in the order of the map. -/
theorem pairwise_ring (m : Atlas) (t : TerritoryId) (radius : Nat) :
    (m.ring t radius).Pairwise (· < ·) :=
  List.pairwise_lt_range.filter _

theorem mem_ring_iff {t u : TerritoryId} {radius : Nat} :
    u ∈ m.ring t radius ↔ u < m.size ∧ stepsOf (m.distance .any t u) = radius := by
  rw [ring, List.mem_filter, ids, List.mem_range, beq_iff_eq]

end Distance

/-- On every map that is drawn by connections, distances and routes agree for every passage. The
distance of a territory from itself is zero; from a territory of the passage to another one it is
the length of the route that the search finds, and there is none if the search finds none; from a
territory outside of the passage there is none to any other. Distances are symmetric and satisfy
the triangle inequality, and the territories exactly so many steps away through whatever is not
impassable are listed by identifier; those that cannot be reached count as the farthest. -/
theorem distance_agrees (ts : Array Territory) (links : List (TerritoryId × TerritoryId))
    (passage : Passage) (a b : TerritoryId) :
    (chart ts links).distance passage a a = some 0 ∧
    (a ≠ b → (chart ts links).admits passage a = true →
      (chart ts links).distance passage a b =
        ((chart ts links).route? a b ((chart ts links).admits passage)).map Route.length) ∧
    (a ≠ b → (chart ts links).admits passage a = false →
      (chart ts links).distance passage a b = none) ∧
    (chart ts links).distance passage a b = (chart ts links).distance passage b a ∧
    (∀ c d e, (chart ts links).distance passage a b = some d →
      (chart ts links).distance passage b c = some e →
      ∃ f, (chart ts links).distance passage a c = some f ∧ f ≤ d + e) ∧
    (∀ radius,
      (∀ u, u ∈ (chart ts links).ring a radius ↔ u < (chart ts links).size ∧
        ((chart ts links).distance .any a u = some radius ∨
          ((chart ts links).distance .any a u = none ∧ radius = farthest))) ∧
      ((chart ts links).ring a radius).Pairwise (· < ·)) := by
  have hm := neat_chart ts links
  refine ⟨distance_self _ passage a, distance_eq_route? hm, distance_of_not_admits,
    distance_symm hm passage a b, fun c d e hab hbc => distance_triangle hm hab hbc, ?_⟩
  intro radius
  constructor
  · intro u
    rw [mem_ring_iff, stepsOf_eq_iff]
  · exact pairwise_ring _ a radius

end Atlas

end Conquest
