import Mathlib.Data.List.Nodup
import Conquest.Proofs.Walk

/-!
# The route that is found is the first shortest one

Walks to one territory are compared by their length and, if they are equally long, by their turns:
each step is numbered by its place in the neighbour list of the territory that it leaves, and the
numbers are compared one after another. The search answers with the walk that comes before all
others, and it answers whenever there is a walk at all.

* `Atlas.chart`: a map as it is drawn, one connection after another; `neat_chart`: its neighbour
  lists fit the map and hold nothing twice.
* `Atlas.Precedes`, `Atlas.IsFirst`: which walk comes before which, and the first of all.
* `Atlas.Wavefront`: what is known between two rounds of the search; `Wavefront.next`: one more
  round; `Wavefront.complete`: what the rounds that follow find.
* `route?_eq_some_iff`: the search finds a route if and only if it is the first.
-/

namespace Conquest.Atlas

/-! ## Drawing a map -/

/-- The map that comes about by making connections one after another. -/
def chart (ts : Array Territory) (links : List (TerritoryId × TerritoryId)) : Atlas :=
  links.foldl (fun m link => m.connect link.1 link.2) (ofTerritories ts)

/-- A map whose neighbour lists fit it and hold nothing twice. -/
structure Neat (m : Atlas) : Prop extends m.Linked where
  nodup_neighbors : ∀ t, (m.neighbors t).Nodup

theorem neat_ofTerritories (ts : Array Territory) : (ofTerritories ts).Neat where
  __ := linked_ofTerritories ts
  nodup_neighbors t := by
    rw [neighbors_ofTerritories]
    exact List.nodup_nil

theorem Neat.connect {m : Atlas} (hm : m.Neat) (a b : TerritoryId) : (m.connect a b).Neat where
  __ := hm.toLinked.connect a b
  nodup_neighbors t := by
    rcases m.connect_eq_self_or a b with heq | ⟨hne, ha, hb, hnew⟩
    · rw [heq]
      exact hm.nodup_neighbors t
    · -- only one of the two lists is looked at, the other one agrees with it
      have hback : m.isAdjacent b a = false := by
        rw [Bool.eq_false_iff]
        intro hba
        rw [hm.adjacent_symm b a hba] at hnew
        cases hnew
      have hcons : ∀ x y, m.isAdjacent x y = false → (m.neighbors x ++ [y]).Nodup := by
        intro x y hxy
        rw [List.nodup_append]
        refine ⟨hm.nodup_neighbors x, by simp, ?_⟩
        intro z hz w hw hzw
        rw [hzw, List.mem_singleton.1 hw, mem_neighbors, hxy] at hz
        cases hz
      rw [neighbors_connect hne ha hb hnew]
      split
      · exact hcons a b hnew
      · split
        · exact hcons b a hback
        · exact hm.nodup_neighbors t

/-- However a map is drawn, its neighbour lists fit it and hold nothing twice. -/
theorem neat_chart (ts : Array Territory) (links : List (TerritoryId × TerritoryId)) :
    (chart ts links).Neat := by
  unfold chart
  have hstart := neat_ofTerritories ts
  -- each connection keeps it, so the map drawn so far is generalized
  generalize ofTerritories ts = m at hstart ⊢
  induction links generalizing m with
  | nil => exact hstart
  | cons link rest ih => exact ih _ (hstart.connect link.1 link.2)

@[simp] theorem size_chart (ts : Array Territory) (links : List (TerritoryId × TerritoryId)) :
    (chart ts links).size = ts.size := by
  unfold chart
  have hstart : (ofTerritories ts).size = ts.size := rfl
  generalize ofTerritories ts = m at hstart ⊢
  induction links generalizing m with
  | nil => exact hstart
  | cons link rest ih => exact ih _ ((m.size_connect link.1 link.2).trans hstart)

/-- A map that was drawn: its neighbour lists come from connections, whatever its entries are by
now. -/
def IsDrawn (m : Atlas) : Prop :=
  ∃ ts links, m.adjacency = (chart ts links).adjacency ∧ m.size = ts.size

theorem isDrawn_ofTerritories (ts : Array Territory) : (ofTerritories ts).IsDrawn :=
  ⟨ts, [], rfl, rfl⟩

theorem IsDrawn.connect {m : Atlas} (h : m.IsDrawn) (a b : TerritoryId) :
    (m.connect a b).IsDrawn := by
  rcases h with ⟨ts, links, hadjacency, hsize⟩
  refine ⟨ts, links ++ [(a, b)], ?_, (m.size_connect a b).trans hsize⟩
  have hlast : chart ts (links ++ [(a, b)]) = (chart ts links).connect a b := by
    rw [chart, List.foldl_append, List.foldl_cons, List.foldl_nil, chart]
  have hadjacent : m.isAdjacent a b = (chart ts links).isAdjacent a b := by
    rw [isAdjacent, isAdjacent, neighbors, neighbors, hadjacency]
  rw [hlast, Atlas.connect, Atlas.connect, hadjacency, hadjacent]
  split
  · exact hadjacency
  · rfl

theorem IsDrawn.neat {m : Atlas} (h : m.IsDrawn) : m.Neat := by
  rcases h with ⟨ts, links, hadjacency, hsize⟩
  have hneighbors : ∀ t, m.neighbors t = (chart ts links).neighbors t := by
    intro t
    rw [neighbors, neighbors, hadjacency]
  have hadjacent : ∀ a b, m.isAdjacent a b = (chart ts links).isAdjacent a b := by
    intro a b
    rw [isAdjacent, isAdjacent, hneighbors]
  have hm := neat_chart ts links
  refine ⟨⟨?_, ?_, ?_, ?_⟩, ?_⟩
  · rw [hadjacency, hm.adjacency_size, size_chart, hsize]
  · intro a b hab
    rw [hadjacent] at hab ⊢
    exact hm.adjacent_symm a b hab
  · intro a
    rw [hadjacent]
    exact hm.adjacent_irrefl a
  · intro a b hab
    rw [hadjacent] at hab
    rw [hsize, ← size_chart ts links]
    exact hm.adjacent_lt a b hab
  · intro t
    rw [hneighbors]
    exact hm.nodup_neighbors t

/-! ## Turns -/

/-- The number of every step from `t` on: the place of the territory that it enters among the
neighbours of the one that it leaves. -/
def turnsFrom (m : Atlas) : TerritoryId → List TerritoryId → List Nat
  | _, [] => []
  | t, u :: rest => (m.neighbors t).idxOf u :: turnsFrom m u rest

/-- The numbers of the steps of a route. -/
def turns (m : Atlas) (r : Route) : List Nat := m.turnsFrom r.start r.steps

/-- The order of routes: a shorter one comes before a longer one, and of two that are equally long
the one whose turns come first in lexicographic order. -/
def Precedes (m : Atlas) (r w : Route) : Prop :=
  r.length < w.length ∨ (r.length = w.length ∧ m.turns r < m.turns w)

theorem length_turnsFrom (m : Atlas) (t : TerritoryId) (steps : List TerritoryId) :
    (m.turnsFrom t steps).length = steps.length := by
  induction steps generalizing t with
  | nil => rfl
  | cons u rest ih => rw [turnsFrom, List.length_cons, ih, List.length_cons]

theorem length_turns (m : Atlas) (r : Route) : (m.turns r).length = r.length :=
  m.length_turnsFrom r.start r.steps

theorem turnsFrom_concat (m : Atlas) (t u : TerritoryId) (steps : List TerritoryId) :
    m.turnsFrom t (steps ++ [u]) =
      m.turnsFrom t steps ++ [(m.neighbors (steps.getLastD t)).idxOf u] := by
  induction steps generalizing t with
  | nil => rfl
  | cons x rest ih =>
    rw [List.cons_append, turnsFrom, ih, turnsFrom, List.cons_append, List.getLastD_cons]

theorem turns_extend (m : Atlas) (r : Route) (t : TerritoryId) :
    m.turns (r.extend t) = m.turns r ++ [(m.neighbors r.dest).idxOf t] :=
  m.turnsFrom_concat r.start t r.steps

/-- What decides between two lists of one length decides between their continuations. -/
theorem append_lt_append {xs ys : List Nat} (h : xs < ys) (hlen : xs.length = ys.length)
    (us vs : List Nat) : xs ++ us < ys ++ vs := by
  induction xs generalizing ys with
  | nil =>
    cases ys with
    | nil => exact absurd h (List.lt_irrefl [])
    | cons y ys => cases hlen
  | cons x xs ih =>
    cases ys with
    | nil => cases hlen
    | cons y ys =>
      rw [List.cons_append, List.cons_append, List.cons_lt_cons_iff]
      rcases List.cons_lt_cons_iff.1 h with hxy | ⟨rfl, hrest⟩
      · exact .inl hxy
      · exact .inr ⟨rfl, ih hrest (Nat.succ.inj hlen)⟩

namespace Precedes

variable {m : Atlas} {r v w : Route}

theorem irrefl (r : Route) : ¬ m.Precedes r r := by
  rintro (h | ⟨-, h⟩)
  · exact Nat.lt_irrefl _ h
  · exact List.lt_irrefl _ h

theorem trans (hrv : m.Precedes r v) (hvw : m.Precedes v w) : m.Precedes r w := by
  rcases hrv with hrv | ⟨hlen, hrv⟩
  · rcases hvw with hvw | ⟨hlen', -⟩
    · exact .inl (Nat.lt_trans hrv hvw)
    · exact .inl (hlen' ▸ hrv)
  · rcases hvw with hvw | ⟨hlen', hvw⟩
    · exact .inl (hlen ▸ hvw)
    · exact .inr ⟨hlen.trans hlen', List.lt_trans hrv hvw⟩

theorem length_le (h : m.Precedes r w) : r.length ≤ w.length := by
  rcases h with h | ⟨h, -⟩
  · exact Nat.le_of_lt h
  · exact Nat.le_of_eq h

/-- However two routes go on, the earlier one stays the earlier one. -/
theorem extend (h : m.Precedes r w) (t u : TerritoryId) :
    m.Precedes (r.extend t) (w.extend u) := by
  rcases h with h | ⟨hlen, h⟩
  · left
    rw [Route.length_extend, Route.length_extend]
    omega
  · right
    rw [Route.length_extend, Route.length_extend, hlen, turns_extend, turns_extend]
    exact ⟨rfl, append_lt_append h (by rw [length_turns, length_turns, hlen]) _ _⟩

/-- Of two ways to go on, the one that stands first in the neighbour list comes first. -/
theorem of_idxOf_lt {t u : TerritoryId}
    (h : (m.neighbors r.dest).idxOf t < (m.neighbors r.dest).idxOf u) :
    m.Precedes (r.extend t) (r.extend u) := by
  right
  rw [Route.length_extend, Route.length_extend, turns_extend, turns_extend]
  exact ⟨rfl, List.Lex.append_left _ (.rel h) (m.turns r)⟩

end Precedes

/-! ## Walks -/

namespace IsWalk

variable {m : Atlas} {passable : TerritoryId → Bool} {source goal : TerritoryId} {w : Route}

/-- A walk without steps stays where it is. -/
theorem eq_stay (h : m.IsWalk passable source goal w) (hlen : w.length = 0) :
    w = .stay source ∧ goal = source := by
  rcases w with ⟨start, steps⟩
  have hsteps : steps = [] := List.length_eq_zero_iff.1 hlen
  subst hsteps
  have hstart : start = source := h.start_eq
  have hdest : start = goal := h.dest_eq
  subst hstart
  exact ⟨rfl, hdest.symm⟩

/-- A walk with steps extends a walk by its last step. -/
theorem eq_extend (h : m.IsWalk passable source goal w) {k : Nat} (hlen : w.length = k + 1) :
    ∃ v u, m.IsWalk passable source u v ∧ v.length = k ∧ m.isAdjacent u goal = true ∧
      passable goal = true ∧ w = v.extend goal := by
  have hne : w.isEmpty = false := by
    rw [Bool.eq_false_iff]
    intro hemp
    rw [Route.length, Route.isEmpty_iff.1 hemp, List.length_nil] at hlen
    cases hlen
  have hsteps : w.steps = w.between ++ [goal] := h.dest_eq ▸ Route.steps_eq hne
  have hw : w = (⟨w.start, w.between⟩ : Route).extend goal := by
    rw [Route.extend, ← hsteps]
  have hchain := h.walk
  rw [hw, Route.territories_extend, List.isChain_append] at hchain
  refine ⟨⟨w.start, w.between⟩, (⟨w.start, w.between⟩ : Route).dest, ⟨h.start_eq, rfl, ?_, ?_⟩,
    ?_, ?_, ?_, hw⟩
  · exact hchain.1
  · intro t ht
    exact h.passable t (List.dropLast_subset _ ht)
  · rw [hw, Route.length_extend] at hlen
    exact Nat.succ.inj hlen
  · exact hchain.2.2 _ (Route.getLast?_territories _) goal rfl
  · exact h.passable goal (h.dest_eq ▸ Route.dest_mem_steps hne)

/-- Everything that a walk comes by is on the map if its start is. -/
theorem lt_size (h : m.IsWalk passable source goal w) (hm : m.Linked) (hsource : source < m.size) :
    ∀ t ∈ w.territories, t < m.size := by
  have hwalk : ∀ (steps : List TerritoryId) (t : TerritoryId),
      (t :: steps).IsChain (m.isAdjacent · · = true) → ∀ u ∈ steps, u < m.size := by
    intro steps
    induction steps with
    | nil => simp
    | cons x rest ih =>
      intro t hchain u hu
      rw [List.isChain_cons_cons] at hchain
      rcases List.mem_cons.1 hu with rfl | hu
      · exact hm.adjacent_lt t u hchain.1
      · exact ih x hchain.2 u hu
  intro t ht
  rcases List.mem_cons.1 ht with rfl | ht
  · rw [h.start_eq]
    exact hsource
  · exact hwalk w.steps w.start h.walk t ht

end IsWalk

/-- The first of all walks from `source` to `goal`: it comes before every other one. -/
structure IsFirst (m : Atlas) (passable : TerritoryId → Bool) (source goal : TerritoryId)
    (r : Route) : Prop where
  isWalk : m.IsWalk passable source goal r
  precedes : ∀ w, m.IsWalk passable source goal w → w ≠ r → m.Precedes r w

namespace IsFirst

variable {m : Atlas} {passable : TerritoryId → Bool} {source goal : TerritoryId} {r : Route}

theorem unique {r' : Route} (h : m.IsFirst passable source goal r)
    (h' : m.IsFirst passable source goal r') : r = r' := by
  by_contra hne
  have hback := h'.precedes r h.isWalk hne
  exact Precedes.irrefl r ((h.precedes r' h'.isWalk (Ne.symm hne)).trans hback)

/-- No walk is shorter than the first one. -/
theorem length_le (h : m.IsFirst passable source goal r) {w : Route}
    (hw : m.IsWalk passable source goal w) : r.length ≤ w.length := by
  by_cases heq : w = r
  · rw [heq]
  · exact (h.precedes w hw heq).length_le

theorem stay (m : Atlas) (passable : TerritoryId → Bool) (t : TerritoryId) :
    m.IsFirst passable t t (.stay t) where
  isWalk := m.isWalk_stay passable t
  precedes w hw hne := by
    left
    refine Nat.pos_of_ne_zero ?_
    intro hzero
    exact hne (hw.eq_stay hzero).1

/-- The first route has steps if it leads to another territory, and only then. -/
theorem length_pos_iff (h : m.IsFirst passable source goal r) : 0 < r.length ↔ goal ≠ source := by
  constructor
  · rintro hpos rfl
    rw [h.unique (stay m passable goal)] at hpos
    exact Nat.lt_irrefl 0 hpos
  · intro hne
    refine Nat.pos_of_ne_zero ?_
    intro hzero
    exact hne (h.isWalk.eq_stay hzero).2

end IsFirst

/-! ## One round -/

/-- The routes that a round chooses from: the extensions of the frontier into what is passable and
not reached yet. -/
def candidates (m : Atlas) (passable : TerritoryId → Bool) (reached : List TerritoryId)
    (frontier : List Route) : List Route :=
  (frontier.flatMap m.extensions).filter fun r => passable r.dest && !reached.contains r.dest

/-- The routes that a round finds: of the candidates for each territory the first one. -/
def tour (m : Atlas) (passable : TerritoryId → Bool) (reached : List TerritoryId)
    (frontier : List Route) : List Route :=
  (m.candidates passable reached frontier).eraseDupsBy fun a b => a.dest == b.dest

theorem toursFrom_succ (m : Atlas) (passable : TerritoryId → Bool) (rounds : Nat)
    (reached : List TerritoryId) (frontier : List Route) :
    m.toursFrom passable (rounds + 1) reached frontier =
      if (m.tour passable reached frontier).isEmpty then []
      else m.tour passable reached frontier ::
        m.toursFrom passable rounds
          (reached ++ (m.tour passable reached frontier).map Route.dest)
          (m.tour passable reached frontier) :=
  rfl

theorem mem_candidates {m : Atlas} {passable : TerritoryId → Bool} {reached : List TerritoryId}
    {frontier : List Route} {x : Route} :
    x ∈ m.candidates passable reached frontier ↔ ∃ r ∈ frontier, ∃ t,
      m.isAdjacent r.dest t = true ∧ passable t = true ∧ t ∉ reached ∧ x = r.extend t := by
  unfold candidates extensions
  rw [List.mem_filter, List.mem_flatMap]
  constructor
  · rintro ⟨⟨r, hr, hx⟩, hkeep⟩
    rcases List.mem_map.1 hx with ⟨t, ht, rfl⟩
    rw [Route.dest_extend] at hkeep
    have hpass : passable t = true ∧ t ∉ reached := by simpa using hkeep
    exact ⟨r, hr, t, mem_neighbors.1 ht, hpass.1, hpass.2, rfl⟩
  · rintro ⟨r, hr, t, hadj, hpass, hnew, rfl⟩
    refine ⟨⟨r, hr, List.mem_map.2 ⟨t, mem_neighbors.2 hadj, rfl⟩⟩, ?_⟩
    rw [Route.dest_extend]
    simp [hpass, hnew]

theorem tour_sublist (m : Atlas) (passable : TerritoryId → Bool) (reached : List TerritoryId)
    (frontier : List Route) :
    (m.tour passable reached frontier).Sublist (m.candidates passable reached frontier) :=
  eraseDupsBy_sublist _ _

/-- A round reaches every territory once. -/
theorem nodup_dest_tour (m : Atlas) (passable : TerritoryId → Bool) (reached : List TerritoryId)
    (frontier : List Route) : ((m.tour passable reached frontier).map Route.dest).Nodup := by
  rw [tour, map_eraseDupsBy]
  exact nodup_eraseDups _

theorem pairwise_idxOf {xs : List Nat} (h : xs.Nodup) :
    xs.Pairwise fun x y => xs.idxOf x < xs.idxOf y := by
  rw [List.pairwise_iff_getElem]
  intro i j hi hj hij
  rw [h.idxOf_getElem i hi, h.idxOf_getElem j hj]
  exact hij

/-- Extending the routes of a frontier in order gives routes in order. -/
theorem Neat.sorted_candidates {m : Atlas} (hm : m.Neat) {frontier : List Route}
    (hsorted : frontier.Pairwise m.Precedes) (passable : TerritoryId → Bool)
    (reached : List TerritoryId) :
    (m.candidates passable reached frontier).Pairwise m.Precedes := by
  apply List.Pairwise.filter
  rw [List.pairwise_flatMap]
  constructor
  · intro r _
    rw [extensions, List.pairwise_map]
    exact (pairwise_idxOf (hm.nodup_neighbors r.dest)).imp Precedes.of_idxOf_lt
  · refine hsorted.imp ?_
    intro r w hrw x hx y hy
    rcases List.mem_map.1 hx with ⟨t, -, rfl⟩
    rcases List.mem_map.1 hy with ⟨u, -, rfl⟩
    exact hrw.extend t u

/-! ## The wavefront -/

/-- What is known when `k` rounds of a search from `source` are over: what can be reached in at
most `k` steps is reached, and the frontier holds the first routes of `k` steps to the territories
that are no nearer, in order. -/
structure Wavefront (m : Atlas) (passable : TerritoryId → Bool) (source : TerritoryId) (k : Nat)
    (reached : List TerritoryId) (frontier : List Route) : Prop where
  reached_iff : ∀ t, t ∈ reached ↔ ∃ w, m.IsWalk passable source t w ∧ w.length ≤ k
  first : ∀ r ∈ frontier, m.IsFirst passable source r.dest r ∧ r.length = k
  covers : ∀ t w, m.IsWalk passable source t w → w.length = k →
    (∀ v, m.IsWalk passable source t v → k ≤ v.length) → ∃ r ∈ frontier, r.dest = t
  sorted : frontier.Pairwise m.Precedes

/-- Before the first round only the source is reached. -/
theorem wavefront_start (m : Atlas) (passable : TerritoryId → Bool) (source : TerritoryId) :
    m.Wavefront passable source 0 [source] [.stay source] := by
  constructor
  · intro t
    rw [List.mem_singleton]
    constructor
    · rintro rfl
      exact ⟨.stay t, m.isWalk_stay passable t, Nat.le_refl 0⟩
    · rintro ⟨w, hw, hlen⟩
      exact (hw.eq_stay (Nat.le_zero.1 hlen)).2
  · intro r hr
    rw [List.mem_singleton.1 hr]
    exact ⟨IsFirst.stay m passable source, rfl⟩
  · intro t w hw hlen _
    exact ⟨.stay source, List.mem_singleton.2 rfl, (hw.eq_stay hlen).2.symm⟩
  · exact List.pairwise_singleton _ _

namespace Wavefront

variable {m : Atlas} {passable : TerritoryId → Bool} {source : TerritoryId} {k : Nat}
  {reached : List TerritoryId} {frontier : List Route}

/-- What is not reached yet takes more steps. -/
theorem lt_length (h : m.Wavefront passable source k reached frontier) {t : TerritoryId}
    (ht : t ∉ reached) {w : Route} (hw : m.IsWalk passable source t w) : k < w.length := by
  by_contra hle
  exact ht ((h.reached_iff t).2 ⟨w, hw, Nat.le_of_not_lt hle⟩)

/-- Whatever walk of one more step leads somewhere new, the round finds a route there that is this
walk or comes before it. -/
theorem exists_mem_tour (hm : m.Neat) (h : m.Wavefront passable source k reached frontier)
    {t : TerritoryId} (ht : t ∉ reached) {w : Route} (hw : m.IsWalk passable source t w)
    (hlen : w.length = k + 1) :
    ∃ y ∈ m.tour passable reached frontier, y.dest = t ∧ (y = w ∨ m.Precedes y w) := by
  rcases hw.eq_extend hlen with ⟨v, u, hv, hvlen, hadj, hpass, rfl⟩
  -- a shorter walk to the last territory before `t` would have reached `t` already
  have hnear : ∀ v', m.IsWalk passable source u v' → k ≤ v'.length := by
    intro v' hv'
    have hlt := h.lt_length ht (hv'.extend hadj hpass)
    rw [Route.length_extend] at hlt
    exact Nat.le_of_lt_succ hlt
  rcases h.covers u v hv hvlen hnear with ⟨r, hr, rfl⟩
  have hmem : r.extend t ∈ m.candidates passable reached frontier :=
    mem_candidates.2 ⟨r, hr, t, hadj, hpass, ht, rfl⟩
  rcases exists_mem_eraseDupsBy (hm.sorted_candidates h.sorted passable reached) hmem with
    ⟨y, hy, hdest, hyr⟩
  refine ⟨y, hy, hdest.trans (r.dest_extend t), ?_⟩
  -- the frontier holds `v` or a route before it, and the order survives the step to `t`
  by_cases hvr : v = r
  · rw [hvr]
    exact hyr
  · have hrv := ((h.first r hr).1.precedes v hv hvr).extend t t
    right
    rcases hyr with rfl | hyr
    · exact hrv
    · exact hyr.trans hrv

/-- What a round finds are first routes of one more step, to what was not reached before. -/
theorem first_of_mem_tour (hm : m.Neat) (h : m.Wavefront passable source k reached frontier)
    {y : Route} (hy : y ∈ m.tour passable reached frontier) :
    m.IsFirst passable source y.dest y ∧ y.length = k + 1 ∧ y.dest ∉ reached := by
  rcases mem_candidates.1 ((m.tour_sublist passable reached frontier).subset hy) with
    ⟨r, hr, t, hadj, hpass, hnew, heq⟩
  rcases h.first r hr with ⟨hfirst, hrlen⟩
  have hdest : y.dest = t := by rw [heq, Route.dest_extend]
  have hlen : y.length = k + 1 := by rw [heq, Route.length_extend, hrlen]
  have hwalk : m.IsWalk passable source t y := heq ▸ hfirst.isWalk.extend hadj hpass
  refine ⟨⟨hdest ▸ hwalk, ?_⟩, hlen, hdest ▸ hnew⟩
  intro w hw hne
  rw [hdest] at hw
  have hlt := h.lt_length hnew hw
  by_cases hwlen : w.length = k + 1
  · -- the round has one route to `t`, and it is no later than `w`
    rcases h.exists_mem_tour hm hnew hw hwlen with ⟨z, hz, hzdest, hzw⟩
    have hzy : z = y := List.inj_on_of_nodup_map
      (m.nodup_dest_tour passable reached frontier) hz hy (hzdest.trans hdest.symm)
    subst hzy
    rcases hzw with hzw | hzw
    · exact absurd hzw.symm hne
    · exact hzw
  · left
    omega

/-- One round leads from wavefront to wavefront. -/
theorem next (hm : m.Neat) (h : m.Wavefront passable source k reached frontier) :
    m.Wavefront passable source (k + 1)
      (reached ++ (m.tour passable reached frontier).map Route.dest)
      (m.tour passable reached frontier) := by
  constructor
  · intro t
    rw [List.mem_append, h.reached_iff]
    constructor
    · -- what is reached is at most one step farther
      rintro (⟨w, hw, hlen⟩ | ht)
      · exact ⟨w, hw, Nat.le_succ_of_le hlen⟩
      · rcases List.mem_map.1 ht with ⟨y, hy, rfl⟩
        rcases h.first_of_mem_tour hm hy with ⟨hfirst, hlen, -⟩
        exact ⟨y, hfirst.isWalk, Nat.le_of_eq hlen⟩
    · rintro ⟨w, hw, hlen⟩
      by_cases ht : t ∈ reached
      · exact .inl ((h.reached_iff t).1 ht)
      · have hlt := h.lt_length ht hw
        rcases h.exists_mem_tour hm ht hw (by omega) with ⟨y, hy, hdest, -⟩
        exact .inr (List.mem_map.2 ⟨y, hy, hdest⟩)
  · intro y hy
    rcases h.first_of_mem_tour hm hy with ⟨hfirst, hlen, -⟩
    exact ⟨hfirst, hlen⟩
  · -- what is just one step farther is found in this round
    intro t w hw hlen hmin
    have ht : t ∉ reached := by
      intro ht
      rcases (h.reached_iff t).1 ht with ⟨v, hv, hvlen⟩
      have hle := hmin v hv
      omega
    rcases h.exists_mem_tour hm ht hw hlen with ⟨y, hy, hdest, -⟩
    exact ⟨y, hy, hdest⟩
  · exact (hm.sorted_candidates h.sorted passable reached).sublist
      (m.tour_sublist passable reached frontier)

/-- Once a round finds nothing, everything that can be reached is reached. -/
theorem mem_reached_of_nil (hm : m.Neat) (h : m.Wavefront passable source k reached [])
    {t : TerritoryId} {w : Route} (hw : m.IsWalk passable source t w) : t ∈ reached := by
  -- the empty frontier stays empty in all rounds that could follow
  have hstill : ∀ n, m.Wavefront passable source (k + n) reached [] := by
    intro n
    induction n with
    | zero => exact h
    | succ n ih =>
      have hnext := ih.next hm
      have htour : m.tour passable reached [] = [] := rfl
      rw [htour, List.map_nil, List.append_nil] at hnext
      exact hnext
  exact ((hstill w.length).reached_iff t).2 ⟨w, hw, Nat.le_add_left _ _⟩

/-- All routes that the rounds to come find are first, they lead to what was not reached before,
and they are found in order. -/
theorem sound (hm : m.Neat) (h : m.Wavefront passable source k reached frontier) (rounds : Nat) :
    (∀ r ∈ (m.toursFrom passable rounds reached frontier).flatten,
      m.IsFirst passable source r.dest r ∧ k < r.length ∧ r.length ≤ k + rounds) ∧
    (m.toursFrom passable rounds reached frontier).flatten.Pairwise m.Precedes := by
  induction rounds generalizing k reached frontier with
  | zero => exact ⟨by simp [toursFrom], .nil⟩
  | succ rounds ih =>
    rw [toursFrom_succ]
    split
    · exact ⟨by simp, .nil⟩
    · have hnext := h.next hm
      rcases ih hnext with ⟨hfirst, hsorted⟩
      rw [List.flatten_cons]
      constructor
      · intro r hr
        rcases List.mem_append.1 hr with hr | hr
        · rcases hnext.first r hr with ⟨hr, hlen⟩
          exact ⟨hr, by omega, by omega⟩
        · rcases hfirst r hr with ⟨hr, hlt, hle⟩
          exact ⟨hr, by omega, by omega⟩
      · rw [List.pairwise_append]
        refine ⟨hnext.sorted, hsorted, ?_⟩
        -- the routes of this round are shorter than those of all later ones
        intro r hr w hw
        left
        rw [(hnext.first r hr).2]
        exact (hfirst w hw).2.1

/-- Whatever can be reached in so many more steps, the rounds to come find a route there. -/
theorem complete (hm : m.Neat) (h : m.Wavefront passable source k reached frontier) (rounds : Nat)
    {t : TerritoryId} (ht : t ∉ reached) {w : Route} (hw : m.IsWalk passable source t w)
    (hlen : w.length ≤ k + rounds) :
    ∃ r ∈ (m.toursFrom passable rounds reached frontier).flatten, r.dest = t := by
  induction rounds generalizing k reached frontier with
  | zero => exact absurd ((h.reached_iff t).2 ⟨w, hw, hlen⟩) ht
  | succ rounds ih =>
    have hnext := h.next hm
    rw [toursFrom_succ]
    split
    · rename_i hemp
      have hnil := List.isEmpty_iff.1 hemp
      rw [hnil, List.map_nil, List.append_nil] at hnext
      exact absurd (hnext.mem_reached_of_nil hm hw) ht
    · rw [List.flatten_cons]
      by_cases hfound : t ∈ (m.tour passable reached frontier).map Route.dest
      · rcases List.mem_map.1 hfound with ⟨r, hr, hdest⟩
        exact ⟨r, List.mem_append_left _ hr, hdest⟩
      · have hnew : t ∉ reached ++ (m.tour passable reached frontier).map Route.dest := by
          simp [ht, hfound]
        rcases ih hnext hnew (by omega) with ⟨r, hr, hdest⟩
        exact ⟨r, List.mem_append_right _ hr, hdest⟩

end Wavefront

/-! ## The search -/

section Search

variable {m : Atlas} {passable : TerritoryId → Bool} {source goal : TerritoryId} {r : Route}

/-- In so many rounds a search finds the first routes of so many steps, and nothing else. -/
theorem mem_tours_iff (hm : m.Neat) {rounds : Nat} :
    r ∈ (m.toursFrom passable rounds [source] [.stay source]).flatten ↔
      m.IsFirst passable source r.dest r ∧ 0 < r.length ∧ r.length ≤ rounds := by
  have hstart := m.wavefront_start passable source
  constructor
  · intro hr
    rcases (hstart.sound hm rounds).1 r hr with ⟨hfirst, hpos, hle⟩
    exact ⟨hfirst, hpos, Nat.zero_add rounds ▸ hle⟩
  · rintro ⟨hfirst, hpos, hle⟩
    have hnew : r.dest ∉ [source] := by
      rw [List.mem_singleton]
      exact hfirst.length_pos_iff.1 hpos
    rcases hstart.complete hm rounds hnew hfirst.isWalk ((Nat.zero_add rounds).symm ▸ hle) with
      ⟨r', hr', hdest⟩
    have hfirst' := ((hstart.sound hm rounds).1 r' hr').1
    rw [hdest] at hfirst'
    exact hfirst.unique hfirst' ▸ hr'

/-- Where there is a walk, there is a first one. -/
theorem exists_isFirst (hm : m.Neat) {w : Route} (hw : m.IsWalk passable source goal w) :
    ∃ r, m.IsFirst passable source goal r := by
  by_cases hgoal : goal ∈ [source]
  · rw [List.mem_singleton] at hgoal
    exact ⟨.stay source, hgoal ▸ IsFirst.stay m passable source⟩
  · have hstart := m.wavefront_start passable source
    rcases hstart.complete hm w.length hgoal hw (Nat.le_add_left _ _) with ⟨r, hr, rfl⟩
    exact ⟨r, ((hstart.sound hm w.length).1 r hr).1⟩

/-- The first route comes by no territory twice. -/
theorem IsFirst.leads (hm : m.Neat) (h : m.IsFirst passable source goal r) :
    m.Leads passable source goal r := by
  rcases Nat.eq_zero_or_pos r.length with hzero | hpos
  · rcases h.isWalk.eq_stay hzero with ⟨rfl, rfl⟩
    exact m.leads_stay passable goal
  · have hdest := h.isWalk.dest_eq
    have hmem := (mem_tours_iff hm).2 ⟨hdest.symm ▸ h, hpos, Nat.le_refl r.length⟩
    exact hdest ▸ toursFrom_leads r.length (m.frontier_start passable source) r hmem

/-- The first route has fewer steps than the map has territories. -/
theorem IsFirst.length_lt (hm : m.Neat) (h : m.IsFirst passable source goal r)
    (hpos : 0 < r.length) : r.length < m.size := by
  -- the source has a neighbour, so it is on the map
  have hsource : source < m.size := by
    have hwalk := h.isWalk.walk
    rw [Route.territories, h.isWalk.start_eq] at hwalk
    cases hsteps : r.steps with
    | nil =>
      rw [Route.length, hsteps] at hpos
      cases hpos
    | cons t rest =>
      rw [hsteps, List.isChain_cons_cons] at hwalk
      exact hm.adjacent_lt t source (hm.adjacent_symm source t hwalk.1)
  have hsub : r.territories ⊆ List.range m.size := by
    intro t ht
    exact List.mem_range.2 (h.isWalk.lt_size hm.toLinked hsource t ht)
  have hle := (List.subperm_of_subset (h.leads hm).nodup hsub).length_le
  rw [List.length_range, Route.territories, List.length_cons] at hle
  exact hle

/-- The search finds a route if and only if it is the first one. -/
theorem route?_eq_some_iff (hm : m.Neat) :
    m.route? source goal passable = some r ↔ m.IsFirst passable source goal r := by
  have hfound : ∀ {r : Route}, m.route? source goal passable = some r →
      m.IsFirst passable source goal r := by
    intro r hr
    unfold route? at hr
    split at hr
    · rename_i heq
      cases hr
      exact heq ▸ IsFirst.stay m passable source
    · have hdest : r.dest = goal := by simpa using List.find?_some hr
      exact hdest ▸ ((mem_tours_iff hm).1 (List.mem_of_find?_eq_some hr)).1
  constructor
  · exact hfound
  · intro hr
    -- something is found, and what is found is the first
    have hsome : (m.route? source goal passable).isSome = true := by
      unfold route?
      split
      · rfl
      · rename_i hne
        have hdest := hr.isWalk.dest_eq
        have hpos : 0 < r.length := hr.length_pos_iff.2 (Ne.symm hne)
        rw [List.find?_isSome]
        refine ⟨r, (mem_tours_iff hm).2 ⟨hdest.symm ▸ hr, hpos, ?_⟩, by simp [hdest]⟩
        exact Nat.le_of_lt (hr.length_lt hm hpos)
    rcases Option.isSome_iff_exists.1 hsome with ⟨r', hr'⟩
    rw [hr', (hfound hr').unique hr]

end Search

/-- On every map that is drawn by connections, the search for a route answers if and only if there
is a walk on which everything entered is passable. The answer is such a walk, it comes by no
territory twice, and it comes before every other such walk: it is shorter, or it is as long and its
turns are the first in lexicographic order. -/
theorem route_first_shortest (ts : Array Territory) (links : List (TerritoryId × TerritoryId))
    (source goal : TerritoryId) (passable : TerritoryId → Bool) :
    (((chart ts links).route? source goal passable).isSome = true ↔
      ∃ w, (chart ts links).IsWalk passable source goal w) ∧
    ∀ r, (chart ts links).route? source goal passable = some r →
      (chart ts links).IsWalk passable source goal r ∧ r.territories.Nodup ∧
      ∀ w, (chart ts links).IsWalk passable source goal w → w ≠ r →
        r.length < w.length ∨
          (r.length = w.length ∧ (chart ts links).turns r < (chart ts links).turns w) := by
  have hm := neat_chart ts links
  constructor
  · constructor
    · intro hsome
      rcases Option.isSome_iff_exists.1 hsome with ⟨r, hr⟩
      exact ⟨r, ((route?_eq_some_iff hm).1 hr).isWalk⟩
    · rintro ⟨w, hw⟩
      rcases exists_isFirst hm hw with ⟨r, hr⟩
      rw [(route?_eq_some_iff hm).2 hr]
      rfl
  · intro r hr
    have hfirst := (route?_eq_some_iff hm).1 hr
    exact ⟨hfirst.isWalk, (hfirst.leads hm).nodup, hfirst.precedes⟩

-- of two ways around a square the search takes the one by the neighbour that was connected first
example : (chart (Array.replicate 4 default) [(0, 2), (0, 1), (1, 3), (2, 3)]).route? 0 3
    (fun _ => true) = some ⟨0, [2, 3]⟩ := by decide +kernel

end Conquest.Atlas
