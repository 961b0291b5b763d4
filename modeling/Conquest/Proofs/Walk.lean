import Mathlib.Data.List.Chain
import Conquest.Proofs.Choice

/-!
# Routes are walks

A route that the search finds starts and ends where it should, steps from neighbour to neighbour,
enters only what may be entered, and comes by no territory twice.

* `Atlas.Linked`, `Atlas.Sound`: neighbourhood is mutual, no territory is its own neighbour, and
  every neighbour is on the map; connecting two territories and changing one keep it.
* `Atlas.IsWalk`: a walk through passable territory; `Atlas.Leads`: a walk that comes by no
  territory twice; `route?_leads`: the search finds such routes only.
-/

namespace Conquest

/-! ## Routes -/

namespace Route

@[simp] theorem territories_stay (t : TerritoryId) : (stay t).territories = [t] := rfl

@[simp] theorem steps_extend (r : Route) (t : TerritoryId) : (r.extend t).steps = r.steps ++ [t] :=
  rfl

@[simp] theorem start_extend (r : Route) (t : TerritoryId) : (r.extend t).start = r.start := rfl

theorem getLast?_territories (r : Route) : r.territories.getLast? = some r.dest := by
  simp [territories, dest, List.getLast?_cons, List.getLastD_eq_getLast?]

/-- A route is empty when it has no steps. -/
theorem isEmpty_iff {r : Route} : r.isEmpty = true ↔ r.steps = [] := by
  simp [isEmpty]

/-- Up to its end a route enters the territories in between. -/
theorem steps_eq {r : Route} (h : r.isEmpty = false) : r.steps = r.between ++ [r.dest] := by
  have hne : r.steps ≠ [] := by
    intro hnil
    rw [isEmpty_iff.2 hnil] at h
    cases h
  unfold between dest
  rw [List.getLastD_eq_getLast?, List.getLast?_eq_some_getLast hne, Option.getD_some,
    List.dropLast_append_getLast hne]

theorem dest_mem_steps {r : Route} (h : r.isEmpty = false) : r.dest ∈ r.steps := by
  rw [steps_eq h]
  simp

theorem steps_truncate_subset (r : Route) (n : Nat) : (r.truncate n).steps ⊆ r.steps :=
  List.take_subset n r.steps

/-- A part of a route that is shorter than the route ends in between. -/
theorem dest_truncate_mem_between {r : Route} {n : Nat} (hpos : 0 < n) (hlt : n < r.length) :
    (r.truncate n).dest ∈ r.between := by
  have hlen : (r.truncate n).length = n := by
    rw [length_truncate]
    omega
  have hne : (r.truncate n).isEmpty = false := by
    rw [Bool.eq_false_iff]
    intro he
    rw [isEmpty_iff] at he
    rw [length, he, List.length_nil] at hlen
    omega
  have hmem := dest_mem_steps hne
  -- all steps of the shorter route are steps in between
  have htake : (r.truncate n).steps = r.between.take n := by
    unfold truncate between
    rw [List.dropLast_eq_take, List.take_take]
    have hmin : min n (r.steps.length - 1) = n := by
      rw [length] at hlt
      omega
    rw [hmin]
  rw [htake] at hmem
  exact List.mem_of_mem_take hmem

end Route

namespace Atlas

/-! ## Neighbourhood -/

/-- A well-formed map. -/
structure Sound (m : Atlas) : Prop where
  adjacency_size : m.adjacency.size = m.size
  id_territory : ∀ t < m.size, (m.territory t).id = t
  adjacent_symm : ∀ a b, m.isAdjacent a b = true → m.isAdjacent b a = true
  adjacent_irrefl : ∀ a, m.isAdjacent a a = false
  adjacent_lt : ∀ a b, m.isAdjacent a b = true → b < m.size

/-- The neighbour lists fit the map, whatever its entries are. -/
structure Linked (m : Atlas) : Prop where
  adjacency_size : m.adjacency.size = m.size
  adjacent_symm : ∀ a b, m.isAdjacent a b = true → m.isAdjacent b a = true
  adjacent_irrefl : ∀ a, m.isAdjacent a a = false
  adjacent_lt : ∀ a b, m.isAdjacent a b = true → b < m.size

theorem Sound.linked {m : Atlas} (hm : m.Sound) : m.Linked := { hm with }

/-- The neighbours of a territory are those that are adjacent to it. -/
theorem mem_neighbors {m : Atlas} {a b : TerritoryId} :
    b ∈ m.neighbors a ↔ m.isAdjacent a b = true := by
  simp [isAdjacent]

theorem getElem?_territories {m : Atlas} {t : TerritoryId} (h : t < m.size) :
    m.territories[t]? = some (m.territory t) := by
  have hlt : t < m.territories.size := h
  simp [territory, hlt]

/-- Beyond the map there is only the default. -/
theorem territory_of_le {m : Atlas} {t : TerritoryId} (h : m.size ≤ t) :
    m.territory t = default := by
  unfold size at h
  simp [territory, h]

theorem lt_size_of_isWater {m : Atlas} {t : TerritoryId} (h : m.isWater t = true) :
    t < m.size := by
  by_contra hle
  rw [isWater, territory_of_le (Nat.le_of_not_lt hle)] at h
  cases h

/-- Only territories on the map have owners. -/
theorem lt_size_of_owner {m : Atlas} {t : TerritoryId} {p : PlayerId}
    (h : (m.territory t).owner = some p) : t < m.size := by
  by_contra hle
  rw [territory_of_le (Nat.le_of_not_lt hle)] at h
  cases h

/-- The neighbours after a connection that is made. -/
theorem neighbors_connect {m : Atlas} {a b : TerritoryId} (hne : a ≠ b)
    (ha : a < m.adjacency.size) (hb : b < m.adjacency.size) (hnew : m.isAdjacent a b = false)
    (x : TerritoryId) :
    (m.connect a b).neighbors x =
      if x = a then m.neighbors a ++ [b] else if x = b then m.neighbors b ++ [a]
      else m.neighbors x := by
  have hcond : ¬ (a = b ∨ m.adjacency.size ≤ a ∨ m.adjacency.size ≤ b ∨
      m.isAdjacent a b = true) := by
    rw [hnew]
    simp only [Bool.false_eq_true, or_false, not_or, Nat.not_le]
    exact ⟨hne, ha, hb⟩
  unfold connect
  rw [if_neg hcond]
  simp only [neighbors, Array.getD_eq_getD_getElem?, Array.getElem?_modify]
  -- both ends are on the map, so both entries change
  by_cases hxa : x = a
  · subst hxa
    simp [ha, Ne.symm hne]
  · by_cases hxb : x = b
    · subst hxb
      simp [hb, hxa, hne]
    · simp [hxa, hxb, Ne.symm hxa, Ne.symm hxb]

/-- The new neighbour is at one of the two ends, every other one was there before. -/
theorem isAdjacent_connect {m : Atlas} {a b : TerritoryId} (hne : a ≠ b)
    (ha : a < m.adjacency.size) (hb : b < m.adjacency.size) (hnew : m.isAdjacent a b = false)
    (x y : TerritoryId) :
    (m.connect a b).isAdjacent x y = true ↔
      m.isAdjacent x y = true ∨ (x = a ∧ y = b) ∨ (x = b ∧ y = a) := by
  rw [← mem_neighbors, ← mem_neighbors, neighbors_connect hne ha hb hnew]
  by_cases hxa : x = a
  · subst hxa
    simp [hne]
  · by_cases hxb : x = b
    · subst hxb
      simp [hxa]
    · simp [hxa, hxb]

/-- A connection is made, or it changes nothing. -/
theorem connect_eq_self_or (m : Atlas) (a b : TerritoryId) :
    m.connect a b = m ∨ (a ≠ b ∧ a < m.adjacency.size ∧ b < m.adjacency.size ∧
      m.isAdjacent a b = false) := by
  by_cases hcond : a = b ∨ m.adjacency.size ≤ a ∨ m.adjacency.size ≤ b ∨ m.isAdjacent a b = true
  · left
    unfold connect
    rw [if_pos hcond]
  · right
    simp only [not_or, Nat.not_le, Bool.not_eq_true] at hcond
    exact hcond

@[simp] theorem territories_connect (m : Atlas) (a b : TerritoryId) :
    (m.connect a b).territories = m.territories := by
  unfold connect
  split
  · rfl
  · rfl

@[simp] theorem size_connect (m : Atlas) (a b : TerritoryId) : (m.connect a b).size = m.size := by
  rw [size, territories_connect, size]

@[simp] theorem adjacency_size_connect (m : Atlas) (a b : TerritoryId) :
    (m.connect a b).adjacency.size = m.adjacency.size := by
  unfold connect
  split
  · rfl
  · simp

/-- A connection keeps the neighbour lists fit. -/
theorem Linked.connect {m : Atlas} (hm : m.Linked) (a b : TerritoryId) :
    (m.connect a b).Linked := by
  rcases m.connect_eq_self_or a b with heq | ⟨hne, ha, hb, hnew⟩
  · rw [heq]
    exact hm
  · -- new neighbours are the two ends alone
    have hcases := isAdjacent_connect hne ha hb hnew
    constructor
    · rw [adjacency_size_connect, size_connect]
      exact hm.adjacency_size
    · intro x y hxy
      rw [hcases] at hxy ⊢
      rcases hxy with h | ⟨rfl, rfl⟩ | ⟨rfl, rfl⟩
      · exact .inl (hm.adjacent_symm x y h)
      · exact .inr (.inr ⟨rfl, rfl⟩)
      · exact .inr (.inl ⟨rfl, rfl⟩)
    · intro x
      rw [Bool.eq_false_iff]
      intro hxx
      rcases (hcases x x).1 hxx with h | ⟨rfl, h⟩ | ⟨rfl, h⟩
      · rw [hm.adjacent_irrefl x] at h
        cases h
      · exact hne h
      · exact hne h.symm
    · intro x y hxy
      rw [size_connect]
      rcases (hcases x y).1 hxy with h | ⟨rfl, rfl⟩ | ⟨rfl, rfl⟩
      · exact hm.adjacent_lt x y h
      · exact hm.adjacency_size ▸ hb
      · exact hm.adjacency_size ▸ ha

/-- Connecting two territories keeps the atlas well-formed. -/
theorem Sound.connect {m : Atlas} (hm : m.Sound) (a b : TerritoryId) : (m.connect a b).Sound where
  __ := hm.linked.connect a b
  id_territory t ht := by
    rw [size_connect] at ht
    rw [territory, territories_connect]
    exact hm.id_territory t ht

/-- Changing an entry, its identifier apart, leaves the map well-formed. -/
theorem Sound.modify {m : Atlas} (hm : m.Sound) (t : TerritoryId) (f : Territory → Territory)
    (hf : ∀ x, (f x).id = x.id) : (m.modify t f).Sound := by
  have hsize : (m.modify t f).size = m.size := by
    simp [size, Atlas.modify]
  constructor
  · rw [hsize]
    exact hm.adjacency_size
  · intro x hx
    rw [hsize] at hx
    have hid := hm.id_territory x hx
    simp only [territory, Atlas.modify, Array.getD_eq_getD_getElem?, Array.getElem?_modify] at hid ⊢
    have hget : m.territories[x]? = some m.territories[x] := Array.getElem?_eq_getElem hx
    rw [hget] at hid ⊢
    by_cases htx : t = x
    · simpa [htx, hf] using hid
    · simpa [htx] using hid
  · exact hm.adjacent_symm
  · exact hm.adjacent_irrefl
  · intro a b hab
    rw [hsize]
    exact hm.adjacent_lt a b hab

/-- Before any connection nobody has neighbours. -/
theorem neighbors_ofTerritories (ts : Array Territory) (t : TerritoryId) :
    (ofTerritories ts).neighbors t = [] := by
  simp only [neighbors, ofTerritories, Array.getD_eq_getD_getElem?, Array.getElem?_map]
  cases ts[t]? with
  | none => rfl
  | some _ => rfl

/-- Without connections the neighbour lists fit every map. -/
theorem linked_ofTerritories (ts : Array Territory) : (ofTerritories ts).Linked := by
  have hnone : ∀ a b, (ofTerritories ts).isAdjacent a b = false := by
    intro a b
    rw [isAdjacent, neighbors_ofTerritories]
    rfl
  constructor
  · simp [ofTerritories, size]
  · intro a b hab
    rw [hnone] at hab
    cases hab
  · intro a
    exact hnone a a
  · intro a b hab
    rw [hnone] at hab
    cases hab

/-- A map without connections is well-formed if the identifiers are the positions. -/
theorem sound_ofTerritories (ts : Array Territory)
    (hid : ∀ t (ht : t < ts.size), ts[t].id = t) : (ofTerritories ts).Sound where
  __ := linked_ofTerritories ts
  id_territory t ht := by
    have hlt : t < ts.size := ht
    have hget := getElem?_territories ht
    rw [ofTerritories, Array.getElem?_eq_getElem hlt, Option.some.injEq] at hget
    rw [ofTerritories, ← hget]
    exact hid t hlt

/-! ## Registers of a map -/

theorem mem_territories {m : Atlas} (hm : m.Sound) {land : Territory}
    (h : land ∈ m.territories.toList) : land.id < m.size ∧ m.territory land.id = land := by
  rcases List.mem_iff_getElem?.1 h with ⟨i, hi⟩
  rw [Array.getElem?_toList] at hi
  have hlt : i < m.size := by
    rcases Array.getElem?_eq_some_iff.1 hi with ⟨hlt, -⟩
    exact hlt
  rw [getElem?_territories hlt, Option.some.injEq] at hi
  rw [← hi, hm.id_territory i hlt]
  exact ⟨hlt, rfl⟩

/-- The identifiers of the map in order are the numbers below its size. -/
theorem map_id_territories {m : Atlas} (hm : m.Sound) :
    m.territories.toList.map (·.id) = List.range m.size := by
  apply List.ext_getElem?
  intro i
  by_cases hlt : i < m.size
  · rw [List.getElem?_map, Array.getElem?_toList, getElem?_territories hlt,
      List.getElem?_range hlt, Option.map_some, hm.id_territory i hlt]
  · have hge : m.territories.toList.length ≤ i := by
      simpa [size] using hlt
    rw [List.getElem?_map, List.getElem?_eq_none hge, Option.map_none,
      List.getElem?_eq_none (by simpa using hlt)]

/-- Territories of a sort are listed once each. -/
theorem nodup_map_id_filter {m : Atlas} (hm : m.Sound) (f : Territory → Bool) :
    ((m.territories.toList.filter f).map (·.id)).Nodup := by
  have hall : (m.territories.toList.map (·.id)).Nodup := by
    rw [map_id_territories hm]
    exact List.nodup_range
  exact hall.sublist (List.filter_sublist.map _)

theorem isWater_of_mem_seaZones {m : Atlas} (hm : m.Sound) {z : TerritoryId}
    (h : z ∈ m.seaZones) : m.isWater z = true := by
  rcases List.mem_map.1 h with ⟨land, hland, rfl⟩
  rcases List.mem_filter.1 hland with ⟨hmem, hwater⟩
  rw [isWater, (mem_territories hm hmem).2]
  exact hwater

/-! ## The search -/

/-- A walk from `source` to `goal`, from neighbour to neighbour, on which everything entered is
passable. It may come by a territory more than once. -/
structure IsWalk (m : Atlas) (passable : TerritoryId → Bool) (source goal : TerritoryId)
    (r : Route) : Prop where
  start_eq : r.start = source
  dest_eq : r.dest = goal
  walk : r.territories.IsChain (m.isAdjacent · · = true)
  passable : ∀ t ∈ r.steps, passable t = true

/-- A route from `source` to `goal` on which everything entered is passable. -/
structure Leads (m : Atlas) (passable : TerritoryId → Bool) (source goal : TerritoryId)
    (r : Route) : Prop where
  start_eq : r.start = source
  dest_eq : r.dest = goal
  walk : r.territories.IsChain (m.isAdjacent · · = true)
  passable : ∀ t ∈ r.steps, passable t = true
  nodup : r.territories.Nodup

/-- A route that leads to a goal walks there. -/
theorem Leads.isWalk {m : Atlas} {passable : TerritoryId → Bool} {source goal : TerritoryId}
    {r : Route} (h : m.Leads passable source goal r) : m.IsWalk passable source goal r :=
  { h with }

theorem isWalk_stay (m : Atlas) (passable : TerritoryId → Bool) (t : TerritoryId) :
    m.IsWalk passable t t (.stay t) :=
  ⟨rfl, rfl, .singleton t, by simp [Route.stay]⟩

theorem leads_stay (m : Atlas) (passable : TerritoryId → Bool) (t : TerritoryId) :
    m.Leads passable t t (.stay t) :=
  { m.isWalk_stay passable t with nodup := by simp }

/-- A walk goes on to an open neighbour of its end. -/
theorem IsWalk.extend {m : Atlas} {passable : TerritoryId → Bool} {source goal t : TerritoryId}
    {r : Route} (h : m.IsWalk passable source goal r) (hadj : m.isAdjacent goal t = true)
    (hpass : passable t = true) : m.IsWalk passable source t (r.extend t) := by
  constructor
  · exact h.start_eq
  · exact r.dest_extend t
  · rw [Route.territories_extend, List.isChain_append]
    refine ⟨h.walk, .singleton t, ?_⟩
    intro x hx y hy
    -- the route so far ends in `goal`, which is next to `t`
    rw [Route.getLast?_territories, h.dest_eq] at hx
    cases hx
    cases hy
    exact hadj
  · intro x hx
    rw [Route.steps_extend] at hx
    rcases List.mem_append.1 hx with hx | hx
    · exact h.passable x hx
    · rw [List.mem_singleton.1 hx]
      exact hpass

/-- So does a route that leads there, if the neighbour is new to it. -/
theorem Leads.extend {m : Atlas} {passable : TerritoryId → Bool} {source goal t : TerritoryId}
    {r : Route} (h : m.Leads passable source goal r) (hadj : m.isAdjacent goal t = true)
    (hpass : passable t = true) (hnew : t ∉ r.territories) :
    m.Leads passable source t (r.extend t) where
  __ := h.isWalk.extend hadj hpass
  nodup := by
    rw [Route.territories_extend, List.nodup_append]
    refine ⟨h.nodup, by simp, ?_⟩
    intro x hx y hy hxy
    rw [List.mem_singleton.1 hy] at hxy
    exact hnew (hxy ▸ hx)

/-- What the search knows of its frontier: the routes are walks from the source, and everything on
them has been reached. -/
def Frontier (m : Atlas) (passable : TerritoryId → Bool) (source : TerritoryId)
    (reached : List TerritoryId) (frontier : List Route) : Prop :=
  ∀ r ∈ frontier, m.Leads passable source r.dest r ∧ r.territories ⊆ reached

/-- One round leads from frontier to frontier. -/
theorem Frontier.next {m : Atlas} {passable : TerritoryId → Bool} {source : TerritoryId}
    {reached : List TerritoryId} {frontier tour : List Route}
    (h : m.Frontier passable source reached frontier)
    (hsub : tour ⊆ (frontier.flatMap m.extensions).filter fun r =>
      passable r.dest && !reached.contains r.dest) :
    m.Frontier passable source (reached ++ tour.map Route.dest) tour := by
  intro r hr
  -- a route of the tour extends one of the frontier by a territory that was not reached
  rcases List.mem_filter.1 (hsub hr) with ⟨hmem, hkeep⟩
  rcases List.mem_flatMap.1 hmem with ⟨old, hold, hext⟩
  rcases List.mem_map.1 hext with ⟨t, ht, rfl⟩
  rcases h old hold with ⟨hleads, hreached⟩
  simp only [Route.dest_extend, Bool.and_eq_true, Bool.not_eq_true', List.contains_eq_mem,
    decide_eq_false_iff_not] at hkeep
  have hnew : t ∉ old.territories := fun hin => hkeep.2 (hreached hin)
  constructor
  · rw [Route.dest_extend]
    exact hleads.extend (mem_neighbors.1 ht) hkeep.1 hnew
  · intro x hx
    rw [Route.territories_extend] at hx
    rcases List.mem_append.1 hx with hx | hx
    · exact List.mem_append_left _ (hreached hx)
    · rw [List.mem_singleton.1 hx]
      refine List.mem_append_right _ (List.mem_map.2 ⟨_, hr, ?_⟩)
      rw [Route.dest_extend]

/-- Every tour of the search leads to its end. -/
theorem toursFrom_leads {m : Atlas} {passable : TerritoryId → Bool} {source : TerritoryId}
    (rounds : Nat) {reached : List TerritoryId} {frontier : List Route}
    (h : m.Frontier passable source reached frontier) :
    ∀ r ∈ (m.toursFrom passable rounds reached frontier).flatten,
      m.Leads passable source r.dest r := by
  -- every round makes the next frontier, so the frontier carries the induction
  induction rounds generalizing reached frontier with
  | zero =>
    intro r hr
    cases hr
  | succ rounds ih =>
    intro r hr
    simp only [toursFrom] at hr
    split at hr
    · cases hr
    · have hnext := h.next (eraseDupsBy_sublist (fun a b => a.dest == b.dest) _).subset
      rcases List.mem_append.1 (List.flatten_cons ▸ hr) with hr | hr
      · exact (hnext r hr).1
      · exact ih hnext r hr

/-- A search starts from the route that stays where it is. -/
theorem frontier_start (m : Atlas) (passable : TerritoryId → Bool) (source : TerritoryId) :
    m.Frontier passable source [source] [.stay source] := by
  intro r hr
  rw [List.mem_singleton.1 hr]
  exact ⟨m.leads_stay passable source, by simp⟩

/-- A route that the search finds is a walk of the kind that was searched for. -/
theorem route?_leads {m : Atlas} {source goal : TerritoryId} {passable : TerritoryId → Bool}
    {r : Route} (h : m.route? source goal passable = some r) :
    m.Leads passable source goal r := by
  unfold route? at h
  split at h
  · rename_i heq
    cases h
    subst heq
    exact m.leads_stay passable source
  · have hdest : r.dest = goal := by simpa using List.find?_some h
    rw [← hdest]
    exact toursFrom_leads m.size (m.frontier_start passable source) r (List.mem_of_find?_eq_some h)

namespace Leads

variable {m : Atlas} {passable : TerritoryId → Bool} {source goal : TerritoryId} {r : Route}

/-- A route to another territory has steps. -/
theorem isEmpty_eq_false (h : m.Leads passable source goal r) (hne : source ≠ goal) :
    r.isEmpty = false := by
  rw [Bool.eq_false_iff]
  intro hemp
  apply hne
  rw [← h.start_eq, ← h.dest_eq, Route.dest, Route.isEmpty_iff.1 hemp]
  rfl

/-- The end of a route is not entered on the way. -/
theorem dest_notMem_between (h : m.Leads passable source goal r) : goal ∉ r.between := by
  intro hmem
  have hemp : r.isEmpty = false := by
    rw [Bool.eq_false_iff]
    intro hemp
    rw [Route.between, Route.isEmpty_iff.1 hemp] at hmem
    cases hmem
  have hsteps : r.steps.Nodup := (List.nodup_cons.1 h.nodup).2
  rw [Route.steps_eq hemp, h.dest_eq, List.nodup_append] at hsteps
  exact hsteps.2.2 goal hmem goal (List.mem_singleton.2 rfl) rfl

end Leads

/-- Every wave holds admitted territories only. -/
theorem admits_of_mem_wavesFrom {m : Atlas} {admits : TerritoryId → Bool} {t : TerritoryId}
    (rounds : Nat) {reached frontier : List TerritoryId}
    (h : t ∈ (m.wavesFrom admits rounds reached frontier).flatten) : admits t = true := by
  induction rounds generalizing reached frontier with
  | zero => cases h
  | succ rounds ih =>
    simp only [wavesFrom] at h
    split at h
    · cases h
    · rw [List.flatten_cons, List.mem_append, List.mem_eraseDups, List.mem_filter,
        Bool.and_eq_true] at h
      rcases h with ⟨-, hadmits, -⟩ | hlater
      · exact hadmits
      · exact ih hlater

/-- What is within reach can be passed. -/
theorem passable_of_mem_neighborsWithin {m : Atlas} {s t : TerritoryId} {radius : Nat}
    {passable : TerritoryId → Bool} (h : t ∈ m.neighborsWithin s radius passable) :
    passable t = true :=
  admits_of_mem_wavesFrom radius h

/-- On the way into a territory only passable ones are entered. -/
theorem routeInto?_between {m : Atlas} {source goal : TerritoryId} {through : TerritoryId → Bool}
    {r : Route} (h : m.routeInto? source goal through = some r) :
    ∀ t ∈ r.between, through t = true := by
  have hleads := route?_leads h
  intro t ht
  have hpass := hleads.passable t (List.dropLast_subset _ ht)
  -- the goal itself is let through whatever it is, but no route enters its goal before the end
  have hne : t ≠ goal := fun heq => hleads.dest_notMem_between (heq ▸ ht)
  simpa [hne] using hpass

end Atlas

end Conquest
