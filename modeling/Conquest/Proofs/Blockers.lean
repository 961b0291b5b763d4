import Conquest.Proofs.Executable

/-!
# What blocking gaps takes from its neighbours

Each gap is filled from the board as it stood when the phase began: whoever was sent into an earlier
gap still counts where it came from. So the first piece that leaves a territory leaves somebody
behind, but the next ones need not, and a territory of idle troops next to as many gaps as it has
pieces can be stripped.

* `Fills`: the rounds of the phase; `Context.blitzBlock_fills`: the phase goes through all of them.
* `Fills.mem_takenFrom`, `Fills.length_le_gaps`: who leaves a territory, and how many at most.
* `Fills.length_takenFrom`: how many exactly, where the gaps have no other neighbour to draw from.
* `Scenario.blitzBlock_strips`: when a territory is stripped, in every game.
-/

namespace Conquest

/-- The pieces that some orders take out of a territory. -/
def takenFrom (orders : List Order) (t : TerritoryId) : List PieceId :=
  named (orders.filter fun o => o.route.start == t)

theorem takenFrom_cons (o : Order) (rest : List Order) (t : TerritoryId) :
    takenFrom (o :: rest) t =
      (if o.route.start = t then o.pieces else []) ++ takenFrom rest t := by
  unfold takenFrom
  by_cases ho : o.route.start = t
  · simp [ho]
  · simp [ho]

theorem takenFrom_step (us : List PieceId) (source goal : TerritoryId) (rest : List Order)
    (t : TerritoryId) : takenFrom ({ pieces := us, route := .step source goal } :: rest) t =
      (if source = t then us else []) ++ takenFrom rest t :=
  takenFrom_cons _ _ _

theorem takenFrom_sublist (orders : List Order) (t : TerritoryId) :
    (takenFrom orders t).Sublist (named orders) := by
  induction orders with
  | nil => exact List.Sublist.refl _
  | cons o rest ih =>
    rw [takenFrom_cons, named_cons]
    refine List.Sublist.append ?_ ih
    split
    · exact List.Sublist.refl _
    · exact List.nil_sublist _

namespace Context

variable {b : Board} {c : Context} {l l' : Ledger} {n gap : TerritoryId} {a : Asset}

/-! ## One round -/

/-- The piece that is to fill a territory, if it is a gap, and where the piece stands. -/
def filler? (c : Context) (b : Board) (l : Ledger) (gap : TerritoryId) :
    Option (Asset × TerritoryId) :=
  if c.isGap b gap then c.blocker? b l gap else none

/-- One round of the phase. -/
def fillGap (c : Context) (b : Board) (gap : TerritoryId) : Planning (List Order) := do
  if c.isGap b gap then
    match c.blocker? b (← get) gap with
    | none => return []
    | some (a, source) =>
      Planning.apply (·.commit a.id)
      return [{ pieces := [a.id], route := .step source gap }]
  else return []

theorem blitzBlock_eq (c : Context) (b : Board) :
    c.blitzBlock b = collect (c.fillGap b) (b.territoriesOf c.player) := rfl

/-- A round never fails, because whoever fills a gap was free. -/
theorem fillGap_ends (c : Context) (b : Board) (gap : TerritoryId) (l : Ledger) :
    Ensures (fun _ _ => False) (c.fillGap b gap) l fun orders l' =>
      match c.filler? b l gap with
      | none => orders = [] ∧ l' = l
      | some (a, source) => orders = [{ pieces := [a.id], route := .step source gap }] ∧
          l' = l.withEntries [(a.id, .moved)] := by
  unfold fillGap filler?
  split
  · refine .bind (.get ?_)
    split
    · exact .pure ⟨rfl, rfl⟩
    · rename_i a source hblocker
      have hfree := (mem_idle (mem_idle_of_blocker? hblocker)).2.2
      have hcommit : l.commit a.id = .ok (l.withEntries [(a.id, .moved)]) :=
        Ledger.record_of_free (List.nodup_singleton _) (by simpa using hfree)
      have happly : Ensures (fun _ _ => False) (Planning.apply (·.commit a.id)) l
          fun _ l' => l' = l.withEntries [(a.id, .moved)] := by
        unfold Ensures Planning.apply
        simp only [hcommit]
      exact .bind (happly.mono fun _ _ heq => .pure ⟨rfl, heq⟩)
  · exact .pure ⟨rfl, rfl⟩

theorem of_filler? {x : Asset × TerritoryId} (h : c.filler? b l gap = some x) :
    c.isGap b gap = true ∧ c.blocker? b l gap = some x := by
  unfold filler? at h
  split at h
  · rename_i hgap
    exact ⟨hgap, h⟩
  · cases h

/-- Friendly land next to a gap with somebody to spare has the gap filled. -/
theorem exists_filler? (hgap : c.isGap b gap = true) (hn : n ∈ b.atlas.neighbors gap)
    (hfriendly : b.isFriendlyLand n c.player = true) (ha : a ∈ c.spareTroops b l n) :
    ∃ x, c.filler? b l gap = some x := by
  unfold filler?
  rw [if_pos hgap]
  apply exists_firstLeast? (x := (a, n))
  exact List.mem_flatMap.2 ⟨n, List.mem_filter.2 ⟨hn, hfriendly⟩, List.mem_map_of_mem ha⟩

/-- Pieces that are taken are idle no more. -/
theorem idle_withEntries (c : Context) (b : Board) (l : Ledger) (u : PieceId) (n : TerritoryId) :
    c.idle b (l.withEntries [(u, .moved)]) n = (c.idle b l n).filter fun x => x.id != u := by
  unfold idle
  rw [List.filter_filter]
  apply List.filter_congr
  intro x _
  have hcommitted : (l.withEntries [(u, .moved)]).isCommitted x.id =
      (l.isCommitted x.id || x.id == u) := by
    unfold Ledger.isCommitted
    rw [Ledger.pieces_withEntries, List.contains_eq_any_beq, List.contains_eq_any_beq,
      List.any_append]
    simp
  rw [hcommitted, Bool.not_or, ← Bool.and_assoc, Bool.and_comm]
  rfl

theorem length_idle_le (c : Context) (b : Board) (l : Ledger) (n : TerritoryId) :
    (c.idle b l n).length ≤ (b.ownedIn n c.player).length :=
  List.filter_sublist.length_le

/-- Whoever is spare has company. -/
theorem two_le_of_mem_spareTroops (ha : a ∈ c.spareTroops b l n) :
    2 ≤ (b.ownedIn n c.player).length := by
  obtain ⟨hidle, -, hspare⟩ := mem_spareTroops.1 ha
  have hpos := List.length_pos_of_mem hidle
  have hle := length_idle_le c b l n
  omega

end Context

/-! ## All rounds -/

/-- The rounds of the phase over some territories: from ledger `l` the gaps among them are filled by
`orders`, which leads to ledger `l'`. -/
inductive Fills (b : Board) (c : Context) :
    List TerritoryId → Ledger → List Order → Ledger → Prop where
  | done (l : Ledger) : Fills b c [] l [] l
  | skip {gap : TerritoryId} {rest : List TerritoryId} {l l' : Ledger} {orders : List Order}
      (hnone : c.filler? b l gap = none) (hrest : Fills b c rest l orders l') :
      Fills b c (gap :: rest) l orders l'
  | fill {gap source : TerritoryId} {rest : List TerritoryId} {l l' : Ledger}
      {orders : List Order} {a : Asset} (hsome : c.filler? b l gap = some (a, source))
      (hrest : Fills b c rest (l.withEntries [(a.id, .moved)]) orders l') :
      Fills b c (gap :: rest) l ({ pieces := [a.id], route := .step source gap } :: orders) l'

theorem Context.collect_fillGap (c : Context) (b : Board) (ts : List TerritoryId) (l : Ledger) :
    Ensures (fun _ _ => False) (collect (c.fillGap b) ts) l (Fills b c ts l) := by
  induction ts generalizing l with
  | nil => exact .pure (.done l)
  | cons gap rest ih =>
    refine .bind ((c.fillGap_ends b gap l).mono ?_)
    intro first l₁ hfirst
    refine .bind ((ih l₁).mono ?_)
    intro others l' hrest
    refine .pure ?_
    cases hfiller : c.filler? b l gap with
    | none =>
      rw [hfiller] at hfirst
      obtain ⟨rfl, rfl⟩ := hfirst
      exact .skip hfiller hrest
    | some x =>
      rw [hfiller] at hfirst
      obtain ⟨rfl, rfl⟩ := hfirst
      exact .fill hfiller hrest

/-- The phase always ends and goes through the territories of the player one after another. -/
theorem Context.blitzBlock_fills (c : Context) (b : Board) (l : Ledger) :
    ∃ orders l', c.blitzBlock b l = .ok orders l' ∧
      Fills b c (b.territoriesOf c.player) l orders l' := by
  rw [blitzBlock_eq]
  exact (c.collect_fillGap b _ l).exists_ok

namespace Fills

variable {b : Board} {c : Context} {l l' : Ledger} {n : TerritoryId} {orders : List Order}
  {ts : List TerritoryId}

/-- Nobody is sent twice, nor anybody who was taken before. -/
theorem nodup_named (h : Fills b c ts l orders l') :
    (named orders).Nodup ∧ ∀ u ∈ named orders, u ∉ l.pieces := by
  induction h with
  | done l => exact ⟨List.nodup_nil, by simp⟩
  | skip hnone hrest ih => exact ih
  | @fill gap source rest l l' orders a hsome hrest ih =>
    obtain ⟨hnodup, hfree⟩ := ih
    have hunmoved := (Context.mem_idle (Context.mem_idle_of_blocker?
      (Context.of_filler? hsome).2)).2.2
    have hold : ∀ u ∈ named orders, u ∉ l.pieces ∧ u ≠ a.id := by
      intro u hu
      have hnot := hfree u hu
      rw [Ledger.pieces_withEntries, List.mem_append, not_or] at hnot
      exact ⟨hnot.1, by simpa using hnot.2⟩
    rw [named_cons]
    constructor
    · exact List.nodup_cons.2 ⟨fun hin => (hold _ hin).2 rfl, hnodup⟩
    · intro u hu
      obtain rfl | hu := List.mem_cons.1 hu
      · exact hunmoved
      · exact (hold u hu).1

/-- Whoever leaves a territory was an idle land piece there and had company. -/
theorem mem_takenFrom (h : Fills b c ts l orders l') {u : PieceId} (hu : u ∈ takenFrom orders n) :
    2 ≤ (b.ownedIn n c.player).length ∧ ∃ a ∈ c.idle b l n, a.kind.isLand = true ∧ a.id = u := by
  induction h with
  | done l => cases hu
  | skip hnone hrest ih => exact ih hu
  | @fill gap source rest l l' orders a hsome hrest ih =>
    rw [takenFrom_step] at hu
    rcases List.mem_append.1 hu with hu | hu
    · -- the order of this round
      have hspare : a ∈ c.spareTroops b l source :=
        Context.mem_spareTroops_of_blocker? (Context.of_filler? hsome).2
      obtain ⟨hidle, hland, -⟩ := Context.mem_spareTroops.1 hspare
      obtain ⟨rfl, hmem⟩ := List.mem_ite_nil_right.1 hu
      exact ⟨Context.two_le_of_mem_spareTroops hspare, a, hidle, hland,
        (List.mem_singleton.1 hmem).symm⟩
    · obtain ⟨htwo, x, hidle, hx⟩ := ih hu
      rw [Context.idle_withEntries] at hidle
      exact ⟨htwo, x, (List.mem_filter.1 hidle).1, hx⟩

/-- Every gap next to a territory takes one piece out of it at most. -/
theorem length_le_gaps (h : Fills b c ts l orders l') (n : TerritoryId) :
    (takenFrom orders n).length ≤ ts.countP fun g => c.isGap b g && n ∈ b.atlas.neighbors g := by
  induction h with
  | done l => exact Nat.le_refl _
  | skip hnone hrest ih => exact Nat.le_trans ih ((List.sublist_cons_self _ _).countP_le)
  | @fill gap source rest l l' orders a hsome hrest ih =>
    obtain ⟨hgap, hblocker⟩ := Context.of_filler? hsome
    obtain ⟨hnext, hsafe⟩ := Context.of_blocker? hblocker
    rw [takenFrom_step, List.length_append, List.countP_cons, hgap, Bool.true_and]
    by_cases hsource : source = n
    · subst hsource
      rw [if_pos rfl, if_pos (decide_eq_true hnext), List.length_singleton]
      omega
    · rw [if_neg hsource, List.length_nil]
      omega

end Fills

namespace Context

variable {b : Board} {c : Context} {l : Ledger} {n source : TerritoryId} {a : Asset}

/-- When a piece of a pool is taken there is one fewer. -/
theorem length_filter_id_ne {pool : List Asset} (hpool : (pool.map (·.id)).Nodup)
    (ha : a ∈ pool) : (pool.filter fun x => x.id != a.id).length + 1 = pool.length := by
  have herase := List.length_erase_of_mem (List.mem_map_of_mem (f := (·.id)) ha)
  rw [hpool.erase_eq_filter, List.filter_map, List.length_map, List.length_map] at herase
  have hpos := List.length_pos_of_mem ha
  have hfilter : (pool.filter fun x => x.id != a.id).length = pool.length - 1 := herase
  omega

/-- Whoever is taken is idle no more. -/
theorem length_idle_taken (hb : b.Sound) (ha : a ∈ c.idle b l n) :
    (c.idle b (l.withEntries [(a.id, .moved)]) n).length + 1 = (c.idle b l n).length := by
  rw [idle_withEntries]
  exact length_filter_id_ne (nodup_idle hb (.refl _)) ha

/-- When a land piece is taken there is one fewer to send. -/
theorem length_troops_taken (hb : b.Sound) (ha : a ∈ c.idle b l n) (hland : a.kind.isLand = true) :
    ((c.idle b (l.withEntries [(a.id, .moved)]) n).filter (·.kind.isLand)).length + 1 =
      ((c.idle b l n).filter (·.kind.isLand)).length := by
  rw [idle_withEntries, List.filter_comm]
  exact length_filter_id_ne (nodup_idle hb List.filter_sublist) (List.mem_filter.2 ⟨ha, hland⟩)

/-- Who stands elsewhere is not missed. -/
theorem idle_taken_of_ne (hb : b.Sound) (ha : a ∈ c.idle b l source) (hne : source ≠ n) :
    c.idle b (l.withEntries [(a.id, .moved)]) n = c.idle b l n := by
  rw [idle_withEntries, List.filter_eq_self]
  intro x hx
  rw [bne_iff_ne]
  intro hsame
  have hplace := ((stands_of_mem_idle hb ha).unique (stands_of_mem_idle hb hx) hsame).2
  exact hne hplace.symm

end Context

namespace Fills

variable {b : Board} {c : Context} {l l' : Ledger} {n : TerritoryId} {orders : List Order}
  {ts : List TerritoryId}

/-- Where the gaps next to a territory have no other neighbour to draw from, each takes a piece out
of it until no idle land piece is left. -/
theorem length_takenFrom (hb : b.Sound) (h : Fills b c ts l orders l')
    (hfriendly : b.isFriendlyLand n c.player = true)
    (hsole : ∀ g ∈ ts, c.isGap b g = true → n ∈ b.atlas.neighbors g →
      ∀ m ∈ b.atlas.neighbors g, b.isFriendlyLand m c.player = true → m = n)
    (hspare : 1 < (c.idle b l n).length ∨
      (c.idle b l n).length < (b.ownedIn n c.player).length) :
    (takenFrom orders n).length = min ((c.idle b l n).filter (·.kind.isLand)).length
      (ts.countP fun g => c.isGap b g && n ∈ b.atlas.neighbors g) := by
  induction h with
  | done l => simp [takenFrom]
  | @skip gap rest l l' orders hnone hrest ih =>
    rw [ih (fun g hg => hsole g (List.mem_cons_of_mem _ hg)) hspare, List.countP_cons]
    by_cases hgap : (c.isGap b gap && n ∈ b.atlas.neighbors gap) = true
    · -- a gap next to it stays open only when nobody is left to send
      rw [Bool.and_eq_true, decide_eq_true_eq] at hgap
      have hempty : (c.idle b l n).filter (·.kind.isLand) = [] := by
        apply List.filter_eq_nil_iff.2
        intro a hidle hland
        obtain ⟨x, hx⟩ := Context.exists_filler? hgap.1 hgap.2 hfriendly
          (Context.mem_spareTroops.2 ⟨hidle, hland, hspare⟩)
        rw [hnone] at hx
        cases hx
      rw [hempty, List.length_nil, Nat.zero_min, Nat.zero_min]
    · rw [if_neg hgap, Nat.add_zero]
  | @fill gap source rest l l' orders a hsome hrest ih =>
    obtain ⟨hgap, hblocker⟩ := Context.of_filler? hsome
    obtain ⟨hnext, hsafe⟩ := Context.of_blocker? hblocker
    have hmem : a ∈ c.spareTroops b l source := Context.mem_spareTroops_of_blocker? hblocker
    obtain ⟨hidle, hland, -⟩ := Context.mem_spareTroops.1 hmem
    specialize ih fun g hg => hsole g (List.mem_cons_of_mem _ hg)
    rw [takenFrom_step, List.length_append, List.countP_cons, hgap, Bool.true_and]
    by_cases hsource : source = n
    · subst hsource
      have hall := Context.length_idle_taken hb hidle
      have htroops := Context.length_troops_taken hb hidle hland
      have hle := Context.length_idle_le c b l source
      -- from now on somebody of the territory is missing, so all others count as spare
      rw [ih (.inr (by omega)), if_pos rfl, if_pos (decide_eq_true hnext), List.length_singleton]
      omega
    · have hfar : n ∉ b.atlas.neighbors gap := by
        intro hn
        exact hsource (hsole gap List.mem_cons_self hgap hn source hnext hsafe)
      rw [if_neg hsource, List.length_nil, if_neg (by simpa using hfar)]
      rw [Context.idle_taken_of_ne hb hidle hsource] at ih
      rw [ih hspare, Nat.zero_add, Nat.add_zero]

/-- A territory that loses as many pieces as it has was held by idle troops only. -/
theorem idle_of_length_le (hb : b.Sound) (h : Fills b c ts l orders l')
    (hall : (b.ownedIn n c.player).length ≤ (takenFrom orders n).length) {a : Asset}
    (ha : a ∈ b.ownedIn n c.player) : a ∈ c.idle b l n ∧ a.kind.isLand = true := by
  have hsub : takenFrom orders n ⊆ (b.ownedIn n c.player).map (·.id) := by
    intro u hu
    obtain ⟨-, x, hidle, -, rfl⟩ := h.mem_takenFrom hu
    exact List.mem_map_of_mem (Context.mem_idle hidle).1
  have hnodup := h.nodup_named.1.sublist (takenFrom_sublist orders n)
  have hperm := (List.subperm_of_subset hnodup hsub).perm_of_length_le (by simpa using hall)
  obtain ⟨-, x, hidle, hland, hid⟩ :=
    h.mem_takenFrom (hperm.mem_iff.2 (List.mem_map_of_mem (f := (·.id)) ha))
  have hmem := (Board.mem_ownedIn.1 (Context.mem_idle hidle).1).1
  have heq : x = a := Option.some.inj (by
    rw [← hb.asset?_of_mem hmem, hid, hb.asset?_of_mem (Board.mem_ownedIn.1 ha).1])
  exact heq ▸ ⟨hidle, hland⟩

end Fills

/-! ## At the table -/

namespace Context

/-- The gaps of the player next to a territory. -/
def gapsBeside (c : Context) (b : Board) (n : TerritoryId) : List TerritoryId :=
  (b.territoriesOf c.player).filter fun g => c.isGap b g && n ∈ b.atlas.neighbors g

/-- A territory that blocking gaps may strip: all pieces of the player in it are idle troops, there
are at least two of them, and no more than gaps next to it. -/
structure MayStrip (c : Context) (b : Board) (l : Ledger) (n : TerritoryId) : Prop where
  idle : ∀ a ∈ b.ownedIn n c.player, a ∈ c.idle b l n ∧ a.kind.isLand = true
  two : 2 ≤ (b.ownedIn n c.player).length
  gaps : (b.ownedIn n c.player).length ≤ (c.gapsBeside b n).length

/-- The gaps next to a territory can be filled from nowhere else. -/
structure IsOnlySource (c : Context) (b : Board) (n : TerritoryId) : Prop where
  friendly : b.isFriendlyLand n c.player = true
  sole : ∀ g ∈ c.gapsBeside b n, ∀ m ∈ b.atlas.neighbors g,
    b.isFriendlyLand m c.player = true → m = n

end Context

namespace Scenario

open Table

/-- What blocking gaps takes out of a territory. In every game and with every ledger the phase ends.
A territory that a piece leaves keeps another one, unless all pieces of the player there are idle
troops and there are as many gaps next to it; then it is stripped if these gaps can be filled from
nowhere else. -/
theorem blitzBlock_strips (s : Scenario) (h₀ : Table) (hset : s.setUp = .ok h₀)
    (commands : List Command) (c : Context) (l : Ledger) :
    let b := (h₀.play commands).board
    ∃ orders l', c.blitzBlock b l = .ok orders l' ∧ ∀ n,
      (takenFrom orders n ≠ [] → ¬ c.MayStrip b l n →
        (takenFrom orders n).length < (b.ownedIn n c.player).length) ∧
      (c.MayStrip b l n → c.IsOnlySource b n →
        (takenFrom orders n).length = (b.ownedIn n c.player).length) := by
  intro b
  have hb : b.Sound := (play_keeps (setUp_sound hset) commands).1
  obtain ⟨orders, l', hends, hfills⟩ := c.blitzBlock_fills b l
  refine ⟨orders, l', hends, fun n => ⟨fun htaken hkept => ?_, fun hstrip hsource => ?_⟩⟩
  · -- were it emptied, all its pieces would be idle and as many gaps beside it
    apply Nat.lt_of_not_le
    intro hall
    obtain ⟨u, hu⟩ := List.exists_mem_of_ne_nil _ htaken
    have hgaps := hfills.length_le_gaps n
    rw [List.countP_eq_length_filter] at hgaps
    exact hkept ⟨fun a => hfills.idle_of_length_le hb hall, (hfills.mem_takenFrom hu).1,
      Nat.le_trans hall hgaps⟩
  · -- where all are idle troops and no gap has another source, each gap takes one
    have hidle : c.idle b l n = b.ownedIn n c.player :=
      List.filter_eq_self.2 fun a ha => (List.mem_filter.1 (hstrip.idle a ha).1).2
    have htroops : (c.idle b l n).filter (·.kind.isLand) = b.ownedIn n c.player := by
      rw [hidle]
      exact List.filter_eq_self.2 fun a ha => (hstrip.idle a ha).2
    have hgaps := hstrip.gaps
    have htwo := hstrip.two
    unfold Context.gapsBeside at hgaps
    rw [← List.countP_eq_length_filter] at hgaps
    have hsole : ∀ g ∈ b.territoriesOf c.player, c.isGap b g = true → n ∈ b.atlas.neighbors g →
        ∀ m ∈ b.atlas.neighbors g, b.isFriendlyLand m c.player = true → m = n := by
      intro g hg hgap hn
      refine hsource.sole g (List.mem_filter.2 ⟨hg, ?_⟩)
      rw [hgap, Bool.true_and]
      exact decide_eq_true hn
    rw [hfills.length_takenFrom hb hsource.friendly hsole (.inl (by rw [hidle]; exact htwo)),
      htroops]
    exact Nat.min_eq_left hgaps

/-- Red holds a country and two empty provinces between it and a tank of Blue. -/
def twoProvinces (troops : Nat) : Scenario where
  players := [{ name := "Red", team := 0 }, { name := "Blue", team := 1 }]
  territories := [
    { name := "Home", owner := some "Red" },
    { name := "North", owner := some "Red" },
    { name := "South", owner := some "Red" },
    { name := "Camp", owner := some "Blue" }]
  connections := [("Home", "North"), ("Home", "South"), ("North", "Camp"), ("South", "Camp")]
  kinds := [
    { name := "infantry", attack := 1, defense := 2, cost := 3 },
    { name := "tank", attack := 3, defense := 3, movement := 2, cost := 6, canBlitz := true }]
  pieces := [
    { kind := "infantry", owner := "Red", place := "Home", count := troops },
    { kind := "tank", owner := "Blue", place := "Camp", count := 1 }]

set_option maxRecDepth 100000 in
/-- Two of three infantry leave to block both provinces. -/
theorem blitzBlock_strips_twoProvinces : ∃ h, (twoProvinces 3).setUp = .ok h ∧
    ∃ orders l', (Context.build h.board 0 {}).blitzBlock h.board (.new .nonCombat) =
        .ok orders l' ∧ takenFrom orders 0 = [0, 1] ∧
      (takenFrom orders 0).length < (h.board.ownedIn 0 0).length := by
  have hpass : ((twoProvinces 3).setUp.toOption.any fun h =>
      let c := Context.build h.board 0 {}
      endsWith (fun orders _ => decide (takenFrom orders 0 = [0, 1] ∧
        (c.gapsBeside h.board 0).length < (h.board.ownedIn 0 0).length))
        (c.blitzBlock h.board) (.new .nonCombat)) = true := by
    decide +kernel
  obtain ⟨h, hset, hcheck⟩ := exists_setUp hpass
  obtain ⟨orders, l', hends, hstrips⟩ := blitzBlock_strips (twoProvinces 3) h hset []
    (.build h.board 0 {}) (.new .nonCombat)
  have hfacts := test_of_endsWith hcheck hends
  obtain ⟨htaken, hgaps⟩ := of_decide_eq_true hfacts
  have hkept := (hstrips 0).1 (by rw [htaken]; simp) fun hstrip =>
    absurd hstrip.gaps (Nat.not_le_of_lt hgaps)
  exact ⟨h, hset, orders, l', hends, htaken, hkept⟩

set_option maxRecDepth 100000 in
/-- With two infantry nobody is left behind: each of them leaves to block a province. -/
theorem country_stripped : ∃ h, (twoProvinces 2).setUp = .ok h ∧
    ∃ orders l', (Context.build h.board 0 {}).blitzBlock h.board (.new .nonCombat) =
        .ok orders l' ∧ takenFrom orders 0 = [0, 1] ∧
      ¬ (takenFrom orders 0).length < (h.board.ownedIn 0 0).length := by
  have hpass : ((twoProvinces 2).setUp.toOption.any fun h =>
      endsWith (fun orders _ => decide (takenFrom orders 0 = [0, 1] ∧
        ¬ (takenFrom orders 0).length < (h.board.ownedIn 0 0).length))
        ((Context.build h.board 0 {}).blitzBlock h.board) (.new .nonCombat)) = true := by
    decide +kernel
  obtain ⟨h, hset, hcheck⟩ := exists_setUp hpass
  obtain ⟨orders, l', hends, hfacts⟩ := exists_of_endsWith hcheck
  exact ⟨h, hset, orders, l', hends, of_decide_eq_true hfacts⟩

end Scenario

end Conquest
