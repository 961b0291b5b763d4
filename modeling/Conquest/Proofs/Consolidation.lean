import Conquest.Proofs.Enlisting
import Conquest.Proofs.NonCombatMove
import Conquest.Proofs.Origins

/-!
# Whom consolidation moves, and where to

Two planners share one phase. Reinforcing recruits for every undermanned territory in turn and
excludes all of them from each call, so no branch of a chain, escorts and transports included, draws
on one for another. Marching starts elsewhere, and stops short of the front.

* `Context.IsUndermanned`, `Context.mem_gaps`: the territories that reinforcing sees.
* `Relieves`: what reinforcing may send; `Context.recruitChain_relieves`: a chain over land and by
  transport sends nothing else.
* `Advances`: what marching may send; `Context.marchFrom_advances`: it sends nothing else.
* `Context.consolidation_moves`: the phase.
* `Scenario.consolidation_spares`: the phase in a game.
-/

namespace Conquest

/-! ## Undermanned territories -/

namespace Context

/-- Friendly land whose threat exceeds its garrison. -/
structure IsUndermanned (c : Context) (b : Board) (t : TerritoryId) : Prop where
  friendly : b.isFriendlyLand t c.player = true
  exposed : 0 < c.threat b t - c.garrison b t

variable {b : Board} {c : Context} {t : TerritoryId}

/-- The gaps are listed territory by territory, each with what it lacks. -/
theorem gaps_eq (c : Context) (b : Board) : c.gaps b =
    ((b.territoriesWhere fun land => b.isFriendlyLand land.id c.player).filter fun t =>
      decide (0 < c.threat b t - c.garrison b t)).map
        fun t => (t, c.threat b t - c.garrison b t) := by
  unfold gaps
  rw [List.filter_map]
  rfl

theorem map_gaps (c : Context) (b : Board) : (c.gaps b).map (·.1) =
    (b.territoriesWhere fun land => b.isFriendlyLand land.id c.player).filter fun t =>
      decide (0 < c.threat b t - c.garrison b t) := by
  rw [gaps_eq, List.map_map]
  exact List.map_id _

/-- The gaps are the undermanned lands. -/
theorem mem_gaps (hb : b.Sound) : t ∈ (c.gaps b).map (·.1) ↔ c.IsUndermanned b t := by
  rw [map_gaps, List.mem_filter, hb.mem_territoriesWhere, decide_eq_true_eq]
  constructor
  · rintro ⟨⟨hlt, hfriendly⟩, hexposed⟩
    have hid : (b.territory t).id = t := hb.atlas.id_territory t hlt
    rw [hid] at hfriendly
    exact ⟨hfriendly, hexposed⟩
  · rintro ⟨hfriendly, hexposed⟩
    have hlt := Board.lt_size_of_isFriendlyLand hfriendly
    have hid : (b.territory t).id = t := hb.atlas.id_territory t hlt
    refine ⟨⟨hlt, ?_⟩, hexposed⟩
    rw [hid]
    exact hfriendly

/-- What an undermanned territory lacks is looked up for it. -/
theorem lookup_gaps (ht : t ∈ (c.gaps b).map (·.1)) :
    (c.gaps b).lookup t = some (c.threat b t - c.garrison b t) := by
  rw [map_gaps] at ht
  rw [gaps_eq]
  exact List.lookup_graph (fun t => c.threat b t - c.garrison b t) ht

end Context

/-! ## Reinforcing -/

/-- An order that leaves a territory that is not excluded and ends at the objective or at sea. -/
structure Relieves (b : Board) (objective : TerritoryId) (exclude : List TerritoryId)
    (o : Order) : Prop where
  kept : o.route.start ∉ exclude
  goal : o.route.dest = objective ∨ b.atlas.isWater o.route.dest = true

section Reinforcing

variable {b : Board} {c : Context} {l : Ledger} {target : Target}

namespace Context

/-- A force from land relieves by an open way and leaves no gap behind. -/
theorem landSources_relieves {blitz : Bool} {s : Source}
    (hs : s ∈ c.landSources b l target blitz) (us : List PieceId) :
    Relieves b target.objective target.exclude { pieces := us, route := s.route } := by
  obtain ⟨-, -, t, -, hfind⟩ := mem_landSources.1 hs
  obtain ⟨-, hroute, -⟩ := of_landSource? hfind
  have hleads := Atlas.route?_leads hroute
  refine ⟨?_, .inl hleads.dest_eq⟩
  rw [hleads.start_eq]
  exact (home_of_landSource? hfind).1

/-- Escorts stay at sea, and the transport goes on to the objective. -/
theorem sail_relieves {zone : TerritoryId} {l₀ : Ledger} {v : Voyage}
    (hv : v.Sails b c l₀ target.objective zone) (hzone : target.Grants b zone) (l : Ledger) :
    Ensures (fun _ _ => True) (c.sail b target.objective v) l fun orders l' =>
      l'.epoch = l.epoch ∧ ∀ o ∈ orders, Relieves b target.objective target.exclude o := by
  have hkept : v.route.start ∉ target.exclude := by
    rw [hv.start]
    exact hzone.kept
  have hwater : b.atlas.isWater v.route.dest = true := (List.mem_filter.1 hv.shore).2
  exact sail_forall (fun _ => ⟨hkept, .inr hwater⟩)
    ⟨hkept, .inl (Route.dest_extend _ _)⟩ l

/-- So does a force that comes by ship. -/
theorem recruitTransports_relieves (l : Ledger) :
    Ensures (fun _ _ => True) (c.recruitTransports b target) l fun haul l' =>
      l'.epoch = l.epoch ∧ ∀ o ∈ haul.orders, Relieves b target.objective target.exclude o := by
  unfold recruitTransports
  refine .bind (.get ?_)
  dsimp only
  split
  · exact .pure ⟨rfl, by simp⟩
  · rename_i hguard
    rw [Bool.or_eq_true, not_or, Bool.not_eq_true', Bool.not_eq_false] at hguard
    refine sailAll_forall ?_ [] (by simp) l
    intro v hv l'
    obtain ⟨zone, hsails, hzone⟩ := grants_of_mem_voyages hguard.1 hv
    exact sail_relieves hsails hzone l'

/-- Whichever branch is recruited from, its orders relieve the objective. -/
theorem recruit_relieves {branch : Branch} (hbranch : branch ∈ [.land, .transports])
    (l : Ledger) :
    Ensures (fun _ _ => True) (c.recruit b target branch) l fun haul l' =>
      l'.epoch = l.epoch ∧ ∀ o ∈ haul.orders, Relieves b target.objective target.exclude o := by
  unfold recruit
  split
  · exact .pure ⟨rfl, by simp⟩
  · split
    · exact recruitTransports_relieves l
    · rename_i hsea
      obtain rfl : branch = .land := by simpa [hsea] using hbranch
      refine .bind (.get ?_)
      exact Requirement.gather_forall _ (fun s hs as _ => landSources_relieves hs _) [] (by simp) l

/-- A chain over land and by transport. -/
theorem recruitChain_relieves (l : Ledger) :
    Ensures (fun _ _ => True) (c.recruitChain b target [.land, .transports] {}) l fun haul _ =>
      ∀ o ∈ haul.orders, Relieves b target.objective target.exclude o := by
  refine (recruitChain_forall (fun branch hbranch needed l₁ hl₁ => ?_) (by simp) rfl).mono
    fun _ _ h => h.2
  rw [← hl₁]
  exact recruit_relieves hbranch l₁

/-- What is recruited for an undermanned territory: what it lacks, from none of the others. -/
def reliefOf (c : Context) (b : Board) (t : TerritoryId) : Target where
  objective := t
  needed := c.threat b t - c.garrison b t
  exclude := (c.gaps b).map (·.1)

/-- An order of a recruitment, over land and by transport, for an undermanned territory. -/
def Reinforces (c : Context) (b : Board) (o : Order) : Prop :=
  ∃ t, c.IsUndermanned b t ∧ ∃ l haul l',
    c.recruitChain b (c.reliefOf b t) [.land, .transports] {} l = .ok haul l' ∧ o ∈ haul.orders

theorem Reinforces.relieves {o : Order} (h : c.Reinforces b o) :
    ∃ t, c.IsUndermanned b t ∧ Relieves b t ((c.gaps b).map (·.1)) o := by
  obtain ⟨t, ht, l, haul, l', hends, ho⟩ := h
  exact ⟨t, ht, (recruitChain_relieves l).of_ok hends o ho⟩

/-- Every order for the gaps reinforces one of them. -/
theorem reinforceGaps_reinforces (hb : b.Sound) (l : Ledger) :
    Ensures (fun _ _ => True) (c.reinforceGaps b (c.gaps b)) l fun orders _ =>
      ∀ o ∈ orders, c.Reinforces b o := by
  unfold reinforceGaps
  refine Ensures.collect_all ?_ l
  intro t ht l₁
  have hgap : t ∈ (c.gaps b).map (·.1) := mem_bestFirst.1 (List.mem_of_mem_take ht)
  dsimp only
  rw [lookup_gaps hgap, Option.getD_some]
  refine .bind ((Ensures.returns _ l₁).mono ?_)
  intro haul l₂ hends
  refine .pure fun o ho => ?_
  exact ⟨t, (mem_gaps hb).1 hgap, l₁, haul, l₂, hends, ho⟩

end Context

end Reinforcing

/-! ## Marching -/

/-- An order that leaves a territory of the player that no enemy threatens and ends, after at least
one step, on friendly land without an enemy force. -/
structure Advances (c : Context) (b : Board) (o : Order) : Prop where
  own : (b.territory o.route.start).owner = some c.player
  calm : ¬ 0 < c.threat b o.route.start
  steps : 0 < o.route.length
  friendly : b.isFriendlyLand o.route.dest c.player = true
  clear : b.hasEnemyForce o.route.dest c.player = false

namespace Context

variable {b : Board} {c : Context} {source : TerritoryId}

/-- What marches on from calm land advances. -/
theorem marchFrom_advances (hown : (b.territory source).owner = some c.player)
    (hcalm : ¬ 0 < c.threat b source) (l : Ledger) :
    Ensures (fun _ _ => True) (c.marchFrom b source) l fun orders _ =>
      ∀ o ∈ orders, o.route.start = source ∧ Advances c b o := by
  unfold marchFrom
  refine .bind (.get ?_)
  dsimp only
  split
  · exact .pure (by simp)
  · split
    · exact .pure (by simp)
    · rename_i full hfound
      obtain ⟨front, -, hroute⟩ := Option.bind_eq_some_iff.1 hfound
      have hstart : full.start = source := (Atlas.route?_leads hroute).start_eq
      refine Ensures.collect_all ?_ l
      rintro ⟨movement, group⟩ - l₁
      dsimp only
      split
      · exact .pure (by simp)
      · rename_i hsteps
        refine .andThen fun _ l₂ => .pure ?_
        intro o ho
        obtain rfl := List.mem_singleton.1 ho
        -- the march is cut off where it would leave friendly land
        obtain ⟨hfriendly, hclear⟩ := friendly_of_truncate hroute hsteps (Nat.min_le_right _ _)
        refine ⟨hstart, ?_, ?_, ?_, hfriendly, hclear⟩
        · exact hstart ▸ hown
        · exact hstart ▸ hcalm
        · show 0 < (full.truncate _).length
          rw [Route.length_truncate]
          omega

/-! ## The phase -/

/-- Consolidation reinforces first and then marches, and a march leaves no undermanned territory. -/
theorem consolidation_moves (hb : b.Sound) (l : Ledger) :
    Ensures (fun _ _ => True) (c.consolidation b) l fun orders _ =>
      ∃ reinforced marched l₁, c.reinforceGaps b (c.gaps b) l = .ok reinforced l₁ ∧
        orders = reinforced ++ marched ∧ (∀ o ∈ reinforced, c.Reinforces b o) ∧
        ∀ o ∈ marched, ¬ c.IsUndermanned b o.route.start ∧ Advances c b o := by
  unfold consolidation
  refine .bind (((Ensures.returns _ l).and (reinforceGaps_reinforces hb l)).mono ?_)
  rintro reinforced l₁ ⟨hends, hreinforced⟩
  refine .bind ((Ensures.collect_all ?_ l₁).mono fun marched l' hmarched =>
    .pure ⟨reinforced, marched, l₁, hends, rfl, hreinforced, hmarched⟩)
  intro t ht l₂
  split
  · exact .pure (by simp)
  · rename_i hguard
    rw [Bool.or_eq_true, not_or, List.contains_iff_mem, decide_eq_true_eq, mem_gaps hb] at hguard
    obtain ⟨hown, -⟩ := List.mem_filter.1 ht
    have howner := (hb.mem_territoriesWhere.1 hown).2
    rw [beq_iff_eq] at howner
    refine (marchFrom_advances howner hguard.2 l₂).mono fun orders _ h o ho => ?_
    obtain ⟨hstart, hadvances⟩ := h o ho
    exact ⟨hstart ▸ hguard.1, hadvances⟩

end Context

namespace Scenario

open Table

/-- Whom consolidation moves in a game, and where to. Whenever the phase ends, no order leaves an
undermanned territory and no order ends in enemy land. The orders that were not recruited for an
undermanned territory leave territories of the player that no enemy threatens, and end after at
least one step on friendly land without an enemy force. -/
theorem consolidation_spares (s : Scenario) (h₀ : Table) (hset : s.setUp = .ok h₀)
    (commands : List Command) (c : Context) (l l' : Ledger) (orders : List Order)
    (hends : c.consolidation (h₀.play commands).board l = .ok orders l') :
    let b := (h₀.play commands).board
    (∀ o ∈ orders, ¬ c.IsUndermanned b o.route.start) ∧
    (∀ o ∈ orders, b.isEnemyLand o.route.dest c.player = false) ∧
    ∃ reinforced marched l₁, c.reinforceGaps b (c.gaps b) l = .ok reinforced l₁ ∧
      orders = reinforced ++ marched ∧ (∀ o ∈ reinforced, c.Reinforces b o) ∧
      ∀ o ∈ marched, Advances c b o := by
  intro b
  have hb : b.Sound := (play_keeps (setUp_sound hset) commands).1
  obtain ⟨reinforced, marched, l₁, hfirst, rfl, hreinforced, hmarched⟩ :=
    (Context.consolidation_moves hb l).of_ok hends
  refine ⟨?_, ?_, reinforced, marched, l₁, hfirst, rfl, hreinforced, fun o ho => (hmarched o ho).2⟩
  · intro o ho
    rcases List.mem_append.1 ho with ho | ho
    · obtain ⟨t, -, hrelieves⟩ := (hreinforced o ho).relieves
      -- what is undermanned is a gap, and gaps are excluded as sources
      exact fun hweak => hrelieves.kept ((Context.mem_gaps hb).2 hweak)
    · exact (hmarched o ho).1
  · intro o ho
    rcases List.mem_append.1 ho with ho | ho
    · obtain ⟨t, ht, hrelieves⟩ := (hreinforced o ho).relieves
      -- a reinforcement ends at the gap, or at sea on its way there
      rcases hrelieves.goal with hgoal | hwater
      · rw [hgoal]
        exact Board.isEnemyLand_of_isFriendlyLand ht.friendly
      · exact Board.isEnemyLand_of_isWater _ hwater
    · exact Board.isEnemyLand_of_isFriendlyLand (hmarched o ho).2.friendly

/-- Blue before an open border of Red and a weak outpost beside it, and infantry of Red behind. -/
def openBorder : Scenario where
  players := [{ name := "Red", team := 0 }, { name := "Blue", team := 1 }]
  territories := [
    { name := "Camp", owner := some "Blue" },
    { name := "Border", owner := some "Red" },
    { name := "Outpost", owner := some "Red" },
    { name := "Rear", owner := some "Red" },
    { name := "Depot", owner := some "Red" }]
  connections := [("Camp", "Border"), ("Camp", "Outpost"), ("Border", "Outpost"),
    ("Border", "Rear"), ("Rear", "Depot")]
  kinds := [{ name := "infantry", attack := 1, defense := 2, cost := 3 }]
  pieces := [
    { kind := "infantry", owner := "Blue", place := "Camp", count := 3 },
    { kind := "infantry", owner := "Red", place := "Outpost", count := 1 },
    { kind := "infantry", owner := "Red", place := "Rear", count := 1 },
    { kind := "infantry", owner := "Red", place := "Depot", count := 1 }]

set_option maxRecDepth 100000 in
/-- The border and the outpost both lack troops. The infantry behind the border reinforces it and
more infantry follows, but the infantry of the outpost stays. -/
theorem consolidation_spares_openBorder : ∃ h, openBorder.setUp = .ok h ∧
    ∃ orders l', (Context.build h.board 0 {}).consolidation h.board (.new .nonCombat) =
        .ok orders l' ∧ orders.map (·.route.territories) = [[3, 1], [4, 3]] ∧
      ((Context.build h.board 0 {}).gaps h.board).map (·.1) = [1, 2] ∧
      (∀ o ∈ orders, ¬ (Context.build h.board 0 {}).IsUndermanned h.board o.route.start) ∧
      ∀ o ∈ orders, h.board.isEnemyLand o.route.dest 0 = false := by
  have hpass : (openBorder.setUp.toOption.any fun h =>
      let c := Context.build h.board 0 {}
      endsWith (fun orders _ => decide (orders.map (·.route.territories) = [[3, 1], [4, 3]] ∧
        (c.gaps h.board).map (·.1) = [1, 2]))
        (c.consolidation h.board) (.new .nonCombat)) = true := by
    decide +kernel
  obtain ⟨h, hset, hcheck⟩ := exists_setUp hpass
  obtain ⟨orders, l', hends, hfacts⟩ := exists_of_endsWith hcheck
  obtain ⟨hroutes, hgaps⟩ := of_decide_eq_true hfacts
  obtain ⟨hkept, hlands, -⟩ := consolidation_spares openBorder h hset [] (.build h.board 0 {})
    (.new .nonCombat) l' orders hends
  exact ⟨h, hset, orders, l', hends, hroutes, hgaps, hkept, hlands⟩

end Scenario

end Conquest
