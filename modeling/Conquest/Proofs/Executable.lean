import Conquest.Proofs.Accounts
import Conquest.Proofs.Strikes

/-!
# Every order can be carried out

Routes are joined, cut short, extended by a last step and shared by pieces of different movement.
Whatever is done to them, every order of every phase is a walk from where its pieces stand, and asks
of none of them more steps than it has left. That is true of the board that the phase was planned
on; whether the host takes the order is another matter.

* `Order.effort`, `Order.IsExecutable`: what an order asks of its pieces.
* `Party.executable`, `Party.executable_land`, `Party.executable_load`: parties can do as ordered.
* `Phase.plan_executable`: every order of every phase is executable.
* `runEpoch_executable`: and so is every order of an epoch, on the board of its phase.
-/

namespace Conquest

namespace Order

/-- The steps that an order asks of each of its pieces: all steps of a move, those sailed before a
landing, and one step to go aboard. -/
def effort (o : Order) : Nat :=
  match o.action with
  | .move => o.route.length
  | .load _ => 1
  | .unload => o.route.length - 1

/-- An order that its pieces can carry out on a board: they are pieces of `p` at the start of a
walk, with the movement for it. A transport that is boarded waits at the end of the only step. -/
structure IsExecutable (b : Board) (p : PlayerId) (o : Order) : Prop where
  walk : o.route.territories.IsChain (b.atlas.isAdjacent · · = true)
  stands : ∀ u ∈ o.pieces, ∃ a, b.asset? u = some a ∧ a.piece.owner = p ∧
    a.piece.territory = o.route.start ∧ o.effort ≤ a.piece.movementLeft
  boards : ∀ ship, o.action = .load ship → o.route.length = 1 ∧
    ∃ a, b.asset? ship = some a ∧ a.piece.territory = o.route.dest

end Order

/-! ## Parties -/

namespace Party

variable {b : Board} {p : PlayerId} {as : List Asset} {route : Route} {ship : Asset}

/-- A party can do what asks no more than its walk. -/
theorem stands (h : Party b p as route) {n : Nat} (hn : n ≤ route.length) :
    ∀ u ∈ as.map (·.id), ∃ a, b.asset? u = some a ∧ a.piece.owner = p ∧
      a.piece.territory = route.start ∧ n ≤ a.piece.movementLeft := by
  intro u hu
  rcases List.mem_map.1 hu with ⟨a, ha, rfl⟩
  exact ⟨a, h.asset a ha, h.owner a ha, h.place a ha, hn.trans (h.moves a ha)⟩

/-- A party that stands together and can go as its route says can be sent. -/
theorem executable (h : Party b p as route) :
    Order.IsExecutable b p { pieces := as.map (·.id), route } := by
  refine ⟨h.walk, h.stands (Nat.le_refl _), ?_⟩
  intro ship hload
  cases hload

/-- A ship can land its cargo next to where it sails. -/
theorem executable_land (h : Party b p [ship] route) {goal : TerritoryId}
    (hadj : b.atlas.isAdjacent route.dest goal = true) :
    Order.IsExecutable b p
      { pieces := [ship.id], route := route.extend goal, action := .unload } := by
  refine ⟨?_, h.stands ?_, ?_⟩
  · have hlast : route.territories.getLast? = some route.dest := by
      simp [Route.territories, Route.dest, List.getLast?_cons, List.getLastD_eq_getLast?]
    rw [Route.territories_extend, List.isChain_append]
    refine ⟨h.walk, .singleton _, ?_⟩
    intro x hx y hy
    rw [hlast] at hx
    cases hx
    cases hy
    exact hadj
  · show (route.extend goal).length - 1 ≤ route.length
    rw [Route.length_extend, Nat.add_sub_cancel]
  · intro ship hload
    cases hload

/-- Pieces can go aboard what waits next to them. -/
theorem executable_load {shore zone : TerritoryId} (h : Party b p as (.step shore zone))
    (hship : b.Stands p zone ship) :
    Order.IsExecutable b p
      { pieces := as.map (·.id), route := .step shore zone, action := .load ship.id } := by
  refine ⟨h.walk, h.stands (Nat.le_refl 1), ?_⟩
  rintro _ ⟨⟩
  exact ⟨rfl, ship, hship.asset, hship.place⟩

end Party

section Forms

variable {b : Board} {p : PlayerId} {exclude : List TerritoryId} {o : Order}

/-- A recruited order could be carried out. -/
theorem Recruited.executable {e : Epoch} {objective : TerritoryId}
    (h : Recruited b p e objective exclude o) : o.IsExecutable b p := by
  cases h with
  | march as route party land home free goal => exact party.executable
  | fly as route party air lands goal => exact party.executable
  | sail as route party ships => exact party.executable
  | land ship route party carries adjacent => exact party.executable_land adjacent

/-- An order that loads could be carried out. -/
theorem Loading.executable (h : Loading b p exclude o) : o.IsExecutable b p := by
  rcases h with ⟨as, shore, zone, ship, party, fits, home, free, waits⟩
  exact party.executable_load waits

/-- Every order of the combat move could be carried out. -/
theorem CombatOrder.executable (h : CombatOrder b p exclude o) : o.IsExecutable b p := by
  cases h with
  | attack t recruited => exact recruited.executable
  | raid a route party bomber lands => exact party.executable
  | loading loads => exact loads.executable

end Forms

/-! ## Parts of routes -/

theorem Route.walk_truncate {m : Atlas} {route : Route}
    (h : route.territories.IsChain (m.isAdjacent · · = true)) (n : Nat) :
    (route.truncate n).territories.IsChain (m.isAdjacent · · = true) := by
  have htake : (route.truncate n).territories = route.territories.take (n + 1) := rfl
  rw [htake]
  exact h.take _

namespace Context

variable {b : Board} {c : Context} {l : Ledger}

/-- A route that stops short is the beginning of the full route. -/
theorem truncate_of_safePart? {route part : Route} {group : List Asset}
    (h : c.safePart? b route group = some part) : ∃ n, part = route.truncate n := by
  rcases List.mem_map.1 (List.mem_of_find?_eq_some h) with ⟨k, -, rfl⟩
  exact ⟨k + 1, rfl⟩

/-- Sailing toward a station within some movement, and perhaps stopping short. -/
theorem leads_of_safePart? {passable : TerritoryId → Bool} {zone station : TerritoryId}
    {full part : Route} {movement : Nat} {group : List Asset}
    (hroute : b.atlas.route? zone station passable = some full)
    (hpart : c.safePart? b (full.truncate movement) group = some part) :
    part.start = zone ∧ part.length ≤ movement ∧
      part.territories.IsChain (b.atlas.isAdjacent · · = true) := by
  have hleads := Atlas.route?_leads hroute
  rcases truncate_of_safePart? hpart with ⟨n, rfl⟩
  refine ⟨hleads.start_eq, ?_, Route.walk_truncate (Route.walk_truncate hleads.walk movement) n⟩
  rw [Route.length_truncate, Route.length_truncate]
  omega

/-! ## Idle pieces -/

theorem stands_of_mem_idle (hb : b.Sound) {t : TerritoryId} {a : Asset} (h : a ∈ c.idle b l t) :
    b.Stands c.player t a :=
  hb.stands (mem_idle h).1 (mem_idle h).2.1

/-- An idle piece has movement left. -/
theorem moves_of_mem_idle {t : TerritoryId} {a : Asset} (h : a ∈ c.idle b l t) :
    0 < a.piece.movementLeft := by
  have hkeep := (List.mem_filter.1 h).2
  simp only [Bool.and_eq_true, decide_eq_true_eq] at hkeep
  exact hkeep.1.1.2

/-- A group of idle pieces can walk as far as the movement that they share. -/
theorem group_party (hb : b.Sound) {t : TerritoryId} {pool : List Asset}
    (hpool : pool ⊆ c.idle b l t) {g : Nat × List Asset} (hg : g ∈ byMovement pool)
    {route : Route} (hstart : route.start = t) (hmoves : route.length ≤ g.1)
    (hwalk : route.territories.IsChain (b.atlas.isAdjacent · · = true)) :
    Party b c.player g.2 route := by
  have hmem : g.2 ⊆ c.idle b l t := fun a ha => hpool ((groupByKey_sublist hg).subset ha)
  refine .of_stands (fun a ha => hstart ▸ stands_of_mem_idle hb (hmem ha)) ?_ hwalk
  intro a ha
  rw [(mem_groupByKey.1 hg).2, List.mem_filter, beq_iff_eq] at ha
  rw [ha.2]
  exact hmoves

/-! ## Non-combat phases -/

/-- Planning that gives executable orders only. -/
def GivesExecutable (c : Context) (b : Board) (m : Planning (List Order)) : Prop :=
  ∀ l, Ensures (fun _ _ => True) m l fun orders _ => ∀ o ∈ orders, o.IsExecutable b c.player

namespace GivesExecutable

variable {α : Type} {orders : List Order} {o : Order}

theorem pure (h : ∀ o ∈ orders, o.IsExecutable b c.player) :
    c.GivesExecutable b (return orders) :=
  fun _ => .pure h

theorem nothing : c.GivesExecutable b (return []) :=
  .pure (by simp)

theorem one (h : o.IsExecutable b c.player) : c.GivesExecutable b (return [o]) :=
  .pure (by simpa using h)

theorem read {f : Ledger → Planning (List Order)} (h : ∀ l, c.GivesExecutable b (f l)) :
    c.GivesExecutable b (get >>= f) :=
  fun l => .bind (.get (h l l))

/-- Something is taken before an order is given. -/
theorem andThen {m : Planning α} {f : α → Planning (List Order)}
    (h : ∀ a, c.GivesExecutable b (f a)) : c.GivesExecutable b (m >>= f) :=
  fun _ => .andThen fun a l' => h a l'

theorem bind {m : Planning (List Order)} {f : List Order → Planning (List Order)}
    (hm : c.GivesExecutable b m)
    (hf : ∀ orders, (∀ o ∈ orders, o.IsExecutable b c.player) → c.GivesExecutable b (f orders)) :
    c.GivesExecutable b (m >>= f) :=
  fun l => .bind ((hm l).mono fun orders l' h => hf orders h l')

/-- A loop gives orders that could be carried out if each of its rounds does. -/
theorem collect {f : α → Planning (List Order)} {xs : List α}
    (h : ∀ x ∈ xs, c.GivesExecutable b (f x)) : c.GivesExecutable b (Conquest.collect f xs) :=
  fun l => .collect_all (fun x hx l' => h x hx l') l

/-- Recruiting gives a haul whose orders could be carried out. -/
theorem recruit (hb : b.Sound) {target : Target} {branches : List Branch}
    {f : Haul → Planning (List Order)}
    (h : ∀ haul : Haul, (∀ o ∈ haul.orders, o.IsExecutable b c.player) →
      c.GivesExecutable b (f haul)) :
    c.GivesExecutable b (c.recruitChain b target branches {} >>= f) := by
  intro l
  refine .bind ((recruitChain_recruited hb branches l (by simp)).mono ?_)
  intro haul l' hhaul
  exact h haul (fun o ho => (hhaul.2 o ho).executable) l'

end GivesExecutable

theorem loadForNextTurn_executable (hb : b.Sound) :
    c.GivesExecutable b (c.loadForNextTurn b) := by
  unfold loadForNextTurn
  split
  · exact .nothing
  · intro l
    exact (loadTransports_loads hb _ l).mono fun orders l' h o ho => (h.2 o ho).executable

theorem reinforceCapital_executable (hb : b.Sound) :
    c.GivesExecutable b (c.reinforceCapital b) := by
  unfold reinforceCapital
  split
  · exact .nothing
  · exact .recruit hb fun haul hhaul => .andThen fun _ => .pure hhaul

theorem navalReposition_executable (hb : b.Sound) :
    c.GivesExecutable b (c.navalReposition b) := by
  unfold navalReposition
  split
  · exact .nothing
  · refine .collect ?_
    intro zone _
    split
    · exact .nothing
    · refine .read fun l => ?_
      dsimp only
      split
      · exact .nothing
      · split
        · exact .nothing
        · rename_i full hroute
          refine .collect ?_
          rintro ⟨movement, group⟩ hg
          dsimp only
          split
          · exact .nothing
          · -- a group goes as far as the way is safe, which is still a walk
            rename_i route hpart
            rcases leads_of_safePart? hroute hpart with ⟨hstart, hmoves, hwalk⟩
            refine .andThen fun _ => .one (Party.executable ?_)
            exact group_party hb (List.filter_subset_self _) hg hstart hmoves hwalk

theorem amphibiousReinforce_executable (hb : b.Sound) :
    c.GivesExecutable b (c.amphibiousReinforce b) := by
  unfold amphibiousReinforce
  split
  · exact .nothing
  · refine .collect ?_
    intro zone _
    split
    · exact .nothing
    · refine .read fun l => .collect ?_
      intro ship hship
      dsimp only
      split
      · exact .nothing
      · split
        · exact .nothing
        · rename_i route hroute
          rcases Option.bind_eq_some_iff.1 hroute with ⟨full, hfull, hpart⟩
          rcases leads_of_safePart? hfull hpart with ⟨hstart, hmoves, hwalk⟩
          have hparty : Party b c.player [ship] route :=
            .of_stand (hstart.symm ▸ stands_of_mem_idle hb hship) hmoves hwalk
          exact .andThen fun _ => .andThen fun _ => .one hparty.executable

/-- The way to the best base is a walk within the movement. -/
theorem leads_of_bestBase? {bases : List TerritoryId} {source : TerritoryId} {movement : Nat}
    {route : Route} (h : bestBase? b bases source movement = some route) :
    route.start = source ∧ route.length ≤ movement ∧
      route.territories.IsChain (b.atlas.isAdjacent · · = true) := by
  rcases List.exists_of_findSome?_eq_some h with ⟨base, -, hroute⟩
  split at hroute
  · cases hroute
    exact ⟨rfl, Nat.zero_le _, .singleton _⟩
  · rw [Option.filter_eq_some_iff, decide_eq_true_eq] at hroute
    have hleads := Atlas.route?_leads hroute.1
    exact ⟨hleads.start_eq, hroute.2, hleads.walk⟩

theorem airReposition_executable (hb : b.Sound) :
    c.GivesExecutable b (c.airReposition b) := by
  unfold airReposition
  refine .collect fun source _ => .read fun l => .collect ?_
  rintro ⟨movement, group⟩ hg
  dsimp only
  split
  · rename_i route hroute
    rw [Option.filter_eq_some_iff] at hroute
    rcases leads_of_bestBase? hroute.1 with ⟨hstart, hmoves, hwalk⟩
    refine .andThen fun _ => .one (Party.executable ?_)
    exact group_party hb (List.filter_subset_self _) hg hstart hmoves hwalk
  · exact .andThen fun _ => .nothing

theorem marchFrom_executable (hb : b.Sound) (source : TerritoryId) :
    c.GivesExecutable b (c.marchFrom b source) := by
  unfold marchFrom
  refine .read fun l => ?_
  dsimp only
  split
  · exact .nothing
  · split
    · exact .nothing
    · rename_i full hroute
      rcases Option.bind_eq_some_iff.1 hroute with ⟨front, -, hroute⟩
      have hleads := Atlas.route?_leads hroute
      refine .collect ?_
      rintro ⟨movement, group⟩ hg
      dsimp only
      split
      · exact .nothing
      · refine .andThen fun _ => .one (Party.executable ?_)
        refine group_party hb (List.filter_subset_self _) hg hleads.start_eq ?_
          (Route.walk_truncate hleads.walk _)
        -- the group walks no farther than it can, and never onto the front
        rw [Route.length_truncate]
        exact (Nat.min_le_left _ _).trans (Nat.min_le_left _ _)

theorem consolidation_executable (hb : b.Sound) :
    c.GivesExecutable b (c.consolidation b) := by
  unfold consolidation
  have hgaps : c.GivesExecutable b (c.reinforceGaps b (c.gaps b)) :=
    .collect fun t _ => .recruit hb fun haul hhaul => .pure hhaul
  refine .bind hgaps fun reinforced hreinforced => .bind (.collect ?_) fun marched hmarched => ?_
  · intro t _
    split
    · exact .nothing
    · exact marchFrom_executable hb t
  · exact .pure fun o ho => (List.mem_append.1 ho).elim (hreinforced o) (hmarched o)

/-- The piece that fills a gap stands next to it on friendly land. -/
theorem of_blocker? {gap : TerritoryId} {x : Asset × TerritoryId}
    (h : c.blocker? b l gap = some x) :
    x.2 ∈ b.atlas.neighbors gap ∧ b.isFriendlyLand x.2 c.player = true := by
  rcases List.mem_flatMap.1 (mem_of_firstLeast? h) with ⟨n, hn, hx⟩
  rcases List.mem_map.1 hx with ⟨a, -, rfl⟩
  exact List.mem_filter.1 hn

theorem blitzBlock_executable (hb : b.Sound) : c.GivesExecutable b (c.blitzBlock b) := by
  unfold blitzBlock
  refine .collect ?_
  intro gap _
  split
  · refine .read fun l => ?_
    split
    · exact .nothing
    · rename_i a source hblocker
      have hidle := mem_idle_of_blocker? hblocker
      have hadj := Atlas.mem_neighbors.1 (of_blocker? hblocker).1
      have hparty : Party b c.player [a] (.step source gap) :=
        .of_stand (stands_of_mem_idle hb hidle) (moves_of_mem_idle hidle)
          (List.isChain_pair.2 (hb.atlas.adjacent_symm _ _ hadj))
      exact .andThen fun _ => .one hparty.executable
  · exact .nothing

theorem airLanding_executable (hb : b.Sound) : c.GivesExecutable b (c.airLanding b) := by
  unfold airLanding
  refine .collect fun t _ => .collect ?_
  intro plane hplane
  refine .read fun l => ?_
  split
  · exact .nothing
  · split
    · exact .nothing
    · rename_i route hroute
      rw [Option.filter_eq_some_iff] at hroute
      rcases of_landingFor? hroute.1 with ⟨hleads, hmoves, -⟩
      rcases Board.mem_ownedIn.1 hplane with ⟨hmem, howner⟩
      have hparty : Party b c.player [plane] route :=
        .one (hb.asset?_of_mem hmem) howner hleads.start_eq.symm hmoves hleads.walk
      exact .andThen fun _ => .one hparty.executable

theorem transportUnload_executable (hb : b.Sound) : c.GivesExecutable b (c.transportUnload b) := by
  unfold transportUnload
  refine .collect fun zone _ => .collect ?_
  intro ship hship
  refine .read fun l => ?_
  split
  · exact .nothing
  · rename_i hguard
    rw [Bool.or_eq_true, Bool.or_eq_true, not_or, not_or, Bool.not_eq_true', Bool.not_eq_false]
      at hguard
    dsimp only
    split
    · exact .nothing
    · split
      · exact .nothing
      · rename_i goal hgoal
        have hadj := List.find?_some hgoal
        rw [Bool.and_eq_true] at hadj
        have hkind := PieceKind.isLand_eq_false_of_carriesCargo
          (PieceKind.carriesCargo_of_isTransport hguard.1.1)
        -- the ship stays where it is, and the only step puts the cargo ashore
        have hparty : Party b c.player [ship] (.stay zone) :=
          .of_stand (hb.stands hship (hb.alone hship hkind)) (Nat.zero_le _) (.singleton _)
        exact .andThen fun _ => .one (hparty.executable_land hadj.1)

end Context

/-! ## Phases -/

/-- Whatever the phase, the epoch and the desk, every order is executable on the board that it was
planned on. -/
theorem Phase.plan_executable {b : Board} (hb : b.Sound) (phase : Phase) (d : Desk) :
    Ensures (fun _ _ => True) (phase.plan b) d fun orders _ =>
      ∀ o ∈ orders, o.IsExecutable b d.context.player := by
  cases hepoch : d.ledger.epoch with
  | combat =>
    exact (phase.plan_strikes hb hepoch).mono fun orders d' h o ho => (h.gives o ho).executable
  | nonCombat =>
    unfold plan
    refine .bind (.get ?_)
    rw [hepoch]
    -- the other phases are phases of combat and plan nothing here
    cases phase with
    | transportLoad => exact Drafting.ensures_plan (Context.loadForNextTurn_executable hb _)
    | defendCapital => exact Drafting.ensures_plan (Context.reinforceCapital_executable hb _)
    | navalReposition => exact Drafting.ensures_plan (Context.navalReposition_executable hb _)
    | amphibiousReinforce =>
      exact Drafting.ensures_plan (Context.amphibiousReinforce_executable hb _)
    | airReposition => exact Drafting.ensures_plan (Context.airReposition_executable hb _)
    | consolidation => exact Drafting.ensures_plan (Context.consolidation_executable hb _)
    | blitzBlock => exact Drafting.ensures_plan (Context.blitzBlock_executable hb _)
    | airLanding => exact Drafting.ensures_plan (Context.airLanding_executable hb _)
    | transportUnload => exact Drafting.ensures_plan (Context.transportUnload_executable hb _)
    | _ => exact .pure (by simp)

/-- Whatever a phase plans could be carried out on the board it was planned on. -/
theorem Phase.executable_of_plan {b : Board} (hb : b.Sound) {phase : Phase} {d d' : Desk}
    {orders : List Order} (h : phase.plan b d = .ok orders d') :
    ∀ o ∈ orders, o.IsExecutable b d.context.player :=
  (phase.plan_executable hb d).of_ok h

namespace Campaign

/-- On every board that can be reached, whoever plans at whatever desk: every order of every phase
is executable on that board. Over an epoch every order is executable on the board that its phase
was planned on, whichever orders the host takes. -/
theorem runEpoch_executable (s : Scenario) (h : Table) (hset : s.setUp = .ok h)
    (commands : List Command) :
    (∀ (phase : Phase) (d d' : Desk) (orders : List Order),
      phase.plan (h.play commands).board d = .ok orders d' →
      ∀ o ∈ orders, o.IsExecutable (h.play commands).board d.context.player) ∧
    ∀ (whim : Table → PlayerId → Order → Option Rejection) (desk : Desk) (e : Epoch)
      (record : EpochRecord) (last : Campaign Fickle),
      runEpoch e ⟨⟨h.play commands, whim⟩, desk⟩ = .ok record last →
      ∀ r ∈ record.phases, ∀ o ∈ r.orders, o.IsExecutable r.board desk.context.player := by
  rcases Table.play_keeps (Scenario.setUp_sound hset) commands with ⟨hsound, -⟩
  refine ⟨fun phase d d' orders hplan => Phase.executable_of_plan hsound hplan, ?_⟩
  intro whim desk e record last hrun
  have hkeeps := runEpoch_keeps Fickle.steady (s := ⟨⟨h.play commands, whim⟩, desk⟩)
    (J := fun records _ => ∀ r ∈ records, ∀ o ∈ r.orders,
      o.IsExecutable r.board desk.context.player) hsound e (by simp) ?_
  · unfold Ensures at hkeeps
    rw [hrun] at hkeeps
    exact hkeeps.2.1
  · -- one more phase adds its own record
    intro phase _ s₁ s₂ records r hs₁ hsits hrecords hran x hx
    rcases List.mem_append.1 hx with hx | hx
    · exact hrecords x hx
    · rw [List.mem_singleton.1 hx, ← hsits.player]
      have hboard : r.board.Sound := hran.board ▸ Fickle.steady.sound _ hs₁
      exact Phase.executable_of_plan hboard hran.plans

set_option maxRecDepth 100000 in
/-- The landing off a defended coast is planned although the host refuses it, and could be carried
out. -/
theorem runEpoch_executable_landing :
    ∃ (h : Table) (record : EpochRecord) (last : Campaign Fickle), landing.setUp = .ok h ∧
      runEpoch .combat ⟨⟨h.play [], holdsBack 0⟩, .fresh h.board 0 {}⟩ = .ok record last ∧
      record.orders = [{ pieces := [0], route := .step 2 1, action := .unload }] ∧
      ∀ r ∈ record.phases, ∀ o ∈ r.orders, o.IsExecutable r.board 0 := by
  have hpass : (landing.setUp.toOption.any fun h =>
      endsWith (fun record _ =>
          record.orders == [{ pieces := [0], route := .step 2 1, action := .unload }])
        (runEpoch .combat) ⟨(⟨h.play [], holdsBack 0⟩ : Fickle), .fresh h.board 0 {}⟩) = true := by
    decide +kernel
  obtain ⟨h, hset, hends⟩ := Scenario.exists_setUp hpass
  obtain ⟨record, last, hrun, hcheck⟩ := exists_of_endsWith hends
  exact ⟨h, record, last, hset, hrun, eq_of_beq hcheck,
    (runEpoch_executable landing h hset []).2 (holdsBack 0) (.fresh h.board 0 {}) .combat
      record last hrun⟩

end Campaign

end Conquest
