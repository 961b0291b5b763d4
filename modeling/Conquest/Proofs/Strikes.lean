import Conquest.Proofs.Origins
import Conquest.Proofs.Run

/-!
# What the combat move orders and marks

The orders of the combat move are those of its attacks, the raids of its bombers and the loading of
its transports. Land is marked as attacked only with an order that puts land pieces there.

* `CombatOrder`: the orders of the combat move.
* `Board.Takes`: the orders that put land pieces into a territory.
* `Strikes`, `Phase.plan_strikes`: what a phase of the combat move orders and marks.
-/

namespace Conquest

/-! ## Orders -/

/-- The orders of the combat move when some territories have been attacked. -/
inductive CombatOrder (b : Board) (p : PlayerId) (attacked : List TerritoryId) : Order → Prop
  | attack {o : Order} (t : TerritoryId) (recruited : Recruited b p .combat t attacked o) :
      CombatOrder b p attacked o
  /-- A bomber flies where it can land near afterwards. -/
  | raid (a : Asset) (route : Route) (party : Party b p [a] route)
      (bomber : a.kind.isStrategicBomber = true)
      (lands : canLandNear b p route.dest (a.piece.movementLeft - route.length) = true) :
      CombatOrder b p attacked { pieces := [a.id], route }
  | loading {o : Order} (loads : Loading b p attacked o) : CombatOrder b p attacked o

theorem CombatOrder.mono {b : Board} {p : PlayerId} {attacked attacked' : List TerritoryId}
    {o : Order} (h : CombatOrder b p attacked o) (hsub : attacked' ⊆ attacked) :
    CombatOrder b p attacked' o := by
  cases h with
  | attack t recruited => exact .attack t (recruited.mono hsub)
  | raid a route party bomber lands => exact .raid a route party bomber lands
  | loading loads =>
    rcases loads with ⟨as, shore, zone, ship, party, fits, home, free, waits⟩
    exact .loading (.load as shore zone ship party fits home (fun hin => free (hsub hin)) waits)

/-- An order that puts land pieces into `t`: cargo goes ashore there, or a land piece marches
there. -/
def Board.Takes (b : Board) (t : TerritoryId) (o : Order) : Prop :=
  o.route.dest = t ∧ (o.action = .unload ∨ o.action = .move ∧
    ∃ u ∈ o.pieces, ∃ a, b.asset? u = some a ∧ a.kind.isLand = true)

/-- Of what is recruited for an objective, all that lands cargo or names land pieces ends there. -/
theorem Recruited.takes {b : Board} {p : PlayerId} {e : Epoch} {objective : TerritoryId}
    {exclude : List TerritoryId} {o : Order} (h : Recruited b p e objective exclude o)
    (htroops : o.isUnload = true ∨ ∃ u ∈ o.pieces, ∃ a, b.asset? u = some a ∧
      a.kind.isLand = true) : b.Takes objective o := by
  cases h with
  | march as route party land home free goal =>
    exact ⟨goal, .inr ⟨rfl, htroops.resolve_left (by simp [Order.isUnload])⟩⟩
  | fly as route party air lands goal =>
    exact ⟨goal, .inr ⟨rfl, htroops.resolve_left (by simp [Order.isUnload])⟩⟩
  | sail as route party ships =>
    -- none of them is a land piece
    rcases htroops with hunload | ⟨u, hu, a, ha, hland⟩
    · cases hunload
    · have hkind := ships a (party.mem_of_asset hu ha)
      rw [PieceKind.isLand_eq_false_of_sails hkind] at hland
      cases hland
  | land ship route party carries adjacent => exact ⟨route.dest_extend objective, .inl rfl⟩

/-! ## Phases -/

/-- What a phase of the combat move orders, and what it marks as attacked. -/
structure Strikes (b : Board) (d d' : Desk) (orders : List Order) : Prop where
  player : d'.context.player = d.context.player
  epoch : d'.ledger.epoch = d.ledger.epoch
  attacked : d.context.attacked ⊆ d'.context.attacked
  gives : ∀ o ∈ orders, CombatOrder b d.context.player d.context.attacked o
  marks : ∀ t ∈ d'.context.attacked, t ∈ d.context.attacked ∨ b.atlas.isWater t = true ∨
    b.isEnemyLand t d.context.player = true ∧ ∃ o ∈ orders, b.Takes t o

namespace Strikes

variable {b : Board} {d d' d'' : Desk} {orders orders' : List Order}

theorem refl (b : Board) (d : Desk) : Strikes b d d [] :=
  ⟨rfl, rfl, fun _ ht => ht, by simp, fun _ ht => .inl ht⟩

theorem append (h : Strikes b d d' orders) (h' : Strikes b d' d'' orders') :
    Strikes b d d'' (orders ++ orders') := by
  refine ⟨h'.player.trans h.player, h'.epoch.trans h.epoch, fun t ht => h'.attacked (h.attacked ht),
    ?_, ?_⟩
  · intro o ho
    rcases List.mem_append.1 ho with ho | ho
    · exact h.gives o ho
    · have horder := h'.gives o ho
      rw [h.player] at horder
      exact horder.mono h.attacked
  · intro t ht
    rcases h'.marks t ht with hold | hwater | ⟨hland, o, ho, htakes⟩
    · rcases h.marks t hold with hold | hwater | ⟨hland, o, ho, htakes⟩
      · exact .inl hold
      · exact .inr (.inl hwater)
      · exact .inr (.inr ⟨hland, o, List.mem_append_left _ ho, htakes⟩)
    · exact .inr (.inl hwater)
    · rw [h.player] at hland
      exact .inr (.inr ⟨hland, o, List.mem_append_right _ ho, htakes⟩)

end Strikes

namespace Drafting

variable {b : Board} {d : Desk}

/-- An attempt that is kept was accepted and recruited for its objective. -/
theorem attempt_recruited (hb : b.Sound) {objective : TerritoryId} {need : Float32}
    {branches : List Branch} {accept : Haul → Bool} :
    Ensures (fun _ _ => True) (attempt b objective need branches accept) d fun got d' =>
      d'.context = d.context ∧ d'.ledger.epoch = d.ledger.epoch ∧ ∀ haul, got = some haul →
        accept haul = true ∧ ∀ o ∈ haul.orders,
          Recruited b d.context.player d.ledger.epoch objective d.context.attacked o := by
  set target : Target := { objective, needed := need, exclude := d.context.attacked } with htarget
  have hstart : ∀ o ∈ ({} : Haul).orders, Recruited b d.context.player d.ledger.fork.epoch
      target.objective target.exclude o := by simp
  have hchain := d.context.recruitChain_recruited hb branches d.ledger.fork hstart
  unfold Ensures attempt at *
  dsimp only at hchain ⊢
  cases hrun : d.context.recruitChain b { objective, needed := need, exclude := d.context.attacked }
      branches {} d.ledger.fork with
  | error e l' => exact trivial
  | ok haul fork =>
    rw [htarget, hrun] at hchain
    dsimp only
    -- a fork that is given up is dropped with its orders
    by_cases hgive : (haul.isEmpty || decide (haul.achieved < need) || !accept haul) = true
    · rw [if_pos hgive]
      exact ⟨rfl, rfl, by simp⟩
    · rw [if_neg hgive]
      rw [Bool.or_eq_true, not_or, Bool.not_eq_true', Bool.not_eq_false] at hgive
      cases habsorb : d.ledger.absorb fork with
      | error e => exact trivial
      | ok l' =>
        refine ⟨rfl, Ledger.epoch_absorb habsorb, ?_⟩
        intro haul' heq
        cases heq
        exact ⟨hgive.2, hchain.2⟩

/-- Attacks on a list of targets, each of them at sea or on enemy land that no force is accepted
against unless it takes it. -/
theorem attackEach_strikes (hb : b.Sound) {branches : Context → TerritoryId → List Branch}
    {accept : Haul → Bool} {targets : List TerritoryId} (hepoch : d.ledger.epoch = .combat)
    (htargets : ∀ t ∈ targets, b.atlas.isWater t = true ∨
      b.isEnemyLand t d.context.player = true ∧ ∀ haul : Haul, accept haul = true →
        (∀ o ∈ haul.orders, ∃ exclude, Recruited b d.context.player .combat t exclude o) →
        ∃ o ∈ haul.orders, b.Takes t o) :
    Ensures (fun _ _ => True) (attackEach b branches accept targets) d fun orders d' =>
      Strikes b d d' orders := by
  unfold attackEach
  refine (Ensures.collect (J := fun rest d' out => rest ⊆ targets ∧ Strikes b d d' out) ?_
    ⟨fun _ h => h, .refl b d⟩).mono fun orders d' h => h.2
  rintro target rest d₁ out ⟨hsub, hstrikes⟩
  have hrest : rest ⊆ targets := fun t ht => hsub (List.mem_cons_of_mem _ ht)
  refine .bind (.get (.bind ((attempt_recruited hb).mono ?_)))
  rintro got d₂ ⟨hcontext, hepoch₂, hgot⟩
  cases got with
  | none =>
    refine .pure ⟨hrest, hstrikes.append ⟨by rw [hcontext], hepoch₂, ?_, by simp, ?_⟩⟩
    · rw [hcontext]
      exact fun t ht => ht
    · rw [hcontext]
      exact fun t ht => .inl ht
  | some haul =>
    rcases hgot haul rfl with ⟨haccept, hhaul⟩
    rw [hstrikes.epoch, hepoch] at hhaul
    refine .bind (.change (.pure ⟨hrest, hstrikes.append ?_⟩))
    rcases markAttacked_context d₂.context target with ⟨hmark, hold, -⟩
    rw [hcontext] at hmark hold
    refine ⟨?_, hepoch₂, ?_, fun o ho => .attack target (hhaul o ho), ?_⟩
    · rw [hcontext, hmark]
    · rw [hcontext]
      exact hold
    · rw [hcontext]
      intro t ht
      unfold Context.markAttacked at ht
      -- the target is the only territory that is marked anew
      have hnew : t ∈ d₁.context.attacked ∨ t = target := by
        split at ht
        · exact .inl ht
        · exact (List.mem_cons.1 ht).symm
      rcases hnew with hin | rfl
      · exact .inl hin
      · rw [hstrikes.player] at hhaul ⊢
        rcases htargets t (hsub List.mem_cons_self) with hwater | ⟨hland, htakes⟩
        · exact .inr (.inl hwater)
        · exact .inr (.inr ⟨hland, htakes haul haccept fun o ho => ⟨_, hhaul o ho⟩⟩)

theorem seaCombat_strikes (hb : b.Sound) (hepoch : d.ledger.epoch = .combat) :
    Ensures (fun _ _ => True) (seaCombat b) d fun orders d' => Strikes b d d' orders := by
  refine .bind (.get (attackEach_strikes hb hepoch ?_))
  intro t ht
  have hfleet := Context.bestTargets_subset ht
  have hzone := (List.mem_filter.1 (List.mem_filter.1 hfleet).1).1
  exact .inl (Atlas.isWater_of_mem_seaZones hb.atlas hzone)

theorem amphibiousAssault_strikes (hb : b.Sound) (hepoch : d.ledger.epoch = .combat) :
    Ensures (fun _ _ => True) (amphibiousAssault b) d fun orders d' => Strikes b d d' orders := by
  refine .bind (.get (attackEach_strikes hb hepoch ?_))
  intro t ht
  have htarget := Context.coastalTargets_isTarget (List.mem_of_mem_take ht)
  rcases htarget.symm with hwater | hland
  · exact .inl hwater
  · refine .inr ⟨hland, ?_⟩
    intro haul haccept hhaul
    -- some order of an assault lands cargo
    rcases List.any_eq_true.1 haccept with ⟨o, ho, hunload⟩
    rcases hhaul o ho with ⟨exclude, hrecruited⟩
    exact ⟨o, ho, hrecruited.takes (.inl hunload)⟩

theorem landCombat_strikes (hb : b.Sound) (hepoch : d.ledger.epoch = .combat) :
    Ensures (fun _ _ => True) (landCombat b) d fun orders d' => Strikes b d d' orders := by
  refine .bind (.get (attackEach_strikes hb hepoch ?_))
  intro t ht
  have htarget := Context.landTargets_isTarget (Context.bestTargets_subset ht)
  rcases htarget.symm with hwater | hland
  · exact .inl hwater
  · refine .inr ⟨hland, ?_⟩
    intro haul haccept hhaul
    rcases List.any_eq_true.1 haccept with ⟨o, ho, htroops⟩
    rcases hhaul o ho with ⟨exclude, hrecruited⟩
    refine ⟨o, ho, hrecruited.takes ?_⟩
    rw [Bool.or_eq_true, List.any_eq_true] at htroops
    refine htroops.imp id ?_
    rintro ⟨a, ha, hkind⟩
    rcases List.mem_filterMap.1 ha with ⟨u, hu, hasset⟩
    exact ⟨u, hu, a, hasset, hkind⟩

/-- A plan that changes the ledger only. -/
theorem plan_strikes {p : Context → Planning (List Order)}
    (h : Ensures (fun _ _ => True) (p d.context) d.ledger fun orders l' =>
      l'.epoch = d.ledger.epoch ∧ ∀ o ∈ orders,
        CombatOrder b d.context.player d.context.attacked o) :
    Ensures (fun _ _ => True) (plan p) d fun orders d' => Strikes b d d' orders := by
  unfold Ensures plan at *
  cases hp : p d.context d.ledger with
  | ok orders l' =>
    rw [hp] at h
    exact ⟨rfl, h.1, fun _ ht => ht, h.2, fun _ ht => .inl ht⟩
  | error e l' => exact trivial

end Drafting

namespace Context

variable {b : Board} {c : Context} {l : Ledger}

/-- Holding pieces leaves the epoch alone. -/
theorem holdAgainst_epoch (threat : Float32) (held garrison : List Asset) (l : Ledger) :
    Ensures (fun _ _ => True) (c.holdAgainst threat held garrison) l fun _ l' =>
      l'.epoch = l.epoch := by
  induction garrison generalizing held l with
  | nil => exact .pure rfl
  | cons a rest ih =>
    unfold holdAgainst
    split
    · exact .pure rfl
    · refine .bind ((Planning.hold_epoch a.id l).mono ?_)
      intro taken l₁ hepoch
      split
      · exact (ih _ l₁).mono fun _ l' h => h.trans hepoch
      · exact (ih _ l₁).mono fun _ l' h => h.trans hepoch

/-- A bomber is asked whether it can land afterwards. -/
theorem lands_of_raidFor? {factories : List TerritoryId} {a : Asset} {route : Route}
    (h : c.raidFor? b factories a = some route) :
    canLandNear b c.player route.dest (a.piece.movementLeft - route.length) = true := by
  rcases List.mem_filterMap.1 (mem_of_lastGreatest? h) with ⟨f, -, hroute⟩
  rw [Option.filter_eq_some_iff, Bool.and_eq_true] at hroute
  rw [(Atlas.route?_leads hroute.1).dest_eq]
  exact hroute.2.2

/-- Bombers raid where they can land near afterwards. -/
theorem strategicBombing_raids (hb : b.Sound) {attacked : List TerritoryId} (l : Ledger) :
    Ensures (fun _ _ => True) (c.strategicBombing b) l fun orders l' =>
      l'.epoch = l.epoch ∧ ∀ o ∈ orders, CombatOrder b c.player attacked o := by
  unfold strategicBombing
  dsimp only
  split
  · exact .pure ⟨rfl, by simp⟩
  · refine .bind (.get (Ensures.collect_forall (K := fun l' : Ledger => l'.epoch = l.epoch) ?_ rfl))
    intro bomber hbomber l₁ hl₁
    split
    · exact .pure ⟨hl₁, by simp⟩
    · rename_i route hroute
      refine .bind ((Planning.commitAll_epoch [bomber.id] l₁).mono ?_)
      intro _ l₂ hepoch
      refine .pure ⟨hepoch.trans hl₁, ?_⟩
      intro o ho
      rw [List.mem_singleton.1 ho]
      rcases mem_idleBombers hbomber with ⟨⟨t, hown⟩, hkind, -⟩
      rcases of_raidFor? hroute with ⟨-, hmoves, hleads⟩
      rcases Board.mem_ownedIn.1 hown with ⟨hmem, howner⟩
      exact .raid bomber route (.one (hb.asset?_of_mem hmem) howner hleads.start_eq.symm hmoves
        hleads.walk) hkind (lands_of_raidFor? hroute)

end Context

/-- Every phase of the combat move gives orders of the combat move, and marks land as attacked only
with an order that takes it. -/
theorem Phase.plan_strikes {b : Board} {d : Desk} (hb : b.Sound) (phase : Phase)
    (hepoch : d.ledger.epoch = .combat) :
    Ensures (fun _ _ => True) (phase.plan b) d fun orders d' => Strikes b d d' orders := by
  unfold plan
  refine .bind (.get ?_)
  rw [hepoch]
  -- only assaults and attacks mark land; the other phases leave the context alone
  cases phase with
  | seaCombat => exact Drafting.seaCombat_strikes hb hepoch
  | transportLoad =>
    refine Drafting.plan_strikes ?_
    unfold Context.loadForInvasion
    split
    · exact .pure ⟨rfl, by simp⟩
    · exact (Context.loadTransports_loads hb _ _).mono fun orders l' h =>
        ⟨h.1, fun o ho => .loading (h.2 o ho)⟩
  | defendCapital =>
    refine Drafting.plan_strikes ?_
    unfold Context.holdCapital
    split
    · exact .pure ⟨rfl, by simp⟩
    · refine .bind (.get (.bind ((Context.holdAgainst_epoch _ _ _ _).mono ?_)))
      intro _ l' hheld
      exact .pure ⟨hheld, by simp⟩
  | amphibiousAssault => exact Drafting.amphibiousAssault_strikes hb hepoch
  | landCombat => exact Drafting.landCombat_strikes hb hepoch
  | strategicBombing => exact Drafting.plan_strikes (Context.strategicBombing_raids hb _)
  | _ => exact .pure (.refl b d)

/-- What running a phase of the combat move orders and marks. -/
theorem Campaign.Ran.strikes {η : Type} [Host η] {p : PlayerId} {phase : Phase} {s s' : Campaign η}
    {r : PhaseRecord} (hran : Ran phase s s' r) (hb : r.board.Sound) (hsits : Sits p .combat s) :
    Strikes r.board s.desk s'.desk r.orders :=
  (phase.plan_strikes hb hsits.epoch).of_ok hran.plans

end Conquest
