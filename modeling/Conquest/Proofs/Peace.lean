import Conquest.Proofs.Play
import Conquest.Proofs.Run

/-!
# Where orders end outside combat

Outside combat every order ends on friendly land or on water without enemies, as the planning saw
it. Under the orders of the player this stays so until the order is submitted. What planning does
not look at is whether an enemy force stands on the friendly land: the table marks battles and does
not fight them, so enemies of an earlier turn can still be there.

* `Board.IsInfiltrated`: friendly land with an enemy force.
* `Table.of_mem_submit`: every order meets the table as earlier orders have left it.
* `runEpoch_fights_iff`: outside combat an order ends in a fight just when its end is infiltrated.
-/

namespace Conquest

namespace Board

/-- Friendly land in which an enemy force stands. -/
def IsInfiltrated (b : Board) (p : PlayerId) (t : TerritoryId) : Prop :=
  b.isFriendlyLand t p = true ∧ b.hasEnemyForce t p = true

variable {p : PlayerId} {b b' : Board} {t : TerritoryId}

/-- Orders of a player infiltrate none of the player's land and clear none. -/
theorem After.isInfiltrated_iff (h : After p b b') :
    b'.IsInfiltrated p t ↔ b.IsInfiltrated p t := by
  constructor
  · rintro ⟨hfriendly, hforce⟩
    rw [h.hasEnemyForce] at hforce
    refine ⟨?_, hforce⟩
    -- land that changed hands was undefended, so no force stands in it
    rcases h.owner t with howner | ⟨-, hundefended⟩
    · unfold Board.isFriendlyLand at hfriendly ⊢
      rw [h.isPassableLand, howner] at hfriendly
      have hallied : b'.isAllied p = b.isAllied p := funext fun q => h.isAllied p q
      rw [hallied] at hfriendly
      exact hfriendly
    · rw [hforce] at hundefended
      cases hundefended
  · rintro ⟨hfriendly, hforce⟩
    exact ⟨h.isFriendlyLand hfriendly, (h.hasEnemyForce t).trans hforce⟩

namespace IsHaven

/-- A haven stays one under the orders of the player. -/
theorem after (ht : b.IsHaven p t) (h : After p b b') : b'.IsHaven p t := by
  rcases ht with hfriendly | ⟨hwater, hsafe⟩
  · exact .inl (h.isFriendlyLand hfriendly)
  · exact .inr ⟨(h.isWater t).trans hwater, (h.hasEnemyForce t).trans hsafe⟩

theorem isEnemyLand_eq_false (ht : b.IsHaven p t) : b.isEnemyLand t p = false := by
  rcases ht with hfriendly | ⟨hwater, -⟩
  · exact isEnemyLand_of_isFriendlyLand hfriendly
  · exact isEnemyLand_of_isWater p hwater

/-- The enemies in a haven have infiltrated it. -/
theorem hasEnemyForce_iff (ht : b.IsHaven p t) :
    b.hasEnemyForce t p = true ↔ b.IsInfiltrated p t := by
  constructor
  · intro hforce
    rcases ht with hfriendly | ⟨-, hsafe⟩
    · exact ⟨hfriendly, hforce⟩
    · rw [hsafe] at hforce
      cases hforce
  · intro h
    exact h.2

end IsHaven

end Board

/-! ## Orders at the table -/

/-- The orders of a player leave the board as orders of that player do, whichever are refused. -/
theorem Table.after_submit (p : PlayerId) (orders : List Order) {h : Table} (hb : h.board.Sound) :
    Board.After p h.board (Campaign.submit p orders h).2.board := by
  refine (Campaign.submit_keeps (η := Table) (J := fun _ met => met.board.Sound ∧
    Board.After p h.board met.board) ?_ ?_ ⟨hb, .refl p h.board⟩).2
  · rintro _ o _ met next _ ⟨hsound, hafter⟩ htaken
    have heffect := submitMove_effect hsound htaken
    exact ⟨heffect.sound, hafter.trans heffect.after⟩
  · intro _ _ _ _ _ _ hmet _
    exact hmet

/-- Every order meets the table as earlier orders of its player have left it. -/
theorem Table.of_mem_submit {p : PlayerId} {orders : List Order} {h : Table} (hb : h.board.Sound)
    {d : Dispatch} (hd : d ∈ (Campaign.submit p orders h).1) :
    d.order ∈ orders ∧ ∃ met : Table, met.board = d.board ∧ Board.After p h.board met.board ∧
      ∀ refusal, d.refusal = some refusal → met.submitMove p d.order = .error refusal := by
  refine (Campaign.submit_keeps (η := Table) (J := fun done met => (met.board.Sound ∧
    Board.After p h.board met.board) ∧ ∀ d ∈ done, d.order ∈ orders ∧ ∃ met : Table,
      met.board = d.board ∧ Board.After p h.board met.board ∧
      ∀ refusal, d.refusal = some refusal → met.submitMove p d.order = .error refusal) ?_ ?_
    ⟨⟨hb, .refl p h.board⟩, by simp⟩).2 d hd
  · rintro done o rest met next hsplit ⟨⟨hsound, hafter⟩, hdone⟩ htaken
    have heffect := submitMove_effect hsound htaken
    have ho : o ∈ orders := hsplit ▸ List.mem_append_right _ List.mem_cons_self
    refine ⟨⟨heffect.sound, hafter.trans heffect.after⟩, List.forall_mem_append.2 ⟨hdone, ?_⟩⟩
    exact List.forall_mem_singleton.2 ⟨ho, met, rfl, hafter, by simp⟩
  · -- a refused order leaves the table as it is for the next
    rintro done o rest met cause hsplit ⟨hmet, hdone⟩ hrefused
    have ho : o ∈ orders := hsplit ▸ List.mem_append_right _ List.mem_cons_self
    refine ⟨hmet, List.forall_mem_append.2 ⟨hdone, List.forall_mem_singleton.2 ?_⟩⟩
    refine ⟨ho, met, rfl, hmet.2, ?_⟩
    intro refusal hrefusal
    cases hrefusal
    exact hrefused

namespace Campaign

/-- An order of an epoch that started on `b` ends in no enemy land, and in a fight only where the
land was infiltrated from the start. -/
structure Settles (b : Board) (p : PlayerId) (d : Dispatch) : Prop where
  land : d.board.isEnemyLand d.order.route.dest p = false
  force : d.board.hasEnemyForce d.order.route.dest p = true ↔ b.IsInfiltrated p d.order.route.dest
  refusal : ∀ t, d.refusal = some (.notCombatPhase t) →
    t = d.order.route.dest ∧ b.IsInfiltrated p t

/-- The orders of a phase outside combat settle. -/
theorem Ran.settles {b : Board} {p : PlayerId} {phase : Phase} {s s' : Campaign Table}
    {r : PhaseRecord} (hran : Ran phase s s' r) (hs : s.host.board.Sound)
    (hafter : Board.After p b s.host.board) (hsits : Sits p .nonCombat s) :
    ∀ d ∈ r.dispatches, Settles b p d := by
  intro d hd
  have hboard : r.board = s.host.board := hran.board
  have hdispatches : r.dispatches = (submit p r.orders s.host).1 := by
    rw [← hsits.player, hran.submits]
  rw [hdispatches] at hd
  rcases Table.of_mem_submit hs hd with ⟨hin, met, hmet, hthen, hrefused⟩
  have hfit := hran.works.drafts.fit d.order hin (hboard ▸ hs)
  have hhaven := hfit.haven hsits.epoch
  rw [hsits.player, hboard] at hhaven
  -- planned for the board of the phase, met after earlier orders of the phase
  have hhere := hhaven.after hthen
  have hthere := (hafter.trans hthen).isInfiltrated_iff (t := d.order.route.dest)
  refine ⟨?_, ?_, ?_⟩
  · rw [← hmet]
    exact hhere.isEnemyLand_eq_false
  · rw [← hmet]
    exact hhere.hasEnemyForce_iff.trans hthere
  · intro t ht
    rcases Table.submitMove_notCombatPhase (hrefused _ ht) with ⟨rfl, hattack⟩
    refine ⟨rfl, hthere.1 (hhere.hasEnemyForce_iff.1 ?_)⟩
    unfold Table.isAttack at hattack
    rw [hhere.isEnemyLand_eq_false, Bool.false_or] at hattack
    exact hattack

/-- Outside combat, on any board that can be reached: no order ends in enemy land, an order ends
where an enemy force stands just when its end was friendly land with an enemy force as the epoch
began, and only such an order is refused for ending in a fight. -/
theorem runEpoch_fights_iff (s : Scenario) (h : Table) (hset : s.setUp = .ok h)
    (commands : List Command) (desk : Desk) (record : EpochRecord) (last : Campaign Table)
    (hrun : runEpoch .nonCombat ⟨h.play commands, desk⟩ = .ok record last) :
    ∀ r ∈ record.phases, ∀ d ∈ r.dispatches,
      d.board.isEnemyLand d.order.route.dest desk.context.player = false ∧
      (d.board.hasEnemyForce d.order.route.dest desk.context.player = true ↔
        (h.play commands).board.IsInfiltrated desk.context.player d.order.route.dest) ∧
      ∀ t, d.refusal = some (.notCombatPhase t) → t = d.order.route.dest ∧
        (h.play commands).board.IsInfiltrated desk.context.player t := by
  rcases Table.play_keeps (Scenario.setUp_sound hset) commands with ⟨hsound, hground⟩
  have hkeeps := runEpoch_keeps (Table.steady h.board) (s := ⟨h.play commands, desk⟩)
    (J := fun records s => Board.After desk.context.player (h.play commands).board s.host.board ∧
      ∀ r ∈ records, ∀ d ∈ r.dispatches,
        Settles (h.play commands).board desk.context.player d)
    ⟨hsound, hground⟩ .nonCombat ⟨.refl _ _, by simp⟩ ?_
  · unfold Ensures at hkeeps
    rw [hrun] at hkeeps
    rcases hkeeps with ⟨-, ⟨-, hsettles⟩, -⟩
    intro r hr d hd
    have hd := hsettles r hr d hd
    exact ⟨hd.land, hd.force, hd.refusal⟩
  · rintro phase - s₁ s₂ records r ⟨hs₁, -⟩ hsits ⟨hafter, hsettles⟩ hran
    -- the board after the phase, and then what the phase sent
    refine ⟨?_, ?_⟩
    · have hlast : s₂.host = (submit desk.context.player r.orders s₁.host).2 := by
        rw [← hsits.player, hran.submits]
      rw [hlast]
      exact hafter.trans (Table.after_submit _ _ hs₁)
    · intro r' hr'
      rcases List.mem_append.1 hr' with hr' | hr'
      · exact hsettles r' hr'
      · rw [List.mem_singleton.1 hr']
        exact hran.settles hs₁ hafter hsits

end Campaign

/-! ## Reinforcements for a battlefield -/

/-- Red holds a front against the camp of Blue. -/
def border : Scenario where
  players := [{ name := "Red" }, { name := "Blue", team := 1 }]
  territories := [
    { name := "Home", owner := some "Red" },
    { name := "Front", owner := some "Red", production := 2 },
    { name := "Camp", owner := some "Blue" }]
  connections := [("Home", "Front"), ("Front", "Camp")]
  kinds := [{ name := "infantry", attack := 1, defense := 2, cost := 3 }]
  pieces := [
    { kind := "infantry", owner := "Red", place := "Home", count := 2 },
    { kind := "infantry", owner := "Red", place := "Front" },
    { kind := "infantry", owner := "Blue", place := "Camp", count := 3 }]

/-- Blue attacks the front, and the turn passes to Red. -/
def assault : List Command := [.move 1 { pieces := [3], route := .step 2 1 }, .endTurn 1]

namespace Campaign

set_option maxRecDepth 100000 in
/-- Without the assault the front is reinforced. -/
theorem runEpoch_fights_iff_border :
    ∃ (h : Table) (record : EpochRecord) (last : Campaign Table), border.setUp = .ok h ∧
      runEpoch .nonCombat ⟨h.play [], .fresh h.board 0 {}⟩ = .ok record last ∧
      record.submitted = 2 ∧ ∀ r ∈ record.phases, ∀ d ∈ r.dispatches,
        d.board.isEnemyLand d.order.route.dest 0 = false ∧
        (d.board.hasEnemyForce d.order.route.dest 0 = true ↔
          (h.play []).board.IsInfiltrated 0 d.order.route.dest) := by
  have hpass : (border.setUp.toOption.any fun h =>
      endsWith (fun record _ => record.submitted == 2)
        (runEpoch .nonCombat) ⟨h.play [], .fresh h.board 0 {}⟩) = true := by
    decide +kernel
  obtain ⟨h, hset, hends⟩ := Scenario.exists_setUp hpass
  obtain ⟨record, last, hrun, hcheck⟩ := exists_of_endsWith hends
  have hends := runEpoch_fights_iff border h hset [] (.fresh h.board 0 {}) record last hrun
  refine ⟨h, record, last, hset, hrun, eq_of_beq hcheck, ?_⟩
  intro r hr d hd
  exact ⟨(hends r hr d hd).1, (hends r hr d hd).2.1⟩

set_option maxRecDepth 100000 in
/-- The front is reinforced although enemies stand in it, and the table refuses the order. -/
theorem reinforcement_refused :
    ∃ (h : Table) (record : EpochRecord) (last : Campaign Table), border.setUp = .ok h ∧
      runEpoch .nonCombat ⟨h.play assault, .fresh (h.play assault).board 0 {}⟩ =
        .ok record last ∧
      ∃ r ∈ record.phases, ∃ d ∈ r.dispatches,
        d.board.hasEnemyForce d.order.route.dest 0 = true ∧
        d.refusal = some (.notCombatPhase d.order.route.dest) := by
  have hpass : (border.setUp.toOption.any fun h =>
      endsWith (fun record _ => decide (∃ r ∈ record.phases, ∃ d ∈ r.dispatches,
          d.board.hasEnemyForce d.order.route.dest 0 = true ∧
          d.refusal = some (.notCombatPhase d.order.route.dest)))
        (runEpoch .nonCombat) ⟨h.play assault, .fresh (h.play assault).board 0 {}⟩) = true := by
    decide +kernel
  obtain ⟨h, hset, hends⟩ := Scenario.exists_setUp hpass
  obtain ⟨record, last, hrun, hcheck⟩ := exists_of_endsWith hends
  exact ⟨h, record, last, hset, hrun, of_decide_eq_true hcheck⟩

end Campaign

end Conquest
