import Conquest.Campaign
import Conquest.Proofs.Effects
import Conquest.Proofs.Phases
import Conquest.Table.Supply

/-!
# Running phases

A phase that runs works at the desk and submits its orders to the host. As long as the host shows
well-formed boards, the only failure of a run is a piece that can be taken twice on the board of
that moment.

* `Host.Steady`: a host that shows well-formed boards under all commands of a run.
* `Campaign.Ran`, `Campaign.runPhase_ran`: what running a phase does.
* `Campaign.runEpoch_keeps`: what a whole epoch keeps, given what its phases keep.
-/

namespace Conquest

/-- A loop keeps an invariant of the results so far and the state. -/
theorem Ensures.mapM {σ α β : Type} {fails : PlanError → σ → Prop} {f : α → EStateM PlanError σ β}
    {J : List β → σ → Prop} {xs : List α}
    (hstep : ∀ x ∈ xs, ∀ s out, J out s → Ensures fails (f x) s fun y s' => J (out ++ [y]) s')
    {s : σ} {out : List β} (h : J out s) :
    Ensures fails (xs.mapM f) s fun ys s' => J (out ++ ys) s' := by
  induction xs generalizing s out with
  | nil =>
    rw [List.mapM_nil]
    refine .pure ?_
    rw [List.append_nil]
    exact h
  | cons x rest ih =>
    rw [List.mapM_cons]
    refine .bind ((hstep x List.mem_cons_self s out h).mono ?_)
    intro y s₁ hy
    refine .bind ((ih (fun x hx => hstep x (List.mem_cons_of_mem _ hx)) hy).mono ?_)
    intro ys s₂ hys
    refine .pure ?_
    rw [List.append_assoc] at hys
    exact hys

/-- The desk of a player whose turn starts. -/
def Desk.fresh (b : Board) (p : PlayerId) (config : Config) : Desk :=
  ⟨.build b p config, .new .combat⟩

/-- A host that shows well-formed boards, whatever it is told in a run. -/
structure Host.Steady {η : Type} [Host η] (good : η → Prop) : Prop where
  sound : ∀ h, good h → (Host.board h).Sound
  begins : ∀ h p e, good h → good (Host.beginEpoch h p e)
  takes : ∀ h p o h', good h → Host.submitMove h p o = .ok h' → good h'

/-- The table is steady on the ground of any board. -/
theorem Table.steady (ground : Board) :
    Host.Steady fun h : Table => h.board.Sound ∧ ground.SameGround h.board := by
  refine ⟨fun _ hh => hh.1, fun _ _ _ hh => hh, ?_⟩
  rintro h p o h' ⟨hsound, hground⟩ htaken
  have heffect := submitMove_effect hsound htaken
  exact ⟨heffect.sound, hground.trans heffect.after.toSameGround⟩

namespace Campaign

variable {η : Type} [Host η] {good : η → Prop}

/-! ## Submitting -/

theorem map_order_submit (p : PlayerId) (orders : List Order) (h : η) :
    (submit p orders h).1.map (·.order) = orders := by
  induction orders generalizing h with
  | nil => rfl
  | cons o rest ih =>
    unfold submit
    cases Host.submitMove h p o with
    | ok next => simp [ih next]
    | error refusal => simp [ih h]

/-- Submitting keeps an invariant of the answers so far and the host, whether the next order is
taken or refused. -/
theorem submit_keeps {p : PlayerId} {orders : List Order} {J : List Dispatch → η → Prop}
    (htaken : ∀ done o rest h h', done.map (·.order) ++ o :: rest = orders → J done h →
      Host.submitMove h p o = .ok h' → J (done ++ [⟨o, Host.board h, none⟩]) h')
    (hrefused : ∀ done o rest h refusal, done.map (·.order) ++ o :: rest = orders → J done h →
      Host.submitMove h p o = .error refusal → J (done ++ [⟨o, Host.board h, some refusal⟩]) h)
    {h : η} (hstart : J [] h) : J (submit p orders h).1 (submit p orders h).2 := by
  have hrun : ∀ rest done h, done.map (·.order) ++ rest = orders → J done h →
      J (done ++ (submit p rest h).1) (submit p rest h).2 := by
    intro rest
    induction rest with
    | nil =>
      intro done h _ hJ
      unfold submit
      rw [List.append_nil]
      exact hJ
    | cons o rest ih =>
      intro done h hsplit hJ
      unfold submit
      -- the answer joins those that were given before
      cases hanswer : Host.submitMove h p o with
      | ok h' =>
        have hnext := ih (done ++ [⟨o, Host.board h, none⟩]) h' (by simp [hsplit])
          (htaken done o rest h h' hsplit hJ hanswer)
        rw [List.append_assoc] at hnext
        exact hnext
      | error refusal =>
        have hnext := ih (done ++ [⟨o, Host.board h, some refusal⟩]) h (by simp [hsplit])
          (hrefused done o rest h refusal hsplit hJ hanswer)
        rw [List.append_assoc] at hnext
        exact hnext
  exact hrun orders [] h rfl hstart

theorem good_submit (hgood : Host.Steady good) (p : PlayerId) (orders : List Order) {h : η}
    (hh : good h) : good (submit p orders h).2 := by
  refine submit_keeps (J := fun _ => good) ?_ ?_ hh
  · intro _ o _ h h' _ hh hmove
    exact hgood.takes h p o h' hh hmove
  · intro _ _ _ _ _ _ hh _
    exact hh

/-- A host takes all orders if it takes the next one whenever an invariant holds of what is left. -/
theorem isAccepted_of_submit {J : List Order → η → Prop} {p : PlayerId}
    (hstep : ∀ o rest h, J (o :: rest) h → ∃ h', Host.submitMove h p o = .ok h' ∧ J rest h')
    {orders : List Order} {h : η} (hJ : J orders h) :
    (∀ d ∈ (submit p orders h).1, d.isAccepted = true) ∧ J [] (submit p orders h).2 := by
  induction orders generalizing h with
  | nil => exact ⟨by simp [submit], hJ⟩
  | cons o rest ih =>
    -- the order is taken, so the rest meets the host that took it
    rcases hstep o rest h hJ with ⟨h', htaken, hrest⟩
    rcases ih hrest with ⟨hall, hlast⟩
    unfold submit
    rw [htaken]
    exact ⟨List.forall_mem_cons.2 ⟨rfl, hall⟩, hlast⟩

/-! ## One phase -/

/-- What running a phase does. -/
structure Ran (phase : Phase) (s s' : Campaign η) (r : PhaseRecord) : Prop where
  named : r.phase = phase
  board : r.board = Host.board s.host
  plans : phase.plan r.board s.desk = .ok r.orders s'.desk
  works : Works r.board (phase == Phase.transportLoad) s.desk s'.desk r.orders
  submits : submit s.desk.context.player r.orders s.host = (r.dispatches, s'.host)

/-- Planning came upon a piece that it can take twice. -/
def Clashes (good : η → Prop) (p : PlayerId) (e : Epoch) (error : PlanError) (s : Campaign η) :
    Prop :=
  good s.host ∧ ∃ u, error = .doubleCommit u e ∧ (Host.board s.host).Clash p u

theorem runPhase_ran (hgood : Host.Steady good) {s : Campaign η} (hs : good s.host)
    (hl : s.desk.ledger.pieces.Nodup) (phase : Phase) :
    Ensures (Clashes good s.desk.context.player s.desk.ledger.epoch) (runPhase phase) s
      fun r s' => Ran phase s s' r ∧ good s'.host := by
  have hplan := phase.plan_works (b := Host.board s.host) hl
  unfold Ensures runPhase at *
  dsimp only
  cases hrun : phase.plan (Host.board s.host) s.desk with
  | error e desk =>
    rw [hrun] at hplan
    rcases hplan with ⟨u, rfl, hslip⟩
    exact ⟨hs, u, rfl, hslip (hgood.sound _ hs)⟩
  | ok orders desk =>
    rw [hrun] at hplan
    have hplayer : desk.context.player = s.desk.context.player := Works.player_eq hplan
    -- the record keeps the orders in their answers only
    have horders : (⟨phase, Host.board s.host,
        (submit desk.context.player orders s.host).1⟩ : PhaseRecord).orders = orders :=
      map_order_submit _ _ _
    refine ⟨⟨rfl, rfl, ?_, ?_, ?_⟩, good_submit hgood _ _ hs⟩
    · rw [horders]
      exact hrun
    · rw [horders]
      exact hplan
    · rw [horders, ← hplayer]

/-! ## One epoch -/

/-- What an epoch starts from. -/
theorem start_spec (hgood : Host.Steady good) (s : Campaign η) (hs : good s.host) (e : Epoch) :
    good (s.start e).host ∧ (s.start e).desk.ledger = .new e ∧
      (s.start e).desk.context.player = s.desk.context.player :=
  ⟨hgood.begins _ _ _ hs, rfl, rfl⟩

/-- What holds of the desk between the phases of an epoch. -/
structure Sits (p : PlayerId) (e : Epoch) (s : Campaign η) : Prop where
  player : s.desk.context.player = p
  epoch : s.desk.ledger.epoch = e
  nodup : s.desk.ledger.pieces.Nodup

theorem Ran.sits {phase : Phase} {s s' : Campaign η} {r : PhaseRecord} {p : PlayerId} {e : Epoch}
    (h : Ran phase s s' r) (hs : Sits p e s) : Sits p e s' :=
  ⟨h.works.player_eq.trans hs.player, h.works.epoch_eq.trans hs.epoch, h.works.drafts.nodup⟩

/-- An epoch keeps what its phases keep, or comes upon a piece that it can take twice. -/
theorem runEpoch_keeps (hgood : Host.Steady good) {J : List PhaseRecord → Campaign η → Prop}
    {s : Campaign η} (hs : good s.host) (e : Epoch) (hstart : J [] (s.start e))
    (hstep : ∀ phase ∈ Phase.sequence e, ∀ s₁ s₂ records r, good s₁.host →
      Sits s.desk.context.player e s₁ → J records s₁ → Ran phase s₁ s₂ r →
      J (records ++ [r]) s₂) :
    Ensures (Clashes good s.desk.context.player e) (runEpoch e) s fun record s' =>
      record.epoch = e ∧ J record.phases s' ∧ good s'.host ∧ Sits s.desk.context.player e s' := by
  refine .bind (.change (.bind ?_))
  -- besides what is asked for, the host stays good and the desk in order
  refine (Ensures.mapM (J := fun records s₁ => J records s₁ ∧ good s₁.host ∧
    Sits s.desk.context.player e s₁) ?_ ⟨hstart, ?_, ?_⟩).mono fun records s' h => .pure ⟨rfl, h⟩
  · rintro phase hphase s₁ records ⟨hJ, hgood₁, hsits⟩
    have hran := runPhase_ran hgood hgood₁ hsits.nodup phase
    rw [hsits.player, hsits.epoch] at hran
    exact hran.mono fun r s₂ h => ⟨hstep phase hphase s₁ s₂ records r hgood₁ hsits hJ h.1, h.2,
      h.1.sits hsits⟩
  · exact (start_spec hgood s hs e).1
  · exact ⟨rfl, rfl, List.nodup_nil⟩

/-- A turn on a steady host ends, or comes upon a piece that it can take twice. -/
theorem runTurn_ensures (hgood : Host.Steady good) {s : Campaign η} (hs : good s.host) :
    Ensures (fun error s' => ∃ e, Clashes good s.desk.context.player e error s') runTurn s
      fun _ s' => good s'.host := by
  -- both epochs of the turn are run by the same player
  have hepoch : ∀ e, ∀ s₁ : Campaign η, good s₁.host →
      s₁.desk.context.player = s.desk.context.player →
      Ensures (fun error s' => ∃ e, Clashes good s.desk.context.player e error s') (runEpoch e) s₁
        fun _ s₂ => good s₂.host ∧ s₂.desk.context.player = s.desk.context.player := by
    intro e s₁ hs₁ hplayer
    have hrun := runEpoch_keeps hgood (J := fun _ _ => True) hs₁ e trivial
      fun _ _ _ _ _ _ _ _ _ _ => trivial
    rw [hplayer] at hrun
    exact (hrun.imp fun error s' h => ⟨e, h⟩).mono fun _ s₂ h => ⟨h.2.2.1, h.2.2.2.player⟩
  refine .bind ((hepoch .combat s hs rfl).mono ?_)
  intro combat s₁ h₁
  refine .bind ((hepoch .nonCombat s₁ h₁.1 h₁.2).mono ?_)
  intro nonCombat s₂ h₂
  exact .bind (.change (.pure h₂.1))

end Campaign

end Conquest
