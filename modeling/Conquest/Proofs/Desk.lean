import Conquest.Phase.Plan
import Conquest.Proofs.Voyages

/-!
# Drafting at the desk

A phase changes the ledger and marks territories as attacked. What it tries on a fork of the ledger
and gives up leaves no trace; what it keeps is absorbed without loss.

* `absorb_drafts`: absorbing a fork never fails and takes what the fork took.
* `Drafting.attempt_spec`: an attempt that is given up leaves the desk as it was.
* `Works`: what a phase does to the desk; `Drafting.attackEach_works`: attacks on a list of targets.
-/

namespace Conquest

/-! ## Forks -/

section Forks

variable {B : Brief} {l f : Ledger} {orders : List Order}

/-- A fork takes what it takes from the ledger that it was branched from. -/
theorem Drafts.of_fork {l' : Ledger} (h : Drafts B l.fork f orders)
    (hentries : l'.entries = f.entries) (hepoch : l'.epoch = l.epoch)
    (hinherited : l'.inherited = l.inherited) : Drafts B l l' orders := by
  refine ⟨hepoch, hinherited, ?_, h.fit, h.nodup_named, hentries ▸ h.entries⟩
  rw [Ledger.pieces, hentries]
  exact h.nodup

/-- Absorbing a fork never fails and takes what the fork took. -/
theorem absorb_drafts (h : Drafts B l.fork f orders) :
    ∃ l', l.absorb f = .ok l' ∧ Drafts B l l' orders := by
  rcases h.entries with ⟨added, hadded, -⟩
  have hdrop : f.entries.drop f.inherited = added := by
    rw [h.inherited, hadded]
    exact List.drop_left
  have hsplit : f.pieces = l.pieces ++ added.map (·.1) := by
    rw [Ledger.pieces, hadded, List.map_append]
    rfl
  -- what the fork took is free in the ledger, as the fork knew what the ledger had taken
  have hnodup := h.nodup
  rw [hsplit, List.nodup_append] at hnodup
  have hrecord : l.record added = .ok (l.withEntries added) :=
    Ledger.record_of_free hnodup.2.1 fun u hu hin => hnodup.2.2 u hin u hu rfl
  have hepoch : f.epoch = l.epoch := h.epoch
  unfold Ledger.absorb
  rw [hdrop, hrecord, if_neg (not_not.2 hepoch)]
  refine ⟨_, rfl, h.of_fork ?_ rfl rfl⟩
  exact hadded.symm

end Forks

/-! ## Work at the desk -/

/-- The failures that are foreseen when `p` plans on `b`. -/
def Slips (b : Board) (p : PlayerId) (e : Epoch) (error : PlanError) (_ : Desk) : Prop :=
  ∃ u, error = .doubleCommit u e ∧ (b.Sound → b.Clash p u)

/-- A bombarding ship of `p` in a sea zone next to one of the territories. -/
def Board.BombardsSome (b : Board) (p : PlayerId) (marks : List TerritoryId) (u : PieceId) :
    Prop :=
  ∃ t ∈ marks, b.Bombards p t u

/-- What a phase that gives some orders does to the desk. -/
structure Works (b : Board) (loading : Bool) (d d' : Desk) (orders : List Order) : Prop where
  context : d'.context = { d.context with attacked := d'.context.attacked }
  attacked : d.context.attacked ⊆ d'.context.attacked
  drafts : Drafts (brief b d.context d.ledger.epoch loading
    (b.BombardsSome d.context.player d'.context.attacked)) d.ledger d'.ledger orders

theorem Drafts.weaken {b : Board} {c : Context} {e : Epoch} {loading : Bool}
    {spot spot' : PieceId → Prop} {l l' : Ledger} {orders : List Order}
    (h : Drafts (brief b c e loading spot) l l' orders) (hspot : ∀ u, spot u → spot' u) :
    Drafts (brief b c e loading spot') l l' orders := by
  rcases h.entries with ⟨added, hadded, htaken, haccounts⟩
  refine ⟨h.epoch, h.inherited, h.nodup, h.fit, h.nodup_named, added, hadded, htaken, ?_⟩
  intro hb u hu
  exact (haccounts hb u hu).imp id (Or.imp id (hspot u))

namespace Works

variable {b : Board} {loading : Bool} {d d' d'' : Desk} {orders orders' : List Order}

theorem player_eq (h : Works b loading d d' orders) : d'.context.player = d.context.player := by
  rw [h.context]

theorem rules_eq (h : Works b loading d d' orders) : d'.context.rules = d.context.rules := by
  rw [h.context]

theorem epoch_eq (h : Works b loading d d' orders) : d'.ledger.epoch = d.ledger.epoch :=
  h.drafts.epoch

theorem refl (b : Board) (loading : Bool) (hl : d.ledger.pieces.Nodup) :
    Works b loading d d [] :=
  ⟨rfl, fun _ h => h, .refl hl⟩

theorem append (h : Works b loading d d' orders) (h' : Works b loading d' d'' orders') :
    Works b loading d d'' (orders ++ orders') := by
  -- attacks leave the player and the rules alone, so both parts have one brief
  have hbrief : brief b d'.context d'.ledger.epoch loading
      (b.BombardsSome d'.context.player d''.context.attacked) =
      brief b d.context d.ledger.epoch loading
        (b.BombardsSome d.context.player d''.context.attacked) := by
    unfold brief
    rw [h.player_eq, h.rules_eq, h.epoch_eq]
  refine ⟨?_, fun _ ht => h'.attacked (h.attacked ht), ?_⟩
  · rw [h'.context, h.context]
  · refine (h.drafts.weaken ?_).append (hbrief ▸ h'.drafts)
    rintro u ⟨t, ht, hu⟩
    exact ⟨t, h'.attacked ht, hu⟩

end Works

namespace Drafting

variable {b : Board} {d : Desk} {loading : Bool}

/-- What holds of the orders of a plan. -/
theorem ensures_plan {α : Type} {p : Context → Planning α} {post : α → Prop}
    (h : Ensures (fun _ _ => True) (p d.context) d.ledger fun a _ => post a) :
    Ensures (fun _ _ => True) (plan p) d fun a _ => post a := by
  unfold Ensures plan at *
  cases hp : p d.context d.ledger with
  | ok a l' =>
    rw [hp] at h
    exact h
  | error e l' =>
    rw [hp] at h
    exact h

/-- A plan that drafts works. -/
theorem plan_works {p : Context → Planning (List Order)} {e : Epoch} (hepoch : d.ledger.epoch = e)
    (h : Ensures (brief b d.context e loading
      (b.BombardsSome d.context.player d.context.attacked)).Fails (p d.context) d.ledger
      fun orders l' => Drafts (brief b d.context e loading
        (b.BombardsSome d.context.player d.context.attacked)) d.ledger l' orders) :
    Ensures (Slips b d.context.player e) (plan p) d fun orders d' =>
      Works b loading d d' orders := by
  subst hepoch
  unfold Ensures plan at *
  cases hp : p d.context d.ledger with
  | ok orders l' =>
    rw [hp] at h
    exact ⟨rfl, fun _ ht => ht, h⟩
  | error e l' =>
    rw [hp] at h
    exact h

/-- An attempt either keeps what it gathered, or leaves the desk as it was. -/
theorem attempt_spec {objective : TerritoryId} {need : Float32} {branches : List Branch}
    {accept : Haul → Bool} (hl : d.ledger.pieces.Nodup)
    (hobj : b.Sound → d.ledger.epoch = .combat → b.IsTarget d.context.player objective)
    (hships : .ships ∈ branches → d.ledger.epoch = .combat) :
    Ensures (Slips b d.context.player d.ledger.epoch)
      (attempt b objective need branches accept) d fun got d' =>
        d'.context = d.context ∧ match got with
          | none => d' = d
          | some haul => Drafts (brief b d.context d.ledger.epoch false
            (b.Bombards d.context.player objective)) d.ledger d'.ledger haul.orders := by
  set target : Target := { objective, needed := need, exclude := d.context.attacked }
  have hspot : .bombard ∈ branches → ∀ u, b.Bombards d.context.player target.objective u →
      b.Bombards d.context.player objective u := fun _ _ hu => hu
  have hchain := d.context.recruitChain_drafts (l := d.ledger.fork) {} hl hobj hspot hships
  unfold Ensures attempt at *
  dsimp only at hchain ⊢
  cases hrun : d.context.recruitChain b { objective, needed := need, exclude := d.context.attacked }
      branches {} d.ledger.fork with
  | error e l' =>
    rw [hrun] at hchain
    exact hchain
  | ok haul fork =>
    rw [hrun] at hchain
    rcases hchain with ⟨new, horders, hdrafts⟩
    have hhaul : haul.orders = new := horders
    subst hhaul
    dsimp only
    -- a haul that is given up is forgotten with its fork
    by_cases hgive : (haul.isEmpty || decide (haul.achieved < need) || !accept haul) = true
    · rw [if_pos hgive]
      exact ⟨rfl, rfl⟩
    · rw [if_neg hgive]
      rcases absorb_drafts hdrafts with ⟨l', habsorb, hkept⟩
      rw [habsorb]
      exact ⟨rfl, hkept⟩

/-- An attempt that is given up leaves the desk as it was. -/
theorem eq_of_attempt {objective : TerritoryId} {need : Float32} {branches : List Branch}
    {accept : Haul → Bool} {d' : Desk}
    (h : attempt b objective need branches accept d = .ok none d') : d' = d := by
  unfold attempt at h
  dsimp only at h
  split at h
  · cases h
  · split at h
    · cases h
      rfl
    · split at h
      · cases h
      · cases h

/-- Marking a territory as attacked. -/
theorem markAttacked_context (c : Context) (t : TerritoryId) :
    c.markAttacked t = { c with attacked := (c.markAttacked t).attacked } ∧
      c.attacked ⊆ (c.markAttacked t).attacked ∧ t ∈ (c.markAttacked t).attacked := by
  unfold Context.markAttacked
  split
  · rename_i hin
    exact ⟨rfl, fun _ ht => ht, List.contains_iff_mem.1 hin⟩
  · exact ⟨rfl, List.subset_cons_self t c.attacked, List.mem_cons_self⟩

/-- Attacks on a list of targets work. -/
theorem attackEach_works {branches : Context → TerritoryId → List Branch} {accept : Haul → Bool}
    {targets : List TerritoryId} (hl : d.ledger.pieces.Nodup) (hepoch : d.ledger.epoch = .combat)
    (htargets : b.Sound → ∀ t ∈ targets, b.IsTarget d.context.player t) :
    Ensures (Slips b d.context.player .combat) (attackEach b branches accept targets) d
      fun orders d' => Works b false d d' orders := by
  unfold attackEach
  refine (Ensures.collect (J := fun rest d' out => rest ⊆ targets ∧ Works b false d d' out) ?_
    ⟨fun _ h => h, .refl b false hl⟩).mono fun orders d' h => h.2
  rintro target rest d₁ out ⟨hsub, hworks⟩
  have hrest : rest ⊆ targets := fun t ht => hsub (List.mem_cons_of_mem _ ht)
  have hepoch₁ := hworks.epoch_eq.trans hepoch
  refine .bind (.get (.bind ?_))
  rw [← hworks.player_eq, ← hepoch₁]
  refine (attempt_spec hworks.drafts.nodup ?_ fun _ => hepoch₁).mono ?_
  · intro hb _
    rw [hworks.player_eq]
    exact htargets hb target (hsub List.mem_cons_self)
  · intro got d₂ hgot
    rcases hgot with ⟨hcontext, hgot⟩
    -- only a target that was attacked is marked
    cases got with
    | none =>
      refine .pure ⟨hrest, ?_⟩
      have hsame : d₂ = d₁ := hgot
      rw [hsame, List.append_nil]
      exact hworks
    | some haul =>
      refine .bind (.change (.pure ⟨hrest, hworks.append ?_⟩))
      rcases markAttacked_context d₂.context target with ⟨hmark, hold, hnew⟩
      rw [hcontext] at hmark hold hnew
      refine ⟨?_, ?_, ?_⟩
      · rw [hcontext]
        exact hmark
      · rw [hcontext]
        exact hold
      · rw [hcontext]
        refine Drafts.weaken hgot fun u hu => ⟨target, hnew, hu⟩

end Drafting

end Conquest
