import Conquest.Proofs.NonCombatMove

/-!
# Every phase works

Whatever the phase and the epoch, planning it drafts at the desk, or fails because of a piece that
can be taken twice. Orders to load are given by one phase only, and never overload a transport.

* `Phase.plan_works`: every phase works.
* `Phase.plan_stowed`: no phase overloads a transport.
-/

namespace Conquest.Phase

variable {b : Board} {d : Desk}

/-- Planning a phase drafts at the desk, or takes a piece twice that can be taken twice. -/
theorem plan_works (phase : Phase) (hl : d.ledger.pieces.Nodup) :
    Ensures (Slips b d.context.player d.ledger.epoch) (phase.plan b) d fun orders d' =>
      Works b (phase == .transportLoad) d d' orders := by
  unfold plan
  refine .bind (.get ?_)
  -- a phase without a part in an epoch leaves the desk alone
  cases hepoch : d.ledger.epoch with
  | combat =>
    cases phase with
    | seaCombat => exact Drafting.seaCombat_works hl hepoch
    | transportLoad => exact Drafting.plan_works hepoch (Context.loadForInvasion_drafts hl hepoch)
    | defendCapital => exact Drafting.plan_works hepoch (Context.holdCapital_drafts hl)
    | amphibiousAssault => exact Drafting.amphibiousAssault_works hl hepoch
    | landCombat => exact Drafting.landCombat_works hl hepoch
    | strategicBombing =>
      exact Drafting.plan_works hepoch (Context.strategicBombing_drafts hl hepoch)
    | _ => exact .pure (.refl b _ hl)
  | nonCombat =>
    cases phase with
    | transportLoad => exact Drafting.plan_works hepoch (Context.loadForNextTurn_drafts hl hepoch)
    | defendCapital =>
      exact Drafting.plan_works hepoch (Context.reinforceCapital_drafts hl hepoch)
    | navalReposition =>
      exact Drafting.plan_works hepoch (Context.navalReposition_drafts hl hepoch)
    | amphibiousReinforce =>
      exact Drafting.plan_works hepoch (Context.amphibiousReinforce_drafts hl hepoch)
    | airReposition =>
      exact Drafting.plan_works hepoch (Context.airReposition_drafts hl hepoch)
    | consolidation =>
      exact Drafting.plan_works hepoch (Context.consolidation_drafts hl hepoch)
    | blitzBlock =>
      exact Drafting.plan_works hepoch (Context.blitzBlock_drafts hl hepoch)
    | airLanding =>
      exact Drafting.plan_works hepoch (Context.airLanding_drafts hl hepoch)
    | transportUnload =>
      exact Drafting.plan_works hepoch (Context.transportUnload_drafts hl hepoch)
    | _ => exact .pure (.refl b _ hl)

/-- Orders to load never overload a transport. -/
theorem plan_stowed (hb : b.Sound) (d : Desk) :
    Ensures (fun _ _ => True) (transportLoad.plan b) d fun orders _ =>
      ∀ ship, stowed b ship orders ≤ b.freeCapacity ship := by
  have hnone : ∀ ship, stowed b ship [] ≤ b.freeCapacity ship := fun ship => Nat.zero_le _
  unfold plan
  refine .bind (.get ?_)
  cases d.ledger.epoch with
  | combat =>
    refine Drafting.ensures_plan ?_
    unfold Context.loadForInvasion
    split
    · exact .pure hnone
    · exact Context.loadTransports_stowed hb _ _
  | nonCombat =>
    refine Drafting.ensures_plan ?_
    unfold Context.loadForNextTurn
    split
    · exact .pure hnone
    · exact Context.loadTransports_stowed hb _ _

end Conquest.Phase
