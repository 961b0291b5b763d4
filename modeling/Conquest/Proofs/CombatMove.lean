import Mathlib.Data.List.Flatten
import Conquest.Proofs.Desk
import Conquest.Proofs.Loads

/-!
# The combat move drafts

Fleets, coasts and land are attacked with what `attackEach` gathers; loading, holding and bombing
change the ledger only. Bombers are listed before the first of them is sent, so a bomber that is
listed twice is sent twice.

* `seaCombat_works`, `amphibiousAssault_works`, `landCombat_works`: attacks.
* `holdCapital_drafts`, `strategicBombing_drafts`: holding and bombing.
* `Bombing`: what has been taken while the bombers are sent one after another.
-/

namespace Conquest

variable {b : Board} {c : Context} {l : Ledger} {e : Epoch} {spot : PieceId → Prop}

/-! ## Targets -/

namespace Context

/-- Ranking drops no candidate and adds none. -/
theorem mem_bestFirst {candidates : List TerritoryId} {purpose : Purpose} {t : TerritoryId} :
    t ∈ c.bestFirst b candidates purpose ↔ t ∈ candidates :=
  (c.bestFirst_perm b candidates purpose).mem_iff

theorem bestTargets_subset {candidates : List TerritoryId} :
    c.bestTargets b candidates ⊆ candidates := by
  intro t ht
  exact mem_bestFirst.1 (List.mem_of_mem_take ht)

theorem isEnemyLand_of_mem_enemyTerritories {p : PlayerId} {t : TerritoryId}
    (h : t ∈ b.enemyTerritories p) : b.isEnemyLand t p = true := by
  rcases List.mem_map.1 h with ⟨land, hland, rfl⟩
  exact (List.mem_filter.1 hland).2

/-- A zone that a fleet is sent to is a target. -/
theorem fleetTargets_isTarget (hb : b.Sound) {t : TerritoryId} (h : t ∈ c.fleetTargets b) :
    b.IsTarget c.player t := by
  have hzone := (List.mem_filter.1 (List.mem_filter.1 h).1).1
  exact .inr (Atlas.isWater_of_mem_seaZones hb.atlas hzone)

/-- So is a coast that is landed on. -/
theorem coastalTargets_isTarget {t : TerritoryId} (h : t ∈ c.coastalTargets b) :
    b.IsTarget c.player t := by
  -- however the targets are ordered, they come from one list of coasts
  have hcoast : t ∈ (b.enemyTerritories c.player).filter fun t =>
      b.atlas.isCoastal t && !c.isAttacked t := by
    unfold coastalTargets at h
    dsimp only at h
    split at h
    · exact mem_bestFirst.1 h
    · split at h
      · rename_i hfirst
        rcases List.mem_cons.1 h with rfl | h
        · exact List.contains_iff_mem.1 hfirst
        · exact mem_bestFirst.1 (List.mem_filter.1 h).1
      · exact mem_bestFirst.1 (List.mem_filter.1 h).1
  exact .inl (isEnemyLand_of_mem_enemyTerritories (List.mem_filter.1 hcoast).1)

theorem landTargets_isTarget {t : TerritoryId} (h : t ∈ c.landTargets b) :
    b.IsTarget c.player t :=
  .inl (isEnemyLand_of_mem_enemyTerritories (List.mem_filter.1 h).1)

end Context

/-! ## Attacks -/

namespace Drafting

variable {d : Desk}

theorem seaCombat_works (hl : d.ledger.pieces.Nodup) (hepoch : d.ledger.epoch = .combat) :
    Ensures (Slips b d.context.player .combat) (seaCombat b) d fun orders d' =>
      Works b false d d' orders :=
  .bind (.get (attackEach_works hl hepoch fun hb _ ht =>
    Context.fleetTargets_isTarget hb (Context.bestTargets_subset ht)))

theorem amphibiousAssault_works (hl : d.ledger.pieces.Nodup) (hepoch : d.ledger.epoch = .combat) :
    Ensures (Slips b d.context.player .combat) (amphibiousAssault b) d fun orders d' =>
      Works b false d d' orders :=
  .bind (.get (attackEach_works hl hepoch fun _ _ ht =>
    Context.coastalTargets_isTarget (List.mem_of_mem_take ht)))

theorem landCombat_works (hl : d.ledger.pieces.Nodup) (hepoch : d.ledger.epoch = .combat) :
    Ensures (Slips b d.context.player .combat) (landCombat b) d fun orders d' =>
      Works b false d d' orders :=
  .bind (.get (attackEach_works hl hepoch fun _ _ ht =>
    Context.landTargets_isTarget (Context.bestTargets_subset ht)))

end Drafting

namespace Context

/-! ## Preparation -/

theorem loadForInvasion_drafts (hl : l.pieces.Nodup) (hepoch : l.epoch = e) :
    Ensures (brief b c e true spot).Fails (c.loadForInvasion b) l fun orders l' =>
      Drafts (brief b c e true spot) l l' orders := by
  unfold loadForInvasion
  split
  · exact .pure (.refl hl)
  · exact loadTransports_drafts hl hepoch

/-- Holding pieces back sends none. -/
theorem holdAgainst_drafts {B : Brief} (threat : Float32) (held garrison : List Asset)
    (hl : l.pieces.Nodup) :
    Ensures B.Fails (c.holdAgainst threat held garrison) l fun _ l' => Drafts B l l' [] := by
  induction garrison generalizing held l with
  | nil => exact .pure (.refl hl)
  | cons a rest ih =>
    unfold holdAgainst
    -- a piece that is already held counts the same as one that is held now
    split
    · exact .pure (.refl hl)
    · refine .bind (Ensures.hold hl ?_)
      intro taken l₁ hfirst _
      split
      · exact (ih _ hfirst.nodup).mono fun _ l' hrest => hfirst.append hrest
      · exact (ih _ hfirst.nodup).mono fun _ l' hrest => hfirst.append hrest

/-- Holding the capital takes pieces that are free, each once. -/
theorem holdCapital_drafts {B : Brief} (hl : l.pieces.Nodup) :
    Ensures B.Fails (c.holdCapital b) l fun orders l' => Drafts B l l' orders := by
  unfold holdCapital
  split
  · exact .pure (.refl hl)
  · refine .bind (.get (.bind ?_))
    exact (holdAgainst_drafts _ _ _ hl).mono fun _ l' hheld => .pure hheld

/-! ## Bombing -/

/-- A raid ends in enemy land that the bomber can reach over open territory. -/
theorem of_raidFor? {factories : List TerritoryId} {a : Asset} {route : Route}
    (h : c.raidFor? b factories a = some route) :
    route.dest ∈ factories ∧ route.length ≤ a.piece.movementLeft ∧
      b.atlas.Leads b.atlas.isOpen a.piece.territory route.dest route := by
  rcases List.mem_filterMap.1 (mem_of_lastGreatest? h) with ⟨f, hf, hroute⟩
  rw [Option.filter_eq_some_iff, Bool.and_eq_true, decide_eq_true_eq] at hroute
  have hleads := Atlas.route?_leads hroute.1
  exact ⟨hleads.dest_eq ▸ hf, hroute.2.1, hleads.dest_eq.symm ▸ hleads⟩

/-- What is known of an idle bomber. -/
theorem mem_idleBombers {a : Asset} (h : a ∈ c.idleBombers b l) :
    (∃ t, a ∈ b.ownedIn t c.player) ∧ a.kind.isStrategicBomber = true ∧ a.id ∉ l.pieces := by
  rcases List.mem_filter.1 h with ⟨hmem, hkeep⟩
  rcases List.mem_flatMap.1 hmem with ⟨t, -, ha⟩
  simp only [Bool.and_eq_true, Bool.not_eq_true', decide_eq_true_eq,
    Ledger.isCommitted_eq_false_iff] at hkeep
  exact ⟨⟨t.id, ha⟩, hkeep.1.1.1, hkeep.1.2⟩

/-- The raid of an idle bomber fits the brief of the combat move. -/
theorem raid_fit {factories : List TerritoryId} {a : Asset} {route : Route}
    (hfactories : ∀ t ∈ factories, b.isEnemyLand t c.player = true) (ha : a ∈ c.idleBombers b l)
    (hroute : c.raidFor? b factories a = some route) :
    (brief b c .combat false spot).fit { pieces := [a.id], route } := by
  intro hb
  rcases mem_idleBombers ha with ⟨⟨t, hown⟩, hbomber, -⟩
  rcases of_raidFor? hroute with ⟨hdest, hmoves, hleads⟩
  refine ⟨?_, (by simp), rfl⟩
  intro _
  have hasset := hb.asset?_of_mem (Board.mem_ownedIn.1 hown).1
  refine .raid a route hasset hbomber ?_ hmoves hleads.walk hleads.passable
    (.inl (hfactories _ hdest))
  intro hair
  -- a bomber that is no aircraft may be aboard something, and then nothing is said
  have hstands := hb.stands hown (hb.alone hown (PieceKind.isLand_eq_false (.inr hair)))
  rw [hleads.start_eq]
  exact hstands.place.symm ▸ hstands

/-- The bombers are listed as often as the garrisons list them. -/
theorem idleBombers_sublist (hb : b.Sound) :
    ((c.idleBombers b l).map (·.id)).Sublist (b.atlas.ids.flatMap b.garrison) := by
  have hids : b.atlas.ids = b.atlas.territories.toList.map (·.id) :=
    (Atlas.map_id_territories hb.atlas).symm
  rw [hids, List.flatMap_map]
  refine (List.filter_sublist.map _).trans ?_
  -- territory by territory: what a player owns there is listed in the garrison
  rw [List.map_flatMap]
  refine List.Sublist.flatMap_right _ ?_
  intro t _
  exact ((b.ownedIn_sublist t.id c.player).map _).trans (hb.ids_sublist _)

/-- What is listed twice is aboard a carrier that is no ship. -/
theorem strayBomber_of_count (hb : b.Sound) {a : Asset} (ha : a ∈ c.idleBombers b l)
    (hcount : 1 < ((c.idleBombers b l).map (·.id)).count a.id) : b.StrayBomber c.player a.id := by
  rcases mem_idleBombers ha with ⟨⟨t, hown⟩, hbomber, -⟩
  have hasset := hb.asset?_of_mem (Board.mem_ownedIn.1 hown).1
  have hmany := Nat.lt_of_lt_of_le hcount ((idleBombers_sublist hb).count_le a.id)
  refine ⟨a, hasset, (Board.mem_ownedIn.1 hown).2, hbomber, ?_, hmany⟩
  intro hset
  -- a piece of certain place is listed once
  have hq := (Board.asset?_eq_some.1 hasset).1
  have hone : (b.atlas.ids.flatMap b.garrison).count a.id ≤ 1 := by
    rw [count_flatMap_eq (hb.count a.id a.piece hq hset)]
    exact List.nodup_iff_count_le_one.1 List.nodup_range _
  omega

/-- Bombing when `rest` of the listed bombers are left: what has been taken are bombers that were
listed before them. -/
structure Bombing (b : Board) (c : Context) (spot : PieceId → Prop) (l : Ledger)
    (rest : List Asset) (l' : Ledger) (out : List Order) : Prop where
  drafts : Drafts (brief b c .combat false spot) l l' out
  before : ∃ done, done ++ rest = c.idleBombers b l ∧
    ∀ u ∈ l'.pieces, u ∈ l.pieces ∨ u ∈ done.map (·.id)

namespace Bombing

variable {a : Asset} {rest : List Asset} {l' l'' : Ledger} {out orders : List Order}

theorem mem (h : Bombing b c spot l (a :: rest) l' out) : a ∈ c.idleBombers b l := by
  rcases h.before with ⟨done, hsplit, -⟩
  rw [← hsplit]
  exact List.mem_append_right _ List.mem_cons_self

/-- The next bomber is sent or passed over. -/
theorem next (h : Bombing b c spot l (a :: rest) l' out)
    (hdrafts : Drafts (brief b c .combat false spot) l' l'' orders)
    (hnew : ∀ u ∈ l''.pieces, u ∈ l'.pieces ∨ u = a.id) :
    Bombing b c spot l rest l'' (out ++ orders) := by
  rcases h.before with ⟨done, hsplit, hold⟩
  refine ⟨h.drafts.append hdrafts, done ++ [a], ?_, ?_⟩
  · rw [List.append_assoc]
    exact hsplit
  · intro u hu
    rw [List.map_append, List.mem_append]
    rcases hnew u hu with hu | hu
    · exact (hold u hu).imp id .inl
    · exact .inr (.inr (List.mem_singleton.2 hu))

/-- A bomber that is taken when its turn comes was listed before. -/
theorem stray (h : Bombing b c spot l (a :: rest) l' out) (hb : b.Sound)
    (htaken : a.id ∈ l'.pieces) : b.StrayBomber c.player a.id := by
  rcases h.before with ⟨done, hsplit, hold⟩
  -- it was idle when the list was made, so an earlier raid has taken it
  have hbefore := (hold a.id htaken).resolve_left (mem_idleBombers h.mem).2.2
  refine strayBomber_of_count hb h.mem ?_
  rw [← hsplit, List.map_append, List.count_append, List.map_cons, List.count_cons_self]
  have hpos := List.count_pos_iff.2 hbefore
  omega

end Bombing

/-- Bombing drafts, or sends a bomber twice that is listed twice. -/
theorem strategicBombing_drafts (hl : l.pieces.Nodup) (hepoch : l.epoch = .combat) :
    Ensures (brief b c .combat false spot).Fails (c.strategicBombing b) l fun orders l' =>
      Drafts (brief b c .combat false spot) l l' orders := by
  unfold strategicBombing
  dsimp only
  set factories := (b.enemyTerritories c.player).filter fun t => (b.territory t).hasFactory
    with hfactories
  have henemy : ∀ t ∈ factories, b.isEnemyLand t c.player = true := fun t ht =>
    isEnemyLand_of_mem_enemyTerritories (List.mem_filter.1 ht).1
  split
  · exact .pure (.refl hl)
  · refine .bind (.get ?_)
    have hstart : Bombing b c spot l (c.idleBombers b l) l [] :=
      ⟨.refl hl, [], rfl, fun u hu => .inl hu⟩
    refine (Ensures.collect (J := Bombing b c spot l) ?_ hstart).mono fun orders l' h => h.drafts
    intro a rest l' out hbombing
    have hl' := hbombing.drafts.nodup
    split
    · exact .pure (hbombing.next (.refl hl') fun u hu => .inl hu)
    · rename_i route hroute
      have hcommit : Planning.apply (·.commit a.id) = Planning.commitAll [a.id] := rfl
      rw [hcommit]
      refine .bind (Ensures.commitAll (hbombing.drafts.epoch.trans hepoch) ?_ ?_)
      · intro u hu hb
        -- a bomber that cannot be taken was listed and taken before
        rcases Ledger.mem_of_conflict? hu with ⟨hmem, hin⟩
        rw [List.mem_singleton] at hmem
        subst hmem
        exact .inr (hbombing.stray hb (hin (List.nodup_singleton _) List.not_mem_nil))
      · intro hnodup hfree
        refine .pure (hbombing.next ?_ ?_)
        · exact .of_order hl' hnodup hfree (raid_fit henemy hbombing.mem hroute) (.refl _)
            fun _ u hu => .inl hu
        · intro u hu
          exact (Ledger.mem_pieces_moved.1 hu).imp id List.mem_singleton.1

end Context

end Conquest
