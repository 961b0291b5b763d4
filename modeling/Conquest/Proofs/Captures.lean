import Conquest.Proofs.Play

/-!
# What orders capture

An order that is taken captures exactly the hostile, undefended land that its land pieces enter, and
marks a battle exactly where it ends among an enemy force. Land pieces enter all steps of a route
along which they move, and the last territory of a route on which ships unload them. Outside combat
orders neither capture nor fight.

* `Board.Captures`, `Board.Fights`: what an order captures, and where it fights.
* `Board.Overrun`: the owners and the marks after some territories have been entered;
  `Table.overrun_arrive`, `Table.overrun_passThrough`: the steps; `Table.overrun_submitMove`: the
  whole order.
* `Scenario.submitMove_captures`: the owners and the marks after every order of every game.
-/

namespace Conquest

namespace Board

variable {p : PlayerId} {b b' b'' : Board} {o : Order} {t : TerritoryId}

/-- An order of `p` captures `t`: hostile, undefended land that land pieces enter by moving, or by
going ashore where the order ends. -/
def Captures (b : Board) (p : PlayerId) (o : Order) (t : TerritoryId) : Prop :=
  b.isEnemyLand t p = true ∧ b.hasEnemyForce t p = false ∧
    (o.action = .move ∧ t ∈ o.route.steps ∧
        (∃ u ∈ o.pieces, (b.asset? u).any (·.kind.isLand) = true) ∨
      o.action = .unload ∧ t = o.route.dest)

/-- An order of `p` starts a fight in `t`: it ends there among an enemy force. -/
def Fights (b : Board) (p : PlayerId) (o : Order) (t : TerritoryId) : Prop :=
  t = o.route.dest ∧ b.hasEnemyForce t p = true ∧
    (o.action = .move ∧ o.route.isEmpty = false ∨ o.action = .unload)

instance : Decidable (b.Captures p o t) := inferInstanceAs (Decidable (_ ∧ _ ∧ _))

instance : Decidable (b.Fights p o t) := inferInstanceAs (Decidable (_ ∧ _ ∧ _))

/-! ## Marks -/

/-- A board on which every territory can be marked. -/
structure Marked (b : Board) : Prop where
  conquered : b.conquered.size = b.atlas.size
  battles : b.battles.size = b.atlas.size

theorem Marked.remarked (hb : b.Marked) (h : b.Remarked b') : b'.Marked := by
  constructor
  · rw [h.conquered_size, h.size, hb.conquered]
  · rw [h.battles_size, h.size, hb.battles]

theorem Marked.regrouped (hb : b.Marked) (h : b.Regrouped b') : b'.Marked := by
  obtain ⟨_, _, rfl⟩ := h
  exact ⟨hb.conquered, hb.battles⟩

/-- Hostile land that nobody defends. -/
def isOpenTo (b : Board) (t : TerritoryId) (p : PlayerId) : Bool :=
  b.isEnemyLand t p && !b.hasEnemyForce t p

theorem isOpenTo_iff :
    b.isOpenTo t p = true ↔ b.isEnemyLand t p = true ∧ b.hasEnemyForce t p = false := by
  unfold isOpenTo
  rw [Bool.and_eq_true, Bool.not_eq_true']

/-- A board and the board after land pieces of `p` have entered the territories `entered` and
pieces of `p` have come to stay in the territories `ended`. -/
structure Overrun (p : PlayerId) (entered ended : List TerritoryId) (b b' : Board) : Prop
    extends Remarked b b' where
  owner : ∀ t, (b'.territory t).owner =
    if t ∈ entered ∧ b.isOpenTo t p = true then some p else (b.territory t).owner
  isConquered : ∀ t, b'.isConquered t = true ↔
    b.isConquered t = true ∨ t ∈ entered ∧ b.isOpenTo t p = true
  hasBattle : ∀ t, b'.hasBattle t = true ↔
    b.hasBattle t = true ∨ t ∈ ended ∧ b.hasEnemyForce t p = true

namespace Overrun

variable {entered entered' ended ended' : List TerritoryId}

/-- Nothing happens where nothing is entered that is open and no enemy force is met. -/
theorem refl (hopen : ∀ t ∈ entered, b.isOpenTo t p = false)
    (hsafe : ∀ t ∈ ended, b.hasEnemyForce t p = false) : Overrun p entered ended b b := by
  have hnone : ∀ t, ¬(t ∈ entered ∧ b.isOpenTo t p = true) := by
    rintro t ⟨ht, htrue⟩
    rw [hopen t ht] at htrue
    cases htrue
  refine ⟨.refl b, ?_, ?_, ?_⟩
  · intro t
    rw [if_neg (hnone t)]
  · intro t
    simp [hnone t]
  · intro t
    constructor
    · exact .inl
    · rintro (hbattle | ⟨ht, hforce⟩)
      · exact hbattle
      · rw [hsafe t ht] at hforce
        cases hforce

/-- What has been entered is open no longer. -/
theorem isOpenTo_iff (h : Overrun p entered ended b b') (t : TerritoryId) :
    b'.isOpenTo t p = true ↔ b.isOpenTo t p = true ∧ t ∉ entered := by
  rw [Board.isOpenTo_iff, Board.isOpenTo_iff, h.hasEnemyForce, Board.isEnemyLand,
    h.isPassableLand, h.owner]
  by_cases htaken : t ∈ entered ∧ b.isOpenTo t p = true
  · -- it is the player's own
    rw [if_pos htaken, Option.any_some, isEnemy_self, Bool.and_false]
    simp [htaken.1]
  · rw [if_neg htaken, show b'.isEnemy p = b.isEnemy p from funext (h.isEnemy p)]
    rw [Board.isOpenTo_iff] at htaken
    constructor
    · intro hopen
      exact ⟨hopen, fun ht => htaken ⟨ht, hopen⟩⟩
    · exact And.left

theorem trans (h : Overrun p entered ended b b') (h' : Overrun p entered' ended' b' b'') :
    Overrun p (entered ++ entered') (ended ++ ended') b b'' := by
  refine ⟨h.toRemarked.trans h'.toRemarked, ?_, ?_, ?_⟩
  · intro t
    simp only [h'.owner, h.owner, h.isOpenTo_iff, List.mem_append]
    by_cases hopen : b.isOpenTo t p = true
    · by_cases ht : t ∈ entered
      · simp [hopen, ht]
      · simp [hopen, ht]
    · simp [hopen]
  · intro t
    rw [h'.isConquered, h.isConquered, h.isOpenTo_iff, List.mem_append]
    by_cases ht : t ∈ entered
    · simp [ht]
    · simp [ht]
  · intro t
    rw [h'.hasBattle, h.hasBattle, h.hasEnemyForce, List.mem_append, or_assoc, or_and_right]

end Overrun

end Board

namespace Table

open Board

variable {h h' : Table} {p : PlayerId} {b : Board} {o : Order} {t : TerritoryId}

/-! ## Steps -/

/-- Who ends among an enemy force starts a fight and captures nothing. -/
theorem overrun_fight (hb : b.Marked) (ht : t < b.atlas.size)
    (hforce : b.hasEnemyForce t p = true) {entered : List TerritoryId}
    (hentered : ∀ x ∈ entered, x = t) : Overrun p entered [t] b (b.setBattle t true) := by
  have hnone : ∀ x, ¬(x ∈ entered ∧ b.isOpenTo x p = true) := by
    rintro x ⟨hx, hopen⟩
    rw [hentered x hx, isOpenTo_iff, hforce] at hopen
    cases hopen.2
  refine ⟨remarked_setBattle b t true, ?_, ?_, ?_⟩
  · intro x
    rw [if_neg (hnone x)]
    rfl
  · intro x
    simp only [hnone x, or_false]
    rfl
  · intro x
    rw [hasBattle_setBattle, hb.battles]
    by_cases htx : t = x
    · subst htx
      simp [ht, hforce]
    · simp [htx, Ne.symm htx]

/-- Land pieces that enter hostile, undefended land capture it. -/
theorem overrun_capture (hb : b.Marked) (hopen : b.isOpenTo t p = true) :
    Overrun p [t] [t] b
      ((b.modifyTerritory t fun land => { land with owner := some p }).setConquered t true) := by
  obtain ⟨henemy, hsafe⟩ := isOpenTo_iff.1 hopen
  have ht := lt_size_of_isEnemyLand henemy
  refine ⟨remarked_capture b t p, ?_, ?_, ?_⟩
  · intro x
    rw [territory_capture]
    by_cases htx : t = x
    · subst htx
      simp [ht, hopen]
    · simp [htx, Ne.symm htx]
  · intro x
    rw [isConquered_setConquered]
    show (if t = x ∧ t < b.conquered.size then true else b.isConquered x) = true ↔ _
    rw [hb.conquered]
    by_cases htx : t = x
    · subst htx
      simp [ht, hopen]
    · simp [htx, Ne.symm htx]
  · intro x
    show b.hasBattle x = true ↔ _
    -- where nobody defends there is no battle
    have hnone : ¬(x ∈ [t] ∧ b.hasEnemyForce x p = true) := by
      rintro ⟨hx, hforce⟩
      rw [List.mem_singleton.1 hx, hsafe] at hforce
      cases hforce
    simp only [hnone, or_false]

/-- An arrival fights an enemy force, and captures otherwise if land pieces arrive. -/
theorem overrun_arrive (hb : b.Marked) (landArrived : Bool) (ht : t < b.atlas.size) :
    Overrun p (if landArrived then [t] else []) [t] b (arrive p landArrived b t) := by
  have hentered : ∀ x ∈ (if landArrived then [t] else []), landArrived = true ∧ x = t := by
    intro x hx
    cases landArrived with
    | true => exact ⟨rfl, List.mem_singleton.1 hx⟩
    | false => cases hx
  unfold arrive
  by_cases hforce : b.hasEnemyForce t p = true
  · rw [if_pos hforce]
    exact overrun_fight hb ht hforce fun x hx => (hentered x hx).2
  · rw [if_neg hforce]
    rw [Bool.not_eq_true] at hforce
    by_cases hcaptures : (landArrived && b.isEnemyLand t p) = true
    · rw [if_pos hcaptures]
      obtain ⟨rfl, henemy⟩ := Bool.and_eq_true_iff.1 hcaptures
      exact overrun_capture hb (isOpenTo_iff.2 ⟨henemy, hforce⟩)
    · rw [if_neg hcaptures]
      refine .refl ?_ ?_
      · intro x hx
        obtain ⟨rfl, rfl⟩ := hentered x hx
        rw [Bool.true_and, Bool.not_eq_true] at hcaptures
        simp [isOpenTo, hcaptures]
      · intro x hx
        rw [List.mem_singleton.1 hx, hforce]

/-- Land pieces that pass through a territory that is not defended capture it. -/
theorem overrun_passThrough (hb : b.Marked) (hsafe : b.hasEnemyForce t p = false) :
    Overrun p [t] [] b (passThrough p b t) := by
  unfold passThrough
  split
  · rename_i henemy
    have harrive := overrun_arrive (p := p) hb true (lt_size_of_isEnemyLand henemy)
    refine ⟨harrive.toRemarked, harrive.owner, harrive.isConquered, ?_⟩
    intro x
    rw [harrive.hasBattle]
    -- where nobody defends there is no battle
    constructor
    · rintro (hbattle | ⟨hx, hdefended⟩)
      · exact .inl hbattle
      · rw [List.mem_singleton.1 hx, hsafe] at hdefended
        cases hdefended
    · rintro (hbattle | ⟨hx, -⟩)
      · exact .inl hbattle
      · cases hx
  · rename_i hfriendly
    refine .refl ?_ (by simp)
    intro x hx
    rw [Bool.not_eq_true] at hfriendly
    simp [List.mem_singleton.1 hx, isOpenTo, hfriendly]

theorem overrun_foldl_passThrough {ts : List TerritoryId} (hb : b.Marked)
    (hsafe : ∀ t ∈ ts, b.hasEnemyForce t p = false) :
    Overrun p ts [] b (ts.foldl (passThrough p) b) := by
  induction ts generalizing b with
  | nil => exact .refl (by simp) (by simp)
  | cons t rest ih =>
    obtain ⟨hfirst, hrest⟩ := List.forall_mem_cons.1 hsafe
    have hpassed := overrun_passThrough hb hfirst
    have hothers : ∀ x ∈ rest, (passThrough p b t).hasEnemyForce x p = false := by
      intro x hx
      rw [hpassed.hasEnemyForce]
      exact hrest x hx
    exact hpassed.trans (ih (hb.remarked hpassed.toRemarked) hothers)

/-- Land pieces that march along a route enter all its steps. -/
theorem overrun_occupy (hb : b.Marked) {landArrived : Bool} {route : Route}
    (hdest : route.dest < b.atlas.size)
    (hsafe : landArrived = true → ∀ t ∈ route.between, b.hasEnemyForce t p = false) :
    Overrun p (if landArrived then route.steps else [])
      (if route.isEmpty then [] else [route.dest]) b (occupy p landArrived route b) := by
  have hswept : Overrun p (if landArrived then route.between else []) [] b
      (sweep p landArrived route b) := by
    unfold sweep
    cases landArrived with
    | true => exact overrun_foldl_passThrough hb (hsafe rfl)
    | false => exact .refl (by simp) (by simp)
  -- whether it stops or goes on, what it passes is swept first
  unfold occupy
  cases hempty : route.isEmpty with
  | true =>
    have hsteps : route.steps = route.between := by
      rw [Route.between, Route.isEmpty_iff.1 hempty]
      rfl
    rw [hsteps]
    exact hswept
  | false =>
    have harrive := overrun_arrive (p := p) (hb.remarked hswept.toRemarked) landArrived
      (hswept.size.symm ▸ hdest)
    have hboth := hswept.trans harrive
    cases landArrived with
    | true =>
      rw [Route.steps_eq hempty]
      exact hboth
    | false => exact hboth

/-! ## Orders -/

/-- The territories that the land pieces of an order enter. -/
def entered (b : Board) (o : Order) : List TerritoryId :=
  match o.action with
  | .move => if bringsLand b o then o.route.steps else []
  | .load _ => []
  | .unload => [o.route.dest]

/-- Where the pieces of an order come to stay. -/
def ended (o : Order) : List TerritoryId :=
  match o.action with
  | .move => if o.route.isEmpty then [] else [o.route.dest]
  | .load _ => []
  | .unload => [o.route.dest]

theorem captures_iff : b.Captures p o t ↔ t ∈ entered b o ∧ b.isOpenTo t p = true := by
  have hlands : (∃ u ∈ o.pieces, (b.asset? u).any (·.kind.isLand) = true) ↔
      bringsLand b o = true := by
    simp only [bringsLand_iff, Option.any_eq_true]
  unfold Captures entered
  rw [hlands, isOpenTo_iff]
  cases o.action with
  | move =>
    cases bringsLand b o with
    | true => simp [and_assoc, and_comm]
    | false => simp
  | load transport => simp
  | unload => simp [and_assoc, and_comm, and_left_comm]

theorem fights_iff : b.Fights p o t ↔ t ∈ ended o ∧ b.hasEnemyForce t p = true := by
  unfold Fights ended
  cases o.action with
  | move =>
    cases o.route.isEmpty with
    | true => simp
    | false => simp
  | load transport => simp
  | unload => simp

/-- A land piece may pass through what it enters on the way. -/
theorem mayPass_of_checkMove (hcheck : h.checkMove p o = .ok ())
    (hland : bringsLand h.board o = true) :
    ∀ t ∈ o.route.between, ∃ k, h.mayPass p k t = true := by
  obtain ⟨u, hu, a, ha, hkind⟩ := bringsLand_iff.1 hland
  obtain ⟨a', ha', -, -, -, -, hsteps⟩ := checkMover_ok_iff.1 ((checkMove_ok_iff.1 hcheck).1 u hu)
  rw [ha, Option.some.injEq] at ha'
  subst ha'
  intro t ht
  have hstep := (checkSteps_ok_iff.1 hsteps).1 t ht
  have hdomain : a.kind.domain = .land := by simpa [PieceKind.isLand] using hkind
  unfold checkStep at hstep
  simp only [hdomain, ite_error_eq_ok, Bool.false_or] at hstep
  refine ⟨a.kind, ?_⟩
  by_contra hblocked
  rw [if_neg hblocked] at hstep
  cases hstep.2

theorem safe_of_mayPass {k : PieceKind} (hpass : h.mayPass p k t = true) :
    h.board.hasEnemyForce t p = false := by
  unfold mayPass at hpass
  rw [Bool.and_eq_true, Bool.not_eq_true'] at hpass
  exact hpass.1

/-- Outside combat land pieces pass through friendly land only. -/
theorem isEnemyLand_of_mayPass {k : PieceKind} (hepoch : h.epoch = .nonCombat)
    (hpass : h.mayPass p k t = true) : h.board.isEnemyLand t p = false := by
  apply isEnemyLand_of_isFriendlyLand
  unfold mayPass at hpass
  rw [hepoch, Bool.and_eq_true] at hpass
  simpa using hpass.2

/-- An order that is taken overruns what its land pieces enter. -/
theorem overrun_submitMove (hb : h.board.Sound) (hmarked : h.board.Marked)
    (htaken : h.submitMove p o = .ok h') :
    Overrun p (entered h.board o) (ended o) (regroup h.board o) h'.board ∧
      ∀ t, (regroup h.board o).hasEnemyForce t p = h.board.hasEnemyForce t p := by
  have heffect := submitMove_effect hb htaken
  have hdest := (dest_lt_of_submitMove hb htaken).1
  obtain ⟨-, -, hcheck, rfl⟩ := submitMove_ok_iff.1 htaken
  have hregrouped := regrouped_regroup h.board o
  have hmarked' := hmarked.regrouped hregrouped
  have hdest' : o.route.dest < (regroup h.board o).atlas.size := by
    rw [hregrouped.atlas]
    exact hdest
  -- no hostile force has moved, neither at first nor in the end
  have hforce : ∀ t, (regroup h.board o).hasEnemyForce t p = h.board.hasEnemyForce t p := by
    intro t
    rw [← (remarked_carryOut h.board p o).hasEnemyForce t p]
    exact heffect.after.hasEnemyForce t
  refine ⟨?_, hforce⟩
  show Overrun p _ _ _ (carryOut h.board p o)
  unfold checkAction at hcheck
  unfold entered ended
  cases haction : o.action with
  | move =>
    simp only [haction] at hcheck ⊢
    rw [carryOut_move haction]
    refine overrun_occupy hmarked' hdest' ?_
    intro hland t ht
    obtain ⟨k, hpass⟩ := mayPass_of_checkMove hcheck hland t ht
    rw [hforce]
    exact safe_of_mayPass hpass
  | load transport =>
    rw [carryOut_load haction]
    exact .refl (by simp) (by simp)
  | unload =>
    rw [carryOut_unload haction]
    exact overrun_arrive hmarked' true hdest'

/-- Outside combat no order ends in a fight. -/
theorem calm_of_checkPeace (hepoch : h.epoch = .nonCombat) (hcheck : h.checkPeace p t = .ok ()) :
    h.board.isEnemyLand t p = false ∧ h.board.hasEnemyForce t p = false := by
  have hcalm := checkPeace_ok_iff.1 hcheck
  unfold isAttack at hcalm
  simpa [hepoch] using hcalm

theorem isEnemyLand_of_mem_entered (hepoch : h.epoch = .nonCombat)
    (hcheck : h.checkAction p o = .ok ()) :
    ∀ t ∈ entered h.board o, h.board.isEnemyLand t p = false := by
  unfold checkAction at hcheck
  unfold entered
  intro t ht
  cases haction : o.action with
  | move =>
    simp only [haction] at hcheck ht
    split at ht
    · rename_i hland
      have hne : o.route.isEmpty = false := Bool.eq_false_iff.2 fun hempty => by
        rw [Route.isEmpty_iff.1 hempty] at ht
        cases ht
      rw [Route.steps_eq hne, List.mem_append, List.mem_singleton] at ht
      -- the way is friendly, and the end is no target
      rcases ht with hway | rfl
      · obtain ⟨k, hpass⟩ := mayPass_of_checkMove hcheck hland t hway
        exact isEnemyLand_of_mayPass hepoch hpass
      · exact (calm_of_checkPeace hepoch ((checkMove_ok_iff.1 hcheck).2 hne)).1
    · cases ht
  | load transport =>
    simp only [haction] at ht
    cases ht
  | unload =>
    simp only [haction] at hcheck ht
    rw [List.mem_singleton.1 ht]
    exact (calm_of_checkPeace hepoch (checkUnload_ok_iff.1 hcheck).2.2).1

theorem hasEnemyForce_of_mem_ended (hepoch : h.epoch = .nonCombat)
    (hcheck : h.checkAction p o = .ok ()) :
    ∀ t ∈ ended o, h.board.hasEnemyForce t p = false := by
  unfold checkAction at hcheck
  unfold ended
  intro t ht
  cases haction : o.action with
  | move =>
    simp only [haction] at hcheck ht
    split at ht
    · cases ht
    · rename_i hne
      rw [Bool.not_eq_true] at hne
      rw [List.mem_singleton.1 ht]
      exact (calm_of_checkPeace hepoch ((checkMove_ok_iff.1 hcheck).2 hne)).2
  | load transport =>
    simp only [haction] at ht
    cases ht
  | unload =>
    simp only [haction] at hcheck ht
    rw [List.mem_singleton.1 ht]
    exact (calm_of_checkPeace hepoch (checkUnload_ok_iff.1 hcheck).2.2).2

/-- Outside combat there is neither capture nor fight. -/
theorem peaceful_of_submitMove (hepoch : h.epoch = .nonCombat)
    (htaken : h.submitMove p o = .ok h') (t : TerritoryId) :
    ¬h.board.Captures p o t ∧ ¬h.board.Fights p o t := by
  obtain ⟨-, -, hcheck, -⟩ := submitMove_ok_iff.1 htaken
  rw [captures_iff, fights_iff, isOpenTo_iff]
  constructor
  · rintro ⟨ht, henemy, -⟩
    rw [isEnemyLand_of_mem_entered hepoch hcheck t ht] at henemy
    cases henemy
  · rintro ⟨ht, hforce⟩
    rw [hasEnemyForce_of_mem_ended hepoch hcheck t ht] at hforce
    cases hforce

/-! ## Games -/

theorem marked_answer {c : Command} (hmarked : h.board.Marked) (htaken : h.answer c = .ok h') :
    h'.board.Marked := by
  cases c with
  | move p o =>
    obtain ⟨-, -, -, rfl⟩ := submitMove_ok_iff.1 htaken
    exact (hmarked.regrouped (regrouped_regroup h.board o)).remarked
      (remarked_carryOut h.board p o)
  | purchase p bought =>
    obtain ⟨-, -, rfl⟩ := submitPurchase_ok_iff.1 htaken
    exact ⟨hmarked.conquered, hmarked.battles⟩
  | placement p x =>
    obtain ⟨-, f, -, -, rfl⟩ := submitPlacement_ok_iff.1 htaken
    exact hmarked.regrouped (.foldl (fun b k => .addPiece b k p x.territory) x.kinds h.board)
  | beginEpoch p e =>
    cases htaken
    exact hmarked
  | endTurn p =>
    cases htaken
    constructor
    · simpa [endTurn, setBudget, refresh] using hmarked.conquered
    · simpa [endTurn, setBudget, refresh] using hmarked.battles

end Table

namespace Scenario

open Board Table

variable {s : Scenario}

theorem setUp_marked {h : Table} (hset : s.setUp = .ok h) : h.board.Marked := by
  obtain ⟨empty, hempty, hregrouped⟩ := board_regrouped (setUp_board hset).1
  refine Marked.regrouped ?_ hregrouped
  obtain ⟨atlas, players, -, -, rfl⟩ := emptyBoard_ok hempty
  constructor
  · simp [Board.ofAtlas]
  · simp [Board.ofAtlas]

/-- The owners and the marks after every order that is taken. A territory changes hands just if the
order captures it; it is then the player's own and marked as captured, and no other territory is so
marked anew. A battle is marked anew just where the order fights. Outside combat owners and marks
stay as they are. -/
theorem submitMove_captures (s : Scenario) (h₀ : Table) (hset : s.setUp = .ok h₀)
    (commands : List Command) (p : PlayerId) (o : Order) (h' : Table)
    (htaken : (h₀.play commands).submitMove p o = .ok h') :
    (∀ t,
      ((h'.board.territory t).owner ≠ ((h₀.play commands).board.territory t).owner ↔
        (h₀.play commands).board.Captures p o t) ∧
      ((h₀.play commands).board.Captures p o t → (h'.board.territory t).owner = some p) ∧
      (h'.board.isConquered t = true ↔ (h₀.play commands).board.isConquered t = true ∨
        (h₀.play commands).board.Captures p o t) ∧
      (h'.board.hasBattle t = true ↔ (h₀.play commands).board.hasBattle t = true ∨
        (h₀.play commands).board.Fights p o t)) ∧
    ((h₀.play commands).epoch = .nonCombat → ∀ t,
      (h'.board.territory t).owner = ((h₀.play commands).board.territory t).owner ∧
      h'.board.isConquered t = (h₀.play commands).board.isConquered t ∧
      h'.board.hasBattle t = (h₀.play commands).board.hasBattle t) := by
  have hsound := (play_keeps (setUp_sound hset) commands).1
  have hmarked : (h₀.play commands).board.Marked :=
    play_forall (Q := fun h => h.board.Marked) (fun _ _ _ => marked_answer) (setUp_marked hset)
      commands
  obtain ⟨hover, hforce⟩ := overrun_submitMove hsound hmarked htaken
  have hregrouped := regrouped_regroup (h₀.play commands).board o
  set b := (h₀.play commands).board with hb
  -- the first half of the order has changed neither owners nor marks nor hostile forces
  have hopen : ∀ t, (regroup b o).isOpenTo t p = b.isOpenTo t p := by
    intro t
    rw [isOpenTo, hregrouped.isEnemyLand, hforce, isOpenTo]
  have howner : ∀ t, (h'.board.territory t).owner =
      if b.Captures p o t then some p else (b.territory t).owner := by
    intro t
    rw [hover.owner, hopen, hregrouped.territory]
    simp only [captures_iff]
  have hconquered : ∀ t, h'.board.isConquered t = true ↔
      b.isConquered t = true ∨ b.Captures p o t := by
    intro t
    rw [hover.isConquered, hopen, hregrouped.isConquered, captures_iff]
  have hbattle : ∀ t, h'.board.hasBattle t = true ↔ b.hasBattle t = true ∨ b.Fights p o t := by
    intro t
    rw [hover.hasBattle, hforce, hregrouped.hasBattle, fights_iff]
  constructor
  · intro t
    refine ⟨?_, ?_, hconquered t, hbattle t⟩
    · rw [howner]
      split
      · rename_i hcaptures
        -- hostile land is not the player's own
        refine ⟨fun _ => hcaptures, fun _ hsame => ?_⟩
        have henemy := hcaptures.1
        rw [isEnemyLand, ← hsame, Option.any_some, isEnemy_self, Bool.and_false] at henemy
        cases henemy
      · rename_i hkept
        exact ⟨fun hne => absurd rfl hne, fun hcaptures => absurd hcaptures hkept⟩
    · intro hcaptures
      rw [howner, if_pos hcaptures]
  · intro hepoch t
    obtain ⟨hcaptures, hfights⟩ := peaceful_of_submitMove hepoch htaken t
    refine ⟨?_, ?_, ?_⟩
    · rw [howner, if_neg hcaptures]
    · rw [Bool.eq_iff_iff, hconquered]
      exact or_iff_left hcaptures
    · rw [Bool.eq_iff_iff, hbattle]
      exact or_iff_left hfights

/-- A tank stands before an undefended plain and a fort behind it that is held. -/
def openPlain : Scenario where
  players := [{ name := "Red" }, { name := "Blue", team := 1 }]
  territories := [
    { name := "Camp", owner := some "Red" }, { name := "Plain", owner := some "Blue" },
    { name := "Fort", owner := some "Blue" }]
  connections := [("Camp", "Plain"), ("Plain", "Fort")]
  kinds := [
    { name := "tank", attack := 3, defense := 3, movement := 2, cost := 6, canBlitz := true },
    { name := "infantry", attack := 1, defense := 2, cost := 3 }]
  pieces := [
    { kind := "tank", owner := "Red", place := "Camp" },
    { kind := "infantry", owner := "Blue", place := "Fort" }]

/-- The tank drives over the plain into the fort. -/
def plainRaid : Order where
  pieces := [0]
  route := ⟨0, [1, 2]⟩

set_option maxRecDepth 100000 in
/-- The tank captures the plain on its way and fights at the fort. -/
theorem submitMove_captures_openPlain : ∃ h h', openPlain.setUp = .ok h ∧
    (h.play []).submitMove 0 plainRaid = .ok h' ∧
    (h'.board.territory 1).owner = some 0 ∧ h'.board.isConquered 1 = true ∧
    (h'.board.territory 2).owner = ((h.play []).board.territory 2).owner ∧
    h'.board.hasBattle 2 = true := by
  have hpass : (openPlain.setUp.toOption.any fun h =>
      ((h.play []).submitMove 0 plainRaid).isOk && decide (
        (h.play []).board.Captures 0 plainRaid 1 ∧ ¬(h.play []).board.Captures 0 plainRaid 2 ∧
        (h.play []).board.Fights 0 plainRaid 2)) = true := by
    decide +kernel
  obtain ⟨h, hset, hcheck⟩ := Scenario.exists_setUp hpass
  rw [Bool.and_eq_true] at hcheck
  obtain ⟨hok, hfacts⟩ := hcheck
  obtain ⟨h', htaken⟩ := exists_eq_ok hok
  obtain ⟨hplain, hfort, hfight⟩ := of_decide_eq_true hfacts
  obtain ⟨hmarks, -⟩ := submitMove_captures openPlain h hset [] 0 plainRaid h' htaken
  obtain ⟨-, hown, hflag, -⟩ := hmarks 1
  obtain ⟨hchange, -, -, hbattle⟩ := hmarks 2
  refine ⟨h, h', hset, htaken, hown hplain, hflag.2 (.inr hplain), ?_, hbattle.2 (.inr hfight)⟩
  by_contra hne
  exact hfort (hchange.1 hne)

end Scenario

end Conquest
