import Mathlib.Data.List.Chain
import Conquest.Proofs.Transfer
import Conquest.Table.Supply

/-!
# What the checks of the table demand

An order is taken exactly when each of its pieces may do what the order says. The demands are
stated one check at a time, as equivalences, so that they serve both to use an order that was taken
and to show that an order is going to be taken. The checks fail for many reasons, but only an order
that ends in a fight outside combat fails for that reason.

* `Table.checkMover_ok_iff`, `Table.checkPassenger_ok_iff`, `Table.checkLander_ok_iff`: the demands
  on one piece.
* `Table.submitMove_ok_iff`: the demands on an order, and what the table becomes.
* `Table.submitPurchase_ok_iff`, `Table.submitPlacement_ok_iff`: the same for new pieces.
* `Table.submitMove_notCombatPhase`: when an order is refused for ending in a fight.
-/

namespace Conquest

/-! ## Sequences of checks -/

section Sequences

variable {ε α β : Type}

/-- A computation that is known to succeed has a result. -/
theorem exists_eq_ok {x : Except ε α} (h : x.isOk = true) : ∃ a, x = .ok a := by
  cases x with
  | ok a => exact ⟨a, rfl⟩
  | error e => cases h

/-- Two steps succeed when the first does and the second does on its result. -/
theorem bind_eq_ok {x : Except ε α} {f : α → Except ε β} {b : β} :
    (x >>= f) = .ok b ↔ ∃ a, x = .ok a ∧ f a = .ok b := by
  cases x with
  | error e => simp [bind, Except.bind]
  | ok a => simp [bind, Except.bind]

theorem pure_eq_ok {a b : α} : (pure a : Except ε α) = .ok b ↔ a = b := by
  simp [pure, Except.pure]

/-- A guard lets through exactly what it does not stop. -/
theorem guard_eq_ok {c : Prop} [Decidable c] {e : ε} {f : α → Except ε β} {x : Except ε β}
    {b : β} : (if c then (throw e : Except ε α) >>= f else x) = .ok b ↔ ¬ c ∧ x = .ok b := by
  by_cases hc : c
  · simp [hc, throw, throwThe, MonadExceptOf.throw, bind, Except.bind]
  · simp [hc]

/-- A guard that refuses is passed when its condition is false. -/
theorem ite_error_eq_ok {c : Prop} [Decidable c] {e : ε} {x : Except ε β} {b : β} :
    (if c then .error e else x) = .ok b ↔ ¬ c ∧ x = .ok b := by
  by_cases hc : c
  · simp [hc]
  · simp [hc]

/-- A guard that throws is passed when its condition is true. -/
theorem unless_eq_ok {c : Prop} [Decidable c] {e : ε} :
    (if c then pure () else (throw e : Except ε Unit)) = .ok () ↔ c := by
  by_cases hc : c
  · simp [hc, pure, Except.pure]
  · simp [hc, throw, throwThe, MonadExceptOf.throw]

/-- A loop of checks is passed when every check is. -/
theorem forM_eq_ok {xs : List α} {f : α → Except ε Unit} :
    xs.forM f = .ok () ↔ ∀ x ∈ xs, f x = .ok () := by
  induction xs with
  | nil => simp [List.forM, pure, Except.pure]
  | cons x rest ih =>
    have hunfold : (x :: rest).forM f = (f x >>= fun _ => rest.forM f) := rfl
    rw [hunfold, bind_eq_ok, List.forall_mem_cons]
    constructor
    · rintro ⟨⟨⟩, hx, hrest⟩
      exact ⟨hx, ih.1 hrest⟩
    · rintro ⟨hx, hrest⟩
      exact ⟨(), hx, ih.2 hrest⟩

/-- A computation that fails for reasons of one sort only. -/
def FailsBy (P : ε → Prop) (x : Except ε α) : Prop := ∀ e, x = .error e → P e

theorem FailsBy.ok {P : ε → Prop} (a : α) : FailsBy P (.ok a : Except ε α) := by
  intro e h
  cases h

theorem FailsBy.error {P : ε → Prop} {e : ε} (h : P e) : FailsBy P (.error e : Except ε α) := by
  intro e' he
  cases he
  exact h

/-- Two steps fail only as each of them does. -/
theorem FailsBy.bind {P : ε → Prop} {x : Except ε α} {f : α → Except ε β} (hx : FailsBy P x)
    (hf : ∀ a, FailsBy P (f a)) : FailsBy P (x >>= f) := by
  cases x with
  | error e =>
    intro e' he
    cases he
    exact hx e rfl
  | ok a => exact hf a

theorem FailsBy.ite {P : ε → Prop} {c : Prop} [Decidable c] {x y : Except ε α}
    (hx : FailsBy P x) (hy : FailsBy P y) : FailsBy P (if c then x else y) := by
  split
  · exact hx
  · exact hy

/-- A guard fails for its own reason or as what follows it does. -/
theorem FailsBy.guard {P : ε → Prop} {c : Prop} [Decidable c] {e : ε} {f : α → Except ε β}
    {x : Except ε β} (he : P e) (hx : FailsBy P x) :
    FailsBy P (if c then (throw e : Except ε α) >>= f else x) := by
  split
  · exact .error he
  · exact hx

theorem FailsBy.mono {P Q : ε → Prop} {x : Except ε α} (h : FailsBy P x) (hPQ : ∀ e, P e → Q e) :
    FailsBy Q x :=
  fun e he => hPQ e (h e he)

/-- A loop of checks fails only as one of them does. -/
theorem FailsBy.forM {P : ε → Prop} {xs : List α} {f : α → Except ε Unit}
    (h : ∀ x, FailsBy P (f x)) : FailsBy P (xs.forM f) := by
  induction xs with
  | nil => exact .ok ()
  | cons x rest ih => exact .bind (h x) fun _ => ih

end Sequences

namespace Table

variable {h : Table} {p : PlayerId} {u : PieceId} {a : Asset} {t : TerritoryId} {route : Route}

/-! ## Demands on one piece -/

/-- A piece is commanded by its owner alone. -/
theorem commanded_ok_iff :
    h.commanded p u = .ok a ↔ h.board.asset? u = some a ∧ a.piece.owner = p := by
  unfold commanded
  cases h.board.asset? u with
  | none => simp
  | some x =>
    by_cases howner : x.piece.owner = p
    · simp only [howner, if_true, Except.ok.injEq, Option.some.injEq]
      constructor
      · rintro rfl
        exact ⟨rfl, howner⟩
      · intro hx
        exact hx.1
    · simp only [howner, if_false, Option.some.injEq, reduceCtorEq, false_iff, not_and]
      rintro rfl
      exact howner

/-- A route is connected when each step goes to a neighbour. -/
theorem checkConnected_ok_iff {m : Atlas} {source : TerritoryId} {steps : List TerritoryId} :
    checkConnected m source steps = .ok () ↔
      (source :: steps).IsChain (m.isAdjacent · · = true) := by
  induction steps generalizing source with
  | nil => simp [checkConnected]
  | cons b rest ih =>
    rw [checkConnected, List.isChain_cons_cons]
    -- the first pair is next to each other or ends the search
    by_cases hadj : m.isAdjacent source b = true
    · rw [if_pos hadj, ih]
      simp [hadj]
    · rw [if_neg hadj]
      simp [hadj]

/-- All steps but the last are entered on the way, the last to stay. -/
theorem checkSteps_ok_iff {steps : List TerritoryId} :
    h.checkSteps p a steps = .ok () ↔
      (∀ t ∈ steps.dropLast, h.checkStep p a t false = .ok ()) ∧
      ∀ t ∈ steps.getLast?, h.checkStep p a t true = .ok () := by
  induction steps with
  | nil => simp [checkSteps]
  | cons t rest ih =>
    rw [checkSteps, bind_eq_ok, ih]
    -- whether a step is the last depends on what follows it
    cases rest with
    | nil =>
      simp only [List.isEmpty_nil, List.dropLast_singleton, List.getLast?_singleton,
        List.dropLast_nil, List.getLast?_nil, Option.mem_def]
      constructor
      · rintro ⟨⟨⟩, ht, -⟩
        refine ⟨by simp, ?_⟩
        intro x hx
        cases hx
        exact ht
      · intro hall
        exact ⟨(), hall.2 t rfl, by simp⟩
    | cons t' rest' =>
      simp only [List.isEmpty_cons, List.dropLast_cons_cons, List.mem_cons, forall_eq_or_imp,
        List.getLast?_cons_cons]
      constructor
      · rintro ⟨⟨⟩, ht, hway, hend⟩
        exact ⟨⟨ht, hway⟩, hend⟩
      · rintro ⟨⟨ht, hway⟩, hend⟩
        exact ⟨(), ht, hway, hend⟩

/-- A piece may move: it is the player's, stands by itself at the start, has the movement and may
enter all steps. -/
theorem checkMover_ok_iff :
    h.checkMover p route u = .ok () ↔ ∃ a, h.board.asset? u = some a ∧ a.piece.owner = p ∧
      a.piece.territory = route.start ∧ route.length ≤ a.piece.movementLeft ∧
      a.piece.carrier = none ∧ h.checkSteps p a route.steps = .ok () := by
  unfold checkMover
  simp only [bind_eq_ok, guard_eq_ok, commanded_ok_iff, Asset.not_isAboard_iff, ne_eq, not_not,
    Nat.not_lt, and_assoc]

/-- A piece may go aboard: it is the player's, stands by itself at the start, can be carried and has
movement left. -/
theorem checkPassenger_ok_iff :
    h.checkPassenger p route u = .ok () ↔ ∃ a, h.board.asset? u = some a ∧ a.piece.owner = p ∧
      a.piece.territory = route.start ∧ a.piece.carrier = none ∧
      a.kind.canBeTransported = true ∧ a.piece.movementLeft ≠ 0 := by
  unfold checkPassenger
  simp only [bind_eq_ok, guard_eq_ok, commanded_ok_iff, not_or, Asset.not_isAboard_iff, ne_eq,
    not_not, and_assoc]
  constructor
  · rintro ⟨a, ha, howner, hstart, hcarrier, hrest⟩
    refine ⟨a, ha, howner, hstart, hcarrier, ?_⟩
    -- its kind is asked for before its movement
    by_cases hcan : a.kind.canBeTransported = true
    · rw [if_pos hcan] at hrest
      refine ⟨hcan, ?_⟩
      intro hzero
      rw [if_pos hzero] at hrest
      cases hrest
    · rw [if_neg hcan] at hrest
      cases hrest
  · rintro ⟨a, ha, howner, hstart, hcarrier, hcan, hmoves⟩
    refine ⟨a, ha, howner, hstart, hcarrier, ?_⟩
    rw [if_pos hcan, if_neg hmoves]
    rfl

/-- The transport of an order to load: the player's, with cargo space, at the end of a route of one
step, with room for all that is listed. -/
theorem checkLoad_ok_iff {o : Order} {transport : PieceId} :
    h.checkLoad p o transport = .ok () ↔ ∃ s, h.board.asset? transport = some s ∧
      s.piece.owner = p ∧ s.kind.transportCapacity ≠ 0 ∧ o.route.length = 1 ∧
      s.piece.territory = o.route.dest ∧
      (∀ u ∈ o.pieces, h.checkPassenger p o.route u = .ok ()) ∧
      wrap (cargoCost h.board o.pieces) ≤ h.board.freeCapacity transport := by
  unfold checkLoad
  simp only [bind_eq_ok, guard_eq_ok, commanded_ok_iff, not_or, ne_eq, not_not, and_assoc]
  constructor
  · rintro ⟨s, hs, howner, hroom, hlen, hplace, ⟨⟩, hall, hfits⟩
    refine ⟨s, hs, howner, hroom, hlen, hplace, forM_eq_ok.1 hall, ?_⟩
    -- the pieces are weighed together, after each of them has passed
    by_contra hfull
    rw [if_pos (Nat.lt_of_not_le hfull)] at hfits
    cases hfits
  · rintro ⟨s, hs, howner, hroom, hlen, hplace, hall, hfits⟩
    refine ⟨s, hs, howner, hroom, hlen, hplace, (), forM_eq_ok.2 hall, ?_⟩
    rw [if_neg (Nat.not_lt_of_le hfits)]
    rfl

/-- A ship sails on through water without an enemy force. -/
theorem checkSailing_ok_iff :
    h.checkSailing p u t = .ok () ↔
      h.board.atlas.isWater t = true ∧ h.board.hasEnemyForce t p = false := by
  unfold checkSailing
  cases h.board.atlas.isWater t with
  | false => simp
  | true =>
    cases h.board.hasEnemyForce t p with
    | false => simp
    | true => simp

/-- A transport may land its cargo: it is the player's, is loaded, sails from the start over safe
water, has the movement, and lands on owned land. -/
theorem checkLander_ok_iff :
    h.checkLander p route u = .ok () ↔ ∃ a, h.board.asset? u = some a ∧ a.piece.owner = p ∧
      a.kind.carriesCargo = true ∧ h.board.cargoOf u ≠ [] ∧ a.piece.territory = route.start ∧
      (seaLeg route).length ≤ a.piece.movementLeft ∧
      (∀ t ∈ (seaLeg route).steps, h.board.atlas.isWater t = true ∧
        h.board.hasEnemyForce t p = false) ∧
      h.isHeldLand route.dest = true := by
  unfold checkLander
  simp only [bind_eq_ok, guard_eq_ok, commanded_ok_iff, Bool.or_eq_true, Bool.not_eq_true',
    List.isEmpty_iff, not_or, Bool.not_eq_false, ne_eq, not_not, Nat.not_lt, and_assoc,
    unless_eq_ok]
  constructor
  · rintro ⟨a, ha, howner, hship, hcargo, hstart, hmoves, ⟨⟩, hall, hland⟩
    refine ⟨a, ha, howner, hship, hcargo, hstart, hmoves, ?_, hland⟩
    intro t ht
    exact checkSailing_ok_iff.1 (forM_eq_ok.1 hall t ht)
  · rintro ⟨a, ha, howner, hship, hcargo, hstart, hmoves, hall, hland⟩
    refine ⟨a, ha, howner, hship, hcargo, hstart, hmoves, (), ?_, hland⟩
    exact forM_eq_ok.2 fun t ht => checkSailing_ok_iff.2 (hall t ht)

/-! ## Demands on an order -/

/-- Only an attack outside combat breaks the peace. -/
theorem checkPeace_ok_iff :
    h.checkPeace p t = .ok () ↔ ¬ (h.epoch = .nonCombat ∧ h.isAttack p t = true) := by
  unfold checkPeace
  rw [ite_error_eq_ok]
  simp

/-- A move is in order when its pieces may go and, unless it stays, it keeps the peace. -/
theorem checkMove_ok_iff {o : Order} :
    h.checkMove p o = .ok () ↔ (∀ u ∈ o.pieces, h.checkMover p o.route u = .ok ()) ∧
      (o.route.isEmpty = false → h.checkPeace p o.route.dest = .ok ()) := by
  unfold checkMove
  rw [bind_eq_ok]
  constructor
  · rintro ⟨⟨⟩, hall, hpeace⟩
    refine ⟨forM_eq_ok.1 hall, ?_⟩
    intro hne
    rw [hne] at hpeace
    exact hpeace
  · rintro ⟨hall, hpeace⟩
    refine ⟨(), forM_eq_ok.2 hall, ?_⟩
    -- an order that stays where it is attacks nobody
    cases hne : o.route.isEmpty with
    | true => rfl
    | false => exact hpeace hne

/-- An unload has a route, pieces that can land, and keeps the peace where it has to. -/
theorem checkUnload_ok_iff {o : Order} :
    h.checkUnload p o = .ok () ↔ o.route.isEmpty = false ∧
      (∀ u ∈ o.pieces, h.checkLander p o.route u = .ok ()) ∧
      h.checkPeace p o.route.dest = .ok () := by
  unfold checkUnload
  simp only [bind_eq_ok, guard_eq_ok, Bool.not_eq_true]
  constructor
  · rintro ⟨hne, ⟨⟩, hall, hpeace⟩
    exact ⟨hne, forM_eq_ok.1 hall, hpeace⟩
  · rintro ⟨hne, hall, hpeace⟩
    exact ⟨hne, (), forM_eq_ok.2 hall, hpeace⟩

/-- The check that belongs to the action of an order. -/
def checkAction (h : Table) (p : PlayerId) (o : Order) : Except Rejection Unit :=
  match o.action with
  | .move => h.checkMove p o
  | .load transport => h.checkLoad p o transport
  | .unload => h.checkUnload p o

/-- The board after an order. -/
def carryOut (b : Board) (p : PlayerId) (o : Order) : Board :=
  match o.action with
  | .move => moveAlong b p o
  | .load transport => o.pieces.foldl (embark transport o.route) b
  | .unload => arrive p true (o.pieces.foldl (land o.route) b) o.route.dest

/-- An order is looked at as a whole, then piece by piece, and then carried out. -/
theorem submitMove_eq (h : Table) (p : PlayerId) (o : Order) :
    h.submitMove p o = (do
      if o.pieces.isEmpty then throw .emptyOrder
      checkConnected h.board.atlas o.route.start o.route.steps
      h.checkAction p o
      return { h with board := carryOut h.board p o }) := by
  unfold submitMove checkAction carryOut
  -- the actions differ in what is checked and in what is carried out, not in the order of the steps
  cases o.action with
  | move => rfl
  | load transport => rfl
  | unload => rfl

/-- An order is taken when it names pieces, its route is connected and its action passes; then it is
carried out. -/
theorem submitMove_ok_iff {o : Order} {h' : Table} :
    h.submitMove p o = .ok h' ↔ o.pieces ≠ [] ∧
      o.route.territories.IsChain (h.board.atlas.isAdjacent · · = true) ∧
      h.checkAction p o = .ok () ∧ h' = { h with board := carryOut h.board p o } := by
  rw [submitMove_eq, Route.territories, ← checkConnected_ok_iff]
  simp only [guard_eq_ok, bind_eq_ok, pure_eq_ok, List.isEmpty_iff]
  constructor
  · rintro ⟨hne, ⟨⟩, hconn, ⟨⟩, hcheck, rfl⟩
    exact ⟨hne, hconn, hcheck, rfl⟩
  · rintro ⟨hne, hconn, hcheck, rfl⟩
    exact ⟨hne, (), hconn, (), hcheck, rfl⟩

/-! ## New pieces -/

/-- A kind exists when it is in the catalogue. -/
theorem checkKind_ok_iff {k : KindId} : h.checkKind k = .ok () ↔ k < h.board.kinds.size := by
  unfold checkKind
  by_cases hk : k < h.board.kinds.size
  · simp [hk]
  · simp [hk]

/-- The table after a purchase has been paid. -/
def pay (h : Table) (p : PlayerId) (bought : Tally) : Table :=
  { h with
    board := h.board.setBudget p
      (h.board.budget p - wrap (bought.cost fun k => (h.board.kind k).cost))
    pending := h.pending.modify p fun c =>
      bought.nonzero.foldl (fun c e => c.addWrapped e.1 e.2) c }

/-- What is paid leaves the budget of the player. -/
theorem budget_pay {bought : Tally}
    (hpaid : wrap (bought.cost fun k => (h.board.kind k).cost) ≤ h.board.budget p) (q : PlayerId) :
    ((h.pay p bought).board.budget q +
      if p = q then wrap (bought.cost fun k => (h.board.kind k).cost) else 0) =
      h.board.budget q := by
  show ((h.board.setBudget p _).budget q + _) = _
  rw [Board.budget_setBudget]
  by_cases hpq : p = q
  · subst hpq
    by_cases hp : p < h.board.budgets.size
    · have hword := Board.budget_lt h.board p
      simp only [hp, and_self, if_true]
      rw [wrap_of_lt (by omega)]
      omega
    · -- a stranger has no money, so nothing was charged
      have hnone : h.board.budget p = 0 := by
        unfold Board.budget
        rw [Array.getD_eq_getD_getElem?]
        simp [hp]
      simp only [hp, and_false, if_false, if_true]
      omega
  · simp [hpq]

/-- A purchase is taken when its kinds exist and the budget covers the word of its cost; then it is
paid. -/
theorem submitPurchase_ok_iff {bought : Tally} {h' : Table} :
    h.submitPurchase p bought = .ok h' ↔ (∀ e ∈ bought.entries, e.1 < h.board.kinds.size) ∧
      wrap (bought.cost fun k => (h.board.kind k).cost) ≤ h.board.budget p ∧
      h' = h.pay p bought := by
  unfold submitPurchase
  simp only [bind_eq_ok, guard_eq_ok, pure_eq_ok, Nat.not_lt]
  constructor
  · rintro ⟨⟨⟩, hkinds, hpaid, rfl⟩
    refine ⟨?_, hpaid, rfl⟩
    intro e he
    exact checkKind_ok_iff.1 (forM_eq_ok.1 hkinds e he)
  · rintro ⟨hkinds, hpaid, rfl⟩
    refine ⟨(), forM_eq_ok.2 ?_, hpaid, rfl⟩
    intro e he
    exact checkKind_ok_iff.2 (hkinds e he)

/-- So many pieces of a kind can be placed when they wait and belong on such ground. -/
theorem checkWanted_ok_iff {t : TerritoryId} {e : KindId × Nat} :
    h.checkWanted p t e = .ok () ↔ e.2 ≤ (h.pendingOf p).count e.1 ∧
      e.1 < h.board.kinds.size ∧ (h.board.kind e.1).isSea = h.board.atlas.isWater t := by
  unfold checkWanted
  simp only [guard_eq_ok, bind_eq_ok, Nat.not_lt]
  constructor
  · rintro ⟨hpending, ⟨⟩, hkind, hplace⟩
    refine ⟨hpending, checkKind_ok_iff.1 hkind, ?_⟩
    by_contra hne
    rw [if_pos hne] at hplace
    cases hplace
  · rintro ⟨hpending, hkind, hplace⟩
    refine ⟨hpending, (), checkKind_ok_iff.2 hkind, ?_⟩
    rw [if_neg (not_not_intro hplace)]
    rfl

/-- The table after new pieces have come, charged to a factory. -/
def receive (h : Table) (p : PlayerId) (x : Placement) (factory : TerritoryId) : Table :=
  { h with
    board := x.kinds.foldl (fun b k => b.addPiece k p x.territory) h.board
    pending := h.pending.modify p fun c =>
      (Tally.ofKinds x.kinds).entries.foldl (fun c e => c.spend e.1 e.2) c
    placed := h.placed.modify factory (· + x.kinds.length) }

/-- Pieces that are wanted rightly are refused only for want of room at the factory. -/
theorem submitPlacement_eq {x : Placement} {f : TerritoryId}
    (hwanted : ∀ e ∈ (Tally.ofKinds x.kinds).entries, h.checkWanted p x.territory e = .ok ())
    (hcharged : h.chargedFactory? p x.territory = some f) :
    h.submitPlacement p x =
      if h.factoryRoom f < x.kinds.length then
        .error (.capacityExceeded x.territory (h.factoryRoom f))
      else .ok (h.receive p x f) := by
  unfold submitPlacement
  simp only [forM_eq_ok.2 hwanted, hcharged]
  by_cases hfull : h.factoryRoom f < x.kinds.length
  · simp only [if_pos hfull]
    rfl
  · simp only [if_neg hfull]
    rfl

/-- A placement is taken when its pieces wait and the factory charged has room for all of them; then
that factory receives them. -/
theorem submitPlacement_ok_iff {x : Placement} {h' : Table} :
    h.submitPlacement p x = .ok h' ↔
      (∀ e ∈ (Tally.ofKinds x.kinds).entries, h.checkWanted p x.territory e = .ok ()) ∧
      ∃ f, h.chargedFactory? p x.territory = some f ∧ x.kinds.length ≤ h.factoryRoom f ∧
        h' = h.receive p x f := by
  constructor
  · intro htaken
    have hwanted : ∀ e ∈ (Tally.ofKinds x.kinds).entries,
        h.checkWanted p x.territory e = .ok () := by
      unfold submitPlacement at htaken
      obtain ⟨⟨⟩, hwanted, -⟩ := bind_eq_ok.1 htaken
      exact forM_eq_ok.1 hwanted
    refine ⟨hwanted, ?_⟩
    cases hcharged : h.chargedFactory? p x.territory with
    | none =>
      -- where no factory answers for a territory there is no room
      unfold submitPlacement at htaken
      simp only [forM_eq_ok.2 hwanted, hcharged] at htaken
      cases htaken
    | some f =>
      rw [submitPlacement_eq hwanted hcharged, ite_error_eq_ok, Nat.not_lt] at htaken
      obtain ⟨hroom, htaken⟩ := htaken
      cases htaken
      exact ⟨f, rfl, hroom, rfl⟩
  · rintro ⟨hwanted, f, hcharged, hroom, rfl⟩
    rw [submitPlacement_eq hwanted hcharged, if_neg (Nat.not_lt.2 hroom)]

/-! ## Refusals -/

/-- Any reason for a refusal but the end of an order in a fight outside combat. -/
def IsFormal (e : Rejection) : Prop := ∀ t, e ≠ .notCombatPhase t

theorem commanded_formal (h : Table) (p : PlayerId) (u : PieceId) :
    FailsBy IsFormal (h.commanded p u) := by
  unfold commanded
  cases h.board.asset? u with
  | none => exact .error fun t => by simp
  | some a => exact .ite (.ok a) (.error fun t => by simp)

theorem checkConnected_formal (m : Atlas) (source : TerritoryId) (steps : List TerritoryId) :
    FailsBy IsFormal (checkConnected m source steps) := by
  induction steps generalizing source with
  | nil => exact .ok ()
  | cons b rest ih => exact .ite (ih b) (.error fun t => by simp)

theorem checkStep_formal (h : Table) (p : PlayerId) (a : Asset) (t : TerritoryId) (last : Bool) :
    FailsBy IsFormal (h.checkStep p a t last) := by
  unfold checkStep
  split
  · exact .ite (.error fun t => by simp) (.ite (.ok ()) (.error fun t => by simp))
  · exact .ite (.error fun t => by simp) (.ite (.error fun t => by simp) (.ok ()))
  · exact .ite (.error fun t => by simp) (.ok ())

theorem checkSteps_formal (h : Table) (p : PlayerId) (a : Asset) (steps : List TerritoryId) :
    FailsBy IsFormal (h.checkSteps p a steps) := by
  induction steps with
  | nil => exact .ok ()
  | cons t rest ih => exact .bind (checkStep_formal h p a t rest.isEmpty) fun _ => ih

theorem checkMover_formal (h : Table) (p : PlayerId) (route : Route) (u : PieceId) :
    FailsBy IsFormal (h.checkMover p route u) := by
  unfold checkMover
  refine .bind (commanded_formal h p u) ?_
  intro a
  refine .guard (fun t => by simp) ?_
  refine .guard (fun t => by simp) ?_
  exact .guard (fun t => by simp) (checkSteps_formal h p a route.steps)

theorem checkPassenger_formal (h : Table) (p : PlayerId) (route : Route) (u : PieceId) :
    FailsBy IsFormal (h.checkPassenger p route u) := by
  unfold checkPassenger
  refine .bind (commanded_formal h p u) ?_
  intro a
  refine .guard (fun t => by simp) ?_
  refine .ite ?_ (.bind (.error fun t => by simp) ?_)
  · exact .ite (.error fun t => by simp) (.ok ())
  · intro _
    exact .ite (.error fun t => by simp) (.ok ())

theorem checkLoad_formal (h : Table) (p : PlayerId) (o : Order) (transport : PieceId) :
    FailsBy IsFormal (h.checkLoad p o transport) := by
  unfold checkLoad
  refine .bind (commanded_formal h p transport) ?_
  intro a
  refine .guard (fun t => by simp) ?_
  refine .guard (fun t => by simp) ?_
  refine .bind (.forM (checkPassenger_formal h p o.route)) ?_
  intro _
  exact .ite (.error fun t => by simp) (.ok ())

theorem checkLander_formal (h : Table) (p : PlayerId) (route : Route) (u : PieceId) :
    FailsBy IsFormal (h.checkLander p route u) := by
  unfold checkLander
  refine .bind (commanded_formal h p u) ?_
  intro a
  refine .guard (fun t => by simp) ?_
  refine .guard (fun t => by simp) ?_
  refine .guard (fun t => by simp) ?_
  refine .bind (.forM ?_) ?_
  · intro t
    exact .ite (.error fun t => by simp) (.ite (.error fun t => by simp) (.ok ()))
  · intro _
    exact .ite (.ok ()) (.error fun t => by simp)

/-- An order that ends in a fight. -/
def EndsInFight (h : Table) (p : PlayerId) (o : Order) (e : Rejection) : Prop :=
  ∀ t, e = .notCombatPhase t → t = o.route.dest ∧ h.isAttack p t = true

theorem IsFormal.endsInFight {h : Table} {p : PlayerId} {o : Order} {e : Rejection}
    (he : IsFormal e) : EndsInFight h p o e :=
  fun t ht => absurd ht (he t)

/-- Only the peace check says that an order would end in a fight. -/
theorem checkPeace_fails (h : Table) (p : PlayerId) (o : Order) :
    FailsBy (EndsInFight h p o) (h.checkPeace p o.route.dest) := by
  unfold checkPeace
  split
  · rename_i hfight
    refine .error ?_
    intro t ht
    cases ht
    exact ⟨rfl, hfight.2⟩
  · exact .ok ()

theorem fails_of_formal {α : Type} {h : Table} {p : PlayerId} {o : Order}
    {x : Except Rejection α} (hx : FailsBy IsFormal x) : FailsBy (EndsInFight h p o) x :=
  hx.mono fun _ he => he.endsInFight

/-- Whatever the action, it is refused for its form or because it would end in a fight. -/
theorem checkAction_fails (h : Table) (p : PlayerId) (o : Order) :
    FailsBy (EndsInFight h p o) (h.checkAction p o) := by
  unfold checkAction
  split
  · unfold checkMove
    refine .bind (fails_of_formal (.forM (checkMover_formal h p o.route))) ?_
    intro _
    -- an order that goes nowhere is not asked for peace
    exact .ite (.ok ()) (checkPeace_fails h p o)
  · exact fails_of_formal (checkLoad_formal h p o _)
  · unfold checkUnload
    refine .guard (IsFormal.endsInFight fun t => by simp) ?_
    refine .bind (fails_of_formal (.forM (checkLander_formal h p o.route))) ?_
    intro _
    exact checkPeace_fails h p o

/-- Only an order that ends in a fight is refused for it. -/
theorem submitMove_fails (h : Table) (p : PlayerId) (o : Order) :
    FailsBy (EndsInFight h p o) (h.submitMove p o) := by
  rw [submitMove_eq]
  refine .guard (IsFormal.endsInFight fun t => by simp) ?_
  refine .bind (fails_of_formal (checkConnected_formal _ _ _)) ?_
  intro _
  exact .bind (checkAction_fails h p o) fun _ => .ok _

/-- An order that is refused as a fight outside combat ends in one. -/
theorem submitMove_notCombatPhase {h : Table} {p : PlayerId} {o : Order} {t : TerritoryId}
    (hrefused : h.submitMove p o = .error (.notCombatPhase t)) :
    t = o.route.dest ∧ h.isAttack p t = true :=
  submitMove_fails h p o _ hrefused t rfl

end Table

end Conquest
