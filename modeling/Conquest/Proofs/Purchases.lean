import Conquest.Lottery
import Conquest.Proofs.Amounts
import Conquest.Proofs.Checks
import Conquest.Proofs.Choice
import Conquest.Proofs.Tallies
import Conquest.Purchase.Plan
import Conquest.Scenario.Setup

/-!
# Purchases within means

A purchase is put together from parts: one transport may be set aside, and the rest is bought kind
by kind with what is left of the money and of the slots. Each part keeps within what it is given, so
all of them together keep within what there is, and the table takes the purchase.

* `Board.Buys`: a tally within some money and slots; `Board.Buys.add`, `Board.Buys.merge`.
* `Board.buys_buyInOrder`: one step of the fill, and the whole fill from it.
* `Policy.isSome_choose_iff`: when a strategy is chosen.
* `planPurchase_eq`: the purchase of a strategy is always found, and what it is made of.
* `Table.purchase_paid`: it is paid in full, and there is room for all of it.
-/

namespace Conquest

/-! ## The catalogue -/

namespace Board

/-- Every kind has its place in the catalogue as its number. -/
def Numbered (b : Board) : Prop := ∀ k (hk : k < b.kinds.size), (b.kinds[k]).id = k

instance (b : Board) : Decidable b.Numbered := by
  unfold Numbered
  infer_instance

variable {b : Board} {k : KindId}

/-- A kind of the catalogue is found under its own number. -/
theorem Numbered.kind_id (hb : b.Numbered) {f : PieceKind → Bool} {kind : PieceKind}
    (h : kind ∈ b.kindsWhere f) : kind.id < b.kinds.size ∧ b.kind kind.id = kind := by
  obtain ⟨hmem, -⟩ := List.mem_filter.1 h
  obtain ⟨i, hi, rfl⟩ := List.mem_iff_getElem.1 hmem
  rw [Array.length_toList] at hi
  rw [Array.getElem_toList, hb i hi]
  constructor
  · exact hi
  · simp [Board.kind, Array.getD_eq_getD_getElem?, hi]

/-! ## Within money and slots -/

/-- A tally of kinds of the catalogue that costs no more than some money and has no more pieces than
some slots. -/
structure Buys (b : Board) (money slots : Nat) (bought : Tally) : Prop where
  known : ∀ e ∈ bought.entries, e.1 < b.kinds.size
  cost : bought.cost (fun k => (b.kind k).cost) ≤ money
  total : bought.total ≤ slots

variable {money slots money' slots' : Nat} {bought others : Tally}

theorem buys_empty : b.Buys 0 0 .empty where
  known := by simp [Tally.empty]
  cost := Nat.le_refl 0
  total := Nat.le_refl 0

theorem Buys.mono (h : b.Buys money slots bought) (hmoney : money ≤ money')
    (hslots : slots ≤ slots') : b.Buys money' slots' bought where
  known := h.known
  cost := Nat.le_trans h.cost hmoney
  total := Nat.le_trans h.total hslots

theorem Buys.add (h : b.Buys money slots bought) (hk : k < b.kinds.size) (n : Nat) :
    b.Buys (money + (b.kind k).cost * n) (slots + n) (bought.add k n) where
  known := by
    intro e he
    obtain heq | ⟨e', he', heq⟩ := Tally.mem_keys_update he
    · rw [heq]
      exact hk
    · rw [← heq]
      exact h.known e' he'
  cost := by
    rw [Tally.cost_add]
    exact Nat.add_le_add_right h.cost _
  total := by
    have htotal := h.total
    rw [Tally.total_eq_cost] at htotal ⊢
    rw [Tally.cost_add, Nat.one_mul]
    exact Nat.add_le_add_right htotal n

theorem Buys.merge (h : b.Buys money slots bought) (h' : b.Buys money' slots' others) :
    b.Buys (money + money') (slots + slots') (bought.merge others) where
  known := by
    intro e he
    obtain ⟨e', he', heq⟩ | ⟨e', he', heq⟩ := Tally.mem_keys_foldl_add he
    · rw [← heq]
      exact h.known e' he'
    · rw [← heq]
      exact h'.known e' he'
  cost := by
    rw [Tally.cost_merge]
    exact Nat.add_le_add h.cost h'.cost
  total := by
    have htotal := h.total
    have htotal' := h'.total
    rw [Tally.total_eq_cost] at htotal htotal' ⊢
    rw [Tally.cost_merge]
    exact Nat.add_le_add htotal htotal'

/-! ## The fill -/

/-- An offer is of a kind of the catalogue, at its price. -/
structure Sells (b : Board) (o : Offer) : Prop where
  known : o.kind < b.kinds.size
  cost : o.cost = (b.kind o.kind).cost

/-- What is bought of one offer after the other keeps within what there was and what is left. -/
theorem buys_buyInOrder {offers : List Offer} (hoffers : ∀ o ∈ offers, b.Sells o)
    (left room : Nat) (h : b.Buys money slots bought) :
    b.Buys (money + left) (slots + room) (buyInOrder offers left room bought) := by
  induction offers generalizing left room money slots bought with
  | nil => exact h.mono (Nat.le_add_right _ _) (Nat.le_add_right _ _)
  | cons o rest ih =>
    obtain ⟨hfirst, hrest⟩ := List.forall_mem_cons.1 hoffers
    unfold buyInOrder
    simp only
    by_cases hnone : min (left / o.cost) room = 0
    · rw [if_pos hnone]
      exact ih hrest left room h
    · rw [if_neg hnone]
      -- what the offer takes is taken from what is left
      have hpaid : o.cost * min (left / o.cost) room ≤ left := by
        apply Nat.le_trans (Nat.mul_le_mul_left _ (Nat.min_le_left _ _))
        exact Nat.mul_div_le left o.cost
      have hroom : min (left / o.cost) room ≤ room := Nat.min_le_right _ _
      have hstep := ih hrest (left - o.cost * min (left / o.cost) room)
        (room - min (left / o.cost) room) (h.add hfirst.known (min (left / o.cost) room))
      rw [← hfirst.cost] at hstep
      apply hstep.mono
      · omega
      · omega

end Board

variable {b : Board} {c : Context}

theorem mem_worthwhile {s : Strategy} {offers : List Offer} {o : Offer}
    (h : o ∈ worthwhile s offers) : o ∈ offers := by
  unfold worthwhile at h
  rw [mem_sortBy] at h
  exact (List.mem_filter.1 h).1

/-- What the factories can build is in the catalogue. -/
theorem Context.sells_of_mem_offers (hb : b.Numbered) {o : Offer} (h : o ∈ c.offers b) :
    b.Sells o := by
  unfold Context.offers at h
  obtain ⟨kind, hkind, rfl⟩ := List.mem_map.1 h
  obtain ⟨hknown, hsame⟩ := hb.kind_id hkind
  constructor
  · exact hknown
  · show kind.cost = (b.kind kind.id).cost
    rw [hsame]

/-! ## The purchase -/

/-- What a strategy buys with some money and slots. -/
def Context.basket (c : Context) (b : Board) (s : Strategy) (money slots : Nat) : Tally :=
  buyInOrder (worthwhile s (c.offers b)) money slots .empty

theorem Context.buys_basket (hb : b.Numbered) (s : Strategy) (money slots : Nat) :
    b.Buys money slots (c.basket b s money slots) := by
  have hsells : ∀ o ∈ worthwhile s (c.offers b), b.Sells o := fun o ho =>
    c.sells_of_mem_offers hb (mem_worthwhile ho)
  have hfill := Board.buys_buyInOrder hsells money slots Board.buys_empty
  rw [Nat.zero_add, Nat.zero_add] at hfill
  exact hfill

/-- The purchase under a strategy: the transport that is set aside, if there is one, and what the
strategy buys beside it. -/
def Context.purchase (c : Context) (b : Board) (capacity : TerritoryId → Nat) (s : Strategy) :
    Tally :=
  match c.reserved? b (c.slots b capacity) with
  | some k => (Tally.empty.add k.id 1).merge
      (c.basket b s (b.budget c.player - k.cost) (c.slots b capacity - 1))
  | none => Tally.empty.merge (c.basket b s (b.budget c.player) (c.slots b capacity))

/-- Money is never negative, so every strategy buys something. -/
theorem allocate_eq (money : Nat) (offers : List Offer) (slots : Nat) :
    ∃ mixes, allocate money offers slots = .ok mixes ∧
      ∀ s, mixes.get s = buyInOrder (worthwhile s offers) money slots .empty := by
  have heach : ∀ s, allocateFor s money offers slots =
      .ok (buyInOrder (worthwhile s offers) money slots .empty) := by
    intro s
    unfold allocateFor
    rw [if_neg (by omega), Int.toNat_natCast]
  unfold allocate
  simp only [heach]
  refine ⟨_, rfl, ?_⟩
  intro s
  cases s with
  | attack => rfl
  | defense => rfl
  | maxUnits => rfl
  | mobility => rfl

section Choice

variable {σ : Type}

/-- The odds are never below 0, whatever the weights are. -/
theorem Policy.zero_le_odds (policy : Policy σ) : ∀ w ∈ policy.odds, 0 ≤ w := by
  intro w hw
  obtain ⟨v, -, rfl⟩ := List.mem_map.1 hw
  exact Binary32.zero_le_larger v

variable [Lottery σ]

/-- A strategy is chosen while the capital is in danger, and otherwise just if the odds have a
finite sum. -/
theorem Policy.isSome_choose_iff [LawfulLottery σ] (policy : Policy σ) (danger : Bool) :
    (policy.choose danger).isSome = true ↔
      danger = true ∨ (Binary32.sum policy.odds).isFinite = true := by
  unfold Policy.choose
  cases danger with
  | true => simp
  | false =>
    cases hfinite : (Binary32.sum policy.odds).isFinite with
    | false =>
      rw [LawfulLottery.stops policy.source policy.odds policy.zero_le_odds hfinite]
      simp
    | true =>
      cases hzero : Binary32.sum policy.odds == 0 with
      | true =>
        rw [LawfulLottery.refuses policy.source policy.odds policy.zero_le_odds hzero]
        simp
      | false =>
        -- there are as many strategies as odds, so what is drawn is one of them
        obtain ⟨i, rest, hdraw, hi⟩ :=
          LawfulLottery.draws policy.source policy.odds policy.zero_le_odds hzero hfinite
        have hlength : policy.odds.length = Strategy.all.length := rfl
        rw [hdraw]
        simp [List.getElem?_eq_getElem (hlength ▸ hi)]

/-- What is planned is the purchase of the strategy that the policy chooses; where it chooses none,
nothing else goes wrong. -/
theorem planPurchase_eq (b : Board) (capacity : TerritoryId → Nat) (c : Context)
    (policy : Policy σ) :
    planPurchase b capacity c policy =
      match policy.choose c.capitalDanger with
      | none => .error .draw
      | some (s, policy') => .ok ((s, c.purchase b capacity s), policy') := by
  unfold planPurchase Context.purchase
  simp only
  -- a reserved transport is paid first, and the mix is bought from the rest
  cases c.reserved? b (c.slots b capacity) with
  | none =>
    obtain ⟨mixes, hmixes, hget⟩ := allocate_eq (b.budget c.player) (c.offers b)
      (c.slots b capacity)
    simp only [hmixes]
    cases policy.choose c.capitalDanger with
    | none => rfl
    | some choice =>
      show Except.ok ((_, Tally.empty.merge (mixes.get _)), _) = _
      rw [hget]
      rfl
  | some k =>
    obtain ⟨mixes, hmixes, hget⟩ := allocate_eq (b.budget c.player - k.cost) (c.offers b)
      (c.slots b capacity - 1)
    simp only [hmixes]
    cases policy.choose c.capitalDanger with
    | none => rfl
    | some choice =>
      show Except.ok ((_, (Tally.empty.add k.id 1).merge (mixes.get _)), _) = _
      rw [hget]
      rfl

/-- Whether a plan is to buy a tally. -/
def buysJust (bought : Tally) : Except Abort ((Strategy × Tally) × Policy σ) → Bool
  | .ok ((_, planned), _) => decide (planned = bought)
  | .error _ => false

omit [Lottery σ] in
theorem of_buysJust {bought : Tally} {plan : Except Abort ((Strategy × Tally) × Policy σ)}
    (h : buysJust bought plan = true) :
    ∃ strategy policy', plan = .ok ((strategy, bought), policy') := by
  cases plan with
  | error e => cases h
  | ok choice =>
    obtain ⟨⟨strategy, planned⟩, policy'⟩ := choice
    obtain rfl : planned = bought := of_decide_eq_true h
    exact ⟨strategy, policy', rfl⟩

/-- A purchase that is planned is the one of its strategy. -/
theorem eq_purchase_of_planPurchase {b : Board} {capacity : TerritoryId → Nat} {c : Context}
    {policy policy' : Policy σ} {strategy : Strategy} {bought : Tally}
    (h : planPurchase b capacity c policy = .ok ((strategy, bought), policy')) :
    bought = c.purchase b capacity strategy := by
  rw [planPurchase_eq] at h
  split at h
  · cases h
  · cases h
    rfl

end Choice

/-- A transport that is set aside is in the catalogue and affordable, and there is a slot for it. -/
theorem Context.of_reserved? (hb : b.Numbered) {slots : Nat} {kind : PieceKind}
    (h : c.reserved? b slots = some kind) :
    kind.id < b.kinds.size ∧ b.kind kind.id = kind ∧ kind.cost ≤ b.budget c.player ∧
      0 < slots := by
  unfold Context.reserved? at h
  split at h
  · rename_i hlacks
    have hmem := mem_of_firstLeast? h
    obtain ⟨hknown, hsame⟩ := hb.kind_id hmem
    have hprop := (List.mem_filter.1 hmem).2
    unfold Context.lacksTransport at hlacks
    simp only [Bool.and_eq_true, decide_eq_true_eq] at hprop hlacks
    exact ⟨hknown, hsame, hprop.2, hlacks.2⟩
  · cases h

/-- A purchase keeps within the budget and the slots. -/
theorem Context.buys_purchase (hb : b.Numbered) (capacity : TerritoryId → Nat) (s : Strategy) :
    b.Buys (b.budget c.player) (c.slots b capacity) (c.purchase b capacity s) := by
  unfold Context.purchase
  cases hreserved : c.reserved? b (c.slots b capacity) with
  | none =>
    have hall := Board.buys_empty.merge
      (c.buys_basket hb s (b.budget c.player) (c.slots b capacity))
    rw [Nat.zero_add, Nat.zero_add] at hall
    exact hall
  | some kind =>
    obtain ⟨hknown, hsame, hcost, hslot⟩ := c.of_reserved? hb hreserved
    have hall := (Board.buys_empty.add hknown 1).merge
      (c.buys_basket hb s (b.budget c.player - kind.cost) (c.slots b capacity - 1))
    rw [hsame] at hall
    apply hall.mono
    · omega
    · omega

/-- A transport that is set aside is bought. -/
theorem Context.count_purchase_reserved {capacity : TerritoryId → Nat} {kind : PieceKind}
    (h : c.reserved? b (c.slots b capacity) = some kind) (s : Strategy) :
    0 < (c.purchase b capacity s).count kind.id := by
  unfold Context.purchase
  rw [h]
  simp only [Tally.count_merge, Tally.count_add, Tally.count_empty, if_true]
  omega

/-! ## The table -/

/-- A purchase is planned while the capital is in danger, and otherwise just if the odds of the
policy have a finite sum; planning itself never fails. The table takes every purchase that is
planned on its board. The budget falls by just what the purchase costs, so the sum of the prices is
no greater than the budget, and the factories that were not captured this turn have a slot for each
piece. A transport that is set aside is among them. -/
theorem Table.purchase_paid {σ : Type} [Lottery σ] [LawfulLottery σ] (h : Table)
    (hnumbered : h.board.Numbered) (c : Context) (policy : Policy σ) :
    (∀ e, planPurchase h.board h.placementCapacity (c.refresh h.board) policy ≠
      .error (.planning e)) ∧
    ((∃ planned, planPurchase h.board h.placementCapacity (c.refresh h.board) policy =
        .ok planned) ↔
      (c.refresh h.board).capitalDanger = true ∨
        (Binary32.sum policy.odds).isFinite = true) ∧
    ∀ strategy bought policy',
      planPurchase h.board h.placementCapacity (c.refresh h.board) policy =
        .ok ((strategy, bought), policy') →
      ∃ h', h.submitPurchase c.player bought = .ok h' ∧
        h'.board.budget c.player + bought.cost (fun k => (h.board.kind k).cost) =
          h.board.budget c.player ∧
        bought.total ≤ (((h.board.factoriesOf c.player).filter fun f =>
          !h.board.isConquered f).map h.placementCapacity).sum ∧
        ∀ kind, (c.refresh h.board).reserved? h.board
            ((c.refresh h.board).slots h.board h.placementCapacity) = some kind →
          0 < bought.count kind.id := by
  refine ⟨?_, ?_, ?_⟩
  · intro e
    rw [planPurchase_eq]
    split
    · simp
    · simp
  · rw [← policy.isSome_choose_iff, planPurchase_eq]
    cases policy.choose (c.refresh h.board).capitalDanger with
    | none => simp
    | some choice => simp
  · intro strategy bought policy' hplan
    rw [eq_purchase_of_planPurchase hplan]
    -- the refreshed context is of the same player, with the factories of the board
    have hbuys := (c.refresh h.board).buys_purchase hnumbered h.placementCapacity strategy
    have hmoney : h.board.budget (c.refresh h.board).player = h.board.budget c.player := rfl
    rw [hmoney] at hbuys
    -- what costs no more than the budget costs a word, so its price is not cut down
    have hcost := hbuys.cost
    have hword := wrap_of_lt (Nat.lt_of_le_of_lt hcost (h.board.budget_lt c.player))
    rw [← hword] at hcost
    refine ⟨_, submitPurchase_ok_iff.2 ⟨hbuys.known, hcost, rfl⟩, ?_, ?_, ?_⟩
    · have hpaid := budget_pay hcost c.player
      rw [if_pos rfl, hword] at hpaid
      exact hpaid
    · exact hbuys.total.trans (wrap_le _)
    · intro kind hkind
      exact (c.refresh h.board).count_purchase_reserved hkind strategy

namespace Scenario

/-- Red can reach Blue by sea only and has no ship. -/
def overseas : Scenario where
  players := [
    { name := "Red", team := 0, capital := some "Home", budget := 20 },
    { name := "Blue", team := 1 }]
  territories := [
    { name := "Home", owner := some "Red", production := 4, factory := true },
    { name := "Strait", water := true },
    { name := "Isle", owner := some "Blue", production := 2 }]
  connections := [("Home", "Strait"), ("Strait", "Isle")]
  kinds := [
    { name := "infantry", attack := 1, defense := 2, cost := 3 },
    { name := "transport", domain := .sea, movement := 2, cost := 7, transportCapacity := 4 }]

set_option maxRecDepth 100000 in
/-- A transport for 7 is set aside, and the other three slots go to infantry for 3 each. -/
theorem purchase_paid_overseas : ∃ h, overseas.setUp = .ok h ∧ h.board.Numbered ∧
    ∃ strategy, ∃ policy' : Policy Generator, ∃ h',
      planPurchase h.board h.placementCapacity (.build h.board 0 {}) (.ofSeed 7 ⟨1, 1, 1, 1⟩) =
        .ok ((strategy, Tally.ofKinds [0, 0, 0, 1]), policy') ∧
      h.submitPurchase 0 (Tally.ofKinds [0, 0, 0, 1]) = .ok h' ∧
      h'.board.budget 0 + 16 = 20 := by
  have hpass : overseas.setUp.toOption.any (fun h =>
      decide (h.board.Numbered ∧ h.board.budget 0 = 20 ∧
        (Tally.ofKinds [0, 0, 0, 1]).cost (fun k => (h.board.kind k).cost) = 16) &&
      buysJust (Tally.ofKinds [0, 0, 0, 1]) (planPurchase h.board h.placementCapacity
        (.build h.board 0 {}) (.ofSeed 7 ⟨1, 1, 1, 1⟩ : Policy Generator))) = true := by
    decide +kernel
  obtain ⟨h, hset, hcheck⟩ := exists_setUp hpass
  obtain ⟨hfacts, hbuys⟩ := Bool.and_eq_true_iff.1 hcheck
  obtain ⟨hnumbered, hbudget, hcost⟩ := of_decide_eq_true hfacts
  obtain ⟨strategy, policy', hplan⟩ := of_buysJust hbuys
  obtain ⟨-, -, hpaid⟩ := Table.purchase_paid h hnumbered (.build h.board 0 {})
    (.ofSeed 7 ⟨1, 1, 1, 1⟩ : Policy Generator)
  have hsame : (Context.build h.board 0 {}).refresh h.board = .build h.board 0 {} := rfl
  rw [hsame] at hpaid
  obtain ⟨h', htaken, hleft, -⟩ := hpaid strategy _ policy' hplan
  have hmoney : (Context.build h.board 0 {}).player = 0 := rfl
  rw [hmoney, hcost, hbudget] at hleft
  exact ⟨h, hset, hnumbered, strategy, policy', h', hplan, htaken, hleft⟩

/-- Odds that are numbers each, but whose sum is not. -/
def excessive : StrategyWeights := ⟨3e38, 3e38, 0, 0⟩

set_option maxRecDepth 100000 in
/-- The configuration takes such odds, but no strategy is drawn with them, and no purchase is
planned. -/
theorem purchase_not_planned : ∃ h, overseas.setUp = .ok h ∧ h.board.Numbered ∧
    ({ strategyWeights := excessive } : Config).check = .ok () ∧
    planPurchase h.board h.placementCapacity (.build h.board 0 { strategyWeights := excessive })
      (.ofSeed 7 excessive : Policy Generator) = .error .draw := by
  have hpass : overseas.setUp.toOption.any (fun h => decide (h.board.Numbered ∧
      (Context.build h.board 0 { strategyWeights := excessive }).capitalDanger = false)) =
        true := by
    decide +kernel
  obtain ⟨h, hset, hcheck⟩ := exists_setUp hpass
  obtain ⟨hnumbered, hsafe⟩ := of_decide_eq_true hcheck
  have hnone : ((.ofSeed 7 excessive : Policy Generator).choose false).isNone = true := by
    decide +kernel
  refine ⟨h, hset, hnumbered, by decide +kernel, ?_⟩
  rw [planPurchase_eq, hsafe, Option.isNone_iff_eq_none.1 hnone]

end Scenario

end Conquest
