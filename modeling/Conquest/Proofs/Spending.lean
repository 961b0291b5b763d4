import Mathlib.Algebra.Group.Int.Defs
import Mathlib.Data.List.Nodup
import Conquest.Proofs.Descending
import Conquest.Proofs.Purchases
import Conquest.Proofs.Quotients
import Conquest.Purchase.Till

/-!
# Buying one at a time

What a strategy buys is what comes of the plainest way to spend a budget: the offers that are worth
anything stand in a row, best first, and one piece after the other is bought of each as long as a
slot is free and the money lasts. The fill takes all pieces of an offer at once instead, in words of
64 and 32 bits, and no budget, price or number of slots that fits these words makes it overflow.

* `Offer.Before`, `BestFirst`: the order of the offers; `bestFirst_iff`: there is just one.
* `Purse`, `Purse.buyAll`: the plain way, and what it keeps: `Purse.buyAll_keeps`.
* `Purse.buyWhile_eq`, `Purse.buyAll_eq_buyInOrder`: one at a time is all at once.
* `Till.fill?_shows`: the till shows what is left in the purse.
* `allocateFor_oneByOne`: a strategy buys what the plain way buys.
-/

namespace Conquest

/-! ## The order of the offers -/

/-- The first of two offers is worth more for its cost, or as much and it is cheaper, or it costs as
much and its kind is the lower one. -/
def Offer.Before (s : Strategy) (x y : Offer) : Prop :=
  y.yield s < x.yield s ∨
    (y.yield s == x.yield s) = true ∧ (x.cost < y.cost ∨ x.cost = y.cost ∧ x.kind < y.kind)

/-- The offers of positive cost and score, each before those that come after it. -/
structure BestFirst (s : Strategy) (offers ordered : List Offer) : Prop where
  perm : ordered.Perm (offers.filter fun o => decide (0 < o.cost) && decide (0 < o.score s))
  before : ordered.Pairwise (Offer.Before s)

/-- An offer that a strategy can rank: it has a cost of 32 bits and a positive score. -/
structure Offer.Worthy (s : Strategy) (o : Offer) : Prop where
  cost_pos : 0 < o.cost
  cost_lt : o.cost < 2 ^ 32
  score_pos : 0 < o.score s

/-- What decides between offers of one yield. -/
def Offer.tie (o : Offer) : Nat ×ₗ Nat := toLex (o.cost, o.kind)

/-- What offers are ranked by. -/
def Offer.rank (s : Strategy) (o : Offer) : (Int ×ₗ Int ×ₗ Int)ᵒᵈ ×ₗ Nat ×ₗ Nat :=
  toLex (OrderDual.toDual (Binary32.place (o.yield s)), toLex (o.cost, o.kind))

section Rank

variable {s : Strategy} {x y : Offer} {offers ordered : List Offer}

theorem Offer.Worthy.isNaN_yield (h : x.Worthy s) : (x.yield s).isNaN = false :=
  Binary32.isNaN_div_ofNat h.score_pos h.cost_lt

theorem order_eq_compare_rank (hx : x.Worthy s) (hy : y.Worthy s) :
    Offer.order s x y = compare (x.rank s) (y.rank s) := by
  have horder := Binary32.order_eq_compare_descending (fun o : Offer => o.yield s) Offer.tie
    hx.isNaN_yield hy.isNaN_yield
  rw [Offer.tie, Offer.tie, compare_toLex] at horder
  exact horder

/-- One offer is before another when its rank is less. -/
theorem before_iff (hx : x.Worthy s) (hy : y.Worthy s) :
    x.Before s y ↔ x.rank s < y.rank s := by
  have hlt := Binary32.descending_lt_iff (fun o : Offer => o.yield s) Offer.tie
    hx.isNaN_yield hy.isNaN_yield
  rw [Offer.tie, Offer.tie, Prod.Lex.toLex_lt_toLex] at hlt
  exact hlt.symm

/-- Offers of the same rank are of the same kind. -/
theorem kind_eq_of_rank (h : x.rank s = y.rank s) : x.kind = y.kind := by
  unfold Offer.rank at h
  exact congrArg (fun r => (ofLex (ofLex r).2).2) h

/-- An offer that is worth something is worthy. -/
theorem worthy_of_mem (hcosts : ∀ o ∈ offers, o.cost < 2 ^ 32)
    (hperm : ordered.Perm (offers.filter fun o => decide (0 < o.cost) && decide (0 < o.score s)))
    (hx : x ∈ ordered) : x ∈ offers ∧ x.Worthy s := by
  have hmem := List.mem_filter.1 (hperm.mem_iff.1 hx)
  rw [Bool.and_eq_true, decide_eq_true_iff, decide_eq_true_iff] at hmem
  exact ⟨hmem.1, hmem.2.1, hcosts x hmem.1, hmem.2.2⟩

/-- A strategy takes offers of different kinds in the order of their ranks. -/
theorem bestFirst_worthwhile (hkinds : (offers.map (·.kind)).Nodup)
    (hcosts : ∀ o ∈ offers, o.cost < 2 ^ 32) : BestFirst s offers (worthwhile s offers) := by
  have hperm : (worthwhile s offers).Perm
      (offers.filter fun o => decide (0 < o.cost) && decide (0 < o.score s)) := sortBy_perm _ _
  have hascending : (worthwhile s offers).Pairwise fun x y => x.rank s ≤ y.rank s := by
    apply pairwise_sortBy
    intro x hx y hy
    exact order_eq_compare_rank (worthy_of_mem hcosts .rfl hx).2 (worthy_of_mem hcosts .rfl hy).2
  have hnodup : ((worthwhile s offers).map (·.kind)).Nodup :=
    (hperm.map _).nodup_iff.2 (hkinds.sublist (List.filter_sublist.map _))
  have hboth := hascending.and (List.pairwise_map.1 hnodup)
  refine ⟨hperm, hboth.imp_of_mem fun hx hy ⟨hle, hne⟩ => ?_⟩
  rw [before_iff (worthy_of_mem hcosts hperm hx).2 (worthy_of_mem hcosts hperm hy).2]
  -- offers of different kinds do not share a rank
  exact lt_of_le_of_ne hle fun heq => hne (kind_eq_of_rank heq)

/-- There is no other order. -/
theorem BestFirst.unique {ordered' : List Offer} (hcosts : ∀ o ∈ offers, o.cost < 2 ^ 32)
    (h : BestFirst s offers ordered) (h' : BestFirst s offers ordered') : ordered = ordered' := by
  refine List.Perm.eq_of_pairwise ?_ h.before h'.before (h.perm.trans h'.perm.symm)
  intro x y hx hy hxy hyx
  have hworthy := (worthy_of_mem hcosts h.perm hx).2
  have hworthy' := (worthy_of_mem hcosts h'.perm hy).2
  rw [before_iff hworthy hworthy'] at hxy
  rw [before_iff hworthy' hworthy] at hyx
  exact absurd hyx (lt_asymm hxy)

/-- Best first there is only one order of the worthwhile offers. -/
theorem bestFirst_iff (hkinds : (offers.map (·.kind)).Nodup)
    (hcosts : ∀ o ∈ offers, o.cost < 2 ^ 32) :
    BestFirst s offers ordered ↔ ordered = worthwhile s offers := by
  have hbest : BestFirst s offers (worthwhile s offers) := bestFirst_worthwhile hkinds hcosts
  constructor
  · exact fun h => h.unique hcosts hbest
  · rintro rfl
    exact hbest

end Rank

/-! ## The plain way -/

/-- What is left to spend, the slots that are free, and what was bought. -/
structure Purse where
  money : Nat
  room : Nat
  bought : Tally

namespace Purse

/-- A slot is free and the price is not above the money. -/
def Affords (p : Purse) (o : Offer) : Prop := 0 < p.room ∧ o.cost ≤ p.money

instance (p : Purse) (o : Offer) : Decidable (p.Affords o) := by
  unfold Affords
  infer_instance

/-- One more piece. -/
def buyOne (p : Purse) (o : Offer) : Purse :=
  ⟨p.money - o.cost, p.room - 1, p.bought.add o.kind 1⟩

/-- One piece of an offer after the other, as long as it can be afforded. -/
def buyWhile (p : Purse) (o : Offer) : Purse :=
  if p.Affords o then (p.buyOne o).buyWhile o else p
termination_by p.room
decreasing_by
  rename_i h
  exact Nat.sub_lt h.1 Nat.one_pos

/-- One offer after the other. -/
def buyAll (p : Purse) (offers : List Offer) : Purse := offers.foldl buyWhile p

/-- So many pieces at once. -/
def buy (p : Purse) (o : Offer) (n : Nat) : Purse :=
  ⟨p.money - o.cost * n, p.room - n, if n = 0 then p.bought else p.bought.add o.kind n⟩

/-- How many pieces can be afforded. -/
def most (p : Purse) (o : Offer) : Nat := min (p.money / o.cost) p.room

variable {p : Purse} {o : Offer} {offers : List Offer}

@[simp] theorem buyOne_money (p : Purse) (o : Offer) : (p.buyOne o).money = p.money - o.cost := rfl

@[simp] theorem buyOne_room (p : Purse) (o : Offer) : (p.buyOne o).room = p.room - 1 := rfl

@[simp] theorem buyOne_bought (p : Purse) (o : Offer) :
    (p.buyOne o).bought = p.bought.add o.kind 1 := rfl

/-! ### What the plain way keeps -/

/-- What one piece keeps, one offer keeps. -/
theorem buyWhile_keeps {P : Purse → Prop} (hstep : ∀ p, p.Affords o → P p → P (p.buyOne o))
    (h : P p) : P (p.buyWhile o) := by
  induction p using buyWhile.induct o with
  | case1 p hafford ih =>
    rw [buyWhile, if_pos hafford]
    exact ih (hstep p hafford h)
  | case2 p hstop =>
    rw [buyWhile, if_neg hstop]
    exact h

/-- What one piece keeps, all offers keep. -/
theorem buyAll_keeps {P : Purse → Prop}
    (hstep : ∀ o ∈ offers, ∀ p, p.Affords o → P p → P (p.buyOne o)) (h : P p) :
    P (p.buyAll offers) := by
  induction offers generalizing p with
  | nil => exact h
  | cons o rest ih =>
    rcases List.forall_mem_cons.1 hstep with ⟨hfirst, hrest⟩
    exact ih hrest (buyWhile_keeps hfirst h)

/-- After an offer no more of it can be afforded. -/
theorem not_affords_buyWhile (p : Purse) (o : Offer) : ¬ (p.buyWhile o).Affords o := by
  induction p using buyWhile.induct o with
  | case1 p hafford ih =>
    rw [buyWhile, if_pos hafford]
    exact ih
  | case2 p hstop =>
    rw [buyWhile, if_neg hstop]
    exact hstop

/-- What cannot be afforded cannot be afforded later. -/
theorem not_affords_buyAll (h : ¬ p.Affords o) : ¬ (p.buyAll offers).Affords o := by
  refine @buyAll_keeps p offers (fun p => ¬ p.Affords o) ?_ h
  intro o' _ p _ hnot ⟨hroom, hmoney⟩
  rw [buyOne_room] at hroom
  rw [buyOne_money] at hmoney
  exact hnot ⟨Nat.lt_of_lt_of_le hroom (Nat.sub_le _ _), Nat.le_trans hmoney (Nat.sub_le _ _)⟩

/-- In the end none of the offers can be afforded. -/
theorem not_affords_of_mem (ho : o ∈ offers) : ¬ (p.buyAll offers).Affords o := by
  induction offers generalizing p with
  | nil => cases ho
  | cons o' rest ih =>
    rcases List.mem_cons.1 ho with rfl | ho
    · exact @not_affords_buyAll (p.buyWhile o) o rest (not_affords_buyWhile p o)
    · exact ih ho

/-- If none of the offers can be afforded, nothing is bought. -/
theorem buyAll_of_not_affords (h : ∀ o ∈ offers, ¬ p.Affords o) : p.buyAll offers = p := by
  induction offers with
  | nil => rfl
  | cons o rest ih =>
    rcases List.forall_mem_cons.1 h with ⟨hfirst, hrest⟩
    have hstop : p.buyWhile o = p := by rw [buyWhile, if_neg hfirst]
    show (p.buyWhile o).buyAll rest = p
    rw [hstop]
    exact ih hrest

/-! ### All at once -/

theorem buy_zero (p : Purse) (o : Offer) : p.buy o 0 = p := rfl

theorem buyOne_buy (p : Purse) (o : Offer) (n : Nat) :
    (p.buyOne o).buy o n = p.buy o (n + 1) := by
  have hmoney : p.money - o.cost - o.cost * n = p.money - o.cost * (n + 1) := by
    rw [Nat.mul_succ, Nat.sub_sub, Nat.add_comm]
  have hroom : p.room - 1 - n = p.room - (n + 1) := by omega
  unfold buyOne buy
  simp only [hmoney, hroom, Nat.add_eq_zero_iff, Nat.one_ne_zero, and_false, if_false]
  split
  · rename_i hzero
    rw [hzero]
  · rw [Tally.add_add, Nat.add_comm 1 n]

/-- Buying one at a time buys as many as can be afforded. -/
theorem buyWhile_eq (ho : 0 < o.cost) (p : Purse) : p.buyWhile o = p.buy o (p.most o) := by
  induction p using buyWhile.induct o with
  | case1 p hafford ih =>
    have hmost : p.most o = (p.buyOne o).most o + 1 := by
      have hroom := hafford.1
      unfold most
      rw [Nat.div_eq_sub_div ho hafford.2, buyOne_money, buyOne_room]
      omega
    rw [buyWhile, if_pos hafford, ih, hmost, buyOne_buy]
  | case2 p hstop =>
    have hmost : p.most o = 0 := by
      unfold most
      by_cases hroom : 0 < p.room
      · have hlt : p.money < o.cost := Nat.lt_of_not_le fun hle => hstop ⟨hroom, hle⟩
        rw [Nat.div_eq_of_lt hlt, Nat.zero_min]
      · rw [Nat.eq_zero_of_not_pos hroom, Nat.min_zero]
    rw [buyWhile, if_neg hstop, hmost, buy_zero]

/-- The fill buys as much as it can of the first offer and goes on with the rest. -/
theorem buyInOrder_cons (p : Purse) (o : Offer) (rest : List Offer) :
    buyInOrder (o :: rest) p.money p.room p.bought =
      buyInOrder rest (p.buy o (p.most o)).money (p.buy o (p.most o)).room
        (p.buy o (p.most o)).bought := by
  rw [buyInOrder]
  split
  · rename_i hzero
    have hmost : p.most o = 0 := hzero
    rw [hmost, buy_zero]
  · rename_i hne
    have hmost : ¬ p.most o = 0 := hne
    have hbought : (p.buy o (p.most o)).bought = p.bought.add o.kind (p.most o) := if_neg hmost
    rw [hbought]
    rfl

/-- Buying in order is buying one at a time. -/
theorem buyAll_eq_buyInOrder (hoffers : ∀ o ∈ offers, 0 < o.cost) (p : Purse) :
    (p.buyAll offers).bought = buyInOrder offers p.money p.room p.bought := by
  induction offers generalizing p with
  | nil => rfl
  | cons o rest ih =>
    rcases List.forall_mem_cons.1 hoffers with ⟨hfirst, hrest⟩
    show ((p.buyWhile o).buyAll rest).bought = _
    rw [ih hrest, buyInOrder_cons, buyWhile_eq hfirst]

end Purse

/-! ## In words -/

namespace Word

variable {w : Nat} {a b : BitVec w}

theorem exists_plus? (h : a.toNat + b.toNat < 2 ^ w) :
    ∃ c, plus? a b = some c ∧ c.toNat = a.toNat + b.toNat :=
  ⟨a + b, if_pos h, BitVec.toNat_add_of_lt h⟩

theorem exists_times? (h : a.toNat * b.toNat < 2 ^ w) :
    ∃ c, times? a b = some c ∧ c.toNat = a.toNat * b.toNat :=
  ⟨a * b, if_pos h, BitVec.toNat_mul_of_lt h⟩

theorem exists_minus? (h : b.toNat ≤ a.toNat) :
    ∃ c, minus? a b = some c ∧ c.toNat = a.toNat - b.toNat :=
  ⟨a - b, if_pos h, BitVec.toNat_sub_of_le h⟩

theorem exists_over? (h : b.toNat ≠ 0) :
    ∃ c, over? a b = some c ∧ c.toNat = a.toNat / b.toNat := by
  have hb : b ≠ 0 := fun hzero => h (by rw [hzero]; rfl)
  exact ⟨a / b, if_neg hb, BitVec.toNat_udiv⟩

/-- A saturated word is the least of what it was and the greatest of the narrower words. -/
theorem toNat_saturate (v : Nat) (a : BitVec w) :
    (saturate v a).toNat = min a.toNat (2 ^ v - 1) := by
  unfold saturate
  split
  · rename_i hlt
    rw [BitVec.toNat_setWidth, Nat.mod_eq_of_lt hlt]
    omega
  · rw [BitVec.toNat_allOnes]
    omega

end Word

namespace Till

/-- What is not in the purse any more is entered in the till. -/
structure Shows (budget : BitVec 64) (slots : BitVec 32) (t : Till) (p : Purse) : Prop where
  money : t.spent.toNat + p.money = budget.toNat
  room : t.count.toNat + p.room = slots.toNat
  bought : t.bought = p.bought
  total : p.bought.total = t.count.toNat

variable {budget : BitVec 64} {slots : BitVec 32} {t : Till} {p : Purse} {o : Offer}

theorem toNat_price (ho : o.cost < 2 ^ 32) : (price o).toNat = o.cost := by
  unfold price
  rw [BitVec.toNat_setWidth, BitVec.toNat_ofNat, Nat.mod_eq_of_lt ho]
  omega

/-- Bounding the quotient to a word of 32 bits makes no difference beside the bound of the slots. -/
theorem most?_shows (h : t.Shows budget slots p) (hpos : 0 < o.cost) (hlt : o.cost < 2 ^ 32) :
    ∃ n, t.most? budget slots o = some n ∧ n.toNat = p.most o := by
  have hprice := toNat_price hlt
  have hmoney := h.money
  have hroom := h.room
  obtain ⟨left, hleft, hleft'⟩ := @Word.exists_minus? 64 budget t.spent (by omega)
  obtain ⟨fits, hfits, hfits'⟩ := @Word.exists_over? 64 left (price o) (by omega)
  obtain ⟨room, hslots, hslots'⟩ := @Word.exists_minus? 32 slots t.count (by omega)
  -- each step shows the number that the plain way computes
  have hquotient : fits.toNat = p.money / o.cost := by
    rw [hfits', hleft', hprice, ← hmoney, Nat.add_sub_cancel_left]
  have hfree : room.toNat = p.room := by omega
  unfold most?
  simp only [hleft, hfits, hslots, Option.bind_eq_bind, Option.bind_some]
  refine ⟨_, rfl, ?_⟩
  have hbound := room.isLt
  have hmost := Word.toNat_saturate 32 fits
  rw [hquotient] at hmost
  unfold Purse.most
  rw [← hfree]
  -- the bound of the word is at least that of the slots
  split
  · rename_i hle
    rw [BitVec.le_def] at hle
    omega
  · rename_i hgt
    rw [BitVec.le_def] at hgt
    omega

/-- Pieces that can be afforded are entered without overflow. -/
theorem enter?_shows (h : t.Shows budget slots p) (hlt : o.cost < 2 ^ 32) {n : BitVec 32}
    (hn : n ≠ 0) (hmoney : o.cost * n.toNat ≤ p.money) (hroom : n.toNat ≤ p.room) :
    ∃ t', t.enter? o n = some t' ∧ t'.Shows budget slots (p.buy o n.toNat) := by
  have hspent := h.money
  have hcount := h.room
  have htotal := h.total
  have hbudget := budget.isLt
  have hslots := slots.isLt
  have hwide : (n.setWidth 64).toNat = n.toNat := BitVec.toNat_setWidth_of_le (by decide)
  have hproduct : (price o).toNat * (n.setWidth 64).toNat = o.cost * n.toNat := by
    rw [toNat_price hlt, hwide]
  obtain ⟨paid, hpaid, hpaid'⟩ := @Word.exists_times? 64 (price o) (n.setWidth 64) (by omega)
  obtain ⟨spent, hspent, hspent'⟩ := @Word.exists_plus? 64 t.spent paid (by omega)
  obtain ⟨count, hcount, hcount'⟩ := @Word.exists_plus? 32 t.count n (by omega)
  -- no entry counts more than all entries together
  have hentry : t.bought.addWord? o.kind n = some (t.bought.add o.kind n.toNat) := by
    have hle := t.bought.count_le_total o.kind
    rw [← h.bought] at htotal
    exact if_pos (by omega)
  have hbuy : (p.buy o n.toNat).bought = p.bought.add o.kind n.toNat :=
    if_neg fun hzero => hn (BitVec.eq_of_toNat_eq hzero)
  unfold enter?
  simp only [hpaid, hspent, hcount, hentry, Option.bind_eq_bind, Option.bind_some]
  refine ⟨_, rfl, ?_, ?_, ?_, ?_⟩
  · show spent.toNat + (p.money - o.cost * n.toNat) = budget.toNat
    omega
  · show count.toNat + (p.room - n.toNat) = slots.toNat
    omega
  · rw [hbuy, h.bought]
  · rw [hbuy, Tally.total_eq_cost, Tally.cost_add, ← Tally.total_eq_cost, Nat.one_mul]
    show p.bought.total + n.toNat = count.toNat
    omega

/-- An offer is taken as often as the purse can afford it. -/
theorem take?_shows (h : t.Shows budget slots p) (hpos : 0 < o.cost) (hlt : o.cost < 2 ^ 32) :
    ∃ t', t.take? budget slots o = some t' ∧ t'.Shows budget slots (p.buy o (p.most o)) := by
  obtain ⟨n, hsome, hn⟩ := most?_shows h hpos hlt
  unfold take?
  simp only [hsome, Option.bind_eq_bind, Option.bind_some]
  split
  · rename_i hzero
    have hmost : p.most o = 0 := by
      rw [← hn, hzero]
      rfl
    rw [hmost, Purse.buy_zero]
    exact ⟨t, rfl, h⟩
  · rename_i hne
    have hmoney : o.cost * p.most o ≤ p.money :=
      Nat.le_trans (Nat.mul_le_mul_left _ (Nat.min_le_left _ _)) (Nat.mul_div_le _ _)
    have hroom : p.most o ≤ p.room := Nat.min_le_right _ _
    rw [← hn] at hmoney hroom ⊢
    exact enter?_shows h hlt hne hmoney hroom

/-- The fill stops where nothing can be afforded any more, so it overflows nowhere and ends with
what the purse ends with. -/
theorem fill?_shows {offers : List Offer} (hoffers : ∀ o ∈ offers, 0 < o.cost ∧ o.cost < 2 ^ 32)
    (h : t.Shows budget slots p) :
    ∃ t', t.fill? budget slots offers = some t' ∧ t'.bought = (p.buyAll offers).bought := by
  induction offers generalizing t p with
  | nil => exact ⟨t, rfl, h.bought⟩
  | cons o rest ih =>
    rcases List.forall_mem_cons.1 hoffers with ⟨⟨hpos, hlt⟩, hrest⟩
    have hmoney := h.money
    have hroom := h.room
    unfold fill?
    split
    · rename_i hstop
      rw [BitVec.le_def, BitVec.le_def] at hstop
      have hnone : ∀ o' ∈ o :: rest, ¬ p.Affords o' := by
        rintro o' ho' ⟨hfree, hafford⟩
        have hcost := (hoffers o' ho').1
        omega
      rw [Purse.buyAll_of_not_affords hnone]
      exact ⟨t, rfl, h.bought⟩
    · obtain ⟨t₁, htake, hshows⟩ := take?_shows h hpos hlt
      rw [← Purse.buyWhile_eq hpos] at hshows
      rw [htake, Option.bind_some]
      exact ih hrest hshows

end Till

/-! ## What a strategy buys -/

/-- The cost of the first offer of a kind. -/
def priceIn (offers : List Offer) (k : KindId) : Nat :=
  ((offers.find? fun o => o.kind == k).map (·.cost)).getD 0

/-- The price of a kind is that of its offer. -/
theorem priceIn_kind {offers : List Offer} (hkinds : (offers.map (·.kind)).Nodup) {o : Offer}
    (ho : o ∈ offers) : priceIn offers o.kind = o.cost := by
  unfold priceIn
  cases hfind : offers.find? fun o' => o'.kind == o.kind with
  | none =>
    have hno := List.find?_eq_none.1 hfind o ho
    exact absurd (beq_self_eq_true o.kind) hno
  | some o' =>
    have hkind : o'.kind = o.kind := by simpa using List.find?_some hfind
    rw [List.inj_on_of_nodup_map hkinds (List.mem_of_find?_eq_some hfind) ho hkind]
    rfl

/-- What is paid for the pieces and what is left make up what there was. -/
theorem cost_buyAll {p : Purse} {offers : List Offer} {price : KindId → Nat}
    (hprice : ∀ o ∈ offers, price o.kind = o.cost) :
    (p.buyAll offers).bought.cost price + (p.buyAll offers).money =
      p.bought.cost price + p.money := by
  refine @Purse.buyAll_keeps p offers
    (fun q => q.bought.cost price + q.money = p.bought.cost price + p.money) ?_ rfl
  intro o ho q hafford hq
  have hmoney := hafford.2
  rw [Purse.buyOne_bought, Purse.buyOne_money, Tally.cost_add, hprice o ho]
  omega

/-- What is bought takes up the room. -/
theorem total_buyAll (p : Purse) (offers : List Offer) :
    (p.buyAll offers).bought.total + (p.buyAll offers).room = p.bought.total + p.room := by
  refine @Purse.buyAll_keeps p offers
    (fun q => q.bought.total + q.room = p.bought.total + p.room) ?_ rfl
  intro o _ q hafford hq
  have hroom := hafford.1
  rw [Tally.total_eq_cost] at hq
  rw [Purse.buyOne_bought, Purse.buyOne_room, Tally.total_eq_cost, Tally.cost_add]
  omega

theorem toNat_toBitVec_of_nonneg {budget : Int64} (h : 0 ≤ budget) :
    budget.toBitVec.toNat = budget.toInt.toNat :=
  Int64.toNat_toUInt64_of_le h

/-- A strategy buys what the plain way buys that goes through the offers of positive cost and score
in their only order, best first, and buys one piece after the other while a slot is free and the
price is not above the money. In words of 64 and 32 bits it meets no overflow. What is paid and what
is left make up the budget, what is bought and what is free make up the slots, and if a slot is left
then every offer of positive cost and score costs more than the money that is left. -/
theorem allocateFor_oneByOne (s : Strategy) {budget : Int64} (hbudget : 0 ≤ budget)
    (slots : UInt32) {offers : List Offer} (hkinds : (offers.map (·.kind)).Nodup)
    (hcosts : ∀ o ∈ offers, o.cost < 2 ^ 32) :
    ∃ ordered p, (∀ row, BestFirst s offers row ↔ row = ordered) ∧
      Purse.buyAll ⟨budget.toInt.toNat, slots.toNat, .empty⟩ ordered = p ∧
      allocateFor s budget.toInt offers slots.toNat = .ok p.bought ∧
      allocateWords? s budget offers slots = some (.ok p.bought) ∧
      p.bought.cost (priceIn offers) + p.money = budget.toInt.toNat ∧
      p.bought.total + p.room = slots.toNat ∧
      (0 < p.room → ∀ o ∈ offers, 0 < o.cost → 0 < o.score s → p.money < o.cost) := by
  -- there is one order of the offers that are worthwhile, and it is the sorted one
  have horder : ∀ row, BestFirst s offers row ↔ row = worthwhile s offers :=
    fun row => bestFirst_iff hkinds hcosts
  have hbest : BestFirst s offers (worthwhile s offers) := (horder _).2 rfl
  have hworthy : ∀ o ∈ worthwhile s offers, o ∈ offers ∧ o.Worthy s :=
    fun o ho => worthy_of_mem hcosts hbest.perm ho
  refine ⟨_, _, horder, rfl, ?_, ?_, ?_, ?_, ?_⟩
  · have hint : ¬ budget.toInt < 0 := Int.not_lt.2 (Int64.le_iff_toInt_le.1 hbudget)
    unfold allocateFor
    rw [if_neg hint, Purse.buyAll_eq_buyInOrder fun o ho => (hworthy o ho).2.cost_pos]
  · have hstart : Till.empty.Shows budget.toBitVec slots.toBitVec
        ⟨budget.toInt.toNat, slots.toNat, .empty⟩ := by
      refine ⟨?_, ?_, rfl, rfl⟩
      · rw [toNat_toBitVec_of_nonneg hbudget]
        exact Nat.zero_add _
      · exact Nat.zero_add _
    obtain ⟨t, hfill, hbought⟩ :=
      Till.fill?_shows (fun o ho => ⟨(hworthy o ho).2.cost_pos, (hworthy o ho).2.cost_lt⟩) hstart
    have hword : ¬ budget < 0 := Int64.not_lt.2 hbudget
    unfold allocateWords?
    rw [if_neg hword, hfill, ← hbought]
    rfl
  · rw [cost_buyAll fun o ho => priceIn_kind hkinds (hworthy o ho).1]
    exact Nat.zero_add _
  · rw [total_buyAll]
    exact Nat.zero_add _
  · intro hroom o ho hcost hscore
    -- an offer that could still be paid would have been bought
    have hmem : o ∈ worthwhile s offers := by
      rw [hbest.perm.mem_iff, List.mem_filter]
      exact ⟨ho, by simp [hcost, hscore]⟩
    exact Nat.lt_of_not_le fun hle => Purse.not_affords_of_mem hmem ⟨hroom, hle⟩

/-- Offers at the limit of what a word of 32 bits can say, and two that are worth nothing. -/
def dearOffers : List Offer := [
  { kind := 1, cost := 3, attack := 0.5, defense := 1, movement := 1, isSea := false },
  { kind := 2, cost := 0, attack := 2, defense := 2, movement := 2, isSea := false },
  { kind := 4, cost := 4294967295, attack := 1e9, defense := 0, movement := 3, isSea := true },
  { kind := 5, cost := 4294967294, attack := 0, defense := 9, movement := 2, isSea := true }]

/-- The greatest budget buys more than two thousand million of the dear pieces, and cheap ones for
the rest. -/
theorem allocateFor_oneByOne_dear : 0 ≤ Int64.maxValue ∧ (dearOffers.map (·.kind)).Nodup ∧
    (∀ o ∈ dearOffers, o.cost < 2 ^ 32) ∧
    ∃ ordered p, (∀ row, BestFirst .attack dearOffers row ↔ row = ordered) ∧
      Purse.buyAll ⟨2 ^ 63 - 1, 2 ^ 32 - 1, .empty⟩ ordered = p ∧
      allocateFor .attack (2 ^ 63 - 1) dearOffers (2 ^ 32 - 1) = .ok p.bought ∧
      allocateWords? .attack Int64.maxValue dearOffers 4294967295 = some (.ok p.bought) ∧
      p.bought.entries = [(1, 715827882), (4, 2147483648)] ∧ p.money = 1 ∧
      p.room = 1431655765 := by
  have hkinds : (dearOffers.map (·.kind)).Nodup := by decide
  have hcosts : ∀ o ∈ dearOffers, o.cost < 2 ^ 32 := by decide
  have hbudget : 0 ≤ Int64.maxValue := by decide
  obtain ⟨ordered, p, horder, hbuy, hplan, hwords, hcost, htotal, -⟩ :=
    allocateFor_oneByOne .attack hbudget 4294967295 hkinds hcosts
  have hentries : p.bought.entries = [(1, 715827882), (4, 2147483648)] := by
    have hfill : (allocateWords? .attack Int64.maxValue dearOffers 4294967295).map
        (fun answer => answer.toOption.map (·.entries)) =
        some (some [(1, 715827882), (4, 2147483648)]) := by
      decide +kernel
    rw [hwords] at hfill
    exact Option.some.inj (Option.some.inj hfill)
  have hpaid : p.bought.cost (priceIn dearOffers) = 2 ^ 63 - 2 := by
    unfold Tally.cost
    rw [hentries]
    decide
  have hbought : p.bought.total = 2863311530 := by
    unfold Tally.total
    rw [hentries]
    decide
  have hmoney : Int64.maxValue.toInt.toNat = 2 ^ 63 - 1 := by decide
  have hslots : (4294967295 : UInt32).toNat = 2 ^ 32 - 1 := by decide
  refine ⟨hbudget, hkinds, hcosts, ordered, p, horder, hbuy, hplan, hwords, hentries, ?_, ?_⟩
  · omega
  · omega

end Conquest
