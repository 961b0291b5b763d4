import Conquest.Proofs.Placing
import Conquest.Table.Journal
import Conquest.Table.Overflow

/-!
# The treasury

Money turns into pieces that wait, and these into pieces on the board, and nowhere on this way is
any of it lost or made, unless a sum wraps around. The books of a game say so: what a player has,
what its pieces that wait have cost and what its new pieces on the board have cost make up what it
had and what it has collected, as words in any case. The factories make no more pieces in a turn
than they can.

* `Table.budgets_carryOut`, `Table.wrap_cost_pendingOf_pay`, `Table.cost_pendingOf_pay`,
  `Table.cost_pendingOf_receive`: what the commands do with money.
* `Table.Audited`: the books of a game; `Table.Audited.obey`, `Table.Audited.play`: one command and
  a whole game keep them.
* `Scenario.play_audited`: the books of every game that is played from a scenario;
  `Scenario.play_defrauded`: books that do not balance because a price wraps around.
-/

namespace Conquest

/-! ## Positive tallies -/

namespace Tally

variable {c : Tally} {k : KindId} {n : Nat}

/-- No entry of a tally is zero. -/
def Positive (c : Tally) : Prop := ∀ e ∈ c.entries, 0 < e.2

/-- It is enough that every kind with an entry is counted. -/
theorem positive_iff : c.Positive ↔ ∀ e ∈ c.entries, 0 < c.count e.1 := by
  constructor
  · intro hpos e he
    rw [count_of_mem he]
    exact hpos e he
  · intro hpos e he
    rw [← count_of_mem he]
    exact hpos e he

theorem positive_empty : empty.Positive := by simp [Positive, empty]

/-- Pieces that are added and counted right are counted. -/
theorem Positive.addWrapped (h : c.Positive) (hn : 0 < n) (hfits : c.count k + n < UInt32.size) :
    (c.addWrapped k n).Positive := by
  rw [positive_iff] at h ⊢
  intro e he
  rw [count_addWrapped]
  by_cases hk : e.1 = k
  · rw [if_pos hk, wrap_of_lt hfits]
    omega
  · rw [if_neg hk]
    obtain hnew | ⟨e', he', heq⟩ := mem_keys_update he
    · exact absurd hnew hk
    · rw [← heq]
      exact h e' he'

theorem Positive.spend (h : c.Positive) (k : KindId) (n : Nat) : (c.spend k n).Positive := by
  rw [positive_iff] at h ⊢
  intro e he
  rw [count_spend]
  unfold Tally.spend at he
  split at he
  · -- the entry has disappeared
    obtain ⟨hmem, hne⟩ := List.mem_filter.1 he
    rw [bne_iff_ne] at hne
    rw [if_neg hne]
    exact h e hmem
  · rename_i hleft
    by_cases hk : e.1 = k
    · rw [if_pos hk, hk]
      omega
    · rw [if_neg hk]
      obtain hnew | ⟨e', he', heq⟩ := mem_keys_update he
      · exact absurd hnew hk
      · rw [← heq]
        exact h e' he'

/-- What is bought and fits its words leaves no empty entry. -/
theorem Positive.foldl_addWrapped (h : c.Positive) {l : List (KindId × Nat)}
    (hdistinct : l.Pairwise fun a b => a.1 < b.1)
    (hl : ∀ e ∈ l, 0 < e.2 ∧ c.count e.1 + e.2 < UInt32.size) :
    (l.foldl (fun c e => c.addWrapped e.1 e.2) c).Positive := by
  induction l generalizing c with
  | nil => exact h
  | cons e rest ih =>
    obtain ⟨hbelow, hdistinct⟩ := List.pairwise_cons.1 hdistinct
    obtain ⟨⟨hpos, hfits⟩, hrest⟩ := List.forall_mem_cons.1 hl
    refine ih (h.addWrapped hpos hfits) hdistinct fun d hd => ?_
    -- the kinds that follow have not been added to
    rw [count_addWrapped, if_neg (Nat.ne_of_gt (hbelow d hd))]
    exact hrest d hd

/-- Spending drops the entries that it empties. -/
theorem Positive.foldl_spend (h : c.Positive) (l : List (KindId × Nat)) :
    (l.foldl (fun c e => c.spend e.1 e.2) c).Positive := by
  induction l generalizing c with
  | nil => exact h
  | cons e rest ih => exact ih (h.spend e.1 e.2)

end Tally

/-! ## Who is on the board -/

namespace Board

variable {b b' : Board} {p : PlayerId}

/-- Pieces that keep their owners and kinds make up the same roster. -/
theorem roster_of_pieces (hsize : b'.pieces.size = b.pieces.size)
    (hpiece : ∀ u q', b'.piece? u = some q' →
      ∃ q, b.piece? u = some q ∧ q'.kind = q.kind ∧ q'.owner = q.owner) :
    b'.roster = b.roster := by
  unfold Board.roster
  apply List.ext_getElem?
  intro u
  rw [List.getElem?_map, List.getElem?_map, Array.getElem?_toList, Array.getElem?_toList]
  show (b'.piece? u).map _ = (b.piece? u).map _
  cases hq' : b'.piece? u with
  | some q' =>
    obtain ⟨q, hq, hkind, howner⟩ := hpiece u q' hq'
    rw [hq, Option.map_some, Option.map_some, hkind, howner]
  | none =>
    have hout : b.pieces.size ≤ u := by
      rw [← hsize]
      exact Array.getElem?_eq_none_iff.1 hq'
    have hq : b.piece? u = none := Array.getElem?_eq_none_iff.2 hout
    rw [hq]

/-- Pieces that arrive join the roster in their order. -/
theorem roster_foldl_addPiece (kinds : List KindId) (t : TerritoryId) (b : Board) :
    (kinds.foldl (fun b k => b.addPiece k p t) b).roster = b.roster ++ kinds.map (p, ·) := by
  induction kinds generalizing b with
  | nil => exact (List.append_nil _).symm
  | cons k rest ih =>
    rw [List.foldl_cons, ih, List.map_cons]
    simp [Board.roster, Board.addPiece]

/-! ## Factories -/

theorem SameGround.factoryOutput (h : b.SameGround b') (t : TerritoryId) :
    b'.factoryOutput t = b.factoryOutput t := by
  unfold Board.factoryOutput
  rw [h.territory t]

theorem factoryOutput_of_le {t : TerritoryId} (ht : b.atlas.size ≤ t) : b.factoryOutput t = 0 := by
  unfold Board.factoryOutput Board.territory
  rw [Atlas.territory_of_le ht]
  rfl

end Board

/-! ## Entries of a journal -/

section Journal

variable (journal : List Posting) (e : Posting) (p : PlayerId) (t : TerritoryId)

@[simp] theorem newcomers_concat :
    newcomers (journal ++ [e]) = newcomers journal ++ e.newcomers := by
  simp [newcomers]

@[simp] theorem collected_concat :
    collected (journal ++ [e]) p = collected journal p + e.incomeOf p := by
  simp [collected, sumOf_eq]

@[simp] theorem charged_concat : charged (journal ++ [e]) t = e.charge t (charged journal t) := by
  simp [charged]

theorem arrivalsOf_income (q : PlayerId) (amount : Nat) :
    arrivalsOf (journal ++ [.income q amount]) p = arrivalsOf journal p := by
  simp [arrivalsOf, Posting.newcomers]

/-- An arrival is an arrival of its player alone. -/
theorem arrivalsOf_arrival (q : PlayerId) (kinds : List KindId) (factory : TerritoryId) :
    arrivalsOf (journal ++ [.arrival q kinds factory]) p =
      arrivalsOf journal p ++ if q = p then kinds else [] := by
  unfold arrivalsOf
  rw [newcomers_concat, List.filter_append, List.map_append]
  congr 1
  unfold Posting.newcomers
  by_cases hqp : q = p
  · simp [hqp, List.filter_map, Function.comp_def]
  · simp [hqp, List.filter_map, Function.comp_def]

end Journal

namespace Table

open Board

variable {h h' h₀ : Table} {p q : PlayerId} {bought : Tally} {x : Placement} {f t : TerritoryId}

/-- Orders cost nothing. -/
theorem budgets_carryOut (b : Board) (o : Order) : (carryOut b p o).budgets = b.budgets :=
  (remarked_carryOut b p o).budgets.trans (regrouped_regroup b o).budgets

/-- What is bought waits at its price, which may be cut down to a word. -/
theorem wrap_cost_pendingOf_pay (hq : q < h.pending.size) (price : KindId → Nat) :
    wrap (((h.pay p bought).pendingOf q).cost price) =
      wrap ((h.pendingOf q).cost price + if p = q then bought.cost price else 0) := by
  by_cases hpq : p = q
  · subst hpq
    have hpending : (h.pay p bought).pendingOf p =
        bought.nonzero.foldl (fun c e => c.addWrapped e.1 e.2) (h.pendingOf p) := by
      simp only [pay, pendingOf, Array.getD_eq_getD_getElem?, Array.getElem?_modify, if_true]
      rw [Array.getElem?_eq_getElem hq]
      rfl
    rw [if_pos rfl, hpending, Tally.wrap_cost_foldl_addWrapped, Tally.cost_nonzero]
  · have hpending : (h.pay p bought).pendingOf q = h.pendingOf q := by
      simp [pay, pendingOf, Array.getD_eq_getD_getElem?, Array.getElem?_modify, hpq]
    rw [if_neg hpq, hpending, Nat.add_zero]

/-- What is bought and counted right waits at its price. -/
theorem cost_pendingOf_pay (hq : q < h.pending.size)
    (hwords : AreWords (h.sums (.purchase p bought))) (price : KindId → Nat) :
    ((h.pay p bought).pendingOf q).cost price =
      (h.pendingOf q).cost price + if p = q then bought.cost price else 0 := by
  obtain ⟨-, hadded⟩ := areWords_cons.1 hwords
  have hcount : ∀ k, ((h.pay p bought).pendingOf q).count k =
      (h.pendingOf q).count k + (if p = q then bought.toKinds else []).count k := by
    intro k
    rw [count_pendingOf_pay]
    by_cases hpq : p = q
    · subst hpq
      rw [if_pos rfl, Tally.count_toKinds]
      by_cases hpos : 0 < bought.count k
      · have hmem : (k, bought.count k) ∈ bought.nonzero :=
          List.mem_filter.2 ⟨Tally.mem_of_count_pos hpos, by simpa using hpos⟩
        rw [if_pos ⟨⟨rfl, hq⟩, hpos⟩, wrap_of_lt (hadded.lt_of_mem (List.mem_map_of_mem hmem))]
      · rw [if_neg fun hboth => hpos hboth.2]
        omega
    · rw [if_neg fun hboth => hpq hboth.1.1, if_neg hpq, List.count_nil, Nat.add_zero]
  rw [Tally.cost_of_count hcount]
  by_cases hpq : p = q
  · rw [if_pos hpq, if_pos hpq, ← Tally.cost_eq]
  · rw [if_neg hpq, if_neg hpq]
    rfl

/-- What is placed has waited. -/
theorem count_le_pendingOf (hwanted : ∀ e ∈ (Tally.ofKinds x.kinds).entries,
      h.checkWanted p x.territory e = .ok ()) (k : KindId) :
    x.kinds.count k ≤ (h.pendingOf p).count k := by
  by_cases hk : k ∈ x.kinds
  · exact (checkWanted_ok_iff.1 (hwanted _ (Tally.mem_entries_ofKinds hk))).1
  · rw [List.count_eq_zero.2 hk]
    exact Nat.zero_le _

/-- What comes onto the board no longer waits. -/
theorem cost_pendingOf_receive (hwaits : ∀ k, x.kinds.count k ≤ (h.pendingOf p).count k)
    (q : PlayerId) (price : KindId → Nat) :
    (h.pendingOf q).cost price = ((h.receive p x f).pendingOf q).cost price +
      ((if p = q then x.kinds else []).map price).sum := by
  apply Tally.cost_of_count
  intro k
  rw [count_pendingOf_receive]
  by_cases hpq : p = q
  · subst hpq
    have hle := hwaits k
    rw [if_pos rfl, if_pos rfl]
    omega
  · rw [if_neg hpq, if_neg hpq, List.count_nil, Nat.sub_zero, Nat.add_zero]

/-! ## The books -/

/-- What a player has, what its pieces that wait have cost and what those that arrived have cost, at
the prices of the first table of a game. -/
def holdings (h₀ h : Table) (journal : List Posting) (p : PlayerId) : Nat :=
  h.board.budget p + (h.pendingOf p).cost (fun k => (h₀.board.kind k).cost) +
    ((arrivalsOf journal p).map fun k => (h₀.board.kind k).cost).sum

/-- The books of a game that began at `h₀` and has come to `h`. Money is counted in words, so the
books balance as words do, and to the point as long as the game has been in range. -/
structure Audited (inRange : Prop) (h₀ h : Table) (journal : List Posting) : Prop where
  ground : Keeps h₀.board h.board
  purses : h.board.budgets.size = h₀.board.budgets.size
  waiting : h.pending.size = h₀.board.budgets.size
  yards : h.placed.size = h.board.atlas.size
  money : ∀ q < h₀.board.budgets.size,
    wrap (holdings h₀ h journal q) = wrap (h₀.board.budget q + collected journal q)
  balance : inRange → ∀ q < h₀.board.budgets.size,
    holdings h₀ h journal q = h₀.board.budget q + collected journal q
  positive : inRange → ∀ q, (h.pendingOf q).Positive
  charged : ∀ t, h.placed.getD t 0 = charged journal t
  output : ∀ t, h.placed.getD t 0 ≤ h.board.factoryOutput t
  roster : h.board.roster = h₀.board.roster ++ newcomers journal

namespace Audited

variable {journal : List Posting} {inRange : Prop}

/-- The less is known to be in range, the less is known of the books. -/
theorem mono {inRange' : Prop} (ha : Audited inRange h₀ h journal) (himp : inRange' → inRange) :
    Audited inRange' h₀ h journal :=
  { ha with
    balance := fun hrange => ha.balance (himp hrange)
    positive := fun hrange => ha.positive (himp hrange) }

/-- Prices do not change. -/
theorem price_eq (ha : Audited inRange h₀ h journal) :
    (fun k => (h.board.kind k).cost) = fun k => (h₀.board.kind k).cost := by
  funext k
  rw [ha.ground.2.kind]

/-- An order touches neither money nor what waits. -/
theorem move (ha : Audited inRange h₀ h journal) {o : Order}
    (htaken : h.submitMove p o = .ok h') : Audited inRange h₀ h' journal := by
  have heffect := submitMove_effect ha.ground.1 htaken
  have hground := heffect.after.toSameGround
  obtain ⟨-, -, -, rfl⟩ := submitMove_ok_iff.1 htaken
  have hbudgets : (carryOut h.board p o).budgets = h.board.budgets := budgets_carryOut h.board o
  have hsame : ∀ q, holdings h₀ { h with board := carryOut h.board p o } journal q =
      holdings h₀ h journal q := by
    intro q
    unfold holdings
    rw [budget_congr h.board hbudgets]
    rfl
  constructor
  · exact ha.ground.trans ⟨heffect.sound, hground⟩
  · show (carryOut h.board p o).budgets.size = _
    rw [hbudgets]
    exact ha.purses
  · exact ha.waiting
  · exact ha.yards.trans hground.size.symm
  · intro q hq
    rw [hsame]
    exact ha.money q hq
  · intro hrange q hq
    rw [hsame]
    exact ha.balance hrange q hq
  · exact ha.positive
  · exact ha.charged
  · intro t
    rw [hground.factoryOutput]
    exact ha.output t
  · exact (roster_of_pieces heffect.after.pieces_size heffect.after.piece).trans ha.roster

/-- Tallies one of which is changed in its place have what the old ones and the changed one have. -/
theorem getD_modify_forall {P : Tally → Prop} {pending : Array Tally} {g : Tally → Tally}
    {p : PlayerId} (hempty : P .empty) (hg : P (g (pending.getD p .empty)))
    (hpending : ∀ q, P (pending.getD q .empty)) (q : PlayerId) :
    P ((pending.modify p g).getD q .empty) := by
  have hold := hpending q
  rw [Array.getD_eq_getD_getElem?] at hold hg ⊢
  rw [Array.getElem?_modify]
  cases hget : pending[q]? with
  | none => simpa using hempty
  | some c =>
    rw [hget, Option.getD_some] at hold
    split
    · rename_i hpq
      rw [hpq, hget] at hg
      exact hg
    · exact hold

/-- A purchase turns money into pieces that wait. -/
theorem purchase (ha : Audited inRange h₀ h journal)
    (htaken : h.submitPurchase p bought = .ok h') :
    Audited (inRange ∧ AreWords (h.sums (.purchase p bought))) h₀ h' journal := by
  have hkeeps := submitPurchase_keeps ha.ground.1 htaken
  obtain ⟨-, hpaid, rfl⟩ := submitPurchase_ok_iff.1 htaken
  have hbudget := budget_pay hpaid
  rw [ha.price_eq] at hbudget
  constructor
  · exact ha.ground.trans hkeeps
  · simpa [pay, Board.setBudget] using ha.purses
  · simpa [pay] using ha.waiting
  · exact ha.yards
  · -- what leaves the budget waits as pieces
    intro q hq
    have hmoney := ha.money q hq
    have hleft := hbudget q
    have hwaiting :
        wrap (((h.pay p bought).pendingOf q).cost fun k => (h₀.board.kind k).cost) = _ :=
      wrap_cost_pendingOf_pay (ha.waiting.symm ▸ hq) _
    unfold holdings at hmoney ⊢
    simp only [wrap_eq] at hmoney hleft hwaiting ⊢
    split at hleft
    · rename_i hpq
      rw [if_pos hpq] at hwaiting
      omega
    · rename_i hpq
      rw [if_neg hpq] at hwaiting
      omega
  · -- and nothing is cut off if the price and the counts are words
    rintro ⟨hrange, hwords⟩ q hq
    have hmoney := ha.balance hrange q hq
    have hleft := hbudget q
    have hwaiting := cost_pendingOf_pay (ha.waiting.symm ▸ hq) hwords
      fun k => (h₀.board.kind k).cost
    have hprice := (areWords_cons.1 hwords).1
    rw [ha.price_eq] at hprice
    rw [wrap_of_lt hprice] at hleft
    unfold holdings at hmoney ⊢
    omega
  · rintro ⟨hrange, hwords⟩
    apply getD_modify_forall (P := Tally.Positive) Tally.positive_empty _ (ha.positive hrange)
    refine (ha.positive hrange p).foldl_addWrapped bought.ascending_nonzero fun e he => ?_
    exact ⟨of_decide_eq_true (List.mem_filter.1 he).2,
      (areWords_cons.1 hwords).2.lt_of_mem (List.mem_map_of_mem he)⟩
  · exact ha.charged
  · exact ha.output
  · exact ha.roster

/-- A placement turns pieces that wait into pieces that have arrived. -/
theorem placement (ha : Audited inRange h₀ h journal)
    (hwanted : ∀ e ∈ (Tally.ofKinds x.kinds).entries, h.checkWanted p x.territory e = .ok ())
    (hcharged : h.chargedFactory? p x.territory = some f)
    (hroom : x.kinds.length ≤ h.factoryRoom f) :
    Audited inRange h₀ (h.receive p x f) (journal ++ [.arrival p x.kinds f]) := by
  have hkeeps := foldl_addPiece_keeps (p := p) x.kinds ha.ground.1
    (lt_size_of_chargedFactory? hcharged)
  have hbudgets : (h.receive p x f).board.budgets = h.board.budgets :=
    (Regrouped.foldl (fun b k => .addPiece b k p x.territory) x.kinds h.board).budgets
  -- what has waited is on the board
  have hsame : ∀ q, holdings h₀ (h.receive p x f) (journal ++ [.arrival p x.kinds f]) q =
      holdings h₀ h journal q := by
    intro q
    have hwaiting := cost_pendingOf_receive (f := f) (count_le_pendingOf hwanted) q
      fun k => (h₀.board.kind k).cost
    unfold holdings
    rw [arrivalsOf_arrival, List.map_append, List.sum_append_nat, budget_congr h.board hbudgets]
    omega
  have hcollected : ∀ q, collected (journal ++ [.arrival p x.kinds f]) q = collected journal q := by
    intro q
    rw [collected_concat]
    rfl
  constructor
  · exact ha.ground.trans hkeeps
  · rw [hbudgets]
    exact ha.purses
  · simpa [receive] using ha.waiting
  · have hsize : (h.receive p x f).placed.size = h.placed.size := by simp [receive]
    rw [hsize, ha.yards]
    exact hkeeps.2.size.symm
  · intro q hq
    rw [hsame, hcollected]
    exact ha.money q hq
  · intro hrange q hq
    rw [hsame, hcollected]
    exact ha.balance hrange q hq
  · intro hrange
    exact getD_modify_forall (P := Tally.Positive) Tally.positive_empty
      ((ha.positive hrange p).foldl_spend _) (ha.positive hrange)
  · intro t
    rw [charged_concat, ← ha.charged t, placed_receive]
    unfold Posting.charge
    by_cases hft : f = t
    · subst hft
      by_cases hf : f < h.placed.size
      · simp [hf]
      · -- nothing is made beyond the map
        have hnone := factoryOutput_of_le (b := h.board) (ha.yards ▸ Nat.not_lt.1 hf)
        unfold factoryRoom at hroom
        rw [if_neg fun hboth => hf hboth.2]
        simp only [if_true]
        omega
    · simp [hft]
  · intro t
    have hold := ha.output t
    rw [factoryOutput_receive, placed_receive]
    unfold factoryRoom at hroom
    split
    · rename_i hboth
      obtain ⟨rfl, -⟩ := hboth
      omega
    · omega
  · rw [newcomers_concat, ← List.append_assoc, ← ha.roster]
    exact roster_foldl_addPiece x.kinds x.territory h.board

/-- What the budget of a player is after the end of a turn. -/
theorem budget_endTurn (h : Table) (p q : PlayerId) (hp : p = q → p < h.board.budgets.size) :
    (h.endTurn p).board.budget q =
      if p = q then wrap (h.board.budget q + h.board.income p) else h.board.budget q := by
  show ((h.board.refresh p).setBudget p _).budget q = _
  rw [budget_setBudget]
  by_cases hpq : p = q
  · subst hpq
    rw [if_pos ⟨rfl, hp rfl⟩, if_pos rfl]
    rfl
  · rw [if_neg fun hboth => hpq hboth.1, if_neg hpq]
    rfl

/-- The end of a turn collects the income and clears the yards. -/
theorem endTurn (ha : Audited inRange h₀ h journal) (p : PlayerId) :
    Audited (inRange ∧ AreWords (h.sums (.endTurn p))) h₀ (h.endTurn p)
      (journal ++ [.income p (h.board.income p)]) := by
  have hnone : ∀ t, (h.endTurn p).placed.getD t 0 = 0 := by
    intro t
    simp only [Table.endTurn, Array.getD_eq_getD_getElem?, Array.getElem?_map]
    cases h.placed[t]? with
    | none => rfl
    | some n => rfl
  constructor
  · exact ha.ground.trans (endTurn_keeps p ha.ground.1)
  · simpa [Table.endTurn, Board.setBudget, Board.refresh] using ha.purses
  · exact ha.waiting
  · simpa [Table.endTurn, Board.setBudget, Board.refresh] using ha.yards
  · -- the income is collected by the player alone
    intro q hq
    have hmoney := ha.money q hq
    unfold holdings at hmoney ⊢
    rw [budget_endTurn h p q fun hpq => hpq ▸ ha.purses.symm ▸ hq, arrivalsOf_income,
      collected_concat]
    show wrap (_ + (h.pendingOf q).cost _ + _) =
      wrap (_ + (_ + if p = q then h.board.income p else 0))
    simp only [wrap_eq] at hmoney ⊢
    split
    · omega
    · omega
  · rintro ⟨hrange, hwords⟩ q hq
    -- nor does it wrap around where the sum is a word
    have hmoney := ha.balance hrange q hq
    simp only [sums, areWords_cons] at hwords
    obtain ⟨-, hfits, -⟩ := hwords
    unfold holdings at hmoney ⊢
    rw [budget_endTurn h p q fun hpq => hpq ▸ ha.purses.symm ▸ hq, arrivalsOf_income,
      collected_concat]
    show _ + (h.pendingOf q).cost _ + _ = _ + (_ + if p = q then h.board.income p else 0)
    by_cases hpq : p = q
    · subst hpq
      rw [if_pos rfl, if_pos rfl, wrap_of_lt hfits]
      omega
    · rw [if_neg hpq, if_neg hpq]
      omega
  · exact fun hrange => ha.positive hrange.1
  · intro t
    rw [hnone, charged_concat]
    rfl
  · intro t
    rw [hnone]
    exact Nat.zero_le _
  · rw [newcomers_concat]
    show (h.endTurn p).board.roster = h₀.board.roster ++ (newcomers journal ++ [])
    rw [List.append_nil, ← ha.roster]
    apply roster_of_pieces (size_endTurn h p)
    intro u q' hq'
    obtain ⟨q, hq, hpost⟩ := of_piece?_endTurn hq'
    exact ⟨q, hq, hpost.kind, hpost.owner⟩

/-- What writes nothing in the journal leaves it as it is. -/
theorem unposted {h₁ : Table} {c : Command} (hnone : h₁.posting? c = none)
    (ha : Audited inRange h₀ h journal) :
    Audited inRange h₀ h (journal ++ (h₁.posting? c).toList) := by
  rw [hnone, Option.toList_none, List.append_nil]
  exact ha

/-- One command keeps the books, whether it is taken or not, and to the point if none of its sums
wraps around. -/
theorem obey (ha : Audited inRange h₀ h journal) (c : Command) :
    Audited (inRange ∧ h.overflows c = false) h₀ (h.obey c)
      (journal ++ (h.posting? c).toList) := by
  have hwords : ∀ h', h.answer c = .ok h' → h.overflows c = false → AreWords (h.sums c) := by
    intro h' htaken hfits
    exact areWords_of_not_overflows htaken hfits
  unfold Table.obey
  -- what a command does to the books it writes in the journal, if it is taken
  cases c with
  | move p o =>
    refine unposted rfl ?_
    cases htaken : h.answer (.move p o) with
    | error e => exact ha.mono And.left
    | ok h' => exact (ha.move htaken).mono And.left
  | purchase p bought =>
    refine unposted rfl ?_
    cases htaken : h.answer (.purchase p bought) with
    | error e => exact ha.mono And.left
    | ok h' =>
      exact (ha.purchase htaken).mono fun hboth => ⟨hboth.1, hwords h' htaken hboth.2⟩
  | placement p x =>
    cases htaken : h.answer (.placement p x) with
    | error e =>
      have hrefused : h.submitPlacement p x = .error e := htaken
      have hnone : h.posting? (.placement p x) = none := by
        simp only [posting?, hrefused]
      exact unposted hnone (ha.mono And.left)
    | ok h' =>
      have hplaced : h.submitPlacement p x = .ok h' := htaken
      obtain ⟨hwanted, f, hcharged, hroom, rfl⟩ := submitPlacement_ok_iff.1 hplaced
      have hsome : h.posting? (.placement p x) = some (.arrival p x.kinds f) := by
        simp only [posting?, hplaced, hcharged]
      rw [hsome]
      exact (ha.placement hwanted hcharged hroom).mono And.left
  | beginEpoch p e =>
    refine unposted rfl ?_
    exact ⟨ha.ground, ha.purses, ha.waiting, ha.yards, ha.money, fun hrange => ha.balance hrange.1,
      fun hrange => ha.positive hrange.1, ha.charged, ha.output, ha.roster⟩
  | endTurn p => exact (ha.endTurn p).mono fun hboth => ⟨hboth.1, hwords _ rfl hboth.2⟩

/-- A whole game keeps the books, and to the point if it is in range. -/
theorem play (ha : Audited inRange h₀ h journal) (commands : List Command) :
    Audited (inRange ∧ h.isInRange commands = true) h₀ (h.play commands)
      (journal ++ h.journal commands) := by
  unfold Table.play
  induction commands generalizing h journal inRange with
  | nil =>
    rw [Table.journal, List.append_nil]
    exact ha.mono And.left
  | cons c rest ih =>
    rw [Table.journal, ← List.append_assoc]
    refine (ih (ha.obey c)).mono ?_
    rintro ⟨hrange, hall⟩
    exact and_assoc.2 ⟨hrange, isInRange_cons.1 hall⟩

end Audited

end Table

namespace Scenario

open Board Table

variable {s : Scenario}

/-- Every player begins with the budget of the scenario. -/
theorem setUp_budgets {h : Table} (hset : s.setUp = .ok h) :
    h.board.budgets = (s.players.map (·.budget)).toArray ∧
      h.board.players.size = s.players.length := by
  obtain ⟨empty, hempty, hregrouped⟩ := board_regrouped (setUp_board hset).1
  obtain ⟨atlas, players, -, hplayers, rfl⟩ := emptyBoard_ok hempty
  constructor
  · exact hregrouped.budgets
  · rw [hregrouped.players]
    have hlength := (mapM_forall₂ hplayers).length_eq
    rw [List.length_zipIdx] at hlength
    exact hlength.symm

/-- The books of a game are opened when it is set up. -/
theorem audited_setUp {h : Table} (hset : s.setUp = .ok h) : Audited True h h [] := by
  obtain ⟨hbudgets, hplayers⟩ := setUp_budgets hset
  have hfirst := (setUp_board hset).2
  have hpending : ∀ q, h.pendingOf q = .empty := by
    intro q
    rw [hfirst]
    simp only [pendingOf, ofBoard, Array.getD_eq_getD_getElem?, Array.getElem?_replicate]
    split
    · rfl
    · rfl
  have hopening : ∀ q, holdings h h [] q = h.board.budget q + collected [] q := by
    intro q
    unfold holdings
    rw [hpending]
    rfl
  have hplaced : ∀ t, h.placed.getD t 0 = 0 := by
    intro t
    rw [hfirst]
    simp only [ofBoard, Array.getD_eq_getD_getElem?, Array.getElem?_replicate]
    split
    · rfl
    · rfl
  -- nothing waits, nothing was placed, and the journal is empty
  constructor
  · exact ⟨setUp_sound hset, .refl h.board⟩
  · rfl
  · rw [hfirst]
    show (Array.replicate _ _).size = h.board.budgets.size
    rw [Array.size_replicate, hplayers, hbudgets]
    simp
  · rw [hfirst]
    exact Array.size_replicate
  · intro q _
    rw [hopening]
  · intro _ q _
    exact hopening q
  · intro _ q
    rw [hpending]
    exact Tally.positive_empty
  · exact hplaced
  · intro t
    rw [hplaced]
    exact Nat.zero_le _
  · exact (List.append_nil _).symm

/-- The books of every game. Whatever commands were given, taken or refused: as words, what a player
has, what it has paid for its pieces that wait and what it has paid for the pieces that arrived make
up its first budget and the income it collected; the pieces that arrived are just those on the board
that were not there at first; and since the last end of a turn no more pieces were charged to a
territory than it produces, or none if it has no factory. If no sum of the game wraps around, the
money is right to the point, and no entry of what waits is zero. -/
theorem play_audited (s : Scenario) (h₀ : Table) (hset : s.setUp = .ok h₀)
    (commands : List Command) :
    (∀ p spec, s.players[p]? = some spec →
      wrap (holdings h₀ (h₀.play commands) (h₀.journal commands) p) =
        wrap (spec.budget.toNat + collected (h₀.journal commands) p) ∧
      (h₀.isInRange commands = true →
        holdings h₀ (h₀.play commands) (h₀.journal commands) p =
          spec.budget.toNat + collected (h₀.journal commands) p)) ∧
    (h₀.play commands).board.roster = h₀.board.roster ++ newcomers (h₀.journal commands) ∧
    (h₀.isInRange commands = true →
      ∀ p, ∀ e ∈ ((h₀.play commands).pendingOf p).entries, 0 < e.2) ∧
    ∀ t, (h₀.play commands).placed.getD t 0 = charged (h₀.journal commands) t ∧
      charged (h₀.journal commands) t ≤
        if (h₀.board.territory t).hasFactory then (h₀.board.territory t).production else 0 := by
  have ha := (audited_setUp hset).play commands
  rw [List.nil_append] at ha
  refine ⟨?_, ha.roster, fun hrange => ha.positive ⟨trivial, hrange⟩, ?_⟩
  · intro p spec hspec
    obtain ⟨hbudgets, -⟩ := setUp_budgets hset
    have hsize : p < h₀.board.budgets.size := by
      rw [hbudgets]
      simpa using (List.getElem?_eq_some_iff.1 hspec).1
    have hfirst : h₀.board.budget p = spec.budget.toNat := by
      rw [Board.budget, hbudgets]
      simp [Array.getD_eq_getD_getElem?, hspec]
    rw [← hfirst]
    exact ⟨ha.money p hsize, fun hrange => ha.balance ⟨trivial, hrange⟩ p hsize⟩
  · intro t
    constructor
    · exact ha.charged t
    · rw [← ha.charged t]
      -- what a territory produces does not change in a game
      have houtput := ha.output t
      rw [ha.ground.2.factoryOutput] at houtput
      exact houtput

/-- Red owns a port that makes two pieces a turn. -/
def freePort : Scenario where
  players := [{ name := "Red", budget := 12 }]
  territories := [
    { name := "Port", owner := some "Red", production := 2, factory := true },
    { name := "Bay", water := true }]
  connections := [("Port", "Bay")]
  kinds := [
    { name := "infantry", cost := 3 },
    { name := "transport", domain := .sea, movement := 2, cost := 7, transportCapacity := 4 }]

/-- Two infantry are bought and one is placed; the transport is too dear before the end of the turn
and is bought and placed after it. -/
def thriftyTurns : List Command := [
  .purchase 0 (.ofKinds [0, 0]), .placement 0 ⟨0, [0]⟩, .purchase 0 (.ofKinds [1]), .endTurn 0,
  .purchase 0 (.ofKinds [1]), .placement 0 ⟨1, [1]⟩]

set_option maxRecDepth 100000 in
/-- One point is left, one infantry waits, and pieces for ten points have arrived: that is the first
budget and the income of one turn. -/
theorem play_audited_freePort : ∃ h, freePort.setUp = .ok h ∧
    h.journal thriftyTurns = [.arrival 0 [0] 0, .income 0 2, .arrival 0 [1] 0] ∧
    (h.play thriftyTurns).pendingOf 0 = .ofKinds [0] ∧
    (h.play thriftyTurns).board.budget 0 + 3 + 10 = 12 + 2 := by
  have hpass : freePort.setUp.toOption.any (fun h => h.isInRange thriftyTurns && decide (
      h.journal thriftyTurns = [.arrival 0 [0] 0, .income 0 2, .arrival 0 [1] 0] ∧
      (h.play thriftyTurns).pendingOf 0 = .ofKinds [0] ∧
      (h.board.kind 0).cost = 3 ∧ (h.board.kind 1).cost = 7)) = true := by
    decide +kernel
  obtain ⟨h, hset, hcheck⟩ := exists_setUp hpass
  obtain ⟨hrange, hfacts⟩ := Bool.and_eq_true_iff.1 hcheck
  obtain ⟨hjournal, hpending, hinfantry, htransport⟩ := of_decide_eq_true hfacts
  obtain ⟨hmoney, -⟩ := play_audited freePort h hset thriftyTurns
  have hred := (hmoney 0 { name := "Red", budget := 12 } rfl).2 hrange
  unfold holdings at hred
  rw [hjournal, hpending] at hred
  have hwaiting : (Tally.ofKinds [0]).cost (fun k => (h.board.kind k).cost) = 3 := by
    show (h.board.kind 0).cost * 1 + 0 = 3
    omega
  have harrived : ((arrivalsOf [.arrival 0 [0] 0, .income 0 2, .arrival 0 [1] 0] 0).map
      fun k => (h.board.kind k).cost).sum = 10 := by
    show (h.board.kind 0).cost + ((h.board.kind 1).cost + 0) = 10
    omega
  rw [hwaiting, harrived] at hred
  exact ⟨h, hset, hjournal, hpending, hred⟩

/-- A third of all words and a little more. -/
def bargain : List Command := [.purchase 0 (Tally.empty.add 0 1431655766)]

set_option maxRecDepth 100000 in
/-- So many infantry cost 4294967298 points, of which a word keeps two: Red pays two of its twelve
points, has collected nothing, and all the infantry wait. -/
theorem play_defrauded : ∃ h, freePort.setUp = .ok h ∧
    (h.play bargain).board.budget 0 = 10 ∧ ((h.play bargain).pendingOf 0).count 0 = 1431655766 ∧
    ((h.play bargain).pendingOf 0).cost (fun k => (h.board.kind k).cost) = 4294967298 ∧
    h.journal bargain = [] ∧ h.board.budget 0 = 12 := by
  have hpass : freePort.setUp.toOption.any (fun h => decide (
      (h.play bargain).board.budget 0 = 10 ∧
      ((h.play bargain).pendingOf 0).count 0 = 1431655766 ∧
      ((h.play bargain).pendingOf 0).cost (fun k => (h.board.kind k).cost) = 4294967298 ∧
      h.journal bargain = [] ∧ h.board.budget 0 = 12)) = true := by
    decide +kernel
  obtain ⟨h, hset, hcheck⟩ := exists_setUp hpass
  exact ⟨h, hset, of_decide_eq_true hcheck⟩

end Scenario

end Conquest
