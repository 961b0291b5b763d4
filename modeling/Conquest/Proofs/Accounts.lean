import Conquest.Proofs.Play
import Conquest.Proofs.Run
import Conquest.Table.Fickle

/-!
# The books of an epoch balance

Over all phases of an epoch no piece is named twice, every named piece is in the ledger, and every
piece that the ledger has as moved is named by one order, or was aboard a transport that is named,
or bombards from where it stands. It does not matter which orders the host takes.

* `Accounted`: the books after some phases; `Accounted.step`: what one phase adds to them.
* `runEpoch_accounts`: the books after an epoch.
-/

namespace Conquest

/-- What is named is named by exactly one order. -/
theorem length_filter_of_named {orders : List Order} (h : (named orders).Nodup) {u : PieceId}
    (hu : u ∈ named orders) : (orders.filter fun o => o.pieces.contains u).length = 1 := by
  induction orders with
  | nil => cases hu
  | cons o rest ih =>
    rw [named_cons, List.nodup_append] at h
    rcases h with ⟨-, hrest, hdisjoint⟩
    rw [named_cons, List.mem_append] at hu
    -- no later order names it if the first does
    by_cases ho : u ∈ o.pieces
    · have hnone : (rest.filter fun o => o.pieces.contains u) = [] := by
        rw [List.filter_eq_nil_iff]
        intro x hx hin
        have hnamed : u ∈ named rest := List.mem_flatMap.2 ⟨x, hx, List.contains_iff_mem.1 hin⟩
        exact hdisjoint u ho u hnamed rfl
      rw [List.filter_cons, if_pos (List.contains_iff_mem.2 ho), hnone]
      rfl
    · rw [List.filter_cons, if_neg fun hin => ho (List.contains_iff_mem.1 hin)]
      exact ih hrest (hu.resolve_left ho)

/-- The fickle table is as steady as the table. -/
theorem Fickle.steady : Host.Steady fun h : Fickle => h.table.board.Sound := by
  refine ⟨fun _ hh => hh, fun _ _ _ hh => hh, ?_⟩
  intro h p o h' hsound htaken
  have htaken : h.submitMove p o = .ok h' := htaken
  -- what the whim refuses changes nothing, the rest is up to the table
  unfold submitMove at htaken
  split at htaken
  · cases htaken
  · cases hmove : h.table.submitMove p o with
    | error refusal =>
      rw [hmove] at htaken
      cases htaken
    | ok table =>
      rw [hmove] at htaken
      cases htaken
      exact (Table.submitMove_effect hsound hmove).sound

namespace Campaign

variable {η : Type} [Host η] {good : η → Prop}

/-- The orders of some phases. -/
def ordersOf (records : List PhaseRecord) : List Order := records.flatMap (·.orders)

/-- A piece that moves without being named: cargo of a transport that its phase names, or a
bombarding ship next to a territory that has been attacked. -/
def MovesUnnamed (p : PlayerId) (records : List PhaseRecord) (attacked : List TerritoryId)
    (u : PieceId) : Prop :=
  ∃ r ∈ records, (∃ ship ∈ named r.orders, u ∈ r.board.cargoOf ship) ∨
    r.board.BombardsSome p attacked u

/-- The books after some phases of an epoch. -/
structure Accounted (p : PlayerId) (records : List PhaseRecord) (s : Campaign η) : Prop where
  nodup : (named (ordersOf records)).Nodup
  moved : ∀ u ∈ named (ordersOf records), (u, Commitment.moved) ∈ s.desk.ledger.entries
  accounts : ∀ u, (u, Commitment.moved) ∈ s.desk.ledger.entries →
    u ∈ named (ordersOf records) ∨ MovesUnnamed p records s.desk.context.attacked u

omit [Host η] in
theorem accounted_nil (p : PlayerId) {s : Campaign η} (h : s.desk.ledger.entries = []) :
    Accounted p [] s := by
  refine ⟨List.nodup_nil, ?_, ?_⟩
  · intro u hu
    cases hu
  · intro u hu
    rw [h] at hu
    cases hu

theorem named_ordersOf_concat (records : List PhaseRecord) (r : PhaseRecord) :
    named (ordersOf (records ++ [r])) = named (ordersOf records) ++ named r.orders := by
  simp [ordersOf]

theorem MovesUnnamed.mono {p : PlayerId} {records : List PhaseRecord} {r : PhaseRecord}
    {attacked attacked' : List TerritoryId} {u : PieceId} (h : MovesUnnamed p records attacked u)
    (hsub : attacked ⊆ attacked') : MovesUnnamed p (records ++ [r]) attacked' u := by
  rcases h with ⟨x, hx, haboard | ⟨t, ht, hbombards⟩⟩
  · exact ⟨x, List.mem_append_left _ hx, .inl haboard⟩
  · exact ⟨x, List.mem_append_left _ hx, .inr ⟨t, hsub ht, hbombards⟩⟩

/-- A phase keeps the books. -/
theorem Accounted.step {p : PlayerId} {e : Epoch} {phase : Phase} {s s' : Campaign η}
    {records : List PhaseRecord} {r : PhaseRecord} (hgood : Host.Steady good) (hs : good s.host)
    (hsits : Sits p e s) (h : Accounted p records s) (hran : Ran phase s s' r) :
    Accounted p (records ++ [r]) s' := by
  -- the ledger keeps its entries and gains those of the phase
  rcases hran.works.drafts.entries with ⟨added, hadded, htaken, haccounts⟩
  have hboard : r.board.Sound := hran.board ▸ hgood.sound _ hs
  have hleft : ∀ x ∈ s.desk.ledger.entries, x ∈ s'.desk.ledger.entries := fun x hx =>
    hadded ▸ List.mem_append_left _ hx
  have hright : ∀ x ∈ added, x ∈ s'.desk.ledger.entries := fun x hx =>
    hadded ▸ List.mem_append_right _ hx
  constructor
  · rw [named_ordersOf_concat, List.nodup_append]
    refine ⟨h.nodup, hran.works.drafts.nodup_named, ?_⟩
    intro u hu w hw huw
    refine hran.works.drafts.named_free (huw ▸ hw) ?_
    exact List.mem_map.2 ⟨_, h.moved u hu, rfl⟩
  · intro u hu
    rw [named_ordersOf_concat] at hu
    rcases List.mem_append.1 hu with hu | hu
    · exact hleft _ (h.moved u hu)
    · exact hright _ (htaken u hu)
  · intro u hu
    rw [named_ordersOf_concat, List.mem_append]
    rw [hadded] at hu
    rcases List.mem_append.1 hu with hu | hu
    · rcases h.accounts u hu with hnamed | hunnamed
      · exact .inl (.inl hnamed)
      · exact .inr (hunnamed.mono hran.works.attacked)
    · rcases haccounts hboard u hu with hnamed | haboard | hspot
      · exact .inl (.inr hnamed)
      · exact .inr ⟨r, List.mem_append_right _ (List.mem_singleton_self r), .inl haboard⟩
      · refine .inr ⟨r, List.mem_append_right _ (List.mem_singleton_self r), .inr ?_⟩
        exact hsits.player ▸ hspot

/-- Over all phases of an epoch on any board that can be reached, whichever orders the host takes:
no piece is named twice, what is named is moved, and what is moved is named by exactly one order or
moves unnamed. An attempt that is given up leaves the desk as it was. -/
theorem runEpoch_accounts (s : Scenario) (h : Table) (hset : s.setUp = .ok h)
    (commands : List Command) (whim : Table → PlayerId → Order → Option Rejection) (desk : Desk)
    (e : Epoch) (record : EpochRecord) (last : Campaign Fickle)
    (hrun : runEpoch e ⟨⟨h.play commands, whim⟩, desk⟩ = .ok record last) :
    (named record.orders).Nodup ∧
    (∀ u ∈ named record.orders, u ∈ last.desk.ledger.moved) ∧
    (∀ u ∈ last.desk.ledger.moved,
      (record.orders.filter fun o => o.pieces.contains u).length = 1 ∨
      MovesUnnamed desk.context.player record.phases last.desk.context.attacked u) ∧
    ∀ b objective need branches accept (d d' : Desk),
      Drafting.attempt b objective need branches accept d = .ok none d' → d' = d := by
  rcases Table.play_keeps (Scenario.setUp_sound hset) commands with ⟨hsound, -⟩
  have hkeeps := runEpoch_keeps Fickle.steady (s := ⟨⟨h.play commands, whim⟩, desk⟩)
    (J := Accounted desk.context.player) hsound e (accounted_nil _ rfl)
    fun phase _ s₁ s₂ records r hs₁ hsits hbooks hran =>
      hbooks.step Fickle.steady hs₁ hsits hran
  unfold Ensures at hkeeps
  rw [hrun] at hkeeps
  rcases hkeeps with ⟨-, hbooks, -⟩
  have hmoved : ∀ u, u ∈ last.desk.ledger.moved ↔
      (u, Commitment.moved) ∈ last.desk.ledger.entries := by
    intro u
    unfold Ledger.moved
    simp
  refine ⟨hbooks.nodup, fun u hu => (hmoved u).2 (hbooks.moved u hu), ?_, ?_⟩
  · intro u hu
    -- no piece is named twice, so what is named is named by one order
    have haccounts := hbooks.accounts u ((hmoved u).1 hu)
    exact haccounts.imp (length_filter_of_named hbooks.nodup) id
  · intro b objective need branches accept d d' hnone
    exact Drafting.eq_of_attempt hnone

end Campaign

/-! ## A landing -/

/-- A loaded transport and a cruiser lie off a defended coast. -/
def landing : Scenario where
  players := [{ name := "Red" }, { name := "Blue", team := 1 }]
  territories := [
    { name := "Home", owner := some "Red" }, { name := "Coast", owner := some "Blue" },
    { name := "Bay", water := true }]
  connections := [("Home", "Bay"), ("Bay", "Coast")]
  kinds := [
    { name := "infantry", attack := 1, defense := 2, cost := 3, transportCost := 2 },
    { name := "transport", domain := .sea, movement := 2, cost := 7, transportCapacity := 4 },
    { name := "cruiser", domain := .sea, attack := 3, defense := 3, movement := 2, cost := 12,
      canBombard := true }]
  pieces := [
    { kind := "transport", owner := "Red", place := "Bay" },
    { kind := "cruiser", owner := "Red", place := "Bay" },
    { kind := "infantry", owner := "Blue", place := "Coast" },
    { kind := "infantry", owner := "Red", place := "Bay", count := 2 }]

/-- The whim to keep one piece from moving. -/
def holdsBack (u : PieceId) (_ : Table) (_ : PlayerId) (o : Order) : Option Rejection :=
  if o.pieces.contains u then some .emptyOrder else none

namespace Campaign

set_option maxRecDepth 100000 in
/-- The transport is named, its cargo lands with it and the cruiser bombards, although the host
refuses the landing. -/
theorem runEpoch_accounts_landing :
    ∃ (h : Table) (record : EpochRecord) (last : Campaign Fickle), landing.setUp = .ok h ∧
      runEpoch .combat ⟨⟨h.play [], holdsBack 0⟩, .fresh h.board 0 {}⟩ = .ok record last ∧
      named record.orders = [0] ∧ last.desk.ledger.moved = [0, 3, 4, 1] ∧
      ∀ u ∈ [0, 3, 4, 1], (record.orders.filter fun o => o.pieces.contains u).length = 1 ∨
        MovesUnnamed 0 record.phases last.desk.context.attacked u := by
  have hpass : (landing.setUp.toOption.any fun h =>
      endsWith (fun record last =>
          decide (named record.orders = [0] ∧ last.desk.ledger.moved = [0, 3, 4, 1]))
        (runEpoch .combat) ⟨(⟨h.play [], holdsBack 0⟩ : Fickle), .fresh h.board 0 {}⟩) = true := by
    decide +kernel
  obtain ⟨h, hset, hends⟩ := Scenario.exists_setUp hpass
  obtain ⟨record, last, hrun, hcheck⟩ := exists_of_endsWith hends
  rcases of_decide_eq_true hcheck with ⟨hnamed, hmoved⟩
  have hbooks := (runEpoch_accounts landing h hset [] (holdsBack 0) (.fresh h.board 0 {})
    .combat record last hrun).2.2.1
  rw [hmoved] at hbooks
  exact ⟨h, record, last, hset, hrun, hnamed, hmoved, hbooks⟩

end Campaign

end Conquest
