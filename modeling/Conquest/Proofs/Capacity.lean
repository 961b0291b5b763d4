import Conquest.Proofs.Effects
import Conquest.Proofs.Sums

/-!
# Room aboard after loading

What a piece takes up aboard depends on its kind alone, and kinds never change. So loading a party
takes from the room of its transport what the party takes up, and nothing from other ships.

* `Board.After.cargoCost`: the cost of cargo is the same after orders.
* `Table.freeCapacity_load`: the room aboard the ships after a party has embarked.
-/

namespace Conquest

open Board Table

variable {p : PlayerId} {b b' : Board}

/-! ## The cost of cargo -/

namespace Table

@[simp] theorem cargoCost_append (b : Board) (us vs : List PieceId) :
    cargoCost b (us ++ vs) = cargoCost b us + cargoCost b vs := by
  simp [cargoCost, sumOf_eq]

theorem cargoCost_cons (b : Board) (u : PieceId) (us : List PieceId) :
    cargoCost b (u :: us) =
      (((b.asset? u).map (·.kind.transportCost)).getD 0) + cargoCost b us := by
  unfold cargoCost
  cases hu : b.asset? u with
  | none => simp [hu]
  | some a => simp [hu, sumOf_eq]

/-- Fewer pieces take up less. -/
theorem cargoCost_le (b : Board) {us vs : List PieceId} (hus : us.Nodup) (hsub : us ⊆ vs) :
    cargoCost b us ≤ cargoCost b vs := by
  rcases List.subperm_of_subset hus hsub with ⟨ws, hperm, hws⟩
  unfold cargoCost
  rw [sumOf_eq, sumOf_eq, ← List.Perm.sum_nat ((hperm.filterMap _).map _)]
  exact List.Sublist.sum_le_sum ((hws.filterMap _).map _) fun _ _ => Nat.zero_le _

/-- What pieces take up depends on the cost of their kinds alone. -/
theorem cargoCost_congr {us : List PieceId}
    (h : ∀ u ∈ us, (b'.asset? u).map (·.kind.transportCost) =
      (b.asset? u).map (·.kind.transportCost)) : cargoCost b' us = cargoCost b us := by
  induction us with
  | nil => rfl
  | cons u rest ih =>
    rw [List.forall_mem_cons] at h
    rw [cargoCost_cons, cargoCost_cons, h.1, ih h.2]

end Table

/-- What pieces take up aboard is the same after orders. -/
theorem Board.After.cargoCost (h : After p b b') (us : List PieceId) :
    Table.cargoCost b' us = Table.cargoCost b us := by
  refine cargoCost_congr fun u _ => ?_
  unfold asset?
  cases hq : b.piece? u with
  | some q =>
    rcases h.piece_to hq with ⟨q', hq', hkind, -⟩
    rw [hq']
    simp [h.kind, hkind]
  | none =>
    -- no piece appears that was not there
    have hnone : b'.piece? u = none := by
      cases hq' : b'.piece? u with
      | none => rfl
      | some q' =>
        rcases h.piece u q' hq' with ⟨q, hq₀, -⟩
        rw [hq] at hq₀
        cases hq₀
    rw [hnone]
    rfl

/-! ## Embarking -/

namespace Table

/-- What embarking a party does to a piece. -/
theorem of_piece?_foldl_embark {transport : PieceId} {route : Route} {us : List PieceId}
    (hb : b.Sound) (hus : ∀ u ∈ us, Boards p transport route.dest u b) {w : PieceId} {x' : Piece}
    (hx' : (us.foldl (embark transport route) b).piece? w = some x') :
    ∃ x, b.piece? w = some x ∧ x'.carrier = if w ∈ us then some transport else x.carrier := by
  induction us generalizing b with
  | nil => exact ⟨x', hx', by simp⟩
  | cons u rest ih =>
    rw [List.forall_mem_cons] at hus
    rcases hus with ⟨hu, hrest⟩
    have heffect := effect_embark hb hu
    rcases hu.passenger with ⟨q, hq, -⟩
    rcases ih heffect.sound (fun v hv => hu.embark hb (hrest v hv)) hx' with ⟨y, hy, hcarrier⟩
    rcases of_piece?_embark hb hq transport route hy with ⟨x, hx, -, -, hcarrier', -⟩
    refine ⟨x, hx, ?_⟩
    rw [hcarrier, hcarrier']
    -- one that is listed again goes aboard the same transport
    by_cases hw : w ∈ rest
    · simp [hw]
    · by_cases hwu : w = u
      · simp [hwu]
      · simp [hw, hwu]

/-- What is aboard a ship after a party has embarked: what was aboard, and the party if it is the
ship that the party went to. Nothing is aboard twice, and nothing that was aboard has left. -/
theorem cargoOf_foldl_embark {transport ship : PieceId} {route : Route} {us : List PieceId}
    {a : Asset} (hb : b.Sound) (hus : ∀ u ∈ us, Boards p transport route.dest u b)
    (hship : b.asset? ship = some a) (hsea : a.kind.isSea = true) :
    ((us.foldl (embark transport route) b).cargoOf ship).Nodup ∧
      (us.foldl (embark transport route) b).cargoOf ship ⊆
        b.cargoOf ship ++ (if transport = ship then us else []) ∧
      b.cargoOf ship ⊆ (us.foldl (embark transport route) b).cargoOf ship := by
  have heffect := effect_foldl_embark hb hus
  rcases asset?_eq_some.1 hship with ⟨hpiece, hkind⟩
  rcases heffect.after.piece_to hpiece with ⟨q', hq', hkind', -⟩
  set loaded := us.foldl (embark transport route) b with hloaded
  have hsea' : (loaded.kind q'.kind).isSea = true := by
    rw [heffect.after.kind, hkind', ← hkind]
    exact hsea
  refine ⟨heffect.sound.nodup_cargoOf hq' hsea', ?_, ?_⟩
  · intro w hw
    rcases (heffect.sound.mem_cargoOf hq' hsea').1 hw with ⟨x', hx', hcarrier'⟩
    rcases of_piece?_foldl_embark hb hus hx' with ⟨x, hx, hcarrier⟩
    rw [hcarrier'] at hcarrier
    rw [List.mem_append]
    by_cases hin : w ∈ us
    · rw [if_pos hin, Option.some.injEq] at hcarrier
      rw [if_pos hcarrier.symm]
      exact .inr hin
    · rw [if_neg hin] at hcarrier
      have hbefore : w ∈ b.cargoOf ship :=
        (hb.mem_cargoOf hpiece (hkind ▸ hsea)).2 ⟨x, hx, hcarrier.symm⟩
      exact .inl hbefore
  · intro w hw
    rcases (hb.mem_cargoOf hpiece (hkind ▸ hsea)).1 hw with ⟨x, hx, hcarrier⟩
    rcases heffect.after.piece_to hx with ⟨x', hx', -⟩
    rcases of_piece?_foldl_embark hb hus hx' with ⟨x₀, hx₀, hcarrier'⟩
    rw [hx, Option.some.injEq] at hx₀
    subst hx₀
    refine (heffect.sound.mem_cargoOf hq' hsea').2 ⟨x', hx', hcarrier'.trans ?_⟩
    by_cases hin : w ∈ us
    · -- a passenger that was aboard already was aboard the same transport
      rcases (hus w hin).passenger with ⟨q, hq, -, -, hnone | ⟨hsame, -⟩⟩
      · rw [hx, Option.some.injEq] at hq
        rw [← hq, hcarrier] at hnone
        cases hnone
      · rw [hx, Option.some.injEq] at hq
        rw [if_pos hin, ← hsame, ← hq, hcarrier]
    · rw [if_neg hin, hcarrier]

/-- The room aboard a ship. -/
theorem freeCapacity_eq {ship : PieceId} {a : Asset} (hship : b.asset? ship = some a) :
    b.freeCapacity ship = a.kind.transportCapacity - wrap (cargoCost b (b.cargoOf ship)) := by
  unfold freeCapacity
  rw [hship]
  rfl

/-- Loading takes from the room of a ship at most what embarks there. -/
theorem freeCapacity_load {transport ship : PieceId} {route : Route} {us : List PieceId} {a : Asset}
    (hb : b.Sound) (hus : ∀ u ∈ us, Boards p transport route.dest u b)
    (hship : b.asset? ship = some a) (hsea : a.kind.isSea = true) :
    b.freeCapacity ship ≤ (us.foldl (embark transport route) b).freeCapacity ship +
      if transport = ship then cargoCost b us else 0 := by
  have heffect := effect_foldl_embark hb hus
  rcases cargoOf_foldl_embark hb hus hship hsea with ⟨hnodup, hcargo, hstays⟩
  set loaded := us.foldl (embark transport route) b with hloaded
  rcases asset?_eq_some.1 hship with ⟨hpiece, hkind⟩
  rcases heffect.after.piece_to hpiece with ⟨q', hq', hkind', -⟩
  have hasset : loaded.asset? ship = some ⟨q', a.kind⟩ := by
    refine asset?_eq_some.2 ⟨hq', ?_⟩
    rw [heffect.after.kind, hkind', hkind]
  have hcost : cargoCost b (loaded.cargoOf ship) ≤
      cargoCost b (b.cargoOf ship) + if transport = ship then cargoCost b us else 0 := by
    refine (cargoCost_le b hnodup hcargo).trans (Nat.le_of_eq ?_)
    rw [cargoCost_append]
    split
    · rfl
    · rfl
  -- the sum only grows, so it wraps around no sooner than what was added to it
  have hgrows : cargoCost b (b.cargoOf ship) ≤ cargoCost b (loaded.cargoOf ship) :=
    cargoCost_le b (hb.nodup_cargoOf hpiece (hkind ▸ hsea)) hstays
  have hwrap := wrap_add_le (cargoCost b (b.cargoOf ship))
    (cargoCost b (loaded.cargoOf ship) - cargoCost b (b.cargoOf ship))
  rw [Nat.add_sub_cancel' hgrows] at hwrap
  -- cargo space belongs to the kind of the ship, which does not change
  rw [freeCapacity_eq hship, freeCapacity_eq hasset, heffect.after.cargoCost]
  show a.kind.transportCapacity - _ ≤ a.kind.transportCapacity - _ + _
  omega

end Table

end Conquest
