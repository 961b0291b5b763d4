import Conquest.Proofs.Play
import Conquest.Proofs.Sums
import Conquest.Table.Marches

/-!
# No piece outruns its movement

What a piece has been ordered to march in a turn of its owner and what movement it has left make up
no more than the movement of its kind. An order asks every piece that it names for the steps that it
makes it take, and takes at least these from it, also if it names a piece twice; what is aboard a
piece that goes somewhere pays nothing, and what goes ashore loses the rest.

* `Board.Spends`: what orders take from the movement of pieces; `Table.spends_submitMove`: an order
  that is taken.
* `Board.Paced`: no piece has outrun its movement; `Table.paced_answer`: one command;
  `Table.paced_play`: a whole game.
* `Scenario.play_marched`: every piece in every game.
-/

namespace Conquest

/-- A piece that has paid at least `n` movement points, and has not changed in kind or owner. -/
structure Piece.Spent (n : Nat) (q q' : Piece) : Prop where
  kind : q'.kind = q.kind
  owner : q'.owner = q.owner
  left : q'.movementLeft ≤ q.movementLeft - n

/-! ## Marches -/

section Marched

variable (turn : List Order) (o : Order) (u : PieceId)

@[simp] theorem marched_nil : marched [] u = 0 := rfl

theorem marched_concat :
    marched (turn ++ [o]) u = marched turn u + if u ∈ o.pieces then o.stride else 0 := by
  unfold marched
  rw [sumOf_eq, sumOf_eq]
  by_cases hu : u ∈ o.pieces
  · simp [hu]
  · simp [hu]

end Marched

namespace Board

variable {b b' b'' : Board} {us vs : List PieceId} {n : Nat} {u : PieceId} {p : PlayerId}

/-! ## Spending movement -/

/-- No piece has gained movement, and each of the pieces `us` has paid at least `n` points. -/
def Spends (us : List PieceId) (n : Nat) (b b' : Board) : Prop :=
  ∀ w q', b'.piece? w = some q' →
    ∃ q, b.piece? w = some q ∧ q.Spent (if w ∈ us then n else 0) q'

namespace Spends

theorem refl (n : Nat) (b : Board) : Spends [] n b b :=
  fun _ q' hq' => ⟨q', hq', rfl, rfl, by simp⟩

/-- A piece that pays twice has paid once. -/
theorem trans (h : Spends us n b b') (h' : Spends vs n b' b'') : Spends (us ++ vs) n b b'' := by
  intro w q'' hq''
  obtain ⟨q', hq', hpaid'⟩ := h' w q'' hq''
  obtain ⟨q, hq, hpaid⟩ := h w q' hq'
  refine ⟨q, hq, hpaid'.kind.trans hpaid.kind, hpaid'.owner.trans hpaid.owner, ?_⟩
  have hfirst := hpaid.left
  have hsecond := hpaid'.left
  by_cases hu : w ∈ us
  · rw [if_pos hu] at hfirst
    rw [if_pos (List.mem_append_left vs hu)]
    omega
  · by_cases hv : w ∈ vs
    · rw [if_pos hv] at hsecond
      rw [if_pos (List.mem_append_right us hv)]
      omega
    · rw [if_neg fun hin => (List.mem_append.1 hin).elim hu hv]
      omega

/-- Whatever has been paid, nobody has gained. -/
theorem forget (h : Spends us n b b') (m : Nat) : Spends [] m b b' := by
  intro w q' hq'
  obtain ⟨q, hq, hpaid⟩ := h w q' hq'
  have hleft := hpaid.left
  refine ⟨q, hq, hpaid.kind, hpaid.owner, ?_⟩
  rw [if_neg List.not_mem_nil]
  omega

theorem foldl {f : Board → PieceId → Board} (hf : ∀ b u, Spends [u] n b (f b u))
    (us : List PieceId) (b : Board) : Spends us n b (us.foldl f b) := by
  induction us generalizing b with
  | nil => exact refl n b
  | cons u rest ih => exact (hf b u).trans (ih (f b u))

theorem foldl_forget {f : Board → PieceId → Board} (hf : ∀ b u, Spends [] n b (f b u))
    (us : List PieceId) (b : Board) : Spends [] n b (us.foldl f b) := by
  induction us generalizing b with
  | nil => exact refl n b
  | cons u rest ih => exact (hf b u).trans (ih (f b u))

theorem modifyPiece (b : Board) (u : PieceId) (f : Piece → Piece)
    (hf : ∀ q : Piece, q.Spent 0 (f q)) (n : Nat) : Spends [] n b (b.modifyPiece u f) := by
  intro w q' hq'
  obtain ⟨q, hq, rfl⟩ := of_piece?_modifyPiece hq'
  refine ⟨q, hq, ?_⟩
  rw [if_neg List.not_mem_nil]
  split
  · exact hf q
  · exact ⟨rfl, rfl, by simp⟩

/-- The piece itself pays for every step; what is aboard it pays nothing. -/
theorem relocate (b : Board) (u : PieceId) (route : Route) :
    Spends [u] route.length b (b.relocate u route) := by
  intro w q' hq'
  cases hu : b.piece? u with
  | none =>
    rw [relocate_of_none hu] at hq'
    have hwu : w ∉ [u] := by
      rw [List.mem_singleton]
      rintro rfl
      rw [hu] at hq'
      cases hq'
    exact ⟨q', hq', rfl, rfl, by simp [hwu]⟩
  | some x =>
    rw [piece?_relocate hu, Option.map_eq_some_iff] at hq'
    obtain ⟨q, hq, rfl⟩ := hq'
    refine ⟨q, hq, ?_⟩
    by_cases huw : u = w
    · rw [if_pos huw, if_pos (List.mem_singleton.2 huw.symm)]
      exact ⟨rfl, rfl, Nat.le_refl _⟩
    · rw [if_neg huw, if_neg fun hin => huw (List.mem_singleton.1 hin).symm]
      split
      · exact ⟨rfl, rfl, Nat.le_refl _⟩
      · exact ⟨rfl, rfl, Nat.le_refl _⟩

theorem of_remarked (h : b.Remarked b') (n : Nat) : Spends [] n b b' := by
  intro w q' hq'
  rw [h.piece?] at hq'
  exact ⟨q', hq', rfl, rfl, by simp⟩

end Spends

/-! ## Keeping pace -/

/-- No piece of `p` has outrun its movement in a turn of `p`, and nothing that is not there has
marched. -/
structure Paced (b : Board) (p : PlayerId) (turn : List Order) : Prop where
  within : ∀ u q, b.piece? u = some q → q.owner = p →
    marched turn u + q.movementLeft ≤ (b.kind q.kind).movement
  absent : ∀ u, b.piece? u = none → marched turn u = 0

namespace Paced

variable {turn turn' : List Order}

/-- Pieces that pay for what they march keep pace. -/
theorem spends (hp : b.Paced p turn) (hkinds : b'.kinds = b.kinds)
    (hsize : b'.pieces.size = b.pieces.size) (hspends : Spends us n b b')
    (hable : ∀ u ∈ us, ∃ q, b.piece? u = some q ∧ n ≤ q.movementLeft)
    (hturn : ∀ u, marched turn' u = marched turn u + if u ∈ us then n else 0) :
    b'.Paced p turn' := by
  constructor
  · intro u q' hq' howner
    obtain ⟨q, hq, hpaid⟩ := hspends u q' hq'
    have hbefore := hp.within u q hq (hpaid.owner ▸ howner)
    have hleft := hpaid.left
    rw [Board.kind, hkinds, hpaid.kind, hturn]
    show _ ≤ (b.kind q.kind).movement
    by_cases hu : u ∈ us
    · -- it could pay, so what it has marched more it has left less
      obtain ⟨x, hx, hle⟩ := hable u hu
      rw [hq, Option.some.injEq] at hx
      subst hx
      rw [if_pos hu] at hleft ⊢
      omega
    · rw [if_neg hu] at hleft ⊢
      omega
  · intro u hnone
    have hbefore : b.piece? u = none := by
      rw [piece?, Array.getElem?_eq_none_iff] at hnone ⊢
      exact hsize ▸ hnone
    -- what is not on the board has marched nothing
    have hout : u ∉ us := by
      intro hu
      obtain ⟨q, hq, -⟩ := hable u hu
      rw [hbefore] at hq
      cases hq
    rw [hturn, hp.absent u hbefore, if_neg hout]

/-- A new piece has not marched and has all its movement. -/
theorem addPiece (hp : b.Paced p turn) (k : KindId) (r : PlayerId) (t : TerritoryId) :
    (b.addPiece k r t).Paced p turn := by
  have hsize : b.piece? b.pieces.size = none := by simp [piece?]
  constructor
  · intro u q hq howner
    show _ ≤ (b.kind q.kind).movement
    by_cases hu : u = b.pieces.size
    · rw [hu, piece?_addPiece, Option.some.injEq] at hq
      subst hq
      rw [hu, hp.absent _ hsize, Nat.zero_add]
    · rw [piece?_addPiece_of_ne b k r t hu] at hq
      exact hp.within u q hq howner
  · intro u hnone
    apply hp.absent
    cases hq : b.piece? u with
    | none => rfl
    | some q =>
      rw [piece?_addPiece_of_some b k r t hq] at hnone
      cases hnone

theorem foldl_addPiece (hp : b.Paced p turn) (kinds : List KindId) (r : PlayerId)
    (t : TerritoryId) : (kinds.foldl (fun b k => b.addPiece k r t) b).Paced p turn := by
  induction kinds generalizing b with
  | nil => exact hp
  | cons k rest ih => exact ih (hp.addPiece k r t)

end Paced

end Board

namespace Table

open Board

variable {h h' : Table} {p : PlayerId} {o : Order} {turn : List Order}

/-! ## Orders -/

theorem spends_embark (transport : PieceId) (route : Route) (b : Board) (u : PieceId) :
    Spends [u] route.length b (embark transport route b u) :=
  (Spends.relocate b u route).trans
    (.modifyPiece _ u (fun q => { q with carrier := some transport })
      (fun _ => ⟨rfl, rfl, Nat.le_refl _⟩) _)

/-- Cargo that goes ashore gains nothing. -/
theorem spends_disembark (ashore : Route) (n : Nat) (b : Board) (u : PieceId) :
    Spends [] n b (disembark ashore b u) := by
  have hout := Spends.modifyPiece b u (fun q => { q with carrier := none })
    (fun _ => ⟨rfl, rfl, Nat.le_refl _⟩) n
  have hgoes := (Spends.relocate (b.modifyPiece u fun q => { q with carrier := none }) u
    ashore).forget n
  exact (hout.trans hgoes).trans (.modifyPiece _ u (fun q => { q with movementLeft := 0 })
    (fun _ => ⟨rfl, rfl, Nat.zero_le _⟩) n)

/-- A ship pays for the way that it sails. -/
theorem spends_land (route : Route) (b : Board) (u : PieceId) :
    Spends [u] (seaLeg route).length b (land route b u) :=
  (Spends.relocate b u (seaLeg route)).trans (.foldl_forget (spends_disembark _ _) _ _)

/-- An order that is taken takes from every piece that it names the steps that it makes it take. -/
theorem spends_submitMove (htaken : h.submitMove p o = .ok h') :
    Spends o.pieces o.stride h.board h'.board := by
  obtain ⟨-, -, hcheck, rfl⟩ := submitMove_ok_iff.1 htaken
  have hgone : Spends o.pieces o.stride h.board (regroup h.board o) := by
    unfold checkAction at hcheck
    unfold regroup Order.stride
    cases haction : o.action with
    | move => exact .foldl (fun b u => .relocate b u o.route) o.pieces h.board
    | load transport =>
      -- a route aboard has one step
      simp only [haction] at hcheck ⊢
      obtain ⟨-, -, -, -, hlength, -⟩ := checkLoad_ok_iff.1 hcheck
      rw [← hlength]
      exact .foldl (spends_embark transport o.route) o.pieces h.board
    | unload =>
      have hlength : (seaLeg o.route).length = o.route.length - 1 := by
        rw [seaLeg, Route.length_truncate]
        omega
      simp only [← hlength]
      exact .foldl (spends_land o.route) o.pieces h.board
  have hboth := hgone.trans (.of_remarked (remarked_carryOut h.board p o) o.stride)
  rw [List.append_nil] at hboth
  exact hboth

/-- Every piece that an order names has the movement for it. -/
theorem stride_le_of_submitMove (htaken : h.submitMove p o = .ok h') :
    ∀ u ∈ o.pieces, ∃ q, h.board.piece? u = some q ∧ o.stride ≤ q.movementLeft := by
  obtain ⟨-, -, hcheck, -⟩ := submitMove_ok_iff.1 htaken
  unfold checkAction at hcheck
  unfold Order.stride
  intro u hu
  cases haction : o.action with
  | move =>
    simp only [haction] at hcheck
    obtain ⟨a, ha, -, -, hmoves, -⟩ := checkMover_ok_iff.1 ((checkMove_ok_iff.1 hcheck).1 u hu)
    exact ⟨a.piece, (asset?_eq_some.1 ha).1, hmoves⟩
  | load transport =>
    simp only [haction] at hcheck
    obtain ⟨-, -, -, -, -, -, hall, -⟩ := checkLoad_ok_iff.1 hcheck
    obtain ⟨a, ha, -, -, -, -, hmoves⟩ := checkPassenger_ok_iff.1 (hall u hu)
    exact ⟨a.piece, (asset?_eq_some.1 ha).1, Nat.pos_of_ne_zero hmoves⟩
  | unload =>
    simp only [haction] at hcheck
    obtain ⟨a, ha, -, -, -, -, hmoves, -⟩ :=
      checkLander_ok_iff.1 ((checkUnload_ok_iff.1 hcheck).2.1 u hu)
    refine ⟨a.piece, (asset?_eq_some.1 ha).1, ?_⟩
    -- a ship is asked for the movement of its sea leg, all steps but the one ashore
    rw [seaLeg, Route.length_truncate] at hmoves
    show o.route.length - 1 ≤ _
    omega

/-! ## Games -/

/-- At the end of a turn the pieces of the player have all their movement, and the others keep
theirs. -/
theorem paced_endTurn {r : PlayerId} (hp : h.board.Paced p turn) :
    (h.endTurn r).board.Paced p (if r = p then [] else turn) := by
  constructor
  · intro u q' hq' howner
    rw [piece?_endTurn, Option.map_eq_some_iff] at hq'
    obtain ⟨q, hq, rfl⟩ := hq'
    by_cases hr : r = p
    · subst hr
      by_cases hqr : q.owner = r
      · simp only [if_pos hqr]
        exact Nat.le_of_eq (Nat.zero_add _)
      · rw [if_neg hqr] at howner
        exact absurd howner hqr
    · -- the turn of another player restores nothing
      have hqr : q.owner ≠ r := by
        rintro hqr
        rw [if_pos hqr] at howner
        exact hr (hqr.symm.trans howner)
      rw [if_neg hqr] at howner ⊢
      rw [if_neg hr]
      exact hp.within u q hq howner
  · intro u hnone
    split
    · rfl
    · rw [piece?_endTurn, Option.map_eq_none_iff] at hnone
      exact hp.absent u hnone

theorem paced_answer {c : Command} (hb : h.board.Sound) (hp : h.board.Paced p turn)
    (htaken : h.answer c = .ok h') : h'.board.Paced p (h.ordersAfter p turn c) := by
  cases c with
  | move r o =>
    have hmoved : h.submitMove r o = .ok h' := htaken
    have heffect := submitMove_effect hb hmoved
    unfold ordersAfter
    simp only [hmoved]
    exact hp.spends heffect.after.kinds heffect.after.pieces_size (spends_submitMove hmoved)
      (stride_le_of_submitMove hmoved) (marched_concat turn o)
  | purchase r bought =>
    obtain ⟨-, -, rfl⟩ := submitPurchase_ok_iff.1 htaken
    exact ⟨hp.within, hp.absent⟩
  | placement r x =>
    obtain ⟨-, f, -, -, rfl⟩ := submitPlacement_ok_iff.1 htaken
    exact hp.foldl_addPiece x.kinds r x.territory
  | beginEpoch r e =>
    cases htaken
    exact hp
  | endTurn r =>
    cases htaken
    exact paced_endTurn hp

/-- A command that is refused is no order of the turn. -/
theorem ordersAfter_of_error {c : Command} {e : Rejection} (hrefused : h.answer c = .error e) :
    h.ordersAfter p turn c = turn := by
  cases c with
  | move r o =>
    have hmove : h.submitMove r o = .error e := hrefused
    unfold ordersAfter
    simp only [hmove]
  | purchase r bought => rfl
  | placement r x => rfl
  | beginEpoch r e' => cases hrefused
  | endTurn r => cases hrefused

theorem paced_obey (hb : h.board.Sound) (hp : h.board.Paced p turn) (c : Command) :
    (h.obey c).board.Paced p (h.ordersAfter p turn c) := by
  unfold obey
  cases hc : h.answer c with
  | ok h' => exact paced_answer hb hp hc
  | error e =>
    rw [ordersAfter_of_error hc]
    exact hp

/-- In a whole game no piece outruns its movement. -/
theorem paced_play (hb : h.board.Sound) (hp : h.board.Paced p turn) (commands : List Command) :
    (h.play commands).board.Paced p (h.turnOrders p turn commands) := by
  unfold play
  induction commands generalizing h turn with
  | nil => exact hp
  | cons c rest ih => exact ih (obey_keeps hb c).1 (paced_obey hb hp c)

end Table

namespace Scenario

open Board Table

variable {s : Scenario}

/-- Coming aboard at once costs nothing. -/
theorem paced_addCargo {p : PlayerId} {turn : List Order} {b : Board} (hp : b.Paced p turn)
    (d : Deployment) (carrier : PieceId) : (addCargo b d carrier).Paced p turn := by
  refine (hp.addPiece d.kind d.owner d.territory).spends rfl (pieces_size_modifyPiece _ _ _)
    (.modifyPiece _ _ (fun q => { q with carrier := some carrier })
      (fun _ => ⟨rfl, rfl, Nat.le_refl _⟩) 0) ?_ ?_
  · intro u hu
    cases hu
  · intro u
    simp

/-- At first no piece has more movement than its kind. -/
theorem setUp_paced {h : Table} (hset : s.setUp = .ok h) (p : PlayerId) : h.board.Paced p [] := by
  obtain ⟨empty, hempty, hall⟩ := board_forall (setUp_board hset).1
  apply hall (fun b => b.Paced p [])
  · refine ⟨?_, fun _ _ => rfl⟩
    intro u q hq
    rw [piece?_emptyBoard hempty] at hq
    cases hq
  · intro _ _ _ d _ b hp
    exact hp.addPiece d.kind d.owner d.territory
  · intro _ _ _ d _ b carrier hp _
    exact paced_addCargo hp d carrier

end Scenario

end Conquest
