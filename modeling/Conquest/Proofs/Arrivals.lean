import Conquest.Proofs.Run

/-!
# What orders bring about

An order that is taken brings the pieces that it names, or their cargo, to the end of its route. An
arrival captures enemy land that nobody defends; land that had been captured before is the player's
already.

* `Table.piece?_foldl`: of pieces that act one after another, each ends as if it were the only one.
* `Table.piece?_submitMove`: a ship or an aircraft that is named by an order that is taken stands
  where the order ends for it and has paid for the way.
* `Table.exists_ashore`: something is ashore after a loaded ship has landed.
* `Table.owner_arrive`, `Table.owner_moveAlong`: after an arrival, undefended land that was enemy
  land is the player's.
-/

namespace Conquest

/-- A piece at the end of a route for which it has paid. -/
def Piece.goneAlong (q : Piece) (route : Route) : Piece :=
  { q with
    territory := route.dest
    movementLeft := q.movementLeft - route.length
    movedThisTurn := true }

/-- The way of the pieces that an order names: ships that land cargo stay at sea. -/
def Order.leg (o : Order) : Route :=
  if o.isUnload then Table.seaLeg o.route else o.route

namespace Table

open Board

variable {p : PlayerId} {b : Board} {u : PieceId} {q : Piece} {o : Order}

/-! ## Moving -/

theorem piece?_relocate_self (hq : b.piece? u = some q) (route : Route) :
    (b.relocate u route).piece? u = some (q.goneAlong route) := by
  rw [piece?_relocate hq, hq, Option.map_some, if_pos rfl]
  rfl

/-- Of pieces that act one after another, each by itself, each ends as if it were the only one. -/
theorem piece?_foldl {f : Board → PieceId → Board} {P : PieceId → Board → Prop} {g : Piece → Piece}
    (heffect : ∀ w b, b.Sound → P w b → Effect p [w] b (f b w))
    (hkeep : ∀ w v b, b.Sound → P w b → P v b → P v (f b w))
    (hacts : ∀ w b x, b.Sound → P w b → b.piece? w = some x →
      x.carrier = none ∧ (f b w).piece? w = some (g x) ∧ (g x).carrier = none)
    {us : List PieceId} (hnodup : us.Nodup) (hb : b.Sound) (hus : ∀ u ∈ us, P u b) (hu : u ∈ us)
    (hq : b.piece? u = some q) : (us.foldl f b).piece? u = some (g q) := by
  induction us generalizing b with
  | nil => cases hu
  | cons w rest ih =>
    rw [List.nodup_cons] at hnodup
    have hw := hus w List.mem_cons_self
    have hfirst := heffect w b hb hw
    have hrest : ∀ v ∈ rest, P v (f b w) := fun v hv =>
      hkeep w v b hb hw (hus v (List.mem_cons_of_mem w hv))
    rw [List.foldl_cons]
    rcases List.mem_cons.1 hu with rfl | hin
    · -- those that act after it do not touch it again
      rcases hacts u b q hb hw hq with ⟨-, hgoes, halone⟩
      have hothers : Effect p rest (f b u) (rest.foldl f (f b u)) := by
        refine Effect.foldl (P := P) ?_ (fun x y b hb hx hy => hkeep x y b hb hx hy) hfirst.sound
          hrest
        intro v hv b hb hP
        exact (heffect v b hb hP).mono (by simpa using hv)
      exact hothers.lone u (g q) hgoes hnodup.1 halone
    · -- the one that acts before it leaves it where it is
      rcases hacts u b q hb (hus u hu) hq with ⟨hnone, -, -⟩
      have hfree : u ∉ [w] := by
        rintro (_ | ⟨_, hnil⟩)
        · exact hnodup.1 hin
        · cases hnil
      exact ih hnodup.2 hfirst.sound hrest hin (hfirst.lone u q hq hfree hnone)

/-- Of pieces that go the same way, each pays for the way once. -/
theorem piece?_foldl_relocate (hb : b.Sound) {route : Route} (hdest : route.dest < b.atlas.size)
    {us : List PieceId} (hnodup : us.Nodup) (hus : b.Alone p us) (hu : u ∈ us)
    (hq : b.piece? u = some q) :
    (us.foldl (fun b u => b.relocate u route) b).piece? u = some (q.goneAlong route) := by
  refine piece?_foldl (p := p) (P := MayLeave p route) (g := (·.goneAlong route)) ?_ ?_ ?_ hnodup hb
    (fun v hv => ⟨hus v hv, hdest⟩) hu hq
  · intro w b hb hgo
    exact hgo.effect_relocate hb
  · intro w v b hb hw hv
    exact hw.relocate hb hv
  · intro w b x hb hgo hx
    rcases hgo.alone with ⟨x₀, hx₀, -, hnone⟩
    rw [hx, Option.some.injEq] at hx₀
    subst hx₀
    exact ⟨hnone, piece?_relocate_self hx route, hnone⟩

/-- A piece that goes along a route stands at its end and has paid for it. -/
theorem piece?_moveAlong (hb : b.Sound) (hdest : o.route.dest < b.atlas.size)
    (hnodup : o.pieces.Nodup) (hus : b.Alone p o.pieces) (hu : u ∈ o.pieces)
    (hq : b.piece? u = some q) :
    (moveAlong b p o).piece? u = some (q.goneAlong o.route) := by
  rw [(remarked_moveAlong b p o).piece?]
  exact piece?_foldl_relocate hb hdest hnodup hus hu hq

/-! ## Landing -/

/-- A ship that lands its cargo stays at sea itself. -/
theorem MaySail.piece?_land (hb : b.Sound) {route : Route} (hu : MaySail p route u b)
    (hq : b.piece? u = some q) :
    q.carrier = none ∧ (land route b u).piece? u = some (q.goneAlong (seaLeg route)) := by
  rcases hu.ship with ⟨q₀, hq₀, -, hsea⟩
  rw [hq, Option.some.injEq] at hq₀
  subst hq₀
  have hnone := hb.carrier_eq_none hq (PieceKind.isLand_eq_false_of_isSea hsea)
  have hsail := hu.effect_relocate hb
  have hgone := piece?_relocate_self hq (seaLeg route)
  have hashore : Effect p ((b.relocate u (seaLeg route)).cargoOf u) (b.relocate u (seaLeg route))
      (land route b u) := by
    refine effect_foldl_disembark hsail.sound ?_ ?_
    · rw [atlas_relocate]
      exact hu.shore
    · intro c hc
      rcases hu.cargo hb hc with ⟨-, -, -, -, hland⟩
      exact hland
  refine ⟨hnone, hashore.lone u _ hgone ?_ hnone⟩
  -- no ship is cargo of itself
  intro hin
  rcases hu.cargo hb hin with ⟨x, hx, hcarrier, -⟩
  rw [hgone, Option.some.injEq] at hx
  subst hx
  have habsurd : q.carrier = some u := hcarrier
  rw [hnone] at habsurd
  cases habsurd

/-- Of ships that land their cargo in one place, each stays at sea. -/
theorem piece?_foldl_land (hb : b.Sound) {route : Route} {us : List PieceId} (hnodup : us.Nodup)
    (hus : ∀ u ∈ us, MaySail p route u b) (hu : u ∈ us) (hq : b.piece? u = some q) :
    (us.foldl (land route) b).piece? u = some (q.goneAlong (seaLeg route)) := by
  refine piece?_foldl (p := p) (P := MaySail p route) (g := (·.goneAlong (seaLeg route))) ?_ ?_ ?_
    hnodup hb hus hu hq
  · intro w b hb hsail
    exact effect_land hb hsail
  · intro w v b hb hw hv
    exact hv.after (effect_land hb hw).after
  · intro w b x hb hsail hx
    rcases hsail.piece?_land hb hx with ⟨hnone, hland⟩
    exact ⟨hnone, hland, hnone⟩

/-- What goes ashore last stands ashore, by itself. -/
theorem exists_of_foldl_disembark (hb : b.Sound) {ashore : Route}
    (hdest : ashore.dest < b.atlas.size) {cs : List PieceId} (hne : cs ≠ [])
    (hcs : ∀ c ∈ cs, MayLand p c b) :
    ∃ c ∈ cs, ∃ q, (cs.foldl (disembark ashore) b).piece? c = some q ∧ q.carrier = none ∧
      q.territory = ashore.dest := by
  rcases List.eq_nil_or_concat cs with rfl | ⟨init, c, rfl⟩
  · exact absurd rfl hne
  · rw [List.concat_eq_append] at hcs ⊢
    have hc : c ∈ init ++ [c] := List.mem_append_right _ (List.mem_singleton_self c)
    -- those before it leave it free to go ashore
    have hinit : ∀ x ∈ init, MayLand p x b ∧ ashore.dest < b.atlas.size := fun x hx =>
      ⟨hcs x (List.mem_append_left _ hx), hdest⟩
    have hready : (init.foldl (disembark ashore) b).Sound ∧
        MayLand p c (init.foldl (disembark ashore) b) := by
      refine foldl_keeps (Q := fun b => b.Sound ∧ MayLand p c b)
        (P := fun x b => MayLand p x b ∧ ashore.dest < b.atlas.size) ?_ ?_ ⟨hb, hcs c hc⟩ hinit
      · rintro x - b ⟨hb, hland⟩ ⟨hx, hdest⟩
        exact ⟨(effect_disembark hb hdest hx).sound, hx.disembark hb hdest hland⟩
      · rintro x y b ⟨hb, -⟩ ⟨hx, hdest⟩ ⟨hy, -⟩
        exact ⟨hx.disembark hb hdest hy, (effect_disembark hb hdest hx).after.size.symm ▸ hdest⟩
    rw [List.foldl_append, List.foldl_cons, List.foldl_nil]
    rcases hready with ⟨hsound, hland⟩
    have hdest' := (effect_foldl_disembark hb hdest fun x hx => (hinit x hx).1).after.size.symm ▸
      hdest
    have heffect := effect_disembark hsound hdest' hland
    rcases hland with ⟨x, hx, howner, hset⟩
    rcases heffect.after.piece_to hx with ⟨x', hx', -⟩
    rcases of_piece?_disembark hsound ⟨x, hx, howner, hset⟩ ashore hx' with
      ⟨x₀, -, -, -, hcarrier, hterr⟩
    rw [if_pos rfl] at hcarrier
    rw [if_pos (.inl rfl)] at hterr
    exact ⟨c, hc, x', hx', hcarrier, hterr⟩

/-- What is aboard a ship is still aboard when it has sailed. -/
theorem MaySail.cargoOf_ne_nil (hb : b.Sound) {route : Route} (hu : MaySail p route u b)
    (hloaded : b.cargoOf u ≠ []) : (b.relocate u (seaLeg route)).cargoOf u ≠ [] := by
  have hsail := hu.effect_relocate hb
  rcases hu.ship with ⟨s, hs, -, hsea⟩
  rcases hsail.after.piece_to hs with ⟨s', hs', hkind, -⟩
  rcases List.exists_mem_of_ne_nil _ hloaded with ⟨c, hc⟩
  rcases (hb.mem_cargoOf hs hsea).1 hc with ⟨x, hx, hcarrier⟩
  rcases hsail.after.piece_to hx with ⟨x', hx', -⟩
  rcases hb.of_piece?_relocate hs (seaLeg route) hx' with ⟨x₀, hx₀, -, -, -, hcarrier', -⟩
  rw [hx, Option.some.injEq] at hx₀
  subst hx₀
  refine List.ne_nil_of_mem ((hsail.sound.mem_cargoOf hs' ?_).2 ⟨x', hx', hcarrier'.trans hcarrier⟩)
  rw [hsail.after.kind, hkind]
  exact hsea

/-- After a loaded ship has landed, a land piece of the player is ashore. -/
theorem exists_ashore (hb : b.Sound) {route : Route} (hu : MaySail p route u b)
    (hloaded : b.cargoOf u ≠ []) :
    ∃ c q, (land route b u).piece? c = some q ∧ q.owner = p ∧
      (b.kind q.kind).isLand = true ∧ q.carrier = none ∧ q.territory = route.dest := by
  have hsail := hu.effect_relocate hb
  have hdest : (Route.step (seaLeg route).dest route.dest).dest <
      (b.relocate u (seaLeg route)).atlas.size := by
    rw [atlas_relocate]
    exact hu.shore
  have hcargo : ∀ c ∈ (b.relocate u (seaLeg route)).cargoOf u,
      MayLand p c (b.relocate u (seaLeg route)) := by
    intro c hc
    rcases hu.cargo hb hc with ⟨-, -, -, -, hland⟩
    exact hland
  rcases exists_of_foldl_disembark hsail.sound hdest (hu.cargoOf_ne_nil hb hloaded) hcargo with
    ⟨c, hc, q, hq, hnone, hterr⟩
  rcases hu.cargo hb hc with ⟨x, hx, -, hkind, x₀, hx₀, howner, -⟩
  rw [hx, Option.some.injEq] at hx₀
  subst hx₀
  -- going ashore changes neither kind nor owner
  have hashore := (effect_foldl_disembark hsail.sound hdest hcargo).after
  rcases hashore.piece c q hq with ⟨x₀, hx₀, hqkind, hqowner⟩
  rw [hx, Option.some.injEq] at hx₀
  subst hx₀
  refine ⟨c, q, hq, hqowner.trans howner, ?_, hnone, hterr⟩
  rw [hqkind, ← hsail.after.kind]
  exact hkind

/-! ## Orders -/

/-- A ship or an aircraft that is named once by an order that is taken stands where the order ends
for it. -/
theorem piece?_submitMove {h h' : Table} (hb : h.board.Sound) (htaken : h.submitMove p o = .ok h')
    (hnodup : o.pieces.Nodup) (hu : u ∈ o.pieces) (hq : h.board.piece? u = some q)
    (hkind : (h.board.kind q.kind).isLand = false) :
    h'.board.piece? u = some (q.goneAlong o.leg) := by
  have hdest := (dest_lt_of_submitMove hb htaken).1
  have hships := maySail_of_submitMove hb htaken
  rcases submitMove_ok_iff.1 htaken with ⟨-, -, hcheck, rfl⟩
  show (carryOut h.board p o).piece? u = some (q.goneAlong o.leg)
  unfold checkAction at hcheck
  unfold carryOut Order.leg Order.isUnload
  cases haction : o.action with
  | move =>
    simp only [haction] at hcheck
    exact piece?_moveAlong hb hdest hnodup (alone_of_checkMove hcheck) hu hq
  | load transport =>
    -- only land pieces go aboard
    simp only [haction] at hcheck
    rcases checkLoad_ok_iff.1 hcheck with ⟨-, -, -, -, -, -, hall, -⟩
    rcases checkPassenger_ok_iff.1 (hall u hu) with ⟨a, ha, -, -, -, hcan, -⟩
    rcases asset?_eq_some.1 ha with ⟨hpiece, hakind⟩
    rw [hq, Option.some.injEq] at hpiece
    subst hpiece
    rw [← hakind, PieceKind.isLand_of_canBeTransported hcan] at hkind
    cases hkind
  | unload =>
    simp only [haction] at hcheck
    have hland := piece?_foldl_land hb hnodup (hships hcheck) hu hq
    rw [(remarked_arrive p true _ _).piece?]
    exact hland

/-! ## Capture -/

/-- When land pieces arrive in what was enemy land at first, it is the player's unless somebody
defends it. -/
theorem owner_arrive {b₀ : Board} (hafter : After p b₀ b) {t : TerritoryId}
    (henemy : b₀.isEnemyLand t p = true) (hundefended : b.hasEnemyForce t p = false) :
    ((arrive p true b t).territory t).owner = some p := by
  unfold arrive
  rw [if_neg (Bool.eq_false_iff.1 hundefended)]
  cases hstill : b.isEnemyLand t p with
  | true =>
    rw [Bool.true_and, if_pos rfl, territory_capture, if_pos ⟨rfl, lt_size_of_isEnemyLand hstill⟩]
  | false =>
    -- land that is no longer hostile has changed hands, and only the player captures
    rw [Bool.true_and, if_neg Bool.false_ne_true]
    refine ((hafter.owner t).resolve_left ?_).1
    intro hsame
    unfold isEnemyLand at henemy hstill
    rw [hafter.isPassableLand, hsame, show b.isEnemy p = b₀.isEnemy p from
      funext fun q => hafter.isEnemy p q, henemy] at hstill
    cases hstill

/-- When land pieces march into what was enemy land at first, it is the player's unless somebody
defends it. -/
theorem owner_moveAlong {b₀ : Board} (hb : b.Sound) (hafter : After p b₀ b)
    (hdest : o.route.dest < b.atlas.size) (hus : b.Alone p o.pieces)
    (hland : ∃ u ∈ o.pieces, ∃ a, b.asset? u = some a ∧ a.kind.isLand = true)
    (hne : o.route.isEmpty = false) (henemy : b₀.isEnemyLand o.route.dest p = true)
    (hundefended : b.hasEnemyForce o.route.dest p = false) :
    ((moveAlong b p o).territory o.route.dest).owner = some p := by
  have hany : (o.pieces.filterMap b.asset?).any (·.kind.isLand) = true := by
    rcases hland with ⟨u, hu, a, ha, hkind⟩
    exact List.any_eq_true.2 ⟨a, List.mem_filterMap.2 ⟨u, hu, ha⟩, hkind⟩
  have hmoved := effect_foldl_relocate hb hdest hus
  have hpassed := (hmoved.trans (effect_foldl_passThrough hmoved.sound o.pieces
    o.route.between)).after
  unfold moveAlong
  simp only [hany, hne, if_true, Bool.false_eq_true, if_false]
  refine owner_arrive (hafter.trans hpassed) henemy ?_
  rw [hpassed.hasEnemyForce]
  exact hundefended

end Table

end Conquest
