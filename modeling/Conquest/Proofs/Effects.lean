import Conquest.Proofs.Regrouping

/-!
# What orders do to the board

An order that is taken leaves the board well-formed, leaves foreign pieces alone, and leaves alone
every piece of the player that it does not name and that is not aboard one that it names.

* `Board.Effect`: these together.
* `Table.submitMove_effect`: every order that is taken has such an effect.
-/

namespace Conquest

namespace Board

/-- Only ships have cargo space, so nothing is aboard a piece that is itself aboard. -/
def OnlyShipsCarry (b : Board) : Prop :=
  ∀ k, 0 < (b.kind k).transportCapacity → (b.kind k).isSea = true

/-- The effect of orders of `p` that name the pieces `named`. -/
structure Effect (p : PlayerId) (named : List PieceId) (b b' : Board) : Prop where
  sound : b'.Sound
  after : After p b b'
  spares : b.OnlyShipsCarry → ∀ w q, b.piece? w = some q → w ∉ named →
    (∀ c, q.carrier = some c → c ∉ named) → b'.piece? w = some q
  /-- What stands by itself is spared whatever the others carry. -/
  lone : ∀ w q, b.piece? w = some q → w ∉ named → q.carrier = none → b'.piece? w = some q

theorem OnlyShipsCarry.of_sameGround {b b' : Board} (h : b.OnlyShipsCarry)
    (hground : b.SameGround b') : b'.OnlyShipsCarry := by
  intro k hk
  rw [hground.kind] at hk ⊢
  exact h k hk

/-- Pieces of `p` that stand by themselves. -/
def Alone (b : Board) (p : PlayerId) (us : List PieceId) : Prop :=
  ∀ u ∈ us, ∃ q, b.piece? u = some q ∧ q.owner = p ∧ q.carrier = none

namespace Effect

variable {p : PlayerId} {named : List PieceId} {b b' b'' : Board}

/-- Sparing what is neither named nor aboard a named piece. -/
theorem of_spares (hsound : b'.Sound) (hafter : After p b b')
    (hspares : ∀ w q, b.piece? w = some q → w ∉ named →
      (∀ c, q.carrier = some c → c ∉ named) → b'.piece? w = some q) : Effect p named b b' := by
  refine ⟨hsound, hafter, fun _ => hspares, ?_⟩
  intro w q hq hw hnone
  refine hspares w q hq hw ?_
  intro c hc
  rw [hnone] at hc
  cases hc

theorem refl (p : PlayerId) (named : List PieceId) (hb : b.Sound) : Effect p named b b :=
  .of_spares hb (.refl p b) fun _ _ hq _ _ => hq

theorem trans (h : Effect p named b b') (h' : Effect p named b' b'') : Effect p named b b'' := by
  refine ⟨h'.sound, h.after.trans h'.after, ?_, ?_⟩
  · intro hcarry w q hq hw hc
    have hmid := h.spares hcarry w q hq hw hc
    exact h'.spares (hcarry.of_sameGround h.after.toSameGround) w q hmid hw hc
  · intro w q hq hw hnone
    exact h'.lone w q (h.lone w q hq hw hnone) hw hnone

theorem mono {named' : List PieceId} (h : Effect p named b b') (hsub : named ⊆ named') :
    Effect p named' b b' := by
  refine ⟨h.sound, h.after, ?_, ?_⟩
  · intro hcarry w q hq hw hc
    exact h.spares hcarry w q hq (fun hin => hw (hsub hin)) fun c hqc hin => hc c hqc (hsub hin)
  · intro w q hq hw hnone
    exact h.lone w q hq (fun hin => hw (hsub hin)) hnone

/-- Pieces that stand by themselves still do where others are named. -/
theorem alone {us : List PieceId} (h : Effect p named b b') (hus : b.Alone p us)
    (hfree : ∀ u ∈ us, u ∉ named) : b'.Alone p us := by
  intro u hu
  rcases hus u hu with ⟨q, hq, howner, hnone⟩
  exact ⟨q, h.lone u q hq (hfree u hu) hnone, howner, hnone⟩

/-- Ships and aircraft that are not named stay as they are. -/
theorem asset?_eq_some_iff (h : Effect p named b b') (hb : b.Sound) {u : PieceId} {a : Asset}
    (hfree : u ∉ named) (hland : a.kind.isLand = false) :
    b'.asset? u = some a ↔ b.asset? u = some a := by
  have hkeeps : ∀ x : Asset, x.kind.isLand = false → b.asset? u = some x →
      b'.asset? u = some x := by
    intro x hx hasset
    rcases asset?_eq_some.1 hasset with ⟨hq, hkind⟩
    refine asset?_eq_some.2 ⟨h.lone u x.piece hq hfree ?_, ?_⟩
    · exact hb.carrier_eq_none hq (hkind ▸ hx)
    · rw [h.after.kind]
      exact hkind
  constructor
  · intro hasset
    -- it was of the same kind before, so it is the same piece
    rcases h.after.asset hasset with ⟨x, hx, hkind, -⟩
    have hstays := hkeeps x (hkind ▸ hland) hx
    rw [hasset, Option.some.injEq] at hstays
    rw [hstays]
    exact hx
  · exact hkeeps a hland

end Effect

/-- What holds of a board holds after a fold, as long as each step keeps it and leaves the later
steps possible. -/
theorem foldl_keeps {α : Type} {f : Board → α → Board} {Q : Board → Prop} {P : α → Board → Prop}
    {xs : List α} (hstep : ∀ x ∈ xs, ∀ b, Q b → P x b → Q (f b x))
    (hkeep : ∀ x y b, Q b → P x b → P y b → P y (f b x)) {b : Board} (hb : Q b)
    (hxs : ∀ x ∈ xs, P x b) : Q (xs.foldl f b) := by
  induction xs generalizing b with
  | nil => exact hb
  | cons x rest ih =>
    -- the first step leaves the later ones possible, so the induction goes on from its board
    have hx := hxs x List.mem_cons_self
    refine ih (fun y hy => hstep y (List.mem_cons_of_mem _ hy))
      (hstep x List.mem_cons_self b hb hx) ?_
    intro y hy
    exact hkeep x y b hb hx (hxs y (List.mem_cons_of_mem _ hy))

/-- A fold has an effect if its steps have, as long as each step leaves the later ones possible. -/
theorem Effect.foldl {α : Type} {f : Board → α → Board} {P : α → Board → Prop} {p : PlayerId}
    {named : List PieceId} {xs : List α}
    (hstep : ∀ x ∈ xs, ∀ b : Board, b.Sound → P x b → Effect p named b (f b x))
    (hkeep : ∀ x y (b : Board), b.Sound → P x b → P y b → P y (f b x))
    {b : Board} (hb : b.Sound) (hxs : ∀ x ∈ xs, P x b) : Effect p named b (xs.foldl f b) := by
  refine foldl_keeps (Q := Effect p named b) ?_ ?_ (.refl p named hb) hxs
  · intro x hx b' heffect hP
    exact heffect.trans (hstep x hx b' heffect.sound hP)
  · intro x y b' heffect hx hy
    exact hkeep x y b' heffect.sound hx hy

/-! ## Relocation -/

theorem mem_garrisonAfter {b : Board} {us : List PieceId} {source goal t : TerritoryId}
    {w : PieceId} (hw : w ∉ us) : w ∈ b.garrisonAfter us source goal t ↔ w ∈ b.garrison t := by
  unfold garrisonAfter
  split
  · exact .rfl
  · split
    · rw [List.mem_filter]
      simp [hw]
    · split
      · rw [List.mem_append]
        simp [hw]
      · exact .rfl

section Single

variable {p : PlayerId} {b : Board} {u : PieceId} {q : Piece}

/-- A piece that stands by itself takes along only what is aboard it. -/
theorem Sound.effect_relocate (hb : b.Sound) (hq : b.piece? u = some q) (howner : q.owner = p)
    {route : Route} (hdest : route.dest < b.atlas.size)
    (hfree : q.carrier = none ∨ route.dest = q.territory) :
    Effect p [u] b (b.relocate u route) := by
  have hs : q.territory < b.garrisons.size := hb.garrisons_size ▸ hb.territory_lt u q hq
  have hg : route.dest < b.garrisons.size := hb.garrisons_size ▸ hdest
  refine .of_spares (hb.relocate hq hdest hfree) ⟨?_, ?_, ?_, ?_, ?_, ?_⟩ ?_
  · exact .of_eq (atlas_relocate b u route) (players_relocate b u route) (kinds_relocate b u route)
      (rules_relocate b u route)
  · exact pieces_size_relocate b u route
  · intro w x' hx'
    rcases hb.of_piece?_relocate hq route hx' with ⟨x, hx, -, hkind, hxowner, -⟩
    exact ⟨x, hx, hkind, hxowner⟩
  · intro w x hx hforeign t
    rw [garrison_relocate hq route hs hg]
    apply mem_garrisonAfter
    intro hin
    rcases List.mem_cons.1 hin with rfl | hin
    · rw [hq, Option.some.injEq] at hx
      exact hforeign (hx ▸ howner)
    · -- cargo belongs to the owner of its carrier
      rcases hb.mem_aboard.1 hin with ⟨x₀, hx₀, hcarrier⟩
      rw [hx, Option.some.injEq] at hx₀
      subst hx₀
      rcases hb.cargo w x u hx hcarrier with ⟨s, hs', hcarries⟩
      rw [hq, Option.some.injEq] at hs'
      subst hs'
      exact hforeign (hcarries.owner ▸ howner)
  · intro t
    left
    rw [territory, atlas_relocate, territory]
  · intro t ht
    rw [isConquered, conquered_relocate] at ht
    exact .inl ht
  · intro w x hx hw hc
    rw [piece?_relocate hq, hx]
    have huw : u ≠ w := fun heq => hw (heq ▸ List.mem_singleton_self u)
    -- neither it nor its carrier was named, so it is not among those that go
    have haboard : w ∉ b.aboard u := by
      intro hin
      rcases hb.mem_aboard.1 hin with ⟨x₀, hx₀, hcarrier⟩
      rw [hx, Option.some.injEq] at hx₀
      exact hc u (hx₀ ▸ hcarrier) (List.mem_singleton_self u)
    simp [huw, haboard]

/-- Changing one piece in what is not its kind or owner. -/
theorem Sound.effect_modifyPiece {f : Piece → Piece}
    (hsound : (b.modifyPiece u f).Sound) (hkind : ∀ x, (f x).kind = x.kind)
    (howner : ∀ x, (f x).owner = x.owner) : Effect p [u] b (b.modifyPiece u f) := by
  refine .of_spares hsound (After.of_pieces (.of_eq rfl rfl rfl rfl) (fun _ => rfl) rfl ?_ rfl ?_) ?_
  · exact pieces_size_modifyPiece b u f
  · intro w x' hx'
    rcases of_piece?_modifyPiece hx' with ⟨x, hx, rfl⟩
    refine ⟨x, hx, ?_⟩
    split
    · exact ⟨hkind x, howner x⟩
    · exact ⟨rfl, rfl⟩
  · intro w x hx hw _
    have huw : u ≠ w := fun heq => hw (heq ▸ List.mem_singleton_self u)
    rw [piece?_modifyPiece, if_neg huw, hx]

/-- Changing one piece in its movement leaves a well-formed board. -/
theorem Sound.modifyPiece (hb : b.Sound) {f : Piece → Piece} (hf : ∀ x : Piece, x.SamePost (f x)) :
    (b.modifyPiece u f).Sound := by
  refine hb.of_samePost hb.atlas rfl rfl rfl (pieces_size_modifyPiece b u f) ?_
  intro w x' hx'
  rcases of_piece?_modifyPiece hx' with ⟨x, hx, rfl⟩
  refine ⟨x, hx, ?_⟩
  split
  · exact hf x
  · exact ⟨rfl, rfl, rfl, rfl, rfl⟩

end Single

end Board

namespace Table

open Board

variable {p : PlayerId} {b : Board} {u : PieceId} {q : Piece} {o : Order}

/-! ## Going aboard -/

/-- What embarking does to a piece. -/
theorem of_piece?_embark (hb : b.Sound) (hq : b.piece? u = some q) (transport : PieceId)
    (route : Route) {w : PieceId} {x' : Piece}
    (hx' : (embark transport route b u).piece? w = some x') :
    ∃ x, b.piece? w = some x ∧ x'.kind = x.kind ∧ x'.owner = x.owner ∧
      x'.carrier = (if w = u then some transport else x.carrier) ∧
      x'.territory = if w = u ∨ x.carrier = some u then route.dest else x.territory := by
  unfold embark at hx'
  -- back through the boarding and the way to the transport
  rcases of_piece?_modifyPiece hx' with ⟨y, hy, rfl⟩
  rcases hb.of_piece?_relocate hq route hy with ⟨x, hx, -, hkind, howner, hcarrier, hterr⟩
  refine ⟨x, hx, ?_⟩
  by_cases hwu : w = u
  · simp only [if_pos hwu]
    exact ⟨hkind, howner, trivial, hterr⟩
  · simp only [if_neg hwu]
    exact ⟨hkind, howner, hcarrier, hterr⟩

/-- A piece that may go aboard a transport of `p` that waits in `goal`, or has just done so. -/
structure Boards (p : PlayerId) (transport : PieceId) (goal : TerritoryId) (u : PieceId)
    (b : Board) : Prop where
  passenger : ∃ q, b.piece? u = some q ∧ q.owner = p ∧ (b.kind q.kind).isLand = true ∧
    (q.carrier = none ∨ q.carrier = some transport ∧ q.territory = goal)
  transport : ∃ s, b.piece? transport = some s ∧ s.owner = p ∧
    0 < (b.kind s.kind).transportCapacity ∧ s.territory = goal

/-- A piece that goes aboard first goes where the transport waits. -/
theorem Boards.effect_relocate (hb : b.Sound) {transport : PieceId} {route : Route}
    (hu : Boards p transport route.dest u b) : Effect p [u] b (b.relocate u route) := by
  rcases hu.passenger with ⟨q, hq, howner, -, hcarrier⟩
  rcases hu.transport with ⟨s, hs, -, -, hplace⟩
  have hdest : route.dest < b.atlas.size := hplace ▸ hb.territory_lt transport s hs
  refine hb.effect_relocate hq howner hdest ?_
  rcases hcarrier with hnone | ⟨-, hterr⟩
  · exact .inl hnone
  · exact .inr hterr.symm

theorem sound_embark (hb : b.Sound) {transport : PieceId} {route : Route}
    (hu : Boards p transport route.dest u b) : (embark transport route b u).Sound := by
  have hfirst := hu.effect_relocate hb
  rcases hu.passenger with ⟨q, hq, howner, hland, hcarrier⟩
  rcases hu.transport with ⟨s, hs, hsowner, hroom, hplace⟩
  rcases Sound.exists_piece?_relocate (u := u) hq route with ⟨q', hq'⟩
  rcases Sound.exists_piece?_relocate (u := u) hs route with ⟨s', hs'⟩
  rcases hb.of_piece?_relocate hq route hq' with ⟨q₀, hq₀, -, hqkind, hqowner, hqcarrier, hqterr⟩
  rcases hb.of_piece?_relocate hq route hs' with ⟨s₀, hs₀, -, hskind, hsowner', -, hsterr⟩
  rw [hq, Option.some.injEq] at hq₀
  rw [hs, Option.some.injEq] at hs₀
  subst hq₀ hs₀
  rcases hcarrier with hnone | ⟨haboard, -⟩
  · -- a passenger from the shore is settled, so that it can be given a carrier
    have hset : (b.relocate u route).IsSettled q' := isSettled_of_carrier (hqcarrier.trans hnone)
    refine hfirst.sound.setCarrier hq' hset ?_
    intro c hc
    cases hc
    refine ⟨s', hs', ?_, ?_, ?_, ?_⟩
    · rw [hsowner', hqowner, hsowner, howner]
    · rw [hfirst.after.kind, hqkind]
      exact hland
    · rw [hfirst.after.kind, hskind]
      exact hroom
    · intro _
      rw [hsterr, hqterr, hplace]
      simp
  · -- listed twice: the piece is aboard already
    refine hfirst.sound.of_samePost hfirst.sound.atlas rfl rfl rfl
      (pieces_size_modifyPiece _ u _) ?_
    intro w x' hx'
    unfold embark at hx'
    rcases of_piece?_modifyPiece hx' with ⟨x, hx, rfl⟩
    refine ⟨x, hx, ?_⟩
    split
    · rename_i hwu
      rw [hwu, hq', Option.some.injEq] at hx
      subst hx
      exact ⟨rfl, rfl, rfl, rfl, (hqcarrier.trans haboard).symm⟩
    · exact ⟨rfl, rfl, rfl, rfl, rfl⟩

theorem effect_embark (hb : b.Sound) {transport : PieceId} {route : Route}
    (hu : Boards p transport route.dest u b) : Effect p [u] b (embark transport route b u) := by
  refine (hu.effect_relocate hb).trans ?_
  exact Sound.effect_modifyPiece (sound_embark hb hu) (fun _ => rfl) fun _ => rfl

theorem Boards.embark (hb : b.Sound) {transport w : PieceId} {route : Route}
    (hu : Boards p transport route.dest u b) (hw : Boards p transport route.dest w b) :
    Boards p transport route.dest w (embark transport route b u) := by
  have heffect := effect_embark hb hu
  rcases hu.passenger with ⟨q, hq, -⟩
  constructor
  · rcases hw.passenger with ⟨x, hx, howner, hland, hcarrier⟩
    rcases heffect.after.piece_to hx with ⟨x', hx', -⟩
    obtain ⟨x₀, hx₀, hkind, howner', hcarrier', hterr⟩ := of_piece?_embark hb hq transport route hx'
    rw [hx, Option.some.injEq] at hx₀
    subst hx₀
    refine ⟨x', hx', howner'.trans howner, ?_, ?_⟩
    · rw [heffect.after.kind, hkind]
      exact hland
    · rw [hcarrier', hterr]
      -- one that is listed again stands in the same place and is aboard
      by_cases hwu : w = u
      · simp [hwu]
      · rcases hcarrier with hnone | ⟨haboard, hgoal⟩
        · simp [hwu, hnone]
        · simp [hwu, haboard, hgoal]
  · rcases hu.transport with ⟨s, hs, howner, hroom, hplace⟩
    rcases heffect.after.piece_to hs with ⟨s', hs', -⟩
    rcases of_piece?_embark hb hq transport route hs' with ⟨s₀, hs₀, hkind, howner', -, hterr⟩
    rw [hs, Option.some.injEq] at hs₀
    subst hs₀
    refine ⟨s', hs', howner'.trans howner, ?_, ?_⟩
    · rw [heffect.after.kind, hkind]
      exact hroom
    · rw [hterr, hplace]
      simp

/-- A whole party goes aboard. -/
theorem effect_foldl_embark (hb : b.Sound) {transport : PieceId} {route : Route}
    {us : List PieceId} (hus : ∀ u ∈ us, Boards p transport route.dest u b) :
    Effect p us b (us.foldl (embark transport route) b) := by
  refine Effect.foldl (P := Boards p transport route.dest) ?_ ?_ hb hus
  · intro u hu b hb hboards
    exact (effect_embark hb hboards).mono (by simpa using hu)
  · intro u w b hb hu hw
    exact Boards.embark hb hu hw

/-! ## Going ashore -/

/-- A piece of `p` that may go ashore: its place is certain. -/
def MayLand (p : PlayerId) (u : PieceId) (b : Board) : Prop :=
  ∃ q, b.piece? u = some q ∧ q.owner = p ∧ b.IsSettled q

/-- What going ashore does to a piece. -/
theorem of_piece?_disembark (hb : b.Sound) (hu : MayLand p u b) (ashore : Route) {w : PieceId}
    {x' : Piece} (hx' : (disembark ashore b u).piece? w = some x') :
    ∃ x, b.piece? w = some x ∧ x'.kind = x.kind ∧ x'.owner = x.owner ∧
      x'.carrier = (if w = u then none else x.carrier) ∧
      x'.territory = if w = u ∨ x.carrier = some u then ashore.dest else x.territory := by
  rcases hu with ⟨q, hq, -, hset⟩
  set free := b.modifyPiece u fun q => { q with carrier := none } with hfree
  have hsound : free.Sound := hb.setCarrier hq hset (fun c hc => by cases hc)
  have hqfree : free.piece? u = some { q with carrier := none } := by
    rw [hfree, piece?_modifyPiece, if_pos rfl, hq]
    rfl
  -- back through the last of its movement, the way ashore and the leaving of the ship
  unfold disembark at hx'
  rcases of_piece?_modifyPiece hx' with ⟨y, hy, rfl⟩
  rcases hsound.of_piece?_relocate hqfree ashore hy with ⟨z, hz, -, hkind, howner, hcarrier, hterr⟩
  rcases of_piece?_modifyPiece hz with ⟨x, hx, rfl⟩
  refine ⟨x, hx, ?_⟩
  by_cases hwu : w = u
  · rw [if_pos (.inl hwu)] at hterr
    simp only [if_pos hwu, if_pos (Or.inl hwu)] at hkind howner hcarrier ⊢
    exact ⟨hkind, howner, hcarrier, hterr⟩
  · simp only [if_neg hwu] at hkind howner hcarrier hterr ⊢
    exact ⟨hkind, howner, hcarrier, hterr⟩

theorem effect_disembark (hb : b.Sound) {ashore : Route} (hdest : ashore.dest < b.atlas.size)
    (hu : MayLand p u b) : Effect p [u] b (disembark ashore b u) := by
  rcases hu with ⟨q, hq, howner, hset⟩
  have hsound : (b.modifyPiece u fun q => { q with carrier := none }).Sound :=
    hb.setCarrier hq hset (fun c hc => by cases hc)
  have hfree : (b.modifyPiece u fun q => { q with carrier := none }).piece? u =
      some { q with carrier := none } := by
    rw [piece?_modifyPiece, if_pos rfl, hq]
    rfl
  -- out of the ship, over land, and at the end of its movement
  have hfirst : Effect p [u] b (b.modifyPiece u fun q => { q with carrier := none }) :=
    Sound.effect_modifyPiece hsound (fun _ => rfl) fun _ => rfl
  have hmove := hsound.effect_relocate (p := p) hfree howner hdest (.inl rfl)
  have hlast : (disembark ashore b u).Sound :=
    hmove.sound.modifyPiece fun x => ⟨rfl, rfl, rfl, rfl, rfl⟩
  exact (hfirst.trans hmove).trans (Sound.effect_modifyPiece hlast (fun _ => rfl) fun _ => rfl)

theorem MayLand.disembark (hb : b.Sound) {ashore : Route} (hdest : ashore.dest < b.atlas.size)
    {w : PieceId} (hu : MayLand p u b) (hw : MayLand p w b) :
    MayLand p w (disembark ashore b u) := by
  have heffect := effect_disembark hb hdest hu
  rcases hw with ⟨x, hx, howner, hset⟩
  rcases heffect.after.piece_to hx with ⟨x', hx', hkind, howner'⟩
  rcases of_piece?_disembark hb hu ashore hx' with ⟨x₀, hx₀, -, -, hcarrier, -⟩
  rw [hx, Option.some.injEq] at hx₀
  subst hx₀
  refine ⟨x', hx', howner'.trans howner, ?_⟩
  intro c s' hc hs'
  rcases heffect.after.piece c s' hs' with ⟨s, hs, hskind, -⟩
  rw [hcarrier] at hc
  by_cases hwu : w = u
  · rw [if_pos hwu] at hc
    cases hc
  · rw [if_neg hwu] at hc
    rw [heffect.after.kind, hskind]
    exact hset c s hc hs

/-- A whole cargo goes ashore. -/
theorem effect_foldl_disembark (hb : b.Sound) {ashore : Route}
    (hdest : ashore.dest < b.atlas.size) {cs : List PieceId} (hcs : ∀ c ∈ cs, MayLand p c b) :
    Effect p cs b (cs.foldl (disembark ashore) b) := by
  -- the place to go ashore stays on the map
  refine Effect.foldl (P := fun c b => MayLand p c b ∧ ashore.dest < b.atlas.size) ?_ ?_ hb
    fun c hc => ⟨hcs c hc, hdest⟩
  · intro c hc b hb hland
    exact (effect_disembark hb hland.2 hland.1).mono (by simpa using hc)
  · intro c w b hb hc hw
    refine ⟨MayLand.disembark hb hc.2 hc.1 hw.1, ?_⟩
    rw [(effect_disembark hb hc.2 hc.1).after.size]
    exact hw.2

/-- An effect on what is aboard a named piece is an effect of naming that piece. -/
theorem Effect.through {named cs : List PieceId} {b₁ b₂ : Board} {ship : PieceId}
    (h₁ : Effect p named b b₁) (h₂ : Effect p cs b₁ b₂) (hship : ship ∈ named)
    (hcs : ∀ c ∈ cs, ∃ q, b₁.piece? c = some q ∧ q.carrier = some ship) :
    Effect p named b b₂ := by
  refine ⟨h₂.sound, h₁.after.trans h₂.after, ?_, ?_⟩
  · intro hcarry w q hq hw hc
    have hmid := h₁.spares hcarry w q hq hw hc
    have hcarry₁ := hcarry.of_sameGround h₁.after.toSameGround
    refine h₂.spares hcarry₁ w q hmid ?_ ?_
    · intro hin
      rcases hcs w hin with ⟨q₀, hq₀, hcarrier⟩
      rw [hmid, Option.some.injEq] at hq₀
      -- it would be aboard the ship, which is named
      exact hc ship (hq₀ ▸ hcarrier) hship
    · -- what is aboard a ship is a land piece, and nothing is aboard a land piece
      intro c hqc hin
      rcases h₁.sound.cargo w q c hmid hqc with ⟨s, hs, hcarries⟩
      rcases hcs c hin with ⟨s₀, hs₀, hcarrier⟩
      rw [hs, Option.some.injEq] at hs₀
      subst hs₀
      rcases h₁.sound.cargo c s ship hs hcarrier with ⟨_, -, hship'⟩
      have hland := hship'.land
      rw [PieceKind.isLand_eq_false_of_isSea (hcarry₁ s.kind hcarries.room)] at hland
      cases hland
  · intro w q hq hw hnone
    have hmid := h₁.lone w q hq hw hnone
    refine h₂.lone w q hmid ?_ hnone
    intro hin
    rcases hcs w hin with ⟨q₀, hq₀, hcarrier⟩
    rw [hmid, Option.some.injEq] at hq₀
    rw [← hq₀, hnone] at hcarrier
    cases hcarrier

/-- A ship of `p` that may sail and land on the map. -/
structure MaySail (p : PlayerId) (route : Route) (u : PieceId) (b : Board) : Prop where
  ship : ∃ q, b.piece? u = some q ∧ q.owner = p ∧ (b.kind q.kind).isSea = true
  sea : (seaLeg route).dest < b.atlas.size
  shore : route.dest < b.atlas.size

theorem MaySail.after {route : Route} {b' : Board} (h : MaySail p route u b)
    (hafter : After p b b') : MaySail p route u b' := by
  rcases h.ship with ⟨q, hq, howner, hsea⟩
  rcases hafter.piece_to hq with ⟨q', hq', hkind, howner'⟩
  refine ⟨⟨q', hq', howner'.trans howner, ?_⟩, hafter.size ▸ h.sea, hafter.size ▸ h.shore⟩
  rw [hafter.kind, hkind]
  exact hsea

/-- A ship sails by itself. -/
theorem MaySail.effect_relocate (hb : b.Sound) {route : Route} (hu : MaySail p route u b) :
    Effect p [u] b (b.relocate u (seaLeg route)) := by
  rcases hu.ship with ⟨q, hq, howner, hsea⟩
  have hnone := hb.carrier_eq_none hq (PieceKind.isLand_eq_false_of_isSea hsea)
  exact hb.effect_relocate hq howner hu.sea (.inl hnone)

/-- The cargo of a ship that has sailed: land pieces of the player that may go ashore. -/
theorem MaySail.cargo (hb : b.Sound) {route : Route} (hu : MaySail p route u b) {c : PieceId}
    (hc : c ∈ (b.relocate u (seaLeg route)).cargoOf u) :
    ∃ x, (b.relocate u (seaLeg route)).piece? c = some x ∧ x.carrier = some u ∧
      ((b.relocate u (seaLeg route)).kind x.kind).isLand = true ∧
      MayLand p c (b.relocate u (seaLeg route)) := by
  have hsail := hu.effect_relocate hb
  rcases hu.ship with ⟨q, hq, howner, hsea⟩
  rcases hsail.after.piece_to hq with ⟨q', hq', hkind, howner'⟩
  have hsea' : ((b.relocate u (seaLeg route)).kind q'.kind).isSea = true := by
    rw [hsail.after.kind, hkind]
    exact hsea
  rcases (hsail.sound.mem_cargoOf hq' hsea').1 hc with ⟨x, hx, hcarrier⟩
  rcases hsail.sound.cargo c x u hx hcarrier with ⟨s, hs, hcarries⟩
  rw [hq', Option.some.injEq] at hs
  subst hs
  refine ⟨x, hx, hcarrier, hcarries.land, x, hx, ?_, ?_⟩
  · rw [← hcarries.owner, howner', howner]
  · -- aboard a ship its place is certain
    intro c' s' hc' hs'
    rw [hcarrier, Option.some.injEq] at hc'
    rw [← hc', hq', Option.some.injEq] at hs'
    exact hs' ▸ hsea'

theorem effect_land (hb : b.Sound) {route : Route} (hu : MaySail p route u b) :
    Effect p [u] b (land route b u) := by
  have hsail := hu.effect_relocate hb
  have hdest : (Route.step (seaLeg route).dest route.dest).dest <
      (b.relocate u (seaLeg route)).atlas.size := by
    rw [atlas_relocate]
    exact hu.shore
  -- the ship sails first, and its cargo goes ashore from where it then is
  refine Effect.through hsail (effect_foldl_disembark hsail.sound hdest ?_)
    (List.mem_singleton_self u) ?_
  · intro c hc
    rcases hu.cargo hb hc with ⟨-, -, -, -, hland⟩
    exact hland
  · intro c hc
    rcases hu.cargo hb hc with ⟨x, hx, hcarrier, -⟩
    exact ⟨x, hx, hcarrier⟩

theorem effect_foldl_land (hb : b.Sound) {route : Route} {us : List PieceId}
    (hus : ∀ u ∈ us, MaySail p route u b) : Effect p us b (us.foldl (land route) b) := by
  refine Effect.foldl (P := MaySail p route) ?_ ?_ hb hus
  · intro u hu b hb hsail
    exact (effect_land hb hsail).mono (by simpa using hu)
  · intro u w b hb hu hw
    exact hw.after (effect_land hb hu).after

/-! ## Arriving -/

/-- Marks and changes of owner in favour of the player leave all pieces alone. -/
theorem effect_of_remarked (hb : b.Sound) {named : List PieceId} {b' : Board}
    (hremarked : b.Remarked b') (hatlas : b'.atlas.Sound)
    (howner : ∀ t, (b'.territory t).owner = (b.territory t).owner ∨
      (b'.territory t).owner = some p ∧ b.hasEnemyForce t p = false)
    (hconquered : ∀ t, b'.isConquered t = true →
      b.isConquered t = true ∨ b.isEnemyLand t p = true) : Effect p named b b' := by
  refine .of_spares ?_
    ⟨hremarked.toSameGround, by rw [hremarked.pieces], ?_, ?_, howner, hconquered⟩ ?_
  · refine hb.of_samePost hatlas hremarked.size hremarked.kinds hremarked.garrisons
      (by rw [hremarked.pieces]) ?_
    intro w x hx
    rw [hremarked.piece?] at hx
    exact ⟨x, hx, rfl, rfl, rfl, rfl, rfl⟩
  · intro w x hx
    rw [hremarked.piece?] at hx
    exact ⟨x, hx, rfl, rfl⟩
  · intro w x _ _ t
    rw [hremarked.garrison]
  · intro w x hx _ _
    rw [hremarked.piece?, hx]

theorem effect_arrive (hb : b.Sound) (named : List PieceId) (landArrived : Bool)
    (t : TerritoryId) : Effect p named b (arrive p landArrived b t) := by
  unfold arrive
  -- a fight only leaves a mark, and only undefended land is captured
  split
  · exact effect_of_remarked hb (remarked_setBattle b t true) hb.atlas (fun _ => .inl rfl)
      fun _ => .inl
  · rename_i hundefended
    split
    · rename_i hcaptured
      rw [Bool.and_eq_true] at hcaptured
      refine effect_of_remarked hb (remarked_capture b t p) (hb.atlas.modify t _ fun _ => rfl) ?_ ?_
      · intro x
        rw [territory_capture]
        split
        · rename_i hx
          exact .inr ⟨rfl, hx.1 ▸ Bool.eq_false_iff.2 hundefended⟩
        · exact .inl rfl
      · intro x hx
        by_cases htx : t = x
        · exact .inr (htx ▸ hcaptured.2)
        · left
          unfold isConquered setConquered modifyTerritory at hx
          simpa [htx, isConquered] using hx
    · exact .refl p named hb

theorem effect_passThrough (hb : b.Sound) (named : List PieceId) (t : TerritoryId) :
    Effect p named b (passThrough p b t) := by
  unfold passThrough
  split
  · exact effect_arrive hb named true t
  · exact .refl p named hb

theorem effect_foldl_passThrough (hb : b.Sound) (named : List PieceId) (ts : List TerritoryId) :
    Effect p named b (ts.foldl (passThrough p) b) := by
  refine Effect.foldl (P := fun _ _ => True) ?_ (fun _ _ _ _ _ _ => trivial) hb fun _ _ => trivial
  intro t _ b hb _
  exact effect_passThrough hb named t

/-! ## Orders -/

/-- Everything entered on a connected route is on the map. -/
theorem lt_size_of_mem_steps (hb : b.Sound) {route : Route}
    (hwalk : route.territories.IsChain (b.atlas.isAdjacent · · = true)) {t : TerritoryId}
    (ht : t ∈ route.steps) : t < b.atlas.size := by
  rcases List.append_of_mem ht with ⟨before, after, hsplit⟩
  rw [Route.territories, hsplit] at hwalk
  -- the territory entered just before
  rcases List.eq_nil_or_concat before with rfl | ⟨init, s, rfl⟩
  · exact hb.atlas.adjacent_lt _ t (List.isChain_cons_cons.1 hwalk).1
  · rw [List.concat_eq_append, List.append_assoc, ← List.cons_append] at hwalk
    have hpair := (List.isChain_append_cons_cons.1 hwalk).2.1
    exact hb.atlas.adjacent_lt s t hpair

theorem lt_size_dest (hb : b.Sound) {route : Route}
    (hwalk : route.territories.IsChain (b.atlas.isAdjacent · · = true))
    (hstart : route.start < b.atlas.size) : route.dest < b.atlas.size := by
  cases hemp : route.isEmpty with
  | true =>
    rw [Route.dest, Route.isEmpty_iff.1 hemp]
    exact hstart
  | false => exact lt_size_of_mem_steps hb hwalk (Route.dest_mem_steps hemp)

theorem walk_seaLeg {route : Route}
    (hwalk : route.territories.IsChain (b.atlas.isAdjacent · · = true)) :
    (seaLeg route).territories.IsChain (b.atlas.isAdjacent · · = true) := by
  have htake : (seaLeg route).territories = route.territories.take (route.length - 1 + 1) := rfl
  rw [htake]
  exact hwalk.take _

/-- A piece of `p` that may leave along a route by itself. -/
structure MayLeave (p : PlayerId) (route : Route) (u : PieceId) (b : Board) : Prop where
  alone : ∃ q, b.piece? u = some q ∧ q.owner = p ∧ q.carrier = none
  goal : route.dest < b.atlas.size

theorem MayLeave.effect_relocate (hb : b.Sound) {route : Route} (hu : MayLeave p route u b) :
    Effect p [u] b (b.relocate u route) := by
  rcases hu.alone with ⟨q, hq, howner, hnone⟩
  exact hb.effect_relocate hq howner hu.goal (.inl hnone)

/-- A piece that is listed again still stands by itself. -/
theorem MayLeave.relocate (hb : b.Sound) {route : Route} {w : PieceId} (hu : MayLeave p route u b)
    (hw : MayLeave p route w b) : MayLeave p route w (b.relocate u route) := by
  rcases hu.alone with ⟨q, hq, -⟩
  rcases hw.alone with ⟨x, hx, hxowner, hxnone⟩
  rcases Sound.exists_piece?_relocate (u := u) hx route with ⟨x', hx'⟩
  rcases hb.of_piece?_relocate hq route hx' with ⟨x₀, hx₀, -, -, howner', hcarrier', -⟩
  rw [hx, Option.some.injEq] at hx₀
  subst hx₀
  refine ⟨⟨x', hx', howner'.trans hxowner, hcarrier'.trans hxnone⟩, ?_⟩
  rw [atlas_relocate]
  exact hu.goal

/-- Pieces that stand by themselves go the same way. -/
theorem effect_foldl_relocate (hb : b.Sound) {route : Route} (hdest : route.dest < b.atlas.size)
    {us : List PieceId} (hus : b.Alone p us) :
    Effect p us b (us.foldl (fun b u => b.relocate u route) b) := by
  refine Effect.foldl (P := MayLeave p route) ?_ ?_ hb fun u hu => ⟨hus u hu, hdest⟩
  · intro u hu b hb hgo
    exact (hgo.effect_relocate hb).mono (by simpa using hu)
  · intro u w b hb hu hw
    exact hu.relocate hb hw

theorem effect_moveAlong (hb : b.Sound)
    (hdest : o.route.dest < b.atlas.size) (hus : b.Alone p o.pieces) :
    Effect p o.pieces b (moveAlong b p o) := by
  have hmoved := effect_foldl_relocate hb hdest hus
  unfold moveAlong
  set moved := o.pieces.foldl (fun b u => b.relocate u o.route) b
  -- land pieces capture on the way what they pass through
  have hpassed : Effect p o.pieces b
      (if (o.pieces.filterMap b.asset?).any (·.kind.isLand) then
        o.route.between.foldl (passThrough p) moved else moved) := by
    split
    · exact hmoved.trans (effect_foldl_passThrough hmoved.sound o.pieces _)
    · exact hmoved
  split
  · exact hpassed
  · exact hpassed.trans (effect_arrive hpassed.sound o.pieces _ _)

/-- The party of a legal order to load may go aboard. -/
theorem boards_of_checkLoad {h : Table} {transport : PieceId}
    (hcheck : h.checkLoad p o transport = .ok ()) :
    ∀ u ∈ o.pieces, Boards p transport o.route.dest u h.board := by
  rcases checkLoad_ok_iff.1 hcheck with ⟨s, hs, howner, hroom, -, hplace, hall, -⟩
  rcases asset?_eq_some.1 hs with ⟨hspiece, hskind⟩
  refine fun u hu => ⟨?_, ?_⟩
  · rcases checkPassenger_ok_iff.1 (hall u hu) with ⟨a, ha, haowner, -, hnone, hcan, -⟩
    rcases asset?_eq_some.1 ha with ⟨hapiece, hakind⟩
    have hland := PieceKind.isLand_of_canBeTransported hcan
    rw [hakind] at hland
    exact ⟨a.piece, hapiece, haowner, hland, .inl hnone⟩
  · exact ⟨s.piece, hspiece, howner, Nat.pos_of_ne_zero (hskind ▸ hroom), hplace⟩

/-- What an order that is taken names is the player's and stands where the route starts. -/
theorem named_of_submitMove {h h' : Table} (htaken : h.submitMove p o = .ok h') :
    ∀ u ∈ o.pieces, ∃ a, h.board.asset? u = some a ∧ a.piece.owner = p ∧
      a.piece.territory = o.route.start := by
  rcases submitMove_ok_iff.1 htaken with ⟨-, -, hcheck, -⟩
  unfold checkAction at hcheck
  intro u hu
  cases haction : o.action with
  | move =>
    simp only [haction] at hcheck
    rcases checkMover_ok_iff.1 ((checkMove_ok_iff.1 hcheck).1 u hu) with ⟨a, ha, howner, hstart, -⟩
    exact ⟨a, ha, howner, hstart⟩
  | load transport =>
    simp only [haction] at hcheck
    rcases checkLoad_ok_iff.1 hcheck with ⟨-, -, -, -, -, -, hall, -⟩
    rcases checkPassenger_ok_iff.1 (hall u hu) with ⟨a, ha, howner, hstart, -⟩
    exact ⟨a, ha, howner, hstart⟩
  | unload =>
    simp only [haction] at hcheck
    rcases checkLander_ok_iff.1 ((checkUnload_ok_iff.1 hcheck).2.1 u hu) with
      ⟨a, ha, howner, -, -, hstart, -⟩
    exact ⟨a, ha, howner, hstart⟩

/-- The way of an order that is taken starts where some piece stands, so all of it is on the map. -/
theorem dest_lt_of_submitMove {h h' : Table} (hb : h.board.Sound)
    (htaken : h.submitMove p o = .ok h') :
    o.route.dest < h.board.atlas.size ∧ (seaLeg o.route).dest < h.board.atlas.size := by
  rcases submitMove_ok_iff.1 htaken with ⟨hsome, hwalk, -, -⟩
  rcases List.exists_mem_of_ne_nil _ hsome with ⟨u, hu⟩
  rcases named_of_submitMove htaken u hu with ⟨a, ha, -, hstart⟩
  have hlt : o.route.start < h.board.atlas.size :=
    hstart ▸ hb.territory_lt u a.piece (asset?_eq_some.1 ha).1
  exact ⟨lt_size_dest hb hwalk hlt, lt_size_dest hb (walk_seaLeg hwalk) hlt⟩

/-- The pieces of a legal order to move stand by themselves. -/
theorem alone_of_checkMove {h : Table} (hcheck : h.checkMove p o = .ok ()) :
    h.board.Alone p o.pieces := by
  intro u hu
  rcases checkMover_ok_iff.1 ((checkMove_ok_iff.1 hcheck).1 u hu) with ⟨a, ha, howner, -, -, hnone, -⟩
  exact ⟨a.piece, (asset?_eq_some.1 ha).1, howner, hnone⟩

/-- The ships of an order to unload that is taken may sail and land. -/
theorem maySail_of_submitMove {h h' : Table} (hb : h.board.Sound)
    (htaken : h.submitMove p o = .ok h') (hcheck : h.checkUnload p o = .ok ()) :
    ∀ u ∈ o.pieces, MaySail p o.route u h.board := by
  intro u hu
  rcases checkLander_ok_iff.1 ((checkUnload_ok_iff.1 hcheck).2.1 u hu) with ⟨a, ha, howner, hship, -⟩
  rcases asset?_eq_some.1 ha with ⟨hpiece, hkind⟩
  rw [PieceKind.carriesCargo_iff, hkind] at hship
  rcases dest_lt_of_submitMove hb htaken with ⟨hshore, hsea⟩
  exact ⟨⟨a.piece, hpiece, howner, hship.1⟩, hsea, hshore⟩

/-- Every order that is taken leaves the board well-formed, foreign pieces where they are, and the
player's other pieces as they are. -/
theorem submitMove_effect {h h' : Table} (hb : h.board.Sound)
    (htaken : h.submitMove p o = .ok h') : Effect p o.pieces h.board h'.board := by
  have hdest := (dest_lt_of_submitMove hb htaken).1
  have hships := maySail_of_submitMove hb htaken
  rcases submitMove_ok_iff.1 htaken with ⟨-, -, hcheck, rfl⟩
  show Effect p o.pieces h.board (carryOut h.board p o)
  unfold checkAction at hcheck
  unfold carryOut
  cases haction : o.action with
  | move =>
    simp only [haction] at hcheck
    exact effect_moveAlong hb hdest (alone_of_checkMove hcheck)
  | load transport =>
    simp only [haction] at hcheck
    exact effect_foldl_embark hb (boards_of_checkLoad hcheck)
  | unload =>
    simp only [haction] at hcheck
    have hlands : Effect p o.pieces h.board (o.pieces.foldl (land o.route) h.board) :=
      effect_foldl_land hb (hships hcheck)
    exact hlands.trans (effect_arrive hlands.sound o.pieces true o.route.dest)

end Table

end Conquest
