import Conquest.Proofs.Play

/-!
# What an order has no business with

An order, a purchase or a placement is a matter of the player who gives it. The pieces of others
stay as they are, in the same order in every garrison, and so do the money and the purchases of
others and the ground of the game. Of the player's own pieces only those change that the order names
and what is aboard them. Where only ships have cargo space this holds of every command of every
game, since nothing is ever aboard a piece of somebody else.

* `Board.foreignersIn`: the pieces of others in a garrison; `Board.SameRanks`: they stand as before.
* `Table.sameRanks_regroup`: an order moves the player's pieces past the others.
* `Table.Spares`: all that a command leaves alone; `Scenario.answer_spares`: every command of every
  game.
-/

namespace Conquest

/-- The player who gives an order, buys or places. -/
def Command.issuer? : Command → Option PlayerId
  | .move p _ | .purchase p _ | .placement p _ => some p
  | .beginEpoch .. | .endTurn _ => none

/-- The pieces that a command names. -/
def Command.named : Command → List PieceId
  | .move _ o => o.pieces
  | .purchase .. | .placement .. | .beginEpoch .. | .endTurn _ => []

namespace Board

variable {p : PlayerId} {b b' b'' : Board} {u : PieceId} {q : Piece}

/-- Whether a piece belongs to another player than `p`. -/
def isForeign (b : Board) (p : PlayerId) (u : PieceId) : Bool := (b.piece? u).any (·.owner != p)

/-- The pieces of others than `p` in a territory, in order of arrival. -/
def foreignersIn (b : Board) (t : TerritoryId) (p : PlayerId) : List PieceId :=
  (b.garrison t).filter (b.isForeign p)

/-! ## Ranks -/

/-- The same pieces are foreign to `p`, and they stand in the same order in every garrison. -/
structure SameRanks (p : PlayerId) (b b' : Board) : Prop where
  isForeign : ∀ u, b'.isForeign p u = b.isForeign p u
  foreignersIn : ∀ t, b'.foreignersIn t p = b.foreignersIn t p

namespace SameRanks

theorem refl (p : PlayerId) (b : Board) : SameRanks p b b := ⟨fun _ => rfl, fun _ => rfl⟩

theorem trans (h : SameRanks p b b') (h' : SameRanks p b' b'') : SameRanks p b b'' :=
  ⟨fun u => (h'.isForeign u).trans (h.isForeign u),
    fun t => (h'.foreignersIn t).trans (h.foreignersIn t)⟩

/-- It is enough to look at the garrisons with the eyes of before. -/
theorem of_garrison (hforeign : ∀ u, b'.isForeign p u = b.isForeign p u)
    (hgarrison : ∀ t, (b'.garrison t).filter (b.isForeign p) =
      (b.garrison t).filter (b.isForeign p)) : SameRanks p b b' := by
  refine ⟨hforeign, fun t => ?_⟩
  rw [Board.foreignersIn, funext hforeign]
  exact hgarrison t

theorem of_remarked (h : b.Remarked b') : SameRanks p b b' := by
  refine .of_garrison ?_ ?_
  · intro u
    rw [Board.isForeign, h.piece?, Board.isForeign]
  · intro t
    rw [h.garrison]

/-- A piece that changes in what is not its owner stays in its rank. -/
theorem modifyPiece (p : PlayerId) (b : Board) (u : PieceId) {f : Piece → Piece}
    (hf : ∀ x, (f x).owner = x.owner) : SameRanks p b (b.modifyPiece u f) := by
  refine .of_garrison ?_ fun t => by rw [garrison_modifyPiece]
  intro w
  unfold Board.isForeign
  rw [piece?_modifyPiece]
  split
  · rw [Option.any_map]
    simp only [hf]
  · rfl

/-- A new piece of the player joins its garrison behind the others. -/
theorem addPiece (hsize : b.garrisons.size = b.atlas.size) (k : KindId) {t : TerritoryId}
    (ht : t < b.atlas.size) : SameRanks p b (b.addPiece k p t) := by
  have hfresh : b.isForeign p b.pieces.size = false := by
    simp [Board.isForeign, piece?]
  refine .of_garrison ?_ ?_
  · intro u
    by_cases hu : u = b.pieces.size
    · rw [hu, hfresh, Board.isForeign, piece?_addPiece]
      simp
    · rw [Board.isForeign, piece?_addPiece_of_ne b k p t hu, Board.isForeign]
  · intro x
    rw [garrison_addPiece b k p t (hsize ▸ ht)]
    split
    · rw [List.filter_append, List.filter_cons_of_neg (by simp [hfresh]), List.filter_nil,
        List.append_nil]
    · rfl

/-- A fold keeps the ranks if its steps do, as long as each step leaves the later ones possible. -/
theorem foldl {α : Type} {f : Board → α → Board} {P : α → Board → Prop} {xs : List α}
    (hstep : ∀ x b, b.Sound → P x b → (f b x).Sound ∧ SameRanks p b (f b x))
    (hkeep : ∀ x y (b : Board), b.Sound → P x b → P y b → P y (f b x))
    (hb : b.Sound) (hxs : ∀ x ∈ xs, P x b) : SameRanks p b (xs.foldl f b) := by
  refine (foldl_keeps (Q := fun b' => b'.Sound ∧ SameRanks p b b') ?_ ?_ ⟨hb, .refl p b⟩ hxs).2
  · rintro x - b' ⟨hb', hranks⟩ hx
    obtain ⟨hsound, hnext⟩ := hstep x b' hb' hx
    exact ⟨hsound, hranks.trans hnext⟩
  · rintro x y b' ⟨hb', -⟩ hx hy
    exact hkeep x y b' hb' hx hy

end SameRanks

/-- Pieces of the player that go from one garrison to another go past the others. -/
theorem filter_garrisonAfter {us : List PieceId} (hus : ∀ u ∈ us, b.isForeign p u = false)
    (source goal x : TerritoryId) :
    (b.garrisonAfter us source goal x).filter (b.isForeign p) =
      (b.garrison x).filter (b.isForeign p) := by
  unfold garrisonAfter
  split
  · rfl
  · split
    · rw [List.filter_filter]
      apply List.filter_congr
      intro w _
      -- who is foreign is not among those that go
      cases hw : b.isForeign p w with
      | false => rfl
      | true =>
        have hstays : w ∉ us := by
          intro hin
          rw [hus w hin] at hw
          cases hw
        simp [hstays]
    · split
      · have hnone : us.filter (b.isForeign p) = [] := by
          rw [List.filter_eq_nil_iff]
          intro u hu
          rw [hus u hu]
          exact Bool.false_ne_true
        rw [List.filter_append, hnone, List.append_nil]
      · rfl

theorem isForeign_eq_false (hq : b.piece? u = some q) (howner : q.owner = p) :
    b.isForeign p u = false := by
  simp [isForeign, hq, howner]

/-- What travels together belongs to one player. -/
theorem Sound.isForeign_of_traveller (hb : b.Sound) (hq : b.piece? u = some q)
    (howner : q.owner = p) : ∀ w ∈ u :: b.aboard u, b.isForeign p w = false := by
  intro w hw
  rcases List.mem_cons.1 hw with rfl | hin
  · exact isForeign_eq_false hq howner
  · obtain ⟨x, hx, hcarrier⟩ := hb.mem_aboard.1 hin
    obtain ⟨s, hs, hcarries⟩ := hb.cargo w x u hx hcarrier
    rw [hq, Option.some.injEq] at hs
    exact isForeign_eq_false hx (by rw [← hcarries.owner, ← hs, howner])

theorem Sound.sameRanks_relocate (hb : b.Sound) (hq : b.piece? u = some q) (howner : q.owner = p)
    {route : Route} (hdest : route.dest < b.atlas.size) :
    SameRanks p b (b.relocate u route) := by
  have hs : q.territory < b.garrisons.size := hb.garrisons_size ▸ hb.territory_lt u q hq
  have hg : route.dest < b.garrisons.size := hb.garrisons_size ▸ hdest
  refine .of_garrison ?_ ?_
  · intro w
    unfold isForeign
    rw [piece?_relocate hq, Option.any_map]
    congr 1
    funext x
    split
    · rfl
    · split
      · rfl
      · rfl
  · intro t
    rw [garrison_relocate hq route hs hg]
    exact filter_garrisonAfter (hb.isForeign_of_traveller hq howner) _ _ t

end Board

namespace Table

open Board

variable {h h' : Table} {p : PlayerId} {b : Board} {u : PieceId} {q : Piece} {o : Order}

/-! ## Moving past others -/

theorem sameRanks_foldl_relocate (hb : b.Sound) {route : Route} (hdest : route.dest < b.atlas.size)
    {us : List PieceId} (hus : b.Alone p us) :
    SameRanks p b (us.foldl (fun b u => b.relocate u route) b) := by
  refine .foldl (P := MayLeave p route) ?_ (fun _ _ _ hb hu hw => hu.relocate hb hw) hb
    fun u hu => ⟨hus u hu, hdest⟩
  intro u b hb hgo
  obtain ⟨q, hq, howner, -⟩ := hgo.alone
  exact ⟨(hgo.effect_relocate hb).sound, hb.sameRanks_relocate hq howner hgo.goal⟩

theorem sameRanks_foldl_embark (hb : b.Sound) {transport : PieceId} {route : Route}
    {us : List PieceId} (hus : ∀ u ∈ us, Boards p transport route.dest u b) :
    SameRanks p b (us.foldl (embark transport route) b) := by
  refine .foldl (P := Boards p transport route.dest) ?_ (fun _ _ _ hb hu hw => hu.embark hb hw) hb
    hus
  intro u b hb hboards
  obtain ⟨q, hq, howner, -⟩ := hboards.passenger
  obtain ⟨s, hs, -, -, hplace⟩ := hboards.transport
  have hdest : route.dest < b.atlas.size := hplace ▸ hb.territory_lt transport s hs
  have hmoved := hb.sameRanks_relocate hq howner hdest
  exact ⟨(effect_embark hb hboards).sound, hmoved.trans (.modifyPiece p _ u fun _ => rfl)⟩

theorem sameRanks_disembark (hb : b.Sound) {ashore : Route} (hdest : ashore.dest < b.atlas.size)
    (hland : MayLand p u b) : SameRanks p b (disembark ashore b u) := by
  obtain ⟨q, hq, howner, hset⟩ := hland
  have hfree : (b.modifyPiece u fun q => { q with carrier := none }).piece? u =
      some { q with carrier := none } := by
    rw [piece?_modifyPiece, if_pos rfl, hq]
    rfl
  have hsound : (b.modifyPiece u fun q => { q with carrier := none }).Sound :=
    hb.setCarrier hq hset fun c hc => by cases hc
  have hout : SameRanks p b (b.modifyPiece u fun q => { q with carrier := none }) :=
    .modifyPiece p b u fun _ => rfl
  exact (hout.trans (hsound.sameRanks_relocate hfree howner hdest)).trans
    (.modifyPiece p _ u fun _ => rfl)

theorem sameRanks_foldl_disembark (hb : b.Sound) {ashore : Route}
    (hdest : ashore.dest < b.atlas.size) {cs : List PieceId} (hcs : ∀ c ∈ cs, MayLand p c b) :
    SameRanks p b (cs.foldl (disembark ashore) b) := by
  refine .foldl (P := fun c b => MayLand p c b ∧ ashore.dest < b.atlas.size) ?_ ?_ hb
    fun c hc => ⟨hcs c hc, hdest⟩
  · rintro c b hb ⟨hland, hdest⟩
    exact ⟨(effect_disembark hb hdest hland).sound, sameRanks_disembark hb hdest hland⟩
  · rintro c w b hb ⟨hc, hdest⟩ ⟨hw, -⟩
    exact ⟨hc.disembark hb hdest hw, (effect_disembark hb hdest hc).after.size.symm ▸ hdest⟩

theorem sameRanks_land (hb : b.Sound) {route : Route} (hsail : MaySail p route u b) :
    SameRanks p b (land route b u) := by
  obtain ⟨q, hq, howner, -⟩ := hsail.ship
  have hfirst := hb.sameRanks_relocate hq howner hsail.sea
  refine hfirst.trans (sameRanks_foldl_disembark (hsail.effect_relocate hb).sound ?_ ?_)
  · rw [atlas_relocate]
    exact hsail.shore
  · intro c hc
    obtain ⟨-, -, -, -, hland⟩ := hsail.cargo hb hc
    exact hland

/-- An order that is taken moves pieces of the player past the others. -/
theorem sameRanks_regroup (hb : h.board.Sound) (htaken : h.submitMove p o = .ok h') :
    SameRanks p h.board (regroup h.board o) := by
  have hdest := (dest_lt_of_submitMove hb htaken).1
  have hships := maySail_of_submitMove hb htaken
  obtain ⟨-, -, hcheck, -⟩ := submitMove_ok_iff.1 htaken
  unfold checkAction at hcheck
  unfold regroup
  cases haction : o.action with
  | move =>
    simp only [haction] at hcheck
    exact sameRanks_foldl_relocate hb hdest (alone_of_checkMove hcheck)
  | load transport =>
    simp only [haction] at hcheck
    exact sameRanks_foldl_embark hb (boards_of_checkLoad hcheck)
  | unload =>
    simp only [haction] at hcheck
    refine .foldl (P := MaySail p o.route) ?_ ?_ hb (hships hcheck)
    · intro u b hb hsail
      exact ⟨(effect_land hb hsail).sound, sameRanks_land hb hsail⟩
    · intro u w b hb hu hw
      exact hw.after (effect_land hb hu).after

/-! ## Commands -/

/-- What a command of `p` that names the pieces `named` leaves alone: the ground, the money and the
purchases of others, the pieces of others and their ranks, and every piece that is neither named nor
aboard one that is. -/
structure Spares (p : PlayerId) (named : List PieceId) (h h' : Table) : Prop where
  kinds : h'.board.kinds = h.board.kinds
  players : h'.board.players = h.board.players
  rules : h'.board.rules = h.board.rules
  adjacency : h'.board.atlas.adjacency = h.board.atlas.adjacency
  budget : ∀ q, q ≠ p → h'.board.budget q = h.board.budget q
  pending : ∀ q, q ≠ p → h'.pendingOf q = h.pendingOf q
  foreign : ∀ u x, x.owner ≠ p → (h'.board.piece? u = some x ↔ h.board.piece? u = some x)
  ranks : ∀ t, h'.board.foreignersIn t p = h.board.foreignersIn t p
  others : ∀ u x, h.board.piece? u = some x → u ∉ named →
    (∀ c, x.carrier = some c → c ∉ named) → h'.board.piece? u = some x

/-- The purchases of others are not touched. -/
theorem getD_modify_of_ne {pending : Array Tally} {q : PlayerId} (hq : q ≠ p)
    (f : Tally → Tally) : (pending.modify p f).getD q .empty = pending.getD q .empty := by
  rw [Array.getD_eq_getD_getElem?, Array.getElem?_modify, if_neg (Ne.symm hq),
    Array.getD_eq_getD_getElem?]

/-- Nothing that is foreign is named or aboard a named piece. -/
theorem spares_submitMove (hb : h.board.Sound) (hcarry : h.board.OnlyShipsCarry)
    (htaken : h.submitMove p o = .ok h') : Spares p o.pieces h h' := by
  have heffect := submitMove_effect hb htaken
  have hground := heffect.after.toSameGround
  have hnamed := named_of_submitMove htaken
  have hranks := sameRanks_regroup hb htaken
  have hforeign : ∀ u x, h.board.piece? u = some x → x.owner ≠ p → u ∉ o.pieces := by
    intro u x hx hne hin
    obtain ⟨a, ha, howner, -⟩ := hnamed u hin
    rw [(asset?_eq_some.1 ha).1, Option.some.injEq] at hx
    exact hne (hx ▸ howner)
  have hstays : ∀ u x, x.owner ≠ p → h.board.piece? u = some x → h'.board.piece? u = some x := by
    intro u x hne hx
    refine heffect.spares hcarry u x hx (hforeign u x hx hne) ?_
    intro c hc
    obtain ⟨s, hs, hcarries⟩ := hb.cargo u x c hx hc
    exact hforeign c s hs (hcarries.owner ▸ hne)
  obtain ⟨-, -, -, rfl⟩ := submitMove_ok_iff.1 htaken
  have hremarked := remarked_carryOut h.board p o
  constructor
  · exact hground.kinds
  · exact hground.players
  · exact hground.rules
  · exact hground.adjacency
  · intro q _
    exact budget_congr _ (hremarked.budgets.trans (regrouped_regroup h.board o).budgets) q
  · intro q _
    rfl
  · intro u x hne
    refine ⟨?_, hstays u x hne⟩
    intro hx
    -- it was foreign before, so it is the same piece
    obtain ⟨y, hy, -, howner⟩ := heffect.after.piece u x hx
    have hsame := hstays u y (howner ▸ hne) hy
    rw [hx, Option.some.injEq] at hsame
    rw [hsame]
    exact hy
  · exact (hranks.trans (.of_remarked hremarked)).foreignersIn
  · exact heffect.spares hcarry

theorem spares_submitPurchase {bought : Tally} (htaken : h.submitPurchase p bought = .ok h') :
    Spares p [] h h' := by
  obtain ⟨-, -, rfl⟩ := submitPurchase_ok_iff.1 htaken
  constructor
  · rfl
  · rfl
  · rfl
  · rfl
  · intro q hq
    show (h.board.setBudget p _).budget q = h.board.budget q
    rw [budget_setBudget, if_neg fun hboth => hq hboth.1.symm]
  · intro q hq
    exact getD_modify_of_ne hq _
  · intro u x _
    exact .rfl
  · intro t
    rfl
  · intro u x hx _ _
    exact hx

/-- New pieces join the others. -/
theorem spares_foldl_addPiece (kinds : List KindId) {t : TerritoryId} (hb : b.Sound)
    (ht : t < b.atlas.size) :
    SameRanks p b (kinds.foldl (fun b k => b.addPiece k p t) b) ∧
      ∀ u x, x.owner ≠ p ∨ b.piece? u = some x →
        ((kinds.foldl (fun b k => b.addPiece k p t) b).piece? u = some x ↔
          b.piece? u = some x) := by
  induction kinds generalizing b with
  | nil => exact ⟨.refl p b, fun _ _ _ => .rfl⟩
  | cons k rest ih =>
    obtain ⟨hranks, hpieces⟩ := ih (hb.addPiece k p ht) ht
    refine ⟨(SameRanks.addPiece hb.garrisons_size k ht).trans hranks, ?_⟩
    -- the first of the new pieces is the player's own
    have hfirst : ∀ u x, x.owner ≠ p ∨ b.piece? u = some x →
        ((b.addPiece k p t).piece? u = some x ↔ b.piece? u = some x) := by
      intro u x hx
      by_cases hu : u = b.pieces.size
      · subst hu
        have hnone : b.piece? b.pieces.size = none := by simp [piece?]
        rw [piece?_addPiece, hnone, Option.some.injEq]
        rw [hnone] at hx
        refine ⟨?_, fun habsurd => by cases habsurd⟩
        rintro rfl
        exact absurd rfl (hx.resolve_right (by simp))
      · rw [piece?_addPiece_of_ne b k p t hu]
    intro u x hx
    rw [List.foldl_cons, hpieces u x (hx.imp id (hfirst u x hx).2), hfirst u x hx]

theorem spares_submitPlacement {x : Placement} (hb : h.board.Sound)
    (htaken : h.submitPlacement p x = .ok h') : Spares p [] h h' := by
  obtain ⟨-, factory, hcharged, -, rfl⟩ := submitPlacement_ok_iff.1 htaken
  have ht := lt_size_of_chargedFactory? hcharged
  have hground := (foldl_addPiece_keeps (p := p) x.kinds hb ht).2
  have hregrouped := Regrouped.foldl (fun b k => .addPiece b k p x.territory) x.kinds h.board
  obtain ⟨hranks, hpieces⟩ := spares_foldl_addPiece (p := p) x.kinds hb ht
  constructor
  · exact hground.kinds
  · exact hground.players
  · exact hground.rules
  · exact hground.adjacency
  · intro q _
    exact budget_congr h.board hregrouped.budgets q
  · intro q hq
    exact getD_modify_of_ne hq _
  · intro u y hne
    exact hpieces u y (.inl hne)
  · exact hranks.foreignersIn
  · intro u y hy _ _
    exact (hpieces u y (.inr hy)).2 hy

/-- Every command of a player that is taken is a matter of that player. -/
theorem spares_answer {c : Command} (hb : h.board.Sound) (hcarry : h.board.OnlyShipsCarry)
    (hissuer : c.issuer? = some p) (htaken : h.answer c = .ok h') : Spares p c.named h h' := by
  cases c with
  | move r o =>
    cases hissuer
    exact spares_submitMove hb hcarry htaken
  | purchase r bought =>
    cases hissuer
    exact spares_submitPurchase htaken
  | placement r x =>
    cases hissuer
    exact spares_submitPlacement hb htaken
  | beginEpoch r e => cases hissuer
  | endTurn r => cases hissuer

end Table

namespace Scenario

open Board Table

/-- Every order, purchase and placement that is taken in a game of a scenario in which only ships
have cargo space is a matter of the player who gives it, and of the pieces that it names and what is
aboard them. -/
theorem answer_spares (s : Scenario) (h₀ : Table) (hset : s.setUp = .ok h₀)
    (hships : ∀ kind ∈ s.kinds, 0 < kind.transportCapacity → kind.isSea = true)
    (commands : List Command) (c : Command) (p : PlayerId) (hissuer : c.issuer? = some p)
    (h' : Table) (htaken : (h₀.play commands).answer c = .ok h') :
    Spares p c.named (h₀.play commands) h' := by
  obtain ⟨hsound, hground⟩ := play_keeps (setUp_sound hset) commands
  have hcarry : h₀.board.OnlyShipsCarry := by
    refine forall_kind_of_setUp (P := fun kind => 0 < kind.transportCapacity → kind.isSea = true)
      hset ?_ (fun _ _ h => h) hships
    decide
  exact spares_answer hsound (hcarry.of_sameGround hground) hissuer htaken

/-- Red and its ally Green share a camp and a hill. -/
def sharedCamp : Scenario where
  players := [{ name := "Red" }, { name := "Green" }]
  territories := [
    { name := "Camp", owner := some "Green" }, { name := "Hill", owner := some "Red" }]
  connections := [("Camp", "Hill")]
  kinds := [{ name := "infantry", attack := 1, defense := 2, cost := 3 }]
  pieces := [
    { kind := "infantry", owner := "Green", place := "Camp" },
    { kind := "infantry", owner := "Red", place := "Camp" },
    { kind := "infantry", owner := "Green", place := "Camp" },
    { kind := "infantry", owner := "Green", place := "Hill" }]

/-- The infantry of Red leaves the camp for the hill. -/
def upTheHill : Command := .move 0 { pieces := [1], route := .step 0 1 }

set_option maxRecDepth 100000 in
/-- The infantry of Green stands in the camp and on the hill as before. -/
theorem answer_spares_sharedCamp : ∃ h h', sharedCamp.setUp = .ok h ∧
    (h.play []).answer upTheHill = .ok h' ∧ h'.board.foreignersIn 0 0 = [0, 2] ∧
    h'.board.foreignersIn 1 0 = [3] ∧ h'.board.piece? 2 = (h.play []).board.piece? 2 := by
  have hpass : (sharedCamp.setUp.toOption.any fun h =>
      ((h.play []).answer upTheHill).isOk && decide (
        (h.play []).board.foreignersIn 0 0 = [0, 2] ∧ (h.play []).board.foreignersIn 1 0 = [3] ∧
        ∃ q ∈ (h.play []).board.piece? 2, q.owner = 1)) = true := by
    decide +kernel
  obtain ⟨h, hset, hcheck⟩ := Scenario.exists_setUp hpass
  rw [Bool.and_eq_true] at hcheck
  obtain ⟨hok, hfacts⟩ := hcheck
  obtain ⟨h', htaken⟩ := exists_eq_ok hok
  obtain ⟨hcamp, hhill, q, hq, howner⟩ := of_decide_eq_true hfacts
  have hspares := answer_spares sharedCamp h hset (by decide) [] upTheHill 0 rfl h' htaken
  refine ⟨h, h', hset, htaken, (hspares.ranks 0).trans hcamp, (hspares.ranks 1).trans hhill, ?_⟩
  rw [hq, hspares.foreign 2 q (by simp [howner])]
  exact hq

end Scenario

end Conquest
