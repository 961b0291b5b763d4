import Conquest.Proofs.Transfer

/-!
# Where pieces stand

The place of a piece is written in the piece and in the garrisons. The two agree for every piece
whose place is certain: one that stands by itself or is aboard a ship. What is aboard a land piece
may be left behind when that land piece is itself shipped, so nothing is said of it.

* `Board.Sound`: the invariant of the board.
* `Board.Sound.relocate`, `Board.Sound.setCarrier`, `Board.Sound.addPiece`,
  `Board.Sound.of_samePost`: what orders, placements and the end of a turn are made of keeps it.
* `Board.Sound.nodup_ids`: no piece of certain place is listed twice in a territory.
-/

namespace Conquest

/-- Two states of a piece that differ at most in movement and hits. -/
structure Piece.SamePost (q q' : Piece) : Prop where
  id : q'.id = q.id
  kind : q'.kind = q.kind
  owner : q'.owner = q.owner
  territory : q'.territory = q.territory
  carrier : q'.carrier = q.carrier

namespace PieceKind

variable {k : PieceKind}

theorem isLand_eq_false_of_isSea (h : k.isSea = true) : k.isLand = false := by
  unfold isSea at h
  unfold isLand
  rw [beq_iff_eq] at h
  rw [h]
  rfl

theorem isLand_eq_false_of_isAir (h : k.isAir = true) : k.isLand = false := by
  unfold isAir at h
  unfold isLand
  rw [beq_iff_eq] at h
  rw [h]
  rfl

theorem isSea_eq_false_of_isAir (h : k.isAir = true) : k.isSea = false := by
  unfold isAir at h
  unfold isSea
  rw [beq_iff_eq] at h
  rw [h]
  rfl

theorem isLand_eq_false (h : k.isSea = true ∨ k.isAir = true) : k.isLand = false := by
  rcases h with h | h
  · exact isLand_eq_false_of_isSea h
  · exact isLand_eq_false_of_isAir h

/-- What carries cargo is a ship with cargo space. -/
theorem carriesCargo_iff : k.carriesCargo = true ↔ k.isSea = true ∧ 0 < k.transportCapacity := by
  unfold carriesCargo
  rw [Bool.and_eq_true, decide_eq_true_eq]

theorem isLand_eq_false_of_carriesCargo (h : k.carriesCargo = true) : k.isLand = false :=
  isLand_eq_false_of_isSea (carriesCargo_iff.1 h).1

theorem carriesCargo_of_isTransport (h : k.isTransport = true) : k.carriesCargo = true := by
  unfold isTransport at h
  rw [Bool.and_eq_true] at h
  exact h.1

/-- Only land pieces are transported. -/
theorem isLand_of_canBeTransported (h : k.canBeTransported = true) : k.isLand = true := by
  unfold canBeTransported at h
  rw [Bool.and_eq_true, Bool.and_eq_true] at h
  exact h.1.1

/-- A piece is not a ship and a land piece at once. -/
theorem not_isLand_of_isSea (hsea : k.isSea = true) : ¬k.isLand = true := by
  rw [isLand_eq_false_of_isSea hsea]
  exact Bool.false_ne_true

end PieceKind

theorem Territory.dry_of_isPassableLand {land : Territory} (h : land.isPassableLand = true) :
    land.isWater = false := by
  unfold isPassableLand at h
  rw [Bool.and_eq_true, Bool.not_eq_true'] at h
  exact h.1

namespace Board

/-- What a carrier and its cargo have to do with each other. -/
structure Carries (b : Board) (s q : Piece) : Prop where
  owner : s.owner = q.owner
  land : (b.kind q.kind).isLand = true
  room : 0 < (b.kind s.kind).transportCapacity
  place : (b.kind s.kind).isSea = true → s.territory = q.territory

/-- A piece that stands by itself or is aboard a ship. -/
def IsSettled (b : Board) (q : Piece) : Prop :=
  ∀ c s, q.carrier = some c → b.piece? c = some s → (b.kind s.kind).isSea = true

/-- A well-formed board. -/
structure Sound (b : Board) : Prop where
  atlas : b.atlas.Sound
  garrisons_size : b.garrisons.size = b.atlas.size
  id_piece : ∀ u q, b.piece? u = some q → q.id = u
  territory_lt : ∀ u q, b.piece? u = some q → q.territory < b.atlas.size
  garrison_lt : ∀ t, ∀ u ∈ b.garrison t, u < b.pieces.size
  cargo : ∀ u q c, b.piece? u = some q → q.carrier = some c →
    ∃ s, b.piece? c = some s ∧ b.Carries s q
  count : ∀ u q, b.piece? u = some q → b.IsSettled q → ∀ t,
    (b.garrison t).count u = if t = q.territory then 1 else 0

/-- A piece that is not aboard is settled. -/
theorem isSettled_of_carrier {b : Board} {q : Piece} (h : q.carrier = none) : b.IsSettled q := by
  intro c s hc
  rw [h] at hc
  cases hc

namespace Sound

variable {b : Board}

/-- Only land pieces are cargo. -/
theorem carrier_eq_none (hb : b.Sound) {u : PieceId} {q : Piece}
    (hq : b.piece? u = some q) (hland : (b.kind q.kind).isLand = false) : q.carrier = none := by
  cases hc : q.carrier with
  | none => rfl
  | some c =>
    rcases hb.cargo u q c hq hc with ⟨s, -, hs⟩
    rw [hs.land] at hland
    cases hland

/-- A settled piece stands in the garrison of its territory and in no other. -/
theorem mem_garrison (hb : b.Sound) {u : PieceId} {q : Piece} (hq : b.piece? u = some q)
    (hset : b.IsSettled q) {t : TerritoryId} : u ∈ b.garrison t ↔ t = q.territory := by
  have hcount := hb.count u q hq hset t
  rw [← List.count_pos_iff, hcount]
  by_cases ht : t = q.territory
  · simp [ht]
  · simp [ht]

/-- Aboard are the pieces that name the ship as their carrier. -/
theorem mem_aboard (hb : b.Sound) {u w : PieceId} :
    w ∈ b.aboard u ↔ ∃ q, b.piece? w = some q ∧ q.carrier = some u := by
  unfold aboard
  rw [List.mem_map]
  constructor
  · rintro ⟨q, hq, rfl⟩
    rcases List.mem_filter.1 hq with ⟨hmem, hcarrier⟩
    rcases List.mem_iff_getElem?.1 hmem with ⟨i, hi⟩
    rw [Array.getElem?_toList] at hi
    have hid : q.id = i := hb.id_piece i q hi
    refine ⟨q, ?_, by simpa using hcarrier⟩
    rw [hid]
    exact hi
  · rintro ⟨q, hq, hcarrier⟩
    refine ⟨q, List.mem_filter.2 ⟨?_, by simp [hcarrier]⟩, hb.id_piece w q hq⟩
    have hget : b.pieces.toList[w]? = some q := by
      rw [Array.getElem?_toList]
      exact hq
    exact List.mem_of_getElem? hget

/-- The pieces are numbered by their places in the table. -/
theorem map_id_pieces (hb : b.Sound) :
    b.pieces.toList.map (·.id) = List.range b.pieces.size := by
  apply List.ext_getElem?
  intro i
  by_cases hlt : i < b.pieces.size
  · rcases piece?_of_lt hlt with ⟨q, hq⟩
    have hget : b.pieces.toList[i]? = some q := by
      rw [Array.getElem?_toList]
      exact hq
    rw [List.getElem?_map, hget, Option.map_some, hb.id_piece i q hq, List.getElem?_range hlt]
  · have hge : b.pieces.toList.length ≤ i := by simpa using hlt
    rw [List.getElem?_map, List.getElem?_eq_none hge, Option.map_none,
      List.getElem?_eq_none (by simpa using hlt)]

theorem nodup_aboard (hb : b.Sound) (u : PieceId) : (b.aboard u).Nodup := by
  have hall : (b.pieces.toList.map (·.id)).Nodup := by
    rw [hb.map_id_pieces]
    exact List.nodup_range
  exact hall.sublist (List.filter_sublist.map _)

/-- A garrison lists exactly the pieces whose place it is, once each, before and after they have
gone somewhere together. -/
theorem count_garrisonAfter (b : Board) {us : List PieceId} (hus : us.Nodup)
    {source goal : TerritoryId} (hne : source ≠ goal) (w : PieceId) (t : TerritoryId) :
    (b.garrisonAfter us source goal t).count w =
      if t = source then (if w ∈ us then 0 else (b.garrison t).count w)
      else if t = goal then (b.garrison t).count w + (if w ∈ us then 1 else 0)
      else (b.garrison t).count w := by
  unfold garrisonAfter
  rw [if_neg hne]
  by_cases hts : t = source
  · rw [if_pos hts, if_pos hts]
    by_cases hw : w ∈ us
    · rw [if_pos hw, List.count_eq_zero]
      intro hmem
      have hnot := (List.mem_filter.1 hmem).2
      simp [hw] at hnot
    · rw [if_neg hw]
      apply List.count_filter
      simp [hw]
  · rw [if_neg hts, if_neg hts]
    by_cases htg : t = goal
    · rw [if_pos htg, if_pos htg, List.count_append, hus.count]
    · rw [if_neg htg, if_neg htg]

/-! ## Operations -/

/-- Pieces may change in movement and hits, the map in its owners. -/
theorem of_samePost (hb : b.Sound) {b' : Board} (hatlas : b'.atlas.Sound)
    (hsize : b'.atlas.size = b.atlas.size) (hkinds : b'.kinds = b.kinds)
    (hgarrisons : b'.garrisons = b.garrisons) (hpieces : b'.pieces.size = b.pieces.size)
    (hsame : ∀ w q', b'.piece? w = some q' → ∃ q, b.piece? w = some q ∧ q.SamePost q') :
    b'.Sound := by
  have hkind : ∀ k, b'.kind k = b.kind k := by
    intro k
    rw [kind, hkinds, kind]
  have hgarrison : ∀ t, b'.garrison t = b.garrison t := by
    intro t
    rw [garrison, hgarrisons, garrison]
  -- no piece is lost, as there are as many as before
  have hback : ∀ w q, b.piece? w = some q → ∃ q', b'.piece? w = some q' ∧ q.SamePost q' := by
    intro w q hq
    rcases piece?_of_lt (hpieces ▸ lt_size_of_piece? hq) with ⟨q', hq'⟩
    rcases hsame w q' hq' with ⟨q₀, hq₀, hpost⟩
    rw [hq, Option.some.injEq] at hq₀
    exact ⟨q', hq', hq₀ ▸ hpost⟩
  constructor
  · exact hatlas
  · rw [hgarrisons, hsize]
    exact hb.garrisons_size
  · intro w q' hq'
    rcases hsame w q' hq' with ⟨q, hq, hpost⟩
    exact hpost.id.trans (hb.id_piece w q hq)
  · intro w q' hq'
    rcases hsame w q' hq' with ⟨q, hq, hpost⟩
    rw [hpost.territory, hsize]
    exact hb.territory_lt w q hq
  · intro t w hw
    rw [hgarrison] at hw
    exact hpieces ▸ hb.garrison_lt t w hw
  · intro w q' c hq' hc
    rcases hsame w q' hq' with ⟨q, hq, hpost⟩
    rcases hb.cargo w q c hq (hpost.carrier ▸ hc) with ⟨s, hs, hcarries⟩
    rcases hback c s hs with ⟨s', hs', hspost⟩
    refine ⟨s', hs', ?_, ?_, ?_, ?_⟩
    · rw [hspost.owner, hpost.owner, hcarries.owner]
    · rw [hkind, hpost.kind]
      exact hcarries.land
    · rw [hkind, hspost.kind]
      exact hcarries.room
    · intro hsea
      rw [hkind, hspost.kind] at hsea
      rw [hspost.territory, hpost.territory, hcarries.place hsea]
  · intro w q' hq' hset t
    rcases hsame w q' hq' with ⟨q, hq, hpost⟩
    rw [hgarrison, hpost.territory]
    refine hb.count w q hq ?_ t
    intro c s hc hs
    rcases hback c s hs with ⟨s', hs', hspost⟩
    have hsea := hset c s' (hpost.carrier ▸ hc) hs'
    rw [hkind, hspost.kind] at hsea
    exact hsea

/-- What a relocation does to a piece: it keeps all but place and movement, and it changes place if
it is the piece itself or is aboard it. -/
theorem of_piece?_relocate (hb : b.Sound) {u : PieceId} {q : Piece} (hq : b.piece? u = some q)
    (route : Route) {w : PieceId} {x' : Piece} (hx' : (b.relocate u route).piece? w = some x') :
    ∃ x, b.piece? w = some x ∧ x'.id = x.id ∧ x'.kind = x.kind ∧ x'.owner = x.owner ∧
      x'.carrier = x.carrier ∧
      x'.territory = if w = u ∨ x.carrier = some u then route.dest else x.territory := by
  rw [piece?_relocate hq, Option.map_eq_some_iff] at hx'
  rcases hx' with ⟨x, hx, rfl⟩
  refine ⟨x, hx, ?_⟩
  -- the piece itself, its cargo, and all others
  by_cases hwu : u = w
  · simp [hwu]
  · by_cases haboard : w ∈ b.aboard u
    · rcases hb.mem_aboard.1 haboard with ⟨x₀, hx₀, hcarrier⟩
      rw [hx, Option.some.injEq] at hx₀
      simp [hwu, haboard, hx₀ ▸ hcarrier]
    · have hcarrier : x.carrier ≠ some u := fun hc => haboard (hb.mem_aboard.2 ⟨x, hx, hc⟩)
      simp [hwu, Ne.symm hwu, haboard, hcarrier]

/-- No piece disappears in a move. -/
theorem exists_piece?_relocate {u w : PieceId} {x : Piece} (hx : b.piece? w = some x)
    (route : Route) : ∃ x', (b.relocate u route).piece? w = some x' := by
  apply piece?_of_lt
  rw [pieces_size_relocate]
  exact lt_size_of_piece? hx

/-- Whether the place of a piece is certain does not change. -/
theorem isSettled_of_relocate (hb : b.Sound) {u : PieceId} {q : Piece} (hq : b.piece? u = some q)
    {route : Route} {x x' : Piece} (hcarrier : x'.carrier = x.carrier)
    (hset : (b.relocate u route).IsSettled x') : b.IsSettled x := by
  intro c s hc hsc
  -- its carrier is still there and of the same kind
  rcases exists_piece?_relocate (u := u) hsc route with ⟨s', hs'⟩
  have hsea := hset c s' (hcarrier ▸ hc) hs'
  rcases hb.of_piece?_relocate hq route hs' with ⟨s₀, hs₀, -, hskind, -⟩
  rw [hsc, Option.some.injEq] at hs₀
  rw [kind, kinds_relocate, hskind, ← hs₀] at hsea
  exact hsea

section Relocation

variable {u : PieceId} {q : Piece}

/-- The pieces that go somewhere together: one and what is aboard it. -/
theorem mem_travellers (hb : b.Sound) {w : PieceId} {x : Piece} (hx : b.piece? w = some x) :
    w ∈ u :: b.aboard u ↔ w = u ∨ x.carrier = some u := by
  rw [List.mem_cons, hb.mem_aboard]
  constructor
  · rintro (h | ⟨x₀, hx₀, hcarrier⟩)
    · exact .inl h
    · rw [hx, Option.some.injEq] at hx₀
      exact .inr (hx₀ ▸ hcarrier)
  · rintro (h | h)
    · exact .inl h
    · exact .inr ⟨x, hx, h⟩

/-- A ship and its cargo are distinct pieces. -/
theorem nodup_travellers (hb : b.Sound) (hq : b.piece? u = some q) (hnone : q.carrier = none) :
    (u :: b.aboard u).Nodup := by
  refine List.nodup_cons.2 ⟨?_, hb.nodup_aboard u⟩
  intro hmem
  rcases hb.mem_aboard.1 hmem with ⟨q₀, hq₀, hcarrier⟩
  rw [hq, Option.some.injEq] at hq₀
  rw [← hq₀, hnone] at hcarrier
  cases hcarrier

/-- A traveller of certain place comes from where the piece is that it travels with. -/
theorem territory_of_traveller (hb : b.Sound) (hq : b.piece? u = some q) {w : PieceId} {x : Piece}
    (hx : b.piece? w = some x) (hset : b.IsSettled x) (htravels : w = u ∨ x.carrier = some u) :
    x.territory = q.territory := by
  rcases htravels with rfl | hcarrier
  · rw [hx, Option.some.injEq] at hq
    rw [hq]
  · rcases hb.cargo w x u hx hcarrier with ⟨s, hs, hcarries⟩
    rw [hq, Option.some.injEq] at hs
    subst hs
    exact (hcarries.place (hset u q hcarrier hq)).symm

/-- Garrisons list pieces of the board only. -/
theorem garrison_lt_relocate (hb : b.Sound) (hq : b.piece? u = some q) {route : Route}
    (hdest : route.dest < b.atlas.size) (t : TerritoryId) :
    ∀ w ∈ (b.relocate u route).garrison t, w < b.pieces.size := by
  have hs : q.territory < b.garrisons.size := hb.garrisons_size ▸ hb.territory_lt u q hq
  intro w hw
  rw [garrison_relocate hq route hs (hb.garrisons_size ▸ hdest)] at hw
  unfold garrisonAfter at hw
  -- a garrison after the move is made of the one before and of those who went
  split at hw
  · exact hb.garrison_lt t w hw
  · split at hw
    · exact hb.garrison_lt t w (List.mem_filter.1 hw).1
    · split at hw
      · rcases List.mem_append.1 hw with hw | hw
        · exact hb.garrison_lt t w hw
        · rcases List.mem_cons.1 hw with rfl | hw
          · exact lt_size_of_piece? hq
          · rcases hb.mem_aboard.1 hw with ⟨x, hx, -⟩
            exact lt_size_of_piece? hx
      · exact hb.garrison_lt t w hw

/-- Carriers and cargo stay together. -/
theorem cargo_relocate (hb : b.Sound) (hq : b.piece? u = some q) {route : Route}
    (hfree : q.carrier = none ∨ route.dest = q.territory) {w c : PieceId} {x' : Piece}
    (hx' : (b.relocate u route).piece? w = some x') (hc : x'.carrier = some c) :
    ∃ s', (b.relocate u route).piece? c = some s' ∧ (b.relocate u route).Carries s' x' := by
  have hkind : ∀ k, (b.relocate u route).kind k = b.kind k := by
    intro k
    rw [kind, kinds_relocate, kind]
  rcases hb.of_piece?_relocate hq route hx' with ⟨x, hx, -, hxkind, hxowner, hxcarrier, hxterr⟩
  rw [hxcarrier] at hc
  rcases hb.cargo w x c hx hc with ⟨s, hsc, hcarries⟩
  rcases exists_piece?_relocate (u := u) hsc route with ⟨s', hs'⟩
  rcases hb.of_piece?_relocate hq route hs' with ⟨s₀, hs₀, -, hskind, hsowner, -, hsterr⟩
  rw [hsc, Option.some.injEq] at hs₀
  subst hs₀
  refine ⟨s', hs', ?_, ?_, ?_, ?_⟩
  · rw [hsowner, hxowner, hcarries.owner]
  · rw [hkind, hxkind]
    exact hcarries.land
  · rw [hkind, hskind]
    exact hcarries.room
  · intro hsea
    rw [hkind, hskind] at hsea
    have hplace := hcarries.place hsea
    -- a ship is never cargo, so it moves only as the piece itself
    have hnone := hb.carrier_eq_none hsc (PieceKind.isLand_eq_false_of_isSea hsea)
    rw [hsterr, hxterr]
    by_cases hcu : c = u
    · subst hcu
      simp [hc]
    · by_cases hwu : w = u
      · subst hwu
        rw [hx, Option.some.injEq] at hq
        subst hq
        rcases hfree with hfree | hfree
        · rw [hfree] at hc
          cases hc
        · simp [hcu, hnone, hfree, hplace]
      · have hcne : x.carrier ≠ some u := by
          rw [hc]
          simpa using hcu
        simp [hcu, hnone, hwu, hcne, hplace]

/-- Garrisons still list what stands in them, once each. -/
theorem count_relocate (hb : b.Sound) (hq : b.piece? u = some q) {route : Route}
    (hdest : route.dest < b.atlas.size) (hfree : q.carrier = none ∨ route.dest = q.territory)
    {w : PieceId} {x' : Piece} (hx' : (b.relocate u route).piece? w = some x')
    (hset' : (b.relocate u route).IsSettled x') (t : TerritoryId) :
    ((b.relocate u route).garrison t).count w = if t = x'.territory then 1 else 0 := by
  have hs : q.territory < b.garrisons.size := hb.garrisons_size ▸ hb.territory_lt u q hq
  rcases hb.of_piece?_relocate hq route hx' with ⟨x, hx, -, -, -, hxcarrier, hxterr⟩
  have hset := hb.isSettled_of_relocate hq hxcarrier hset'
  have hbefore := hb.count w x hx hset t
  have hfrom := hb.territory_of_traveller hq hx hset
  rw [garrison_relocate hq route hs (hb.garrisons_size ▸ hdest), hxterr]
  by_cases hstay : q.territory = route.dest
  · -- nothing leaves, so the garrisons are as before
    unfold garrisonAfter
    rw [if_pos hstay, hbefore]
    by_cases htravels : w = u ∨ x.carrier = some u
    · rw [if_pos htravels, hfrom htravels, hstay]
    · rw [if_neg htravels]
  · -- what leaves its territory was not aboard, and takes its cargo along
    have hnone : q.carrier = none := hfree.resolve_right (Ne.symm hstay)
    have hmem := hb.mem_travellers (u := u) hx
    rw [count_garrisonAfter b (hb.nodup_travellers hq hnone) hstay, hbefore]
    by_cases htravels : w = u ∨ x.carrier = some u
    · rw [if_pos htravels, if_pos (hmem.2 htravels), if_pos (hmem.2 htravels), hfrom htravels]
      by_cases hts : t = q.territory
      · simp [hts, hstay]
      · simp [hts]
    · have hnotin : w ∉ u :: b.aboard u := fun h => htravels (hmem.1 h)
      rw [if_neg htravels, if_neg hnotin, if_neg hnotin]
      simp

/-- A piece that stands by itself may go anywhere on the map with what is aboard it. -/
theorem relocate (hb : b.Sound) (hq : b.piece? u = some q) {route : Route}
    (hdest : route.dest < b.atlas.size)
    (hfree : q.carrier = none ∨ route.dest = q.territory) : (b.relocate u route).Sound := by
  constructor
  · rw [atlas_relocate]
    exact hb.atlas
  · rw [garrisons_size_relocate, atlas_relocate]
    exact hb.garrisons_size
  · intro w x' hx'
    rcases hb.of_piece?_relocate hq route hx' with ⟨x, hx, hid, -⟩
    exact hid.trans (hb.id_piece w x hx)
  · intro w x' hx'
    rcases hb.of_piece?_relocate hq route hx' with ⟨x, hx, -, -, -, -, hterr⟩
    rw [hterr, atlas_relocate]
    split
    · exact hdest
    · exact hb.territory_lt w x hx
  · intro t w hw
    rw [pieces_size_relocate]
    exact hb.garrison_lt_relocate hq hdest t w hw
  · intro w x' c hx' hc
    exact hb.cargo_relocate hq hfree hx' hc
  · intro w x' hx' hset t
    exact hb.count_relocate hq hdest hfree hx' hset t

end Relocation

/-- A piece of certain place may come to be aboard another or stand by itself. -/
theorem setCarrier (hb : b.Sound) {u : PieceId} {q : Piece} (hq : b.piece? u = some q)
    (hset : b.IsSettled q) {carrier : Option PieceId}
    (hcarrier : ∀ c, carrier = some c → ∃ s, b.piece? c = some s ∧ b.Carries s q) :
    (b.modifyPiece u fun q => { q with carrier := carrier }).Sound := by
  set b' := b.modifyPiece u fun q => { q with carrier := carrier } with hb'
  -- both ways, since the carriers of other pieces are looked up on both boards
  have hfrom : ∀ w x', b'.piece? w = some x' → ∃ x, b.piece? w = some x ∧
      x' = { x with carrier := if w = u then carrier else x.carrier } := by
    intro w x' hx'
    rcases of_piece?_modifyPiece hx' with ⟨x, hx, rfl⟩
    refine ⟨x, hx, ?_⟩
    by_cases hwu : w = u
    · simp [hwu]
    · simp [hwu]
  have hto : ∀ w x, b.piece? w = some x →
      b'.piece? w = some { x with carrier := if w = u then carrier else x.carrier } := by
    intro w x hx
    rw [hb', piece?_modifyPiece, hx]
    by_cases huw : u = w
    · simp [huw]
    · simp [huw, Ne.symm huw]
  constructor
  · exact hb.atlas
  · exact hb.garrisons_size
  · intro w x' hx'
    rcases hfrom w x' hx' with ⟨x, hx, rfl⟩
    exact hb.id_piece w x hx
  · intro w x' hx'
    rcases hfrom w x' hx' with ⟨x, hx, rfl⟩
    exact hb.territory_lt w x hx
  · intro t w hw
    rw [hb', pieces_size_modifyPiece]
    exact hb.garrison_lt t w hw
  · intro w x' c hx' hc
    rcases hfrom w x' hx' with ⟨x, hx, rfl⟩
    obtain ⟨s, hs, hcarries⟩ : ∃ s, b.piece? c = some s ∧ b.Carries s x := by
      by_cases hwu : w = u
      · subst hwu
        rw [hq, Option.some.injEq] at hx
        rw [← hx]
        exact hcarrier c (by simpa using hc)
      · exact hb.cargo w x c hx (by simpa [hwu] using hc)
    exact ⟨_, hto c s hs, hcarries.owner, hcarries.land, hcarries.room, hcarries.place⟩
  · intro w x' hx' hset' t
    rcases hfrom w x' hx' with ⟨x, hx, rfl⟩
    refine hb.count w x hx ?_ t
    by_cases hwu : w = u
    · subst hwu
      rw [hq, Option.some.injEq] at hx
      exact hx ▸ hset
    · intro c s hc hs
      have hsea := hset' c _ (by simpa [hwu] using hc) (hto c s hs)
      exact hsea

/-- A new piece on the map keeps the board well-formed. -/
theorem addPiece (hb : b.Sound) (k : KindId) (p : PlayerId) {t : TerritoryId}
    (ht : t < b.atlas.size) : (b.addPiece k p t).Sound := by
  have hgarrison := garrison_addPiece b k p t (hb.garrisons_size ▸ ht)
  -- every statement about a piece is one about the new piece or one about the board before
  have hsplit : ∀ w x, (b.addPiece k p t).piece? w = some x →
      (w = b.pieces.size ∧ x.id = w ∧ x.territory = t ∧ x.carrier = none) ∨
        (w ≠ b.pieces.size ∧ b.piece? w = some x) := by
    intro w x hx
    by_cases hw : w = b.pieces.size
    · rw [hw, piece?_addPiece] at hx
      cases hx
      exact .inl ⟨hw, hw.symm, rfl, rfl⟩
    · rw [piece?_addPiece_of_ne b k p t hw] at hx
      exact .inr ⟨hw, hx⟩
  constructor
  · exact hb.atlas
  · simp only [Board.addPiece, Array.size_modify]
    exact hb.garrisons_size
  · intro w x hx
    rcases hsplit w x hx with ⟨-, hid, -⟩ | ⟨-, hx⟩
    · exact hid
    · exact hb.id_piece w x hx
  · intro w x hx
    rcases hsplit w x hx with ⟨-, -, hterr, -⟩ | ⟨-, hx⟩
    · rw [hterr]
      exact ht
    · exact hb.territory_lt w x hx
  · intro x w hw
    rw [pieces_size_addPiece]
    rw [hgarrison] at hw
    split at hw
    · rcases List.mem_append.1 hw with hw | hw
      · exact Nat.lt_succ_of_lt (hb.garrison_lt x w hw)
      · rw [List.mem_singleton.1 hw]
        exact Nat.lt_succ_self _
    · exact Nat.lt_succ_of_lt (hb.garrison_lt x w hw)
  · intro w x c hx hc
    rcases hsplit w x hx with ⟨-, -, -, hnone⟩ | ⟨-, hx⟩
    · rw [hnone] at hc
      cases hc
    · rcases hb.cargo w x c hx hc with ⟨s, hs, hcarries⟩
      refine ⟨s, piece?_addPiece_of_some b k p t hs, ?_⟩
      exact ⟨hcarries.owner, hcarries.land, hcarries.room, hcarries.place⟩
  · intro w x hx hset y
    rw [hgarrison]
    rcases hsplit w x hx with ⟨rfl, -, hterr, -⟩ | ⟨hw, hx⟩
    · -- no garrison lists a number that is not given yet
      have hnew : (b.garrison y).count b.pieces.size = 0 := by
        rw [List.count_eq_zero]
        intro hmem
        exact Nat.lt_irrefl _ (hb.garrison_lt y _ hmem)
      rw [hterr]
      by_cases hyt : y = t
      · simp [hyt, hyt ▸ hnew]
      · simp [hyt, hnew]
    · have hbefore := hb.count w x hx
        (fun c s hc hs => hset c s hc (piece?_addPiece_of_some b k p t hs)) y
      by_cases hyt : y = t
      · rw [if_pos hyt, List.count_append, hbefore]
        simp [Ne.symm hw]
      · rw [if_neg hyt, hbefore]

end Sound

/-! ## Questions -/

variable {b : Board}

/-- An asset is a piece with its kind. -/
theorem asset?_eq_some {u : PieceId} {a : Asset} :
    b.asset? u = some a ↔ b.piece? u = some a.piece ∧ a.kind = b.kind a.piece.kind := by
  unfold asset?
  rw [Option.map_eq_some_iff]
  constructor
  · rintro ⟨q, hq, rfl⟩
    exact ⟨hq, rfl⟩
  · rintro ⟨hq, hkind⟩
    exact ⟨a.piece, hq, by rw [← hkind]⟩

/-- The assets in a territory are those of its garrison. -/
theorem mem_assetsIn {t : TerritoryId} {a : Asset} :
    a ∈ b.assetsIn t ↔ ∃ u ∈ b.garrison t, b.asset? u = some a := by
  unfold assetsIn
  rw [List.mem_filterMap]

theorem mem_ownedIn {t : TerritoryId} {p : PlayerId} {a : Asset} :
    a ∈ b.ownedIn t p ↔ a ∈ b.assetsIn t ∧ a.piece.owner = p := by
  unfold ownedIn
  rw [List.mem_filter, beq_iff_eq]

theorem ownedIn_sublist (b : Board) (t : TerritoryId) (p : PlayerId) :
    (b.ownedIn t p).Sublist (b.assetsIn t) :=
  List.filter_sublist

/-- A force is a piece that is hostile and no infrastructure. -/
theorem hasEnemyForce_iff {t : TerritoryId} {p : PlayerId} :
    b.hasEnemyForce t p = true ↔ ∃ u ∈ b.garrison t, ∃ q, b.piece? u = some q ∧
      b.isEnemy p q.owner = true ∧ (b.kind q.kind).isInfrastructure = false := by
  unfold hasEnemyForce
  rw [List.any_eq_true]
  constructor
  · rintro ⟨a, ha, hforce⟩
    rcases mem_assetsIn.1 ha with ⟨u, hu, hasset⟩
    rcases asset?_eq_some.1 hasset with ⟨hq, hkind⟩
    rw [Bool.and_eq_true, Bool.not_eq_true', hkind] at hforce
    exact ⟨u, hu, a.piece, hq, hforce⟩
  · rintro ⟨u, hu, q, hq, henemy, hinfra⟩
    have hasset : b.asset? u = some ⟨q, b.kind q.kind⟩ := asset?_eq_some.2 ⟨hq, rfl⟩
    refine ⟨⟨q, b.kind q.kind⟩, mem_assetsIn.2 ⟨u, hu, hasset⟩, ?_⟩
    simp [henemy, hinfra]

/-- The territories with a property are those on the map that have it. -/
theorem mem_territoriesWhere (hm : b.atlas.Sound) {f : Territory → Bool} {t : TerritoryId} :
    t ∈ b.territoriesWhere f ↔ t < b.atlas.size ∧ f (b.territory t) = true := by
  unfold territoriesWhere
  rw [List.mem_map]
  constructor
  · rintro ⟨land, hland, rfl⟩
    obtain ⟨hmem, hprop⟩ := List.mem_filter.1 hland
    obtain ⟨hlt, hsame⟩ := Atlas.mem_territories hm hmem
    exact ⟨hlt, by rw [territory, hsame]; exact hprop⟩
  · rintro ⟨hlt, hprop⟩
    have hget := Atlas.getElem?_territories hlt
    rw [← Array.getElem?_toList] at hget
    exact ⟨b.territory t, List.mem_filter.2 ⟨List.mem_of_getElem? hget, hprop⟩,
      hm.id_territory t hlt⟩

/-- A player's factories stand on the land that the player owns. -/
theorem mem_factoriesOf (hm : b.atlas.Sound) {p : PlayerId} {f : TerritoryId} :
    f ∈ b.factoriesOf p ↔ (b.territory f).owner = some p ∧ (b.territory f).hasFactory = true := by
  unfold factoriesOf
  rw [mem_territoriesWhere hm, Bool.and_eq_true, beq_iff_eq]
  exact ⟨And.right, fun h => ⟨Atlas.lt_size_of_owner h.1, h⟩⟩

/-- Every piece is found under its own identifier. -/
def Indexed (b : Board) : Prop := ∀ u q, b.piece? u = some q → q.id = u

theorem Indexed.id_asset (hb : b.Indexed) {u : PieceId} {a : Asset} (h : b.asset? u = some a) :
    a.id = u :=
  hb u a.piece (asset?_eq_some.1 h).1

/-- An asset that stands somewhere is found under its id. -/
theorem Indexed.asset?_of_mem (hb : b.Indexed) {t : TerritoryId} {a : Asset}
    (h : a ∈ b.assetsIn t) : b.asset? a.id = some a := by
  rcases mem_assetsIn.1 h with ⟨u, -, hu⟩
  rw [hb.id_asset hu]
  exact hu

namespace Sound

/-- The territories of a sort are those on the map that are of it. -/
theorem mem_territoriesWhere (hb : b.Sound) {f : Territory → Bool} {t : TerritoryId} :
    t ∈ b.territoriesWhere f ↔ t < b.atlas.size ∧ f (b.territory t) = true :=
  Board.mem_territoriesWhere hb.atlas

theorem indexed (hb : b.Sound) : b.Indexed := hb.id_piece

theorem id_asset (hb : b.Sound) {u : PieceId} {a : Asset} (h : b.asset? u = some a) : a.id = u :=
  hb.indexed.id_asset h

theorem asset?_of_mem (hb : b.Sound) {t : TerritoryId} {a : Asset} (h : a ∈ b.assetsIn t) :
    b.asset? a.id = some a :=
  hb.indexed.asset?_of_mem h

theorem id_mem_garrison (hb : b.Sound) {t : TerritoryId} {a : Asset} (h : a ∈ b.assetsIn t) :
    a.id ∈ b.garrison t := by
  rcases mem_assetsIn.1 h with ⟨u, hmem, hu⟩
  rw [hb.id_asset hu]
  exact hmem

/-- A settled piece is where its garrison is. -/
theorem territory_of_mem (hb : b.Sound) {t : TerritoryId} {a : Asset} (h : a ∈ b.assetsIn t)
    (hset : b.IsSettled a.piece) : a.piece.territory = t := by
  have hq := (asset?_eq_some.1 (hb.asset?_of_mem h)).1
  exact ((hb.mem_garrison hq hset).1 (hb.id_mem_garrison h)).symm

/-- Looking pieces up and reading their ids gives them back in order, without the unknown. -/
theorem ids_sublist (hb : b.Sound) (us : List PieceId) :
    ((us.filterMap b.asset?).map (·.id)).Sublist us := by
  induction us with
  | nil => exact .slnil
  | cons u rest ih =>
    rw [List.filterMap_cons]
    cases hu : b.asset? u with
    | none => exact ih.cons u
    | some a =>
      rw [List.map_cons, hb.id_asset hu]
      exact ih.cons_cons u

/-- The pieces of a list of assets, looked up again. -/
theorem filterMap_ids (hb : b.Sound) {t : TerritoryId} {as : List Asset}
    (hsub : as ⊆ b.assetsIn t) : (as.map (·.id)).filterMap b.asset? = as := by
  induction as with
  | nil => rfl
  | cons a rest ih =>
    rw [List.map_cons, List.filterMap_cons, hb.asset?_of_mem (hsub List.mem_cons_self)]
    rw [ih fun x hx => hsub (List.mem_cons_of_mem _ hx)]

/-- No piece of certain place is listed twice in a territory. -/
theorem nodup_ids (hb : b.Sound) {t : TerritoryId} {as : List Asset}
    (hsub : as.Sublist (b.assetsIn t)) (hset : ∀ a ∈ as, b.IsSettled a.piece) :
    (as.map (·.id)).Nodup := by
  rw [List.nodup_iff_count]
  intro u
  by_cases hu : u ∈ as.map (·.id)
  · rcases List.mem_map.1 hu with ⟨a, ha, rfl⟩
    have hmem := hsub.subset ha
    have hq := (asset?_eq_some.1 (hb.asset?_of_mem hmem)).1
    -- the territory lists it no oftener than the garrison does
    have hle := ((hsub.map (·.id)).trans (hb.ids_sublist (b.garrison t))).count_le a.id
    rw [hb.count a.id a.piece hq (hset a ha), if_pos (hb.territory_of_mem hmem (hset a ha)).symm]
      at hle
    exact hle
  · rw [List.count_eq_zero.2 hu]
    exact Nat.zero_le 1

/-- What is aboard a ship is exactly its cargo. -/
theorem mem_cargoOf (hb : b.Sound) {ship u : PieceId} {s : Piece} (hs : b.piece? ship = some s)
    (hsea : (b.kind s.kind).isSea = true) :
    u ∈ b.cargoOf ship ↔ ∃ q, b.piece? u = some q ∧ q.carrier = some ship := by
  unfold cargoOf
  rw [asset?_eq_some (a := ⟨s, b.kind s.kind⟩) |>.2 ⟨hs, rfl⟩]
  simp only [List.mem_map, List.mem_filter, beq_iff_eq]
  constructor
  · rintro ⟨a, ⟨hmem, hcarrier⟩, rfl⟩
    have hpiece := (asset?_eq_some.1 (hb.asset?_of_mem hmem)).1
    exact ⟨a.piece, hpiece, hcarrier⟩
  · rintro ⟨q, hq, hcarrier⟩
    -- a ship takes its cargo along, so the place of the cargo is certain
    have hset : b.IsSettled q := by
      intro c s' hc hs'
      rw [hcarrier, Option.some.injEq] at hc
      rw [← hc, hs, Option.some.injEq] at hs'
      exact hs' ▸ hsea
    rcases hb.cargo u q ship hq hcarrier with ⟨s', hs', hcarries⟩
    rw [hs, Option.some.injEq] at hs'
    subst hs'
    have hmem := (hb.mem_garrison hq hset).2 (hcarries.place hsea)
    have hasset : b.asset? u = some ⟨q, b.kind q.kind⟩ := asset?_eq_some.2 ⟨hq, rfl⟩
    have hlisted := mem_assetsIn.2 ⟨u, hmem, hasset⟩
    exact ⟨⟨q, b.kind q.kind⟩, ⟨hlisted, hcarrier⟩, hb.id_piece u q hq⟩

/-- Nothing is aboard a ship twice. -/
theorem nodup_cargoOf (hb : b.Sound) {ship : PieceId} {s : Piece} (hs : b.piece? ship = some s)
    (hsea : (b.kind s.kind).isSea = true) : (b.cargoOf ship).Nodup := by
  unfold cargoOf
  rw [asset?_eq_some (a := ⟨s, b.kind s.kind⟩) |>.2 ⟨hs, rfl⟩]
  refine hb.nodup_ids List.filter_sublist ?_
  intro a ha
  have hcarrier := (List.mem_filter.1 ha).2
  rw [beq_iff_eq] at hcarrier
  -- aboard the ship its place is certain
  intro c s' hc hs'
  rw [hcarrier, Option.some.injEq] at hc
  rw [← hc, hs, Option.some.injEq] at hs'
  exact hs' ▸ hsea

/-- A ship and what is aboard it are different pieces. -/
theorem nodup_crew (hb : b.Sound) {ship : PieceId} {s : Piece} (hs : b.piece? ship = some s)
    (hsea : (b.kind s.kind).isSea = true) {us : List PieceId}
    (hsub : us.Sublist (b.cargoOf ship)) : (ship :: us).Nodup := by
  refine List.nodup_cons.2 ⟨?_, (hb.nodup_cargoOf hs hsea).sublist hsub⟩
  intro hin
  rcases (hb.mem_cargoOf hs hsea).1 (hsub.subset hin) with ⟨q, hq, hcarrier⟩
  rw [hs, Option.some.injEq] at hq
  rw [← hq, hb.carrier_eq_none hs (PieceKind.isLand_eq_false_of_isSea hsea)] at hcarrier
  cases hcarrier

end Sound

end Board

end Conquest
