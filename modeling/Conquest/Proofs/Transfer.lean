import Conquest.Proofs.Walk

/-!
# What a change of the board touches

Each operation of the board is described by what it does to the pieces and to the garrisons; all
else stays. A piece that goes somewhere takes along what is aboard it.

* `piece?_relocate`, `garrison_relocate`: the pieces and the garrisons after a relocation.
* `relocate_frame`: all that a relocation leaves alone.
-/

namespace Conquest.Board

/-! ## Single entries -/

section Entries

variable (b : Board) (u w : PieceId) (t x : TerritoryId) (f : Piece → Piece)

/-- Changing a piece leaves the others as they are. -/
theorem piece?_modifyPiece :
    (b.modifyPiece u f).piece? w = if u = w then (b.piece? w).map f else b.piece? w := by
  unfold modifyPiece piece?
  rw [Array.getElem?_modify]

/-- A changed piece comes from the piece that was there. -/
theorem of_piece?_modifyPiece {b : Board} {u w : PieceId} {f : Piece → Piece} {x' : Piece}
    (hx' : (b.modifyPiece u f).piece? w = some x') :
    ∃ x, b.piece? w = some x ∧ x' = if w = u then f x else x := by
  rw [piece?_modifyPiece] at hx'
  by_cases huw : u = w
  · rw [if_pos huw, Option.map_eq_some_iff] at hx'
    rcases hx' with ⟨x, hx, rfl⟩
    exact ⟨x, hx, by rw [if_pos huw.symm]⟩
  · rw [if_neg huw] at hx'
    exact ⟨x', hx', by rw [if_neg (Ne.symm huw)]⟩

@[simp] theorem garrison_modifyPiece : (b.modifyPiece u f).garrison t = b.garrison t := rfl

@[simp] theorem pieces_size_modifyPiece : (b.modifyPiece u f).pieces.size = b.pieces.size := by
  simp [modifyPiece]

/-- A piece that is found has a number below the number of pieces. -/
theorem lt_size_of_piece? {b : Board} {u : PieceId} {q : Piece} (h : b.piece? u = some q) :
    u < b.pieces.size := by
  unfold piece? at h
  rcases Array.getElem?_eq_some_iff.1 h with ⟨hlt, -⟩
  exact hlt

/-- Below the number of pieces every number belongs to a piece. -/
theorem piece?_of_lt {b : Board} {u : PieceId} (h : u < b.pieces.size) :
    ∃ q, b.piece? u = some q :=
  ⟨b.pieces[u], Array.getElem?_eq_getElem h⟩

end Entries

/-! ## Purses and marks -/

section Flags

variable (b : Board) (t x : TerritoryId) (flag : Bool)

/-- An entry that is set in its place; outside the table nothing is set. -/
theorem getD_setIfInBounds {α : Type} (xs : Array α) (i j : Nat) (a d : α) :
    (xs.setIfInBounds i a).getD j d = if i = j ∧ i < xs.size then a else xs.getD j d := by
  rw [Array.getD_eq_getD_getElem?, Array.getD_eq_getD_getElem?, Array.getElem?_setIfInBounds]
  by_cases hij : i = j
  · subst hij
    by_cases hi : i < xs.size
    · simp [hi]
    · simp [hi]
  · simp [hij]

/-- A budget is a word. -/
theorem budget_lt (p : PlayerId) : b.budget p < UInt32.size := UInt32.toNat_lt _

theorem budget_congr {b' : Board} (h : b'.budgets = b.budgets) (p : PlayerId) :
    b'.budget p = b.budget p := by
  unfold budget
  rw [h]

/-- Setting a budget keeps what a word keeps of it, and leaves the others. -/
theorem budget_setBudget (p q : PlayerId) (amount : Nat) :
    (b.setBudget p amount).budget q =
      if p = q ∧ p < b.budgets.size then wrap amount else b.budget q := by
  unfold setBudget budget
  rw [getD_setIfInBounds]
  split
  · exact UInt32.toNat_ofNat'
  · rfl

/-- Marking land as conquered leaves the marks of other land. -/
theorem isConquered_setConquered :
    (b.setConquered t flag).isConquered x =
      if t = x ∧ t < b.conquered.size then flag else b.isConquered x :=
  getD_setIfInBounds b.conquered t x flag false

/-- Marking a battle leaves the marks of other territories. -/
theorem hasBattle_setBattle :
    (b.setBattle t flag).hasBattle x =
      if t = x ∧ t < b.battles.size then flag else b.hasBattle x :=
  getD_setIfInBounds b.battles t x flag false

end Flags

/-! ## A new piece -/

section Addition

variable (b : Board) (k : KindId) (p : PlayerId) (t : TerritoryId)

/-- The piece that is added. -/
theorem piece?_addPiece : (b.addPiece k p t).piece? b.pieces.size = some
    { id := b.pieces.size, kind := k, owner := p, territory := t,
      movementLeft := (b.kind k).movement } := by
  simp [addPiece, piece?]

/-- A new piece leaves the others as they are. -/
theorem piece?_addPiece_of_ne {w : PieceId} (hw : w ≠ b.pieces.size) :
    (b.addPiece k p t).piece? w = b.piece? w := by
  simp [addPiece, piece?, Array.getElem?_push, hw]

/-- The pieces that were there before. -/
theorem piece?_addPiece_of_some {w : PieceId} {q : Piece} (hq : b.piece? w = some q) :
    (b.addPiece k p t).piece? w = some q := by
  rw [piece?_addPiece_of_ne b k p t (Nat.ne_of_lt (lt_size_of_piece? hq)), hq]

@[simp] theorem pieces_size_addPiece : (b.addPiece k p t).pieces.size = b.pieces.size + 1 := by
  simp [addPiece]

/-- A new piece comes last in the garrison of its territory. -/
theorem garrison_addPiece (ht : t < b.garrisons.size) (x : TerritoryId) :
    (b.addPiece k p t).garrison x =
      if x = t then b.garrison x ++ [b.pieces.size] else b.garrison x := by
  simp only [addPiece, garrison, Array.getD_eq_getD_getElem?, Array.getElem?_modify]
  by_cases hxt : x = t
  · subst hxt
    simp [ht]
  · simp [hxt, Ne.symm hxt]

end Addition

/-! ## Going from one garrison to another -/

/-- The garrison of `x` after the pieces `us` have gone from `source` to `goal`. -/
def garrisonAfter (b : Board) (us : List PieceId) (source goal x : TerritoryId) : List PieceId :=
  if source = goal then b.garrison x
  else if x = source then (b.garrison x).filter fun w => !us.contains w
  else if x = goal then b.garrison x ++ us
  else b.garrison x

/-- Leaving one after another is leaving together. -/
theorem filter_notMem_cons (c : PieceId) (cs l : List PieceId) :
    ((l.filter fun w => !([c].contains w)).filter fun w => !cs.contains w) =
      l.filter fun w => !(c :: cs).contains w := by
  rw [List.filter_filter]
  apply List.filter_congr
  intro w _
  by_cases hwc : w = c
  · simp [hwc]
  · simp [hwc]

/-- Going one after another is going together. -/
theorem garrisonAfter_cons {b b' : Board} {c : PieceId} {source goal x : TerritoryId}
    (hfirst : b'.garrison x = b.garrisonAfter [c] source goal x) (cs : List PieceId) :
    b'.garrisonAfter cs source goal x = b.garrisonAfter (c :: cs) source goal x := by
  unfold garrisonAfter at hfirst ⊢
  rw [hfirst]
  by_cases heq : source = goal
  · simp [heq]
  · by_cases hxs : x = source
    · simp only [heq, hxs, if_true, if_false]
      exact filter_notMem_cons c cs _
    · by_cases hxg : x = goal
      · simp [heq, hxg, Ne.symm heq]
      · simp [hxs, hxg]

@[simp] theorem pieces_transfer (b : Board) (u : PieceId) (source goal : TerritoryId) :
    (b.transfer u source goal).pieces = b.pieces := by
  unfold transfer
  split <;> rfl

@[simp] theorem piece?_transfer (b : Board) (u w : PieceId) (source goal : TerritoryId) :
    (b.transfer u source goal).piece? w = b.piece? w := by
  rw [piece?, pieces_transfer, piece?]

@[simp] theorem garrisons_size_transfer (b : Board) (u : PieceId) (source goal : TerritoryId) :
    (b.transfer u source goal).garrisons.size = b.garrisons.size := by
  unfold transfer
  split
  · rfl
  · simp

/-- A transfer takes one piece out of a garrison and puts it last in another. -/
theorem garrison_transfer (b : Board) (u : PieceId) {source goal : TerritoryId}
    (hs : source < b.garrisons.size) (hg : goal < b.garrisons.size) (x : TerritoryId) :
    (b.transfer u source goal).garrison x = b.garrisonAfter [u] source goal x := by
  unfold transfer garrisonAfter
  by_cases heq : source = goal
  · rw [if_pos heq, if_pos heq]
  · rw [if_neg heq, if_neg heq]
    simp only [garrison, Array.getD_eq_getD_getElem?, Array.getElem?_modify]
    -- the source loses one name, the goal gains it at the end
    by_cases hxs : x = source
    · subst hxs
      rw [if_neg (Ne.symm heq), if_pos rfl, if_pos rfl, Array.getElem?_eq_getElem hs]
      simp only [Option.map_some, Option.getD_some]
      apply List.filter_congr
      intro w _
      by_cases hwu : w = u
      · simp [hwu]
      · simp [hwu]
    · by_cases hxg : x = goal
      · subst hxg
        rw [if_pos rfl, if_neg heq, if_neg hxs, if_pos rfl, Array.getElem?_eq_getElem hg]
        rfl
      · rw [if_neg (Ne.symm hxg), if_neg (Ne.symm hxs), if_neg hxs, if_neg hxg]

/-! ## Relocation -/

/-- The step that takes one piece of cargo along. -/
def ferry (source goal : TerritoryId) (b : Board) (c : PieceId) : Board :=
  (b.transfer c source goal).modifyPiece c fun q => { q with territory := goal }

theorem garrisons_size_ferry (source goal : TerritoryId) (b : Board) (c : PieceId) :
    (ferry source goal b c).garrisons.size = b.garrisons.size :=
  garrisons_size_transfer b c source goal

/-- Ferrying changes pieces and garrisons alone, and adds none of either. -/
theorem foldl_ferry_frame (source goal : TerritoryId) (cs : List PieceId) (b : Board) :
    ∃ pieces garrisons, cs.foldl (ferry source goal) b =
      { b with pieces := pieces, garrisons := garrisons } ∧
      pieces.size = b.pieces.size ∧ garrisons.size = b.garrisons.size := by
  induction cs generalizing b with
  | nil => exact ⟨b.pieces, b.garrisons, rfl, rfl, rfl⟩
  | cons c rest ih =>
    rcases ih (ferry source goal b c) with ⟨pieces, garrisons, heq, hp, hg⟩
    refine ⟨pieces, garrisons, ?_, ?_, ?_⟩
    · rw [List.foldl_cons, heq]
      unfold ferry transfer modifyPiece
      split <;> rfl
    · rw [hp]
      simp [ferry]
    · rw [hg, garrisons_size_ferry]

/-- Those that are ferried stand at the goal; the others stand where they stood. -/
theorem piece?_foldl_ferry (source goal : TerritoryId) (cs : List PieceId) (b : Board)
    (w : PieceId) :
    (cs.foldl (ferry source goal) b).piece? w =
      (b.piece? w).map fun q => if w ∈ cs then { q with territory := goal } else q := by
  induction cs generalizing b with
  | nil => simp
  | cons c rest ih =>
    rw [List.foldl_cons, ih, ferry, piece?_modifyPiece, piece?_transfer]
    -- cargo that is listed twice is only given the same place again
    by_cases hcw : c = w
    · subst hcw
      rw [if_pos rfl, Option.map_map]
      congr 1
      funext q
      by_cases hrest : c ∈ rest
      · simp [hrest]
      · simp [hrest]
    · rw [if_neg hcw]
      congr 1
      funext q
      simp [Ne.symm hcw]

/-- The cargo leaves one garrison and follows in its order in the other. -/
theorem garrison_foldl_ferry {source goal : TerritoryId} (cs : List PieceId) (b : Board)
    (hs : source < b.garrisons.size) (hg : goal < b.garrisons.size) (x : TerritoryId) :
    (cs.foldl (ferry source goal) b).garrison x = b.garrisonAfter cs source goal x := by
  induction cs generalizing b with
  | nil =>
    unfold garrisonAfter
    simp
  | cons c rest ih =>
    have hsize := garrisons_size_ferry source goal b c
    have hstep : (ferry source goal b c).garrison x = b.garrisonAfter [c] source goal x :=
      garrison_transfer b c hs hg x
    rw [List.foldl_cons, ih _ (hsize ▸ hs) (hsize ▸ hg)]
    exact garrisonAfter_cons hstep rest

/-- A relocation as a transfer of the piece itself followed by its cargo. -/
theorem relocate_eq {b : Board} {u : PieceId} {q : Piece} (hq : b.piece? u = some q)
    (route : Route) :
    b.relocate u route = (b.aboard u).foldl (ferry q.territory route.dest)
      ((b.transfer u q.territory route.dest).modifyPiece u fun q =>
        { q with
          territory := route.dest
          movementLeft := q.movementLeft - route.length
          movedThisTurn := true }) := by
  unfold relocate
  rw [hq]
  rfl

/-- What is not a piece cannot be relocated. -/
theorem relocate_of_none {b : Board} {u : PieceId} (hq : b.piece? u = none) (route : Route) :
    b.relocate u route = b := by
  unfold relocate
  rw [hq]

/-- Only the pieces and the garrisons change. -/
theorem relocate_frame (b : Board) (u : PieceId) (route : Route) :
    ∃ pieces garrisons, b.relocate u route = { b with pieces := pieces, garrisons := garrisons } ∧
      pieces.size = b.pieces.size ∧ garrisons.size = b.garrisons.size := by
  cases hq : b.piece? u with
  | none => exact ⟨b.pieces, b.garrisons, relocate_of_none hq route, rfl, rfl⟩
  | some q =>
    rw [relocate_eq hq]
    obtain ⟨pieces, garrisons, heq, hp, hg⟩ := foldl_ferry_frame q.territory route.dest (b.aboard u)
      ((b.transfer u q.territory route.dest).modifyPiece u fun q =>
        { q with
          territory := route.dest
          movementLeft := q.movementLeft - route.length
          movedThisTurn := true })
    refine ⟨pieces, garrisons, ?_, ?_, ?_⟩
    · rw [heq]
      unfold transfer modifyPiece
      split <;> rfl
    · simpa using hp
    · rw [hg]
      exact garrisons_size_transfer b u q.territory route.dest

section Frame

variable (b : Board) (u : PieceId) (route : Route)

@[simp] theorem atlas_relocate : (b.relocate u route).atlas = b.atlas := by
  rcases relocate_frame b u route with ⟨_, _, heq, -, -⟩
  rw [heq]

@[simp] theorem kinds_relocate : (b.relocate u route).kinds = b.kinds := by
  rcases relocate_frame b u route with ⟨_, _, heq, -, -⟩
  rw [heq]

@[simp] theorem players_relocate : (b.relocate u route).players = b.players := by
  rcases relocate_frame b u route with ⟨_, _, heq, -, -⟩
  rw [heq]

@[simp] theorem rules_relocate : (b.relocate u route).rules = b.rules := by
  rcases relocate_frame b u route with ⟨_, _, heq, -, -⟩
  rw [heq]

@[simp] theorem conquered_relocate : (b.relocate u route).conquered = b.conquered := by
  rcases relocate_frame b u route with ⟨_, _, heq, -, -⟩
  rw [heq]

@[simp] theorem pieces_size_relocate : (b.relocate u route).pieces.size = b.pieces.size := by
  rcases relocate_frame b u route with ⟨_, _, heq, hp, -⟩
  rw [heq]
  exact hp

@[simp] theorem garrisons_size_relocate :
    (b.relocate u route).garrisons.size = b.garrisons.size := by
  rcases relocate_frame b u route with ⟨_, _, heq, -, hg⟩
  rw [heq]
  exact hg

end Frame

/-- The piece itself pays for the route; what is aboard it only changes place. -/
theorem piece?_relocate {b : Board} {u : PieceId} {q : Piece} (hq : b.piece? u = some q)
    (route : Route) (w : PieceId) :
    (b.relocate u route).piece? w = (b.piece? w).map fun x =>
      if u = w then
        { x with
          territory := route.dest
          movementLeft := x.movementLeft - route.length
          movedThisTurn := true }
      else if w ∈ b.aboard u then { x with territory := route.dest } else x := by
  rw [relocate_eq hq, piece?_foldl_ferry, piece?_modifyPiece, piece?_transfer]
  by_cases huw : u = w
  · subst huw
    rw [if_pos rfl, Option.map_map]
    congr 1
    funext x
    -- cargo of itself it would only be given its own place again
    by_cases hself : u ∈ b.aboard u
    · simp [hself]
    · simp [hself]
  · simp only [if_neg huw]

/-- A piece and its cargo leave the garrison of the source for that of the goal. -/
theorem garrison_relocate {b : Board} {u : PieceId} {q : Piece} (hq : b.piece? u = some q)
    (route : Route) (hs : q.territory < b.garrisons.size) (hg : route.dest < b.garrisons.size)
    (x : TerritoryId) :
    (b.relocate u route).garrison x =
      b.garrisonAfter (u :: b.aboard u) q.territory route.dest x := by
  have hsize := garrisons_size_transfer b u q.territory route.dest
  rw [relocate_eq hq, garrison_foldl_ferry _ _ (hsize ▸ hs) (hsize ▸ hg)]
  -- the piece itself has gone before its cargo
  refine garrisonAfter_cons ?_ (b.aboard u)
  rw [garrison_modifyPiece]
  exact garrison_transfer b u hs hg x

end Conquest.Board
