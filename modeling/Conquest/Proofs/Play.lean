import Conquest.Proofs.Effects
import Conquest.Table.Play
import Conquest.Scenario.Setup

/-!
# Every game is well-formed

A scenario sets up a well-formed board, and every command, taken or refused, keeps it so on the
same ground. Hence every position of every game is well-formed.

* `foldlM_traces`: a sequence that may fail, step by step.
* `Scenario.board_forall`: the board of a scenario, piece by piece.
* `Scenario.setUp_sound`, `Scenario.setUp_kinds`, `Scenario.setUp_seas`: the board of a scenario.
* `Table.obey_keeps`: one command; `Table.play_keeps`: a whole game.
-/

namespace Conquest

/-! ## Sequences that may fail -/

theorem mapM_forall₂ {ε α β : Type} {f : α → Except ε β} {xs : List α} {ys : List β}
    (h : xs.mapM f = .ok ys) : List.Forall₂ (fun x y => f x = .ok y) xs ys := by
  induction xs generalizing ys with
  | nil =>
    rw [List.mapM_nil] at h
    cases h
    exact .nil
  | cons x rest ih =>
    rw [List.mapM_cons] at h
    rcases bind_eq_ok.1 h with ⟨y, hy, hrest⟩
    rcases bind_eq_ok.1 hrest with ⟨ys', hys', hpure⟩
    cases hpure
    exact .cons hy (ih hys')

section Fold

variable {ε σ α : Type} {f : σ → α → Except ε σ} {xs : List α} {s s' : σ}

/-- A fold that succeeds succeeds at every step; what it has gone through so far is kept in mind. -/
theorem foldlM_traces {Q : List α → σ → Prop}
    (hstep : ∀ done, ∀ x ∈ xs, ∀ s s', Q done s → f s x = .ok s' → Q (done ++ [x]) s')
    {done : List α} (hs : Q done s) (h : xs.foldlM f s = .ok s') : Q (done ++ xs) s' := by
  induction xs generalizing done s with
  | nil =>
    rw [List.foldlM_nil] at h
    cases h
    rwa [List.append_nil]
  | cons x rest ih =>
    rw [List.foldlM_cons] at h
    rcases bind_eq_ok.1 h with ⟨mid, hmid, hrest⟩
    have hnext := hstep done x List.mem_cons_self s mid hs hmid
    have hall := ih (fun done y hy => hstep done y (List.mem_cons_of_mem _ hy)) hnext hrest
    rwa [List.append_assoc, List.singleton_append] at hall

/-- A loop that ends keeps what its steps keep. -/
theorem foldlM_keeps {Q : σ → Prop} (hstep : ∀ x ∈ xs, ∀ s s', Q s → f s x = .ok s' → Q s')
    (hs : Q s) (h : xs.foldlM f s = .ok s') : Q s' :=
  @foldlM_traces ε σ α f xs s s' (fun _ => Q) (fun _ => hstep) [] hs h

/-- No step of a fold fails if the fold does not. -/
theorem foldlM_each (h : xs.foldlM f s = .ok s') : ∀ x ∈ xs, ∃ s₁ s₂, f s₁ x = .ok s₂ := by
  suffices hall : ∀ x ∈ [] ++ xs, ∃ s₁ s₂, f s₁ x = .ok s₂ from hall
  refine foldlM_traces (Q := fun done _ => ∀ x ∈ done, ∃ s₁ s₂, f s₁ x = .ok s₂) ?_ (by simp) h
  intro done x _ s₁ s₂ hdone hstep y hy
  rcases List.mem_append.1 hy with hold | hnew
  · exact hdone y hold
  · rw [List.mem_singleton.1 hnew]
    exact ⟨s₁, s₂, hstep⟩

end Fold

namespace Table

variable {h h' : Table} {p : PlayerId}

/-! ## Commands -/

/-- What a command leaves: a well-formed board on the same ground. -/
def Keeps (b b' : Board) : Prop := b'.Sound ∧ b.SameGround b'

theorem Keeps.trans {b b' b'' : Board} (hkeeps : Keeps b b') (hkeeps' : Keeps b' b'') :
    Keeps b b'' :=
  ⟨hkeeps'.1, hkeeps.2.trans hkeeps'.2⟩

theorem submitPurchase_keeps {bought : Tally} (hb : h.board.Sound)
    (htaken : h.submitPurchase p bought = .ok h') : Keeps h.board h'.board := by
  obtain ⟨-, -, rfl⟩ := submitPurchase_ok_iff.1 htaken
  refine ⟨hb.of_samePost hb.atlas rfl rfl rfl rfl ?_, .of_eq rfl rfl rfl rfl⟩
  intro w x hx
  exact ⟨x, hx, rfl, rfl, rfl, rfl, rfl⟩

theorem addPiece_keeps (k : KindId) {t : TerritoryId} {b : Board} (hb : b.Sound)
    (ht : t < b.atlas.size) : Keeps b (b.addPiece k p t) :=
  ⟨hb.addPiece k p ht, .of_eq rfl rfl rfl rfl⟩

theorem foldl_addPiece_keeps (kinds : List KindId) {t : TerritoryId} {b : Board} (hb : b.Sound)
    (ht : t < b.atlas.size) : Keeps b (kinds.foldl (fun b k => b.addPiece k p t) b) := by
  induction kinds generalizing b with
  | nil => exact ⟨hb, .refl b⟩
  | cons k rest ih =>
    have hfirst := addPiece_keeps (p := p) k hb ht
    exact hfirst.trans (ih hfirst.1 ht)

/-- A factory is charged only for places on the map. -/
theorem lt_size_of_chargedFactory? {t factory : TerritoryId}
    (hcharged : h.chargedFactory? p t = some factory) : t < h.board.atlas.size := by
  unfold chargedFactory? at hcharged
  split at hcharged
  · rename_i hwater
    exact Atlas.lt_size_of_isWater hwater
  · split at hcharged
    · rename_i hown
      rw [Bool.and_eq_true, Bool.and_eq_true, beq_iff_eq] at hown
      exact Atlas.lt_size_of_owner hown.1.1
    · cases hcharged

/-- A placement keeps the board well-formed and every piece its kind. -/
theorem submitPlacement_keeps {placement : Placement} (hb : h.board.Sound)
    (htaken : h.submitPlacement p placement = .ok h') : Keeps h.board h'.board := by
  obtain ⟨-, factory, hcharged, -, rfl⟩ := submitPlacement_ok_iff.1 htaken
  exact foldl_addPiece_keeps placement.kinds hb (lt_size_of_chargedFactory? hcharged)

theorem size_endTurn (h : Table) (p : PlayerId) :
    (h.endTurn p).board.pieces.size = h.board.pieces.size := by
  simp [endTurn, Board.setBudget, Board.refresh]

/-- The pieces of the player get back all their movement. -/
theorem piece?_endTurn (h : Table) (p : PlayerId) (w : PieceId) :
    (h.endTurn p).board.piece? w = (h.board.piece? w).map fun q =>
      if q.owner = p then
        { q with movementLeft := (h.board.kind q.kind).movement, movedThisTurn := false }
      else q :=
  Array.getElem?_map

/-- All pieces are refreshed in place. -/
theorem of_piece?_endTurn {w : PieceId} {x' : Piece}
    (hx' : (h.endTurn p).board.piece? w = some x') :
    ∃ x, h.board.piece? w = some x ∧ x.SamePost x' := by
  rw [piece?_endTurn, Option.map_eq_some_iff] at hx'
  rcases hx' with ⟨x, hx, rfl⟩
  refine ⟨x, hx, ?_⟩
  split
  · exact ⟨rfl, rfl, rfl, rfl, rfl⟩
  · exact ⟨rfl, rfl, rfl, rfl, rfl⟩

/-- So does the end of a turn. -/
theorem endTurn_keeps (p : PlayerId) (hb : h.board.Sound) :
    Keeps h.board (h.endTurn p).board := by
  constructor
  · exact hb.of_samePost hb.atlas rfl rfl rfl (size_endTurn h p) fun _ _ => of_piece?_endTurn
  · exact .of_eq rfl rfl rfl rfl

/-- So does every command that is taken. -/
theorem answer_keeps {c : Command} (hb : h.board.Sound) (htaken : h.answer c = .ok h') :
    Keeps h.board h'.board := by
  cases c with
  | move p o =>
    have heffect := submitMove_effect hb htaken
    exact ⟨heffect.sound, heffect.after.toSameGround⟩
  | purchase p bought => exact submitPurchase_keeps hb htaken
  | placement p placement => exact submitPlacement_keeps hb htaken
  | beginEpoch p e =>
    cases htaken
    exact ⟨hb, .refl h.board⟩
  | endTurn p =>
    cases htaken
    exact endTurn_keeps p hb

/-- One command keeps the board well-formed, whether it is taken or not. -/
theorem obey_keeps (hb : h.board.Sound) (c : Command) : Keeps h.board (h.obey c).board := by
  unfold obey
  cases hc : h.answer c with
  | ok h' => exact answer_keeps hb hc
  | error e => exact ⟨hb, .refl h.board⟩

/-- What every command that is taken keeps is kept by a whole game. -/
theorem play_forall {Q : Table → Prop}
    (hstep : ∀ h h' c, Q h → h.answer c = .ok h' → Q h') (hh : Q h) (commands : List Command) :
    Q (h.play commands) := by
  unfold play
  induction commands generalizing h with
  | nil => exact hh
  | cons c rest ih =>
    refine ih ?_
    unfold obey
    cases hc : h.answer c with
    | ok h' => exact hstep h h' c hh hc
    | error e => exact hh

/-- A whole game keeps the board well-formed. -/
theorem play_keeps (hb : h.board.Sound) (commands : List Command) :
    Keeps h.board (h.play commands).board := by
  refine play_forall (Q := fun h' => Keeps h.board h'.board) ?_ ⟨hb, .refl h.board⟩ commands
  intro h₁ h₂ c hkeeps htaken
  exact hkeeps.trans (answer_keeps hkeeps.1 htaken)

end Table

namespace Scenario

open Board Table

variable {s : Scenario}

/-! ## Setting up -/

/-- A name is found where it stands in its register. -/
theorem getElem?_of_find {r : Register} {name : String} {i : Nat} (h : s.find r name = .ok i) :
    (s.names r)[i]? = some name := by
  unfold find Register.find at h
  cases hidx : (s.names r).idxOf? name with
  | none =>
    rw [hidx] at h
    cases h
  | some j =>
    rw [hidx] at h
    cases h
    have hmem := List.isSome_idxOf?.1 (hidx ▸ rfl : ((s.names r).idxOf? name).isSome = true)
    have hget := List.getElem?_idxOf hmem
    rwa [List.idxOf_eq_getD_idxOf?, hidx, Option.getD_some] at hget

theorem lt_of_find {r : Register} {name : String} {i : Nat} (h : s.find r name = .ok i) :
    i < (s.names r).length := by
  have hget := getElem?_of_find h
  exact (List.getElem?_eq_some_iff.1 hget).1

/-- The territories of a scenario on the map: the position is the identifier, water and
impassability are as specified. -/
structure MapOf (s : Scenario) (m : Atlas) : Prop where
  sound : m.Sound
  size : m.size = s.territories.length
  spec : ∀ t < m.size, ∃ spec, s.territories[t]? = some spec ∧
    (m.territory t).isWater = spec.water ∧ (m.territory t).impassable = spec.impassable

/-- A territory is set up as it is described. -/
theorem territory_ok {spec : TerritorySpec} {id : TerritoryId} {land : Territory}
    (h : s.territory spec id = .ok land) :
    land.id = id ∧ land.isWater = spec.water ∧ land.impassable = spec.impassable := by
  unfold Scenario.territory at h
  rcases bind_eq_ok.1 h with ⟨owner, -, hpure⟩
  cases hpure
  exact ⟨rfl, rfl, rfl⟩

/-- A connection is set up between the two territories that it names. -/
theorem connect_ok {m m' : Atlas} {pair : String × String} (h : s.connect m pair = .ok m') :
    ∃ a b, s.find .territories pair.1 = .ok a ∧ s.find .territories pair.2 = .ok b ∧
      m' = m.connect a b := by
  unfold connect at h
  rcases bind_eq_ok.1 h with ⟨a, ha, h⟩
  rcases bind_eq_ok.1 h with ⟨b, hb, hpure⟩
  cases hpure
  exact ⟨a, b, ha, hb, rfl⟩

/-- The atlas that is set up is the map of the scenario. -/
theorem atlas_mapOf {m : Atlas} (h : s.atlas = .ok m) : s.MapOf m := by
  unfold Scenario.atlas at h
  rcases bind_eq_ok.1 h with ⟨lands, hlands, hconnect⟩
  have hall := mapM_forall₂ hlands
  have hlen : lands.length = s.territories.length := by
    rw [← hall.length_eq, List.length_zipIdx]
  -- identifiers are handed out in the order of the specification
  have hget : ∀ t (ht : t < lands.length), ∃ spec, s.territories[t]? = some spec ∧
      lands[t].id = t ∧ lands[t].isWater = spec.water ∧
      lands[t].impassable = spec.impassable := by
    intro t ht
    have hpair := hall.get (by simpa [hlen] using ht) ht
    simp only [List.get_eq_getElem, List.getElem_zipIdx, Nat.zero_add] at hpair
    exact ⟨_, List.getElem?_eq_getElem (hlen ▸ ht), territory_ok hpair⟩
  -- connecting changes neighbours only
  have hkeep : s.MapOf m ∧ m.territories = lands.toArray := by
    refine foldlM_keeps (Q := fun m => s.MapOf m ∧ m.territories = lands.toArray) ?_ ?_ hconnect
    · rintro pair - m₁ m₂ ⟨hmap, hterr⟩ hstep
      rcases connect_ok hstep with ⟨a, b, -, -, rfl⟩
      have hsame := m₁.territories_connect a b
      refine ⟨⟨hmap.sound.connect a b, ?_, ?_⟩, hsame.trans hterr⟩
      · rw [Atlas.size, hsame]
        exact hmap.size
      · intro t ht
        rw [Atlas.size, hsame] at ht
        rw [Atlas.territory, hsame]
        exact hmap.spec t ht
    · refine ⟨⟨Atlas.sound_ofTerritories _ ?_, ?_, ?_⟩, rfl⟩
      · intro t ht
        rcases hget t (by simpa using ht) with ⟨-, -, hid, -⟩
        simpa using hid
      · simpa [Atlas.ofTerritories, Atlas.size] using hlen
      · intro t ht
        have htl : t < lands.length := by simpa [Atlas.ofTerritories, Atlas.size] using ht
        rcases hget t htl with ⟨spec, hspec, -, hwater, himp⟩
        have hterr := Atlas.getElem?_territories ht
        simp only [Atlas.ofTerritories, List.getElem?_toArray, List.getElem?_eq_getElem htl,
          Option.some.injEq] at hterr
        refine ⟨spec, hspec, ?_, ?_⟩
        · rw [Atlas.ofTerritories, ← hterr]
          exact hwater
        · rw [Atlas.ofTerritories, ← hterr]
          exact himp
  exact hkeep.1

/-- The board before anything is put on it. -/
theorem emptyBoard_ok {b : Board} (h : s.emptyBoard = .ok b) : ∃ atlas players,
    s.atlas = .ok atlas ∧ s.players.zipIdx.mapM (fun (spec, id) => s.player spec id) = .ok players ∧
      b = { Board.ofAtlas atlas players.toArray s.catalogue s.rules with
        budgets := (s.players.map (·.budget)).toArray } := by
  unfold emptyBoard at h
  obtain ⟨atlas, hatlas, h⟩ := bind_eq_ok.1 h
  obtain ⟨players, hplayers, h⟩ := bind_eq_ok.1 h
  cases h
  exact ⟨atlas, players, hatlas, hplayers, rfl⟩

theorem piece?_emptyBoard {b : Board} (h : s.emptyBoard = .ok b) (u : PieceId) :
    b.piece? u = none := by
  obtain ⟨atlas, players, -, -, rfl⟩ := emptyBoard_ok h
  simp [Board.ofAtlas, piece?]

theorem sound_emptyBoard {b : Board} (h : s.emptyBoard = .ok b) :
    b.Sound ∧ s.MapOf b.atlas ∧ b.kinds = s.catalogue := by
  have hnone : ∀ u q, b.piece? u ≠ some q := by simp [piece?_emptyBoard h]
  obtain ⟨m, players, hm, -, rfl⟩ := emptyBoard_ok h
  have hmap := atlas_mapOf hm
  refine ⟨⟨hmap.sound, ?_, ?_, ?_, ?_, ?_, ?_⟩, hmap, rfl⟩
  · simp [Board.ofAtlas]
  · intro u q hq
    exact absurd hq (hnone u q)
  · intro u q hq
    exact absurd hq (hnone u q)
  · intro t u hu
    simp only [garrison, Board.ofAtlas, Array.getD_eq_getD_getElem?, Array.getElem?_replicate] at hu
    split at hu
    · cases hu
    · cases hu
  · intro u q c hq
    exact absurd hq (hnone u q)
  · intro u q hq
    exact absurd hq (hnone u q)

/-- A deployment is of the kind and at the place that its entry names. -/
theorem deployment_ok {spec : PieceSpec} {d : Deployment} (h : s.deployment spec = .ok d) :
    s.find .kinds spec.kind = .ok d.kind ∧ s.find .territories spec.place = .ok d.territory := by
  unfold deployment at h
  rcases bind_eq_ok.1 h with ⟨k, hk, h⟩
  rcases bind_eq_ok.1 h with ⟨p, -, h⟩
  rcases bind_eq_ok.1 h with ⟨t, ht, h⟩
  cases h
  exact ⟨hk, ht⟩

theorem lt_of_deployment {spec : PieceSpec} {d : Deployment} (h : s.deployment spec = .ok d) :
    d.territory < s.territories.length := by
  have hlt := lt_of_find (deployment_ok h).2
  simpa [names] using hlt

/-- An entry lists cargo when it puts land pieces on water. -/
theorem listsCargo_eq {spec : PieceSpec} {d : Deployment} (h : s.deployment spec = .ok d)
    (b : Board) :
    s.listsCargo b spec = ((b.kind d.kind).isLand && b.atlas.isWater d.territory) := by
  obtain ⟨hkind, hplace⟩ := deployment_ok h
  rw [listsCargo, hkind, hplace]

/-- A carrier that is found belongs to the owner of the cargo, waits where the cargo is put and has
room for it. -/
theorem carrierFor?_ok {b : Board} (hb : b.Sound) {d : Deployment} {carrier : PieceId}
    (h : carrierFor? b d = some carrier) :
    ∃ q, b.piece? carrier = some q ∧ q.owner = d.owner ∧ q.territory = d.territory ∧
      (b.kind q.kind).isTransport = true ∧
      (b.kind d.kind).transportCost ≤ b.freeCapacity carrier := by
  unfold carrierFor? at h
  rcases Option.map_eq_some_iff.1 h with ⟨a, hfind, rfl⟩
  have hmem := List.mem_of_find?_eq_some hfind
  have hprop := List.find?_some hfind
  rw [Bool.and_eq_true, Bool.and_eq_true, beq_iff_eq] at hprop
  rcases hprop with ⟨⟨howner, htransport⟩, hroom⟩
  rcases asset?_eq_some.1 (hb.asset?_of_mem hmem) with ⟨hpiece, hkind⟩
  -- a transport is no land piece, so it stands by itself where it is listed
  have hland := PieceKind.isLand_eq_false_of_carriesCargo
    (PieceKind.carriesCargo_of_isTransport htransport)
  have hnone := hb.carrier_eq_none hpiece (hkind ▸ hland)
  exact ⟨a.piece, hpiece, howner, hb.territory_of_mem hmem (isSettled_of_carrier hnone),
    hkind ▸ htransport, of_decide_eq_true hroom⟩

/-- The board with a new piece that has come aboard at once, so that it is never seen ashore. -/
def addCargo (b : Board) (d : Deployment) (carrier : PieceId) : Board :=
  (b.addPiece d.kind d.owner d.territory).modifyPiece b.pieces.size fun p =>
    { p with carrier := some carrier }

theorem pieces_addCargo (b : Board) (d : Deployment) (carrier : PieceId) :
    (addCargo b d carrier).pieces = b.pieces.push
      { id := b.pieces.size, kind := d.kind, owner := d.owner, territory := d.territory,
        movementLeft := (b.kind d.kind).movement, carrier := some carrier } := by
  apply Array.ext_getElem?
  intro i
  simp only [addCargo, modifyPiece, Board.addPiece, Array.getElem?_modify,
    Array.getElem?_push]
  by_cases hi : i = b.pieces.size
  · simp [hi]
  · simp [hi, Ne.symm hi]

/-- Cargo that is stowed keeps the board well-formed. -/
theorem addCargo_keeps {d : Deployment} {b : Board} {carrier : PieceId} (hb : b.Sound)
    (ht : d.territory < b.atlas.size) (hland : (b.kind d.kind).isLand = true)
    (hcarrier : carrierFor? b d = some carrier) : Keeps b (addCargo b d carrier) := by
  rcases carrierFor?_ok hb hcarrier with ⟨q, hq, howner, hplace, htransport, -⟩
  have hadded := hb.addPiece d.kind d.owner ht
  have hnew := piece?_addPiece b d.kind d.owner d.territory
  have hold := piece?_addPiece_of_some b d.kind d.owner d.territory hq
  have hroom := (PieceKind.carriesCargo_iff.1
    (PieceKind.carriesCargo_of_isTransport htransport)).2
  have hcarries : ∀ c, some carrier = some c → ∃ s,
      (b.addPiece d.kind d.owner d.territory).piece? c = some s ∧
      (b.addPiece d.kind d.owner d.territory).Carries s
        { id := b.pieces.size, kind := d.kind, owner := d.owner, territory := d.territory,
          movementLeft := (b.kind d.kind).movement } := by
    intro c hc
    cases hc
    exact ⟨q, hold, howner, hland, hroom, fun _ => hplace⟩
  exact ⟨hadded.setCarrier hnew (isSettled_of_carrier rfl) hcarries, .of_eq rfl rfl rfl rfl⟩

/-- What one more piece keeps is kept by all pieces of a specification. -/
theorem deploy_forall {Q : Board → Prop} {d : Deployment}
    (hadd : ∀ b, Q b → Q (b.addPiece d.kind d.owner d.territory)) (n : Nat) {b : Board}
    (hb : Q b) : Q (deploy d n b) := by
  induction n generalizing b with
  | zero => exact hb
  | succ n ih => exact ih (hadd b hb)

/-- What one more piece of cargo keeps is kept by all cargo of a specification. -/
theorem stow?_forall {Q : Board → Prop} {d : Deployment}
    (hadd : ∀ b carrier, Q b → carrierFor? b d = some carrier → Q (addCargo b d carrier))
    {n : Nat} {b b' : Board} (hb : Q b) (h : stow? d n b = some b') : Q b' := by
  induction n generalizing b with
  | zero =>
    cases h
    exact hb
  | succ n ih =>
    unfold stow? at h
    cases hcarrier : carrierFor? b d with
    | none =>
      rw [hcarrier] at h
      cases h
    | some carrier =>
      rw [hcarrier] at h
      exact ih (hadd b carrier hb hcarrier) h

theorem place_ok {b b' : Board} {spec : PieceSpec} (h : s.place b spec = .ok b') :
    ∃ d, s.deployment spec = .ok d ∧ b' = deploy d spec.count b := by
  obtain ⟨d, hd, hpure⟩ := bind_eq_ok.1 h
  cases hpure
  exact ⟨d, hd, rfl⟩

theorem load_ok {b b' : Board} {spec : PieceSpec} (h : s.load b spec = .ok b') :
    ∃ d, s.deployment spec = .ok d ∧ stow? d spec.count b = some b' := by
  unfold load at h
  obtain ⟨d, hd, h⟩ := bind_eq_ok.1 h
  refine ⟨d, hd, ?_⟩
  cases hstow : stow? d spec.count b with
  | none =>
    rw [hstow] at h
    cases h
  | some b₁ =>
    rw [hstow] at h
    cases h
    rfl

/-- What stands by itself is placed first, and then the cargo comes aboard. -/
theorem board_ok {b : Board} (h : s.board = .ok b) : ∃ empty placed, s.emptyBoard = .ok empty ∧
    (s.pieces.filter fun spec => !s.listsCargo empty spec).foldlM s.place empty = .ok placed ∧
    (s.pieces.filter (s.listsCargo empty)).foldlM s.load placed = .ok b := by
  unfold Scenario.board at h
  obtain ⟨empty, hempty, h⟩ := bind_eq_ok.1 h
  rw [List.partition_eq_filter_filter] at h
  obtain ⟨placed, hplaced, hloaded⟩ := bind_eq_ok.1 h
  exact ⟨empty, placed, hempty, hplaced, hloaded⟩

/-- The board of a scenario comes from the empty board piece by piece. -/
theorem board_forall {b : Board} (h : s.board = .ok b) :
    ∃ empty, s.emptyBoard = .ok empty ∧ ∀ Q : Board → Prop, Q empty →
      (∀ spec ∈ s.pieces, s.listsCargo empty spec = false → ∀ d, s.deployment spec = .ok d →
        ∀ b₁, Q b₁ → Q (b₁.addPiece d.kind d.owner d.territory)) →
      (∀ spec ∈ s.pieces, s.listsCargo empty spec = true → ∀ d, s.deployment spec = .ok d →
        ∀ b₁ carrier, Q b₁ → carrierFor? b₁ d = some carrier → Q (addCargo b₁ d carrier)) →
      Q b := by
  obtain ⟨empty, placed, hempty, hplaced, hloaded⟩ := board_ok h
  refine ⟨empty, hempty, ?_⟩
  intro Q hnone hplace hload
  have hfirst : Q placed := by
    apply foldlM_keeps (Q := Q) _ hnone hplaced
    intro spec hspec b₁ b₂ hb₁ hstep
    obtain ⟨hmem, hnot⟩ := List.mem_filter.1 hspec
    obtain ⟨d, hd, rfl⟩ := place_ok hstep
    exact deploy_forall (hplace spec hmem (by simpa using hnot) d hd) spec.count hb₁
  apply foldlM_keeps (Q := Q) _ hfirst hloaded
  intro spec hspec b₁ b₂ hb₁ hstep
  obtain ⟨hmem, hlists⟩ := List.mem_filter.1 hspec
  obtain ⟨d, hd, hstow⟩ := load_ok hstep
  exact stow?_forall (hload spec hmem hlists d hd) hb₁ hstow

/-- What is known of the board of a scenario: it is well-formed, on the ground of the empty
board. -/
theorem board_keeps {b : Board} (h : s.board = .ok b) :
    ∃ empty, s.emptyBoard = .ok empty ∧ Keeps empty b := by
  obtain ⟨empty, hempty, hall⟩ := board_forall h
  obtain ⟨hsound, hmap, -⟩ := sound_emptyBoard hempty
  refine ⟨empty, hempty, ?_⟩
  have hlt : ∀ spec d, s.deployment spec = .ok d → ∀ b₁, Keeps empty b₁ →
      d.territory < b₁.atlas.size := by
    intro spec d hd b₁ hb₁
    rw [hb₁.2.size, hmap.size]
    exact lt_of_deployment hd
  apply hall (Keeps empty) ⟨hsound, .refl empty⟩
  · intro spec _ _ d hd b₁ hb₁
    exact hb₁.trans (addPiece_keeps d.kind hb₁.1 (hlt spec d hd b₁ hb₁))
  · intro spec _ hlists d hd b₁ carrier hb₁ hcarrier
    -- only what the empty board knows as land is listed as cargo
    rw [listsCargo_eq hd, Bool.and_eq_true] at hlists
    rw [← hb₁.2.kind] at hlists
    exact hb₁.trans (addCargo_keeps hb₁.1 (hlt spec d hd b₁ hb₁) hlists.1 hcarrier)

/-- Only the pieces and the garrisons of a scenario are not there from the beginning. -/
theorem board_regrouped {b : Board} (h : s.board = .ok b) :
    ∃ empty, s.emptyBoard = .ok empty ∧ empty.Regrouped b := by
  obtain ⟨empty, hempty, hall⟩ := board_forall h
  refine ⟨empty, hempty, hall empty.Regrouped (.refl empty) ?_ ?_⟩
  · intro _ _ _ d _ b₁ hb₁
    exact hb₁.trans (.addPiece b₁ d.kind d.owner d.territory)
  · intro _ _ _ d _ b₁ _ hb₁ _
    exact (hb₁.trans (.addPiece b₁ d.kind d.owner d.territory)).trans (.modifyPiece _ _ _)

/-- The table that is set up is the one of the board that is set up. -/
theorem setUp_board {h : Table} (hset : s.setUp = .ok h) :
    s.board = .ok h.board ∧ h = .ofBoard h.board := by
  unfold setUp at hset
  rcases bind_eq_ok.1 hset with ⟨⟨⟩, -, hset⟩
  rcases bind_eq_ok.1 hset with ⟨⟨⟩, -, hset⟩
  rcases bind_eq_ok.1 hset with ⟨⟨⟩, -, hset⟩
  rcases bind_eq_ok.1 hset with ⟨b, hb, hset⟩
  cases hset
  exact ⟨hb, rfl⟩

/-- A scenario sets up a well-formed board. -/
theorem setUp_sound {h : Table} (hset : s.setUp = .ok h) : h.board.Sound := by
  rcases board_keeps (setUp_board hset).1 with ⟨empty, -, hsound, -⟩
  exact hsound

/-- A kind of the catalogue is the one that stands there in the scenario. -/
theorem kind_of_getElem? {b : Board} (hkinds : b.kinds = s.catalogue) {k : KindId}
    {kind : PieceKind} (hkind : s.kinds[k]? = some kind) : b.kind k = { kind with id := k } := by
  rw [Board.kind, hkinds, catalogue]
  simp [Array.getD_eq_getD_getElem?, hkind]

/-- The kinds of the catalogue are those of the scenario, and the kind of no statistics for a number
outside the catalogue. -/
theorem kind_of_catalogue {b : Board} (hkinds : b.kinds = s.catalogue) (k : KindId) :
    b.kind k = default ∨ ∃ kind ∈ s.kinds, b.kind k = { kind with id := k } := by
  cases hkind : s.kinds[k]? with
  | some kind => exact .inr ⟨kind, List.mem_of_getElem? hkind, kind_of_getElem? hkinds hkind⟩
  | none =>
    left
    rw [Board.kind, hkinds, catalogue]
    simp [Array.getD_eq_getD_getElem?, hkind]

/-- The kinds on the board are those of the scenario, or the kind of no statistics for a number
outside the catalogue. -/
theorem setUp_kinds {h : Table} (hset : s.setUp = .ok h) (k : KindId) :
    h.board.kind k = default ∨ ∃ kind ∈ s.kinds, h.board.kind k = { kind with id := k } := by
  rcases board_keeps (setUp_board hset).1 with ⟨empty, hempty, -, hground⟩
  rcases sound_emptyBoard hempty with ⟨-, -, hkinds⟩
  rw [hground.kind]
  exact kind_of_catalogue hkinds k

/-- What holds of the kinds of a scenario, whatever their numbers, and of the kind of no statistics
holds of all kinds on the board. -/
theorem forall_kind_of_setUp {P : PieceKind → Prop} {h : Table} (hset : s.setUp = .ok h)
    (hnone : P default) (hnumber : ∀ kind k, P kind → P { kind with id := k })
    (hkinds : ∀ kind ∈ s.kinds, P kind) (k : KindId) : P (h.board.kind k) := by
  rcases setUp_kinds hset k with hdefault | ⟨kind, hkind, heq⟩
  · rw [hdefault]
    exact hnone
  · rw [heq]
    exact hnumber kind k (hkinds kind hkind)

/-- In a game of a scenario in which only ships have cargo space, nothing else carries cargo. -/
theorem play_onlyShipsCarry {h : Table} (hset : s.setUp = .ok h)
    (hships : ∀ kind ∈ s.kinds, 0 < kind.transportCapacity → kind.isSea = true)
    (commands : List Command) : (h.play commands).board.OnlyShipsCarry := by
  have hcarry : h.board.OnlyShipsCarry :=
    forall_kind_of_setUp (P := fun kind => 0 < kind.transportCapacity → kind.isSea = true) hset
      (by decide) (fun _ _ hkind => hkind) hships
  exact hcarry.of_sameGround (Table.play_keeps (setUp_sound hset) commands).2

/-- Water and impassability on the board are as specified; outside the map there is neither. -/
theorem setUp_seas {h : Table} (hset : s.setUp = .ok h)
    (hseas : ∀ spec ∈ s.territories, spec.water = true → spec.impassable = false)
    (t : TerritoryId) (hwater : h.board.atlas.isWater t = true) :
    (h.board.territory t).impassable = false := by
  rcases board_keeps (setUp_board hset).1 with ⟨empty, hempty, -, hground⟩
  rcases sound_emptyBoard hempty with ⟨-, hmap, -⟩
  rw [hground.isWater] at hwater
  rw [hground.impassable]
  rcases hmap.spec t (Atlas.lt_size_of_isWater hwater) with ⟨spec, hspec, hspecWater, hspecImp⟩
  show (empty.atlas.territory t).impassable = false
  rw [hspecImp]
  apply hseas spec (List.mem_of_getElem? hspec)
  rw [← hspecWater]
  exact hwater

end Scenario

end Conquest
