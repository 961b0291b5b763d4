import Mathlib.Data.List.Nodup
import Conquest.Proofs.Positions
import Conquest.Proofs.Registers

/-!
# The board of a scenario is what the scenario lists

Entries of a scenario become pieces one by one: first those that stand by themselves, then those
that are listed as land pieces in a sea zone and have to find a transport there. What is on the
board at each moment is what has been listed so far, in this order, and nothing else.

* `Board.entryOf`, `PieceSpec.singles`: pieces as entries, and entries one piece at a time.
* `Scenario.Opened`: a board on which some entries have been put; `Opened.append`: one piece more;
  `Opened.deploy`, `Opened.stow`: an entry; `opened_board`: all of them.
* `Scenario.Registered`: a board with the registers of a scenario; `Registered.isAdjacent_iff`,
  `countP_pieces`: what its numbers mean by name.
* `Scenario.SetsUp`: what the board of a scenario is; `setUp_setsUp`: it is that.
-/

namespace Conquest

/-! ## Pieces as entries -/

/-- A piece as a scenario would list it. -/
def Board.entryOf (b : Board) (q : Piece) : PieceSpec where
  kind := (b.kind q.kind).name
  owner := (b.player q.owner).name
  place := (b.territory q.territory).name
  count := 1

/-- An entry, one piece at a time. -/
def PieceSpec.singles (spec : PieceSpec) : List PieceSpec :=
  List.replicate spec.count { spec with count := 1 }

namespace Scenario

open Board Table

/-- Whether an entry lists land pieces in a sea zone. -/
def isSeaborne (s : Scenario) (spec : PieceSpec) : Bool :=
  (s.kinds.any fun k => k.name == spec.kind && k.isLand) &&
    s.territories.any fun t => t.name == spec.place && t.water

/-! ## Putting pieces on the board -/

/-- A board on which pieces have been put in some order, beginning with the empty one. -/
structure Opened (empty : Board) (listed : List PieceSpec) (b : Board) : Prop where
  keeps : Keeps empty b
  regrouped : empty.Regrouped b
  entries : b.pieces.toList.map empty.entryOf = listed
  known : ∀ u q, b.piece? u = some q →
    q.kind < empty.kinds.size ∧ q.owner < empty.players.size
  garrison : ∀ t, b.garrison t = (b.pieces.toList.filter (·.territory == t)).map (·.id)
  berth : ∀ u q, b.piece? u = some q → (q.carrier.isSome = true ↔
    (empty.kind q.kind).isLand = true ∧ empty.atlas.isWater q.territory = true)
  carrier : ∀ u q c, b.piece? u = some q → q.carrier = some c → ∃ s, b.piece? c = some s ∧
    (empty.kind s.kind).isTransport = true ∧ s.owner = q.owner ∧ s.territory = q.territory
  room : ∀ c s, b.piece? c = some s →
    cargoCost b (b.aboard c) ≤ (empty.kind s.kind).transportCapacity

variable {s : Scenario} {empty b b' : Board} {listed : List PieceSpec} {spec : PieceSpec}
  {d : Deployment}

theorem opened_empty (h : s.emptyBoard = .ok empty) : Opened empty [] empty := by
  have hnone : ∀ u q, empty.piece? u ≠ some q := by simp [piece?_emptyBoard h]
  have hsound := (sound_emptyBoard h).1
  have hpieces : empty.pieces = #[] := by
    rcases emptyBoard_ok h with ⟨atlas, players, -, -, rfl⟩
    rfl
  constructor
  · exact ⟨hsound, .refl empty⟩
  · exact .refl empty
  · rw [hpieces]
    rfl
  · exact fun u q hq => absurd hq (hnone u q)
  · intro t
    have hnobody : empty.garrison t = [] := by
      rw [List.eq_nil_iff_forall_not_mem]
      intro u hu
      have hlt := hsound.garrison_lt t u hu
      rw [hpieces] at hlt
      exact Nat.not_lt_zero u hlt
    rw [hnobody, hpieces]
    rfl
  · exact fun u q hq => absurd hq (hnone u q)
  · exact fun u q c hq => absurd hq (hnone u q)
  · exact fun c q hq => absurd hq (hnone c q)

/-- One piece more. If it comes aboard, there is a transport with room for it. -/
theorem Opened.append {x : Piece} (h : Opened empty listed b) (hkeeps : Keeps b b')
    (hregrouped : b.Regrouped b') (hpieces : b'.pieces = b.pieces.push x)
    (hid : x.id = b.pieces.size)
    (hgarrison : ∀ t, b'.garrison t =
      if t = x.territory then b.garrison t ++ [x.id] else b.garrison t)
    (hknown : x.kind < empty.kinds.size ∧ x.owner < empty.players.size)
    (hberth : x.carrier.isSome = true ↔
      (empty.kind x.kind).isLand = true ∧ empty.atlas.isWater x.territory = true)
    (hcarrier : ∀ c, x.carrier = some c → ∃ s, b.piece? c = some s ∧
      (empty.kind s.kind).isTransport = true ∧ s.owner = x.owner ∧ s.territory = x.territory ∧
      cargoCost b (b.aboard c) + (empty.kind x.kind).transportCost ≤
        (empty.kind s.kind).transportCapacity) :
    Opened empty (listed ++ [empty.entryOf x]) b' := by
  have hkind := h.keeps.2.kind
  -- every clause is about the pieces that were there, and about the new one
  constructor
  · exact h.keeps.trans hkeeps
  · exact h.regrouped.trans hregrouped
  · rw [hpieces, Array.toList_push, List.map_append, h.entries]
    rfl
  · intro u q hq
    rcases of_piece?_of_push hpieces hq with rfl | hq
    · exact hknown
    · exact h.known u q hq
  · intro t
    rw [hgarrison, hpieces, Array.toList_push, List.filter_append, List.map_append, h.garrison]
    by_cases ht : t = x.territory
    · rw [if_pos ht, List.filter_cons_of_pos (by simp [ht])]
      rfl
    · rw [if_neg ht, List.filter_cons_of_neg (by simpa using Ne.symm ht), List.filter_nil,
        List.map_nil, List.append_nil]
  · intro u q hq
    rcases of_piece?_of_push hpieces hq with rfl | hq
    · exact hberth
    · exact h.berth u q hq
  · intro u q c hq hc
    rcases of_piece?_of_push hpieces hq with rfl | hq
    · rcases hcarrier c hc with ⟨s, hs, htransport, howner, hplace, -⟩
      exact ⟨s, piece?_of_push_of_some hpieces hs, htransport, howner, hplace⟩
    · rcases h.carrier u q c hq hc with ⟨s, hs, hrest⟩
      exact ⟨s, piece?_of_push_of_some hpieces hs, hrest⟩
  · intro c s hs
    rw [← (h.keeps.trans hkeeps).2.kind s.kind]
    refine h.keeps.1.room_push hpieces hid hkeeps.2 ?_ ?_ c s hs
    · intro c s hs
      rw [hkind]
      exact h.room c s hs
    · intro c hc
      rcases hcarrier c hc with ⟨s, hs, -, -, -, hroom⟩
      refine ⟨s, hs, ?_⟩
      rw [hkind, hkind]
      exact hroom

/-! ## Entries -/

/-- The registers of a board are those of a scenario: players, territories and kinds have its names
for theirs and their positions for numbers. -/
structure Registered (s : Scenario) (b : Board) : Prop where
  territories : b.atlas.territories.toList.map (fun t => (t.name, t.id)) =
    (s.names .territories).zipIdx
  players : b.players.toList.map (fun p => (p.name, p.id)) = (s.names .players).zipIdx
  kinds : b.kinds.toList.map (fun k => (k.name, k.id)) = (s.names .kinds).zipIdx

/-- With the map of the scenario two territories are adjacent if they are not the same and their
names are connected. -/
theorem Registered.isAdjacent_iff (h : s.Registered b) (hnames : (s.names .territories).Nodup)
    (hatlas : s.atlas = .ok b.atlas) {t u : TerritoryId} (ht : t < b.atlas.size)
    (hu : u < b.atlas.size) : b.atlas.isAdjacent t u = true ↔ t ≠ u ∧
      (((b.territory t).name, (b.territory u).name) ∈ s.connections ∨
        ((b.territory u).name, (b.territory t).name) ∈ s.connections) := by
  have hfind : ∀ {name : String} {t : TerritoryId}, t < b.atlas.size →
      (s.find .territories name = .ok t ↔ (b.territory t).name = name) := by
    intro name t ht
    rw [find_eq_ok_iff hnames, getElem?_of_numbered h.territories ht, Option.some.injEq]
    rfl
  rw [isAdjacent_atlas_iff hatlas, and_congr_right_iff]
  intro _
  simp only [Connects, hfind ht, hfind hu]
  constructor
  · rintro ⟨⟨a, b⟩, hpair, ⟨rfl, rfl⟩ | ⟨rfl, rfl⟩⟩
    · exact .inl hpair
    · exact .inr hpair
  · rintro (hpair | hpair)
    · exact ⟨_, hpair, .inl ⟨rfl, rfl⟩⟩
    · exact ⟨_, hpair, .inr ⟨rfl, rfl⟩⟩

theorem registered_emptyBoard (h : s.emptyBoard = .ok empty) : s.Registered empty := by
  rcases emptyBoard_ok h with ⟨atlas, players, hatlas, hplayers, rfl⟩
  exact ⟨territories_atlas hatlas, map_name_players hplayers, map_name_catalogue⟩

/-- A resolved entry has the names of the entry, and numbers of the board. -/
theorem entryOf_deployment (hempty : s.emptyBoard = .ok empty) (hd : s.deployment spec = .ok d)
    {x : Piece} (hkind : x.kind = d.kind) (howner : x.owner = d.owner)
    (hplace : x.territory = d.territory) :
    empty.entryOf x = { spec with count := 1 } ∧
      d.kind < empty.kinds.size ∧ d.owner < empty.players.size := by
  have hregistered := registered_emptyBoard hempty
  unfold deployment at hd
  rcases bind_eq_ok.1 hd with ⟨k, hk, hd⟩
  rcases bind_eq_ok.1 hd with ⟨p, hp, hd⟩
  rcases bind_eq_ok.1 hd with ⟨t, ht, hd⟩
  cases hd
  -- the numbers were found by name, so they lead back to the names
  rcases exists_of_numbered hregistered.kinds (getElem?_of_find hk) with
    ⟨kind, hkindAt, hkindName, -⟩
  rcases exists_of_numbered hregistered.players (getElem?_of_find hp) with
    ⟨player, hplayerAt, hplayerName, -⟩
  rcases exists_of_numbered hregistered.territories (getElem?_of_find ht) with
    ⟨land, hlandAt, hlandName, -⟩
  refine ⟨?_, ?_, ?_⟩
  · unfold entryOf
    rw [hkind, howner, hplace]
    congr 1
    · rw [Board.kind, Array.getD_eq_getD_getElem?, hkindAt]
      exact hkindName
    · rw [Board.player, Array.getD_eq_getD_getElem?, hplayerAt]
      exact hplayerName
    · rw [Board.territory, Atlas.territory, Array.getD_eq_getD_getElem?, hlandAt]
      exact hlandName
  · rw [size_of_numbered hregistered.kinds]
    exact lt_of_find hk
  · rw [size_of_numbered hregistered.players]
    exact lt_of_find hp

section Entry

variable (hempty : s.emptyBoard = .ok empty) (hd : s.deployment spec = .ok d)
include hempty hd

theorem Opened.territory_lt (h : Opened empty listed b) : d.territory < b.atlas.size := by
  rw [h.keeps.2.size, (sound_emptyBoard hempty).2.1.size]
  exact lt_of_deployment hd

/-- A piece that stands by itself. -/
theorem Opened.addPiece (h : Opened empty listed b) (hlists : s.listsCargo empty spec = false) :
    Opened empty (listed ++ [{ spec with count := 1 }])
      (b.addPiece d.kind d.owner d.territory) := by
  have hlt := h.territory_lt hempty hd
  have hgarrison : d.territory < b.garrisons.size := by
    rw [h.keeps.1.garrisons_size]
    exact hlt
  let x : Piece :=
    { id := b.pieces.size, kind := d.kind, owner := d.owner, territory := d.territory,
      movementLeft := (b.kind d.kind).movement }
  rcases entryOf_deployment hempty hd (x := x) rfl rfl rfl with ⟨hentry, hknown⟩
  rw [← hentry]
  refine h.append (addPiece_keeps d.kind h.keeps.1 hlt) (.addPiece b d.kind d.owner d.territory) rfl
    rfl (garrison_addPiece b d.kind d.owner d.territory hgarrison) hknown ?_ ?_
  · rw [listsCargo_eq hd] at hlists
    constructor
    · intro haboard
      cases haboard
    · rintro ⟨hland, hwater⟩
      rw [hland, hwater] at hlists
      cases hlists
  · intro c hc
    cases hc

/-- A piece that comes aboard a transport. -/
theorem Opened.addCargo {carrier : PieceId} (h : Opened empty listed b)
    (hlists : s.listsCargo empty spec = true) (hcarrier : carrierFor? b d = some carrier) :
    Opened empty (listed ++ [{ spec with count := 1 }]) (addCargo b d carrier) := by
  have hlt := h.territory_lt hempty hd
  have hgarrison : d.territory < b.garrisons.size := by
    rw [h.keeps.1.garrisons_size]
    exact hlt
  have hkind : ∀ k, b.kind k = empty.kind k := h.keeps.2.kind
  rw [listsCargo_eq hd, Bool.and_eq_true] at hlists
  rcases carrierFor?_ok h.keeps.1 hcarrier with ⟨q, hq, howner, hplace, htransport, hfits⟩
  let x : Piece :=
    { id := b.pieces.size, kind := d.kind, owner := d.owner, territory := d.territory,
      movementLeft := (b.kind d.kind).movement, carrier := some carrier }
  rcases entryOf_deployment hempty hd (x := x) rfl rfl rfl with ⟨hentry, hknown⟩
  rw [← hentry]
  refine h.append (addCargo_keeps h.keeps.1 hlt ((hkind d.kind).symm ▸ hlists.1) hcarrier)
    ((Regrouped.addPiece b d.kind d.owner d.territory).trans (.modifyPiece _ _ _))
    (pieces_addCargo b d carrier) rfl
    (garrison_addPiece b d.kind d.owner d.territory hgarrison) hknown ?_ ?_
  · constructor
    · exact fun _ => hlists
    · exact fun _ => rfl
  · intro c hc
    cases hc
    -- the transport was chosen for its room
    have hsea := (PieceKind.carriesCargo_iff.1 (PieceKind.carriesCargo_of_isTransport htransport)).1
    have hroom := h.room carrier q hq
    rw [hkind] at htransport hfits
    rw [← hkind] at hroom
    refine ⟨q, hq, htransport, howner, hplace, ?_⟩
    rw [← hkind q.kind]
    exact room_of_freeCapacity h.keeps.1 hq hsea hroom hfits

theorem Opened.deploy (hlists : s.listsCargo empty spec = false) (n : Nat)
    (h : Opened empty listed b) :
    Opened empty (listed ++ List.replicate n { spec with count := 1 }) (deploy d n b) := by
  induction n generalizing listed b with
  | zero => exact (List.append_nil listed).symm ▸ h
  | succ n ih =>
    have hrest := ih (h.addPiece hempty hd hlists)
    rwa [List.append_assoc, List.singleton_append, ← List.replicate_succ] at hrest

theorem Opened.stow (hlists : s.listsCargo empty spec = true) {n : Nat}
    (h : Opened empty listed b) (hstow : stow? d n b = some b') :
    Opened empty (listed ++ List.replicate n { spec with count := 1 }) b' := by
  induction n generalizing listed b with
  | zero =>
    cases hstow
    exact (List.append_nil listed).symm ▸ h
  | succ n ih =>
    unfold stow? at hstow
    cases hcarrier : carrierFor? b d with
    | none =>
      rw [hcarrier] at hstow
      cases hstow
    | some carrier =>
      rw [hcarrier] at hstow
      have hrest := ih (h.addCargo hempty hd hlists hcarrier) hstow
      rwa [List.append_assoc, List.singleton_append, ← List.replicate_succ] at hrest

end Entry

/-- Entries are put on the board one after another: what stands by itself, and then the cargo. -/
theorem opened_board (h : s.board = .ok b) : ∃ empty, s.emptyBoard = .ok empty ∧
    Opened empty ((s.pieces.filter (fun spec => !s.listsCargo empty spec) ++
      s.pieces.filter (s.listsCargo empty)).flatMap PieceSpec.singles) b ∧
    ∀ spec ∈ s.pieces, ∃ d, s.deployment spec = .ok d := by
  rcases board_ok h with ⟨empty, placed, hempty, hplaced, hloaded⟩
  have hfirst : Opened empty
      (([] ++ s.pieces.filter fun spec => !s.listsCargo empty spec).flatMap PieceSpec.singles)
      placed := by
    refine foldlM_traces (Q := fun done => Opened empty (done.flatMap PieceSpec.singles)) ?_
      (opened_empty hempty) hplaced
    intro done spec hspec b₁ b₂ hopened hstep
    rcases place_ok hstep with ⟨d, hd, rfl⟩
    have hlists := (List.mem_filter.1 hspec).2
    rw [List.flatMap_append, List.flatMap_singleton]
    exact hopened.deploy hempty hd (by simpa using hlists) spec.count
  have hall : Opened empty (([] ++ s.pieces.filter (fun spec => !s.listsCargo empty spec) ++
      s.pieces.filter (s.listsCargo empty)).flatMap PieceSpec.singles) b := by
    refine foldlM_traces (Q := fun done => Opened empty (done.flatMap PieceSpec.singles)) ?_
      hfirst hloaded
    intro done spec hspec b₁ b₂ hopened hstep
    rcases load_ok hstep with ⟨d, hd, hstow⟩
    rw [List.flatMap_append, List.flatMap_singleton]
    exact hopened.stow hempty hd (List.mem_filter.1 hspec).2 hstow
  refine ⟨empty, hempty, hall, ?_⟩
  intro spec hspec
  -- an entry is deployed in one of the two passes
  cases hlists : s.listsCargo empty spec with
  | true =>
    rcases foldlM_each hloaded spec (List.mem_filter.2 ⟨hspec, hlists⟩) with ⟨b₁, b₂, hstep⟩
    rcases load_ok hstep with ⟨d, hd, -⟩
    exact ⟨d, hd⟩
  | false =>
    rcases foldlM_each hplaced spec (List.mem_filter.2 ⟨hspec, by rw [hlists]; rfl⟩) with
      ⟨b₁, b₂, hstep⟩
    rcases place_ok hstep with ⟨d, hd, -⟩
    exact ⟨d, hd⟩

/-! ## Names -/

/-- Where no name is given twice, a question about the entries of a name is one about its only
entry. -/
theorem any_name_eq {α : Type} {xs : List α} {name : α → String} (hnames : (xs.map name).Nodup)
    {x : α} (hx : x ∈ xs) (test : α → Bool) :
    (xs.any fun y => name y == name x && test y) = test x := by
  rw [Bool.eq_iff_iff, List.any_eq_true]
  constructor
  · rintro ⟨y, hy, hboth⟩
    rw [Bool.and_eq_true, beq_iff_eq] at hboth
    rw [← List.inj_on_of_nodup_map hnames hy hx hboth.1]
    exact hboth.2
  · intro htest
    exact ⟨x, hx, by rw [beq_self_eq_true, htest]; rfl⟩

/-- The cargo is told by names as it is by numbers. -/
theorem isSeaborne_eq (hempty : s.emptyBoard = .ok empty) (hnames : ∀ r, (s.names r).Nodup)
    (hd : s.deployment spec = .ok d) : s.isSeaborne spec = s.listsCargo empty spec := by
  rcases sound_emptyBoard hempty with ⟨-, hmap, hkinds⟩
  rcases deployment_ok hd with ⟨hk, ht⟩
  rcases kind_of_find hkinds hk with ⟨kind, hkind, hkname, hkeq⟩
  rcases isWater_of_find hmap ht with ⟨-, land, hland, hlname, hwater⟩
  rw [listsCargo_eq hd, isSeaborne, ← hkname, ← hlname,
    any_name_eq (hnames .kinds) hkind PieceKind.isLand,
    any_name_eq (hnames .territories) hland TerritorySpec.water, hwater, hkeq]
  rfl

/-! ## Numbers of pieces -/

/-- Of the single entries those count that come from an entry that counts. -/
theorem countP_flatMap_singles (counts : PieceSpec → Bool)
    (hsingle : ∀ spec, counts { spec with count := 1 } = counts spec) (specs : List PieceSpec) :
    (specs.flatMap PieceSpec.singles).countP counts =
      ((specs.filter counts).map (·.count)).sum := by
  induction specs with
  | nil => rfl
  | cons spec rest ih =>
    rw [List.flatMap_cons, List.countP_append, ih, PieceSpec.singles, List.countP_replicate,
      hsingle, List.filter_cons]
    split
    · rw [List.map_cons, List.sum_cons]
    · exact Nat.zero_add _

/-- On a board that holds some entries, there are as many pieces of a kind and an owner in a place
as the entries of their names say. -/
theorem countP_pieces {specs : List PieceSpec} (hnames : ∀ r, (s.names r).Nodup)
    (hregistered : s.Registered b)
    (hknown : ∀ u q, b.piece? u = some q →
      q.kind < b.kinds.size ∧ q.owner < b.players.size ∧ q.territory < b.atlas.size)
    (hentries : b.pieces.toList.map b.entryOf = specs.flatMap PieceSpec.singles)
    {k : KindId} (hk : k < b.kinds.size) {p : PlayerId} (hp : p < b.players.size)
    {t : TerritoryId} (ht : t < b.atlas.size) :
    b.pieces.toList.countP (fun q => q.kind == k && q.owner == p && q.territory == t) =
      ((specs.filter fun spec => spec.kind == (b.kind k).name &&
        spec.owner == (b.player p).name &&
          spec.place == (b.territory t).name).map (·.count)).sum := by
  rw [← countP_flatMap_singles _ fun _ => rfl, ← hentries, List.countP_map]
  apply List.countP_congr
  intro q hq
  rcases List.mem_iff_getElem?.1 hq with ⟨u, hu⟩
  rw [Array.getElem?_toList] at hu
  rcases hknown u q hu with ⟨hkind, howner, hplace⟩
  rw [beq_eq_beq_name hregistered.kinds (hnames .kinds) hkind hk,
    beq_eq_beq_name hregistered.players (hnames .players) howner hp,
    beq_eq_beq_name hregistered.territories (hnames .territories) hplace ht]
  rfl

/-- What the board of a scenario is. Its registers are those of the scenario, which have no name
twice; two territories are adjacent just if they are not the same and a connection names them both.
The pieces are numbered as the scenario lists them, with the cargo last, and stand where they are
listed in the order of their numbers. Aboard is what is listed as a land piece in a sea zone: aboard
a transport of its owner there, which carries no more than it has room for. -/
structure SetsUp (s : Scenario) (b : Board) : Prop extends Registered s b where
  nodup_names : ∀ r, (s.names r).Nodup
  adjacent : ∀ t < b.atlas.size, ∀ u < b.atlas.size, b.atlas.isAdjacent t u = true ↔ t ≠ u ∧
    (((b.territory t).name, (b.territory u).name) ∈ s.connections ∨
      ((b.territory u).name, (b.territory t).name) ∈ s.connections)
  number : ∀ k < b.kinds.size, ∀ p < b.players.size, ∀ t < b.atlas.size,
    b.pieces.toList.countP (fun q => q.kind == k && q.owner == p && q.territory == t) =
      ((s.pieces.filter fun spec => spec.kind == (b.kind k).name &&
        spec.owner == (b.player p).name && spec.place == (b.territory t).name).map (·.count)).sum
  ids : b.pieces.toList.map (·.id) = List.range b.pieces.size
  entries : b.pieces.toList.map b.entryOf =
    (s.pieces.filter (fun spec => !s.isSeaborne spec) ++ s.pieces.filter s.isSeaborne).flatMap
      PieceSpec.singles
  known : ∀ u q, b.piece? u = some q →
    q.kind < b.kinds.size ∧ q.owner < b.players.size ∧ q.territory < b.atlas.size
  garrison : ∀ t, b.garrison t = (b.pieces.toList.filter (·.territory == t)).map (·.id)
  aboard : ∀ u q, b.piece? u = some q → (q.carrier.isSome = true ↔
    (b.kind q.kind).isLand = true ∧ b.atlas.isWater q.territory = true)
  carrier : ∀ u q c, b.piece? u = some q → q.carrier = some c → ∃ ship, b.piece? c = some ship ∧
    (b.kind ship.kind).isTransport = true ∧ ship.owner = q.owner ∧ ship.territory = q.territory
  room : ∀ c ship, b.piece? c = some ship →
    cargoCost b (b.aboard c) ≤ (b.kind ship.kind).transportCapacity

/-- The board that comes of the entries of a scenario is the board of the scenario. -/
theorem setsUp_of_board (hnames : ∀ r, (s.names r).Nodup) (h : s.board = .ok b) : s.SetsUp b := by
  rcases opened_board h with ⟨empty, hempty, hopened, hresolved⟩
  have hatlas : s.atlas = .ok empty.atlas := by
    rcases emptyBoard_ok hempty with ⟨atlas, players, hatlas, -, rfl⟩
    exact hatlas
  -- the board has the registers and the map of the empty one
  have hregistered : s.Registered b := by
    have hempty := registered_emptyBoard hempty
    rcases hopened.regrouped with ⟨pieces, garrisons, rfl⟩
    exact ⟨hempty.territories, hempty.players, hempty.kinds⟩
  have hsame : ∀ q, b.entryOf q = empty.entryOf q := by
    intro q
    rcases hopened.regrouped with ⟨pieces, garrisons, rfl⟩
    rfl
  have hentries : b.pieces.toList.map b.entryOf =
      (s.pieces.filter (fun spec => !s.isSeaborne spec) ++ s.pieces.filter s.isSeaborne).flatMap
        PieceSpec.singles := by
    have hseaborne : ∀ spec ∈ s.pieces, s.isSeaborne spec = s.listsCargo empty spec := by
      intro spec hspec
      rcases hresolved spec hspec with ⟨d, hd⟩
      exact isSeaborne_eq hempty hnames hd
    rw [List.filter_congr hseaborne, List.filter_congr fun spec hspec =>
      congrArg (!·) (hseaborne spec hspec), List.map_congr_left fun q _ => hsame q]
    exact hopened.entries
  have hknown : ∀ u q, b.piece? u = some q →
      q.kind < b.kinds.size ∧ q.owner < b.players.size ∧ q.territory < b.atlas.size := by
    intro u q hq
    rcases hopened.known u q hq with ⟨hkind, howner⟩
    rw [← hopened.keeps.2.kinds] at hkind
    rw [← hopened.keeps.2.players] at howner
    exact ⟨hkind, howner, hopened.keeps.1.territory_lt u q hq⟩
  rcases hopened.regrouped with ⟨pieces, garrisons, rfl⟩
  constructor
  · exact hregistered
  · exact hnames
  · exact fun t ht u hu => hregistered.isAdjacent_iff (hnames .territories) hatlas ht hu
  · intro k hk p hp t ht
    rw [countP_pieces hnames hregistered hknown hentries hk hp ht]
    -- the order of the entries does not matter to their number
    apply List.Perm.sum_nat
    apply List.Perm.map
    apply List.Perm.filter
    exact List.perm_append_comm.trans (List.filter_append_perm s.isSeaborne s.pieces)
  · exact hopened.keeps.1.map_id_pieces
  · exact hentries
  · exact hknown
  · exact hopened.garrison
  · exact hopened.berth
  · exact hopened.carrier
  · exact hopened.room

/-- Every scenario that is accepted sets up the board that it describes. -/
theorem setUp_setsUp (s : Scenario) (h : Table) (hset : s.setUp = .ok h) : s.SetsUp h.board :=
  setsUp_of_board (nodup_names hset) (setUp_board hset).1

/-- Three infantry are listed at sea before the two transports that they go aboard. -/
def troopships : Scenario where
  players := [{ name := "Red" }]
  territories := [{ name := "Home", owner := some "Red" }, { name := "Bay", water := true }]
  connections := [("Bay", "Home"), ("Bay", "Bay")]
  kinds := [
    { name := "infantry", cost := 3, transportCost := 2 },
    { name := "transport", domain := .sea, movement := 2, cost := 7, transportCapacity := 5 }]
  pieces := [
    { kind := "infantry", owner := "Red", place := "Bay", count := 3 },
    { kind := "transport", owner := "Red", place := "Bay", count := 2 },
    { kind := "infantry", owner := "Red", place := "Home" }]

set_option maxRecDepth 100000 in
/-- Two of the infantry go aboard the first transport, and the third goes aboard the other one. -/
theorem setUp_setsUp_troopships : ∃ h, troopships.setUp = .ok h ∧ troopships.SetsUp h.board ∧
    h.board.garrison 0 = [2] ∧ h.board.garrison 1 = [0, 1, 3, 4, 5] ∧
    h.board.aboard 0 = [3, 4] ∧ h.board.aboard 1 = [5] := by
  have hpass : (troopships.setUp.toOption.any fun h =>
      decide (h.board.garrison 0 = [2] ∧ h.board.garrison 1 = [0, 1, 3, 4, 5] ∧
        h.board.aboard 0 = [3, 4] ∧ h.board.aboard 1 = [5])) = true := by
    decide +kernel
  obtain ⟨h, hset, hfacts⟩ := exists_setUp hpass
  exact ⟨h, hset, setUp_setsUp troopships h hset, of_decide_eq_true hfacts⟩

end Scenario

end Conquest
