import Conquest.Proofs.Play
import Conquest.Proofs.Yards

/-!
# Which placements are taken

The plan counts room for each factory by itself, while the table charges a whole placement at sea to
the roomiest factory next to the zone. The two counts agree as long as no more than one factory with
room lies next to each zone of the plan, and then every placement is taken. Otherwise the ships of
two factories may come in one placement that neither of them has room for.

* `Table.docks`, `Table.HasOneDock`: the factories that ships in a zone may be charged to.
* `Table.Supplied`: what placements leave as it is.
* `Table.pending_placeAll`, `Table.room_placeAll`: what a list of placements takes.
* `Scenario.placements_taken`: which placements of a plan are taken, in every game.
-/

namespace Conquest

namespace Table

variable {h h' h'' : Table} {p : PlayerId} {x : Placement} {f g t z : TerritoryId}

/-! ## Docks -/

/-- The factories that new ships in a sea zone may be charged to. -/
def docks (h : Table) (p : PlayerId) (z : TerritoryId) : List TerritoryId :=
  (h.board.atlas.neighbors z).filter fun f =>
    (h.board.territory f).owner == some p && (h.board.territory f).hasFactory
      && !h.board.isConquered f

/-- No more than one factory with room is next to a sea zone. -/
def HasOneDock (h : Table) (p : PlayerId) (z : TerritoryId) : Prop :=
  ∀ f ∈ h.docks p z, ∀ g ∈ h.docks p z, 0 < h.factoryRoom f → 0 < h.factoryRoom g → f = g

instance : Decidable (h.HasOneDock p z) := by
  unfold HasOneDock
  infer_instance

/-- The docks of a zone are the player's unconquered factories at it. -/
theorem mem_docks : f ∈ h.docks p z ↔ h.board.atlas.isAdjacent z f = true ∧
    (h.board.territory f).owner = some p ∧ (h.board.territory f).hasFactory = true ∧
    h.board.isConquered f = false := by
  unfold docks
  rw [List.mem_filter, Atlas.mem_neighbors]
  simp [and_assoc]

theorem mem_docks_of_seaFactory? (hsea : h.seaFactory? p z = some f) : f ∈ h.docks p z :=
  mem_of_lastGreatest? hsea

/-- The factory that is charged is the roomiest. -/
theorem room_le_of_seaFactory? (hsea : h.seaFactory? p z = some f) :
    ∀ g ∈ h.docks p z, h.factoryRoom g ≤ h.factoryRoom f := by
  refine lastGreatest?_le ?_ ?_ hsea
  · intro a b hge
    by_contra hlt
    have hcmp : compare (h.factoryRoom a) (h.factoryRoom b) = .lt :=
      Nat.compare_eq_lt.2 (Nat.lt_of_not_le hlt)
    rw [hcmp] at hge
    cases hge
  · intro a b hlt
    by_contra hgt
    have hcmp : compare (h.factoryRoom a) (h.factoryRoom b) = .gt :=
      Nat.compare_eq_gt.2 (Nat.lt_of_not_le hgt)
    rw [hcmp] at hlt
    cases hlt

theorem exists_seaFactory? (hf : f ∈ h.docks p z) : ∃ g, h.seaFactory? p z = some g :=
  exists_lastGreatest? hf

/-- The one dock with room is charged. -/
theorem HasOneDock.seaFactory? (hone : h.HasOneDock p z) (hf : f ∈ h.docks p z)
    (hroom : 0 < h.factoryRoom f) : h.seaFactory? p z = some f := by
  obtain ⟨g, hg⟩ := exists_seaFactory? hf
  have hle := room_le_of_seaFactory? hg f hf
  have hsame := hone g (mem_docks_of_seaFactory? hg) f hf (by omega) hroom
  rw [hg, hsame]

theorem chargedFactory?_of_isWater (hwater : h.board.atlas.isWater t = true) :
    h.chargedFactory? p t = h.seaFactory? p t := by
  unfold chargedFactory?
  rw [if_pos hwater]

/-- A placement on land is charged to the factory there. -/
theorem chargedFactory?_of_isYard (hyard : h.board.IsYard p f) :
    h.chargedFactory? p f = some f := by
  unfold chargedFactory?
  rw [if_neg (by rw [hyard.dry]; exact Bool.false_ne_true)]
  simp [hyard.owner, hyard.factory, hyard.held]

/-- A yard that new pieces for a territory may come from: the territory itself, or a dock of it. -/
def Serves (h : Table) (p : PlayerId) (f t : TerritoryId) : Prop :=
  h.board.IsYard p f ∧ (f = t ∨ h.board.atlas.isWater t = true ∧ f ∈ h.docks p t)

/-- Where a factory serves a place, some factory is charged for it. -/
theorem exists_chargedFactory? (hserves : h.Serves p f t) :
    ∃ g, h.chargedFactory? p t = some g := by
  obtain ⟨hyard, rfl | ⟨hwater, hdock⟩⟩ := hserves
  · exact ⟨f, chargedFactory?_of_isYard hyard⟩
  · rw [chargedFactory?_of_isWater hwater]
    exact exists_seaFactory? hdock

/-- A yard with room is charged if there is no other. -/
theorem chargedFactory?_of_serves (hserves : h.Serves p f t)
    (hone : h.board.atlas.isWater t = true → h.HasOneDock p t) (hroom : 0 < h.factoryRoom f) :
    h.chargedFactory? p t = some f := by
  obtain ⟨hyard, rfl | ⟨hwater, hdock⟩⟩ := hserves
  · exact chargedFactory?_of_isYard hyard
  · rw [chargedFactory?_of_isWater hwater]
    exact (hone hwater).seaFactory? hdock hroom

/-- On dry land no more can be placed than the factory there has room for. -/
theorem placementCapacity_le_factoryRoom (hdry : h.board.atlas.isWater f = false) :
    h.placementCapacity f ≤ h.factoryRoom f := by
  unfold placementCapacity
  rw [if_neg (by rw [hdry]; exact Bool.false_ne_true)]
  split
  · exact Nat.zero_le _
  · exact Nat.le_refl _

/-! ## What placements change -/

/-- A table and the table after placements: the map, the kinds and the marks of captured land are
the same, and no factory has more room. -/
structure Supplied (h h' : Table) : Prop where
  atlas : h'.board.atlas = h.board.atlas
  kinds : h'.board.kinds = h.board.kinds
  conquered : h'.board.conquered = h.board.conquered
  room_le : ∀ f, h'.factoryRoom f ≤ h.factoryRoom f

namespace Supplied

theorem refl (h : Table) : h.Supplied h := ⟨rfl, rfl, rfl, fun _ => Nat.le_refl _⟩

theorem trans (hs : h.Supplied h') (hs' : h'.Supplied h'') : h.Supplied h'' := by
  refine ⟨hs'.atlas.trans hs.atlas, hs'.kinds.trans hs.kinds, hs'.conquered.trans hs.conquered, ?_⟩
  intro f
  exact Nat.le_trans (hs'.room_le f) (hs.room_le f)

theorem docks (hs : h.Supplied h') (p : PlayerId) (z : TerritoryId) :
    h'.docks p z = h.docks p z := by
  unfold Table.docks Board.territory Board.isConquered
  rw [hs.atlas, hs.conquered]

theorem isYard (hs : h.Supplied h') (hyard : h.board.IsYard p f) : h'.board.IsYard p f := by
  obtain ⟨howner, hfactory, hheld, hdry⟩ := hyard
  constructor
  · rw [Board.territory, hs.atlas]
    exact howner
  · rw [Board.territory, hs.atlas]
    exact hfactory
  · rw [Board.isConquered, hs.conquered]
    exact hheld
  · rw [hs.atlas]
    exact hdry

/-- A zone with one dock keeps one. -/
theorem hasOneDock (hs : h.Supplied h') (hone : h.HasOneDock p z) : h'.HasOneDock p z := by
  intro f hf g hg hfroom hgroom
  rw [hs.docks] at hf hg
  exact hone f hf g hg (Nat.lt_of_lt_of_le hfroom (hs.room_le f))
    (Nat.lt_of_lt_of_le hgroom (hs.room_le g))

theorem serves (hs : h.Supplied h') (hserves : h.Serves p f t) : h'.Serves p f t := by
  obtain ⟨hyard, rfl | ⟨hwater, hdock⟩⟩ := hserves
  · exact ⟨hs.isYard hyard, .inl rfl⟩
  · refine ⟨hs.isYard hyard, .inr ⟨?_, ?_⟩⟩
    · rw [hs.atlas]
      exact hwater
    · rw [hs.docks]
      exact hdock

/-- What is charged after placements for a territory with one yard was charged before them. -/
theorem chargedFactory? (hs : h.Supplied h') (hserves : h.Serves p g t)
    (hone : h.board.atlas.isWater t = true → h.HasOneDock p t)
    (hcharged : h'.chargedFactory? p t = some f) (hroom : 0 < h'.factoryRoom f) :
    h.chargedFactory? p t = some f := by
  obtain ⟨hyard, rfl | ⟨hwater, hdock⟩⟩ := hserves
  · rw [chargedFactory?_of_isYard (hs.isYard hyard)] at hcharged
    rw [chargedFactory?_of_isYard hyard, hcharged]
  · rw [chargedFactory?_of_isWater (by rw [hs.atlas]; exact hwater)] at hcharged
    have hf := mem_docks_of_seaFactory? hcharged
    rw [hs.docks] at hf
    rw [chargedFactory?_of_isWater hwater]
    exact (hone hwater).seaFactory? hf (Nat.lt_of_lt_of_le hroom (hs.room_le f))

end Supplied

theorem foldl_addPiece_ground (kinds : List KindId) (b : Board) :
    (kinds.foldl (fun b k => b.addPiece k p t) b).atlas = b.atlas ∧
      (kinds.foldl (fun b k => b.addPiece k p t) b).kinds = b.kinds ∧
      (kinds.foldl (fun b k => b.addPiece k p t) b).conquered = b.conquered := by
  induction kinds generalizing b with
  | nil => exact ⟨rfl, rfl, rfl⟩
  | cons k rest ih => exact ih (b.addPiece k p t)

/-- New pieces are charged to their factory. -/
theorem placed_receive (h : Table) (p : PlayerId) (x : Placement) (f g : TerritoryId) :
    (h.receive p x f).placed.getD g 0 =
      h.placed.getD g 0 + if f = g ∧ f < h.placed.size then x.kinds.length else 0 := by
  simp only [receive, Array.getD_eq_getD_getElem?, Array.getElem?_modify]
  by_cases hfg : f = g
  · subst hfg
    by_cases hf : f < h.placed.size
    · simp [hf]
    · simp [hf]
  · simp [hfg]

theorem factoryOutput_receive (h : Table) (p : PlayerId) (x : Placement) (f g : TerritoryId) :
    (h.receive p x f).board.factoryOutput g = h.board.factoryOutput g := by
  unfold Board.factoryOutput Board.territory
  rw [receive, (foldl_addPiece_ground x.kinds h.board).1]

/-- Only the factory that is charged loses room, and no more than there are new pieces. -/
theorem factoryRoom_receive (h : Table) (p : PlayerId) (x : Placement) (f g : TerritoryId) :
    (h.receive p x f).factoryRoom g ≤ h.factoryRoom g ∧
      h.factoryRoom g ≤ (h.receive p x f).factoryRoom g + if f = g then x.kinds.length else 0 := by
  unfold factoryRoom
  rw [factoryOutput_receive, placed_receive]
  by_cases hfg : f = g
  · simp only [hfg, true_and, if_true]
    split
    · omega
    · omega
  · simp [hfg]

/-- Pieces that arrive leave the ground and the factories as they are. -/
theorem supplied_receive (h : Table) (p : PlayerId) (x : Placement) (f : TerritoryId) :
    h.Supplied (h.receive p x f) := by
  obtain ⟨hatlas, hkinds, hconquered⟩ :=
    foldl_addPiece_ground (p := p) (t := x.territory) x.kinds h.board
  exact ⟨hatlas, hkinds, hconquered, fun g => (factoryRoom_receive h p x f g).1⟩

/-- A placement uses up what it places of a purchase. -/
theorem count_pendingOf_receive (h : Table) (p q : PlayerId) (x : Placement) (f : TerritoryId)
    (k : KindId) : ((h.receive p x f).pendingOf q).count k =
      (h.pendingOf q).count k - if p = q then x.kinds.count k else 0 := by
  simp only [receive, pendingOf, Array.getD_eq_getD_getElem?, Array.getElem?_modify]
  by_cases hpq : p = q
  · cases hget : h.pending[q]? with
    | none => simp [hpq]
    | some c => simp [hpq, Tally.count_foldl_spend]
  · simp [hpq]

/-- What has been bought waits, as far as a word can count it. -/
theorem count_pendingOf_pay (h : Table) (p q : PlayerId) (bought : Tally) (k : KindId) :
    ((h.pay p bought).pendingOf q).count k =
      if (p = q ∧ p < h.pending.size) ∧ 0 < bought.count k then
        wrap ((h.pendingOf q).count k + bought.count k)
      else (h.pendingOf q).count k := by
  simp only [pay, pendingOf, Array.getD_eq_getD_getElem?, Array.getElem?_modify]
  by_cases hpq : p = q
  · subst hpq
    by_cases hp : p < h.pending.size
    · simp [hp, Tally.count_foldl_nonzero]
    · simp [hp]
  · simp [hpq]

/-- A placement is refused, or its pieces come. -/
theorem obey_placement (h : Table) (p : PlayerId) (x : Placement) :
    h.obey (.placement p x) = h ∨ ∃ f, h.chargedFactory? p x.territory = some f ∧
      x.kinds.length ≤ h.factoryRoom f ∧ h.obey (.placement p x) = h.receive p x f := by
  unfold obey
  cases htaken : h.answer (.placement p x) with
  | error e => exact .inl rfl
  | ok h' =>
    obtain ⟨-, f, hcharged, hroom, rfl⟩ := submitPlacement_ok_iff.1 htaken
    exact .inr ⟨f, hcharged, hroom, rfl⟩

/-- A placement, taken or refused, leaves the ground and the factories as they are. -/
theorem supplied_obey (h : Table) (p : PlayerId) (x : Placement) :
    h.Supplied (h.obey (.placement p x)) := by
  rcases obey_placement h p x with heq | ⟨f, -, -, heq⟩
  · rw [heq]
    exact .refl h
  · rw [heq]
    exact supplied_receive h p x f

/-! ## Lists of placements -/

/-- The table after placements, each of them taken or refused. -/
def placeAll (h : Table) (p : PlayerId) (xs : List Placement) : Table :=
  h.play (xs.map (.placement p))

theorem placeAll_cons (h : Table) (p : PlayerId) (x : Placement) (rest : List Placement) :
    h.placeAll p (x :: rest) = (h.obey (.placement p x)).placeAll p rest := rfl

theorem supplied_placeAll (h : Table) (p : PlayerId) (xs : List Placement) :
    h.Supplied (h.placeAll p xs) := by
  induction xs generalizing h with
  | nil => exact .refl h
  | cons x rest ih => exact (supplied_obey h p x).trans (ih _)

/-- Placements use up no more of a purchase than they name. -/
theorem pending_placeAll (h : Table) (p : PlayerId) (xs : List Placement) (k : KindId) :
    (h.pendingOf p).count k ≤ ((h.placeAll p xs).pendingOf p).count k +
      (xs.map fun x => x.kinds.count k).sum := by
  induction xs generalizing h with
  | nil => exact Nat.le_refl _
  | cons x rest ih =>
    have hrest := ih (h.obey (.placement p x))
    have hfirst : (h.pendingOf p).count k ≤
        ((h.obey (.placement p x)).pendingOf p).count k + x.kinds.count k := by
      rcases obey_placement h p x with heq | ⟨f, -, -, heq⟩
      · rw [heq]
        omega
      · rw [heq, count_pendingOf_receive, if_pos rfl]
        omega
    rw [placeAll_cons, List.map_cons, List.sum_cons]
    omega

/-- Placements use up no more room at a factory than they name pieces, if it is known of every place
which factory is charged for it. -/
theorem room_placeAll {source : TerritoryId → TerritoryId} (h : Table) (p : PlayerId)
    (xs : List Placement) (hsource : ∀ x ∈ xs, ∀ h', h.Supplied h' → ∀ f,
      h'.chargedFactory? p x.territory = some f → 0 < h'.factoryRoom f → source x.territory = f)
    (g : TerritoryId) :
    h.factoryRoom g ≤ (h.placeAll p xs).factoryRoom g +
      (xs.map fun x => if source x.territory = g then x.kinds.length else 0).sum := by
  induction xs generalizing h with
  | nil => exact Nat.le_refl _
  | cons x rest ih =>
    have hothers : ∀ y ∈ rest, ∀ h', (h.obey (.placement p x)).Supplied h' → ∀ f,
        h'.chargedFactory? p y.territory = some f → 0 < h'.factoryRoom f →
        source y.territory = f := by
      intro y hy h' hs
      exact hsource y (List.mem_cons_of_mem _ hy) h' ((supplied_obey h p x).trans hs)
    have hrest := ih (h.obey (.placement p x)) hothers
    have hfirst : h.factoryRoom g ≤ (h.obey (.placement p x)).factoryRoom g +
        if source x.territory = g then x.kinds.length else 0 := by
      rcases obey_placement h p x with heq | ⟨f, hcharged, hroom, heq⟩
      · rw [heq]
        omega
      · rw [heq]
        have hreceive := (factoryRoom_receive h p x f g).2
        -- a placement without pieces may be charged to a full factory, but takes no room
        by_cases hnone : x.kinds.length = 0
        · rw [hnone, ite_self] at hreceive ⊢
          exact hreceive
        · have hf := hsource x List.mem_cons_self h (.refl h) f hcharged (by omega)
          rw [hf]
          exact hreceive
    rw [placeAll_cons, List.map_cons, List.sum_cons]
    omega

/-! ## What waits to be placed -/

/-- All kinds that wait to be placed are in the catalogue. -/
def KnowsPending (h : Table) : Prop :=
  ∀ p k, 0 < (h.pendingOf p).count k → k < h.board.kinds.size

theorem knowsPending_ofBoard (b : Board) : (ofBoard b).KnowsPending := by
  intro p k hpos
  have hnone : (ofBoard b).pendingOf p = .empty := by
    simp only [pendingOf, ofBoard, Array.getD_eq_getD_getElem?, Array.getElem?_replicate]
    split
    · rfl
    · rfl
  rw [hnone] at hpos
  cases hpos

/-- What is bought is of known kinds. -/
theorem KnowsPending.pay (hk : h.KnowsPending) {bought : Tally}
    (hkinds : ∀ e ∈ bought.entries, e.1 < h.board.kinds.size) : (h.pay p bought).KnowsPending := by
  intro q k hpos
  show k < h.board.kinds.size
  rw [count_pendingOf_pay] at hpos
  by_cases hbefore : 0 < (h.pendingOf q).count k
  · exact hk q k hbefore
  · -- it is a piece of the purchase
    have hbought : 0 < bought.count k := by
      split at hpos
      · rename_i hboth
        exact hboth.2
      · exact absurd hpos hbefore
    exact hkinds _ (Tally.mem_of_count_pos hbought)

theorem KnowsPending.obey (hb : h.board.Sound) (hk : h.KnowsPending) (c : Command) :
    (h.obey c).KnowsPending := by
  have hkinds := (obey_keeps hb c).2.kinds
  unfold Table.obey at hkinds ⊢
  cases hc : h.answer c with
  | error e => exact hk
  | ok h' =>
    -- only purchases add to what waits
    have hsame : h'.board.kinds = h.board.kinds := by
      rw [hc] at hkinds
      exact hkinds
    intro q k hpos
    cases c with
    | move p o =>
      obtain ⟨-, -, -, rfl⟩ := submitMove_ok_iff.1 hc
      rw [hsame]
      exact hk q k hpos
    | purchase p bought =>
      obtain ⟨hknown, -, rfl⟩ := submitPurchase_ok_iff.1 hc
      exact hk.pay hknown q k hpos
    | placement p x =>
      obtain ⟨-, f, -, -, rfl⟩ := submitPlacement_ok_iff.1 hc
      rw [hsame]
      rw [count_pendingOf_receive] at hpos
      exact hk q k (by omega)
    | beginEpoch p e =>
      cases hc
      exact hk q k hpos
    | endTurn p =>
      cases hc
      exact hk q k hpos

/-- Under any commands, what waits stays of known kinds. -/
theorem KnowsPending.play (hb : h.board.Sound) (hk : h.KnowsPending) (commands : List Command) :
    (h.play commands).KnowsPending := by
  unfold Table.play
  induction commands generalizing h with
  | nil => exact hk
  | cons c rest ih => exact ih (obey_keeps hb c).1 (hk.obey hb c)

/-! ## The placements of a plan -/

section Plan

variable {c : Context} {bought : Tally} {before rest : List Placement}

/-- The placements that are planned for a purchase at a table. -/
def placements (h : Table) (c : Context) (bought : Tally) : List Placement :=
  planPlacements h.board h.placementCapacity (c.refresh h.board) bought

/-- The harbour of a yard is a zone that the yard is a dock of. -/
theorem mem_docks_of_harbor? (hb : h.board.Sound) (hyard : h.board.IsYard p f)
    (hharbor : c.harbor? h.board f = some z) : f ∈ h.docks p z := by
  have hshore := (List.mem_filter.1 (Context.harbor?_mem hharbor)).1
  have hadjacent := hb.atlas.adjacent_symm _ _ (Atlas.mem_neighbors.1 hshore)
  exact mem_docks.2 ⟨hadjacent, hyard.owner, hyard.factory, hyard.held⟩

/-- Every placement has a yard with room. -/
theorem exists_serves (hb : h.board.Sound) (hx : x ∈ h.placements c bought) :
    ∃ f, h.Serves c.player f x.territory ∧ 0 < h.factoryRoom f := by
  obtain ⟨hsite, -⟩ := mem_planPlacements _ _ _ _ hx
  obtain ⟨e, he, heq⟩ := List.mem_map.1 hsite
  rw [← heq]
  rcases List.mem_append.1 he with he | he
  · obtain ⟨⟨hyard, hcapacity⟩, -⟩ := hb.of_mem_ashore he
    have hle := placementCapacity_le_factoryRoom (h := h) hyard.dry
    exact ⟨e.1, ⟨hyard, .inl rfl⟩, Nat.lt_of_lt_of_le hcapacity hle⟩
  · obtain ⟨⟨f, hyard, hcapacity, hharbor⟩, hwater, -⟩ := hb.of_mem_afloat he
    have hle := placementCapacity_le_factoryRoom (h := h) hyard.dry
    exact ⟨f, ⟨hyard, .inr ⟨hwater, mem_docks_of_harbor? hb hyard hharbor⟩⟩,
      Nat.lt_of_lt_of_le hcapacity hle⟩

/-- The pieces of a placement are wanted rightly when its turn comes. -/
theorem checkWanted_placements (hb : h.board.Sound) (hknown : h.KnowsPending)
    (hpending : ∀ k, bought.count k ≤ (h.pendingOf c.player).count k)
    (hplan : h.placements c bought = before ++ x :: rest) :
    ∀ e ∈ (Tally.ofKinds x.kinds).entries,
      (h.placeAll c.player before).checkWanted c.player x.territory e = .ok () := by
  intro e he
  have hs := supplied_placeAll h c.player before
  have hk := Tally.mem_of_mem_entries_ofKinds he
  have hcount : e.2 = x.kinds.count e.1 := by
    rw [← Tally.count_of_mem he, Tally.count_ofKinds]
  have hone : 0 < x.kinds.count e.1 := List.count_pos_iff.2 hk
  -- this placement and those before it are a part of what was bought
  have hsum := sum_count_le h.board h.placementCapacity (c.refresh h.board) bought e.1
  have hleft := pending_placeAll h c.player before e.1
  have hbought := hpending e.1
  rw [← placements, hplan, List.map_append, List.sum_append_nat, List.map_cons,
    List.sum_cons] at hsum
  have hmem : x ∈ h.placements c bought := by
    rw [hplan]
    exact List.mem_append_right _ List.mem_cons_self
  obtain ⟨-, hkinds⟩ := mem_planPlacements _ _ _ _ hmem
  rw [hkinds] at hk
  obtain ⟨site, hsite, hkind⟩ := List.mem_map.1 hk
  obtain ⟨hsite, hplace⟩ := List.mem_filter.1 hsite
  have hsea := hb.isSea_of_mem_sites hsite
  rw [hkind, beq_iff_eq.1 hplace] at hsea
  refine checkWanted_ok_iff.2 ⟨by omega, ?_, ?_⟩
  · rw [hs.kinds]
    exact hknown c.player e.1 (by omega)
  · rw [Board.kind, hs.kinds, hs.atlas]
    exact hsea

/-- A placement fits at its yard when its turn comes, if no zone of the plan has a second one. -/
theorem length_le_factoryRoom (hb : h.board.Sound)
    (hone : ∀ y ∈ h.placements c bought, h.board.atlas.isWater y.territory = true →
      h.HasOneDock c.player y.territory)
    (hplan : h.placements c bought = before ++ x :: rest)
    (hserves : h.Serves c.player f x.territory) (hroom : 0 < h.factoryRoom f) :
    x.kinds.length ≤ (h.placeAll c.player before).factoryRoom f := by
  -- the plan's yard of a place is the factory that the table charges for it
  let source t := (h.chargedFactory? c.player t).getD t
  have hof : ∀ t g, h.chargedFactory? c.player t = some g → source t = g := by
    intro t g hcharged
    show (h.chargedFactory? c.player t).getD t = g
    rw [hcharged, Option.getD_some]
  have hashore : ∀ g, h.board.IsYard c.player g → source g = g :=
    fun g hyard => hof g g (chargedFactory?_of_isYard hyard)
  have hafloat : ∀ e ∈ sites h.board h.placementCapacity (c.refresh h.board) bought, ∀ g,
      h.board.IsYard c.player g → 0 < h.placementCapacity g →
      h.board.atlas.isWater e.1 = true → (c.refresh h.board).harbor? h.board g = some e.1 →
      source e.1 = g := by
    intro e he g hyard hcapacity hwater hharbor
    obtain ⟨y, hy, heq⟩ := exists_mem_planPlacements _ _ _ _ he
    have hdock := mem_docks_of_harbor? hb hyard hharbor
    have hle := placementCapacity_le_factoryRoom (h := h) hyard.dry
    refine hof e.1 g (chargedFactory?_of_serves ⟨hyard, .inr ⟨hwater, hdock⟩⟩ ?_ (by omega))
    rw [← heq]
    exact hone y hy
  have hsource : ∀ y ∈ before, ∀ h', h.Supplied h' → ∀ g,
      h'.chargedFactory? c.player y.territory = some g → 0 < h'.factoryRoom g →
      source y.territory = g := by
    intro y hy h' hs g hcharged hleft
    have hmem : y ∈ h.placements c bought := by
      rw [hplan]
      exact List.mem_append_left _ hy
    obtain ⟨g', hserves, -⟩ := exists_serves hb hmem
    exact hof y.territory g (hs.chargedFactory? hserves (hone y hmem) hcharged hleft)
  have hmem : x ∈ h.placements c bought := by
    rw [hplan]
    exact List.mem_append_right _ List.mem_cons_self
  have hown : source x.territory = f :=
    hof _ _ (chargedFactory?_of_serves hserves (hone x hmem) hroom)
  obtain ⟨hyard, -⟩ := hserves
  have hfit := hb.sum_length_le hashore hafloat f
  have hcapacity := placementCapacity_le_factoryRoom (h := h) hyard.dry
  have hleft := room_placeAll h c.player before hsource f
  rw [← placements, hplan, List.map_append, List.sum_append_nat, List.map_cons, List.sum_cons,
    if_pos hown] at hfit
  omega

/-- When its turn comes, a placement of a plan is taken or finds no room, and it is taken if no zone
of the plan has two docks. -/
theorem submitPlacement_placements (hb : h.board.Sound) (hknown : h.KnowsPending)
    (hpending : ∀ k, bought.count k ≤ (h.pendingOf c.player).count k)
    (hplan : h.placements c bought = before ++ x :: rest) :
    (∀ e, (h.placeAll c.player before).submitPlacement c.player x = .error e →
      ∃ room < x.kinds.length, e = .capacityExceeded x.territory room) ∧
    ((∀ y ∈ h.placements c bought, h.board.atlas.isWater y.territory = true →
        h.HasOneDock c.player y.territory) →
      ∃ h', (h.placeAll c.player before).submitPlacement c.player x = .ok h') := by
  have hs := supplied_placeAll h c.player before
  have hmem : x ∈ h.placements c bought := by
    rw [hplan]
    exact List.mem_append_right _ List.mem_cons_self
  obtain ⟨f, hserves, hroom⟩ := exists_serves hb hmem
  obtain ⟨g, hcharged⟩ := exists_chargedFactory? (hs.serves hserves)
  rw [submitPlacement_eq (checkWanted_placements hb hknown hpending hplan) hcharged]
  constructor
  · intro e he
    split at he
    · rename_i hfull
      cases he
      exact ⟨_, hfull, rfl⟩
    · cases he
  · intro hone
    have hfits := length_le_factoryRoom hb hone hplan hserves hroom
    by_cases hnone : x.kinds.length = 0
    · rw [if_neg (by omega)]
      exact ⟨_, rfl⟩
    · -- the yard still has room, so it is the factory that is charged
      have hwater : (h.placeAll c.player before).board.atlas.isWater x.territory =
          true → (h.placeAll c.player before).HasOneDock c.player x.territory := by
        intro hwater
        rw [hs.atlas] at hwater
        exact hs.hasOneDock (hone x hmem hwater)
      rw [chargedFactory?_of_serves (hs.serves hserves) hwater (by omega)] at hcharged
      cases hcharged
      rw [if_neg (by omega)]
      exact ⟨_, rfl⟩

end Plan

end Table

namespace Scenario

open Table

/-- Whatever commands were given in a game, if a player places what waits for it as planned, then
nothing but want of room lets the table refuse a placement, and it refuses none if no zone where
ships are placed has two docks with room. -/
theorem placements_taken (s : Scenario) (h₀ : Table) (hset : s.setUp = .ok h₀)
    (commands : List Command) (c : Context) (bought : Tally)
    (hpending : ∀ k, bought.count k ≤ ((h₀.play commands).pendingOf c.player).count k)
    (before rest : List Placement) (x : Placement)
    (hplan : (h₀.play commands).placements c bought = before ++ x :: rest) :
    (∀ e, ((h₀.play commands).placeAll c.player before).submitPlacement c.player x = .error e →
      ∃ room < x.kinds.length, e = .capacityExceeded x.territory room) ∧
    ((∀ y ∈ (h₀.play commands).placements c bought,
        (h₀.play commands).board.atlas.isWater y.territory = true →
        (h₀.play commands).HasOneDock c.player y.territory) →
      ∃ h', ((h₀.play commands).placeAll c.player before).submitPlacement c.player x = .ok h') := by
  have hb := (play_keeps (setUp_sound hset) commands).1
  have hfirst : h₀.KnowsPending := by
    rw [(setUp_board hset).2]
    exact knowsPending_ofBoard h₀.board
  exact submitPlacement_placements hb (hfirst.play (setUp_sound hset) commands) hpending hplan

/-- One of two factories lies at the bay; the other is the capital. -/
def oneDock : Scenario where
  players := [{ name := "Red", capital := some "West", budget := 12 }]
  territories := [
    { name := "East", owner := some "Red", production := 3, factory := true },
    { name := "West", owner := some "Red", production := 1, factory := true },
    { name := "Bay", water := true }]
  connections := [("East", "Bay"), ("East", "West")]
  kinds := [
    { name := "transport", domain := .sea, movement := 2, cost := 6, transportCapacity := 4 },
    { name := "infantry", cost := 3 }]

set_option maxRecDepth 100000 in
/-- The infantry fills the capital and takes a place in the East, where the transport comes last. -/
theorem placements_taken_oneDock : ∃ h, oneDock.setUp = .ok h ∧
    (h.play [.purchase 0 (.ofKinds [0, 1, 1])]).placements
        (.build h.board 0 {}) (.ofKinds [0, 1, 1]) =
      [⟨0, [1]⟩, ⟨1, [1]⟩] ++ ⟨2, [0]⟩ :: [] ∧
    ∃ h', ((h.play [.purchase 0 (.ofKinds [0, 1, 1])]).placeAll 0
      [⟨0, [1]⟩, ⟨1, [1]⟩]).submitPlacement 0 ⟨2, [0]⟩ = .ok h' := by
  have hpass : (oneDock.setUp.toOption.any fun h =>
      let h' := h.play [.purchase 0 (.ofKinds [0, 1, 1])]
      let plan := h'.placements (.build h.board 0 {}) (.ofKinds [0, 1, 1])
      h'.pendingOf 0 == .ofKinds [0, 1, 1] && plan == [⟨0, [1]⟩, ⟨1, [1]⟩] ++ ⟨2, [0]⟩ :: [] &&
        decide (∀ y ∈ plan, h'.board.atlas.isWater y.territory = true →
          h'.HasOneDock 0 y.territory)) = true := by
    decide +kernel
  obtain ⟨h, hset, hcheck⟩ := Scenario.exists_setUp hpass
  simp only [Bool.and_eq_true, beq_iff_eq, decide_eq_true_eq] at hcheck
  obtain ⟨⟨hpending, hplan⟩, hone⟩ := hcheck
  have hall : ∀ k, (Tally.ofKinds [0, 1, 1]).count k ≤
      ((h.play [.purchase 0 (.ofKinds [0, 1, 1])]).pendingOf 0).count k :=
    fun k => Nat.le_of_eq (congrArg (·.count k) hpending.symm)
  have htaken := placements_taken oneDock h hset [.purchase 0 (.ofKinds [0, 1, 1])]
    (.build h.board 0 {}) (.ofKinds [0, 1, 1]) hall [⟨0, [1]⟩, ⟨1, [1]⟩] [] ⟨2, [0]⟩ hplan
  exact ⟨h, hset, hplan, htaken.2 hone⟩

/-- Both factories lie at the bay, and each makes one ship a turn. -/
def twinDocks : Scenario where
  players := [{ name := "Red", budget := 12 }]
  territories := [
    { name := "East", owner := some "Red", production := 1, factory := true },
    { name := "West", owner := some "Red", production := 1, factory := true },
    { name := "Bay", water := true }]
  connections := [("East", "Bay"), ("West", "Bay")]
  kinds := [
    { name := "transport", domain := .sea, movement := 2, cost := 6, transportCapacity := 4 }]

set_option maxRecDepth 100000 in
/-- Two ships are planned in one placement, one from each factory, but the table charges them to one
factory, where there is no room for both. -/
theorem placement_not_taken : ∃ h, twinDocks.setUp = .ok h ∧
    (h.play [.purchase 0 (.ofKinds [0, 0])]).pendingOf 0 = .ofKinds [0, 0] ∧
    (h.play [.purchase 0 (.ofKinds [0, 0])]).placements
      (.build h.board 0 {}) (.ofKinds [0, 0]) = [⟨2, [0, 0]⟩] ∧
    (h.play [.purchase 0 (.ofKinds [0, 0])]).submitPlacement 0 ⟨2, [0, 0]⟩ =
      .error (.capacityExceeded 2 1) := by
  have hpass : (twinDocks.setUp.toOption.any fun h =>
      let h' := h.play [.purchase 0 (.ofKinds [0, 0])]
      decide (h'.pendingOf 0 = .ofKinds [0, 0] ∧
        h'.placements (.build h.board 0 {}) (.ofKinds [0, 0]) = [⟨2, [0, 0]⟩] ∧
        (∀ e ∈ (Tally.ofKinds [0, 0]).entries, h'.checkWanted 0 2 e = .ok ()) ∧
        h'.chargedFactory? 0 2 = some 0 ∧ h'.factoryRoom 0 = 1)) = true := by
    decide +kernel
  obtain ⟨h, hset, hcheck⟩ := Scenario.exists_setUp hpass
  obtain ⟨hpending, hplan, hwanted, hcharged, hroom⟩ := of_decide_eq_true hcheck
  refine ⟨h, hset, hpending, hplan, ?_⟩
  rw [submitPlacement_eq hwanted hcharged, hroom]
  rfl

end Scenario

end Conquest
