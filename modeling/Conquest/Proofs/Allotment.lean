import Conquest.Proofs.Placing
import Conquest.Proofs.Purchases

/-!
# How much of a purchase finds a place

A purchase counts slots: every factory that was not captured this turn has as many as there is room
at it. A placement counts places: a factory on friendly land has one for each slot, but a ship finds
none there unless there is water without an enemy force next to the factory. So all of a purchase is
placed just if the land pieces and aircraft do not need more than all places, and the ships no more
than the others leave at factories with a harbor.

* `Yard.places`, `Yard.length_fill`: as many pieces find a place as there are places.
* `placed_all_iff`: when all of a tally is placed.
* `Scenario.purchase_placed`: when all of a purchase is placed, in every game.
-/

namespace Conquest

/-! ## Places -/

namespace Yard

variable {site? : TerritoryId → Option TerritoryId} {yards left : List Yard} {site : TerritoryId}

/-- The room at the yards that have a site. -/
def places (site? : TerritoryId → Option TerritoryId) (yards : List Yard) : Nat :=
  ((yards.filter fun y => (site? y.factory).isSome).map (·.room)).sum

theorem places_cons (site? : TerritoryId → Option TerritoryId) (y : Yard) (rest : List Yard) :
    places site? (y :: rest) =
      (if (site? y.factory).isSome then y.room else 0) + places site? rest := by
  unfold places
  by_cases hsite : (site? y.factory).isSome = true
  · simp [hsite]
  · simp [hsite]

/-- A piece that finds no place leaves none behind. -/
theorem places_of_take?_none (h : Yard.take? site? yards = none) : places site? yards = 0 := by
  induction yards with
  | nil => rfl
  | cons y rest ih =>
    unfold Yard.take? at h
    cases hsite : (if y.room = 0 then none else site? y.factory) with
    | some s =>
      rw [hsite] at h
      cases h
    | none =>
      rw [hsite, Option.map_eq_none_iff] at h
      rw [places_cons, ih h]
      by_cases hroom : y.room = 0
      · simp [hroom]
      · rw [if_neg hroom] at hsite
        simp [hsite]

/-- A piece that finds a place takes one. -/
theorem places_of_take?_some (h : Yard.take? site? yards = some (site, left)) :
    places site? yards = places site? left + 1 := by
  induction yards generalizing left with
  | nil => cases h
  | cons y rest ih =>
    unfold Yard.take? at h
    cases hsite : (if y.room = 0 then none else site? y.factory) with
    | some s =>
      rw [hsite] at h
      cases h
      have hroom : y.room ≠ 0 := by
        intro hzero
        rw [if_pos hzero] at hsite
        cases hsite
      rw [if_neg hroom] at hsite
      rw [places_cons, places_cons]
      simp only [hsite, Option.isSome_some, if_true]
      omega
    | none =>
      rw [hsite, Option.map_eq_some_iff] at h
      obtain ⟨⟨s, left'⟩, htake, heq⟩ := h
      cases heq
      rw [places_cons, places_cons, ih htake]
      omega

/-- As many pieces find a place as there are places. -/
theorem length_fill (site? : TerritoryId → Option TerritoryId) (kinds : List KindId)
    (yards : List Yard) :
    (Yard.fill site? kinds yards).1.length = min kinds.length (places site? yards) ∧
      places site? (Yard.fill site? kinds yards).2 = places site? yards - kinds.length := by
  induction kinds generalizing yards with
  | nil =>
    unfold Yard.fill
    simp
  | cons k rest ih =>
    unfold Yard.fill
    cases htake : Yard.take? site? yards with
    | none =>
      have hnone := places_of_take?_none htake
      simp [hnone]
    | some taken =>
      have hone := places_of_take?_some htake
      obtain ⟨hlength, hleft⟩ := ih taken.2
      constructor
      · show (Yard.fill site? rest taken.2).1.length + 1 = min (rest.length + 1) _
        omega
      · show places site? (Yard.fill site? rest taken.2).2 = _ - (rest.length + 1)
        omega

/-- Where every yard with room has a site, all room counts. -/
theorem places_eq (h : ∀ y ∈ yards, 0 < y.room → (site? y.factory).isSome = true) :
    places site? yards = places some yards := by
  induction yards with
  | nil => rfl
  | cons y rest ih =>
    obtain ⟨hfirst, hrest⟩ := List.forall_mem_cons.1 h
    rw [places_cons, places_cons, ih hrest]
    by_cases hroom : y.room = 0
    · simp [hroom]
    · simp [hfirst (Nat.pos_of_ne_zero hroom)]

theorem roomOf_pos {y : Yard} (hy : y ∈ yards) (hroom : 0 < y.room) :
    0 < roomOf yards y.factory := by
  induction yards with
  | nil => cases hy
  | cons z rest ih =>
    rw [roomOf_cons]
    obtain rfl | hy := List.mem_cons.1 hy
    · rw [if_pos rfl]
      omega
    · have hrest := ih hy
      omega

end Yard

/-! ## When all is placed -/

section Plan

variable (b : Board) (capacity : TerritoryId → Nat) (c : Context) (bought : Tally)

/-- The ships of a tally. -/
def shipsOf : List KindId := bought.toKinds.filter fun k => (b.kind k).isSea

/-- The land pieces and aircraft of a tally. -/
def othersOf : List KindId := bought.toKinds.filter fun k => !(b.kind k).isSea

theorem count_ships_add_others (k : KindId) :
    (shipsOf b bought).count k + (othersOf b bought).count k = bought.count k := by
  have hsplit := (List.filter_append_perm (fun k => (b.kind k).isSea) bought.toKinds).count_eq k
  rw [List.count_append, Tally.count_toKinds] at hsplit
  exact hsplit

theorem length_ships_add_others :
    (shipsOf b bought).length + (othersOf b bought).length = bought.total := by
  have hsplit := (List.filter_append_perm (fun k => (b.kind k).isSea) bought.toKinds).length_eq
  rw [List.length_append] at hsplit
  unfold shipsOf othersOf
  rw [hsplit, Tally.total_eq_length]

theorem places_yardsFor :
    Yard.places some (yardsFor b capacity c) = ((c.yardOrder b).map capacity).sum := by
  unfold Yard.places yardsFor
  simp [Function.comp_def]

/-- How many pieces of a kind the placements of a plan place. -/
def planned (k : KindId) : Nat :=
  ((planPlacements b capacity c bought).map fun x => x.kinds.count k).sum

theorem planned_eq (k : KindId) : planned b capacity c bought k =
    ((ashore b capacity c bought).1.map (·.2)).count k +
      ((afloat b capacity c bought).1.map (·.2)).count k := by
  unfold planned
  rw [sum_count, sites, List.map_append, List.count_append]

/-- Who finds a site ashore, in order. -/
theorem ashore_kinds :
    (ashore b capacity c bought).1.map (·.2) <+: othersOf b bought ∧
      (ashore b capacity c bought).1.length =
        min (othersOf b bought).length (((c.yardOrder b).map capacity).sum) := by
  rw [← places_yardsFor]
  exact ⟨Yard.fill_kinds some _ _, (Yard.length_fill some _ _).1⟩

/-- Which ships find a site, in order. -/
theorem afloat_kinds :
    (afloat b capacity c bought).1.map (·.2) <+: shipsOf b bought ∧
      (afloat b capacity c bought).1.length = min (shipsOf b bought).length
        (Yard.places (c.harbor? b) (ashore b capacity c bought).2) :=
  ⟨Yard.fill_kinds _ _ _, (Yard.length_fill _ _ _).1⟩

/-- Land pieces and aircraft are all placed if there is a place for each. -/
theorem ashore_all (h : (othersOf b bought).length ≤ ((c.yardOrder b).map capacity).sum) :
    (ashore b capacity c bought).1.map (·.2) = othersOf b bought := by
  obtain ⟨hinit, hlength⟩ := ashore_kinds b capacity c bought
  apply hinit.eq_of_length
  rw [List.length_map]
  omega

theorem planned_of_not_isSea
    (h : (othersOf b bought).length ≤ ((c.yardOrder b).map capacity).sum) {k : KindId}
    (hk : (b.kind k).isSea = false) : planned b capacity c bought k = bought.count k := by
  -- no ship is of this kind
  have hships : (shipsOf b bought).count k = 0 := by
    rw [List.count_eq_zero]
    intro hmem
    have hsea := (List.mem_filter.1 hmem).2
    rw [hk] at hsea
    cases hsea
  have hafloat := (afloat_kinds b capacity c bought).1.sublist.count_le k
  have hsplit := count_ships_add_others b bought k
  rw [planned_eq, ashore_all b capacity c bought h]
  omega

/-- All of a tally is placed just if the land pieces and aircraft do not need more than all places,
and the ships no more than the others leave at factories with a harbor. -/
theorem planned_all_iff :
    (∀ k, planned b capacity c bought k = bought.count k) ↔
      (othersOf b bought).length ≤ ((c.yardOrder b).map capacity).sum ∧
      (shipsOf b bought).length ≤
        Yard.places (c.harbor? b) (ashore b capacity c bought).2 := by
  obtain ⟨-, hashore⟩ := ashore_kinds b capacity c bought
  obtain ⟨hinit, hafloat⟩ := afloat_kinds b capacity c bought
  constructor
  · intro hall
    -- equal counts are equal numbers, and neither part has more than it should
    have hperm : ((ashore b capacity c bought).1.map (·.2) ++
        (afloat b capacity c bought).1.map (·.2)).Perm
          (shipsOf b bought ++ othersOf b bought) := by
      apply List.perm_iff_count.2
      intro k
      rw [List.count_append, List.count_append, count_ships_add_others, ← hall k, planned_eq]
    have hlength := hperm.length_eq
    rw [List.length_append, List.length_append, List.length_map, List.length_map] at hlength
    omega
  · rintro ⟨hothers, hships⟩ k
    have hall : (afloat b capacity c bought).1.map (·.2) = shipsOf b bought := by
      apply hinit.eq_of_length
      rw [List.length_map]
      omega
    have hsplit := count_ships_add_others b bought k
    rw [planned_eq, ashore_all b capacity c bought hothers, hall]
    omega

end Plan

/-! ## Slots and places -/

/-- What is counted after a fill was counted before or has an offer. -/
theorem count_buyInOrder_pos {offers : List Offer} {money slots : Nat} {bought : Tally} {k : KindId}
    (h : 0 < (buyInOrder offers money slots bought).count k) :
    0 < bought.count k ∨ ∃ o ∈ offers, o.kind = k := by
  induction offers generalizing money slots bought with
  | nil => exact .inl h
  | cons o rest ih =>
    unfold buyInOrder at h
    simp only at h
    split at h
    · obtain hold | ⟨o', ho', hkind⟩ := ih h
      · exact .inl hold
      · exact .inr ⟨o', List.mem_cons_of_mem _ ho', hkind⟩
    · obtain hold | ⟨o', ho', hkind⟩ := ih h
      · rw [Tally.count_add] at hold
        by_cases hk : k = o.kind
        · exact .inr ⟨o, List.mem_cons_self, hk.symm⟩
        · rw [if_neg hk] at hold
          exact .inl hold
      · exact .inr ⟨o', List.mem_cons_of_mem _ ho', hkind⟩

namespace Context

variable {b : Board} {c : Context} {capacity : TerritoryId → Nat}

/-- Where every factory with a slot is on friendly land, there is a place for every slot. -/
theorem slots_le (hfactories : c.factories.Nodup)
    (hfriendly : ∀ f ∈ c.factories, b.isConquered f = false → 0 < capacity f →
      b.isFriendlyLand f c.player = true) :
    c.slots b capacity ≤ ((c.yardOrder b).map capacity).sum := by
  unfold slots
  refine (wrap_le _).trans ?_
  apply sum_map_le_of_subset (hfactories.filter _)
  intro f hf hpos
  obtain ⟨hmem, hheld⟩ := List.mem_filter.1 hf
  rw [Bool.not_eq_true'] at hheld
  exact mem_yardOrder.2 ⟨hmem, hfriendly f hmem hheld hpos, hheld⟩

/-- What is bought is offered. -/
theorem mem_offers_of_count {s : Strategy} {money slots : Nat} {k : KindId}
    (h : 0 < (c.basket b s money slots).count k) : ∃ o ∈ c.offers b, o.kind = k := by
  obtain hnone | ⟨o, ho, hkind⟩ := count_buyInOrder_pos h
  · cases hnone
  · exact ⟨o, mem_worthwhile ho, hkind⟩

/-- Ships are bought only where some factory lies at the sea. -/
theorem hasCoastalFactory_of_count (hb : b.Numbered) {s : Strategy} {k : KindId}
    (hk : (b.kind k).isSea = true) (h : 0 < (c.purchase b capacity s).count k) :
    c.hasCoastalFactory b = true := by
  have hbasket : ∀ money slots, 0 < (c.basket b s money slots).count k →
      c.hasCoastalFactory b = true := by
    intro money slots hpos
    obtain ⟨o, ho, rfl⟩ := mem_offers_of_count hpos
    unfold offers at ho
    obtain ⟨kind, hkind, rfl⟩ := List.mem_map.1 ho
    obtain ⟨-, hsame⟩ := hb.kind_id hkind
    have hoffered := (List.mem_filter.1 hkind).2
    have hsea : kind.isSea = true := by
      rw [← hsame]
      exact hk
    rw [hsea, Bool.not_true, Bool.or_false, Bool.and_eq_true] at hoffered
    exact hoffered.2
  unfold purchase at h
  cases hreserved : c.reserved? b (c.slots b capacity) with
  | none =>
    rw [hreserved] at h
    simp only [Tally.count_merge, Tally.count_empty, Nat.zero_add] at h
    exact hbasket _ _ h
  | some kind =>
    -- no transport is set aside without a factory at the sea
    unfold reserved? at hreserved
    split at hreserved
    · rename_i hlacks
      unfold lacksTransport at hlacks
      simp only [Bool.and_eq_true] at hlacks
      exact hlacks.1.1.2
    · cases hreserved

end Context

/-! ## At the table -/

namespace Table

/-- A factory of a player has slots: it was not captured this turn, and there is room at it. -/
def HasSlots (h : Table) (p : PlayerId) (f : TerritoryId) : Prop :=
  f ∈ h.board.factoriesOf p ∧ h.board.isConquered f = false ∧ 0 < h.placementCapacity f

variable {h : Table} {c : Context}

/-- Where every factory with slots is on friendly land and has a harbor, there is a place for every
piece of a tally that has a slot for every piece. -/
theorem planned_all (hb : h.board.Sound) {bought : Tally}
    (hslots : bought.total ≤ (c.refresh h.board).slots h.board h.placementCapacity)
    (hfriendly : ∀ f, h.HasSlots c.player f → h.board.isFriendlyLand f c.player = true)
    (hharbors : (∀ f, h.HasSlots c.player f →
        ((c.refresh h.board).harbor? h.board f).isSome = true) ∨
      shipsOf h.board bought = []) (k : KindId) :
    planned h.board h.placementCapacity (c.refresh h.board) bought k = bought.count k := by
  have hplaces : (c.refresh h.board).slots h.board h.placementCapacity ≤
      (((c.refresh h.board).yardOrder h.board).map h.placementCapacity).sum :=
    Context.slots_le (hb.nodup_factoriesOf c.player) fun f hf hheld hpos =>
      hfriendly f ⟨hf, hheld, hpos⟩
  have hsplit := length_ships_add_others h.board bought
  revert k
  rw [planned_all_iff]
  constructor
  · omega
  · obtain hharbors | hnone := hharbors
    · -- every yard with room left has a harbor, so the ships may use all that is left
      have hall : ∀ y ∈ (ashore h.board h.placementCapacity (c.refresh h.board) bought).2,
          0 < y.room → ((c.refresh h.board).harbor? h.board y.factory).isSome = true := by
        intro y hy hroom
        have hpos := Yard.roomOf_pos hy hroom
        have hle := Yard.fill_room_le some (othersOf h.board bought)
          (yardsFor h.board h.placementCapacity (c.refresh h.board)) y.factory
        obtain ⟨hyard, hcapacity⟩ := hb.isYard_of_roomOf (Nat.lt_of_lt_of_le hpos hle)
        exact hharbors y.factory
          ⟨(Board.mem_factoriesOf hb.atlas).2 ⟨hyard.owner, hyard.factory⟩, hyard.held, hcapacity⟩
      have hleft : Yard.places some
          (ashore h.board h.placementCapacity (c.refresh h.board) bought).2 = _ :=
        (Yard.length_fill some (othersOf h.board bought) _).2
      rw [places_yardsFor] at hleft
      rw [Yard.places_eq hall, hleft]
      omega
    · rw [hnone]
      exact Nat.zero_le _

end Table

namespace Scenario

open Table

/-- The kinds of a game have their places in the catalogue as their numbers. -/
theorem numbered_play {s : Scenario} {h₀ : Table} (hset : s.setUp = .ok h₀)
    (commands : List Command) : (h₀.play commands).board.Numbered := by
  have hplay := (play_keeps (setUp_sound hset) commands).2
  obtain ⟨empty, hempty, -, hground⟩ := board_keeps (setUp_board hset).1
  obtain ⟨-, -, hkinds⟩ := sound_emptyBoard hempty
  unfold Board.Numbered
  rw [hplay.kinds, hground.kinds, hkinds]
  intro k hk
  simp [catalogue]

/-- When all of a purchase is placed. In every game and whoever draws the strategy, a purchase that
is planned is placed as a whole just if the land pieces and aircraft do not need more than all
places and the ships no more than the others leave at factories with a harbor. Where all factories
with slots are on friendly land that is so for the land pieces and aircraft, and for the ships if
each of these factories has a harbor or no factory lies at the sea. -/
theorem purchase_placed {σ : Type} [Lottery σ] (s : Scenario) (h₀ h : Table)
    (hset : s.setUp = .ok h₀) (commands : List Command) (hplay : h₀.play commands = h) (c : Context)
    (policy policy' : Policy σ) (strategy : Strategy) (bought : Tally)
    (hplan : planPurchase h.board h.placementCapacity (c.refresh h.board) policy =
      .ok ((strategy, bought), policy')) :
    ((∀ k, planned h.board h.placementCapacity (c.refresh h.board) bought k = bought.count k) ↔
      (othersOf h.board bought).length ≤
        (((c.refresh h.board).yardOrder h.board).map h.placementCapacity).sum ∧
      (shipsOf h.board bought).length ≤ Yard.places ((c.refresh h.board).harbor? h.board)
        (ashore h.board h.placementCapacity (c.refresh h.board) bought).2) ∧
    ((∀ f, h.HasSlots c.player f → h.board.isFriendlyLand f c.player = true) →
      (∀ k, (h.board.kind k).isSea = false →
        planned h.board h.placementCapacity (c.refresh h.board) bought k = bought.count k) ∧
      ((∀ f, h.HasSlots c.player f →
          ((c.refresh h.board).harbor? h.board f).isSome = true) ∨
        (∀ f ∈ h.board.factoriesOf c.player, h.board.atlas.isCoastal f = false) →
        ∀ k, planned h.board h.placementCapacity (c.refresh h.board) bought k =
          bought.count k)) := by
  subst hplay
  have hb := (play_keeps (setUp_sound hset) commands).1
  have hnumbered := numbered_play hset commands
  generalize h₀.play commands = h at hb hnumbered hplan
  obtain rfl := eq_purchase_of_planPurchase hplan
  have hbuys := (c.refresh h.board).buys_purchase hnumbered h.placementCapacity strategy
  constructor
  · exact planned_all_iff _ _ _ _
  intro hfriendly
  constructor
  · -- land pieces and aircraft are at most all of the purchase
    intro k hk
    have hplaces : (c.refresh h.board).slots h.board h.placementCapacity ≤
        (((c.refresh h.board).yardOrder h.board).map h.placementCapacity).sum :=
      Context.slots_le (hb.nodup_factoriesOf c.player) fun f hf hheld hpos =>
        hfriendly f ⟨hf, hheld, hpos⟩
    have hsplit := length_ships_add_others h.board ((c.refresh h.board).purchase h.board
      h.placementCapacity strategy)
    have htotal := hbuys.total
    exact planned_of_not_isSea _ _ _ _ (by omega) hk
  · intro hcase
    apply planned_all hb hbuys.total hfriendly
    obtain hharbors | hinland := hcase
    · exact .inl hharbors
    · right
      -- a ship would have been bought at a factory by the sea
      apply List.eq_nil_iff_forall_not_mem.2
      intro k hk
      obtain ⟨hmem, hsea⟩ := List.mem_filter.1 hk
      have hpos := List.count_pos_iff.2 hmem
      rw [Tally.count_toKinds] at hpos
      have hcoastal := (c.refresh h.board).hasCoastalFactory_of_count hnumbered hsea hpos
      obtain ⟨f, hf, hshore⟩ := List.any_eq_true.1 hcoastal
      rw [hinland f hf] at hshore
      cases hshore

set_option maxRecDepth 100000 in
/-- The transport and the infantry for the crossing all find a place: the one factory has a
harbor. -/
theorem purchase_placed_overseas : ∃ h, overseas.setUp = .ok h ∧
    ∃ strategy, ∃ policy' : Policy Generator,
      planPurchase h.board h.placementCapacity (.build h.board 0 {}) (.ofSeed 7 ⟨1, 1, 1, 1⟩) =
        .ok ((strategy, Tally.ofKinds [0, 0, 0, 1]), policy') ∧
      ∀ k, planned h.board h.placementCapacity (.build h.board 0 {})
        (Tally.ofKinds [0, 0, 0, 1]) k = (Tally.ofKinds [0, 0, 0, 1]).count k := by
  have hpass : overseas.setUp.toOption.any (fun h =>
      decide (∀ f ∈ h.board.factoriesOf 0, h.board.isFriendlyLand f 0 = true ∧
        ((Context.build h.board 0 {}).harbor? h.board f).isSome = true) &&
      buysJust (Tally.ofKinds [0, 0, 0, 1]) (planPurchase h.board h.placementCapacity
        (.build h.board 0 {}) (.ofSeed 7 ⟨1, 1, 1, 1⟩ : Policy Generator))) = true := by
    decide +kernel
  obtain ⟨h, hset, hcheck⟩ := exists_setUp hpass
  obtain ⟨hharbors, hbuys⟩ := Bool.and_eq_true_iff.1 hcheck
  have hfactories := of_decide_eq_true hharbors
  obtain ⟨strategy, policy', hplan⟩ := of_buysJust hbuys
  have hsame : (Context.build h.board 0 {}).refresh h.board = .build h.board 0 {} := rfl
  obtain ⟨-, hplaced⟩ := purchase_placed overseas h h hset [] rfl (.build h.board 0 {})
    (.ofSeed 7 ⟨1, 1, 1, 1⟩) policy' strategy _ hplan
  rw [hsame] at hplaced
  obtain ⟨-, hall⟩ := hplaced fun f hf => (hfactories f hf.1).1
  exact ⟨h, hset, strategy, policy', hplan, hall (.inl fun f hf => (hfactories f hf.1).2)⟩

/-- Blue blockades the port of Red. -/
def blockade : Scenario where
  players := [{ name := "Red", team := 0, budget := 16 }, { name := "Blue", team := 1 }]
  territories := [
    { name := "Port", owner := some "Red", production := 2, factory := true },
    { name := "Bay", water := true }]
  connections := [("Port", "Bay")]
  kinds := [
    { name := "destroyer", domain := .sea, attack := 2, defense := 2, movement := 2, cost := 8 }]
  pieces := [{ kind := "destroyer", owner := "Blue", place := "Bay", count := 1 }]

set_option maxRecDepth 100000 in
/-- Two destroyers are bought, because the port lies at the sea and has two slots, but the bay is no
harbor, and none of them is placed. -/
theorem purchase_not_placed : ∃ h, blockade.setUp = .ok h ∧
    ∃ strategy, ∃ policy' : Policy Generator,
      planPurchase h.board h.placementCapacity (.build h.board 0 {}) (.ofSeed 7 ⟨1, 1, 1, 1⟩) =
        .ok ((strategy, Tally.ofKinds [0, 0]), policy') ∧
      planPlacements h.board h.placementCapacity (.build h.board 0 {})
        (Tally.ofKinds [0, 0]) = [] ∧
      planned h.board h.placementCapacity (.build h.board 0 {}) (Tally.ofKinds [0, 0]) 0 = 0 ∧
      (Tally.ofKinds [0, 0]).count 0 = 2 := by
  have hpass : blockade.setUp.toOption.any (fun h =>
      decide (planPlacements h.board h.placementCapacity (.build h.board 0 {})
        (Tally.ofKinds [0, 0]) = []) &&
      buysJust (Tally.ofKinds [0, 0]) (planPurchase h.board h.placementCapacity
        (.build h.board 0 {}) (.ofSeed 7 ⟨1, 1, 1, 1⟩ : Policy Generator))) = true := by
    decide +kernel
  obtain ⟨h, hset, hcheck⟩ := exists_setUp hpass
  obtain ⟨hplacements, hbuys⟩ := Bool.and_eq_true_iff.1 hcheck
  have hnone := of_decide_eq_true hplacements
  obtain ⟨strategy, policy', hplan⟩ := of_buysJust hbuys
  have hzero : planned h.board h.placementCapacity (.build h.board 0 {})
      (Tally.ofKinds [0, 0]) 0 = 0 := by
    unfold planned
    rw [hnone]
    rfl
  exact ⟨h, hset, strategy, policy', hplan, hnone, hzero, rfl⟩

end Scenario

end Conquest
