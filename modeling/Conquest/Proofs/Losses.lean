import Mathlib.Data.List.Infix
import Mathlib.Data.List.Nodup
import Conquest.Battle.Toll
import Conquest.Proofs.Choice
import Conquest.Proofs.Play

/-!
# Which pieces are lost

Hits are spent along one sequence that does not depend on their number: first every piece that can
be hit at all, once, and then the damaged ones again. What some hits damage and destroy is the
beginning of that sequence, so more hits only add to the list.

* `Context.lossSequence_eq`, `Context.firstLosses_perm`: the sequence, and whom its first part hits.
* `strike?_take`, `toll?_eq`: writing the losses down group by group gives the same list.
* `SpendsHits`: the sequence of a battle, by identifiers; `again_of_reached`: where a piece is listed
  again, the whole first part stands before it.
* `selectCasualties_extends`: more hits, more losses, and who is listed twice.
* `selectCasualties_transport`: protected transports are spared unless they survive a hit.
* `length_selectCasualties`: how many losses there are.
-/

namespace Conquest

/-! ## Boards -/

namespace Board

variable {b : Board} {u : PieceId} {a : Asset}

/-- Distinct candidates are distinct pieces. -/
theorem Indexed.nodup_assets (hb : b.Indexed) {candidates : List PieceId}
    (hdistinct : candidates.Nodup) : ((candidates.filterMap b.asset?).map (·.id)).Nodup := by
  rw [map_filterMap_eq fun u a => hb.id_asset, List.map_id']
  exact hdistinct.filter _

/-- The candidates of which a test holds, by identifier. -/
theorem Indexed.mem_map_filter (hb : b.Indexed) {candidates : List PieceId} {p : Asset → Bool} :
    u ∈ ((candidates.filterMap b.asset?).filter p).map (·.id) ↔
      u ∈ candidates ∧ ∃ a, b.asset? u = some a ∧ p a = true := by
  simp only [List.mem_map, List.mem_filter, List.mem_filterMap]
  constructor
  · rintro ⟨a, ⟨⟨v, hv, ha⟩, hp⟩, hid⟩
    rw [← hid, hb.id_asset ha]
    exact ⟨hv, a, ha, hp⟩
  · rintro ⟨hu, a, ha, hp⟩
    exact ⟨a, ⟨⟨u, hu, ha⟩, hp⟩, hb.id_asset ha⟩

end Board

/-! ## The sequence -/

/-- How many more hits destroy a piece. -/
def Asset.endurance (a : Asset) : Nat := a.kind.hitPoints - a.piece.hits

/-- A piece that stands has a spare hit if it still stands after one more. -/
theorem Asset.hasSpareHit_iff {a : Asset} (hhits : a.piece.hits < a.kind.hitPoints) :
    a.hasSpareHit = true ↔ a.piece.hits + 1 < a.kind.hitPoints := by
  have hword := a.kind.hitPoints_lt
  unfold Asset.hasSpareHit
  rw [wrap_of_lt (by omega), decide_eq_true_iff]

namespace Context

/-- Whether the rules let a piece be chosen to take a hit. -/
def mayChoose (c : Context) (a : Asset) : Bool :=
  c.rules.transportsCanDie || !a.kind.isTransport

/-- How often a piece is listed when there are hits enough: as often as it takes hits, but no more
than twice; a protected transport twice if it survives a hit. -/
def listings (c : Context) (a : Asset) : Nat :=
  if c.mayChoose a then min 2 a.endurance else if a.hasSpareHit then 2 else 0

/-- The pieces that survive one more hit, in the order in which they are damaged. -/
def damaged (c : Context) (atSea : Bool) (assets : List Asset) : List Asset :=
  sortBy (c.lossOrder atSea) (assets.filter (·.hasSpareHit))

/-- Every piece that can be hit, in the order of its first hit. -/
def firstLosses (c : Context) (atSea : Bool) (assets : List Asset) : List Asset :=
  c.damaged atSea assets
    ++ (if c.rules.transportsCanDie then
        assets.filter fun a => a.kind.isTransport && !a.hasSpareHit else [])
    ++ sortBy (c.lossOrder atSea) (assets.filter fun a => !a.kind.isTransport && !a.hasSpareHit)

variable {c : Context} {atSea : Bool} {assets : List Asset} {a : Asset}

/-- Hits that are left when everybody has taken one go to the damaged pieces. -/
theorem lossSequence_eq (c : Context) (atSea : Bool) (assets : List Asset) :
    c.lossSequence atSea assets = c.firstLosses atSea assets ++ c.damaged atSea assets := by
  unfold lossSequence firstLosses damaged
  simp only [List.partition_eq_filter_filter, List.filter_filter]
  rfl

theorem damaged_perm : (c.damaged atSea assets).Perm (assets.filter (·.hasSpareHit)) :=
  sortBy_perm _ _

/-- After the damaged pieces come the transports, unless they are protected, and the fighters. -/
theorem frail_perm :
    ((if c.rules.transportsCanDie then
        assets.filter fun a => a.kind.isTransport && !a.hasSpareHit else [])
      ++ sortBy (c.lossOrder atSea)
        (assets.filter fun a => !a.kind.isTransport && !a.hasSpareHit)).Perm
      (assets.filter fun a => c.mayChoose a && !a.hasSpareHit) := by
  refine ((sortBy_perm _ _).append_left _).trans ?_
  unfold mayChoose
  cases c.rules.transportsCanDie with
  | false => exact .refl _
  | true =>
    have hsplit := List.filter_append_perm (·.kind.isTransport)
      (assets.filter fun a => !a.hasSpareHit)
    rw [List.filter_filter, List.filter_filter] at hsplit
    exact hsplit

/-- Everybody is hit a first time except protected transports without a spare hit. -/
theorem firstLosses_perm :
    (c.firstLosses atSea assets).Perm
      (assets.filter fun a => c.mayChoose a || a.hasSpareHit) := by
  have hsplit := List.filter_append_perm (·.hasSpareHit)
    (assets.filter fun a => c.mayChoose a || a.hasSpareHit)
  have hsturdy : (assets.filter fun a => a.hasSpareHit && (c.mayChoose a || a.hasSpareHit)) =
      assets.filter (·.hasSpareHit) := by
    congr 1
    funext a
    cases a.hasSpareHit <;> simp
  have hfrail : (assets.filter fun a => !a.hasSpareHit && (c.mayChoose a || a.hasSpareHit)) =
      assets.filter fun a => c.mayChoose a && !a.hasSpareHit := by
    congr 1
    funext a
    cases a.hasSpareHit <;> simp
  rw [List.filter_filter, List.filter_filter, hsturdy, hfrail] at hsplit
  unfold firstLosses
  rw [List.append_assoc]
  exact (damaged_perm.append frail_perm).trans hsplit

/-- A piece is listed once for its first hit and once more if it is only damaged by it. -/
theorem listings_eq (hhits : a.piece.hits < a.kind.hitPoints) :
    c.listings a = (if (c.mayChoose a || a.hasSpareHit) = true then 1 else 0)
      + (if a.hasSpareHit = true then 1 else 0) := by
  have htwo := Asset.hasSpareHit_iff hhits
  unfold listings Asset.endurance
  cases hspare : a.hasSpareHit with
  | false =>
    have hlast : a.kind.hitPoints - a.piece.hits = 1 := by
      rw [hspare, Bool.false_eq_true, false_iff] at htwo
      omega
    cases c.mayChoose a <;> simp [hlast]
  | true =>
    have hmore : min 2 (a.kind.hitPoints - a.piece.hits) = 2 := by
      have hleft := htwo.1 hspare
      omega
    cases c.mayChoose a <;> simp [hmore]

theorem sum_listings (hhits : ∀ a ∈ assets, a.piece.hits < a.kind.hitPoints) :
    (assets.map c.listings).sum =
      (assets.filter fun a => c.mayChoose a || a.hasSpareHit).length
        + (assets.filter (·.hasSpareHit)).length := by
  induction assets with
  | nil => rfl
  | cons a rest ih =>
    obtain ⟨hfirst, hrest⟩ := List.forall_mem_cons.1 hhits
    rw [List.map_cons, List.sum_cons, listings_eq hfirst, ih hrest, ← List.countP_eq_length_filter,
      ← List.countP_eq_length_filter, ← List.countP_eq_length_filter,
      ← List.countP_eq_length_filter, List.countP_cons, List.countP_cons]
    omega

/-- Where no piece that may be chosen takes a third hit and no protected transport survives one,
everybody is listed as often as the rules say. -/
theorem sum_listings_of_plain
    (hplain : ∀ a ∈ assets, if c.mayChoose a then a.endurance ≤ 2 else a.hasSpareHit = false) :
    (assets.map c.listings).sum = ((assets.filter c.mayChoose).map Asset.endurance).sum := by
  induction assets with
  | nil => rfl
  | cons a rest ih =>
    obtain ⟨hfirst, hrest⟩ := List.forall_mem_cons.1 hplain
    rw [List.map_cons, List.sum_cons, ih hrest, List.filter_cons]
    unfold listings
    cases hmay : c.mayChoose a with
    | false =>
      rw [hmay, if_neg Bool.false_ne_true] at hfirst
      simp [hfirst]
    | true =>
      rw [hmay, if_pos rfl] at hfirst
      simp [hfirst]

end Context

/-! ## Group by group -/

/-- A group that is added to the beginning of a sequence continues it. -/
theorem strike?_take (count : Nat) (listed group : List PieceId) :
    strike? count (listed.take count) group = some ((listed ++ group).take count) := by
  have hleft : count - min count listed.length = count - listed.length := by omega
  unfold strike? hitsLeft?
  rw [if_pos (List.length_take_le count listed), Option.map_some, List.length_take, hleft,
    List.take_append]

/-- Cutting a group before it is added does not matter if it is cut to all hits. -/
theorem strike?_take_take (count : Nat) (listed group : List PieceId) :
    strike? count listed (group.take count) = strike? count listed group := by
  unfold strike? hitsLeft?
  split
  · rw [Option.map_some, Option.map_some, List.take_take, Nat.min_eq_left (Nat.sub_le _ _)]
  · rfl

/-- The list that is written down group by group is the beginning of the sequence. -/
theorem toll?_eq (b : Board) (c : Context) (candidates : List PieceId) (count : Nat) :
    toll? b c candidates count = some (selectCasualties b c candidates count) := by
  unfold toll? selectCasualties
  generalize candidates.filterMap b.asset? = assets
  dsimp only
  generalize (assets.head?.any fun a => b.atlas.isWater a.piece.territory) = atSea
  rw [c.lossSequence_eq]
  unfold Context.firstLosses Context.damaged
  cases c.rules.transportsCanDie with
  | false =>
    rw [if_neg Bool.false_ne_true, if_neg Bool.false_ne_true, List.append_nil]
    simp only [List.map_take, List.map_append, Option.bind_eq_bind, Option.bind_some, strike?_take,
      strike?_take_take]
  | true =>
    rw [if_pos rfl, if_pos rfl]
    simp only [List.map_take, List.map_append, Option.bind_eq_bind, Option.bind_some, strike?_take,
      strike?_take_take]

/-! ## Who is listed -/

/-- A sequence of pieces along which hits are spent: everybody that can be hit and then the damaged
ones again. -/
structure SpendsHits (b : Board) (c : Context) (candidates once again : List PieceId) : Prop where
  taken : ∀ n, selectCasualties b c candidates n = (once ++ again).take n
  once_perm : once.Perm
    (((candidates.filterMap b.asset?).filter fun a => c.mayChoose a || a.hasSpareHit).map (·.id))
  again_perm : again.Perm
    (((candidates.filterMap b.asset?).filter (·.hasSpareHit)).map (·.id))

theorem exists_spendsHits (b : Board) (c : Context) (candidates : List PieceId) :
    ∃ once again, SpendsHits b c candidates once again := by
  let assets := candidates.filterMap b.asset?
  let atSea := assets.head?.any fun a => b.atlas.isWater a.piece.territory
  refine ⟨(c.firstLosses atSea assets).map (·.id), (c.damaged atSea assets).map (·.id), fun n => ?_,
    Context.firstLosses_perm.map _, Context.damaged_perm.map _⟩
  show ((c.lossSequence atSea assets).take n).map (·.id) = _
  rw [c.lossSequence_eq, List.map_take, List.map_append]

namespace SpendsHits

variable {b : Board} {c : Context} {candidates once again : List PieceId} {n : Nat} {u : PieceId}

theorem mem_once (h : SpendsHits b c candidates once again) (hb : b.Indexed) : u ∈ once ↔
    u ∈ candidates ∧ ∃ a, b.asset? u = some a ∧ (c.mayChoose a || a.hasSpareHit) = true := by
  rw [h.once_perm.mem_iff, hb.mem_map_filter]

theorem mem_again (h : SpendsHits b c candidates once again) (hb : b.Indexed) : u ∈ again ↔
    u ∈ candidates ∧ ∃ a, b.asset? u = some a ∧ a.hasSpareHit = true := by
  rw [h.again_perm.mem_iff, hb.mem_map_filter]

theorem again_subset (h : SpendsHits b c candidates once again) (hb : b.Indexed) :
    again ⊆ once := by
  intro u hu
  obtain ⟨hmem, a, ha, hspare⟩ := (h.mem_again hb).1 hu
  exact (h.mem_once hb).2 ⟨hmem, a, ha, by rw [hspare, Bool.or_true]⟩

/-- Whoever is listed at all is hit a first time. -/
theorem mem_once_of_listed (h : SpendsHits b c candidates once again) (hb : b.Indexed)
    (hu : u ∈ selectCasualties b c candidates n) : u ∈ once := by
  rw [h.taken] at hu
  rcases List.mem_append.1 (List.mem_of_mem_take hu) with hu | hu
  · exact hu
  · exact h.again_subset hb hu

theorem nodup_once (h : SpendsHits b c candidates once again) (hb : b.Indexed)
    (hdistinct : candidates.Nodup) : once.Nodup :=
  h.once_perm.nodup_iff.2 ((List.filter_sublist.map _).nodup (hb.nodup_assets hdistinct))

theorem nodup_again (h : SpendsHits b c candidates once again) (hb : b.Indexed)
    (hdistinct : candidates.Nodup) : again.Nodup :=
  h.again_perm.nodup_iff.2 ((List.filter_sublist.map _).nodup (hb.nodup_assets hdistinct))

end SpendsHits

/-- In a sequence that lists everybody once and then some again, nobody comes a second time before
everybody has come. -/
theorem again_of_reached {once again first : List PieceId} {u : PieceId} (honce : once.Nodup)
    (hreached : first ++ [u] <+: once ++ again) (hu : u ∈ first) : once <+: first ∧ u ∈ again := by
  have hall : once <+: once ++ again := List.prefix_append _ _
  have hlong : once.length ≤ first.length := by
    by_contra hshort
    have hlen : (first ++ [u]).length ≤ once.length := by
      rw [List.length_append, List.length_singleton]
      omega
    have hinside := List.prefix_of_prefix_length_le hreached hall hlen
    have hnodup := hinside.sublist.nodup honce
    exact (List.disjoint_of_nodup_append hnodup) hu (List.mem_singleton_self u)
  have hfirst : once <+: first :=
    List.prefix_of_prefix_length_le hall ((List.prefix_append first [u]).trans hreached) hlong
  refine ⟨hfirst, ?_⟩
  obtain ⟨rest, rfl⟩ := hfirst
  rw [List.append_assoc, List.prefix_append_right_inj] at hreached
  exact hreached.subset (by simp)

/-- More hits add to the list of losses, and nobody is listed again before everybody else is listed
who ever will be. -/
theorem selectCasualties_extends {b : Board} (hb : b.Indexed) (c : Context)
    {candidates : List PieceId} (hdistinct : candidates.Nodup) :
    (∀ n, toll? b c candidates n = some (selectCasualties b c candidates n)) ∧
    (∀ n m, n ≤ m → selectCasualties b c candidates n <+: selectCasualties b c candidates m) ∧
    ∀ n, (selectCasualties b c candidates n).length ≤ n ∧
      (∀ u ∈ selectCasualties b c candidates n, u ∈ candidates) ∧
      (∀ u, (selectCasualties b c candidates n).count u ≤ 2) ∧
      ∀ first u, first ++ [u] <+: selectCasualties b c candidates n → u ∈ first →
        (∃ a, b.asset? u = some a ∧ a.hasSpareHit = true) ∧
        ∀ m, ∀ v ∈ selectCasualties b c candidates m, v ∈ first := by
  obtain ⟨once, again, hspends⟩ := exists_spendsHits b c candidates
  have honce := hspends.nodup_once hb hdistinct
  have hagain := hspends.nodup_again hb hdistinct
  refine ⟨toll?_eq b c candidates, fun n m hle => ?_, fun n => ⟨?_, ?_, ?_, ?_⟩⟩
  · rw [hspends.taken, hspends.taken]
    exact List.take_prefix_take_left hle
  · rw [hspends.taken]
    exact List.length_take_le _ _
  · intro u hu
    exact ((hspends.mem_once hb).1 (hspends.mem_once_of_listed hb hu)).1
  · intro u
    have hlisted := (List.take_sublist n (once ++ again)).count_le u
    have hfirst := List.nodup_iff_count_le_one.1 honce u
    have hsecond := List.nodup_iff_count_le_one.1 hagain u
    rw [List.count_append] at hlisted
    rw [hspends.taken]
    omega
  · intro first u hreached hu
    rw [hspends.taken] at hreached
    -- a second listing is past the first ones, so all of these are listed by then
    have hinside := List.take_prefix n (once ++ again)
    obtain ⟨hall, hmem⟩ := again_of_reached honce (hreached.trans hinside) hu
    obtain ⟨-, a, ha, hspare⟩ := (hspends.mem_again hb).1 hmem
    exact ⟨⟨a, ha, hspare⟩,
      fun m v hv => hall.subset (hspends.mem_once_of_listed hb hv)⟩

namespace Scenario

/-- A fleet of Red: ships that one, two and three hits destroy, a plain and a sturdy transport. -/
def flotilla (transportsCanDie : Bool) : Scenario where
  rules := { transportsCanDie }
  players := [{ name := "Red", team := 0 }]
  territories := [{ name := "Home", owner := some "Red" }, { name := "Sound", water := true }]
  connections := [("Home", "Sound")]
  kinds := [
    { name := "destroyer", domain := .sea, attack := 2, defense := 2, movement := 2, cost := 8 },
    { name := "transport", domain := .sea, defense := 1, movement := 2, cost := 7,
      transportCapacity := 5 },
    { name := "battleship", domain := .sea, attack := 4, defense := 4, movement := 2, cost := 20,
      hitPoints := 2 },
    { name := "troopship", domain := .sea, defense := 1, movement := 2, cost := 9,
      transportCapacity := 5, hitPoints := 2 },
    { name := "ironclad", domain := .sea, attack := 4, defense := 5, movement := 2, cost := 24,
      hitPoints := 3 }]
  pieces := [
    { kind := "destroyer", owner := "Red", place := "Sound" },
    { kind := "transport", owner := "Red", place := "Sound" },
    { kind := "battleship", owner := "Red", place := "Sound" },
    { kind := "troopship", owner := "Red", place := "Sound" },
    { kind := "ironclad", owner := "Red", place := "Sound" }]

set_option maxRecDepth 100000 in
/-- Six hits damage three ships, sink the transport and the destroyer, and sink the troopship, which
is not listed again before everybody is listed. -/
theorem selectCasualties_extends_flotilla : ∃ h, (flotilla true).setUp = .ok h ∧
    h.board.Indexed ∧ [0, 1, 2, 3, 4].Nodup ∧
    selectCasualties h.board (.build h.board 0 {}) [0, 1, 2, 3, 4] 6 = [3, 2, 4, 1, 0, 3] ∧
    selectCasualties h.board (.build h.board 0 {}) [0, 1, 2, 3, 4] 4 <+: [3, 2, 4, 1, 0, 3] ∧
    ∀ m, ∀ v ∈ selectCasualties h.board (.build h.board 0 {}) [0, 1, 2, 3, 4] m,
      v ∈ [3, 2, 4, 1, 0] := by
  have hpass : ((flotilla true).setUp.toOption.any fun h =>
      decide (selectCasualties h.board (.build h.board 0 {}) [0, 1, 2, 3, 4] 6 =
        [3, 2, 4, 1, 0, 3])) = true := by
    decide +kernel
  obtain ⟨h, hset, hcheck⟩ := exists_setUp hpass
  have hsix := of_decide_eq_true hcheck
  have hb := (setUp_sound hset).indexed
  obtain ⟨-, hmore, hlists⟩ :=
    selectCasualties_extends hb (.build h.board 0 {}) (by decide : [0, 1, 2, 3, 4].Nodup)
  obtain ⟨-, -, -, hagain⟩ := hlists 6
  rw [hsix] at hagain
  refine ⟨h, hset, hb, by decide, hsix, ?_, ?_⟩
  · rw [← hsix]
    exact hmore 4 6 (by decide)
  · exact (hagain [3, 2, 4, 1, 0] 3 (List.prefix_refl _) (by decide)).2

end Scenario

/-- Protected transports are lost only if they survive a hit, and then always once there are as many
hits as candidates. -/
theorem selectCasualties_transport {b : Board} (hb : b.Indexed) {c : Context}
    (hprotected : c.rules.transportsCanDie = false) (candidates : List PieceId) :
    (∀ n, ∀ u ∈ selectCasualties b c candidates n, ∃ a, b.asset? u = some a ∧
      (a.kind.isTransport = true → a.hasSpareHit = true)) ∧
    ∀ u ∈ candidates, ∀ a, b.asset? u = some a → a.kind.isTransport = true →
      a.hasSpareHit = true → ∀ n, candidates.length ≤ n → u ∈ selectCasualties b c candidates n := by
  obtain ⟨once, again, hspends⟩ := exists_spendsHits b c candidates
  refine ⟨fun n u hu => ?_, fun u hu a ha _ hspare n hn => ?_⟩
  · obtain ⟨-, a, ha, hhit⟩ := (hspends.mem_once hb).1 (hspends.mem_once_of_listed hb hu)
    refine ⟨a, ha, fun htransport => ?_⟩
    unfold Context.mayChoose at hhit
    rw [hprotected, htransport] at hhit
    exact hhit
  · have hmem : u ∈ once := (hspends.mem_once hb).2 ⟨hu, a, ha, by rw [hspare, Bool.or_true]⟩
    -- with a hit for every candidate the first hits are all dealt
    have hlen : once.length ≤ n := by
      have hassets : (candidates.filterMap b.asset?).length ≤ candidates.length :=
        List.length_filterMap_le _ _
      have hhit := List.length_filter_le (fun a => c.mayChoose a || a.hasSpareHit)
        (candidates.filterMap b.asset?)
      rw [hspends.once_perm.length_eq, List.length_map]
      omega
    rw [hspends.taken, List.take_append, List.take_of_length_le hlen]
    exact List.mem_append_left _ hmem

namespace Scenario

set_option maxRecDepth 100000 in
/-- Of two protected transports the sturdy one is lost and the plain one is spared. -/
theorem selectCasualties_transport_flotilla : ∃ h, (flotilla false).setUp = .ok h ∧
    h.board.Indexed ∧ (Context.build h.board 0 {}).rules.transportsCanDie = false ∧
    (∀ n, 1 ∉ selectCasualties h.board (.build h.board 0 {}) [0, 1, 2, 3, 4] n) ∧
    3 ∈ selectCasualties h.board (.build h.board 0 {}) [0, 1, 2, 3, 4] 5 := by
  have hpass : ((flotilla false).setUp.toOption.any fun h =>
      !h.board.rules.transportsCanDie
        && (h.board.asset? 1).any (fun a => a.kind.isTransport && !a.hasSpareHit)
        && (h.board.asset? 3).any (fun a => a.kind.isTransport && a.hasSpareHit)) = true := by
    decide +kernel
  obtain ⟨h, hset, hcheck⟩ := exists_setUp hpass
  rw [Bool.and_eq_true, Bool.and_eq_true, Bool.not_eq_true', Option.any_eq_true,
    Option.any_eq_true] at hcheck
  obtain ⟨⟨hprotected, a, ha, hplain⟩, s, hs, hsturdy⟩ := hcheck
  rw [Bool.and_eq_true, Bool.not_eq_true'] at hplain
  rw [Bool.and_eq_true] at hsturdy
  have hb := (setUp_sound hset).indexed
  obtain ⟨hspared, hlost⟩ := @selectCasualties_transport h.board hb (.build h.board 0 {})
    hprotected [0, 1, 2, 3, 4]
  refine ⟨h, hset, hb, hprotected, fun n hn => ?_, ?_⟩
  · obtain ⟨a', ha', hspare⟩ := hspared n 1 hn
    rw [ha] at ha'
    cases ha'
    rw [hspare hplain.1] at hplain
    cases hplain.2
  · exact hlost 3 (by decide) s hs hsturdy.1 hsturdy.2 5 (by decide)

set_option maxRecDepth 100000 in
/-- A transport that survives a hit is listed although the rules protect it. -/
theorem transport_not_spared : ∃ h, (flotilla false).setUp = .ok h ∧
    (Context.build h.board 0 {}).rules.transportsCanDie = false ∧
    (h.board.asset? 3).any (·.kind.isTransport) = true ∧
    selectCasualties h.board (.build h.board 0 {}) [3] 1 = [3] := by
  have hpass : ((flotilla false).setUp.toOption.any fun h =>
      decide ((Context.build h.board 0 {}).rules.transportsCanDie = false ∧
        (h.board.asset? 3).any (·.kind.isTransport) = true ∧
        selectCasualties h.board (.build h.board 0 {}) [3] 1 = [3])) = true := by
    decide +kernel
  obtain ⟨h, hset, hcheck⟩ := exists_setUp hpass
  exact ⟨h, hset, of_decide_eq_true hcheck⟩

end Scenario

/-- Candidates that stand take as many hits as there are, but each at most two of those that would
destroy it; the protected transports among them take two or none. -/
theorem length_selectCasualties {b : Board} (hb : b.Indexed) (c : Context)
    {candidates : List PieceId} (hdistinct : candidates.Nodup)
    (hhits : ∀ u ∈ candidates, ∀ a, b.asset? u = some a → a.piece.hits < a.kind.hitPoints)
    (count : Nat) :
    (∀ u a, b.asset? u = some a →
      (selectCasualties b c candidates count).count u ≤ a.endurance) ∧
    (selectCasualties b c candidates count).length =
      min count (((candidates.filterMap b.asset?).map c.listings).sum) ∧
    ((∀ a ∈ candidates.filterMap b.asset?,
        if c.mayChoose a then a.endurance ≤ 2 else a.hasSpareHit = false) →
      (selectCasualties b c candidates count).length =
        min count ((((candidates.filterMap b.asset?).filter c.mayChoose).map
          Asset.endurance).sum)) := by
  obtain ⟨once, again, hspends⟩ := exists_spendsHits b c candidates
  have hassets : ∀ a ∈ candidates.filterMap b.asset?, a.piece.hits < a.kind.hitPoints := by
    intro a ha
    obtain ⟨u, hu, hasset⟩ := List.mem_filterMap.1 ha
    exact hhits u hu a hasset
  have hlength : (selectCasualties b c candidates count).length =
      min count (((candidates.filterMap b.asset?).map c.listings).sum) := by
    rw [hspends.taken, List.length_take, List.length_append, hspends.once_perm.length_eq,
      hspends.again_perm.length_eq, List.length_map, List.length_map,
      Context.sum_listings hassets]
  refine ⟨fun u a ha => ?_, hlength, fun hplain => ?_⟩
  · by_cases hu : u ∈ candidates
    · have hstands := hhits u hu a ha
      have hlisted := (List.take_sublist count (once ++ again)).count_le u
      have hfirst := List.nodup_iff_count_le_one.1 (hspends.nodup_once hb hdistinct) u
      rw [List.count_append] at hlisted
      rw [hspends.taken]
      unfold Asset.endurance
      by_cases hspare : a.hasSpareHit = true
      · have hsecond := List.nodup_iff_count_le_one.1 (hspends.nodup_again hb hdistinct) u
        have htwo := (Asset.hasSpareHit_iff hstands).1 hspare
        omega
      · -- without a spare hit it is not listed again
        have hnone : again.count u = 0 := by
          refine List.count_eq_zero.2 fun hagain => ?_
          obtain ⟨-, a', ha', hspare'⟩ := (hspends.mem_again hb).1 hagain
          rw [ha] at ha'
          cases ha'
          exact hspare hspare'
        omega
    · -- what is no candidate is not listed at all
      have hnone : (selectCasualties b c candidates count).count u = 0 :=
        List.count_eq_zero.2 fun hlisted =>
          hu ((hspends.mem_once hb).1 (hspends.mem_once_of_listed hb hlisted)).1
      omega
  · rw [hlength, Context.sum_listings_of_plain hplain]

namespace Scenario

set_option maxRecDepth 100000 in
/-- The five ships take eight hits at most; without the ironclad and the transports it is three, as
many as it takes to sink them. -/
theorem length_selectCasualties_flotilla : ∃ h, (flotilla true).setUp = .ok h ∧
    h.board.Indexed ∧ [0, 1, 2, 3, 4].Nodup ∧ [0, 2].Nodup ∧
    (∀ u ∈ [0, 1, 2, 3, 4], ∀ a, h.board.asset? u = some a → a.piece.hits < a.kind.hitPoints) ∧
    (selectCasualties h.board (.build h.board 0 {}) [0, 1, 2, 3, 4] 100).length = 8 ∧
    (selectCasualties h.board (.build h.board 0 {}) [0, 2] 100).length = 3 := by
  have hpass : ((flotilla true).setUp.toOption.any fun h =>
      let c := Context.build h.board 0 {}
      let fleet := [0, 1, 2, 3, 4].filterMap h.board.asset?
      let pair := [0, 2].filterMap h.board.asset?
      fleet.all (fun a => decide (a.piece.hits < a.kind.hitPoints))
        && pair.all (fun a => decide (if c.mayChoose a then a.endurance ≤ 2
          else a.hasSpareHit = false))
        && decide (fleet.map c.listings = [1, 1, 2, 2, 2])
        && decide ((pair.filter c.mayChoose).map Asset.endurance = [1, 2])) = true := by
    decide +kernel
  obtain ⟨h, hset, hcheck⟩ := exists_setUp hpass
  simp only [Bool.and_eq_true, List.all_eq_true, decide_eq_true_eq] at hcheck
  obtain ⟨⟨⟨hstand, hplain⟩, hlistings⟩, hendurance⟩ := hcheck
  have hb := (setUp_sound hset).indexed
  have hhits : ∀ u ∈ [0, 1, 2, 3, 4], ∀ a, h.board.asset? u = some a →
      a.piece.hits < a.kind.hitPoints := by
    intro u hu a ha
    exact hstand a (List.mem_filterMap.2 ⟨u, hu, ha⟩)
  have hpairs : ∀ u ∈ [0, 2], ∀ a, h.board.asset? u = some a →
      a.piece.hits < a.kind.hitPoints := by
    intro u hu
    refine hhits u ?_
    revert u
    decide
  obtain ⟨-, hfleet, -⟩ := length_selectCasualties hb (.build h.board 0 {})
    (by decide : [0, 1, 2, 3, 4].Nodup) hhits 100
  obtain ⟨-, -, hpair⟩ := length_selectCasualties hb (.build h.board 0 {})
    (by decide : [0, 2].Nodup) hpairs 100
  refine ⟨h, hset, hb, by decide, by decide, hhits, ?_, ?_⟩
  · rw [hfleet, hlistings]
    rfl
  · rw [hpair hplain, hendurance]
    rfl

set_option maxRecDepth 100000 in
/-- A ship that three hits destroy takes only two of three. -/
theorem ironclad_not_sunk : ∃ h, (flotilla true).setUp = .ok h ∧
    ([4].filterMap h.board.asset?).map Asset.endurance = [3] ∧
    ([4].filterMap h.board.asset?).map (Context.build h.board 0 {}).mayChoose = [true] ∧
    selectCasualties h.board (.build h.board 0 {}) [4] 3 = [4, 4] := by
  have hpass : ((flotilla true).setUp.toOption.any fun h =>
      decide (([4].filterMap h.board.asset?).map Asset.endurance = [3] ∧
        ([4].filterMap h.board.asset?).map (Context.build h.board 0 {}).mayChoose = [true] ∧
        selectCasualties h.board (.build h.board 0 {}) [4] 3 = [4, 4])) = true := by
    decide +kernel
  obtain ⟨h, hset, hcheck⟩ := exists_setUp hpass
  exact ⟨h, hset, of_decide_eq_true hcheck⟩

end Scenario

end Conquest
