import Conquest.Deployment
import Conquest.Proofs.Choice
import Conquest.Proofs.Standing
import Conquest.Proofs.Sums
import Conquest.Proofs.Tallies

/-!
# Where a purchase is to be placed

Every piece of a purchase takes a place at a yard, and its site is the factory of the yard or, for a
ship, a sea zone next to it. The plan keeps count of the places, and so do the statements here: what
is placed at a yard and the room left at it make up the room that it had.

* `Yard.take?_spec`, `Yard.fill_room`: one place, and the places of a whole list.
* `Context.mem_yardOrder`, `Context.nodup_yardOrder`: the factories that come into question.
* `mem_planPlacements`, `sum_count`: what the placements of a plan are made of.
* `Board.Sound.of_mem_ashore`, `Board.Sound.of_mem_afloat`: the yard of every piece that is placed.
* `Board.Sound.countP_sites_le`: what is placed at a yard fits in it.
-/

namespace Conquest

/-! ## Yards -/

namespace Yard

variable {site? : TerritoryId → Option TerritoryId} {site f : TerritoryId} {yards left : List Yard}

/-- The room at a factory. -/
def roomOf (yards : List Yard) (f : TerritoryId) : Nat :=
  ((yards.filter (·.factory == f)).map (·.room)).sum

theorem roomOf_cons (y : Yard) (rest : List Yard) (f : TerritoryId) :
    roomOf (y :: rest) f = (if y.factory = f then y.room else 0) + roomOf rest f := by
  unfold roomOf
  by_cases hy : y.factory = f
  · simp [hy]
  · simp [hy]

/-- A yard for each factory of a list has the room that it was given. -/
theorem roomOf_map (capacity : TerritoryId → Nat) {order : List TerritoryId} (horder : order.Nodup)
    (f : TerritoryId) :
    roomOf (order.map fun f => ⟨f, capacity f⟩) f = if f ∈ order then capacity f else 0 := by
  induction order with
  | nil => rfl
  | cons g rest ih =>
    obtain ⟨hg, hrest⟩ := List.nodup_cons.1 horder
    rw [List.map_cons, roomOf_cons, ih hrest]
    by_cases hgf : g = f
    · subst hgf
      simp [hg]
    · simp [hgf, Ne.symm hgf]

/-- A place is taken at a yard with room that has the site. -/
theorem take?_spec (h : Yard.take? site? yards = some (site, left)) :
    ∃ f, 0 < roomOf yards f ∧ site? f = some site ∧
      ∀ g, roomOf yards g = roomOf left g + if g = f then 1 else 0 := by
  induction yards generalizing left with
  | nil => cases h
  | cons y rest ih =>
    unfold Yard.take? at h
    cases hsite : (if y.room = 0 then none else site? y.factory) with
    | some s =>
      rw [hsite] at h
      cases h
      -- the first yard has room and the site
      have hroom : y.room ≠ 0 := by
        intro hzero
        rw [if_pos hzero] at hsite
        cases hsite
      rw [if_neg hroom] at hsite
      refine ⟨y.factory, ?_, hsite, ?_⟩
      · rw [roomOf_cons, if_pos rfl]
        omega
      · intro g
        rw [roomOf_cons, roomOf_cons]
        show _ = (if y.factory = g then y.room - 1 else 0) + roomOf rest g + _
        by_cases hg : y.factory = g
        · rw [if_pos hg, if_pos hg, if_pos hg.symm]
          omega
        · rw [if_neg hg, if_neg hg, if_neg (Ne.symm hg)]
          omega
    | none =>
      rw [hsite, Option.map_eq_some_iff] at h
      obtain ⟨⟨s, left'⟩, htake, heq⟩ := h
      cases heq
      -- or a later yard has, and the first one stays as it is
      obtain ⟨f, hroom, hf, htaken⟩ := ih htake
      refine ⟨f, ?_, hf, ?_⟩
      · rw [roomOf_cons]
        omega
      · intro g
        rw [roomOf_cons, roomOf_cons, htaken]
        omega

/-- The pieces that find a place come first, in order. -/
theorem fill_kinds (site? : TerritoryId → Option TerritoryId) (kinds : List KindId)
    (yards : List Yard) : ((Yard.fill site? kinds yards).1.map (·.2)) <+: kinds := by
  induction kinds generalizing yards with
  | nil => exact List.prefix_rfl
  | cons k rest ih =>
    unfold Yard.fill
    cases htake : Yard.take? site? yards with
    | none => exact List.nil_prefix
    | some taken => exact (List.prefix_cons_inj k).2 (ih taken.2)

/-- Room is only taken. -/
theorem fill_room_le (site? : TerritoryId → Option TerritoryId) (kinds : List KindId)
    (yards : List Yard) (g : TerritoryId) :
    roomOf (Yard.fill site? kinds yards).2 g ≤ roomOf yards g := by
  induction kinds generalizing yards with
  | nil => exact Nat.le_refl _
  | cons k rest ih =>
    unfold Yard.fill
    cases htake : Yard.take? site? yards with
    | none => exact Nat.le_refl _
    | some taken =>
      obtain ⟨f, -, -, htaken⟩ := take?_spec htake
      have hrest := ih taken.2
      have hfirst := htaken g
      simp only
      omega

/-- Every site belongs to a yard that had room. -/
theorem fill_site {kinds : List KindId} {e : TerritoryId × KindId}
    (he : e ∈ (Yard.fill site? kinds yards).1) : ∃ f, 0 < roomOf yards f ∧ site? f = some e.1 := by
  induction kinds generalizing yards with
  | nil => cases he
  | cons k rest ih =>
    unfold Yard.fill at he
    cases htake : Yard.take? site? yards with
    | none =>
      rw [htake] at he
      cases he
    | some taken =>
      rw [htake] at he
      obtain ⟨f, hroom, hf, htaken⟩ := take?_spec htake
      rcases List.mem_cons.1 he with rfl | he
      · exact ⟨f, hroom, hf⟩
      · obtain ⟨g, hgroom, hg⟩ := ih he
        have hsame := htaken g
        exact ⟨g, by omega, hg⟩

/-- What is placed at a yard and the room left there make up the room there was, if it is known from
every site which yard it belongs to. -/
theorem fill_room {kinds : List KindId} {source : TerritoryId → TerritoryId}
    (hsource : ∀ e ∈ (Yard.fill site? kinds yards).1, ∀ f, 0 < roomOf yards f →
      site? f = some e.1 → source e.1 = f) (g : TerritoryId) :
    (Yard.fill site? kinds yards).1.countP (fun e => source e.1 == g) +
      roomOf (Yard.fill site? kinds yards).2 g = roomOf yards g := by
  induction kinds generalizing yards with
  | nil =>
    unfold Yard.fill
    simp
  | cons k rest ih =>
    unfold Yard.fill at hsource ⊢
    cases htake : Yard.take? site? yards with
    | none => simp
    | some taken =>
      rw [htake] at hsource
      obtain ⟨f, hroom, hf, htaken⟩ := take?_spec htake
      -- the yard of the first site is known, and it is the one that was charged
      have hfirst : source taken.1 = f := hsource _ List.mem_cons_self f hroom hf
      have hothers : ∀ e ∈ (Yard.fill site? rest taken.2).1, ∀ f, 0 < roomOf taken.2 f →
          site? f = some e.1 → source e.1 = f := by
        intro e he g hg hsite
        have hsame := htaken g
        exact hsource e (List.mem_cons_of_mem _ he) g (by omega) hsite
      have hrest := ih hothers
      simp only [List.countP_cons, hfirst, beq_iff_eq, htaken g]
      by_cases hfg : g = f
      · rw [if_pos hfg.symm, if_pos hfg]
        omega
      · rw [if_neg (Ne.symm hfg), if_neg hfg]
        omega

end Yard

namespace Context

variable {c : Context} {b : Board} {t : TerritoryId}

/-- New pieces may go to friendly factories that were not captured this turn. -/
theorem mem_yardOrder : t ∈ c.yardOrder b ↔
    t ∈ c.factories ∧ b.isFriendlyLand t c.player = true ∧ b.isConquered t = false := by
  have hbest : ∀ x, x ∈ c.bestFirst b
      (c.factories.filter fun f => b.isFriendlyLand f c.player && !b.isConquered f) .defend ↔
      x ∈ c.factories ∧ b.isFriendlyLand x c.player = true ∧ b.isConquered x = false := by
    intro x
    rw [(c.bestFirst_perm b _ _).mem_iff, List.mem_filter]
    simp
  unfold yardOrder
  simp only
  split
  · -- the capital comes first, but it is one of them
    rename_i capital hcapital
    obtain ⟨-, hcond⟩ := Option.filter_eq_some_iff.1 hcapital
    rw [Bool.and_eq_true, List.contains_iff_mem] at hcond
    rw [List.mem_cons, List.mem_filter, ← hbest]
    by_cases ht : t = capital
    · simp [ht, hcond.2]
    · simp [ht]
  · exact hbest t

theorem nodup_yardOrder (h : c.factories.Nodup) : (c.yardOrder b).Nodup := by
  have hbest := (c.bestFirst_perm b
    (c.factories.filter fun f => b.isFriendlyLand f c.player && !b.isConquered f)
    .defend).nodup_iff.2 (h.filter _)
  unfold yardOrder
  simp only
  split
  · rw [List.nodup_cons]
    exact ⟨by simp, hbest.filter _⟩
  · exact hbest

/-- A harbor is water next to its factory. -/
theorem harbor?_mem {f z : TerritoryId} (h : c.harbor? b f = some z) : z ∈ b.atlas.shores f := by
  unfold harbor? at h
  obtain ⟨⟨threat, z'⟩, hfirst, rfl⟩ := Option.map_eq_some_iff.1 h
  obtain ⟨z, hz, heq⟩ := List.mem_map.1 (mem_of_firstLeast? hfirst)
  cases heq
  exact (List.mem_filter.1 hz).1

end Context

/-! ## The plan -/

section Plan

variable (b : Board) (capacity : TerritoryId → Nat) (c : Context) (bought : Tally)

/-- The yards that a purchase is placed at. -/
def yardsFor : List Yard := (c.yardOrder b).map fun f => ⟨f, capacity f⟩

/-- The sites of land pieces and aircraft, and the yards after them. -/
def ashore : List (TerritoryId × KindId) × List Yard :=
  Yard.fill some (bought.toKinds.filter fun k => !(b.kind k).isSea) (yardsFor b capacity c)

/-- The sites of ships, and the yards after them. -/
def afloat : List (TerritoryId × KindId) × List Yard :=
  Yard.fill (c.harbor? b) (bought.toKinds.filter fun k => (b.kind k).isSea)
    (ashore b capacity c bought).2

/-- The sites of all pieces that find one. -/
def sites : List (TerritoryId × KindId) :=
  (ashore b capacity c bought).1 ++ (afloat b capacity c bought).1

theorem planPlacements_eq : planPlacements b capacity c bought =
    (groupByKey (·.1) (sites b capacity c bought)).map fun g => ⟨g.1, g.2.map (·.2)⟩ := by
  unfold planPlacements sites afloat ashore yardsFor
  rw [List.partition_eq_filter_filter]
  rfl

/-- A placement is all that has a site in its territory. -/
theorem mem_planPlacements {x : Placement} (hx : x ∈ planPlacements b capacity c bought) :
    x.territory ∈ (sites b capacity c bought).map (·.1) ∧
      x.kinds = ((sites b capacity c bought).filter (·.1 == x.territory)).map (·.2) := by
  rw [planPlacements_eq, List.mem_map] at hx
  obtain ⟨g, hg, rfl⟩ := hx
  obtain ⟨hkey, hgroup⟩ := mem_groupByKey.1 hg
  refine ⟨hkey, ?_⟩
  show g.2.map (·.2) = _
  rw [hgroup]

/-- There is a placement for every site. -/
theorem exists_mem_planPlacements {e : TerritoryId × KindId}
    (he : e ∈ sites b capacity c bought) :
    ∃ x ∈ planPlacements b capacity c bought, x.territory = e.1 := by
  rw [planPlacements_eq]
  have hgroup : (e.1, (sites b capacity c bought).filter (·.1 == e.1)) ∈
      groupByKey (·.1) (sites b capacity c bought) :=
    mem_groupByKey.2 ⟨List.mem_map_of_mem he, rfl⟩
  exact ⟨_, List.mem_map_of_mem hgroup, rfl⟩

theorem nodup_territories_planPlacements :
    ((planPlacements b capacity c bought).map (·.territory)).Nodup := by
  rw [planPlacements_eq, List.map_map]
  exact nodup_keys_groupByKey (·.1) (sites b capacity c bought)

/-- Nothing is placed that was not bought. -/
theorem count_sites_le (k : KindId) :
    ((sites b capacity c bought).map (·.2)).count k ≤ bought.count k := by
  have hashore := (Yard.fill_kinds some (bought.toKinds.filter fun k => !(b.kind k).isSea)
    (yardsFor b capacity c)).sublist.count_le k
  have hafloat := (Yard.fill_kinds (c.harbor? b)
    (bought.toKinds.filter fun k => (b.kind k).isSea)
    (ashore b capacity c bought).2).sublist.count_le k
  have hsplit := (List.filter_append_perm (fun k => (b.kind k).isSea) bought.toKinds).count_eq k
  rw [List.count_append, Tally.count_toKinds] at hsplit
  unfold sites
  rw [List.map_append, List.count_append]
  unfold ashore at hafloat ⊢
  unfold afloat
  unfold ashore
  omega

/-- The placements have of every sort what the sites have of it. -/
theorem sum_planPlacements (P : TerritoryId × KindId → Bool) :
    ((planPlacements b capacity c bought).map fun x =>
      ((sites b capacity c bought).filter (·.1 == x.territory)).countP P).sum =
      (sites b capacity c bought).countP P := by
  have hsum := sum_countP P (sites b capacity c bought)
    (nodup_territories_planPlacements b capacity c bought)
  rw [List.map_map] at hsum
  rw [Function.comp_def] at hsum
  rw [hsum]
  apply List.countP_congr
  intro e he
  -- every site has its placement
  obtain ⟨x, hx, hterritory⟩ := exists_mem_planPlacements b capacity c bought he
  have hmem : ((planPlacements b capacity c bought).map (·.territory)).contains e.1 = true := by
    rw [List.contains_iff_mem, ← hterritory]
    exact List.mem_map_of_mem hx
  rw [hmem, Bool.and_true]

/-- The placements together place what has a site. -/
theorem sum_count (k : KindId) :
    ((planPlacements b capacity c bought).map fun x => x.kinds.count k).sum =
      ((sites b capacity c bought).map (·.2)).count k := by
  have hcount : ∀ x ∈ planPlacements b capacity c bought, x.kinds.count k =
      ((sites b capacity c bought).filter (·.1 == x.territory)).countP (·.2 == k) := by
    intro x hx
    rw [(mem_planPlacements b capacity c bought hx).2, List.count, List.countP_map]
    rfl
  rw [List.map_congr_left hcount, sum_planPlacements, List.count, List.countP_map]
  rfl

/-- All placements together place nothing that was not bought. -/
theorem sum_count_le (k : KindId) :
    ((planPlacements b capacity c bought).map fun x => x.kinds.count k).sum ≤
      bought.count k := by
  rw [sum_count]
  exact count_sites_le b capacity c bought k

end Plan

namespace Board

variable {b : Board} {c : Context} {bought : Tally} {capacity : TerritoryId → Nat}

theorem Sound.nodup_factoriesOf (hb : b.Sound) (p : PlayerId) : (b.factoriesOf p).Nodup :=
  Atlas.nodup_map_id_filter hb.atlas _

/-- A factory that new pieces may go to: the player's, on land, and not captured this turn. -/
structure IsYard (b : Board) (p : PlayerId) (f : TerritoryId) : Prop where
  owner : (b.territory f).owner = some p
  factory : (b.territory f).hasFactory = true
  held : b.isConquered f = false
  dry : b.atlas.isWater f = false

theorem Sound.isYard_of_mem (hb : b.Sound) {f : TerritoryId}
    (hf : f ∈ (c.refresh b).yardOrder b) : b.IsYard c.player f := by
  obtain ⟨hmem, hfriendly, hheld⟩ := Context.mem_yardOrder.1 hf
  obtain ⟨howner, hfactory⟩ := (mem_factoriesOf hb.atlas).1 hmem
  unfold isFriendlyLand at hfriendly
  rw [Bool.and_eq_true] at hfriendly
  exact ⟨howner, hfactory, hheld, Territory.dry_of_isPassableLand hfriendly.1⟩

theorem Sound.roomOf_yardsFor (hb : b.Sound) (f : TerritoryId) :
    Yard.roomOf (yardsFor b capacity (c.refresh b)) f =
      if f ∈ (c.refresh b).yardOrder b then capacity f else 0 :=
  Yard.roomOf_map capacity (Context.nodup_yardOrder (hb.nodup_factoriesOf c.player)) f

theorem Sound.mem_yardOrder_of_roomOf (hb : b.Sound) {f : TerritoryId}
    (hroom : 0 < Yard.roomOf (yardsFor b capacity (c.refresh b)) f) :
    f ∈ (c.refresh b).yardOrder b ∧ 0 < capacity f := by
  rw [hb.roomOf_yardsFor] at hroom
  split at hroom
  · rename_i hf
    exact ⟨hf, hroom⟩
  · cases hroom

theorem Sound.isYard_of_roomOf (hb : b.Sound) {f : TerritoryId}
    (hroom : 0 < Yard.roomOf (yardsFor b capacity (c.refresh b)) f) :
    b.IsYard c.player f ∧ 0 < capacity f := by
  obtain ⟨hf, hcapacity⟩ := hb.mem_yardOrder_of_roomOf hroom
  exact ⟨hb.isYard_of_mem hf, hcapacity⟩

/-- A site ashore is a yard with room, and no ship goes there. -/
theorem Sound.of_mem_ashore (hb : b.Sound) {e : TerritoryId × KindId}
    (he : e ∈ (ashore b capacity (c.refresh b) bought).1) :
    (b.IsYard c.player e.1 ∧ 0 < capacity e.1) ∧ (b.kind e.2).isSea = false := by
  constructor
  · obtain ⟨f, hroom, hsite⟩ := Yard.fill_site he
    cases hsite
    exact hb.isYard_of_roomOf hroom
  · have hmem := (Yard.fill_kinds some _ _).subset (List.mem_map_of_mem (f := (·.2)) he)
    simpa using (List.mem_filter.1 hmem).2

/-- A site afloat is the harbor of a yard with room, and ships go there. -/
theorem Sound.of_mem_afloat (hb : b.Sound) {e : TerritoryId × KindId}
    (he : e ∈ (afloat b capacity (c.refresh b) bought).1) :
    (∃ f, b.IsYard c.player f ∧ 0 < capacity f ∧ (c.refresh b).harbor? b f = some e.1) ∧
      b.atlas.isWater e.1 = true ∧ (b.kind e.2).isSea = true := by
  obtain ⟨f, hroom, hsite⟩ := Yard.fill_site he
  have hle := Yard.fill_room_le some (bought.toKinds.filter fun k => !(b.kind k).isSea)
    (yardsFor b capacity (c.refresh b)) f
  obtain ⟨hyard, hcapacity⟩ := hb.isYard_of_roomOf (Nat.lt_of_lt_of_le hroom hle)
  refine ⟨⟨f, hyard, hcapacity, hsite⟩, ?_, ?_⟩
  · exact (List.mem_filter.1 (Context.harbor?_mem hsite)).2
  · have hmem := (Yard.fill_kinds _ _ _).subset (List.mem_map_of_mem (f := (·.2)) he)
    exact (List.mem_filter.1 hmem).2

/-- Ships have their sites at sea, and nothing else has. -/
theorem Sound.isSea_of_mem_sites (hb : b.Sound) {e : TerritoryId × KindId}
    (he : e ∈ sites b capacity (c.refresh b) bought) :
    (b.kind e.2).isSea = b.atlas.isWater e.1 := by
  rcases List.mem_append.1 he with he | he
  · obtain ⟨⟨hyard, -⟩, hkind⟩ := hb.of_mem_ashore he
    rw [hkind, hyard.dry]
  · obtain ⟨-, hwater, hkind⟩ := hb.of_mem_afloat he
    rw [hkind, hwater]

/-- What is placed at a yard fits in it, if it is known from every site which yard it belongs to. -/
theorem Sound.countP_sites_le (hb : b.Sound) {source : TerritoryId → TerritoryId}
    (hashore : ∀ f, b.IsYard c.player f → source f = f)
    (hafloat : ∀ e ∈ sites b capacity (c.refresh b) bought, ∀ f, b.IsYard c.player f →
      0 < capacity f → b.atlas.isWater e.1 = true → (c.refresh b).harbor? b f = some e.1 →
      source e.1 = f) (g : TerritoryId) :
    (sites b capacity (c.refresh b) bought).countP (fun e => source e.1 == g) ≤ capacity g := by
  have hland : ∀ e ∈ (ashore b capacity (c.refresh b) bought).1, ∀ f,
      0 < Yard.roomOf (yardsFor b capacity (c.refresh b)) f → some f = some e.1 →
      source e.1 = f := by
    intro e _ f hroom hsite
    rw [← Option.some.inj hsite]
    exact hashore f (hb.isYard_of_roomOf hroom).1
  have hsea : ∀ e ∈ (afloat b capacity (c.refresh b) bought).1, ∀ f,
      0 < Yard.roomOf (ashore b capacity (c.refresh b) bought).2 f →
      (c.refresh b).harbor? b f = some e.1 → source e.1 = f := by
    intro e he f hroom hsite
    have hle := Yard.fill_room_le some (bought.toKinds.filter fun k => !(b.kind k).isSea)
      (yardsFor b capacity (c.refresh b)) f
    obtain ⟨hyard, hcapacity⟩ := hb.isYard_of_roomOf (Nat.lt_of_lt_of_le hroom hle)
    have hwater := (List.mem_filter.1 (Context.harbor?_mem hsite)).2
    exact hafloat e (List.mem_append_right _ he) f hyard hcapacity hwater hsite
  have hfirst := Yard.fill_room hland g
  -- the ships take what the others have left of the room
  have hlast := Yard.fill_room hsea g
  have hroom : Yard.roomOf (yardsFor b capacity (c.refresh b)) g ≤ capacity g := by
    rw [hb.roomOf_yardsFor]
    split
    · exact Nat.le_refl _
    · exact Nat.zero_le _
  unfold sites
  rw [List.countP_append]
  unfold afloat
  unfold ashore at hlast ⊢
  omega

/-- The placements at a yard fit in it, if it is known from every site which yard it belongs to. -/
theorem Sound.sum_length_le (hb : b.Sound) {source : TerritoryId → TerritoryId}
    (hashore : ∀ f, b.IsYard c.player f → source f = f)
    (hafloat : ∀ e ∈ sites b capacity (c.refresh b) bought, ∀ f, b.IsYard c.player f →
      0 < capacity f → b.atlas.isWater e.1 = true → (c.refresh b).harbor? b f = some e.1 →
      source e.1 = f) (f : TerritoryId) :
    ((planPlacements b capacity (c.refresh b) bought).map fun x =>
      if source x.territory = f then x.kinds.length else 0).sum ≤ capacity f := by
  have hlength : ∀ x ∈ planPlacements b capacity (c.refresh b) bought,
      (if source x.territory = f then x.kinds.length else 0) =
      ((sites b capacity (c.refresh b) bought).filter (·.1 == x.territory)).countP
        (fun e => source e.1 == f) := by
    intro x hx
    rw [(mem_planPlacements _ _ _ _ hx).2, List.length_map]
    -- all sites of one territory belong to the same yard
    by_cases hf : source x.territory = f
    · rw [if_pos hf, eq_comm, List.countP_eq_length]
      intro e he
      rw [beq_iff_eq.1 (List.mem_filter.1 he).2, hf]
      exact beq_self_eq_true f
    · rw [if_neg hf, eq_comm, List.countP_eq_zero]
      intro e he
      rw [beq_iff_eq.1 (List.mem_filter.1 he).2, beq_iff_eq]
      exact hf
  rw [List.map_congr_left hlength]
  rw [sum_planPlacements]
  exact hb.countP_sites_le hashore hafloat f

end Board

end Conquest
