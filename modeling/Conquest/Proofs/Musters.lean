import Conquest.Proofs.Choice
import Conquest.Threat.Muster

/-!
# Ignoring pieces is filtering

The roll of the attackers is written under a clerk's eyes: who is to be ignored is passed over, who
is on the roll is not entered again, and what boards a transport takes up room either way. So the
pieces that are ignored leave no trace but their absence: the roll is the roll of everybody without
them, in the same order.

* `distinctAssets_append_flatMap`: places that are gone through twice add nothing.
* `Muster.Records`: the roll after some offers; `Muster.Records.enter`: one more offer;
  `Muster.Records.foldl`: a loop over offers.
* `potentialAttackers_ignore`: the attackers with and without an ignored set.
-/

namespace Conquest

/-! ## Going through places twice -/

theorem mem_ids_distinctAssets {as : List Asset} {u : PieceId} :
    u ∈ (distinctAssets as).map (·.id) ↔ u ∈ as.map (·.id) := by
  show u ∈ (as.eraseDupsBy fun a b => a.id == b.id).map Asset.id ↔ _
  rw [map_eraseDupsBy, List.mem_eraseDups]

/-- Of a second list only those are kept whose id the first does not have. -/
theorem distinctAssets_append (as bs : List Asset) :
    distinctAssets (as ++ bs) =
      distinctAssets as ++ distinctAssets (bs.filter fun b => !(as.map (·.id)).contains b.id) :=
  eraseDupsBy_append Asset.id as bs

/-- What has nothing to add may be left out. -/
theorem flatMap_filter_ne {β : Type} {f : Nat → List β} {x : Nat} (hnone : f x = [])
    (xs : List Nat) : (xs.filter fun y => !y == x).flatMap f = xs.flatMap f := by
  induction xs with
  | nil => rfl
  | cons y ys ih =>
    by_cases hy : y = x
    · rw [hy, List.filter_cons_of_neg (by simp), ih, List.flatMap_cons, hnone, List.nil_append]
    · rw [List.filter_cons_of_pos (by simpa using hy), List.flatMap_cons, List.flatMap_cons, ih]

/-- Going through places once more adds nothing new. -/
theorem distinctAssets_append_flatMap (f : Nat → List Asset) (places : List Nat)
    (as : List Asset) :
    distinctAssets (as ++ places.flatMap f) =
      distinctAssets (as ++ places.eraseDups.flatMap f) := by
  induction places using filter_induction (fun x b : Nat => !b == x) generalizing as with
  | nil => rfl
  | cons x xs ih =>
    rw [List.eraseDups_cons, List.flatMap_cons, List.flatMap_cons, ← List.append_assoc,
      ← List.append_assoc, ← ih]
    -- of the places that are left, those that were gone through have nothing new
    rw [distinctAssets_append (as ++ f x), distinctAssets_append (as ++ f x), List.filter_flatMap,
      List.filter_flatMap, flatMap_filter_ne]
    rw [List.filter_eq_nil_iff]
    intro a ha
    have hmem : a.id ∈ (as ++ f x).map (·.id) :=
      List.mem_map_of_mem (List.mem_append_right as ha)
    rw [List.contains_iff_mem.2 hmem]
    exact Bool.false_ne_true

/-- What is kept of more depends on what was kept before alone. -/
theorem distinctAssets_append_congr {as as' : List Asset}
    (h : distinctAssets as = distinctAssets as') (bs : List Asset) :
    distinctAssets (as ++ bs) = distinctAssets (as' ++ bs) := by
  have hids : ∀ u, u ∈ as.map (·.id) ↔ u ∈ as'.map (·.id) := by
    intro u
    rw [← mem_ids_distinctAssets, h, mem_ids_distinctAssets]
  rw [distinctAssets_append, distinctAssets_append, h]
  congr 2
  apply List.filter_congr
  intro b _
  rw [Bool.eq_iff_iff, Bool.not_eq_true', Bool.not_eq_true', ← Bool.not_eq_true,
    ← Bool.not_eq_true, List.contains_iff_mem, List.contains_iff_mem, hids]

namespace Muster

variable {ignore : List PieceId} {b : Board} {attacker : PlayerId} {m : Muster}
  {offered : List Asset}

/-! ## Entries -/

/-- The roll after some assets were offered: those that are not ignored, each once. -/
structure Records (ignore : List PieceId) (m : Muster) (offered : List Asset) : Prop where
  roll : m.roll = distinctAssets (offered.filter fun a => !ignore.contains a.id)
  seen : ∀ u, u ∈ m.seen ↔ u ∈ m.roll.map (·.id)

theorem records_blank (ignore : List PieceId) : blank.Records ignore [] :=
  ⟨rfl, by simp [blank]⟩

/-- One more offer. -/
theorem Records.enter (h : m.Records ignore offered) (a : Asset) :
    (m.enter ignore a).Records ignore (offered ++ [a]) := by
  obtain ⟨hroll, hseen⟩ := h
  have hknown : m.seen.contains a.id =
      ((offered.filter fun a => !ignore.contains a.id).map (·.id)).contains a.id := by
    rw [Bool.eq_iff_iff, List.contains_iff_mem, List.contains_iff_mem, hseen, hroll,
      mem_ids_distinctAssets]
  unfold Muster.enter
  split
  · -- ignored
    rename_i hignored
    refine ⟨?_, hseen⟩
    rw [List.filter_append, List.filter_cons_of_neg (by simpa using hignored), List.filter_nil,
      List.append_nil]
    exact hroll
  · rename_i hwelcome
    have hkept : (offered ++ [a]).filter (fun a => !ignore.contains a.id) =
        (offered.filter fun a => !ignore.contains a.id) ++ [a] := by
      rw [List.filter_append, List.filter_cons_of_pos (by simpa using hwelcome), List.filter_nil]
    split
    · -- seen before
      rename_i hold
      refine ⟨?_, hseen⟩
      rw [hkept, distinctAssets_append, List.filter_cons, ← hknown, hold, hroll]
      exact (List.append_nil _).symm
    · -- new to the roll
      rename_i hnew
      refine ⟨?_, ?_⟩
      · rw [hkept, distinctAssets_append, List.filter_cons, ← hknown, Bool.eq_false_iff.2 hnew,
          ← hroll]
        rfl
      · intro u
        rw [List.mem_cons, hseen, List.map_append, List.mem_append, List.map_singleton,
          List.mem_singleton, or_comm]

/-- A loop in which every turn makes some offers. -/
theorem Records.foldl {α : Type} {step : Muster → α → Muster} {f : α → List Asset}
    (hstep : ∀ x m offered, m.Records ignore offered →
      (step m x).Records ignore (offered ++ f x)) (xs : List α)
    (h : m.Records ignore offered) :
    (xs.foldl step m).Records ignore (offered ++ xs.flatMap f) := by
  induction xs generalizing m offered with
  | nil => exact (List.append_nil offered).symm ▸ h
  | cons x xs ih =>
    rw [List.foldl_cons, List.flatMap_cons, ← List.append_assoc]
    exact ih (hstep x m offered h)

/-- The clerk enters a list of assets one by one. -/
theorem Records.enterAll (h : m.Records ignore offered) (as : List Asset) :
    (as.foldl (Muster.enter ignore) m).Records ignore (offered ++ as) := by
  have hall := h.foldl (f := fun a => [a]) (fun a m offered h => h.enter a) as
  rwa [List.flatMap_singleton'] at hall

/-- Of a list the clerk enters those that are wanted. -/
theorem Records.enterWhere (h : m.Records ignore offered) (wanted : Asset → Bool)
    (as : List Asset) :
    (as.foldl (fun m a => if wanted a then m.enter ignore a else m) m).Records ignore
      (offered ++ as.filter wanted) := by
  induction as generalizing m offered with
  | nil => exact (List.append_nil offered).symm ▸ h
  | cons a as ih =>
    rw [List.foldl_cons, List.filter_cons]
    split
    · have hrest := ih (h.enter a)
      rwa [List.append_assoc] at hrest
    · exact ih h

/-- From place to place the clerk enters what is wanted there. -/
theorem Records.enterIn (h : m.Records ignore offered) (b : Board) (attacker : PlayerId)
    (wanted : TerritoryId → Asset → Bool) (places : List TerritoryId) :
    (m.enterIn ignore b attacker wanted places).Records ignore
      (offered ++ places.flatMap fun t => (b.ownedIn t attacker).filter (wanted t)) :=
  h.foldl (fun t _ _ h => h.enterWhere (wanted t) (b.ownedIn t attacker)) places

/-- Places that are gone through twice are not noticed on the roll. -/
theorem Records.of_repeats {f : TerritoryId → List Asset} {places more : List TerritoryId}
    (h : m.Records ignore (offered ++ (places ++ more).flatMap f)) :
    m.Records ignore (offered ++ (places.eraseDups ++ more).flatMap f) := by
  refine ⟨?_, h.seen⟩
  rw [h.roll, List.flatMap_append, List.flatMap_append, ← List.append_assoc, ← List.append_assoc,
    List.filter_append, List.filter_append (offered ++ places.eraseDups.flatMap f)]
  apply distinctAssets_append_congr
  rw [List.filter_append, List.filter_append, List.filter_flatMap, List.filter_flatMap]
  exact distinctAssets_append_flatMap _ places _

/-! ## Transports -/

/-- What boards is what fits, and the room goes down whether or not it is entered. -/
theorem Records.embark (h : m.Records ignore offered) (room : Nat) (as : List Asset) :
    (as.foldl (Muster.embark ignore) (room, m)).1 = (fillHold room as).2 ∧
      (as.foldl (Muster.embark ignore) (room, m)).2.Records ignore
        (offered ++ (fillHold room as).1) := by
  induction as generalizing room m offered with
  | nil => exact ⟨rfl, (List.append_nil offered).symm ▸ h⟩
  | cons a as ih =>
    rw [List.foldl_cons, Muster.embark, fillHold]
    split
    · have hrest := ih (h.enter a) (room - a.kind.transportCost)
      rwa [List.append_assoc] at hrest
    · exact ih h room

/-- The clerk fetches from the coasts what the room of the ship takes. -/
theorem Records.fetch (h : m.Records ignore offered) (room : Nat) (coasts : List TerritoryId) :
    (coasts.foldl (fetchFrom ignore b attacker) (room, m)).2.Records ignore
      (offered ++
        Threat.fetchable b attacker room (coasts.filter fun t => !b.atlas.isWater t)) := by
  induction coasts generalizing room m offered with
  | nil => exact (List.append_nil offered).symm ▸ h
  | cons coast coasts ih =>
    rw [List.foldl_cons, fetchFrom]
    split
    · rename_i hwater
      rw [List.filter_cons_of_neg (by simp [hwater])]
      exact ih h room
    · rename_i hland
      obtain ⟨hroom, hcoast⟩ := h.embark room (Threat.loadableAt b coast attacker)
      have hrest := ih hcoast
        ((Threat.loadableAt b coast attacker).foldl (Muster.embark ignore) (room, m)).1
      rw [List.filter_cons_of_pos (by simp [hland])]
      show Records ignore _ (offered ++ ((fillHold room _).1 ++ Threat.fetchable b attacker
        (fillHold room (Threat.loadableAt b coast attacker)).2 _))
      rw [← hroom, ← List.append_assoc]
      exact hrest

/-- What a ship in a zone is counted for. -/
def landed (b : Board) (attacker : PlayerId) (landing : List TerritoryId) (zone : TerritoryId)
    (ship : Asset) : List Asset :=
  if ship.kind.carriesCargo && landing.any fun z =>
      Atlas.reachableWithin (b.atlas.distance .sea zone z) ship.kind.movement then
    Threat.landedBy b attacker zone ship
  else []

/-- A landing enters the ship and what it can fetch. -/
theorem Records.enterLanding (h : m.Records ignore offered) (landing : List TerritoryId)
    (zone : TerritoryId) (ship : Asset) :
    (Muster.enterLanding ignore b attacker landing zone m ship).Records ignore
      (offered ++ landed b attacker landing zone ship) := by
  have hcarries : ship.kind.carriesCargo =
      !(ship.kind.transportCapacity == 0 || !ship.kind.isSea) := by
    unfold PieceKind.carriesCargo
    cases ship.kind.isSea <;> cases ship.kind.transportCapacity <;> rfl
  unfold Muster.enterLanding landed
  rw [hcarries]
  split
  · -- not a ship that carries cargo
    rename_i hidle
    rw [hidle, Bool.not_true, Bool.false_and, if_neg Bool.false_ne_true, List.append_nil]
    exact h
  · rename_i hship
    rw [Bool.not_eq_true] at hship
    rw [hship, Bool.not_false, Bool.true_and]
    cases hnear : landing.any fun z =>
        Atlas.reachableWithin (b.atlas.distance .sea zone z) ship.kind.movement with
    | false =>
      rw [Bool.not_false, if_pos rfl, if_neg Bool.false_ne_true, List.append_nil]
      exact h
    | true =>
      rw [Bool.not_true, if_neg Bool.false_ne_true, if_pos rfl]
      show Records ignore _ (offered ++ if (b.cargoOf ship.id).isEmpty then _ else _)
      -- a laden ship lands its cargo, an empty one fetches some
      cases hempty : (b.cargoOf ship.id).isEmpty with
      | false => exact h.enterAll _
      | true => exact h.fetch ship.kind.transportCapacity (b.atlas.neighbors zone)

/-- Adding zones keeps each at the place where it first came. -/
theorem foldl_addZone (zones more : List TerritoryId) :
    more.foldl addZone zones = zones ++ (more.removeAll zones).eraseDups := by
  induction more generalizing zones with
  | nil => simp
  | cons zone more ih =>
    rw [List.foldl_cons, addZone, List.removeAll, List.filter_cons]
    by_cases hold : zones.contains zone = true
    · have helem : List.elem zone zones = true := hold
      rw [if_pos hold, ih, helem, if_neg (by simp), List.removeAll]
    · have helem : List.elem zone zones = false := Bool.eq_false_iff.2 hold
      rw [if_neg hold, ih, helem, if_pos (by simp), List.eraseDups_cons, List.append_assoc,
        List.filter_filter, List.removeAll, List.singleton_append]
      congr 4
      funext z
      by_cases hz : z = zone
      · simp [hz]
      · simp [hz]

/-- The zones are gone through in the order in which a search for them finds them. -/
theorem zonesFor_eq (b : Board) (landing : List TerritoryId) (reach : Nat) :
    ∃ more, zonesFor b landing reach = landing ++ more ∧
      Threat.stagingZones b landing reach = landing.eraseDups ++ more := by
  unfold zonesFor Threat.stagingZones
  rw [← List.foldl_flatMap, foldl_addZone, List.eraseDups_append]
  exact ⟨_, rfl, rfl⟩

/-- Ship by ship, what the transports in reach of the landing zones are counted for. -/
theorem flatMap_landedBy (landing : List TerritoryId) (zone : TerritoryId) (ships : List Asset) :
    (ships.filter fun a => a.kind.carriesCargo && landing.any fun z =>
        Atlas.reachableWithin (b.atlas.distance .sea zone z) a.kind.movement).flatMap
        (Threat.landedBy b attacker zone) =
      ships.flatMap (landed b attacker landing zone) := by
  induction ships with
  | nil => rfl
  | cons ship ships ih =>
    rw [List.flatMap_cons, List.filter_cons, landed, ← ih]
    split
    · rfl
    · rfl

/-! ## Branches -/

section Branches

variable (b attacker)

theorem Records.enterNeighbors (h : m.Records ignore offered) (location : TerritoryId) :
    (m.enterNeighbors ignore b location attacker).Records ignore
      (offered ++ Threat.neighbors b location attacker) := by
  have hashore : ∀ a : Asset, (a.kind.isLand && a.piece.carrier.isNone &&
      !a.kind.isInfrastructure) = (a.kind.isLand && !a.isAboard && !a.kind.isInfrastructure) := by
    intro a
    rw [Asset.isAboard, Option.not_isSome]
  unfold Muster.enterNeighbors Threat.neighbors
  simp only [← hashore]
  exact h.enterIn b attacker _ (b.atlas.neighbors location)

theorem Records.enterShips (h : m.Records ignore offered) (c : Config) (location : TerritoryId) :
    (m.enterShips ignore b c location attacker).Records ignore
      (offered ++ Threat.ships b c location attacker) :=
  h.enterIn b attacker _ _

theorem Records.enterBlitzers (h : m.Records ignore offered) (c : Config)
    (location : TerritoryId) :
    (m.enterBlitzers ignore b c location attacker).Records ignore
      (offered ++ Threat.blitzers b c location attacker) := by
  have hblitz : ∀ (a : Asset) (clear : Bool),
      (a.kind.isLand && a.kind.canBlitz && !a.isAboard && clear) =
        if !a.kind.isLand || !a.kind.canBlitz || a.piece.carrier.isSome then false else clear := by
    intro a clear
    rw [Asset.isAboard]
    cases a.kind.isLand <;> cases a.kind.canBlitz <;> cases a.piece.carrier.isSome <;> rfl
  unfold Muster.enterBlitzers Threat.blitzers
  simp only [hblitz]
  exact h.enterIn b attacker _ _

theorem Records.enterLandings (h : m.Records ignore offered) (location : TerritoryId) :
    (m.enterLandings ignore b location attacker).Records ignore
      (offered ++ Threat.landings b location attacker) := by
  unfold Muster.enterLandings Threat.landings
  dsimp only
  split
  · rw [List.append_nil]
    exact h
  · obtain ⟨more, hzones, hstaging⟩ := zonesFor_eq b (b.atlas.shores location)
      (greatestMovement (b.kindsWhere (·.carriesCargo)))
    have hzone : ∀ zone m offered, Records ignore m offered →
        Records ignore ((b.ownedIn zone attacker).foldl
          (Muster.enterLanding ignore b attacker (b.atlas.shores location) zone) m)
          (offered ++
            (b.ownedIn zone attacker).flatMap (landed b attacker (b.atlas.shores location) zone)) :=
      fun zone _ _ h => h.foldl (fun ship _ _ h => h.enterLanding _ zone ship) _
    have hloop := h.foldl hzone (zonesFor b (b.atlas.shores location)
      (greatestMovement (b.kindsWhere (·.carriesCargo))))
    rw [hzones] at hloop ⊢
    rw [hstaging]
    simp only [flatMap_landedBy]
    exact hloop.of_repeats

theorem Records.enterAircraft (h : m.Records ignore offered) (location : TerritoryId) :
    (m.enterAircraft ignore b location attacker).Records ignore
      (offered ++ Threat.aircraft b location attacker) := by
  unfold Muster.enterAircraft Threat.aircraft
  dsimp only
  by_cases hreach : 1 < greatestMovement (b.kindsWhere (·.isAir))
  · rw [if_pos hreach, if_neg (by omega)]
    exact h.enterIn b attacker _ _
  · rw [if_neg hreach, if_pos (by omega), List.append_nil]
    exact h

end Branches

end Muster

/-! ## The whole roll -/

/-- The roll that is written one by one is what the branches offer, without what is ignored. -/
theorem musterAttackers_eq (b : Board) (c : Config) (location : TerritoryId)
    (attacker : PlayerId) (ignore : List PieceId) :
    musterAttackers b c location attacker ignore =
      potentialAttackers b c location attacker ignore := by
  have hnext := (Muster.records_blank ignore).enterNeighbors b attacker location
  unfold musterAttackers potentialAttackers Threat.offers
  dsimp only
  -- ships threaten water, blitzers and landings threaten land
  cases b.atlas.isWater location with
  | true => exact ((hnext.enterShips b attacker c location).enterAircraft b attacker location).roll
  | false =>
    have hmain := ((hnext.enterBlitzers b attacker c location).enterLandings b attacker
      location).enterAircraft b attacker location
    rw [List.append_assoc ([] ++ _)] at hmain
    exact hmain.roll

/-- Pieces that are ignored leave no trace but their absence: the roll that is written with an
ignored set is the roll of everybody without the ignored pieces, in the same order, and no piece is
on it twice. -/
theorem potentialAttackers_ignore (b : Board) (c : Config) (location : TerritoryId)
    (attacker : PlayerId) (ignore : List PieceId) :
    musterAttackers b c location attacker ignore =
        potentialAttackers b c location attacker ignore ∧
      potentialAttackers b c location attacker ignore =
        (potentialAttackers b c location attacker []).filter (fun a => !ignore.contains a.id) ∧
      ((potentialAttackers b c location attacker ignore).map (·.id)).Nodup := by
  refine ⟨musterAttackers_eq b c location attacker ignore, ?_, ?_⟩
  · unfold potentialAttackers distinctAssets
    rw [filter_eraseDupsBy Asset.id fun u => !ignore.contains u]
    congr 2
    exact (List.filter_eq_self.2 fun _ _ => rfl).symm
  · unfold potentialAttackers distinctAssets
    show ((List.eraseDupsBy (fun a b => a.id == b.id) _).map Asset.id).Nodup
    rw [map_eraseDupsBy]
    exact nodup_eraseDups _

end Conquest
