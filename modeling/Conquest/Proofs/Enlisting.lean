import Conquest.Proofs.Forks
import Conquest.Proofs.Gathering
import Conquest.Proofs.Voyages

/-!
# Whom recruiting takes

Every branch filters the pieces that it takes in its own way: sources ask each piece, voyages ask
the transport and its zone, and the cargo is taken with the transport. Whatever is taken belongs to
the player and stands away from the objective, from what is excluded and from every battle. Outside
combat it has not moved either, unless it sails with a transport.

* `Ledger.Takes`: what a computation has added to the ledger; `Ensures.commitAll_takes`,
  `Ensures.commitEach_takes`.
* `Enlists`: what a branch may take.
* `Context.recruit_takes`: one call; `Context.recruitChain_takes`: a chain.
* `Context.shares`: which call of a chain has taken what.
* `Scenario.recruitChain_enlists`: a chain in a game.
-/

namespace Conquest

/-! ## What is added to a ledger -/

/-- From ledger `l` to ledger `l'` the pieces `us`, free before and of the kind `P`, were assigned
to orders, each once, and nothing else has changed. -/
structure Ledger.Takes (P : PieceId → Prop) (l l' : Ledger) (us : List PieceId) : Prop where
  eq : l' = l.withEntries (us.map (·, .moved))
  nodup : us.Nodup
  free : ∀ u ∈ us, u ∉ l.pieces
  all : ∀ u ∈ us, P u

namespace Ledger.Takes

variable {P Q : PieceId → Prop} {l l' l'' : Ledger} {us vs : List PieceId}

theorem refl (P : PieceId → Prop) (l : Ledger) : l.Takes P l [] := by
  refine ⟨?_, List.nodup_nil, by simp, by simp⟩
  unfold withEntries
  rw [List.map_nil, List.append_nil]

/-- What is taken first and then is taken in that order. -/
theorem trans (h : l.Takes P l' us) (h' : l'.Takes P l'' vs) : l.Takes P l'' (us ++ vs) := by
  have hsplit : ∀ {u}, u ∈ l'.pieces ↔ u ∈ l.pieces ∨ u ∈ us := by
    intro u
    rw [h.eq]
    exact mem_pieces_moved
  refine ⟨?_, ?_, ?_, ?_⟩
  · rw [h'.eq, h.eq, withEntries, withEntries, withEntries, List.map_append, List.append_assoc]
  · rw [List.nodup_append]
    refine ⟨h.nodup, h'.nodup, ?_⟩
    -- what is taken later was free in between
    rintro u hu w hw rfl
    exact h'.free u hw (hsplit.2 (.inr hu))
  · intro u hu hin
    rcases List.mem_append.1 hu with hu | hu
    · exact h.free u hu hin
    · exact h'.free u hu (hsplit.2 (.inl hin))
  · intro u hu
    exact (List.mem_append.1 hu).elim (h.all u) (h'.all u)

theorem mono (h : l.Takes P l' us) (hPQ : ∀ u, P u → Q u) : l.Takes Q l' us :=
  ⟨h.eq, h.nodup, h.free, fun u hu => hPQ u (h.all u hu)⟩

theorem epoch (h : l.Takes P l' us) : l'.epoch = l.epoch := by rw [h.eq, epoch_withEntries]

/-- What was taken stands at the end of the ledger. -/
theorem drop_pieces (h : l.Takes P l' us) : l'.pieces.drop l.length = us := by
  have hlength : l.length = l.pieces.length := (List.length_map _).symm
  rw [h.eq, pieces_withEntries, map_moved, hlength, List.drop_left]

end Ledger.Takes

namespace Ensures

variable {P : PieceId → Prop} {us : List PieceId}

theorem commitAll_takes (hall : ∀ u ∈ us, P u) (l : Ledger) :
    Ensures (fun _ _ => True) (Planning.commitAll us) l fun _ l' => l.Takes P l' us := by
  unfold Ensures Planning.commitAll Planning.apply
  dsimp only
  cases h : l.commitAll us with
  | error e => exact True.intro
  | ok l' =>
    rcases Ledger.record_eq_ok_iff.1 h with ⟨⟨hnodup, hfree⟩, heq⟩
    rw [Ledger.map_moved] at hnodup hfree
    exact ⟨heq, hnodup, hfree, hall⟩

/-- Committing piece by piece takes each of them. -/
theorem commitEach_takes (hall : ∀ u ∈ us, P u) (l : Ledger) :
    Ensures (fun _ _ => True) (Planning.commitEach us) l fun _ l' => l.Takes P l' us := by
  induction us generalizing l with
  | nil => exact .pure (.refl P l)
  | cons u rest ih =>
    have hunfold : Planning.commitEach (u :: rest) =
        (Planning.commitAll [u] >>= fun _ => Planning.commitEach rest) := rfl
    rw [List.forall_mem_cons] at hall
    rw [hunfold]
    refine .bind ((commitAll_takes (by simpa using hall.1) l).mono ?_)
    intro _ l₁ hfirst
    exact (ih hall.2 l₁).mono fun _ l' hrest => hfirst.trans hrest

end Ensures

/-! ## Whom a branch may take -/

/-- A piece of the player that stands away from the objective, from what is excluded and from every
battle, and that, outside combat and if it does not sail with a transport, has not moved. -/
def Enlists (b : Board) (c : Context) (e : Epoch) (target : Target) (branch : Branch)
    (u : PieceId) : Prop :=
  ∃ q, b.piece? u = some q ∧ q.owner = c.player ∧ q.territory ∉ target.exclude ∧
    q.territory ≠ target.objective ∧ b.hasBattle q.territory = false ∧
    (e = .nonCombat → branch ≠ .transports → q.movedThisTurn = false)

/-- A territory that pieces may be taken from. -/
structure Target.Grants (target : Target) (b : Board) (t : TerritoryId) : Prop where
  kept : t ∉ target.exclude
  away : t ≠ target.objective
  calm : b.hasBattle t = false

section Branches

variable {b : Board} {c : Context} {l : Ledger} {e : Epoch} {target : Target} {branch : Branch}
  {t : TerritoryId} {a : Asset} {v : Voyage}

/-- A piece that stands where the target grants it enlists. -/
theorem Board.Stands.enlists (h : b.Stands c.player t a) (ht : target.Grants b t)
    (hrested : e = .nonCombat → branch ≠ .transports → a.piece.movedThisTurn = false) :
    Enlists b c e target branch a.id := by
  refine ⟨a.piece, (Board.asset?_eq_some.1 h.asset).1, h.owner, ?_, ?_, ?_, hrested⟩
  · rw [h.place]
    exact ht.kept
  · rw [h.place]
    exact ht.away
  · rw [h.place]
    exact ht.calm

/-- The pieces of a source are asked one by one. -/
theorem Drawable.enlists {s : Source} (h : Drawable b c l target s) (hb : b.Sound)
    (ha : a ∈ s.assets) : Enlists b c l.epoch target branch a.id := by
  rcases h.listed with ⟨pool, hsub, hperm⟩
  have hstands : b.Stands c.player s.territory a :=
    hb.stands (hsub.subset (hperm.mem_iff.1 ha)) (h.alone hb a ha)
  rcases Context.isUsable_iff.1 (h.usable a ha) with ⟨-, -, -, -, hcalm, hepoch⟩
  rw [hstands.place] at hcalm
  refine hstands.enlists ⟨h.kept, h.away, hcalm⟩ ?_
  intro he _
  refine hepoch.resolve_left ?_
  rw [he]
  exact Epoch.noConfusion

/-- Cargo stands where its transport stands and belongs to the same player. -/
theorem Board.Stands.cargo_enlists (h : b.Stands c.player t a) (hb : b.Sound)
    (hsea : a.kind.isSea = true) (ht : target.Grants b t) {u : PieceId}
    (hu : u ∈ b.cargoOf a.id) : Enlists b c e target .transports u := by
  rcases Board.asset?_eq_some.1 h.asset with ⟨hpiece, hkind⟩
  rcases (hb.mem_cargoOf hpiece (hkind ▸ hsea)).1 hu with ⟨q, hq, hcarrier⟩
  rcases hb.cargo u q a.id hq hcarrier with ⟨s, hs, hcarries⟩
  rw [hpiece, Option.some.injEq] at hs
  subst hs
  have hplace : q.territory = t := (hcarries.place (hkind ▸ hsea)).symm.trans h.place
  refine ⟨q, hq, hcarries.owner.symm.trans h.owner, ?_, ?_, ?_, fun _ hne => absurd rfl hne⟩
  · rw [hplace]
    exact ht.kept
  · rw [hplace]
    exact ht.away
  · rw [hplace]
    exact ht.calm

namespace Context

/-- Voyages start from sea zones that are neither excluded nor in battle. -/
theorem grants_of_mem_voyages (hland : b.atlas.isPassableLand target.objective = true)
    (hv : v ∈ c.voyages b l target) :
    ∃ zone, v.Sails b c l target.objective zone ∧ target.Grants b zone := by
  unfold voyages at hv
  dsimp only at hv
  split at hv
  · cases hv
  · rw [mem_sortBy] at hv
    rcases List.mem_flatMap.1 hv with ⟨zone, hzone, hv⟩
    rcases List.mem_filterMap.1 hv with ⟨a, ha, hvoyage⟩
    rcases List.mem_filter.1 hzone with ⟨hstaging, hkept⟩
    have hwater : b.atlas.isWater zone = true := by
      unfold Threat.stagingZones at hstaging
      rw [List.mem_eraseDups] at hstaging
      rcases List.mem_append.1 hstaging with hshore | hreach
      · exact (List.mem_filter.1 hshore).2
      · rcases List.mem_flatMap.1 hreach with ⟨z, -, hz⟩
        exact Atlas.passable_of_mem_neighborsWithin hz
    refine ⟨zone, of_voyage? ha hvoyage, by simpa using hkept, ?_, ?_⟩
    · -- the objective lies on land
      rintro rfl
      have hdry : b.atlas.isWater target.objective = false := Territory.dry_of_isPassableLand hland
      rw [hwater] at hdry
      cases hdry
    · unfold voyage? at hvoyage
      have hguard := (guard_bind_eq_some.1 hvoyage).1
      rw [Bool.and_eq_true, Bool.not_eq_true'] at hguard
      exact hguard.2

/-- Escorts are asked one by one. -/
theorem escorts_enlists (hb : b.Sound) (hzone : target.Grants b t) {route : Route}
    (ha : a ∈ c.escorts b l t route) : Enlists b c e target .transports a.id := by
  rcases c.of_escorts b l t route with ⟨pool, hsub, hperm, hpool⟩
  have hin := hperm.subset ha
  have hown := hsub.subset hin
  have hstands : b.Stands c.player t a :=
    hb.stands hown (hb.alone hown (PieceKind.isLand_eq_false_of_isSea (hpool a hin).1))
  exact hstands.enlists hzone fun _ hne => absurd rfl hne

/-! ## Calls -/

theorem sail_takes (hb : b.Sound) {l₀ : Ledger} {zone : TerritoryId}
    (hv : v.Sails b c l₀ target.objective zone) (hzone : target.Grants b zone) (l : Ledger) :
    Ensures (fun _ _ => True) (c.sail b target.objective v) l fun _ l' =>
      ∃ us, l.Takes (Enlists b c e target .transports) l' us := by
  have hstands := hv.stands hb
  have hcrew : ∀ u ∈ v.transport.id :: (v.cargo.map (·.id)).filter fun u => !l.isCommitted u,
      Enlists b c e target .transports u := by
    rw [List.forall_mem_cons]
    refine ⟨hstands.enlists hzone fun _ hne => absurd rfl hne, ?_⟩
    intro u hu
    have hcargo := (hv.cargo_sublist hb).subset (List.mem_filter.1 hu).1
    exact hstands.cargo_enlists hb hv.isSea hzone hcargo
  refine .bind (.get (.bind ((Ensures.commitAll_takes hcrew l).mono ?_)))
  intro _ l₁ hfirst
  split
  · exact .pure ⟨_, hfirst⟩
  · have hescorts : ∀ u ∈ (c.escorts b l₁ v.transport.piece.territory v.route).map (·.id),
        Enlists b c e target .transports u := by
      intro u hu
      rcases List.mem_map.1 hu with ⟨a, ha, rfl⟩
      rw [hstands.place] at ha
      exact escorts_enlists hb hzone ha
    refine .bind (.get (.bind ((Ensures.commitEach_takes hescorts l₁).mono ?_)))
    intro _ l₂ hsecond
    exact .pure ⟨_, hfirst.trans hsecond⟩

/-- Voyages take what enlists for transports alone. -/
theorem sailAll_takes (hb : b.Sound) {l₀ : Ledger} {combat : Bool} {voyages : List Voyage}
    (hall : ∀ v ∈ voyages, ∃ zone, v.Sails b c l₀ target.objective zone ∧ target.Grants b zone)
    (landed : List Asset) (orders : List Order) (l : Ledger) :
    Ensures (fun _ _ => True) (c.sailAll b target combat voyages landed orders) l fun _ l' =>
      ∃ us, l.Takes (Enlists b c e target .transports) l' us := by
  induction voyages generalizing landed orders l with
  | nil => exact .pure ⟨[], .refl _ l⟩
  | cons v rest ih =>
    rw [List.forall_mem_cons] at hall
    rcases hall.1 with ⟨zone, hv, hzone⟩
    unfold sailAll
    split
    · exact .pure ⟨[], .refl _ l⟩
    · refine .bind ((sail_takes (e := e) hb hv hzone l).mono ?_)
      rintro sailed l₁ ⟨us, hfirst⟩
      refine (ih hall.2 _ _ l₁).mono ?_
      rintro haul l' ⟨vs, hrest⟩
      exact ⟨us ++ vs, hfirst.trans hrest⟩

/-- So does recruiting by transports as a whole. -/
theorem recruitTransports_takes (hb : b.Sound) (l : Ledger) :
    Ensures (fun _ _ => True) (c.recruitTransports b target) l fun _ l' =>
      ∃ us, l.Takes (Enlists b c e target .transports) l' us := by
  refine .bind (.get ?_)
  dsimp only
  split
  · exact .pure ⟨[], .refl _ l⟩
  · rename_i hguard
    rw [Bool.or_eq_true, not_or, Bool.not_eq_true', Bool.not_eq_false] at hguard
    exact sailAll_takes hb (fun v hv => grants_of_mem_voyages hguard.1 hv) [] [] l

/-- One call takes only what its branch may take. -/
theorem recruit_takes (hb : b.Sound) (target : Target) (branch : Branch) (l : Ledger) :
    Ensures (fun _ _ => True) (c.recruit b target branch) l fun _ l' =>
      ∃ us, l.Takes (Enlists b c l.epoch target branch) l' us := by
  by_cases hopen : target.isMet = true
  · unfold recruit
    rw [if_pos hopen]
    exact .pure ⟨[], .refl _ l⟩
  · by_cases hbranch : branch = .transports
    · subst hbranch
      unfold recruit
      rw [if_neg hopen, if_pos rfl]
      exact recruitTransports_takes hb l
    · -- land and air branches gather from sources, each of which is drawable
      have hs : ∀ s ∈ c.sources b l target branch, (s.assets.map (·.id)).Nodup := nodup_of_sound hb
      rcases recruit_gathers hs (Bool.not_eq_true _ ▸ hopen) hbranch with ⟨xs, hgathers, hrecruit⟩
      unfold Ensures
      rw [hrecruit]
      have hmem : ∀ u ∈ (Intake.force xs).map (·.id), ∃ x ∈ xs, ∃ a ∈ x.taken, a.id = u := by
        intro u hu
        rcases List.mem_map.1 hu with ⟨a, ha, rfl⟩
        rcases List.mem_flatMap.1 ha with ⟨x, hx, hax⟩
        exact ⟨x, hx, a, hax, rfl⟩
      refine ⟨_, rfl, hgathers.nodup hs, ?_, ?_⟩
      · intro u hu
        rcases hmem u hu with ⟨x, hx, a, ha, rfl⟩
        exact (hgathers.free x hx a ha).2
      · intro u hu
        rcases hmem u hu with ⟨x, hx, a, ha, rfl⟩
        have hsource := hgathers.sources_prefix.subset (List.mem_map_of_mem hx)
        exact (drawable_of_mem_sources hsource).enlists hb (hgathers.free x hx a ha).1

/-! ## Chains -/

/-- What each call of a chain takes, in order: the pieces that its branch adds to the ledger. -/
def shares (c : Context) (b : Board) : Target → List Branch → Ledger →
    List (Branch × List PieceId)
  | _, [], _ => []
  | target, branch :: rest, l =>
    if target.isMet then []
    else
      match c.recruit b target branch l with
      | .error _ _ => []
      | .ok got l' => (branch, l'.pieces.drop l.length) ::
          shares c b { target with needed := target.needed - got.achieved } rest l'

/-- A chain takes what its calls take, each of them what its branch may take. -/
theorem recruitChain_takes (hb : b.Sound) (target : Target) (branches : List Branch) (haul : Haul)
    (l : Ledger) :
    Ensures (fun _ _ => True) (c.recruitChain b target branches haul) l fun _ l' =>
      l.Takes (fun _ => True) l' ((c.shares b target branches l).flatMap (·.2)) ∧
      ∀ share ∈ c.shares b target branches l, ∀ u ∈ share.2,
        Enlists b c l.epoch target share.1 u := by
  induction branches generalizing target haul l with
  | nil => exact .pure ⟨.refl _ l, by simp [shares]⟩
  | cons branch rest ih =>
    unfold recruitChain shares
    by_cases hmet : target.isMet = true
    · rw [if_pos hmet, if_pos hmet]
      exact .pure ⟨.refl _ l, by simp⟩
    · rw [if_neg hmet, if_neg hmet]
      have hcall := c.recruit_takes hb target branch l
      unfold Ensures at hcall
      cases hrecruit : c.recruit b target branch l with
      | error e l₁ =>
        refine .bind ?_
        unfold Ensures
        rw [hrecruit]
        exact True.intro
      | ok got l₁ =>
        rw [hrecruit] at hcall
        rcases hcall with ⟨us, hfirst⟩
        refine .bind ?_
        unfold Ensures
        rw [hrecruit]
        -- the later calls find the epoch, the objective and what is excluded as they were
        refine (ih { target with needed := target.needed - got.achieved } (haul.merge got)
          l₁).mono ?_
        rintro total l' ⟨hrest, hshares⟩
        rw [List.flatMap_cons, hfirst.drop_pieces]
        refine ⟨(hfirst.mono fun _ _ => True.intro).trans hrest, ?_⟩
        intro share hshare u hu
        rcases List.mem_cons.1 hshare with rfl | hshare
        · refine hfirst.all u ?_
          rw [← hfirst.drop_pieces]
          exact hu
        · have hlater := hshares share hshare u hu
          rw [hfirst.epoch] at hlater
          exact hlater

end Context

end Branches

namespace Scenario

open Board Table

/-- In every game a chain of recruitments that ends has only added to the ledger. What a call has
added belongs to the player, was free before, and stands neither in the objective nor in an excluded
territory nor where a battle is pending; outside combat it has not moved this turn, unless it was
taken to sail with transports. -/
theorem recruitChain_enlists (s : Scenario) (h₀ : Table) (hset : s.setUp = .ok h₀)
    (commands : List Command) (c : Context) (target : Target) (branches : List Branch)
    (l l' : Ledger) (haul : Haul)
    (hends : c.recruitChain (h₀.play commands).board target branches {} l = .ok haul l') :
    let b := (h₀.play commands).board
    let shares := c.shares b target branches l
    l'.entries = l.entries ++ (shares.flatMap (·.2)).map (·, .moved) ∧
    (shares.flatMap (·.2)).Nodup ∧
    ∀ share ∈ shares, ∀ u ∈ share.2, u ∉ l.pieces ∧ ∃ q, b.piece? u = some q ∧
      q.owner = c.player ∧ q.territory ∉ target.exclude ∧ q.territory ≠ target.objective ∧
      b.hasBattle q.territory = false ∧
      (l.epoch = .nonCombat → share.1 ≠ .transports → q.movedThisTurn = false) := by
  intro b shares
  have hb : b.Sound := (play_keeps (setUp_sound hset) commands).1
  obtain ⟨htakes, hall⟩ := (c.recruitChain_takes hb target branches {} l).of_ok hends
  refine ⟨?_, htakes.nodup, ?_⟩
  · rw [htakes.eq]
    rfl
  · intro share hshare u hu
    exact ⟨htakes.free u (List.mem_flatMap.2 ⟨share, hshare, hu⟩), hall share hshare u hu⟩

/-- Infantry of Red can come to the fort over land and by sea. -/
def garrisonRelief : Scenario where
  players := [{ name := "Red" }, { name := "Blue", team := 1 }]
  territories := [
    { name := "Fort", owner := some "Red" }, { name := "Front", owner := some "Red" },
    { name := "Bay", water := true }]
  connections := [("Fort", "Front"), ("Fort", "Bay")]
  kinds := [
    { name := "infantry", attack := 1, defense := 2, cost := 3, transportCost := 2 },
    { name := "transport", domain := .sea, movement := 2, cost := 7, transportCapacity := 4 }]
  pieces := [
    { kind := "infantry", owner := "Red", place := "Front" },
    { kind := "transport", owner := "Red", place := "Bay" },
    { kind := "infantry", owner := "Red", place := "Bay" }]

set_option maxRecDepth 100000 in
/-- Outside combat the infantry that marches has not moved. The transport is taken with its
cargo. -/
theorem recruitChain_enlists_garrisonRelief : ∃ h haul l', garrisonRelief.setUp = .ok h ∧
    (Context.build h.board 0 {}).recruitChain (h.play []).board ⟨0, 100, []⟩ [.land, .transports] {}
      (.new .nonCombat) = .ok haul l' ∧
    (Context.build h.board 0 {}).shares (h.play []).board ⟨0, 100, []⟩ [.land, .transports]
      (.new .nonCombat) = [(.land, [0]), (.transports, [1, 2])] ∧
    l'.entries = [(0, .moved), (1, .moved), (2, .moved)] ∧
    ∃ q, (h.play []).board.piece? 0 = some q ∧ q.owner = 0 ∧ q.movedThisTurn = false := by
  have hpass : (garrisonRelief.setUp.toOption.any fun h =>
      endsWith (fun _ _ => (Context.build h.board 0 {}).shares (h.play []).board ⟨0, 100, []⟩
            [.land, .transports] (.new .nonCombat) == [(.land, [0]), (.transports, [1, 2])])
        ((Context.build h.board 0 {}).recruitChain (h.play []).board ⟨0, 100, []⟩
          [.land, .transports] {}) (.new .nonCombat)) = true := by
    decide +kernel
  obtain ⟨h, hset, hcheck⟩ := exists_setUp hpass
  obtain ⟨haul, l', hends, hsame⟩ := exists_of_endsWith hcheck
  have hshares := eq_of_beq hsame
  obtain ⟨hentries, -, hall⟩ := recruitChain_enlists garrisonRelief h hset []
    (.build h.board 0 {}) ⟨0, 100, []⟩ [.land, .transports] (.new .nonCombat) l' haul hends
  rw [hshares] at hentries hall
  obtain ⟨-, q, hq, howner, -, -, -, hrested⟩ := hall (.land, [0]) (by simp) 0 (by simp)
  exact ⟨h, haul, l', hset, hends, hshares, hentries, q, hq, howner, hrested rfl (by decide)⟩

end Scenario

end Conquest
