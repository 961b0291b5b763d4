import Conquest.Proofs.Origins
import Conquest.Proofs.Play

/-!
# What loading leaves on the shores

A shore is visited once for every transport that waits off it, and each visit sees what the earlier
ones have taken. So what a visit leaves behind must be enough for the next one to see that nothing
may go: a threatened shore keeps a piece that could have gone because every single visit leaves one.

* `MayEmbark`: who may go aboard; `Context.mem_loadable`: these are the pieces that a visit sees.
* `Fetches`: what a part of the loading has done; `Fetches.trans`: parts one after another.
* `Context.fetches_visit`: one visit; `Context.loadFrom_fetches`: one transport;
  `Context.loadTransports_fetches`: all of them.
* `Scenario.loadTransports_spares`: the loading of transports in a game.
-/

namespace Conquest

/-! ## Visits -/

/-- A piece on a shore that may go aboard a transport: it belongs to the player, can be transported
and is not yet, can still move, has not moved outside combat, and is free. -/
structure MayEmbark (b : Board) (c : Context) (l : Ledger) (shore : TerritoryId) (a : Asset) :
    Prop where
  here : a ∈ b.ownedIn shore c.player
  fits : a.kind.canBeTransported = true
  alone : a.piece.carrier = none
  moves : 0 < a.piece.movementLeft
  unmoved : l.epoch = .nonCombat → a.piece.movedThisTurn = false
  free : a.id ∉ l.pieces

namespace Context

variable {b : Board} {c : Context} {l : Ledger} {shore : TerritoryId} {a : Asset}

theorem mem_loadable : a ∈ c.loadable b l shore ↔ MayEmbark b c l shore a := by
  unfold loadable
  rw [mem_sortBy, List.mem_filter]
  simp only [Bool.and_eq_true, Bool.not_eq_true', decide_eq_true_eq, Bool.and_eq_false_iff,
    Ledger.isCommitted_eq_false_iff, beq_eq_false_iff_ne]
  constructor
  · rintro ⟨hhere, ⟨⟨⟨hfits, haboard⟩, hmoves⟩, hunmoved⟩, hfree⟩
    have halone := Asset.not_isAboard_iff.1 (Bool.not_eq_true _ ▸ haboard)
    exact ⟨hhere, hfits, halone, hmoves, fun hepoch => hunmoved.resolve_left (· hepoch), hfree⟩
  · rintro ⟨hhere, hfits, halone, hmoves, hunmoved, hfree⟩
    have haboard := Asset.not_isAboard_iff.2 halone
    rw [Bool.not_eq_true] at haboard
    refine ⟨hhere, ⟨⟨⟨hfits, haboard⟩, hmoves⟩, ?_⟩, hfree⟩
    by_cases hepoch : l.epoch = .nonCombat
    · exact .inr (hunmoved hepoch)
    · exact .inl hepoch

theorem nodup_loadable (hb : b.Sound) : ((c.loadable b l shore).map (·.id)).Nodup := by
  refine ((sortBy_perm loadingOrder _).map (·.id)).nodup_iff.2 ?_
  refine hb.nodup_alone List.filter_sublist fun a ha => ?_
  exact (mem_loadable.1 (mem_sortBy.2 ha)).alone

theorem shoreCargo_sublist (c : Context) (b : Board) (l : Ledger) (shore : TerritoryId)
    (room : Nat) : (c.shoreCargo b l shore room).1.Sublist (c.loadable b l shore) :=
  (fillHold_sublist _ _).trans (List.take_sublist _ _)

theorem nodup_shoreCargo (hb : b.Sound) (room : Nat) :
    ((c.shoreCargo b l shore room).1.map (·.id)).Nodup :=
  (nodup_loadable hb).sublist ((shoreCargo_sublist c b l shore room).map _)

/-- Whoever is fetched may go aboard. -/
theorem mayEmbark_of_mem_shoreCargo {room : Nat} {u : PieceId}
    (hu : u ∈ (c.shoreCargo b l shore room).1.map (·.id)) :
    ∃ a, MayEmbark b c l shore a ∧ a.id = u := by
  obtain ⟨a, ha, rfl⟩ := List.mem_map.1 hu
  exact ⟨a, mem_loadable.1 ((shoreCargo_sublist c b l shore room).subset ha), rfl⟩

/-- A visit to a threatened shore leaves a piece that may go aboard. -/
theorem exists_left_behind (hb : b.Sound) (room : Nat) (hthreat : 0 < c.threat b shore)
    (hsome : ∃ a, MayEmbark b c l shore a) :
    ∃ a, MayEmbark b c l shore a ∧ a.id ∉ (c.shoreCargo b l shore room).1.map (·.id) := by
  obtain ⟨x, hx⟩ := hsome
  have hne : c.loadable b l shore ≠ [] := List.ne_nil_of_mem (mem_loadable.2 hx)
  have hsub : (c.shoreCargo b l shore room).1.Sublist (c.loadable b l shore).dropLast := by
    unfold shoreCargo
    dsimp only
    rw [if_pos hthreat, List.dropLast_eq_take]
    exact fillHold_sublist _ _
  -- the last piece in loading order stays
  refine ⟨(c.loadable b l shore).getLast hne, mem_loadable.1 (List.getLast_mem hne), ?_⟩
  intro hin
  have hnodup : ((c.loadable b l shore).map (·.id)).Nodup := nodup_loadable hb
  rw [← List.dropLast_append_getLast hne, List.map_append, List.nodup_append] at hnodup
  exact hnodup.2.2 _ ((hsub.map _).subset hin) _ (by simp) rfl

end Context

/-- Pieces that are free and listed once are taken aboard. -/
theorem Planning.embark_of_free {l : Ledger} {ship : PieceId} {us : List PieceId}
    (hnodup : us.Nodup) (hfree : ∀ u ∈ us, u ∉ l.pieces) :
    Ensures (fun _ _ => False) (Planning.apply (·.embark ship us)) l fun _ l' =>
      l'.epoch = l.epoch ∧ l'.pieces = l.pieces ++ us := by
  have hcommit : l.commitAll us = .ok (l.withEntries (us.map (·, .moved))) := by
    apply Ledger.record_of_free
    · rw [Ledger.map_moved]
      exact hnodup
    · rw [Ledger.map_moved]
      exact hfree
  have hpieces := l.pieces_withEntries (us.map (·, .moved))
  rw [Ledger.map_moved] at hpieces
  unfold Ensures Planning.apply Ledger.embark
  simp only [hcommit]
  exact ⟨rfl, hpieces⟩

/-! ## Parts of the loading -/

/-- What a part of the loading has done between two ledgers: its orders send pieces that may go
aboard from shores that they may leave, they take nobody else and nobody twice, and a threatened
shore with such a piece still has one. -/
structure Fetches (b : Board) (c : Context) (l l' : Ledger) (orders : List Order) : Prop where
  epoch : l'.epoch = l.epoch
  pieces : l'.pieces = l.pieces ++ named orders
  nodup : (named orders).Nodup
  loads : ∀ o ∈ orders, o.isLoad = true ∧ c.mayLoadFrom b o.route.start = true ∧
    ∀ u ∈ o.pieces, ∃ a, MayEmbark b c l o.route.start a ∧ a.id = u
  spares : ∀ shore, 0 < c.threat b shore → (∃ a, MayEmbark b c l shore a) →
    ∃ a, MayEmbark b c l' shore a

namespace Fetches

variable {b : Board} {c : Context} {l l' l'' : Ledger} {orders orders' : List Order}

theorem refl (b : Board) (c : Context) (l : Ledger) : Fetches b c l l [] :=
  ⟨rfl, (List.append_nil _).symm, List.nodup_nil, by simp, fun _ _ hsome => hsome⟩

/-- Who may go aboard later might have gone before. -/
theorem mayEmbark (h : Fetches b c l l' orders) {shore : TerritoryId} {a : Asset}
    (ha : MayEmbark b c l' shore a) : MayEmbark b c l shore a := by
  have hfree := ha.free
  rw [h.pieces, List.mem_append, not_or] at hfree
  exact { ha with unmoved := fun hepoch => ha.unmoved (h.epoch.trans hepoch), free := hfree.1 }

theorem trans (h : Fetches b c l l' orders) (h' : Fetches b c l' l'' orders') :
    Fetches b c l l'' (orders ++ orders') := by
  refine ⟨h'.epoch.trans h.epoch, ?_, ?_, ?_, ?_⟩
  · rw [h'.pieces, h.pieces, named_append, List.append_assoc]
  · rw [named_append, List.nodup_append]
    refine ⟨h.nodup, h'.nodup, ?_⟩
    -- whoever is fetched later was free in between
    rintro u hu w hw rfl
    obtain ⟨o, ho, hmem⟩ := List.mem_flatMap.1 hw
    obtain ⟨a, ha, rfl⟩ := (h'.loads o ho).2.2 u hmem
    have hfree := ha.free
    rw [h.pieces, List.mem_append, not_or] at hfree
    exact hfree.2 hu
  · intro o ho
    rcases List.mem_append.1 ho with ho | ho
    · exact h.loads o ho
    · obtain ⟨hload, hshore, hcargo⟩ := h'.loads o ho
      refine ⟨hload, hshore, fun u hu => ?_⟩
      obtain ⟨a, ha, hid⟩ := hcargo u hu
      exact ⟨a, h.mayEmbark ha, hid⟩
  · intro shore hthreat hsome
    exact h'.spares shore hthreat (h.spares shore hthreat hsome)

end Fetches

namespace Context

variable {b : Board} {c : Context} {l l' : Ledger} {shore zone : TerritoryId} {ship : PieceId}
  {room : Nat}

/-- One visit, when its cargo has been taken. -/
theorem fetches_visit (hb : b.Sound) (hmay : c.mayLoadFrom b shore = true)
    (hepoch : l'.epoch = l.epoch)
    (hpieces : l'.pieces = l.pieces ++ (c.shoreCargo b l shore room).1.map (·.id)) :
    let pieces := (c.shoreCargo b l shore room).1.map (·.id)
    Fetches b c l l' [{ pieces, route := .step shore zone, action := .load ship }] := by
  intro pieces
  -- whoever may go aboard and was not fetched still may
  have hstill : ∀ {t a}, MayEmbark b c l t a →
      a.id ∉ (c.shoreCargo b l shore room).1.map (·.id) → MayEmbark b c l' t a := by
    intro t a ha hleft
    refine { ha with unmoved := fun h => ha.unmoved (hepoch.symm.trans h), free := ?_ }
    rw [hpieces, List.mem_append, not_or]
    exact ⟨ha.free, hleft⟩
  refine ⟨hepoch, by rw [named_singleton]; exact hpieces, ?_, ?_, ?_⟩
  · rw [named_singleton]
    exact nodup_shoreCargo hb room
  · intro o ho
    obtain rfl := List.mem_singleton.1 ho
    exact ⟨rfl, hmay, fun u => mayEmbark_of_mem_shoreCargo⟩
  · intro t hthreat hsome
    by_cases ht : t = shore
    · subst ht
      obtain ⟨a, ha, hleft⟩ := exists_left_behind hb room hthreat hsome
      exact ⟨a, hstill ha hleft⟩
    · -- the visit takes nobody who stands elsewhere
      obtain ⟨a, ha⟩ := hsome
      refine ⟨a, hstill ha fun hin => ?_⟩
      obtain ⟨x, hx, hid⟩ := mayEmbark_of_mem_shoreCargo hin
      have hplace :=
        ((hb.stands ha.here ha.alone).unique (hb.stands hx.here hx.alone) hid).2
      exact ht hplace.symm

/-- The loading of one transport. -/
theorem loadFrom_fetches (hb : b.Sound) (c : Context) (zone : TerritoryId) (ship : PieceId)
    (room : Nat) (shores : List TerritoryId) (l : Ledger) :
    Ensures (fun _ _ => False) (c.loadFrom b zone ship room shores) l fun orders l' =>
      Fetches b c l l' orders := by
  induction shores generalizing room l with
  | nil => exact .pure (.refl b c l)
  | cons shore rest ih =>
    unfold loadFrom
    split
    · exact .pure (.refl b c l)
    · split
      · rename_i hmay
        refine .bind (.get ?_)
        dsimp only
        split
        · exact ih _ l
        · -- the cargo was filtered for free pieces just before
          refine .bind ((Planning.embark_of_free (nodup_shoreCargo hb room) ?_).mono ?_)
          · intro u hu
            obtain ⟨a, ha, rfl⟩ := mayEmbark_of_mem_shoreCargo hu
            exact ha.free
          · rintro _ l₁ ⟨hepoch, hpieces⟩
            refine .bind ((ih _ l₁).mono ?_)
            intro others l' hothers
            exact .pure ((fetches_visit hb hmay hepoch hpieces).trans hothers)
      · exact ih _ l

/-- The loading of all transports. -/
theorem loadTransports_fetches (hb : b.Sound) (c : Context) (worthLoading : Asset → Bool)
    (l : Ledger) :
    Ensures (fun _ _ => False) (c.loadTransports b worthLoading) l fun orders l' =>
      Fetches b c l l' orders := by
  refine Ensures.collect (J := fun _ l₁ out => Fetches b c l l₁ out) ?_ (.refl b c l)
  intro zone _ l₁ out hzones
  split
  · refine .pure ?_
    rw [List.append_nil]
    exact hzones
  · refine Ensures.collect_from (J := fun _ l₂ out => Fetches b c l l₂ out) ?_ hzones
    intro ship _ l₂ out hships
    refine .bind (.get ?_)
    split
    · exact (loadFrom_fetches hb c zone ship.id _ _ l₂).mono fun _ _ hmore => hships.trans hmore
    · refine .pure ?_
      rw [List.append_nil]
      exact hships

end Context

namespace Scenario

open Table

/-- What loading transports takes. In every game, with every ledger and whatever is worth loading,
the phase ends. It gives orders to load only and names no piece twice; no transport is given more
than it has room for; nobody comes from a territory that was attacked or has a battle, nor from the
capital in danger; and a threatened shore with pieces that may go aboard keeps one of them. -/
theorem loadTransports_spares (s : Scenario) (h₀ : Table) (hset : s.setUp = .ok h₀)
    (commands : List Command) (c : Context) (worthLoading : Asset → Bool) (l : Ledger) :
    let b := (h₀.play commands).board
    ∃ orders l', c.loadTransports b worthLoading l = .ok orders l' ∧
      (∀ o ∈ orders, o.isLoad = true) ∧ (named orders).Nodup ∧
      (∀ ship, stowed b ship orders ≤ b.freeCapacity ship) ∧
      (∀ u ∈ named orders, ∃ q, b.piece? u = some q ∧ q.owner = c.player ∧
        c.isAttacked q.territory = false ∧ b.hasBattle q.territory = false ∧
        ¬(c.capitalDanger = true ∧ c.capital = some q.territory)) ∧
      ∀ shore, 0 < c.threat b shore → (∃ a, MayEmbark b c l shore a) →
        ∃ a, MayEmbark b c l' shore a := by
  intro b
  have hb : b.Sound := (play_keeps (setUp_sound hset) commands).1
  obtain ⟨orders, l', hends, hfetches⟩ := (c.loadTransports_fetches hb worthLoading l).exists_ok
  refine ⟨orders, l', hends, fun o ho => (hfetches.loads o ho).1, hfetches.nodup,
    (Context.loadTransports_stowed hb worthLoading l).of_ok hends, ?_, hfetches.spares⟩
  intro u hu
  obtain ⟨o, ho, hmem⟩ := List.mem_flatMap.1 hu
  obtain ⟨-, hmay, hcargo⟩ := hfetches.loads o ho
  obtain ⟨a, ha, rfl⟩ := hcargo u hmem
  -- who is loaded stood on the shore, alone
  have hstands := hb.stands ha.here ha.alone
  refine ⟨a.piece, (Board.asset?_eq_some.1 hstands.asset).1, hstands.owner, ?_⟩
  rw [hstands.place]
  unfold Context.mayLoadFrom at hmay
  simp only [Bool.and_eq_true, Bool.not_eq_true', Bool.and_eq_false_iff, beq_eq_false_iff_ne]
    at hmay
  obtain ⟨⟨⟨-, hspared⟩, hcalm⟩, hsafe⟩ := hmay
  refine ⟨hspared, hcalm, fun ⟨hdanger, hcapital⟩ => ?_⟩
  rcases hsafe with hsafe | hsafe
  · rw [hdanger] at hsafe
    cases hsafe
  · exact hsafe hcapital

/-- A peninsula of Red with a transport off either coast, and Blue at its neck. -/
def peninsula : Scenario where
  players := [{ name := "Red", team := 0 }, { name := "Blue", team := 1 }]
  territories := [
    { name := "Cape", owner := some "Red" },
    { name := "Neck", owner := some "Blue" },
    { name := "West", water := true },
    { name := "East", water := true }]
  connections := [("Cape", "Neck"), ("Cape", "West"), ("Cape", "East")]
  kinds := [
    { name := "infantry", attack := 1, defense := 2, cost := 3, transportCost := 2 },
    { name := "transport", domain := .sea, movement := 2, cost := 7, transportCapacity := 4 }]
  pieces := [
    { kind := "infantry", owner := "Red", place := "Cape", count := 4 },
    { kind := "infantry", owner := "Blue", place := "Neck", count := 1 },
    { kind := "transport", owner := "Red", place := "West", count := 1 },
    { kind := "transport", owner := "Red", place := "East", count := 1 }]

set_option maxRecDepth 100000 in
/-- The first transport takes two infantry and the other, although it has as much room, only one,
so that one of them stays on the cape. -/
theorem loadTransports_spares_peninsula : ∃ h, peninsula.setUp = .ok h ∧
    0 < (Context.build h.board 0 {}).threat h.board 0 ∧
    ∃ orders l', (Context.build h.board 0 {}).loadTransports h.board (fun _ => true)
        (.new .combat) = .ok orders l' ∧ named orders = [0, 1, 2] ∧
      ∃ a, MayEmbark h.board (.build h.board 0 {}) l' 0 a := by
  have hpass : (peninsula.setUp.toOption.any fun h =>
      let c := Context.build h.board 0 {}
      endsWith (fun orders _ => decide (named orders = [0, 1, 2] ∧ 0 < c.threat h.board 0 ∧
        c.loadable h.board (.new .combat) 0 ≠ []))
        (c.loadTransports h.board fun _ => true) (.new .combat)) = true := by
    decide +kernel
  obtain ⟨h, hset, hcheck⟩ := exists_setUp hpass
  obtain ⟨orders, l', hends, -, -, -, -, hspares⟩ := loadTransports_spares peninsula h hset []
    (.build h.board 0 {}) (fun _ => true) (.new .combat)
  have hfacts := test_of_endsWith hcheck hends
  obtain ⟨hnamed, hthreat, hsome⟩ := of_decide_eq_true hfacts
  obtain ⟨a, ha⟩ := List.exists_mem_of_ne_nil _ hsome
  exact ⟨h, hset, hthreat, orders, l', hends, hnamed,
    hspares 0 hthreat ⟨a, Context.mem_loadable.1 ha⟩⟩

end Scenario

end Conquest
