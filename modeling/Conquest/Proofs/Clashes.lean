import Conquest.Proofs.Play
import Conquest.Proofs.Run

/-!
# When a turn cannot be planned

A turn can always be planned, except that planning may take a piece twice: a loaded armed ship that
has gone along as the escort of another one, or a strategic bomber that is aboard a land piece and
so listed in two places. Where no armed ship can carry cargo and strategic bombers are aircraft,
every turn can be planned.

* `runTurn_ok_or_clash`: on every board that can be reached a turn ends, or clashes.
* `escort_taken_twice`: a board on which it clashes.
-/

namespace Conquest

/-- Armed ships cannot carry cargo, and strategic bombers are aircraft. -/
def PieceKind.IsPlain (k : PieceKind) : Prop :=
  (k.carriesCargo = true → k.attack = 0) ∧ (k.isStrategicBomber = true → k.isAir = true)

instance (k : PieceKind) : Decidable k.IsPlain :=
  inferInstanceAs (Decidable ((_ → _) ∧ (_ → _)))

/-- Where all kinds are plain nothing clashes. -/
theorem Board.not_clash {b : Board} (hb : b.Sound) (hplain : ∀ k, (b.kind k).IsPlain)
    (p : PlayerId) (u : PieceId) : ¬ b.Clash p u := by
  rintro (⟨z, a, ha, -, hcargo, harmed, -⟩ | ⟨a, hasset, -, hbomber, hstray, -⟩)
  · rcases mem_assetsIn.1 (mem_ownedIn.1 ha).1 with ⟨w, -, hasset⟩
    have hkind := (asset?_eq_some.1 hasset).2
    have hzero := (hplain a.piece.kind).1 (hkind ▸ hcargo)
    rw [← hkind] at hzero
    omega
  · rcases asset?_eq_some.1 hasset with ⟨hpiece, hkind⟩
    have hair := (hplain a.piece.kind).2 (hkind ▸ hbomber)
    -- an aircraft is aboard nothing, so its place is certain
    have hnone := hb.carrier_eq_none hpiece (PieceKind.isLand_eq_false (.inr hair))
    exact hstray (isSettled_of_carrier hnone)

namespace Scenario

variable {s : Scenario} {h : Table}

/-- All boards of a game have the kinds of its scenario. -/
theorem isPlain_of_play (hset : s.setUp = .ok h) (hplain : ∀ k ∈ s.kinds, k.IsPlain) {b : Board}
    (hground : h.board.SameGround b) (k : KindId) : (b.kind k).IsPlain := by
  rw [hground.kind]
  exact forall_kind_of_setUp hset (by decide) (fun _ _ h => h) hplain k

end Scenario

namespace Campaign

/-- On every board that can be reached, planning a turn fails only by a clash on the board of that
moment, and it does not fail at all where all kinds are plain. -/
theorem runTurn_ok_or_clash (s : Scenario) (h : Table) (hset : s.setUp = .ok h)
    (commands : List Command) (desk : Desk) :
    (∀ e last, runTurn ⟨h.play commands, desk⟩ = .error e last →
      ∃ u epoch, e = .doubleCommit u epoch ∧ last.host.board.Clash desk.context.player u) ∧
    ((∀ k ∈ s.kinds, k.IsPlain) →
      ∃ records last, runTurn ⟨h.play commands, desk⟩ = .ok records last) := by
  rcases Table.play_keeps (Scenario.setUp_sound hset) commands with ⟨hsound, hground⟩
  have hrun := runTurn_ensures (Table.steady h.board) (s := ⟨h.play commands, desk⟩)
    ⟨hsound, hground⟩
  unfold Ensures at hrun
  cases hresult : runTurn ⟨h.play commands, desk⟩ with
  | ok records last =>
    constructor
    · intro e last' heq
      cases heq
    · intro _
      exact ⟨records, last, rfl⟩
  | error e last =>
    rw [hresult] at hrun
    rcases hrun with ⟨epoch, ⟨hgood, hground'⟩, u, rfl, hclash⟩
    constructor
    · intro e' last' heq
      cases heq
      exact ⟨u, epoch, rfl, hclash⟩
    · intro hplain
      -- the clash would be of pieces of the scenario, and those are plain
      have hkinds := Scenario.isPlain_of_play hset hplain hground'
      exact absurd hclash (Board.not_clash hgood hkinds _ _)

end Campaign

/-! ## An escort that is taken twice -/

/-- A transport and an armed ship with room lie in a bay, and an enemy destroyer threatens the way
to the enemy coast. -/
def convoy : Scenario where
  players := [{ name := "Red" }, { name := "Blue", team := 1 }]
  territories := [
    { name := "Home", owner := some "Red" }, { name := "Coast", owner := some "Blue" },
    { name := "Bay", water := true }, { name := "Strait", water := true },
    { name := "Ocean", water := true }]
  connections :=
    [("Home", "Bay"), ("Bay", "Strait"), ("Strait", "Coast"), ("Strait", "Ocean")]
  kinds := [
    { name := "infantry", attack := 1, defense := 2, cost := 3, transportCost := 2 },
    { name := "transport", domain := .sea, defense := 1, movement := 2, cost := 7,
      transportCapacity := 2 },
    { name := "raider", domain := .sea, attack := 2, defense := 1, movement := 2, cost := 9,
      transportCapacity := 2 },
    { name := "destroyer", domain := .sea, attack := 2, defense := 2, movement := 2, cost := 8 }]
  pieces := [
    { kind := "transport", owner := "Red", place := "Bay" },
    { kind := "raider", owner := "Red", place := "Bay" },
    { kind := "infantry", owner := "Red", place := "Home" },
    { kind := "infantry", owner := "Blue", place := "Coast" },
    { kind := "destroyer", owner := "Blue", place := "Ocean" },
    { kind := "infantry", owner := "Red", place := "Bay" }]

/-- The convoy without armed ships that have room. -/
def unarmedConvoy : Scenario :=
  { convoy with
    kinds := convoy.kinds.map fun k =>
      if k.carriesCargo then
        { k with
          attack := 0
          words := areWords_cons.2 ⟨by decide, (areWords_cons.1 k.words).2⟩ }
      else k }

/-- Infantry goes aboard the second ship of the bay. -/
def boarding : List Command :=
  [.move 0 { pieces := [2], route := .step 0 2, action := .load 1 }]

namespace Campaign

/-- Without armed ships that have room the turn is planned. -/
theorem runTurn_ok_unarmedConvoy : ∃ h records last, unarmedConvoy.setUp = .ok h ∧
    runTurn ⟨h.play boarding, .fresh (h.play boarding).board 0 {}⟩ = .ok records last := by
  rcases exists_eq_ok (x := unarmedConvoy.setUp) (by decide +kernel) with ⟨h, hset⟩
  obtain ⟨records, last, hrun⟩ :=
    (runTurn_ok_or_clash unarmedConvoy h hset boarding _).2 (by decide)
  exact ⟨h, records, last, hset, hrun⟩

set_option maxRecDepth 100000 in
/-- The armed ship goes along as the escort of the transport and is then to sail itself. -/
theorem escort_taken_twice : ∃ h last, convoy.setUp = .ok h ∧
    runTurn ⟨h.play boarding, .fresh (h.play boarding).board 0 {}⟩ =
      .error (.doubleCommit 1 .combat) last := by
  have hpass : (convoy.setUp.toOption.any fun h =>
      match runTurn ⟨h.play boarding, .fresh (h.play boarding).board 0 {}⟩ with
      | .error e _ => decide (e = .doubleCommit 1 .combat)
      | .ok _ _ => false) = true := by decide +kernel
  obtain ⟨h, hset, hcheck⟩ := Scenario.exists_setUp hpass
  split at hcheck
  · rename_i e last hrun
    exact ⟨h, last, hset, of_decide_eq_true hcheck ▸ hrun⟩
  · cases hcheck

end Campaign

/-! ## A bomber that is taken twice -/

/-- A truck can carry commandos that raid factories, and a ship can carry the truck. -/
def commandoRaid : Scenario where
  players := [{ name := "Red" }, { name := "Blue", team := 1 }]
  territories := [
    { name := "Depot", owner := some "Red" }, { name := "Home", owner := some "Red" },
    { name := "Coast", owner := some "Red" },
    { name := "Fort", owner := some "Blue", factory := true, production := 2 },
    { name := "Bay", water := true }, { name := "Strait", water := true }]
  connections :=
    [("Depot", "Home"), ("Home", "Bay"), ("Bay", "Strait"), ("Strait", "Coast"),
      ("Coast", "Fort")]
  kinds := [
    { name := "commando", movement := 3, cost := 3, transportCost := 1,
      isStrategicBomber := true },
    { name := "truck", movement := 2, cost := 7, transportCapacity := 1, transportCost := 1 },
    { name := "ship", domain := .sea, movement := 2, cost := 9, transportCapacity := 2 }]
  pieces := [
    { kind := "ship", owner := "Red", place := "Bay" },
    { kind := "truck", owner := "Red", place := "Home" },
    { kind := "commando", owner := "Red", place := "Depot" },
    { kind := "commando", owner := "Blue", place := "Fort" }]

/-- The commando boards the truck, the truck boards the ship, and the ship lands the truck
elsewhere. The commando is then listed in the bay and on the coast. -/
def ferrying : List Command := [
  .move 0 { pieces := [2], route := .step 0 1, action := .load 1 },
  .move 0 { pieces := [1], route := .step 1 4, action := .load 0 },
  .move 0 { pieces := [0], route := ⟨4, [5, 2]⟩, action := .unload }]

set_option maxRecDepth 100000 in
example : (match commandoRaid.setUp with
    | .error _ => false
    | .ok h =>
      match Campaign.runTurn ⟨h.play ferrying, .fresh (h.play ferrying).board 0 {}⟩ with
      | .error e _ => decide (e = .doubleCommit 2 .combat)
      | .ok _ _ => false) = true := by decide +kernel

end Conquest
