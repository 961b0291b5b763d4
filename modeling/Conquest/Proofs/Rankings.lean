import Conquest.Proofs.Descending
import Conquest.Proofs.Play

/-!
# A ranking depends on nothing but its candidates

Candidates are ranked by three things: their scores, their distances from the capital and their
identifiers. Where every score is a number these make up a linear order, in which only repetitions
of one territory share a place. So a ranking is the one way to write its candidates down in this
order, however they were listed before.

* `Shorter`, `extent_lt_iff`, `compareDistance_eq`: the order of distances.
* `Ranked.Before`: what comes first; `Ranked.before_iff`.
* `Context.rank_canonical`: the ranking is in order, and there is no other.
-/

namespace Conquest

/-! ## Distances -/

/-- One distance is shorter than another: it is finite, and the other one is longer or not finite. -/
def Shorter (d e : Option Nat) : Prop := ∃ m, d = some m ∧ ∀ n, e = some n → m < n

/-- What distances are compared by: what cannot be reached comes after all that can. -/
def extent : Option Nat → Nat ×ₗ Nat
  | some m => toLex (0, m)
  | none => toLex (1, 0)

theorem compareDistance_eq (d e : Option Nat) :
    compareDistance d e = compare (extent d) (extent e) := by
  cases d with
  | none =>
    cases e with
    | none => rfl
    | some n => rfl
  | some m =>
    cases e with
    | none => rfl
    | some n =>
      rw [extent, extent, compare_toLex]
      rfl

/-- A distance is less when it is shorter, and no distance is the longest. -/
theorem extent_lt_iff {d e : Option Nat} : extent d < extent e ↔ Shorter d e := by
  cases d with
  | none =>
    cases e with
    | none => simp [extent, Shorter]
    | some n => simp [extent, Shorter, Prod.Lex.toLex_lt_toLex]
  | some m =>
    cases e with
    | none => simp [extent, Shorter, Prod.Lex.toLex_lt_toLex]
    | some n => simp [extent, Shorter, Prod.Lex.toLex_lt_toLex]

theorem extent_inj {d e : Option Nat} : extent d = extent e ↔ d = e := by
  cases d with
  | none => cases e <;> simp [extent]
  | some m => cases e <;> simp [extent]

/-! ## Ranks -/

namespace Ranked

/-- The first of two territories scores higher, or as high and it is nearer to the capital, or it is
as near and its identifier is not the higher one. -/
def Before (x y : Ranked) : Prop :=
  y.score < x.score ∨ (y.score == x.score) = true ∧
    (Shorter x.capitalDistance y.capitalDistance ∨
      x.capitalDistance = y.capitalDistance ∧ x.territory ≤ y.territory)

/-- What decides between territories of one score. -/
def tie (x : Ranked) : (Nat ×ₗ Nat) ×ₗ Nat := toLex (extent x.capitalDistance, x.territory)

/-- Ties are broken by the distance to the capital, and then by id. -/
theorem tie_le_iff {x y : Ranked} :
    x.tie ≤ y.tie ↔ Shorter x.capitalDistance y.capitalDistance ∨
      x.capitalDistance = y.capitalDistance ∧ x.territory ≤ y.territory := by
  rw [tie, tie, Prod.Lex.toLex_le_toLex, extent_lt_iff, extent_inj]

/-- Nothing but the territory itself ties to the end. -/
theorem territory_eq_of_tie {x y : Ranked} (h : x.tie = y.tie) : x.territory = y.territory :=
  congrArg (fun k => (ofLex k).2) h

/-- The ranking compares scores, greater first, and then ties. -/
theorem order_eq (x y : Ranked) :
    Ranked.order x y = (Binary32.order y.score x.score).then (compare x.tie y.tie) := by
  rw [Ranked.order, compareDistance_eq, tie, tie, compare_toLex]

end Ranked

/-! ## Rankings -/

namespace Context

/-- Whatever the board and the purpose: where all candidates score numbers, their ranking lists each
of them as often as it was offered, with its score and its distance from the capital; a higher score
comes first, then what is nearer to the capital, then the lower identifier. The ranking stays the
same in whatever order the candidates are offered. -/
theorem rank_canonical (c : Context) (b : Board) (purpose : Purpose)
    (candidates : List TerritoryId)
    (hnumbers : ∀ t ∈ candidates, (c.score b purpose t).isNaN = false) :
    ((c.rank b candidates purpose).map (·.territory)).Perm candidates ∧
    (∀ x ∈ c.rank b candidates purpose, x = c.scored b purpose x.territory) ∧
    (c.rank b candidates purpose).Pairwise Ranked.Before ∧
    ∀ candidates', candidates'.Perm candidates →
      c.rank b candidates' purpose = c.rank b candidates purpose := by
  have hscored : ∀ x ∈ candidates.map (c.scored b purpose),
      x.score.isNaN = false ∧ x = c.scored b purpose x.territory := by
    intro x hx
    rcases List.mem_map.1 hx with ⟨t, ht, rfl⟩
    exact ⟨hnumbers t ht, rfl⟩
  refine ⟨c.bestFirst_perm b candidates purpose, ?_, ?_, ?_⟩
  · intro x hx
    exact (hscored x (mem_sortBy.1 hx)).2
  · have hsorted := pairwise_sortBy_descending Ranked.order_eq fun x hx => (hscored x hx).1
    simp only [Ranked.tie_le_iff] at hsorted
    exact hsorted
  · intro candidates' hperm
    refine sortBy_descending_of_perm Ranked.order_eq (fun x hx => (hscored x hx).1) ?_
      (hperm.map _)
    -- two entries that tie show one territory, and all else follows from that
    intro x hx y hy htie
    rw [(hscored x hx).2, (hscored y hy).2, Ranked.territory_eq_of_tie htie]

end Context

namespace Scenario

/-- Three lands of nobody, two of them next to the capital of Red, and the keep of Blue. -/
def wilderness : Scenario where
  players := [{ name := "Red", capital := some "Home" },
    { name := "Blue", team := 1, capital := some "Keep" }]
  territories := [
    { name := "Home", owner := some "Red" },
    { name := "Wood", production := 1 },
    { name := "Moor", production := 1 },
    { name := "Fen", production := 1 },
    { name := "Keep", owner := some "Blue", production := 2 }]
  connections := [("Home", "Moor"), ("Home", "Fen"), ("Moor", "Wood"), ("Wood", "Keep")]
  kinds := [{ name := "infantry", attack := 1, defense := 2, cost := 3 }]

set_option maxRecDepth 100000 in
/-- The keep is worth most; the other three are worth the same, and the wood is the farthest. -/
theorem rank_canonical_wilderness : ∃ h, wilderness.setUp = .ok h ∧
    (∀ t ∈ [1, 2, 3, 4], ((Context.build h.board 0 {}).score h.board .attack t).isNaN = false) ∧
    ((Context.build h.board 0 {}).bestFirst h.board [1, 2, 3, 4] .attack = [4, 2, 3, 1]) ∧
    ((Context.build h.board 0 {}).rank h.board [1, 2, 3, 4] .attack).Pairwise Ranked.Before ∧
    (Context.build h.board 0 {}).bestFirst h.board [3, 1, 4, 2] .attack = [4, 2, 3, 1] := by
  have hpass : (wilderness.setUp.toOption.any fun h =>
      let c := Context.build h.board 0 {}
      [1, 2, 3, 4].all (fun t => !(c.score h.board .attack t).isNaN) &&
        c.bestFirst h.board [1, 2, 3, 4] .attack == [4, 2, 3, 1]) = true := by
    decide +kernel
  obtain ⟨h, hset, hcheck⟩ := exists_setUp hpass
  simp only [Bool.and_eq_true, List.all_eq_true, Bool.not_eq_true', beq_iff_eq] at hcheck
  obtain ⟨hnumbers, hbest⟩ := hcheck
  obtain ⟨-, -, hordered, hsame⟩ := Context.rank_canonical _ _ .attack [1, 2, 3, 4] hnumbers
  have hperm : [3, 1, 4, 2].Perm [1, 2, 3, 4] := by
    decide
  refine ⟨h, hset, hnumbers, hbest, hordered, ?_⟩
  rw [Context.bestFirst, hsame _ hperm]
  exact hbest

end Scenario

end Conquest
