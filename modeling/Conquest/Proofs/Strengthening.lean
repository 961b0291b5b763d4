import Conquest.Proofs.Amounts
import Conquest.Proofs.Choice
import Conquest.Strength

/-!
# Strengthening

A further piece never lowers the strength of a stack. It may make submarines count, pair artillery
with a supported piece or turn an unarmed stack into one that can attack; what it does to the value
of another piece is never a loss, and its own value is never below nothing.

* `sum_insert`: a sum in single precision grows by inserting and by raising summands.
* `Evaluator.Proper`: what the evaluator of a configuration guarantees of its weights.
* `Evaluator.Proper.assetValue_mono`, `Evaluator.Proper.total_insert`: the value of a piece grows
  when submarines can be targeted, and the total with a further participant.
* `Evaluator.evaluate_insert`: a stack with a piece inserted is at least as strong.
-/

namespace Conquest

open Binary32

/-! ## Inserted elements -/

/-- An element with a key of its own stays where it is inserted when duplicates are dropped, and
nothing else goes. -/
theorem exists_eraseDupsBy_insert {α : Type} (key : α → Nat) {x : α} (before after : List α)
    (hfresh : ∀ y ∈ before ++ after, key y ≠ key x) :
    ∃ left right,
      (before ++ after).eraseDupsBy (fun a b => key a == key b) = left ++ right ∧
      (before ++ x :: after).eraseDupsBy (fun a b => key a == key b) = left ++ x :: right := by
  let unseen : α → Bool := fun y => !(before.map key).contains (key y)
  have hx : unseen x = true := by
    rw [Bool.not_eq_true', ← Bool.not_eq_true, List.contains_iff_mem, List.mem_map]
    rintro ⟨y, hy, hkey⟩
    exact hfresh y (List.mem_append_left after hy) hkey
  -- nothing that follows is a duplicate of the new element
  have hkept : (after.filter unseen).filter (fun y => decide ((key y == key x) = false)) =
      after.filter unseen := by
    rw [List.filter_eq_self]
    intro y hy
    simpa using hfresh y (List.mem_append_right before (List.mem_of_mem_filter hy))
  refine ⟨_, _, eraseDupsBy_append key before after, ?_⟩
  rw [eraseDupsBy_append, List.filter_cons_of_pos hx, List.eraseDupsBy_cons, hkept]

/-! ## Sums -/

theorem foldl_add_mono {α : Type} {f f' : α → Float32} (h : ∀ x, 0 ≤ f x ∧ f x ≤ f' x)
    (xs : List α) {s s' : Float32} (hs : 0 ≤ s) (hss : s ≤ s') :
    0 ≤ (xs.map f).foldl (· + ·) s ∧ (xs.map f).foldl (· + ·) s ≤ (xs.map f').foldl (· + ·) s' := by
  induction xs generalizing s s' with
  | nil => exact ⟨hs, hss⟩
  | cons x xs ih => exact ih (zero_le_add hs (h x).1) (add_mono hs hss (h x).1 (h x).2)

/-- Raising summands and inserting one lowers no sum. -/
theorem sum_insert {α : Type} {f f' : α → Float32} (h : ∀ x, 0 ≤ f x ∧ f x ≤ f' x)
    (left right : List α) (x : α) :
    0 ≤ Binary32.sum ((left ++ right).map f) ∧
      Binary32.sum ((left ++ right).map f) ≤ Binary32.sum ((left ++ x :: right).map f') := by
  unfold Binary32.sum
  rw [List.map_append, List.map_append, List.foldl_append, List.foldl_append, List.map_cons,
    List.foldl_cons]
  rcases foldl_add_mono h left means_zero.zero_le means_zero.zero_le with ⟨hnonneg, hle⟩
  have hx : 0 ≤ f' x := le_transitive (h x).1 (h x).2
  apply foldl_add_mono h right hnonneg
  exact le_transitive hle (le_add (le_transitive hnonneg hle) hx)

namespace Evaluator

/-! ## Values -/

/-- What the evaluator of a configuration guarantees of its weights. -/
structure Proper (e : Evaluator) : Prop where
  transport : 0 ≤ e.transportEscortValue
  submarine : e.submarineFactor.isNaN = true ∨ 0 ≤ e.submarineFactor ∧ e.submarineFactor ≤ 1
  artillery : 0 ≤ e.artilleryBonus
  finite : e.artilleryBonus.isFinite = true

theorem proper_ofConfig {c : Config} (hbonus : c.artilleryBonus.isFinite = true) (rules : Rules) :
    (ofConfig c rules).Proper where
  transport := zero_le_larger _
  submarine := by
    show (clamp c.unescortedSubmarineFactor 0 1).isNaN = true ∨ _
    cases hnan : c.unescortedSubmarineFactor.isNaN with
    | false => exact .inr (clamp_mem hnan)
    | true =>
      rw [clamp_of_isNaN hnan]
      exact .inl hnan
  artillery := zero_le_larger _
  finite := by
    show (larger c.artilleryBonus 0).isFinite = true
    by_cases h : 0 ≤ c.artilleryBonus
    · rw [larger_of_zero_le h]
      exact hbonus
    · rw [larger_of_not_zero_le h]
      rfl

variable {e : Evaluator}

theorem Proper.zero_le_assetValue (he : e.Proper) (g : Engagement) (targetable : Bool)
    (k : PieceKind) : 0 ≤ e.assetValue g targetable k := by
  unfold assetValue
  split
  · split
    · exact he.transport
    · exact means_zero.zero_le
  · exact zero_le_larger _

/-- A piece is worth no less when submarines can be targeted. -/
theorem Proper.assetValue_mono (he : e.Proper) (g : Engagement) {targetable targetable' : Bool}
    (h : targetable = true → targetable' = true) (k : PieceKind) :
    e.assetValue g targetable k ≤ e.assetValue g targetable' k := by
  have hself : ∀ t, e.assetValue g t k ≤ e.assetValue g t k := fun t =>
    le_reflexive (isNaN_eq_false_of_le (he.zero_le_assetValue g t k)).2
  cases targetable with
  | true =>
    rw [h rfl]
    exact hself true
  | false =>
    cases targetable' with
    | false => exact hself false
    | true =>
      by_cases hplain : k.isTransport = true ∨ k.isSubmarine = false
      · -- only the value of submarines depends on it
        have heq : e.assetValue g false k = e.assetValue g true k := by
          unfold assetValue
          rcases hplain with htransport | hsubmarine
          · rw [if_pos htransport, if_pos htransport]
          · simp only [hsubmarine, Bool.false_and]
        rw [heq]
        exact hself true
      · rw [not_or, Bool.not_eq_true, Bool.not_eq_false] at hplain
        unfold assetValue
        simp only [hplain.1, hplain.2, Bool.false_eq_true, if_false, Bool.not_false, Bool.and_true,
          if_true, Bool.not_true]
        -- the factor of a submarine that cannot be targeted is at most one
        exact larger_mul_le he.submarine

/-! ## Totals -/

theorem members_length_le (e : Evaluator) (g : Engagement) (assets : List Asset) :
    (e.members g assets).length ≤ assets.length :=
  (List.filter_sublist.trans (eraseDupsBy_sublist _ assets)).length_le

/-- A piece that is inserted joins the participants or leaves them as they are. -/
theorem members_insert (e : Evaluator) (g : Engagement) {before after : List Asset}
    {a : Asset} (hfresh : ∀ b ∈ before ++ after, b.id ≠ a.id) :
    ∃ left right, e.members g (before ++ after) = left ++ right ∧
      (e.members g (before ++ a :: after) = left ++ a :: right ∨
        e.members g (before ++ a :: after) = left ++ right) := by
  rcases exists_eraseDupsBy_insert Asset.id before after hfresh with ⟨left, right, hwithout, hwith⟩
  refine ⟨left.filter (e.participates g), right.filter (e.participates g), ?_, ?_⟩
  · show ((before ++ after).eraseDupsBy _).filter _ = _
    rw [hwithout, List.filter_append]
  · show ((before ++ a :: after).eraseDupsBy _).filter _ = _ ∨
      ((before ++ a :: after).eraseDupsBy _).filter _ = _
    rw [hwith, List.filter_append]
    by_cases ha : e.participates g a = true
    · exact .inl (by rw [List.filter_cons_of_pos ha])
    · exact .inr (by rw [List.filter_cons_of_neg ha])

theorem any_insert {p : Asset → Bool} {left right : List Asset} {a : Asset}
    (h : (left ++ right).any p = true) : (left ++ a :: right).any p = true := by
  rw [List.any_append, Bool.or_eq_true] at h
  rw [List.any_append, List.any_cons, Bool.or_eq_true, Bool.or_eq_true]
  rcases h with h | h
  · exact .inl h
  · exact .inr (.inr h)

/-- With a further participant there are no fewer pairs of artillery and supported piece, no fewer
submarines count and nothing else changes. -/
theorem Proper.total_insert (he : e.Proper) (g : Engagement) {left right : List Asset} {a : Asset}
    (hlen : (left ++ a :: right).length < 2 ^ 64) :
    0 ≤ e.total g (left ++ right) ∧
      e.total g (left ++ right) ≤ e.total g (left ++ a :: right) := by
  have hless : (left ++ right).Sublist (left ++ a :: right) :=
    (List.Sublist.refl left).append (List.sublist_cons_self a right)
  -- a destroyer that takes part still takes part
  have htargetable :
      (!e.submarinesNeedDestroyer || (left ++ right).any (·.kind.isDestroyer)) = true →
      (!e.submarinesNeedDestroyer || (left ++ a :: right).any (·.kind.isDestroyer)) = true := by
    rw [Bool.or_eq_true, Bool.or_eq_true]
    exact Or.imp_right any_insert
  have hvalues := sum_insert (fun b : Asset => ⟨he.zero_le_assetValue g _ b.kind,
    he.assetValue_mono g htargetable b.kind⟩) left right a
  unfold total
  dsimp only
  split
  · -- there are as many pairs as the scarcer of the two allows
    have hpairs : min ((left ++ right).countP (·.kind.isArtillery))
          ((left ++ right).countP (·.kind.artillerySupportable)) ≤
        min ((left ++ a :: right).countP (·.kind.isArtillery))
          ((left ++ a :: right).countP (·.kind.artillerySupportable)) :=
      min_le_min hless.countP_le hless.countP_le
    have hmost : min ((left ++ a :: right).countP (·.kind.isArtillery))
        ((left ++ a :: right).countP (·.kind.artillerySupportable)) < 2 ^ 64 :=
      Nat.lt_of_le_of_lt (Nat.le_trans (Nat.min_le_left _ _) List.countP_le_length) hlen
    have hbonus := mul_ofNat_mono he.artillery he.finite hpairs hmost
    exact ⟨zero_le_add hvalues.1 hbonus.1,
      add_mono hvalues.1 hvalues.2 hbonus.1 hbonus.2⟩
  · exact hvalues

/-! ## Strength -/

/-- A stack that is worth nothing with a further participant is worth nothing without it. -/
theorem idle_of_insert {g : Engagement} {left right : List Asset} {a : Asset}
    (h : ((left ++ a :: right).isEmpty ||
      (g.attacking && !(left ++ a :: right).any fun b => decide (1 ≤ b.kind.attack))) = true) :
    ((left ++ right).isEmpty ||
      (g.attacking && !(left ++ right).any fun b => decide (1 ≤ b.kind.attack))) = true := by
  have hsome : (left ++ a :: right).isEmpty = false := by
    cases left <;> rfl
  rw [hsome, Bool.false_or, Bool.and_eq_true, Bool.not_eq_true'] at h
  have hunarmed : ((left ++ right).any fun b => decide (1 ≤ b.kind.attack)) = false := by
    by_contra harmed
    rw [Bool.not_eq_false] at harmed
    rw [any_insert harmed] at h
    cases h.2
  rw [h.1, hunarmed]
  exact Bool.or_true _

/-- A stack with a piece inserted anywhere is at least as strong as the stack without it, and
neither is worth less than nothing. The length of a list is a machine word, so that no number of
pairs is rounded to infinity; of the configuration only the bonus of a pair has to be finite. -/
theorem evaluate_insert {c : Config} (hbonus : c.artilleryBonus.isFinite = true) (rules : Rules)
    (g : Engagement) {before after : List Asset} {a : Asset}
    (hfresh : ∀ b ∈ before ++ after, b.id ≠ a.id)
    (hlen : (before ++ a :: after).length < 2 ^ 64) :
    0 ≤ (ofConfig c rules).evaluate g (before ++ after) ∧
      0 ≤ (ofConfig c rules).evaluate g (before ++ a :: after) ∧
      (ofConfig c rules).evaluate g (before ++ after) ≤
        (ofConfig c rules).evaluate g (before ++ a :: after) := by
  have he := proper_ofConfig hbonus rules
  generalize ofConfig c rules = e at he
  rcases members_insert e g hfresh with ⟨left, right, hwithout, hwith⟩
  have hroom : (left ++ a :: right).length < 2 ^ 64 := by
    have hmost := members_length_le e g (before ++ after)
    rw [hwithout, List.length_append, List.length_append] at hmost
    rw [List.length_append, List.length_cons] at hlen ⊢
    omega
  rcases he.total_insert g hroom with ⟨hnonneg, hle⟩
  have hzero : (0 : Float32) ≤ Float32.ofNat 0 := means_zero.zero_le
  have hself : ∀ x : Float32, 0 ≤ x → 0 ≤ x ∧ 0 ≤ x ∧ x ≤ x := fun x hx =>
    ⟨hx, hx, le_reflexive (isNaN_eq_false_of_le hx).2⟩
  unfold evaluate
  dsimp only
  rw [hwithout]
  rcases hwith with hwith | hwith
  · rw [hwith]
    -- the longer stack is worth nothing only where the shorter one is
    by_cases hidle : ((left ++ a :: right).isEmpty ||
        (g.attacking && !(left ++ a :: right).any fun b => decide (1 ≤ b.kind.attack))) = true
    · rw [if_pos hidle, if_pos (idle_of_insert hidle)]
      exact hself _ hzero
    · rw [if_neg hidle]
      split
      · exact ⟨hzero, le_transitive hnonneg hle, le_transitive hnonneg hle⟩
      · exact ⟨hnonneg, le_transitive hnonneg hle, hle⟩
  · rw [hwith]
    split
    · exact hself _ hzero
    · exact hself _ hnonneg

/-- A submarine, which counts nothing where it cannot be targeted. -/
def lurker : Asset where
  piece := { id := 7, kind := 0, owner := 0, territory := 3, movementLeft := 2 }
  kind := { domain := .sea, attack := 2, defense := 1, isSubmarine := true }

/-- A destroyer, which makes submarines count. -/
def escort : Asset where
  piece := { id := 4, kind := 1, owner := 0, territory := 3, movementLeft := 2 }
  kind := { domain := .sea, attack := 2, defense := 2, isDestroyer := true }

/-- Before a submarine a destroyer adds its own value and that of the submarine. -/
theorem evaluate_insert_escort :
    (ofConfig {} { submarinesNeedDestroyer := true }).evaluate ⟨false, true, true⟩ [lurker] = 0 ∧
    (ofConfig {} { submarinesNeedDestroyer := true }).evaluate ⟨false, true, true⟩
      [escort, lurker] = 5 ∧
    (ofConfig {} { submarinesNeedDestroyer := true }).evaluate ⟨false, true, true⟩ [lurker] ≤
      (ofConfig {} { submarinesNeedDestroyer := true }).evaluate ⟨false, true, true⟩
        [escort, lurker] := by
  have hbonus : ({} : Config).artilleryBonus.isFinite = true := by
    decide +kernel
  have hfresh : ∀ b ∈ [] ++ [lurker], b.id ≠ escort.id := by
    decide
  have hlen : ([] ++ escort :: [lurker]).length < 2 ^ 64 := by
    decide
  have hinsert := evaluate_insert hbonus { submarinesNeedDestroyer := true } ⟨false, true, true⟩
    hfresh hlen
  rw [List.nil_append, List.nil_append] at hinsert
  refine ⟨?_, ?_, hinsert.2.2⟩
  · decide +kernel
  · decide +kernel

end Evaluator

end Conquest
