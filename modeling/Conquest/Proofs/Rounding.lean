import Mathlib.Data.Int.Log
import Mathlib.Data.Rat.Floor
import Mathlib.Tactic.Linarith
import Mathlib.Tactic.NormNum
import Mathlib.Tactic.Positivity
import Mathlib.Tactic.Ring
import Conquest.Proofs.Magnitude

/-!
# Rounding

The result of an operation on single-precision numbers is the exact result rounded to a multiple of
the unit in its last place, to the even one of two that are equally near. Greater results have
greater units or the same, so rounding keeps the order of what is rounded.

* `roundEven`, `nearest`: rounding of rationals; `nearest_mono`: it keeps the order.
* `Shows.roundedMantissa`: the two bits kept of what is shifted out decide the rounding.
* `IsCanonical`, `Writes`: how a magnitude is written; `writes_roundWithAccuracy`, `writes_round`:
  rounding writes the nearest number.
* `unpack_pack_finite`, `unpack_pack_overflow`: packing keeps a canonical number or makes it an
  infinity; `isCanonical_unpack`: what bits stand for is canonical.
-/

namespace Conquest

namespace Binary32

open Float.Model (Format UnpackedFloat totalExponent)
open Float.Model.UnpackedFloat

/-! ## Rounding to whole numbers -/

/-- The nearest whole number; of two that are equally near the even one. -/
def roundEven (x : ℚ) : ℤ :=
  if Int.fract x < 1 / 2 then ⌊x⌋ else if 1 / 2 < Int.fract x then ⌊x⌋ + 1 else ⌊x⌋ + ⌊x⌋ % 2

/-- Whole numbers are rounded to themselves. -/
theorem roundEven_intCast (n : ℤ) : roundEven n = n := by
  unfold roundEven
  rw [Int.fract_intCast, if_pos (by norm_num), Int.floor_intCast]

theorem floor_le_roundEven (x : ℚ) : ⌊x⌋ ≤ roundEven x := by
  unfold roundEven
  split
  · exact le_refl _
  · split
    · omega
    · omega

theorem roundEven_le_floor (x : ℚ) : roundEven x ≤ ⌊x⌋ + 1 := by
  unfold roundEven
  split
  · omega
  · split
    · exact le_refl _
    · omega

/-- Rounding keeps the order. -/
theorem roundEven_mono {x y : ℚ} (h : x ≤ y) : roundEven x ≤ roundEven y := by
  rcases lt_or_eq_of_le (Int.floor_le_floor h) with hlt | heq
  · exact le_trans (roundEven_le_floor x) (le_trans hlt (floor_le_roundEven y))
  · have hfract : Int.fract x ≤ Int.fract y := by
      unfold Int.fract
      rw [heq]
      linarith
    unfold roundEven
    rw [heq]
    -- the part behind the point decides, and it is no greater on the left
    split
    · split
      · exact le_refl _
      · split
        · omega
        · omega
    · rename_i hlow
      rw [if_neg fun hy => hlow (lt_of_le_of_lt hfract hy)]
      split
      · rename_i hhigh
        rw [if_pos (lt_of_lt_of_le hhigh hfract)]
      · split
        · omega
        · exact le_refl _

/-! ## Rounding to the last place -/

/-- The exponent of the last of 24 places, which is never below that of the least number. -/
def lastPlace (x : ℚ) : ℤ := max (Int.log 2 x - 23) (-149)

/-- The nearest number of 24 places, whatever its exponent. -/
def nearest (x : ℚ) : ℚ := roundEven (x / 2 ^ lastPlace x) * 2 ^ lastPlace x

theorem two_zpow_pos (e : ℤ) : (0 : ℚ) < 2 ^ e := zpow_pos (by norm_num) e

theorem two_zpow_add (d e : ℤ) : (2 : ℚ) ^ (d + e) = 2 ^ d * 2 ^ e :=
  zpow_add₀ (by norm_num) d e

theorem two_zpow_le {d e : ℤ} (h : d ≤ e) : (2 : ℚ) ^ d ≤ 2 ^ e :=
  zpow_le_zpow_right₀ (by norm_num) h

/-- No more than 24 places are kept. -/
theorem div_lastPlace_lt (x : ℚ) : x / 2 ^ lastPlace x < 2 ^ 24 := by
  have hlog : x < 2 ^ (Int.log 2 x + 1) := Int.lt_zpow_succ_log_self (by norm_num) x
  have hplace : (2 : ℚ) ^ (Int.log 2 x + 1) ≤ 2 ^ (24 + lastPlace x) := by
    apply two_zpow_le
    unfold lastPlace
    omega
  rw [div_lt_iff₀ (two_zpow_pos _)]
  rw [two_zpow_add 24] at hplace
  exact lt_of_lt_of_le hlog hplace

/-- All 24 places are used unless the last place is that of the least number. -/
theorem le_div_lastPlace {x : ℚ} (hx : 0 < x) (hplace : lastPlace x ≠ -149) :
    2 ^ 23 ≤ x / 2 ^ lastPlace x := by
  have hlog : (2 : ℚ) ^ Int.log 2 x ≤ x := Int.zpow_log_le_self (by norm_num) hx
  have heq : Int.log 2 x = 23 + lastPlace x := by
    unfold lastPlace at hplace ⊢
    omega
  rw [heq, two_zpow_add] at hlog
  rw [le_div_iff₀ (two_zpow_pos _)]
  exact hlog

/-- Counted in last places, a number takes at most the 24 bits of a mantissa. -/
theorem roundEven_le (x : ℚ) : roundEven (x / 2 ^ lastPlace x) ≤ 2 ^ 24 := by
  have h := roundEven_mono (le_of_lt (div_lastPlace_lt x))
  rw [show (2 ^ 24 : ℚ) = ((2 ^ 24 : ℤ) : ℚ) by norm_num, roundEven_intCast] at h
  exact h

/-- Above the least exponent the mantissa has its full length. -/
theorem le_roundEven {x : ℚ} (hx : 0 < x) (hplace : lastPlace x ≠ -149) :
    2 ^ 23 ≤ roundEven (x / 2 ^ lastPlace x) := by
  have h := roundEven_mono (le_div_lastPlace hx hplace)
  rw [show (2 ^ 23 : ℚ) = ((2 ^ 23 : ℤ) : ℚ) by norm_num, roundEven_intCast] at h
  exact h

theorem nearest_zero : nearest 0 = 0 := by
  unfold nearest
  rw [zero_div, show (0 : ℚ) = ((0 : ℤ) : ℚ) by norm_num, roundEven_intCast]
  norm_num

theorem nearest_nonneg {x : ℚ} (hx : 0 ≤ x) : 0 ≤ nearest x := by
  have h := roundEven_mono (div_nonneg hx (le_of_lt (two_zpow_pos (lastPlace x))))
  rw [show (0 : ℚ) = ((0 : ℤ) : ℚ) by norm_num, roundEven_intCast] at h
  exact mul_nonneg (Int.cast_nonneg h) (le_of_lt (two_zpow_pos _))

/-- Rounding keeps the order. -/
theorem nearest_mono {x y : ℚ} (hx : 0 ≤ x) (h : x ≤ y) : nearest x ≤ nearest y := by
  rcases eq_or_lt_of_le hx with rfl | hpos
  · rw [nearest_zero]
    exact nearest_nonneg h
  · have hypos := lt_of_lt_of_le hpos h
    have hplaces : lastPlace x ≤ lastPlace y := by
      have hlog := Int.log_mono_right hpos h (b := 2)
      unfold lastPlace
      omega
    unfold nearest
    rcases eq_or_lt_of_le hplaces with heq | hlt
    · -- in the same unit the mantissas are compared
      rw [heq]
      have hscaled : x / 2 ^ lastPlace y ≤ y / 2 ^ lastPlace y :=
        div_le_div_of_nonneg_right h (le_of_lt (two_zpow_pos _))
      exact mul_le_mul_of_nonneg_right (Int.cast_le.2 (roundEven_mono hscaled))
        (le_of_lt (two_zpow_pos _))
    · -- 24 places with the lower unit end where 24 places with the higher one begin
      have hbelow : ((roundEven (x / 2 ^ lastPlace x) : ℤ) : ℚ) ≤ 2 ^ 24 := by
        exact_mod_cast roundEven_le x
      have habove : (2 ^ 23 : ℚ) ≤ (roundEven (y / 2 ^ lastPlace y) : ℤ) := by
        have hleast : -149 ≤ lastPlace x := le_max_right _ _
        exact_mod_cast le_roundEven hypos (by omega)
      calc ((roundEven (x / 2 ^ lastPlace x) : ℤ) : ℚ) * 2 ^ lastPlace x
          ≤ 2 ^ 24 * 2 ^ lastPlace x :=
            mul_le_mul_of_nonneg_right hbelow (le_of_lt (two_zpow_pos _))
        _ = 2 ^ 23 * 2 ^ (1 + lastPlace x) := by
            rw [two_zpow_add]
            ring
        _ ≤ 2 ^ 23 * 2 ^ lastPlace y :=
            mul_le_mul_of_nonneg_left (two_zpow_le (by omega)) (by norm_num)
        _ ≤ (roundEven (y / 2 ^ lastPlace y) : ℤ) * 2 ^ lastPlace y :=
            mul_le_mul_of_nonneg_right habove (le_of_lt (two_zpow_pos _))

/-! ## What is shifted out -/

/-- A mantissa with the two bits that are kept of what was shifted out stands for a rational: the
first bit says whether a half or more is missing, the second one whether neither nothing nor a half
is. -/
structure Shows (em : ExtendedMantissa) (x : ℚ) : Prop where
  floor : ⌊x⌋ = em.mantissa
  roundBit : em.roundBit = decide (1 / 2 ≤ Int.fract x)
  stickyBit : em.stickyBit = decide (Int.fract x ≠ 0 ∧ Int.fract x ≠ 1 / 2)

theorem shows_exact (m : ℕ) : Shows (.ofMantissaAndAccuracy m .exact) m where
  floor := Int.floor_natCast m
  roundBit := by
    rw [Int.fract_natCast]
    norm_num [ExtendedMantissa.ofMantissaAndAccuracy]
  stickyBit := by
    rw [Int.fract_natCast]
    norm_num [ExtendedMantissa.ofMantissaAndAccuracy]

/-- Halving moves the last bit behind the point. -/
theorem floor_fract_half {x : ℚ} {m : ℕ} (h : ⌊x⌋ = m) :
    ⌊x / 2⌋ = (m / 2 : ℕ) ∧ Int.fract (x / 2) = ((m % 2 : ℕ) + Int.fract x) / 2 := by
  have hx : x = m + Int.fract x := by
    have hsplit := Int.floor_add_fract x
    rw [h, Int.cast_natCast] at hsplit
    exact hsplit.symm
  have hlow := Int.fract_nonneg x
  have hhigh := Int.fract_lt_one x
  generalize Int.fract x = f at hx hlow hhigh
  have hm : (m : ℚ) = 2 * (m / 2 : ℕ) + (m % 2 : ℕ) := by
    exact_mod_cast (Nat.div_add_mod m 2).symm
  have hnonneg : (0 : ℚ) ≤ (m % 2 : ℕ) := Nat.cast_nonneg _
  have hone : ((m % 2 : ℕ) : ℚ) ≤ 1 := by
    exact_mod_cast Nat.le_of_lt_succ (Nat.mod_lt m Nat.two_pos)
  have hfloor : ⌊x / 2⌋ = (m / 2 : ℕ) := by
    rw [Int.floor_eq_iff, Int.cast_natCast]
    constructor
    · linarith
    · linarith
  refine ⟨hfloor, ?_⟩
  unfold Int.fract
  rw [hfloor, Int.cast_natCast]
  linarith

/-- The two bits together say whether anything is missing. -/
theorem Shows.either {em : ExtendedMantissa} {x : ℚ} (h : Shows em x) :
    (em.roundBit || em.stickyBit) = decide (Int.fract x ≠ 0) := by
  rw [h.roundBit, h.stickyBit, ← Bool.decide_or]
  apply decide_eq_decide.2
  constructor
  · rintro (hhalf | ⟨hzero, -⟩)
    · linarith
    · exact hzero
  · intro hzero
    by_cases hhalf : Int.fract x = 1 / 2
    · exact .inl (le_of_eq hhalf.symm)
    · exact .inr ⟨hzero, hhalf⟩

/-- Shifting by one bit shows half of what was shown. -/
theorem Shows.shiftRightOne {em : ExtendedMantissa} {x : ℚ} (h : Shows em x) :
    Shows em.shiftRightOne (x / 2) := by
  rcases floor_fract_half h.floor with ⟨hfloor, hfract⟩
  have heither := h.either
  have hlow := Int.fract_nonneg x
  have hhigh := Int.fract_lt_one x
  generalize Int.fract x = f at hfract heither hlow hhigh
  have hround : em.shiftRightOne.roundBit = (em.mantissa % 2 != 0) := rfl
  have hsticky : em.shiftRightOne.stickyBit = decide (f ≠ 0) := heither
  -- the last bit is the round bit now, and what was missing before is neither nothing nor a half
  rcases Nat.mod_two_eq_zero_or_one em.mantissa with hmod | hmod
  · rw [hmod, Nat.cast_zero, zero_add] at hfract
    refine ⟨hfloor, ?_, ?_⟩
    · rw [hround, hmod, hfract, decide_eq_false (by linarith)]
      rfl
    · rw [hsticky, hfract]
      apply decide_eq_decide.2
      exact ⟨fun hne => ⟨fun h => hne (by linarith), fun h => by linarith⟩,
        fun h hzero => h.1 (by rw [hzero, zero_div])⟩
  · rw [hmod, Nat.cast_one] at hfract
    refine ⟨hfloor, ?_, ?_⟩
    · rw [hround, hmod, hfract, decide_eq_true (by linarith)]
      rfl
    · rw [hsticky, hfract]
      apply decide_eq_decide.2
      exact ⟨fun hne => ⟨fun h => by linarith, fun h => hne (by linarith)⟩,
        fun h hzero => h.2 (by rw [hzero, add_zero])⟩

/-- Shifting by some bits divides by that power of two. -/
theorem Shows.shiftRight {em : ExtendedMantissa} {x : ℚ} (h : Shows em x) (k : ℕ) :
    Shows (em >>> k) (x / 2 ^ k) := by
  induction k with
  | zero =>
    rw [pow_zero, div_one]
    exact h
  | succ k ih =>
    rw [pow_succ, ← div_div]
    exact ih.shiftRightOne

/-- The two bits decide the rounding. -/
theorem Shows.roundedMantissa {em : ExtendedMantissa} {x : ℚ} (h : Shows em x) :
    (em.roundedMantissa : ℤ) = roundEven x := by
  obtain ⟨m, r, s⟩ := em
  obtain ⟨hfloor, hround, hsticky⟩ := h
  have hlow := Int.fract_nonneg x
  unfold roundEven
  rw [hfloor]
  -- the round bit says whether the rest is a half or more
  cases r with
  | false =>
    have hless : Int.fract x < 1 / 2 := not_le.1 (of_decide_eq_false hround.symm)
    rw [if_pos hless]
    cases s <;> rfl
  | true =>
    have hmore : 1 / 2 ≤ Int.fract x := of_decide_eq_true hround.symm
    rw [if_neg (not_lt.2 hmore)]
    -- and the sticky bit, whether it is more than a half
    cases s with
    | false =>
      have hhalf : Int.fract x = 1 / 2 := by
        by_contra hne
        exact of_decide_eq_false hsticky.symm ⟨by linarith, hne⟩
      rw [if_neg (by rw [hhalf]; exact lt_irrefl _)]
      rfl
    | true =>
      have hhalf := (of_decide_eq_true hsticky.symm).2
      rw [if_pos (lt_of_le_of_ne hmore (Ne.symm hhalf))]
      rfl

/-! ## Rounding what is taken apart -/

theorem mantissa_shiftRight (em : ExtendedMantissa) (k : ℕ) :
    (em >>> k).mantissa = em.mantissa / 2 ^ k := by
  induction k with
  | zero => exact (Nat.div_one _).symm
  | succ k ih =>
    show (em >>> k).mantissa / 2 = _
    rw [ih, Nat.div_div_eq_div_mul, Nat.pow_succ]

theorem mantissa_ofMantissaAndAccuracy (m : ℕ) (a : Accuracy) :
    (ExtendedMantissa.ofMantissaAndAccuracy m a).mantissa = m := by
  cases a with
  | exact => rfl
  | inexact o => cases o <;> rfl

theorem targetExponent_eq (t : ℤ) :
    Format.binary32.targetExponent t = max (t - 24) (-149) := rfl

theorem exponent_shiftToTargetExponent (m : ℕ) (e : ℤ) (a : Accuracy) :
    (shiftToTargetExponent .binary32 m e a).2 = max e (max (totalExponent m e - 24) (-149)) := by
  unfold shiftToTargetExponent shiftToExponent
  dsimp only
  rw [targetExponent_eq]
  omega

/-- A mantissa of no more than 24 places, and of no less unless its exponent is the least one. -/
structure IsCanonical (m : ℕ) (e : ℤ) : Prop where
  lt : m < 2 ^ 24
  least : -149 ≤ e
  full : e ≠ -149 → 2 ^ 23 ≤ m

/-- How a magnitude is written with a sign. -/
inductive Writes (s : Sign) : ℚ → UnpackedFloat → Prop where
  | zero : Writes s 0 (.zero s)
  | finite {m : ℕ} {e : ℤ} (hm : 0 < m) (h : IsCanonical m e) :
      Writes s (m * 2 ^ e) (.finite s m e hm)

/-- The logarithm of a scaled mantissa is that of the mantissa, moved by the exponent. -/
theorem log_mul_zpow {m : ℕ} (hm : 0 < m) (e : ℤ) :
    Int.log 2 ((m : ℚ) * 2 ^ e) = m.log2 + e := by
  have hpos : (0 : ℚ) < m * 2 ^ e := mul_pos (Nat.cast_pos.2 hm) (two_zpow_pos e)
  have hlow : (2 : ℚ) ^ (m.log2 : ℤ) ≤ m := by
    rw [zpow_natCast]
    exact_mod_cast Nat.log2_self_le hm.ne'
  have hhigh : (m : ℚ) < 2 ^ (m.log2 + 1 : ℤ) := by
    have hlt : m < 2 ^ (m.log2 + 1) := Nat.lt_log2_self
    exact_mod_cast hlt
  apply le_antisymm
  · rw [← Int.lt_add_one_iff, ← Int.lt_zpow_iff_log_lt (by norm_num) hpos, Nat.cast_ofNat,
      show (m.log2 + e + 1 : ℤ) = m.log2 + 1 + e by ring, two_zpow_add _ e]
    exact mul_lt_mul_of_pos_right hhigh (two_zpow_pos e)
  · rw [← Int.zpow_le_iff_le_log (by norm_num) hpos, Nat.cast_ofNat, two_zpow_add]
    exact mul_le_mul_of_nonneg_right hlow (le_of_lt (two_zpow_pos e))

/-- The exponent that is aimed at is that of the last place. -/
theorem targetExponent_eq_lastPlace {m : ℕ} (hm : 0 < m) (e : ℤ) :
    Format.binary32.targetExponent (totalExponent m e) = lastPlace (m * 2 ^ e) := by
  rw [targetExponent_eq]
  unfold totalExponent lastPlace
  rw [log_mul_zpow hm]
  omega

/-- The first shift leaves the places that are kept. -/
theorem first_shift {m : ℕ} (hm : 0 < m) {e : ℤ} (he : e ≤ lastPlace (m * 2 ^ e)) :
    (shiftToTargetExponent .binary32 m e .exact).2 = lastPlace (m * 2 ^ e) ∧
    ((shiftToTargetExponent .binary32 m e .exact).1.roundedMantissa : ℤ) =
      roundEven (m * 2 ^ e / 2 ^ lastPlace (m * 2 ^ e)) := by
  unfold shiftToTargetExponent shiftToExponent
  rw [targetExponent_eq_lastPlace hm]
  generalize lastPlace (m * 2 ^ e) = t at he
  dsimp only
  obtain ⟨k, hk⟩ := Int.eq_ofNat_of_zero_le (sub_nonneg.2 he)
  rw [hk, Int.toNat_natCast]
  refine ⟨by omega, ?_⟩
  have hscaled : (m : ℚ) * 2 ^ e / 2 ^ t = m / 2 ^ k := by
    have ht : t = e + k := by omega
    rw [ht, two_zpow_add, zpow_natCast, ← div_div, mul_div_cancel_right₀ _ (two_zpow_pos e).ne']
  rw [hscaled]
  exact ((shows_exact m).shiftRight k).roundedMantissa

/-- The second shift takes a place off if rounding has carried over all 24 of them. -/
theorem second_shift {q : ℕ} {t : ℤ} (hpos : 0 < q) (hq : q ≤ 2 ^ 24) (ht : -149 ≤ t)
    (hfull : t ≠ -149 → 2 ^ 23 ≤ q) :
    IsCanonical (shiftToTargetExponent .binary32 q t .exact).1.mantissa
      (shiftToTargetExponent .binary32 q t .exact).2 ∧
    ((shiftToTargetExponent .binary32 q t .exact).1.mantissa : ℚ) *
      2 ^ (shiftToTargetExponent .binary32 q t .exact).2 = q * 2 ^ t := by
  have hmantissa : (shiftToTargetExponent .binary32 q t .exact).1.mantissa =
      q / 2 ^ (max (totalExponent q t - 24) (-149) - t).toNat := by
    unfold shiftToTargetExponent shiftToExponent
    dsimp only
    rw [mantissa_shiftRight, mantissa_ofMantissaAndAccuracy, targetExponent_eq]
  rw [hmantissa, exponent_shiftToTargetExponent]
  unfold totalExponent
  rcases Nat.lt_or_eq_of_le hq with hlt | rfl
  · -- no more than 24 places are left, and nothing is shifted
    have hlog : q.log2 < 24 := (Nat.log2_lt hpos.ne').2 hlt
    have hshift : (max ((q.log2 : ℤ) + 1 + t - 24) (-149) - t).toNat = 0 := by omega
    have hexp : max t (max ((q.log2 : ℤ) + 1 + t - 24) (-149)) = t := by omega
    rw [hshift, hexp, pow_zero, Nat.div_one]
    exact ⟨⟨hlt, ht, hfull⟩, rfl⟩
  · -- rounding has carried into a new place, and one is shifted off
    have hlog : (2 ^ 24 : ℕ).log2 = 24 := Nat.log2_two_pow
    rw [hlog]
    have hshift : (max (((24 : ℕ) : ℤ) + 1 + t - 24) (-149) - t).toNat = 1 := by omega
    have hexp : max t (max (((24 : ℕ) : ℤ) + 1 + t - 24) (-149)) = 1 + t := by omega
    rw [hshift, hexp, two_zpow_add]
    refine ⟨⟨by norm_num, by omega, fun _ => by norm_num⟩, ?_⟩
    norm_num
    ring

/-- Rounding writes the nearest number. -/
theorem writes_roundWithAccuracy (s : Sign) {m : ℕ} (hm : 0 < m) {e : ℤ}
    (he : e ≤ lastPlace (m * 2 ^ e)) :
    Writes s (nearest (m * 2 ^ e)) (roundWithAccuracy .binary32 s m e .exact) := by
  obtain ⟨hplace, hround⟩ := first_shift hm he
  have hpos : (0 : ℚ) < m * 2 ^ e := mul_pos (Nat.cast_pos.2 hm) (two_zpow_pos e)
  unfold roundWithAccuracy nearest
  dsimp only
  rw [← hround, Int.cast_natCast, ← hplace]
  have hmost := roundEven_le (m * 2 ^ e)
  have hleast := le_roundEven hpos
  rw [← hround] at hmost hleast
  rw [← hplace] at hleast
  have hlow : -149 ≤ (shiftToTargetExponent .binary32 m e .exact).2 := by
    rw [hplace]
    exact le_max_right _ _
  generalize shiftToTargetExponent .binary32 m e .exact = first at hmost hleast hlow ⊢
  generalize first.1.roundedMantissa = q at hmost hleast ⊢
  -- what is too small for the last place is rounded to zero
  rcases Nat.eq_zero_or_pos q with rfl | hq
  · have hnone : (shiftToTargetExponent .binary32 0 first.2 .exact).1.mantissa = 0 := by
      unfold shiftToTargetExponent shiftToExponent
      dsimp only
      rw [mantissa_shiftRight, mantissa_ofMantissaAndAccuracy, Nat.zero_div]
    rw [dif_pos hnone, Nat.cast_zero, zero_mul]
    exact .zero
  · obtain ⟨hcanonical, hvalue⟩ := second_shift hq (by exact_mod_cast hmost) hlow
      (fun hne => by exact_mod_cast hleast hne)
    have hne : (shiftToTargetExponent .binary32 q first.2 .exact).1.mantissa ≠ 0 := by
      intro hzero
      rw [hzero, Nat.cast_zero, zero_mul] at hvalue
      exact (mul_pos (Nat.cast_pos.2 hq) (two_zpow_pos first.2)).ne hvalue
    rw [dif_neg hne, ← hvalue]
    exact .finite (Nat.pos_of_ne_zero hne) hcanonical

/-- A canonical number has its exponent as its last place. -/
theorem lastPlace_eq {m : ℕ} {e : ℤ} (hm : 0 < m) (h : IsCanonical m e) :
    lastPlace (m * 2 ^ e) = e := by
  have hlog : m.log2 < 24 := (Nat.log2_lt hm.ne').2 h.lt
  have hfull : e ≠ -149 → 23 ≤ m.log2 := fun hne => (Nat.le_log2 hm.ne').2 (h.full hne)
  have hleast := h.least
  unfold lastPlace
  rw [log_mul_zpow hm]
  omega

/-- A number is its own nearest number. -/
theorem IsCanonical.nearest_eq {m : ℕ} {e : ℤ} (h : IsCanonical m e) (hm : 0 < m) :
    nearest (m * 2 ^ e) = m * 2 ^ e := by
  unfold nearest
  rw [lastPlace_eq hm h, mul_div_cancel_right₀ _ (two_zpow_pos e).ne', ← Int.cast_natCast,
    roundEven_intCast]

/-- Places are added at the end before rounding, so that the exponent is not too high. -/
theorem decreaseExponent_value (m : ℕ) (e t : ℤ) :
    ((decreaseExponent m e t).1 : ℚ) * 2 ^ (decreaseExponent m e t).2 = m * 2 ^ e := by
  unfold decreaseExponent
  dsimp only
  generalize (e - t).toNat = k
  have he : e = k + (e - k) := by omega
  nth_rewrite 2 [he]
  rw [two_zpow_add k, zpow_natCast, Nat.shiftLeft_eq, Nat.cast_mul, Nat.cast_pow, Nat.cast_ofNat,
    mul_assoc]

theorem exponent_decreaseExponent (m : ℕ) (e t : ℤ) : (decreaseExponent m e t).2 = min e t := by
  unfold decreaseExponent
  dsimp only
  omega

theorem decreaseExponent_pos {m : ℕ} (hm : 0 < m) (e t : ℤ) : 0 < (decreaseExponent m e t).1 := by
  unfold decreaseExponent
  dsimp only
  rw [Nat.shiftLeft_eq]
  exact Nat.mul_pos hm (Nat.two_pow_pos _)

/-- Rounding writes the nearest number. -/
theorem writes_round (s : Sign) {m : ℕ} (hm : 0 < m) (e : ℤ) :
    Writes s (nearest (m * 2 ^ e)) (UnpackedFloat.round .binary32 s m e) := by
  unfold UnpackedFloat.round
  dsimp only
  rw [targetExponent_eq_lastPlace hm]
  have hvalue := decreaseExponent_value m e (lastPlace (m * 2 ^ e))
  have hexp : (decreaseExponent m e (lastPlace (m * 2 ^ e))).2 ≤ lastPlace (m * 2 ^ e) := by
    rw [exponent_decreaseExponent]
    exact min_le_right _ _
  have hpos := decreaseExponent_pos hm e (lastPlace (m * 2 ^ e))
  generalize decreaseExponent m e (lastPlace (m * 2 ^ e)) = shifted at hvalue hexp hpos
  rw [← hvalue] at hexp ⊢
  exact writes_roundWithAccuracy s hpos hexp

/-! ## Packing -/

theorem unpackSign_packComponents {spec : Format} {s : Sign} {e : BitVec spec.exponentBits}
    {m : BitVec spec.mantissaBitsWithoutImplicit} :
    unpackSign (packComponents spec s e m) = s.toBitVec := by
  ext i hi
  have hplace : ¬ spec.mantissaBitsWithoutImplicit + spec.exponentBits + i <
      spec.mantissaBitsWithoutImplicit := by omega
  have hrest : spec.mantissaBitsWithoutImplicit + spec.exponentBits + i -
      spec.mantissaBitsWithoutImplicit = spec.exponentBits + i := by omega
  unfold unpackSign packComponents
  simp [BitVec.getLsbD_append, hplace, hrest, BitVec.getLsbD_eq_getElem, hi]

theorem ofBitVec_toBitVec (s : Sign) : Sign.ofBitVec s.toBitVec = s := by
  cases s <;> rfl

theorem unpack_pack_zero (s : Sign) : unpack .binary32 (pack .binary32 (.zero s)) = .zero s := by
  cases s <;> rfl

theorem unpack_pack_infinity (s : Sign) :
    unpack .binary32 (pack .binary32 (.infinity s)) = .infinity s := by
  cases s <;> rfl

/-- What is beyond the greatest exponent becomes an infinity. -/
theorem unpack_pack_overflow (s : Sign) {m : ℕ} {e : ℤ} (hm : 0 < m) (he : 104 < e) :
    unpack .binary32 (pack .binary32 (.finite s m e hm)) = .infinity s := by
  have hpack : pack .binary32 (.finite s m e hm) = packedInfinity .binary32 s := by
    unfold pack
    dsimp only
    rw [if_pos]
    show 2 ^ 8 ≤ (e + (127 : ℕ) + (23 : ℕ)).toNat + 1
    omega
  rw [hpack]
  exact unpack_pack_infinity s

/-- Bits with an exponent in between stand for a number whose first digit, a one, is not written. -/
theorem unpack_of_exponent {b : BitVec Format.binary32.numBits} {s : Sign} {m : ℕ} {e : ℤ}
    (hm : 0 < m) (hhigh : unpackExponent b ≠ -1#_) (hlow : unpackExponent b ≠ 0#_)
    (hsign : Sign.ofBitVec (unpackSign b) = s) (hdigits : (1#1 ++ unpackMantissa b).toNat = m)
    (he : ((unpackExponent b).toNat : ℤ) - 150 = e) : unpack .binary32 b = .finite s m e hm := by
  subst hsign hdigits he
  unfold unpack
  dsimp only
  rw [if_neg hhigh, if_neg hlow]
  rfl

/-- Bits without an exponent stand for their digits in the last place. -/
theorem unpack_of_no_exponent {b : BitVec Format.binary32.numBits} {s : Sign} {m : ℕ} (hm : 0 < m)
    (hlow : unpackExponent b = 0#_) (hsign : Sign.ofBitVec (unpackSign b) = s)
    (hdigits : (unpackMantissa b).toNat = m) : unpack .binary32 b = .finite s m (-149) hm := by
  subst hsign hdigits
  have hnonzero : unpackMantissa b ≠ 0#_ := fun h => by
    rw [h] at hm
    exact absurd hm (by decide)
  have hzero : (unpackExponent b).toNat = 0 := by
    rw [hlow]
    rfl
  unfold unpack
  dsimp only
  rw [if_neg (by rw [hlow]; decide), if_pos hlow, dif_neg hnonzero, hzero]
  rfl

/-- A number that uses all its places is packed without the first digit. -/
theorem unpack_packComponents_normal (s : Sign) {m : ℕ} {e : ℤ} (hm : 0 < m) (hlow : 2 ^ 23 ≤ m)
    (hlt : m < 2 ^ 24) (hleast : -149 ≤ e) (he : e ≤ 104) :
    unpack .binary32 (packComponents .binary32 s (BitVec.ofNat 8 (e + 150).toNat)
      (BitVec.ofNat 23 m)) = .finite s m e hm := by
  have hstored : (BitVec.ofNat 8 (e + 150).toNat).toNat = (e + 150).toNat := by
    rw [BitVec.toNat_ofNat, Nat.mod_eq_of_lt (by omega)]
  apply unpack_of_exponent
  · rw [unpackExponent_packComponents, ne_eq, ← BitVec.toNat_inj, hstored]
    show ¬ (e + 150).toNat = 255
    omega
  · rw [unpackExponent_packComponents, ne_eq, ← BitVec.toNat_inj, hstored]
    show ¬ (e + 150).toNat = 0
    omega
  · rw [unpackSign_packComponents, ofBitVec_toBitVec]
  · rw [unpackMantissa_packComponents, BitVec.toNat_append, BitVec.toNat_ofNat]
    show 1 <<< 23 ||| m % 2 ^ 23 = m
    rw [← Nat.shiftLeft_add_eq_or_of_lt (Nat.mod_lt m (Nat.two_pow_pos 23))]
    omega
  · rw [unpackExponent_packComponents, hstored]
    omega

/-- A number that uses fewer places has the least exponent. -/
theorem unpack_packComponents_subnormal (s : Sign) {m : ℕ} (hm : 0 < m) (hlt : m < 2 ^ 23) :
    unpack .binary32 (packComponents .binary32 s 0#8 (BitVec.ofNat 23 m)) =
      .finite s m (-149) hm := by
  apply unpack_of_no_exponent
  · exact unpackExponent_packComponents
  · rw [unpackSign_packComponents, ofBitVec_toBitVec]
  · rw [unpackMantissa_packComponents, BitVec.toNat_ofNat, Nat.mod_eq_of_lt hlt]

/-- Packing keeps what is canonical and not too great. -/
theorem unpack_pack_finite (s : Sign) {m : ℕ} {e : ℤ} (hm : 0 < m) (h : IsCanonical m e)
    (he : e ≤ 104) : unpack .binary32 (pack .binary32 (.finite s m e hm)) = .finite s m e hm := by
  rcases h with ⟨hlt, hleast, hfull⟩
  have hstored : (e + Format.binary32.exponentBias + (23 : ℕ)).toNat = (e + 150).toNat := by
    show (e + (127 : ℕ) + (23 : ℕ)).toNat = _
    omega
  have hplaces : m.log2 + 1 = Format.binary32.mantissaBits ↔ 2 ^ 23 ≤ m := by
    have hleft := Nat.le_log2 hm.ne' (k := 23)
    have hright := (Nat.log2_lt hm.ne').2 hlt
    show m.log2 + 1 = 24 ↔ _
    omega
  by_cases hlow : 2 ^ 23 ≤ m
  · -- a full mantissa is stored without its first bit
    have hpack : pack .binary32 (.finite s m e hm) =
        packComponents .binary32 s (BitVec.ofNat 8 (e + 150).toNat) (BitVec.ofNat 23 m) := by
      unfold pack
      dsimp only
      rw [hstored, if_neg (by omega), if_pos (hplaces.2 hlow)]
    rw [hpack]
    exact unpack_packComponents_normal s hm hlow hlt hleast he
  · -- a mantissa that is not full has the least exponent
    have hexp : e = -149 := by
      by_contra hne
      exact hlow (hfull hne)
    have hpack : pack .binary32 (.finite s m e hm) =
        packComponents .binary32 s 0#8 (BitVec.ofNat 23 m) := by
      unfold pack
      dsimp only
      rw [hstored, if_neg (by omega), if_neg fun h => hlow (hplaces.1 h)]
    rw [hpack]
    subst hexp
    exact unpack_packComponents_subnormal s hm (not_le.1 hlow)

/-- What bits stand for is canonical and not too great. -/
theorem isCanonical_unpack {b : BitVec Format.binary32.numBits} {s : Sign} {m : ℕ} {e : ℤ}
    {hm : 0 < m} (h : unpack .binary32 b = .finite s m e hm) : IsCanonical m e ∧ e ≤ 104 := by
  unfold unpack at h
  dsimp only at h
  have hdigits : (unpackMantissa b).toNat < 2 ^ 23 := (unpackMantissa b).isLt
  have hstored : (unpackExponent b).toNat < 2 ^ 8 := (unpackExponent b).isLt
  have hbias : (Format.binary32.exponentBias : ℤ) = 127 := rfl
  by_cases hhigh : unpackExponent b = -1#_
  · rw [if_pos hhigh] at h
    by_cases hnone : unpackMantissa b = 0#_
    · rw [if_pos hnone] at h
      cases h
    · rw [if_neg hnone] at h
      cases h
  · rw [if_neg hhigh] at h
    have hmost : (unpackExponent b).toNat ≠ 255 := fun heq => hhigh (BitVec.toNat_inj.1 heq)
    by_cases hzero : unpackExponent b = 0#_
    · rw [if_pos hzero] at h
      by_cases hnone : unpackMantissa b = 0#_
      · rw [dif_pos hnone] at h
        cases h
      · rw [dif_neg hnone] at h
        cases h
        -- subnormal: the digits are the mantissa
        have hlowest : (unpackExponent b).toNat = 0 := by
          rw [hzero]
          rfl
        rw [hlowest, hbias]
        exact ⟨⟨by omega, by omega, by omega⟩, by omega⟩
    · rw [if_neg hzero] at h
      cases h
      have hleast : (unpackExponent b).toNat ≠ 0 := fun heq => hzero (BitVec.toNat_inj.1 heq)
      -- normal: the first bit of the mantissa is not stored
      have hfirst : (1#1 ++ unpackMantissa b).toNat = 2 ^ 23 + (unpackMantissa b).toNat := by
        rw [BitVec.toNat_append]
        show 1 <<< 23 ||| (unpackMantissa b).toNat = _
        rw [← Nat.shiftLeft_add_eq_or_of_lt hdigits]
        omega
      rw [hfirst, hbias]
      exact ⟨⟨by omega, by omega, by omega⟩, by omega⟩

end Binary32

end Conquest
