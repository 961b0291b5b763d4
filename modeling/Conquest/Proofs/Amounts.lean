import Mathlib.Algebra.Order.Ring.WithTop
import Conquest.Proofs.Rounding

/-!
# Amounts

A single-precision number that is not negative stands for a rational or for infinity. The order of
such numbers is the order of what they stand for, and their sums and products stand for the sum and
the product, rounded; so addition and multiplication keep the order.

* `Denotes`, `Means`: what a number stands for; `Means.le_iff`, `Means.add`, `Means.mul`,
  `means_ofNat`: order, sums, products and counts.
* `add_mono`, `le_add`, `mul_ofNat_mono`: what follows for numbers that are not negative.
* `larger_mul_le`: a share of a number is no more than the number, as far as it is above zero.
-/

namespace Conquest

namespace Binary32

open Float.Model (Format UnpackedFloat)
open Float.Model.UnpackedFloat

/-! ## What numbers stand for -/

/-- What a number that is taken apart and not negative stands for. -/
inductive Denotes : UnpackedFloat → WithTop ℚ → Prop where
  | zero (s : Sign) : Denotes (.zero s) 0
  | finite {m : ℕ} {e : ℤ} (hm : 0 < m) (h : IsCanonical m e) (he : e ≤ 104) :
      Denotes (.finite .positive m e hm) ((m * 2 ^ e : ℚ) : WithTop ℚ)
  | infinity : Denotes (.infinity .positive) ⊤

/-- The magnitudes that are too great for a number become infinity. -/
def capped (x : ℚ) : WithTop ℚ := if x < 2 ^ 128 then (x : WithTop ℚ) else ⊤

/-- What the result of an operation stands for. -/
def rounded : WithTop ℚ → WithTop ℚ
  | ⊤ => ⊤
  | (x : ℚ) => capped (nearest x)

theorem rounded_coe (x : ℚ) : rounded x = capped (nearest x) := rfl

theorem capped_of_lt {x : ℚ} (h : x < 2 ^ 128) : capped x = x := if_pos h

theorem capped_of_le {x : ℚ} (h : 2 ^ 128 ≤ x) : capped x = ⊤ := if_neg (not_lt.2 h)

/-- Capping keeps the order. -/
theorem capped_mono {x y : ℚ} (h : x ≤ y) : capped x ≤ capped y := by
  rcases lt_or_ge y (2 ^ 128) with hy | hy
  · rw [capped_of_lt hy, capped_of_lt (lt_of_le_of_lt h hy)]
    exact WithTop.coe_le_coe.2 h
  · rw [capped_of_le hy]
    exact le_top

/-- Rounding keeps the order of what is not negative. -/
theorem rounded_mono {v w : WithTop ℚ} (hv : 0 ≤ v) (h : v ≤ w) : rounded v ≤ rounded w := by
  cases w with
  | top => exact le_top
  | coe y =>
    cases v with
    | top => exact absurd h (by simp)
    | coe x =>
      exact capped_mono (nearest_mono (WithTop.coe_nonneg.1 hv) (WithTop.coe_le_coe.1 h))

theorem Denotes.nonneg {x : UnpackedFloat} {v : WithTop ℚ} (h : Denotes x v) : 0 ≤ v := by
  cases h with
  | zero s => exact le_refl 0
  | @finite m e hm h he =>
    exact WithTop.coe_nonneg.2 (mul_nonneg (Nat.cast_nonneg m) (le_of_lt (two_zpow_pos e)))
  | infinity => exact le_top

/-- Canonical numbers with the greatest exponent or a lower one are not too great. -/
theorem IsCanonical.lt_cap {m : ℕ} {e : ℤ} (h : IsCanonical m e) (he : e ≤ 104) :
    (m : ℚ) * 2 ^ e < 2 ^ 128 := by
  have hm : (m : ℚ) < 2 ^ 24 := by exact_mod_cast h.lt
  calc (m : ℚ) * 2 ^ e < 2 ^ 24 * 2 ^ e := mul_lt_mul_of_pos_right hm (two_zpow_pos e)
    _ ≤ 2 ^ 24 * 2 ^ (104 : ℤ) := mul_le_mul_of_nonneg_left (two_zpow_le he) (by norm_num)
    _ = 2 ^ 128 := by norm_num

theorem IsCanonical.cap_le {m : ℕ} {e : ℤ} (h : IsCanonical m e) (he : 104 < e) :
    2 ^ 128 ≤ (m : ℚ) * 2 ^ e := by
  have hm : (2 : ℚ) ^ 23 ≤ m := by exact_mod_cast h.full (by omega)
  calc (2 : ℚ) ^ 128 = 2 ^ 23 * 2 ^ (105 : ℤ) := by norm_num
    _ ≤ 2 ^ 23 * 2 ^ e := mul_le_mul_of_nonneg_left (two_zpow_le he) (by norm_num)
    _ ≤ m * 2 ^ e := mul_le_mul_of_nonneg_right hm (le_of_lt (two_zpow_pos e))

/-- Rounding changes no number. -/
theorem Denotes.rounded_eq {x : UnpackedFloat} {v : WithTop ℚ} (h : Denotes x v) :
    rounded v = v := by
  cases h with
  | zero s =>
    show capped (nearest 0) = 0
    rw [nearest_zero, capped_of_lt (by norm_num)]
    rfl
  | @finite m e hm h he =>
    rw [rounded_coe, h.nearest_eq hm, capped_of_lt (h.lt_cap he)]
  | infinity => rfl

/-- Packing what rounding writes caps it. -/
theorem Writes.denotes {x : ℚ} {u : UnpackedFloat} (h : Writes .positive x u) :
    Denotes (unpack .binary32 (pack .binary32 u)) (capped x) := by
  cases h with
  | zero =>
    rw [unpack_pack_zero, capped_of_lt (by norm_num)]
    exact .zero .positive
  | @finite m e hm h =>
    rcases le_or_gt e 104 with he | he
    · rw [unpack_pack_finite .positive hm h he, capped_of_lt (h.lt_cap he)]
      exact .finite hm h he
    · rw [unpack_pack_overflow .positive hm he, capped_of_le (h.cap_le he)]
      exact .infinity

/-- Packing and unpacking keeps what a number denotes. -/
theorem Denotes.packed {x : UnpackedFloat} {v : WithTop ℚ} (h : Denotes x v) :
    Denotes (unpack .binary32 (pack .binary32 x)) v := by
  cases h with
  | zero s =>
    rw [unpack_pack_zero]
    exact .zero s
  | finite hm h he =>
    rw [unpack_pack_finite .positive hm h he]
    exact .finite hm h he
  | infinity =>
    rw [unpack_pack_infinity]
    exact .infinity

/-! ## Order -/

/-- Of two numbers with different exponents the one with the lower exponent is less. -/
theorem IsCanonical.lt_of_exponent_lt {m m' : ℕ} {e e' : ℤ} (h : IsCanonical m e)
    (h' : IsCanonical m' e') (he : e < e') : (m : ℚ) * 2 ^ e < m' * 2 ^ e' := by
  have hm : (m : ℚ) < 2 ^ 24 := by exact_mod_cast h.lt
  have hm' : (2 : ℚ) ^ 23 ≤ m' := by
    have hleast := h.least
    exact_mod_cast h'.full (by omega)
  calc (m : ℚ) * 2 ^ e < 2 ^ 24 * 2 ^ e := mul_lt_mul_of_pos_right hm (two_zpow_pos e)
    _ = 2 ^ 23 * 2 ^ (1 + e) := by
      rw [two_zpow_add]
      ring
    _ ≤ 2 ^ 23 * 2 ^ e' := mul_le_mul_of_nonneg_left (two_zpow_le (by omega)) (by norm_num)
    _ ≤ m' * 2 ^ e' := mul_le_mul_of_nonneg_right hm' (le_of_lt (two_zpow_pos e'))

theorem IsCanonical.compare_eq {m m' : ℕ} {e e' : ℤ} (h : IsCanonical m e)
    (h' : IsCanonical m' e') :
    (compare e e').then (compare m m') = compare ((m : ℚ) * 2 ^ e) (m' * 2 ^ e') := by
  rcases lt_trichotomy e e' with he | rfl | he
  · rw [compare_lt_iff_lt.2 he, compare_lt_iff_lt.2 (h.lt_of_exponent_lt h' he)]
    rfl
  · rw [compare_eq_iff_eq.2 rfl, Ordering.eq_then]
    have hpos := two_zpow_pos e
    rcases lt_trichotomy m m' with hm | rfl | hm
    · have hlt := mul_lt_mul_of_pos_right (Nat.cast_lt.2 hm) hpos
      rw [compare_lt_iff_lt.2 hm, compare_lt_iff_lt.2 hlt]
    · rw [compare_eq_iff_eq.2 rfl, compare_eq_iff_eq.2 rfl]
    · have hlt := mul_lt_mul_of_pos_right (Nat.cast_lt.2 hm) hpos
      rw [compare_gt_iff_gt.2 hm, compare_gt_iff_gt.2 hlt]
  · rw [compare_gt_iff_gt.2 he, compare_gt_iff_gt.2 (h'.lt_of_exponent_lt h he)]
    rfl

/-- Numbers that are not negative are compared by what they stand for. -/
theorem Denotes.compare_eq {x y : UnpackedFloat} {v w : WithTop ℚ} (hx : Denotes x v)
    (hy : Denotes y w) : x.compare y = some (compare v w) := by
  cases hx with
  | zero s =>
    cases hy with
    | zero s' =>
      rw [compare_eq_iff_eq.2 rfl]
      rfl
    | @finite m' e' hm' h' he' =>
      have hpos : (0 : ℚ) < m' * 2 ^ e' := mul_pos (Nat.cast_pos.2 hm') (two_zpow_pos e')
      rw [compare_lt_iff_lt.2 (WithTop.coe_pos.2 hpos)]
      rfl
    | infinity =>
      rw [compare_lt_iff_lt.2 (WithTop.coe_lt_top 0)]
      rfl
  | @finite m e hm h he =>
    cases hy with
    | zero s' =>
      have hpos : (0 : ℚ) < m * 2 ^ e := mul_pos (Nat.cast_pos.2 hm) (two_zpow_pos e)
      rw [compare_gt_iff_gt.2 (WithTop.coe_pos.2 hpos)]
      rfl
    | @finite m' e' hm' h' he' =>
      -- canonical numbers are compared by exponent and then by mantissa
      show some ((compare e e').then (compare m m')) = _
      rw [h.compare_eq h', compare_of_strictMono WithTop.coe_strictMono]
    | infinity =>
      rw [compare_lt_iff_lt.2 (WithTop.coe_lt_top _)]
      rfl
  | infinity =>
    cases hy with
    | zero s' =>
      rw [compare_gt_iff_gt.2 (WithTop.coe_lt_top 0)]
      rfl
    | finite hm' h' he' =>
      rw [compare_gt_iff_gt.2 (WithTop.coe_lt_top _)]
      rfl
    | infinity =>
      rw [compare_eq_iff_eq.2 rfl]
      rfl

/-! ## Single-precision numbers -/

/-- What a single-precision number that is not negative stands for. -/
def Means (a : Float32) (v : WithTop ℚ) : Prop := Denotes a.toModel.unpack v

variable {a b : Float32} {v w : WithTop ℚ}

theorem means_zero : Means 0 0 := Denotes.zero .positive

theorem means_one : Means 1 1 := by
  have hcanonical : IsCanonical (2 ^ 23) (-23) := ⟨by decide, by decide, by decide⟩
  have hvalue : (((2 ^ 23 : ℕ) * 2 ^ (-23 : ℤ) : ℚ) : WithTop ℚ) = 1 := by
    norm_num
  have h := Denotes.finite (by decide) hcanonical (by decide)
  rw [hvalue] at h
  exact h

/-- Numbers are ordered as what they mean. -/
theorem Means.le_iff (ha : Means a v) (hb : Means b w) : a ≤ b ↔ v ≤ w := by
  rw [le_iff_isLE, Denotes.compare_eq ha hb, Option.any_some, ← compare_le_iff_le]
  cases compare v w <;> simp

theorem Means.zero_le (h : Means a v) : 0 ≤ a := (Means.le_iff means_zero h).2 h.nonneg

/-- Every number that is not negative stands for something. -/
theorem exists_means (h : 0 ≤ a) : ∃ v, Means a v := by
  rw [le_iff_isLE] at h
  have hzero : (0 : Float32).toModel.unpack = .zero .positive := rfl
  rw [hzero] at h
  unfold Means
  have hcanonical : ∀ s m e hm, a.toModel.unpack = .finite s m e hm → IsCanonical m e ∧ e ≤ 104 :=
    fun s m e hm heq => isCanonical_unpack heq
  generalize a.toModel.unpack = x at h hcanonical
  cases x with
  | notANumber => cases h
  | infinity s =>
    cases s with
    | negative => cases h
    | positive => exact ⟨_, .infinity⟩
  | zero s => exact ⟨_, .zero s⟩
  | finite s m e hm =>
    cases s with
    | negative => cases h
    | positive =>
      rcases hcanonical _ m e hm rfl with ⟨hcan, he⟩
      exact ⟨_, .finite hm hcan he⟩

/-! ## Sums -/

theorem normalize_natCast {n : ℕ} (hn : 0 < n) (e : ℤ) (s : Sign) :
    UnpackedFloat.normalize .binary32 n e s = UnpackedFloat.round .binary32 .positive n e := by
  unfold UnpackedFloat.normalize
  rw [compare_gt_iff_gt.2 (Int.natCast_pos.2 hn)]
  rfl

/-- The sum of two positive numbers is the nearest to the exact sum. -/
theorem writes_add_finite {m m' : ℕ} {e e' : ℤ} (hm : 0 < m) (hm' : 0 < m') :
    Writes .positive (nearest (m * 2 ^ e + m' * 2 ^ e'))
      (UnpackedFloat.add .binary32 (.finite .positive m e hm) (.finite .positive m' e' hm')) := by
  -- both summands are written with the lower of the two exponents
  have hleft := decreaseExponent_value m e (min e e')
  have hright := decreaseExponent_value m' e' (min e e')
  rw [exponent_decreaseExponent, min_eq_right (min_le_left e e')] at hleft
  rw [exponent_decreaseExponent, min_eq_right (min_le_right e e')] at hright
  have hpos := decreaseExponent_pos hm e (min e e')
  unfold UnpackedFloat.add
  dsimp only
  generalize (decreaseExponent m e (min e e')).1 = n at hleft hpos
  generalize (decreaseExponent m' e' (min e e')).1 = n' at hright
  show Writes _ _ (UnpackedFloat.normalize .binary32 (n + n') (min e e') .positive)
  rw [← Int.natCast_add, normalize_natCast (Nat.add_pos_left hpos n'), ← hleft, ← hright,
    ← add_mul, ← Nat.cast_add]
  exact writes_round .positive (Nat.add_pos_left hpos n') (min e e')

/-- A sum of numbers that are taken apart stands for the sum, rounded. -/
theorem Denotes.add {x y : UnpackedFloat} {v w : WithTop ℚ} (hx : Denotes x v) (hy : Denotes y w) :
    Denotes (unpack .binary32 (pack .binary32 (UnpackedFloat.add .binary32 x y)))
      (rounded (v + w)) := by
  cases hx with
  | zero s =>
    rw [zero_add, hy.rounded_eq]
    cases hy with
    | zero s' => cases s <;> cases s' <;> exact Denotes.packed (.zero _)
    | finite hm' h' he' => exact Denotes.packed (.finite hm' h' he')
    | infinity => exact Denotes.packed .infinity
  | finite hm h he =>
    cases hy with
    | zero s' =>
      rw [add_zero, (Denotes.finite hm h he).rounded_eq]
      exact Denotes.packed (.finite hm h he)
    | finite hm' h' he' =>
      -- the only case in which something is rounded
      rw [← WithTop.coe_add, rounded_coe]
      exact (writes_add_finite hm hm').denotes
    | infinity =>
      rw [WithTop.add_top]
      exact Denotes.packed .infinity
  | infinity =>
    rw [WithTop.top_add]
    cases hy with
    | zero s' => exact Denotes.packed .infinity
    | finite hm' h' he' => exact Denotes.packed .infinity
    | infinity => exact Denotes.packed .infinity

/-- A sum means the rounded sum. -/
theorem Means.add (ha : Means a v) (hb : Means b w) : Means (a + b) (rounded (v + w)) :=
  Denotes.add ha hb

theorem zero_le_add (ha : 0 ≤ a) (hb : 0 ≤ b) : 0 ≤ a + b := by
  rcases exists_means ha with ⟨v, hv⟩
  rcases exists_means hb with ⟨w, hw⟩
  exact (hv.add hw).zero_le

/-- Addition keeps the order. -/
theorem add_mono {c d : Float32} (ha : 0 ≤ a) (hab : a ≤ b) (hc : 0 ≤ c) (hcd : c ≤ d) :
    a + c ≤ b + d := by
  rcases exists_means ha with ⟨v, hv⟩
  rcases exists_means (le_transitive ha hab) with ⟨v', hv'⟩
  rcases exists_means hc with ⟨w, hw⟩
  rcases exists_means (le_transitive hc hcd) with ⟨w', hw'⟩
  rw [hv.le_iff hv'] at hab
  rw [hw.le_iff hw'] at hcd
  rw [(hv.add hw).le_iff (hv'.add hw')]
  exact rounded_mono (add_nonneg hv.nonneg hw.nonneg) (add_le_add hab hcd)

/-- Addition lowers nothing. -/
theorem le_add (ha : 0 ≤ a) (hb : 0 ≤ b) : a ≤ a + b := by
  rcases exists_means ha with ⟨v, hv⟩
  rcases exists_means hb with ⟨w, hw⟩
  rw [hv.le_iff (hv.add hw)]
  calc v = rounded v := hv.rounded_eq.symm
    _ ≤ rounded (v + w) := rounded_mono hv.nonneg (le_add_of_nonneg_right hw.nonneg)

/-! ## Products -/

theorem writes_mul_finite {m m' : ℕ} {e e' : ℤ} (hm : 0 < m) (hm' : 0 < m')
    (h : IsCanonical m e) (h' : IsCanonical m' e') :
    Writes .positive (nearest (m * 2 ^ e * (m' * 2 ^ e')))
      (UnpackedFloat.mul .binary32 (.finite .positive m e hm) (.finite .positive m' e' hm')) := by
  have hpos : 0 < m * m' := Nat.mul_pos hm hm'
  have hvalue : (m : ℚ) * 2 ^ e * (m' * 2 ^ e') = (m * m' : ℕ) * 2 ^ (e + e') := by
    rw [Nat.cast_mul, two_zpow_add]
    ring
  have hplace : e + e' ≤ lastPlace ((m * m' : ℕ) * 2 ^ (e + e')) := by
    unfold lastPlace
    rw [log_mul_zpow hpos]
    have hleast := h.least
    have hleast' := h'.least
    by_cases he : e = -149
    · by_cases he' : e' = -149
      · omega
      · have hfull := Nat.le_trans (h'.full he') (Nat.le_mul_of_pos_left m' hm)
        have hlog := (Nat.le_log2 hpos.ne').2 hfull
        omega
    · have hfull := Nat.le_trans (h.full he) (Nat.le_mul_of_pos_right m hm')
      have hlog := (Nat.le_log2 hpos.ne').2 hfull
      omega
  rw [hvalue]
  exact writes_roundWithAccuracy .positive hpos hplace

/-- A product of numbers that are taken apart stands for the product, rounded; only nothing times
infinity is no number. -/
theorem Denotes.mul {x y : UnpackedFloat} {v w : WithTop ℚ} (hx : Denotes x v) (hy : Denotes y w)
    (hvw : v = ⊤ → w ≠ 0) (hwv : w = ⊤ → v ≠ 0) :
    Denotes (unpack .binary32 (pack .binary32 (UnpackedFloat.mul .binary32 x y)))
      (rounded (v * w)) := by
  cases hx with
  | zero s =>
    rw [zero_mul, (Denotes.zero .positive).rounded_eq]
    cases hy with
    | zero s' => exact Denotes.packed (.zero _)
    | finite hm' h' he' => exact Denotes.packed (.zero _)
    | infinity => exact absurd rfl (hwv rfl)
  | @finite m e hm h he =>
    have hpos : (0 : ℚ) < m * 2 ^ e := mul_pos (Nat.cast_pos.2 hm) (two_zpow_pos e)
    cases hy with
    | zero s' =>
      rw [mul_zero, (Denotes.zero .positive).rounded_eq]
      exact Denotes.packed (.zero _)
    | finite hm' h' he' =>
      -- the only case in which something is rounded
      rw [← WithTop.coe_mul, rounded_coe]
      exact (writes_mul_finite hm hm' h h').denotes
    | infinity =>
      rw [WithTop.mul_top (WithTop.coe_pos.2 hpos).ne']
      exact Denotes.packed .infinity
  | infinity =>
    rw [WithTop.top_mul (hvw rfl)]
    cases hy with
    | zero s' => exact absurd rfl (hvw rfl)
    | finite hm' h' he' => exact Denotes.packed .infinity
    | infinity => exact Denotes.packed .infinity

/-- A product means the rounded product, where it is not infinity times zero. -/
theorem Means.mul (ha : Means a v) (hb : Means b w) (hvw : v = ⊤ → w ≠ 0) (hwv : w = ⊤ → v ≠ 0) :
    Means (a * b) (rounded (v * w)) :=
  Denotes.mul ha hb hvw hwv

theorem Means.mul_coe {x y : ℚ} (ha : Means a x) (hb : Means b y) :
    Means (a * b) (rounded (x * y : ℚ)) :=
  ha.mul hb (fun h => absurd h WithTop.coe_ne_top) fun h => absurd h WithTop.coe_ne_top

/-! ## Counts -/

theorem writes_ofInt (n : ℕ) : Writes .positive (nearest n) (ofInt .binary32 n) := by
  unfold ofInt
  rcases Nat.eq_zero_or_pos n with rfl | hn
  · rw [Nat.cast_zero, nearest_zero]
    exact .zero
  · rw [normalize_natCast hn]
    have h := writes_round .positive hn 0
    rw [zpow_zero, mul_one] at h
    exact h

/-- A count that is written out with 24 places more. -/
theorem writes_ofScientific (n : ℕ) :
    Writes .positive (nearest n) (ofScientific .binary32 n 0) := by
  unfold ofScientific
  by_cases hzero : n = 0
  · rw [dif_pos hzero, hzero, Nat.cast_zero, nearest_zero]
    exact .zero
  · have hlow : ¬ (0 : ℤ) < -((2 ^ 8 : ℤ) + n.log2) := by omega
    rw [dif_neg hzero, if_neg (by decide), if_neg hlow, if_pos (by decide)]
    have hpos : 0 < n <<< 24 * 10 ^ (0 : ℤ).toNat := by
      rw [Nat.shiftLeft_eq]
      exact Nat.mul_pos (Nat.mul_pos (Nat.pos_of_ne_zero hzero) (Nat.two_pow_pos 24)) Nat.one_pos
    have hvalue : (n : ℚ) = (n <<< 24 * 10 ^ (0 : ℤ).toNat : ℕ) * 2 ^ (-24 + 0 : ℤ) := by
      rw [Nat.shiftLeft_eq, Int.toNat_zero, pow_zero, mul_one, Nat.cast_mul, mul_assoc]
      norm_num
    have hplace : (-24 + 0 : ℤ) ≤
        lastPlace ((n <<< 24 * 10 ^ (0 : ℤ).toNat : ℕ) * 2 ^ (-24 + 0 : ℤ)) := by
      have hlog : 0 ≤ Int.log 2 (n : ℚ) := by
        rw [Int.log_natCast]
        exact Int.natCast_nonneg _
      rw [← hvalue]
      unfold lastPlace
      omega
    have h := writes_roundWithAccuracy .positive hpos hplace
    rw [← hvalue] at h
    exact h

/-- A count stands for itself, rounded. -/
theorem means_ofNat (n : ℕ) : Means (Float32.ofNat n) (capped (nearest n)) := by
  show Means (Float32.ofScientific n false 0) _
  unfold Float32.ofScientific
  -- a small count is converted as a word and multiplied by the power of ten for no decimal places
  split
  · have hword : n.toUInt64.toNat = n := Nat.mod_eq_of_lt (by omega)
    have hcount : Means n.toUInt64.toFloat32 (capped (nearest n.toUInt64.toNat)) :=
      (writes_ofInt n.toUInt64.toNat).denotes
    rw [hword] at hcount
    have h := hcount.mul means_one (fun _ => one_ne_zero) fun htop => absurd htop WithTop.one_ne_top
    rw [mul_one, hcount.rounded_eq] at h
    exact h
  · exact (writes_ofScientific n).denotes

/-- What converting a machine count gives is no infinity. -/
theorem nearest_natCast_lt {n : ℕ} (hn : n < 2 ^ 64) : nearest n < 2 ^ 128 := by
  have hcanonical : IsCanonical (2 ^ 23) 41 := ⟨by decide, by decide, by decide⟩
  have hle : (n : ℚ) ≤ (2 ^ 23 : ℕ) * 2 ^ (41 : ℤ) := by
    have hcast : (n : ℚ) < 2 ^ 64 := by exact_mod_cast hn
    norm_num at hcast ⊢
    exact le_of_lt hcast
  calc nearest n ≤ nearest ((2 ^ 23 : ℕ) * 2 ^ (41 : ℤ)) := nearest_mono (Nat.cast_nonneg n) hle
    _ = (2 ^ 23 : ℕ) * 2 ^ (41 : ℤ) := hcanonical.nearest_eq (by decide)
    _ < 2 ^ 128 := by norm_num

theorem Means.ne_top (h : Means a v) (hfinite : a.isFinite = true) : v ≠ ⊤ := by
  change a.toModel.unpack.isFinite = true at hfinite
  unfold Means at h
  generalize a.toModel.unpack = x at h hfinite
  cases h with
  | zero s => exact WithTop.zero_ne_top
  | finite hm h he => exact WithTop.coe_ne_top
  | infinity => cases hfinite

/-- A finite amount taken more often is no less, as long as the count is one of the machine. -/
theorem mul_ofNat_mono (ha : 0 ≤ a) (hfinite : a.isFinite = true) {n k : ℕ} (hnk : n ≤ k)
    (hk : k < 2 ^ 64) : 0 ≤ a * Float32.ofNat n ∧ a * Float32.ofNat n ≤ a * Float32.ofNat k := by
  rcases exists_means ha with ⟨v, hv⟩
  cases v with
  | top => exact absurd rfl (hv.ne_top hfinite)
  | coe x =>
    have hx : 0 ≤ x := WithTop.coe_nonneg.1 hv.nonneg
    have hproduct : ∀ i : ℕ, i ≤ k → Means (a * Float32.ofNat i) (rounded (x * nearest i : ℚ)) := by
      intro i hi
      have hcount := means_ofNat i
      rw [capped_of_lt (nearest_natCast_lt (Nat.lt_of_le_of_lt hi hk))] at hcount
      exact hv.mul_coe hcount
    have hn := hproduct n hnk
    refine ⟨hn.zero_le, (hn.le_iff (hproduct k (Nat.le_refl k))).2 ?_⟩
    have hcounts : nearest n ≤ nearest k := nearest_mono (Nat.cast_nonneg n) (Nat.cast_le.2 hnk)
    apply rounded_mono
    · exact WithTop.coe_nonneg.2 (mul_nonneg hx (nearest_nonneg (Nat.cast_nonneg n)))
    · exact WithTop.coe_le_coe.2 (mul_le_mul_of_nonneg_left hcounts hx)

/-! ## Bounds -/

theorem larger_of_zero_le (h : 0 ≤ a) : larger a 0 = a := by
  unfold larger
  rw [if_neg (by rw [(isNaN_eq_false_of_le h).2]; decide), if_neg (by decide),
    if_neg (not_lt_of_le h)]

/-- A number that is not at least 0 is lifted to 0. -/
theorem larger_of_not_zero_le (h : ¬ 0 ≤ a) : larger a 0 = 0 := by
  unfold larger
  by_cases hnan : a.isNaN = true
  · rw [if_pos hnan]
  · have hlt : a < 0 := by
      by_contra hnot
      exact h (le_of_not_lt (by simpa using hnan) rfl hnot)
    rw [if_neg hnan, if_neg (by decide), if_pos hlt]

/-- Nothing that is lifted to 0 is below it. -/
theorem zero_le_larger (a : Float32) : 0 ≤ larger a 0 := by
  by_cases h : 0 ≤ a
  · rw [larger_of_zero_le h]
    exact h
  · rw [larger_of_not_zero_le h]
    exact means_zero.zero_le

/-- A number that is bounded to the range from 0 to 1 lies in it. -/
theorem clamp_mem (h : a.isNaN = false) : 0 ≤ clamp a 0 1 ∧ clamp a 0 1 ≤ 1 := by
  unfold clamp
  split
  · exact ⟨means_zero.zero_le, by decide⟩
  · rename_i hlow
    split
    · exact ⟨by decide, by decide⟩
    · rename_i hhigh
      exact ⟨le_of_not_lt h rfl hlow, le_of_not_lt rfl h hhigh⟩

/-- What is not a number passes the clamp. -/
theorem clamp_of_isNaN (h : a.isNaN = true) : clamp a 0 1 = a := by
  unfold clamp
  rw [if_neg, if_neg]
  · intro hlt
    rw [(isNaN_eq_false_of_lt hlt).2] at h
    cases h
  · intro hlt
    rw [(isNaN_eq_false_of_lt hlt).1] at h
    cases h

/-- What is multiplied by no number is none. -/
theorem isNaN_mul_right (h : b.isNaN = true) : (a * b).isNaN = true := by
  change b.toModel.unpack.isNaN = true at h
  show (unpack .binary32 (pack .binary32
    (UnpackedFloat.mul .binary32 a.toModel.unpack b.toModel.unpack))).isNaN = true
  generalize a.toModel.unpack = x
  generalize b.toModel.unpack = y at h
  cases y with
  | notANumber =>
    have hmul : UnpackedFloat.mul .binary32 x .notANumber = .notANumber := by
      cases x <;> rfl
    rw [hmul]
    rfl
  | infinity s => cases h
  | zero s => cases h
  | finite s m e hm => cases h

/-! ## Shares -/

/-- A number that is taken apart and not above zero, or none at all. -/
inductive Low : UnpackedFloat → Prop where
  | notANumber : Low .notANumber
  | zero (s : Sign) : Low (.zero s)
  | finite {m : ℕ} {e : ℤ} (hm : 0 < m) : Low (.finite .negative m e hm)
  | infinity : Low (.infinity .negative)

theorem low_of_not_zero_le (h : ¬ 0 ≤ a) : Low a.toModel.unpack := by
  have hzero : (0 : Float32).toModel.unpack = .zero .positive := rfl
  rw [le_iff_isLE, hzero] at h
  generalize a.toModel.unpack = x at h
  cases x with
  | notANumber => exact .notANumber
  | infinity s =>
    cases s with
    | negative => exact .infinity
    | positive => exact absurd rfl h
  | zero s => exact .zero s
  | finite s m e hm =>
    cases s with
    | negative => exact .finite hm
    | positive => exact absurd rfl h

theorem Low.not_zero_lt (h : Low a.toModel.unpack) : ¬ 0 < a := by
  have hzero : (0 : Float32).toModel.unpack = .zero .positive := rfl
  rw [lt_iff_eq_lt, hzero]
  generalize a.toModel.unpack = x at h
  cases h with
  | notANumber => exact nofun
  | zero s => exact nofun
  | finite hm => exact nofun
  | infinity => exact nofun

/-- Bits with the sign set stand for nothing above zero. -/
theorem low_unpack {b : BitVec Format.binary32.numBits} (h : unpackSign b = 1#1) :
    Low (unpack .binary32 b) := by
  have hsign : Sign.ofBitVec (unpackSign b) = .negative := by
    rw [h]
    rfl
  unfold unpack
  dsimp only
  rw [hsign]
  by_cases hhigh : unpackExponent b = -1#_
  · rw [if_pos hhigh]
    by_cases hnone : unpackMantissa b = 0#_
    · rw [if_pos hnone]
      exact .infinity
    · rw [if_neg hnone]
      exact .notANumber
  · rw [if_neg hhigh]
    by_cases hlow : unpackExponent b = 0#_
    · rw [if_pos hlow]
      by_cases hnone : unpackMantissa b = 0#_
      · rw [dif_pos hnone]
        exact .zero _
      · rw [dif_neg hnone]
        exact .finite _
    · rw [if_neg hlow]
      exact .finite _

/-- Packing keeps what is low low. -/
theorem Low.packed {x : UnpackedFloat} (h : Low x) :
    Low (unpack .binary32 (pack .binary32 x)) := by
  cases h with
  | notANumber => exact .notANumber
  | zero s =>
    rw [unpack_pack_zero]
    exact .zero s
  | finite hm =>
    apply low_unpack
    unfold pack
    dsimp only
    split
    · exact unpackSign_packComponents
    · split
      · exact unpackSign_packComponents
      · exact unpackSign_packComponents
  | infinity =>
    rw [unpack_pack_infinity]
    exact .infinity

theorem low_roundWithAccuracy (m : ℕ) (e : ℤ) :
    Low (roundWithAccuracy .binary32 .negative m e .exact) := by
  unfold roundWithAccuracy
  dsimp only
  generalize shiftToTargetExponent .binary32 _ _ _ = last
  by_cases hnone : last.1.mantissa = 0
  · rw [dif_pos hnone]
    exact .zero _
  · rw [dif_neg hnone]
    exact .finite _

/-- The product of what is not above zero and of what is not below zero is not above zero. -/
theorem Low.mul {x y : UnpackedFloat} {w : WithTop ℚ} (hx : Low x) (hy : Denotes y w) :
    Low (UnpackedFloat.mul .binary32 x y) := by
  cases hx with
  | notANumber => exact .notANumber
  | zero s =>
    cases hy with
    | zero s' => exact .zero _
    | finite hm' h' he' => exact .zero _
    | infinity => exact .notANumber
  | finite hm =>
    cases hy with
    | zero s' => exact .zero _
    | finite hm' h' he' => exact low_roundWithAccuracy _ _
    | infinity => exact .infinity
  | infinity =>
    cases hy with
    | zero s' => exact .notANumber
    | finite hm' h' he' => exact .infinity
    | infinity => exact .infinity

/-- A share of an amount is no more than the amount. -/
theorem mul_le_of_le_one (ha : 0 ≤ a) (hb : 0 ≤ b) (hone : b ≤ 1) (hab : 0 ≤ a * b) :
    a * b ≤ a := by
  rcases exists_means ha with ⟨v, hv⟩
  rcases exists_means hb with ⟨w, hw⟩
  rcases exists_means hab with ⟨u, hu⟩
  -- beyond all numbers nothing is greater; below, rounding is monotone
  cases v with
  | top =>
    rw [hu.le_iff hv]
    exact le_top
  | coe x =>
    have hw1 : w ≤ 1 := (hw.le_iff means_one).1 hone
    cases w with
    | top => exact absurd hw1 (by simp)
    | coe y =>
      have hproduct := hv.mul_coe hw
      have hx : 0 ≤ x := WithTop.coe_nonneg.1 hv.nonneg
      have hy : 0 ≤ y := WithTop.coe_nonneg.1 hw.nonneg
      rw [hproduct.le_iff hv]
      calc rounded (x * y) ≤ rounded x := by
            apply rounded_mono
            · exact WithTop.coe_nonneg.2 (mul_nonneg hx hy)
            · exact WithTop.coe_le_coe.2 (mul_le_of_le_one_right hx (WithTop.coe_le_coe.1 hw1))
        _ = x := hv.rounded_eq

/-- Taking a share leaves no more of what is above zero, and nothing of the rest. -/
theorem larger_mul_le (hshare : b.isNaN = true ∨ 0 ≤ b ∧ b ≤ 1) :
    larger (a * b) 0 ≤ larger a 0 := by
  by_cases hab : 0 ≤ a * b
  · rw [larger_of_zero_le hab]
    have hnumber := (isNaN_eq_false_of_le hab).2
    rcases hshare with hnan | ⟨hb, hone⟩
    · rw [isNaN_mul_right hnan] at hnumber
      cases hnumber
    · by_cases ha : 0 ≤ a
      · rw [larger_of_zero_le ha]
        exact mul_le_of_le_one ha hb hone hab
      · rcases exists_means hb with ⟨w, hw⟩
        have hlow : Low (a * b).toModel.unpack := ((low_of_not_zero_le ha).mul hw).packed
        rw [larger_of_not_zero_le ha]
        exact le_of_not_lt rfl hnumber hlow.not_zero_lt
  · rw [larger_of_not_zero_le hab]
    exact zero_le_larger a

end Binary32

end Conquest
