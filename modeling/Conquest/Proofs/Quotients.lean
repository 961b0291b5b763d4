import Conquest.Proofs.Amounts

/-!
# Quotients that are numbers

A sum of values, a product or a quotient of single-precision numbers may be no number at all, and
then it cannot be compared. A positive number divided by a count is always a number: the count is
no infinity, and rounding never gives a non-number.

* `Binary32.isNaN_unpack_pack`: packing a number does not lose it.
* `isNaN_div_ofNat`: a positive number divided by a count is a number.
-/

namespace Conquest

namespace Binary32

open Float.Model (Format UnpackedFloat)
open Float.Model.UnpackedFloat

/-- A positive number is infinite or has a positive mantissa. -/
theorem exists_of_pos {a : Float32} (h : 0 < a) :
    a.toModel.unpack = .infinity .positive ∨
      ∃ m e hm, a.toModel.unpack = .finite .positive m e hm := by
  rw [lt_iff_eq_lt] at h
  have hzero : (0 : Float32).toModel.unpack = .zero .positive := rfl
  rw [hzero] at h
  generalize a.toModel.unpack = x at h
  cases x with
  | notANumber => cases h
  | infinity s =>
    cases s with
    | negative => cases h
    | positive => exact .inl rfl
  | zero s => cases h
  | finite s m e hm =>
    cases s with
    | negative => cases h
    | positive => exact .inr ⟨m, e, hm, rfl⟩

/-- Bits stand for a number unless their exponent is the greatest one and they have digits. -/
theorem isNaN_unpack {b : BitVec Format.binary32.numBits}
    (h : unpackExponent b = -1#_ → unpackMantissa b = 0#_) :
    (unpack .binary32 b).isNaN = false := by
  unfold unpack
  dsimp only
  by_cases hexp : unpackExponent b = -1#_
  · rw [if_pos hexp, if_pos (h hexp)]
    rfl
  · rw [if_neg hexp]
    by_cases hlow : unpackExponent b = 0#_
    · rw [if_pos hlow]
      by_cases hnone : unpackMantissa b = 0#_
      · rw [dif_pos hnone]
        rfl
      · rw [dif_neg hnone]
        rfl
    · rw [if_neg hlow]
      rfl

theorem isNaN_unpack_packedInfinity (s : Sign) :
    (unpack .binary32 (packedInfinity .binary32 s)).isNaN = false :=
  isNaN_unpack fun _ => unpackMantissa_packComponents

/-- Packing a number does not lose it. -/
theorem isNaN_unpack_pack {x : UnpackedFloat} (hx : x.isNaN = false) :
    (unpack .binary32 (pack .binary32 x)).isNaN = false := by
  cases x with
  | notANumber => cases hx
  | infinity s => exact isNaN_unpack_packedInfinity s
  | zero s => exact isNaN_unpack fun _ => unpackMantissa_packComponents
  | finite s m e _ =>
    unfold pack
    dsimp only
    set stored : Nat := (e + Format.binary32.exponentBias + 23).toNat
    split
    · exact isNaN_unpack_packedInfinity s
    · rename_i hlow
      split
      · apply isNaN_unpack
        intro hexp
        rw [unpackExponent_packComponents, ← BitVec.toNat_inj, BitVec.toNat_ofNat] at hexp
        have hmost : stored % 2 ^ 8 = 255 := hexp
        omega
      · apply isNaN_unpack
        intro hexp
        rw [unpackExponent_packComponents] at hexp
        exact absurd hexp (by decide)

/-- Rounding gives a number. -/
theorem isNaN_roundWithAccuracy (s : Sign) (m : Nat) (e : Int) (a : Accuracy) :
    (roundWithAccuracy .binary32 s m e a).isNaN = false := by
  unfold roundWithAccuracy
  dsimp only
  generalize shiftToTargetExponent .binary32 _ _ _ = last
  by_cases hnone : last.1.mantissa = 0
  · rw [dif_pos hnone]
    rfl
  · rw [dif_neg hnone]
    rfl

/-- A positive number, an infinity among them, divided by a count is a number. -/
theorem isNaN_div_ofNat {a : Float32} (ha : 0 < a) {n : Nat} (hn : n < 2 ^ 32) :
    (a / Float32.ofNat n).isNaN = false := by
  show (unpack .binary32 (pack .binary32
    (div .binary32 a.toModel.unpack (Float32.ofNat n).toModel.unpack))).isNaN = false
  have hcount := means_ofNat n
  rw [capped_of_lt (nearest_natCast_lt (by omega))] at hcount
  have hfinite : (nearest n : WithTop ℚ) ≠ ⊤ := WithTop.coe_ne_top
  unfold Means at hcount
  generalize (nearest n : WithTop ℚ) = v at hcount hfinite
  generalize (Float32.ofNat n).toModel.unpack = y at hcount
  apply isNaN_unpack_pack
  -- the only quotients that are none are of two zeros or of two infinities
  rcases exists_of_pos ha with h | ⟨m, e, hm, h⟩
  · rw [h]
    cases hcount with
    | zero s => rfl
    | finite hm' h' he' => rfl
    | infinity => exact absurd rfl hfinite
  · rw [h]
    cases hcount with
    | zero s => rfl
    | finite hm' h' he' => exact isNaN_roundWithAccuracy _ _ _ _
    | infinity => exact absurd rfl hfinite

end Binary32

end Conquest
