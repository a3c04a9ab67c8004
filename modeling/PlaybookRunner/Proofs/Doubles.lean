import Mathlib

/-!
# Doubles that equal themselves

A double equals itself unless it is no number. The finite doubles are numbers,
and so is every double that stands for a whole number.
-/

namespace PlaybookRunner.Double

open Float.Model

theorem beq_self {x : Float} (h : x.isNaN = false) : (x == x) = true := by
  rw [Float.beq_self_iff]
  rintro rfl
  exact absurd h (by decide)

theorem isNaN_of_isFinite {x : Float} (h : x.isFinite = true) : x.isNaN = false := by
  change x.toModel.unpack.isFinite = true at h
  change x.toModel.unpack.isNaN = false
  cases hu : x.toModel.unpack with
  | notANumber =>
    rw [hu] at h
    cases h
  | infinity s => rfl
  | zero s => rfl
  | finite s m e hm => rfl

section

variable {u : UnpackedFloat}

/-- What is packed from a number has the mantissa of an infinity where it has its exponent. -/
theorem mantissa_pack (h : u.isNaN = false)
    (hexp : UnpackedFloat.unpackExponent (UnpackedFloat.pack Format.binary64 u) = -1#_) :
    UnpackedFloat.unpackMantissa (UnpackedFloat.pack Format.binary64 u) = 0#_ := by
  revert hexp
  fun_cases UnpackedFloat.pack Format.binary64 u with
  | case1 => cases h
  | case2 s => simp [UnpackedFloat.packedInfinity]
  | case3 s => simp [UnpackedFloat.packedZero]
  | case4 s m e hm biased hbig => simp [UnpackedFloat.packedInfinity]
  | case5 s m e hm bits biased hbig hbits =>
    intro hexp
    have hvalue := congrArg BitVec.toNat hexp
    simp only [UnpackedFloat.unpackExponent_packComponents, BitVec.toNat_ofNat,
      BitVec.neg_one_eq_allOnes, BitVec.toNat_allOnes] at hvalue hbig
    omega
  | case6 s m e hm bits biased hbig hbits => simp

theorem isNaN_unpack_pack (h : u.isNaN = false) : (pack u).unpack.isNaN = false := by
  have hmantissa := mantissa_pack h
  simp only [pack, unpack]
  unfold UnpackedFloat.unpack
  dsimp only
  split
  next hexp =>
    rw [if_pos (hmantissa hexp)]
    rfl
  next =>
    split
    · split <;> rfl
    · rfl

theorem isNaN_ofModel_pack (h : u.isNaN = false) : (Float.ofModel (pack u)).isNaN = false :=
  isNaN_unpack_pack h

theorem isNaN_roundWithAccuracy (spec : Format) (s : UnpackedFloat.Sign) (m : Nat) (e : Int)
    (a : UnpackedFloat.Accuracy) :
    (UnpackedFloat.roundWithAccuracy spec s m e a).isNaN = false := by
  unfold UnpackedFloat.roundWithAccuracy
  dsimp only
  split <;> rfl

theorem isNaN_mul_finite (h : u.isNaN = false) (spec : Format) (s : UnpackedFloat.Sign) (m : Nat)
    (e : Int) (hm : 0 < m) : (UnpackedFloat.mul spec u (.finite s m e hm)).isNaN = false := by
  cases u with
  | notANumber => cases h
  | infinity _ => rfl
  | zero _ => rfl
  | finite _ _ _ _ => exact isNaN_roundWithAccuracy ..

theorem isNaN_unpacked_ofInt (spec : Format) (n : Int) :
    (UnpackedFloat.ofInt spec n).isNaN = false := by
  unfold UnpackedFloat.ofInt UnpackedFloat.normalize
  split
  · exact isNaN_roundWithAccuracy ..
  · rfl
  · exact isNaN_roundWithAccuracy ..

theorem isNaN_ofScientific (spec : Format) (m : Nat) :
    (UnpackedFloat.ofScientific spec m 0).isNaN = false := by
  unfold UnpackedFloat.ofScientific
  split
  next => rfl
  next =>
    split
    next => rfl
    next =>
      split
      next => rfl
      next =>
        rw [if_pos (Int.le_refl 0)]
        exact isNaN_mul_finite rfl ..

end

theorem isNaN_ofNat (n : Nat) : (Float.ofNat n).isNaN = false := by
  change (Float.ofScientific n false 0).isNaN = false
  unfold Float.ofScientific
  split
  next =>
    -- A small number is multiplied by one.
    have hbound : 0 < Float.exactlyRepresentablePowersOfTen.size := by decide
    have hone : Float.exactlyRepresentablePowersOfTen[0] = Float.ofBits 0x3FF0000000000000 := rfl
    have hunpack : (Float.ofBits 0x3FF0000000000000).toModel.unpack =
        .finite .positive (2 ^ 52) (-52) (by decide) := rfl
    refine isNaN_ofModel_pack ?_
    change (UnpackedFloat.mul Format.binary64 n.toUInt64.toFloat.toModel.unpack
      Float.exactlyRepresentablePowersOfTen[0].toModel.unpack).isNaN = false
    rw [hone, hunpack]
    exact isNaN_mul_finite (isNaN_unpack_pack (isNaN_unpacked_ofInt ..)) ..
  next => exact isNaN_ofModel_pack (isNaN_ofScientific Format.binary64 n)

theorem isNaN_neg {x : Float} (h : x.isNaN = false) : (Float.neg x).isNaN = false := by
  refine isNaN_ofModel_pack ?_
  change x.toModel.unpack.isNaN = false at h
  cases hu : x.toModel.unpack with
  | notANumber =>
    rw [hu] at h
    cases h
  | infinity s => rfl
  | zero s => rfl
  | finite s m e hm => rfl

theorem isNaN_ofInt (n : Int) : (Float.ofInt n).isNaN = false := by
  cases n with
  | ofNat n => exact isNaN_ofNat n
  | negSucc n => exact isNaN_neg (isNaN_ofNat _)

end PlaybookRunner.Double
