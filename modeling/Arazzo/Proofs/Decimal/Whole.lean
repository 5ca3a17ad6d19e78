import Arazzo.Json.Basic
import Mathlib

/-! Whole numbers of 64 bits are finite doubles: rounding moves an exponent by little, and only a
great exponent is packed as an infinity. -/

namespace Arazzo.Decimal

open Float.Model (Format UnpackedFloat totalExponent)
open Float.Model.UnpackedFloat

/-- Zero, or a number whose exponent is not beyond the bound. -/
def AtMost (bound : Int) : UnpackedFloat → Prop
  | .zero _ => True
  | .finite _ _ exponent _ => exponent ≤ bound
  | _ => False

theorem AtMost.mono {bound bound' : Int} {x : UnpackedFloat} (h : AtMost bound x)
    (hle : bound ≤ bound') : AtMost bound' x := by
  cases x with
  | zero sign => trivial
  | finite sign mantissa exponent positive => exact Int.le_trans h hle
  | infinity sign => exact h
  | notANumber => exact h

theorem AtMost.neg {bound : Int} {x : UnpackedFloat} (h : AtMost bound x) : AtMost bound x.neg := by
  cases x <;> exact h

theorem AtMost.isFinite {bound : Int} {x : UnpackedFloat} (h : AtMost bound x) :
    x.isFinite = true := by
  cases x with
  | zero sign => rfl
  | finite sign mantissa exponent positive => rfl
  | infinity sign => cases h
  | notANumber => cases h

theorem shiftRight_mantissa_le (mantissa : ExtendedMantissa) (shift : Nat) :
    (mantissa >>> shift).mantissa ≤ mantissa.mantissa := by
  induction shift with
  | zero => exact Nat.le_refl _
  | succ shift ih =>
    change (mantissa >>> shift).mantissa / 2 ≤ mantissa.mantissa
    omega

theorem roundedMantissa_le (mantissa : ExtendedMantissa) :
    mantissa.roundedMantissa ≤ mantissa.mantissa + 1 := by
  unfold ExtendedMantissa.roundedMantissa
  rcases mantissa.accuracy with _ | (_ | _ | _)
  all_goals
    simp only [Accuracy.roundToNearestEven]
    omega

theorem log2_le {mantissa bits : Nat} (h : mantissa < 2 ^ bits) : mantissa.log2 ≤ bits := by
  by_cases hzero : mantissa = 0
  · simp [hzero]
  · exact Nat.le_of_lt ((Nat.log2_lt hzero).mpr h)

variable {mantissa bits : Nat} {exponent bound : Int}

theorem shiftToTargetExponent_le (accuracy : Accuracy) (hmantissa : mantissa < 2 ^ bits)
    (hexponent : exponent ≤ bound) (hbound : -1074 ≤ bound) :
    (shiftToTargetExponent Format.binary64 mantissa exponent accuracy).1.mantissa ≤ mantissa ∧
      (shiftToTargetExponent Format.binary64 mantissa exponent accuracy).2 ≤ bound + bits := by
  have hlog := log2_le hmantissa
  unfold shiftToTargetExponent shiftToExponent
  constructor
  · refine Nat.le_trans (shiftRight_mantissa_le _ _) ?_
    rcases accuracy with _ | (_ | _ | _) <;> exact Nat.le_refl _
  · simp only [Format.targetExponent, totalExponent, Format.mantissaBits, Format.minExponent]
    omega

theorem roundWithAccuracy_atMost (sign : Sign) (accuracy : Accuracy)
    (hmantissa : mantissa < 2 ^ bits) (hexponent : exponent ≤ bound) (hbound : -1074 ≤ bound) :
    AtMost (bound + bits + (bits + 1))
      (roundWithAccuracy Format.binary64 sign mantissa exponent accuracy) := by
  obtain ⟨hshifted, hfirst⟩ := shiftToTargetExponent_le accuracy hmantissa hexponent hbound
  have hrounded := roundedMantissa_le
    (shiftToTargetExponent Format.binary64 mantissa exponent accuracy).1
  have hgrown : (shiftToTargetExponent Format.binary64 mantissa exponent accuracy).1.roundedMantissa
      < 2 ^ (bits + 1) := by
    rw [Nat.pow_succ]
    omega
  obtain ⟨-, hsecond⟩ := shiftToTargetExponent_le .exact hgrown hfirst (by omega)
  unfold roundWithAccuracy
  simp only
  split
  · trivial
  · exact hsecond

/-- A whole number keeps its exponent small although its mantissa is first filled up. -/
theorem round_atMost (sign : Sign) (h : mantissa < 2 ^ 64) :
    AtMost 300 (UnpackedFloat.round Format.binary64 sign mantissa 0) := by
  have hlog := log2_le h
  unfold UnpackedFloat.round decreaseExponent
  simp only
  generalize hshift : (0 - Format.binary64.targetExponent (totalExponent mantissa 0)).toNat = shift
  have hle : shift ≤ 53 := by
    simp only [Format.targetExponent, totalExponent, Format.mantissaBits, Format.minExponent]
      at hshift
    omega
  have hfilled : mantissa <<< shift < 2 ^ 117 := by
    calc
      mantissa <<< shift = mantissa * 2 ^ shift := Nat.shiftLeft_eq ..
      _ ≤ mantissa * 2 ^ 53 := Nat.mul_le_mul_left _ (Nat.pow_le_pow_right (by decide) hle)
      _ < 2 ^ 64 * 2 ^ 53 := Nat.mul_lt_mul_of_pos_right h (by decide)
      _ = 2 ^ 117 := by decide
  have hexponent : (0 : Int) - shift ≤ 0 := by omega
  exact (roundWithAccuracy_atMost sign .exact hfilled hexponent (by decide)).mono (by decide)

theorem ofNat_atMost {n : Nat} (h : n < 2 ^ 64) :
    AtMost 300 (UnpackedFloat.ofNat Format.binary64 n) := by
  unfold UnpackedFloat.ofNat UnpackedFloat.ofInt UnpackedFloat.normalize
  split
  · exact round_atMost _ (by omega)
  · trivial
  · exact round_atMost _ (by omega)

theorem unpack_mantissa_lt {bits : BitVec Format.binary64.numBits} {sign : Sign} {positive}
    (h : unpack Format.binary64 bits = .finite sign mantissa exponent positive) :
    mantissa < 2 ^ 53 := by
  unfold unpack at h
  simp only at h
  split at h
  · split at h <;> cases h
  · split at h
    · split at h
      · cases h
      · obtain ⟨-, rfl, -⟩ := UnpackedFloat.finite.inj h
        exact Nat.lt_trans (unpackMantissa bits).isLt (by decide)
    · obtain ⟨-, rfl, -⟩ := UnpackedFloat.finite.inj h
      exact (1#1 ++ unpackMantissa bits).isLt

theorem unpack_packComponents_atMost (sign : Sign) (field : BitVec 11) (fraction : BitVec 52)
    (hfield : field.toNat < 2047) (hle : (field.toNat : Int) - 1075 ≤ bound)
    (hlow : -1074 ≤ bound) :
    AtMost bound (unpack Format.binary64 (packComponents Format.binary64 sign field fraction)) := by
  have hones : field ≠ -1#11 := by
    rintro rfl
    exact absurd hfield (by decide)
  have hbias : (Format.binary64.exponentBias : Int) + (52 : Nat) = 1075 := by decide
  unfold unpack
  simp only [unpackExponent_packComponents, unpackMantissa_packComponents]
  rw [if_neg hones]
  split
  · rename_i hzero
    split
    · trivial
    · subst hzero
      exact hlow
  · change (field.toNat : Int) - (Format.binary64.exponentBias + (52 : Nat)) ≤ bound
    rw [hbias]
    exact hle

theorem AtMost.unpack_pack {x : UnpackedFloat} (h : AtMost bound x) (hlow : -1074 ≤ bound)
    (hhigh : bound ≤ 971) : AtMost bound (unpack Format.binary64 (pack Format.binary64 x)) := by
  cases x with
  | zero sign => cases sign <;> exact trivial
  | finite sign mantissa exponent positive =>
    have hexponent : exponent ≤ bound := h
    generalize hfield : (exponent + 1023 + 52).toNat = field
    have hfits : ¬ 2 ^ 11 ≤ field + 1 := by omega
    have hpack : pack Format.binary64 (.finite sign mantissa exponent positive) =
        if mantissa.log2 + 1 = Format.binary64.mantissaBits then
          packComponents Format.binary64 sign (BitVec.ofNat 11 field) (BitVec.ofNat 52 mantissa)
        else packComponents Format.binary64 sign 0#11 (BitVec.ofNat 52 mantissa) := by
      subst hfield
      exact if_neg hfits
    have hsame : (BitVec.ofNat 11 field).toNat = field := by
      rw [BitVec.toNat_ofNat]
      exact Nat.mod_eq_of_lt (by omega)
    rw [hpack]
    split
    · exact unpack_packComponents_atMost _ _ _ (by omega) (by omega) hlow
    · exact unpack_packComponents_atMost _ _ _ (by decide) (by simp; omega) hlow
  | infinity sign => cases h
  | notANumber => cases h

def Within (bound : Int) (x : Float) : Prop := AtMost bound x.toModel.unpack

theorem within_ofModel_pack {x : UnpackedFloat} (h : AtMost bound x) (hlow : -1074 ≤ bound)
    (hhigh : bound ≤ 971) : Within bound (Float.ofModel (Float.Model.pack x)) :=
  h.unpack_pack hlow hhigh

theorem Within.isFinite {x : Float} (h : Within bound x) : x.isFinite = true :=
  AtMost.isFinite h

theorem mul_within {x y : Float} {bound' : Int} (hx : Within bound x) (hy : Within bound' y)
    (hlow : -1074 ≤ bound + bound') (hhigh : bound + bound' ≤ 758) :
    Within (bound + bound' + 213) (x * y) := by
  refine within_ofModel_pack (x := UnpackedFloat.mul Format.binary64 x.toModel.unpack
    y.toModel.unpack) ?_ (by omega) (by omega)
  unfold Within at hx hy
  cases hfirst : x.toModel.unpack with
  | infinity sign => simp [hfirst, AtMost] at hx
  | notANumber => simp [hfirst, AtMost] at hx
  | zero sign =>
    cases hsecond : y.toModel.unpack with
    | infinity sign => simp [hsecond, AtMost] at hy
    | notANumber => simp [hsecond, AtMost] at hy
    | zero sign => trivial
    | finite sign mantissa exponent positive => trivial
  | finite sign mantissa exponent positive =>
    cases hsecond : y.toModel.unpack with
    | infinity sign => simp [hsecond, AtMost] at hy
    | notANumber => simp [hsecond, AtMost] at hy
    | zero sign => trivial
    | finite sign' mantissa' exponent' positive' =>
      simp only [hfirst, AtMost] at hx
      simp only [hsecond, AtMost] at hy
      have hproduct : mantissa * mantissa' < 2 ^ 106 := by
        calc
          mantissa * mantissa' < 2 ^ 53 * 2 ^ 53 :=
            Nat.mul_lt_mul'' (unpack_mantissa_lt hfirst) (unpack_mantissa_lt hsecond)
          _ = 2 ^ 106 := by decide
      have hexponent : exponent + exponent' ≤ bound + bound' := by omega
      exact (roundWithAccuracy_atMost (sign * sign') .exact hproduct hexponent hlow).mono (by omega)

theorem ofNat_within {n : Nat} (h : n < 2 ^ 64) : Within 600 (Float.ofNat n) := by
  unfold Float.ofNat
  change Within 600 (Float.ofScientific n false 0)
  unfold Float.ofScientific
  split
  · -- A small number is converted and then multiplied by the power `10 ^ 0`.
    have hconverted : Within 387 n.toUInt64.toFloat :=
      within_ofModel_pack ((ofNat_atMost n.toUInt64.toNat_lt).mono (by decide)) (by decide)
        (by decide)
    have hone : Within 0 (Float.ofBits 0x3FF0000000000000) := show (-52 : Int) ≤ 0 by decide
    exact mul_within hconverted hone (by decide) (by decide)
  · refine within_ofModel_pack (x := UnpackedFloat.ofScientific Format.binary64 n 0) ?_ (by decide)
      (by decide)
    unfold UnpackedFloat.ofScientific
    split
    · trivial
    · have hsmall : ¬ (0 : Int) < -((2 ^ 11 : Int) + n.log2) := by omega
      rw [if_neg (by decide), if_neg hsmall, if_pos (Int.le_refl 0)]
      have hbits : Format.binary64.mantissaBits = 53 := rfl
      simp only [UnpackedFloat.mul, hbits]
      have hfilled : n <<< 53 * 10 ^ Int.toNat 0 < 2 ^ 117 := by
        rw [Int.toNat_zero, Nat.pow_zero, Nat.mul_one, Nat.shiftLeft_eq]
        exact Nat.mul_lt_mul_of_pos_right h (by decide : 0 < 2 ^ 53)
      generalize n <<< 53 * 10 ^ Int.toNat 0 = filled at hfilled ⊢
      have hexponent : -((53 : Nat) : Int) + 0 ≤ -53 := by decide
      exact (roundWithAccuracy_atMost _ .exact hfilled hexponent (by decide)).mono (by decide)

theorem ofInt_isFinite {n : Int} (h : n.natAbs < 2 ^ 64) : (Float.ofInt n).isFinite = true := by
  cases n with
  | ofNat n => exact (ofNat_within h).isFinite
  | negSucc n =>
    have hpositive : Within 600 (Float.ofNat (n + 1)) := ofNat_within h
    exact (within_ofModel_pack (AtMost.neg hpositive) (by decide) (by decide)).isFinite

end Arazzo.Decimal
