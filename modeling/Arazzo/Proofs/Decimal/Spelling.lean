import Arazzo.Decimal.Binary
import Arazzo.Proofs.Decimal.Whole

/-! Which texts are read as the double that is no number: the calculation behind digits never ends there, so
only its own name does. -/

namespace Arazzo.Decimal

open Float.Model (Format UnpackedFloat)
open Float.Model.UnpackedFloat

variable {sign : Sign} {x y : Float} {text : List Char}

theorem isNaN_unpack_packComponents (field : BitVec 11) (fraction : BitVec 52) (h : field ≠ -1#11) :
    (unpack Format.binary64 (packComponents Format.binary64 sign field fraction)).isNaN = false := by
  unfold unpack
  simp only [unpackExponent_packComponents, unpackMantissa_packComponents]
  rw [if_neg h]
  split
  · split <;> rfl
  · rfl

theorem isNaN_unpack_pack (x : UnpackedFloat) :
    (unpack Format.binary64 (pack Format.binary64 x)).isNaN = x.isNaN := by
  cases x with
  | infinity sign => cases sign <;> rfl
  | notANumber => rfl
  | zero sign => cases sign <;> rfl
  | finite sign mantissa exponent positive =>
    change _ = false
    unfold pack
    simp only
    split
    · cases sign <;> rfl
    · rename_i hfits
      split
      · refine isNaN_unpack_packComponents _ _ fun h => hfits ?_
        have hfield := congrArg BitVec.toNat h
        rw [BitVec.toNat_ofNat] at hfield
        change _ % 2 ^ 11 = 2047 at hfield
        change 2 ^ 11 ≤ _
        omega
      · exact isNaN_unpack_packComponents _ _ (by decide)

theorem isNaN_ofModel_pack (x : UnpackedFloat) :
    (Float.ofModel (Float.Model.pack x)).isNaN = x.isNaN := isNaN_unpack_pack x

theorem isNaN_neg (x : Float) : (-x).isNaN = x.isNaN := by
  refine (isNaN_ofModel_pack x.toModel.unpack.neg).trans ?_
  change x.toModel.unpack.neg.isNaN = x.toModel.unpack.isNaN
  cases x.toModel.unpack <;> rfl

theorem isNaN_roundWithAccuracy (mantissa : Nat) (exponent : Int) (accuracy : Accuracy) :
    (roundWithAccuracy Format.binary64 sign mantissa exponent accuracy).isNaN = false := by
  unfold roundWithAccuracy
  simp only
  split <;> rfl

theorem isNaN_mul {x y : UnpackedFloat} (hx : x.isFinite = true) (hy : y.isFinite = true) :
    (UnpackedFloat.mul Format.binary64 x y).isNaN = false := by
  cases x with
  | infinity sign => cases hx
  | notANumber => cases hx
  | zero sign => cases y with
    | infinity sign' => cases hy
    | notANumber => cases hy
    | zero sign' => rfl
    | finite sign' mantissa' exponent' positive' => rfl
  | finite sign mantissa exponent positive => cases y with
    | infinity sign' => cases hy
    | notANumber => cases hy
    | zero sign' => rfl
    | finite sign' mantissa' exponent' positive' => exact isNaN_roundWithAccuracy ..

def isDivisor : UnpackedFloat → Bool
  | .finite .. => true
  | _ => false

theorem isFinite_of_isDivisor {x : UnpackedFloat} (h : isDivisor x = true) : x.isFinite = true := by
  cases x with
  | finite sign mantissa exponent positive => rfl
  | infinity sign => cases h
  | notANumber => cases h
  | zero sign => cases h

theorem isNaN_div {x y : UnpackedFloat} (hx : x.isFinite = true) (hy : isDivisor y = true) :
    (UnpackedFloat.div Format.binary64 x y).isNaN = false := by
  cases y with
  | infinity sign => cases hy
  | notANumber => cases hy
  | zero sign => cases hy
  | finite sign' mantissa' exponent' positive' => cases x with
    | infinity sign => cases hx
    | notANumber => cases hx
    | zero sign => rfl
    | finite sign mantissa exponent positive => exact isNaN_roundWithAccuracy ..

theorem isDivisor_powerOfTen : ∀ (e : Nat) (_ : e < Float.exactlyRepresentablePowersOfTen.size),
    isDivisor (Float.exactlyRepresentablePowersOfTen[e]).toModel.unpack = true := by
  decide

theorem isNaN_model_ofScientific (digits : Nat) (exponent : Int) :
    (UnpackedFloat.ofScientific Format.binary64 digits exponent).isNaN = false := by
  unfold UnpackedFloat.ofScientific
  split_ifs with hzero
  · rfl
  · rfl
  · rfl
  · have hdigits : (UnpackedFloat.finite .positive (digits <<< Format.binary64.mantissaBits)
        (-Format.binary64.mantissaBits) (by
          rw [Nat.shiftLeft_eq]
          positivity)).isFinite = true := rfl
    exact isNaN_mul hdigits rfl
  · have hdigits : (UnpackedFloat.finite .positive digits 0 (Nat.pos_of_ne_zero hzero)).isFinite =
        true := rfl
    exact isNaN_div hdigits rfl

theorem isNaN_ofScientific (digits : Nat) (down : Bool) (exponent : Nat) :
    (Float.ofScientific digits down exponent).isNaN = false := by
  unfold Float.ofScientific
  split
  · rename_i hsmall
    have hpower := isDivisor_powerOfTen exponent (Nat.lt_succ_of_le hsmall.2)
    have hconverted : digits.toUInt64.toFloat.toModel.unpack.isFinite = true :=
      AtMost.isFinite (((ofNat_atMost digits.toUInt64.toNat_lt).mono (by decide)).unpack_pack
        (by decide) (Int.le_refl 971))
    change (if down = true then digits.toUInt64.toFloat / _
      else digits.toUInt64.toFloat * _).isNaN = false
    split
    · exact (isNaN_ofModel_pack (UnpackedFloat.div _ _ _)).trans (isNaN_div hconverted hpower)
    · exact (isNaN_ofModel_pack (UnpackedFloat.mul _ _ _)).trans
        (isNaN_mul hconverted (isFinite_of_isDivisor hpower))
  · exact (isNaN_ofModel_pack (UnpackedFloat.ofScientific _ _ _)).trans (isNaN_model_ofScientific ..)

theorem isNaN_nearest (digits : Nat) (exponent : Int) : (nearest digits exponent).isNaN = false := by
  have hzero : (0.0 : Float).isNaN = false := isNaN_ofScientific 0 true 1
  have hinfinite : (1.0 / 0.0 : Float).isNaN = false := by decide
  unfold nearest
  dsimp only
  split_ifs
  · exact hzero
  · exact hinfinite
  · exact hzero
  · exact isNaN_ofScientific ..
  · exact isNaN_ofScientific ..

def unsigned : List Char → List Char
  | '-' :: rest => rest
  | '+' :: rest => rest
  | rest => rest

def namesNaN (text : List Char) : Bool :=
  String.ofList ((unsigned text).map Char.toLower) == "nan"

theorem unsigned_eq {negative : Bool} {body : List Char}
    (h : (match text with
      | '-' :: rest => (true, rest)
      | '+' :: rest => (false, rest)
      | rest => (false, rest)) = (negative, body)) : unsigned text = body := by
  split at h <;> obtain ⟨-, rfl⟩ := Prod.mk.inj h
  · rfl
  · rfl
  · rename_i hminus hplus
    unfold unsigned
    split
    · exact absurd rfl (hminus _)
    · exact absurd rfl (hplus _)
    · rfl

theorem isSome_float? (h : namesNaN text = true) : (float? text).isSome := by
  unfold float?
  split
  rename_i negative body hsplit
  have hname : String.ofList (body.map Char.toLower) = "nan" := by
    rw [← unsigned_eq hsplit]
    exact eq_of_beq h
  simp only [hname]
  rfl

theorem isNaN_float? {x : Float} (h : float? text = some x) : x.isNaN = namesNaN text := by
  have hinfinite : (1.0 / 0.0 : Float).isNaN = false := by decide
  have hnone : (0.0 / 0.0 : Float).isNaN = true := by decide
  unfold float? at h
  split at h
  rename_i negative body hsplit
  have hbody := unsigned_eq hsplit
  have hsigned (y : Float) : (if negative = true then -y else y).isNaN = y.isNaN := by
    split
    · exact isNaN_neg y
    · rfl
  have hscaled {digits : Nat} {e : Int}
      (h : some (if negative = true then -nearest digits e else nearest digits e) = some x) :
      x.isNaN = false := by
    obtain rfl := Option.some.inj h
    exact (hsigned _).trans (isNaN_nearest ..)
  rw [namesNaN, hbody]
  simp only at h
  generalize String.ofList (body.map Char.toLower) = name at h ⊢
  split at h
  · rename_i hlimit
    obtain rfl := Option.some.inj h
    rw [hsigned, hinfinite]
    rcases (Bool.or_eq_true ..).mp hlimit with hname | hname <;> rw [eq_of_beq hname] <;> rfl
  · split at h
    · rename_i hname
      rw [hname, ← Option.some.inj h, hnone]
    · rename_i hname
      rw [Bool.not_eq_true _ |>.mp hname]
      -- With a fraction or without one, and with an exponent of either sign or without one.
      split at h
      all_goals
        split at h
        · cases h
        split at h
        · exact hscaled h
        split at h
        · cases h
        split at h
        all_goals
          split at h
          · cases h
          · exact hscaled h

end Arazzo.Decimal
