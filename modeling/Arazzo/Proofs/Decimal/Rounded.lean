import Arazzo.Proofs.Decimal.Nearest

/-! Whole numbers of 64 bits as doubles: each becomes the nearest one of 53 significant bits, which keeps
their order but not their distance. -/

namespace Arazzo.Decimal

open Float.Model (Format UnpackedFloat totalExponent)
open Float.Model.UnpackedFloat
open Duration

def roundedNat (n : Nat) : Nat := divNearest n (2 ^ (n.log2 - 52)) * 2 ^ (n.log2 - 52)

def rounded : Int → Int
  | .ofNat n => roundedNat n
  | .negSucc n => -roundedNat (n + 1)

variable {n : Nat} {x : UnpackedFloat}

theorem log2_mul_two_pow (hn : n ≠ 0) (k : Nat) : (n * 2 ^ k).log2 = n.log2 + k := by
  have hpos : 0 < 2 ^ k := Nat.two_pow_pos k
  refine (Nat.log2_eq_iff (Nat.mul_ne_zero hn (Nat.ne_of_gt hpos))).mpr ⟨?_, ?_⟩
  · rw [Nat.pow_add]
    exact Nat.mul_le_mul_right _ (Nat.log2_self_le hn)
  · rw [Nat.add_right_comm, Nat.pow_add]
    exact Nat.mul_lt_mul_of_pos_right Nat.lt_log2_self hpos

theorem roundedNat_of_lt (h : n < 2 ^ 53) : roundedNat n = n := by
  have hlog : n.log2 - 52 = 0 := by
    rcases Nat.eq_zero_or_pos n with rfl | hpos
    · rfl
    · have := (Nat.log2_lt (Nat.ne_of_gt hpos)).mpr h
      omega
  have hwhole := divNearest_whole n Nat.one_pos
  rw [Nat.mul_one] at hwhole
  rw [roundedNat, hlog, Nat.pow_zero, Nat.mul_one, hwhole]

/-- The double that is a whole number. -/
def Stands (x : Float) (value : Int) : Prop :=
  Filled x.toModel.unpack ∧ multiple x.toModel.unpack = value * 2 ^ 1074

theorem lt_iff_compare {x y : Float} :
    x < y ↔ x.toModel.unpack.compare y.toModel.unpack = some .lt := by
  change decide (_ = true) = true ↔ _
  rw [decide_eq_true_iff]
  exact beq_iff_eq

theorem Stands.compare {x y : Float} {m n : Int} (hx : Stands x m) (hy : Stands y n) :
    x.toModel.unpack.compare y.toModel.unpack = some (compare m n) := by
  rw [compare_filled hx.1 hy.1, hx.2, hy.2,
    compare_strictMono (strictMono_mul_right_of_pos (by positivity))]

theorem Stands.lt_iff {x y : Float} {m n : Int} (hx : Stands x m) (hy : Stands y n) :
    x < y ↔ m < n := by
  rw [lt_iff_compare, hx.compare hy, Option.some.injEq, compare_lt_iff_lt]

theorem stands_pack {value : Int} (h : Filled x) (hhigh : AtMost 971 x)
    (hvalue : multiple x = value * 2 ^ 1074) : Stands (Float.ofModel (Float.Model.pack x)) value := by
  have hunpack : (Float.ofModel (Float.Model.pack x)).toModel.unpack = x := unpack_pack h hhigh
  rw [Stands, hunpack]
  exact ⟨h, hvalue⟩

theorem unpack_toFloat (hn : n ≠ 0) (h : n < 2 ^ 53) :
    ∃ positive, n.toUInt64.toFloat.toModel.unpack =
      .finite .positive (n * 2 ^ (52 - n.log2)) (0 - (52 - n.log2 : Nat)) positive := by
  have hlog : n.log2 < 53 := (Nat.log2_lt hn).mpr h
  have hshift : (0 - max ((n.log2 : Int) + 0 - 52) (-1074)).toNat = 52 - n.log2 := by omega
  have hfilled : (n * 2 ^ (52 - n.log2)).log2 = 52 := by
    rw [log2_mul_two_pow hn]
    omega
  have hnonzero : n * 2 ^ (52 - n.log2) ≠ 0 :=
    Nat.mul_ne_zero hn (Nat.ne_of_gt (Nat.two_pow_pos _))
  have hless : n * 2 ^ (52 - n.log2) < 2 ^ 53 := (Nat.log2_lt hnonzero).mp (by omega)
  have hmore : 2 ^ 52 ≤ n * 2 ^ (52 - n.log2) := (Nat.le_log2 hnonzero).mp (by omega)
  have hleast : -1074 ≤ (0 : Int) - (52 - n.log2 : Nat) := by omega
  have hshifted := shiftToTargetExponent_self hless hleast
  have hrounded : UnpackedFloat.round Format.binary64 .positive n 0 =
      .finite .positive (n * 2 ^ (52 - n.log2)) (0 - (52 - n.log2 : Nat))
        (Nat.pos_of_ne_zero hnonzero) := by
    unfold UnpackedFloat.round
    simp only [targetExponent_eq, decreaseExponent, hshift, Nat.shiftLeft_eq]
    rw [roundWithAccuracy_shifts hshifted rfl hshifted]
    exact dif_neg hnonzero
  have hword : n.toUInt64.toNat = n := Nat.mod_eq_of_lt (h.trans (by decide))
  have hmodel : n.toUInt64.toFloat.toModel =
      Float.Model.pack (UnpackedFloat.round Format.binary64 .positive n 0) := by
    change Float.Model.pack (UnpackedFloat.ofNat Format.binary64 n.toUInt64.toNat) = _
    rw [hword]
    have hpositive : compare (n : Int) 0 = .gt := compare_gt_iff_gt.mpr (by omega)
    simp only [UnpackedFloat.ofNat, UnpackedFloat.ofInt, UnpackedFloat.normalize, hpositive,
      Int.toNat_natCast]
  refine ⟨Nat.pos_of_ne_zero hnonzero, ?_⟩
  rw [hmodel, hrounded]
  refine unpack_pack ⟨hless, by omega, .inl hmore⟩ ?_
  change (0 : Int) - (52 - n.log2 : Nat) ≤ 971
  omega

theorem one_eq : ∃ positive, (Float.ofBits 0x3FF0000000000000).toModel.unpack =
    .finite .positive (2 ^ 52) (-52) positive := ⟨by decide, rfl⟩

theorem apply_positive (n k : Nat) : Sign.apply .positive (n * 2 ^ k : Nat) = (n : Int) * 2 ^ k := by
  rw [Sign.apply, Nat.cast_mul, Nat.cast_pow, Nat.cast_ofNat]

theorem ofScientific_eq (hn : n ≠ 0) :
    UnpackedFloat.ofScientific Format.binary64 n 0 =
      roundWithAccuracy Format.binary64 .positive (n * 2 ^ 53) (-53) .exact := by
  have hbits : Format.binary64.mantissaBits = 53 := rfl
  have hsmall : ¬ (0 : Int) < -((2 ^ 11 : Int) + n.log2) := by omega
  unfold UnpackedFloat.ofScientific
  rw [dif_neg hn, if_neg (by decide), if_neg hsmall, if_pos (Int.le_refl 0)]
  simp only [UnpackedFloat.mul, hbits, Nat.shiftLeft_eq, Int.toNat_zero, Nat.pow_zero, Nat.mul_one]
  rfl

/-- Beyond 53 bits the digits of a whole number are rounded at once. -/
theorem ofScientific_rounded (h : 2 ^ 53 ≤ n) :
    Filled (UnpackedFloat.ofScientific Format.binary64 n 0) ∧
      multiple (UnpackedFloat.ofScientific Format.binary64 n 0) = (roundedNat n : Int) * 2 ^ 1074 := by
  have hn : n ≠ 0 := Nat.ne_of_gt (Nat.lt_of_lt_of_le (by decide) h)
  have hlog : 53 ≤ n.log2 := (Nat.le_log2 hn).mpr h
  have hkept : (-53 : Int) + (n.log2 + 1 : Nat) =
      max (((n * 2 ^ 53).log2 : Int) + -53 - 52) (-1074) := by
    rw [log2_mul_two_pow hn]
    omega
  obtain ⟨hfilled, hmultiple⟩ := roundWithAccuracy_eq .positive (n * 2 ^ 53) (-53) hkept
  have hunit : 2 ^ (n.log2 + 1) = 2 ^ (n.log2 - 52) * 2 ^ 53 := by
    rw [← Nat.pow_add]
    congr 1
    omega
  have hscale : ((-53 : Int) + (n.log2 + 1 : Nat) + 1074).toNat = n.log2 - 52 + 1074 := by omega
  rw [ofScientific_eq hn]
  refine ⟨hfilled, hmultiple.trans ?_⟩
  rw [hunit, divNearest_scaled n (Nat.two_pow_pos 53), hscale, pow_add, ← Nat.mul_assoc]
  exact apply_positive (roundedNat n) 1074

theorem ofNat_stands (h : n < 2 ^ 64) : Stands (Float.ofNat n) (roundedNat n) := by
  unfold Float.ofNat
  change Stands (Float.ofScientific n false 0) _
  unfold Float.ofScientific
  split
  · -- A small number is converted, and then multiplied by the power `10 ^ 0`.
    rename_i hsmall
    rw [roundedNat_of_lt hsmall.1]
    change Stands (Float.ofModel (Float.Model.pack (UnpackedFloat.mul Format.binary64
      n.toUInt64.toFloat.toModel.unpack (Float.ofBits 0x3FF0000000000000).toModel.unpack))) n
    obtain ⟨hone, hpower⟩ := one_eq
    rw [hpower]
    rcases eq_or_ne n 0 with rfl | hn
    · exact stands_pack (x := .zero .positive) trivial trivial (Int.zero_mul _).symm
    · obtain ⟨hpositive, hconverted⟩ := unpack_toFloat hn hsmall.1
      have hlog : n.log2 < 53 := (Nat.log2_lt hn).mpr hsmall.1
      have hdeep : (n * 2 ^ (52 - n.log2) * 2 ^ 52).log2 = 104 := by
        rw [Nat.mul_assoc, ← Nat.pow_add, log2_mul_two_pow hn]
        omega
      rw [hconverted]
      have hbits : n * 2 ^ (52 - n.log2) * 2 ^ 52 < 2 ^ 105 :=
        (Nat.log2_lt (by positivity)).mp (by omega)
      have hexponent : (0 : Int) - (52 - n.log2 : Nat) + -52 ≤ 0 := by omega
      have hatMost := roundWithAccuracy_atMost .positive .exact hbits hexponent (by decide)
      obtain ⟨hfilled, hmultiple⟩ := roundWithAccuracy_eq .positive
        (n * 2 ^ (52 - n.log2) * 2 ^ 52) (0 - (52 - n.log2 : Nat) + -52) (k := 52) (by omega)
      refine stands_pack hfilled (hatMost.mono (by decide)) (hmultiple.trans ?_)
      rw [divNearest_whole _ (Nat.two_pow_pos 52), Nat.mul_assoc, ← pow_add]
      have hscale : 52 - n.log2 +
          ((0 : Int) - (52 - n.log2 : Nat) + -52 + (52 : Nat) + 1074).toNat = 1074 := by omega
      rw [hscale]
      exact apply_positive n 1074
  · rename_i hlarge
    have hlarge : 2 ^ 53 ≤ n := by omega
    have hbits : n * 2 ^ 53 < 2 ^ 117 := Nat.mul_lt_mul_of_pos_right h (Nat.two_pow_pos 53)
    have hexponent : (-53 : Int) ≤ 0 := by decide
    have hatMost := roundWithAccuracy_atMost .positive .exact hbits hexponent (by decide)
    rw [← ofScientific_eq (by omega)] at hatMost
    obtain ⟨hfilled, hmultiple⟩ := ofScientific_rounded hlarge
    exact stands_pack hfilled (hatMost.mono (by decide)) hmultiple

theorem multiple_neg (x : UnpackedFloat) : multiple x.neg = -multiple x := by
  cases x with
  | finite sign mantissa exponent positive =>
    cases sign
    · exact (Int.neg_neg _).symm
    · rfl
  | infinity sign => rfl
  | notANumber => rfl
  | zero sign => rfl

theorem Filled.neg (h : Filled x) : Filled x.neg := by
  cases x <;> exact h

theorem Stands.neg {x : Float} {value : Int} (h : Stands x value) (hhigh : Within 971 x) :
    Stands (-x) (-value) := by
  refine stands_pack (x := x.toModel.unpack.neg) h.1.neg hhigh.neg ?_
  rw [multiple_neg, h.2, Int.neg_mul]

theorem ofInt_stands {n : Int} (h : n.natAbs < 2 ^ 64) : Stands (Float.ofInt n) (rounded n) := by
  cases n with
  | ofNat n => exact ofNat_stands h
  | negSucc n => exact (ofNat_stands h).neg (AtMost.mono (ofNat_within h) (by decide))

theorem two_pow_log2_le_roundedNat (hn : n ≠ 0) : 2 ^ n.log2 ≤ roundedNat n := by
  rcases Nat.lt_or_ge n.log2 53 with hsmall | hlarge
  · rw [roundedNat_of_lt ((Nat.log2_lt hn).mp hsmall)]
    exact Nat.log2_self_le hn
  · have hpower : 2 ^ n.log2 = 2 ^ 52 * 2 ^ (n.log2 - 52) := by
      rw [← Nat.pow_add]
      congr 1
      omega
    calc
      2 ^ n.log2 = divNearest (2 ^ 52 * 2 ^ (n.log2 - 52)) (2 ^ (n.log2 - 52)) * 2 ^ (n.log2 - 52) := by
        rw [divNearest_whole _ (Nat.two_pow_pos _), hpower]
      _ ≤ roundedNat n := by
        refine Nat.mul_le_mul_right _ (divNearest_mono ?_ _)
        rw [← hpower]
        exact Nat.log2_self_le hn

theorem roundedNat_le_two_pow (n : Nat) : roundedNat n ≤ 2 ^ (n.log2 + 1) := by
  have hpower : 2 ^ (n.log2 + 1) = 2 ^ (n.log2 + 1 - (n.log2 - 52)) * 2 ^ (n.log2 - 52) := by
    rw [← Nat.pow_add]
    congr 1
    omega
  calc
    roundedNat n ≤ divNearest (2 ^ (n.log2 + 1 - (n.log2 - 52)) * 2 ^ (n.log2 - 52)) (2 ^ (n.log2 - 52)) *
        2 ^ (n.log2 - 52) := by
      refine Nat.mul_le_mul_right _ (divNearest_mono ?_ _)
      rw [← hpower]
      exact Nat.le_of_lt Nat.lt_log2_self
    _ = 2 ^ (n.log2 + 1) := by rw [divNearest_whole _ (Nat.two_pow_pos _), hpower]

theorem roundedNat_mono {n n' : Nat} (h : n ≤ n') : roundedNat n ≤ roundedNat n' := by
  rcases eq_or_ne n 0 with rfl | hn
  · rw [roundedNat_of_lt (by decide)]
    exact Nat.zero_le _
  · have hn' : n' ≠ 0 := by omega
    have hlog : n.log2 ≤ n'.log2 := (Nat.le_log2 hn').mpr ((Nat.log2_self_le hn).trans h)
    rcases Nat.eq_or_lt_of_le hlog with heq | hlt
    · rw [roundedNat, roundedNat, ← heq]
      exact Nat.mul_le_mul_right _ (divNearest_mono h _)
    · calc
        roundedNat n ≤ 2 ^ (n.log2 + 1) := roundedNat_le_two_pow n
        _ ≤ 2 ^ n'.log2 := Nat.pow_le_pow_right (by decide) hlt
        _ ≤ roundedNat n' := two_pow_log2_le_roundedNat hn'

theorem rounded_natCast (n : Nat) : rounded n = roundedNat n := rfl

theorem rounded_neg (n : Nat) : rounded (-n) = -roundedNat n := by
  cases n with
  | zero => rfl
  | succ n => rfl

theorem rounded_mono {m n : Int} (h : m ≤ n) : rounded m ≤ rounded n := by
  obtain ⟨a, rfl | rfl⟩ := Int.eq_nat_or_neg m <;> obtain ⟨b, rfl | rfl⟩ := Int.eq_nat_or_neg n
  · have hle : roundedNat a ≤ roundedNat b := roundedNat_mono (by omega)
    rw [rounded_natCast, rounded_natCast]
    omega
  · obtain ⟨rfl, rfl⟩ : a = 0 ∧ b = 0 := by omega
    rfl
  · rw [rounded_natCast, rounded_neg]
    omega
  · have hle : roundedNat b ≤ roundedNat a := roundedNat_mono (by omega)
    rw [rounded_neg, rounded_neg]
    omega

theorem rounded_of_le {n : Int} (h : n.natAbs ≤ 2 ^ 53) : rounded n = n := by
  have hwhole {a : Nat} (ha : a ≤ 2 ^ 53) : roundedNat a = a := by
    rcases Nat.eq_or_lt_of_le ha with rfl | hlt
    · decide +kernel
    · exact roundedNat_of_lt hlt
  obtain ⟨a, rfl | rfl⟩ := Int.eq_nat_or_neg n
  · rw [rounded_natCast, hwhole (by omega)]
  · rw [rounded_neg, hwhole (by omega)]

end Arazzo.Decimal
