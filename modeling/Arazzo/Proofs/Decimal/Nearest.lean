import Arazzo.Duration
import Arazzo.Proofs.Decimal.Whole

/-! Every finite double is a multiple of the least positive one. Doubles stand in the order of these
multiples, and rounding goes to the nearest of those that a double can be. -/

namespace Arazzo

namespace Duration

variable {n d : Nat}

theorem div_le_divNearest (n d : Nat) : n / d ≤ divNearest n d := by
  unfold divNearest
  simp only
  split <;> omega

theorem divNearest_le (n d : Nat) : divNearest n d ≤ n / d + 1 := by
  unfold divNearest
  simp only
  split <;> omega

theorem divNearest_scaled (n : Nat) {d c : Nat} (hc : 0 < c) :
    divNearest (n * c) (d * c) = divNearest n d := by
  have hdiv : n * c / (d * c) = n / d := Nat.mul_div_mul_right n d hc
  have hmod : n * c % (d * c) = n % d * c := Nat.mul_mod_mul_right c n d
  have hless : 2 * (n % d * c) > d * c ↔ 2 * (n % d) > d := by
    rw [← Nat.mul_assoc]
    exact Nat.mul_lt_mul_right hc
  have hhalf : 2 * (n % d * c) = d * c ↔ 2 * (n % d) = d := by
    rw [← Nat.mul_assoc]
    exact Nat.mul_left_inj (Nat.ne_of_gt hc)
  unfold divNearest
  simp only [hdiv, hmod, hless, hhalf]

theorem divNearest_whole (n : Nat) (hd : 0 < d) : divNearest (n * d) d = n := by
  unfold divNearest
  simp only [Nat.mul_mod_left, Nat.mul_div_cancel n hd]
  exact if_neg (by omega)

theorem divNearest_mono {n n' : Nat} (h : n ≤ n') (d : Nat) : divNearest n d ≤ divNearest n' d := by
  rcases Nat.eq_or_lt_of_le (Nat.div_le_div_right (c := d) h) with heq | hlt
  · -- Both lie between the same neighbours, and the greater one is farther from the lower of them.
    have hmod : n % d ≤ n' % d := by
      have hn := Nat.div_add_mod n d
      have hn' := Nat.div_add_mod n' d
      rw [← heq] at hn'
      omega
    unfold divNearest
    simp only [← heq]
    split <;> split <;> omega
  · exact (divNearest_le n d).trans (Nat.succ_le_of_lt hlt |>.trans (div_le_divNearest n' d))

end Duration

namespace Decimal

open Float.Model (Format UnpackedFloat totalExponent)
open Float.Model.UnpackedFloat
open Duration

theorem shifted (m k : Nat) :
    (⟨m, false, false⟩ : ExtendedMantissa) >>> k =
      ⟨m / 2 ^ k, decide (2 ^ k ≤ 2 * (m % 2 ^ k)),
        decide (2 * (m % 2 ^ k) ≠ 0 ∧ 2 * (m % 2 ^ k) ≠ 2 ^ k)⟩ := by
  induction k with
  | zero =>
    change (⟨m, false, false⟩ : ExtendedMantissa) = _
    simp [Nat.mod_one]
  | succ k ih =>
    change ((⟨m, false, false⟩ : ExtendedMantissa) >>> k).shiftRightOne = _
    have hrest : m % 2 ^ (k + 1) = m % 2 ^ k + 2 ^ k * (m / 2 ^ k % 2) := by
      rw [Nat.pow_succ, Nat.mod_mul]
    have hless : m % 2 ^ k < 2 ^ k := Nat.mod_lt _ (Nat.two_pow_pos k)
    have hquotient : m / 2 ^ k / 2 = m / 2 ^ (k + 1) := by rw [Nat.div_div_eq_div_mul, ← Nat.pow_succ]
    rw [ih, ExtendedMantissa.shiftRightOne, hquotient, hrest, Nat.pow_succ]
    rcases Nat.mod_two_eq_zero_or_one (m / 2 ^ k) with hbit | hbit
    all_goals
      rw [hbit]
      congr 1
      · simp
        try omega
      · rw [← Bool.decide_or, decide_eq_decide]
        omega

theorem roundedMantissa_shifted (m k : Nat) :
    ((⟨m, false, false⟩ : ExtendedMantissa) >>> k).roundedMantissa = divNearest m (2 ^ k) := by
  rw [shifted]
  unfold divNearest ExtendedMantissa.roundedMantissa
  simp only
  have hunit : 0 < 2 ^ k := Nat.two_pow_pos k
  generalize 2 * (m % 2 ^ k) = twice
  generalize 2 ^ k = unit at hunit ⊢
  generalize m / unit = below
  rcases Nat.lt_trichotomy twice unit with hless | hhalf | hmore
  · rw [if_neg (by omega), decide_eq_false (by omega : ¬ unit ≤ twice)]
    cases decide (twice ≠ 0 ∧ twice ≠ unit) <;> rfl
  · subst hhalf
    rw [decide_eq_true (Nat.le_refl twice), decide_eq_false (by omega : ¬ (twice ≠ 0 ∧ twice ≠ twice))]
    change below + below % 2 = _
    split <;> omega
  · rw [if_pos (.inl hmore), decide_eq_true (Nat.le_of_lt hmore),
      decide_eq_true (by omega : twice ≠ 0 ∧ twice ≠ unit)]
    rfl

/-- A finite number whose mantissa is filled up, unless its exponent is the least one. -/
def Filled : UnpackedFloat → Prop
  | .finite _ mantissa exponent _ =>
    mantissa < 2 ^ 53 ∧ -1074 ≤ exponent ∧ (2 ^ 52 ≤ mantissa ∨ exponent = -1074)
  | .zero _ => True
  | _ => False

/-- Every finite double is a multiple of the least positive one. -/
def multiple : UnpackedFloat → Int
  | .finite sign mantissa exponent _ => sign.apply (mantissa * 2 ^ (exponent + 1074).toNat : Nat)
  | _ => 0

variable {x y : UnpackedFloat} {m m' : Nat} {e e' : Int}

theorem compare_strictMono {α β : Type} [LinearOrder α] [LinearOrder β] {f : α → β} (h : StrictMono f)
    (a b : α) : compare (f a) (f b) = compare a b := by
  rw [← cmp_eq_compare, ← cmp_eq_compare, h.cmp_map_eq]

theorem compare_neg (a b : Int) : compare (-a) (-b) = compare b a := by
  have hneg : StrictAnti fun n : Int => -n := fun _ _ h => Int.neg_lt_neg h
  rw [← cmp_eq_compare, ← cmp_eq_compare]
  exact hneg.cmp_map_eq a b

theorem compare_scaled (hm : m < 2 ^ 53) (he : -1074 ≤ e) (hfull : 2 ^ 52 ≤ m ∨ e = -1074)
    (hm' : m' < 2 ^ 53) (he' : -1074 ≤ e') (hfull' : 2 ^ 52 ≤ m' ∨ e' = -1074) :
    (compare e e').then (compare m m') =
      compare (m * 2 ^ (e + 1074).toNat) (m' * 2 ^ (e' + 1074).toNat) := by
  have below {m m' : Nat} {e e' : Int} (hm : m < 2 ^ 53) (he : -1074 ≤ e)
      (hfull' : 2 ^ 52 ≤ m' ∨ e' = -1074) (h : e < e') :
      m * 2 ^ (e + 1074).toNat < m' * 2 ^ (e' + 1074).toNat := by
    have hm' : 2 ^ 52 ≤ m' := hfull'.resolve_right (by omega)
    obtain ⟨k, hk⟩ : ∃ k, (e' + 1074).toNat = k + 1 + (e + 1074).toNat :=
      ⟨(e' + 1074).toNat - 1 - (e + 1074).toNat, by omega⟩
    calc
      m * 2 ^ (e + 1074).toNat < 2 ^ 53 * 2 ^ (e + 1074).toNat :=
        Nat.mul_lt_mul_of_pos_right hm (Nat.two_pow_pos _)
      _ ≤ 2 ^ 52 * 2 ^ (k + 1) * 2 ^ (e + 1074).toNat := by
        refine Nat.mul_le_mul_right _ ?_
        rw [← Nat.pow_add]
        exact Nat.pow_le_pow_right (by decide) (by omega)
      _ ≤ m' * 2 ^ (k + 1) * 2 ^ (e + 1074).toNat :=
        Nat.mul_le_mul_right _ (Nat.mul_le_mul_right _ hm')
      _ = m' * 2 ^ (e' + 1074).toNat := by rw [Nat.mul_assoc, ← Nat.pow_add, hk]
  rcases lt_trichotomy e e' with h | h | h
  · rw [compare_lt_iff_lt.mpr h, compare_lt_iff_lt.mpr (below hm he hfull' h)]
    rfl
  · subst h
    rw [compare_eq_iff_eq.mpr rfl]
    exact (compare_strictMono (strictMono_mul_right_of_pos (Nat.two_pow_pos _)) m m').symm
  · rw [compare_gt_iff_gt.mpr h, compare_gt_iff_gt.mpr (below hm' he' hfull h)]
    rfl

/-- Finite doubles stand in the order of the multiples that they are. -/
theorem compare_filled (hx : Filled x) (hy : Filled y) :
    x.compare y = some (compare (multiple x) (multiple y)) := by
  cases x with
  | infinity sign => cases hx
  | notANumber => cases hx
  | zero sign =>
    cases y with
    | infinity sign => cases hy
    | notANumber => cases hy
    | zero sign' => rfl
    | finite sign' m' e' hm' =>
      have hpositive : 0 < ((m' * 2 ^ (e' + 1074).toNat : Nat) : Int) := by positivity
      cases sign'
      · refine congrArg some (compare_gt_iff_gt.mpr ?_).symm
        exact neg_lt_zero.mpr hpositive
      · exact congrArg some (compare_lt_iff_lt.mpr hpositive).symm
  | finite sign m e hm =>
    have hpositive : 0 < ((m * 2 ^ (e + 1074).toNat : Nat) : Int) := by positivity
    cases y with
    | infinity sign => cases hy
    | notANumber => cases hy
    | zero sign' =>
      cases sign
      · exact congrArg some (compare_lt_iff_lt.mpr (neg_lt_zero.mpr hpositive)).symm
      · exact congrArg some (compare_gt_iff_gt.mpr hpositive).symm
    | finite sign' m' e' hm' =>
      have hpositive' : 0 < ((m' * 2 ^ (e' + 1074).toNat : Nat) : Int) := by positivity
      obtain ⟨hsmall, hleast, hfull⟩ := hx
      obtain ⟨hsmall', hleast', hfull'⟩ := hy
      have hscaled := compare_scaled hsmall hleast hfull hsmall' hleast' hfull'
      cases sign <;> cases sign'
      · refine congrArg some ?_
        change ((compare e e').then (compare m m')).swap = compare (-_) (-_)
        rw [hscaled, Nat.compare_swap, compare_neg, compare_strictMono Nat.strictMono_cast]
      · exact congrArg some (compare_lt_iff_lt.mpr ((neg_lt_zero.mpr hpositive).trans hpositive')).symm
      · exact congrArg some (compare_gt_iff_gt.mpr ((neg_lt_zero.mpr hpositive').trans hpositive)).symm
      · exact congrArg some (hscaled.trans (compare_strictMono Nat.strictMono_cast _ _).symm)

variable {sign : Sign} {exponent : Int} {mantissa : Nat}

theorem targetExponent_eq (mantissa : Nat) (exponent : Int) :
    Format.binary64.targetExponent (totalExponent mantissa exponent) =
      max (mantissa.log2 + exponent - 52) (-1074) := by
  simp only [Format.targetExponent, totalExponent, Format.mantissaBits, Format.minExponent]
  omega

theorem shiftToTargetExponent_eq {k : Nat}
    (hk : exponent + k = max exponent (max (mantissa.log2 + exponent - 52) (-1074))) :
    shiftToTargetExponent Format.binary64 mantissa exponent .exact =
      ((⟨mantissa, false, false⟩ : ExtendedMantissa) >>> k, exponent + k) := by
  have hshift : (max (mantissa.log2 + exponent - 52) (-1074) - exponent).toNat = k := by omega
  simp only [shiftToTargetExponent, shiftToExponent, targetExponent_eq, hshift]
  rfl

theorem shiftToTargetExponent_self (hmantissa : mantissa < 2 ^ 53) (hexponent : -1074 ≤ exponent) :
    shiftToTargetExponent Format.binary64 mantissa exponent .exact =
      (⟨mantissa, false, false⟩, exponent) := by
  have hlog : mantissa.log2 ≤ 52 := by
    rcases Nat.eq_zero_or_pos mantissa with rfl | hpos
    · exact Nat.zero_le 52
    · exact Nat.le_of_lt_succ ((Nat.log2_lt (Nat.ne_of_gt hpos)).mpr hmantissa)
  have hkept : exponent + (0 : Nat) =
      max exponent (max (mantissa.log2 + exponent - 52) (-1074)) := by omega
  rw [shiftToTargetExponent_eq hkept]
  exact Prod.ext rfl (Int.add_zero exponent)

theorem shiftToTargetExponent_carried (hexponent : -1074 ≤ exponent) :
    shiftToTargetExponent Format.binary64 (2 ^ 53) exponent .exact =
      (⟨2 ^ 52, false, false⟩, exponent + 1) := by
  have hlog : (2 ^ 53 : Nat).log2 = 53 := Nat.log2_two_pow
  have hcarried : exponent + (1 : Nat) =
      max exponent (max ((2 ^ 53 : Nat).log2 + exponent - 52) (-1074)) := by omega
  rw [shiftToTargetExponent_eq hcarried]
  rfl

theorem roundWithAccuracy_shifts {first last : ExtendedMantissa} {target least : Int} {rounded : Nat}
    (hfirst : shiftToTargetExponent Format.binary64 mantissa exponent .exact = (first, target))
    (hrounded : first.roundedMantissa = rounded)
    (hlast : shiftToTargetExponent Format.binary64 rounded target .exact = (last, least)) :
    roundWithAccuracy Format.binary64 sign mantissa exponent .exact =
      if h : last.mantissa = 0 then .zero sign
      else .finite sign last.mantissa least (Nat.pos_of_ne_zero h) := by
  unfold roundWithAccuracy
  simp only [hfirst, hrounded, hlast]

/-- Rounding leaves as many bits as a double has, and keeps to the nearest number that it can. -/
theorem roundWithAccuracy_eq (sign : Sign) (mantissa : Nat) (exponent : Int) {k : Nat}
    (hk : exponent + k = max (mantissa.log2 + exponent - 52) (-1074)) :
    Filled (roundWithAccuracy Format.binary64 sign mantissa exponent .exact) ∧
      multiple (roundWithAccuracy Format.binary64 sign mantissa exponent .exact) =
        sign.apply (divNearest mantissa (2 ^ k) * 2 ^ (exponent + k + 1074).toNat : Nat) := by
  have hleast : -1074 ≤ exponent + k := by omega
  have hquotient : mantissa / 2 ^ k < 2 ^ 53 := by
    refine (Nat.div_lt_iff_lt_mul (Nat.two_pow_pos k)).mpr ?_
    calc
      mantissa < 2 ^ (mantissa.log2 + 1) := Nat.lt_log2_self
      _ ≤ 2 ^ (53 + k) := Nat.pow_le_pow_right (by decide) (by omega)
      _ = 2 ^ 53 * 2 ^ k := Nat.pow_add ..
  have hfull : 2 ^ 52 ≤ mantissa / 2 ^ k ∨ exponent + k = -1074 := by
    rcases eq_or_ne mantissa 0 with rfl | hnonzero
    · right
      simp only [Nat.log2_zero] at hk
      omega
    · rcases eq_or_ne (exponent + (k : Int)) (-1074) with hend | hend
      · exact .inr hend
      · left
        refine (Nat.le_div_iff_mul_le (Nat.two_pow_pos k)).mpr ?_
        rw [← Nat.pow_add]
        exact (Nat.pow_le_pow_right (by decide) (by omega)).trans (Nat.log2_self_le hnonzero)
  have hbelow := div_le_divNearest mantissa (2 ^ k)
  have habove := divNearest_le mantissa (2 ^ k)
  have hfirst : shiftToTargetExponent Format.binary64 mantissa exponent .exact =
      ((⟨mantissa, false, false⟩ : ExtendedMantissa) >>> k, exponent + k) :=
    shiftToTargetExponent_eq (by omega)
  have hrounded := roundedMantissa_shifted mantissa k
  generalize divNearest mantissa (2 ^ k) = rounded at hbelow habove hrounded ⊢
  rcases Nat.lt_or_ge rounded (2 ^ 53) with hsmall | hcarried
  -- Rounding up may carry into one more bit, and then it is a power of two.
  · rw [roundWithAccuracy_shifts hfirst hrounded (shiftToTargetExponent_self hsmall hleast)]
    split
    · rename_i hzero
      obtain rfl : rounded = 0 := hzero
      rw [Nat.zero_mul]
      exact ⟨trivial, by cases sign <;> rfl⟩
    · exact ⟨⟨hsmall, hleast, hfull.imp_left hbelow.trans'⟩, rfl⟩
  · obtain rfl : rounded = 2 ^ 53 := by omega
    rw [roundWithAccuracy_shifts hfirst hrounded (shiftToTargetExponent_carried hleast)]
    have hexponent : (exponent + k + 1 + 1074).toNat = 1 + (exponent + k + 1074).toNat := by omega
    refine ⟨⟨by decide, by omega, .inl (by decide)⟩, ?_⟩
    change sign.apply (2 ^ 52 * 2 ^ (exponent + k + 1 + 1074).toNat : Nat) = _
    rw [hexponent, Nat.pow_add, ← Nat.mul_assoc, ← Nat.pow_add]

theorem ofBitVec_unpackSign_packComponents (sign : Sign) (field : BitVec 11) (fraction : BitVec 52) :
    Sign.ofBitVec (unpackSign (packComponents Format.binary64 sign field fraction)) = sign := by
  have hsign : unpackSign (packComponents Format.binary64 sign field fraction) = sign.toBitVec := by
    refine BitVec.eq_of_getLsbD_eq fun i hi => ?_
    obtain rfl : i = 0 := by omega
    simp only [unpackSign, packComponents, BitVec.extractLsb, BitVec.getLsbD_cast,
      BitVec.getLsbD_extractLsb', BitVec.getLsbD_append]
    cases sign <;> rfl
  rw [hsign]
  cases sign <;> rfl

theorem finite_congr {positive : 0 < m} {positive' : 0 < m'} (hm : m = m') (he : e = e') :
    UnpackedFloat.finite sign m e positive = .finite sign m' e' positive' := by
  subst hm he
  rfl

theorem unpack_pack (h : Filled x) (hhigh : AtMost 971 x) :
    unpack Format.binary64 (pack Format.binary64 x) = x := by
  cases x with
  | infinity sign => cases h
  | notANumber => cases h
  | zero sign => cases sign <;> rfl
  | finite sign mantissa exponent positive =>
    obtain ⟨hsmall, hleast, hfull⟩ := h
    have hhigh : exponent ≤ 971 := hhigh
    generalize hfield : (exponent + 1023 + 52).toNat = field
    have hpack : pack Format.binary64 (.finite sign mantissa exponent positive) =
        if mantissa.log2 + 1 = Format.binary64.mantissaBits then
          packComponents Format.binary64 sign (BitVec.ofNat 11 field) (BitVec.ofNat 52 mantissa)
        else packComponents Format.binary64 sign 0#11 (BitVec.ofNat 52 mantissa) := by
      have hfits : ¬ 2 ^ 11 ≤ field + 1 := by omega
      subst hfield
      exact if_neg hfits
    have hfraction : (BitVec.ofNat 52 mantissa).toNat = mantissa % 2 ^ 52 := BitVec.toNat_ofNat ..
    rw [hpack]
    rcases Nat.lt_or_ge mantissa (2 ^ 52) with hshort | hlong
    -- A short mantissa is stored whole, with zero for its exponent.
    · have hlog : mantissa.log2 < 52 := (Nat.log2_lt (Nat.ne_of_gt positive)).mpr hshort
      have hkept : (BitVec.ofNat 52 mantissa).toNat = mantissa :=
        hfraction.trans (Nat.mod_eq_of_lt hshort)
      have hnonzero : BitVec.ofNat 52 mantissa ≠ 0#52 := fun h =>
        Nat.ne_of_gt positive (hkept.symm.trans (congrArg BitVec.toNat h))
      rw [if_neg (by change ¬ mantissa.log2 + 1 = 53; omega)]
      unfold unpack
      simp only [unpackMantissa_packComponents, unpackExponent_packComponents,
        ofBitVec_unpackSign_packComponents]
      rw [if_neg (by decide), if_pos trivial, dif_neg hnonzero]
      refine finite_congr hkept ?_
      change (0 : Int) - (1023 + 52) + 1 = exponent
      omega
    -- The first bit of a full one is implied by an exponent other than zero.
    · have hlog : 52 ≤ mantissa.log2 := (Nat.le_log2 (Nat.ne_of_gt positive)).mpr hlong
      have hlog' : mantissa.log2 < 53 := (Nat.log2_lt (Nat.ne_of_gt positive)).mpr hsmall
      have hexponent : (BitVec.ofNat 11 field).toNat = field :=
        (BitVec.toNat_ofNat ..).trans (Nat.mod_eq_of_lt (by omega))
      have hones : BitVec.ofNat 11 field ≠ -1#11 := fun h => by
        have hfield' : field = 2047 := hexponent.symm.trans (congrArg BitVec.toNat h)
        omega
      have hzero : BitVec.ofNat 11 field ≠ 0#11 := fun h => by
        have hfield' : field = 0 := hexponent.symm.trans (congrArg BitVec.toNat h)
        omega
      rw [if_pos (by change mantissa.log2 + 1 = 53; omega)]
      unfold unpack
      simp only [unpackMantissa_packComponents, unpackExponent_packComponents,
        ofBitVec_unpackSign_packComponents]
      rw [if_neg hones, if_neg hzero]
      refine finite_congr ?_ ?_
      · rw [BitVec.toNat_append, ← Nat.shiftLeft_add_eq_or_of_lt (BitVec.ofNat 52 mantissa).isLt,
          hfraction, Nat.shiftLeft_eq]
        change 1 * 2 ^ 52 + mantissa % 2 ^ 52 = mantissa
        omega
      · rw [hexponent]
        change (field : Int) - (1023 + 52) = exponent
        omega

end Decimal
end Arazzo
