import Arazzo.Proofs.Decimal.Rounded
import Arazzo.Proofs.Text.Digits
import Arazzo.RetryDelay

/-! How long a retry waits when whole numbers of seconds are asked for: up to 64 bits the wait is what was
asked for, capped; beyond, the wish is dropped. -/

namespace Arazzo

open Float.Model (Format UnpackedFloat)
open Float.Model.UnpackedFloat
open Decimal

namespace Decimal

theorem toNat_unpackMantissa (bits : BitVec Format.binary64.numBits) :
    (unpackMantissa bits).toNat = bits.toNat % 2 ^ 52 := by
  unfold unpackMantissa
  rw [BitVec.toNat_cast, BitVec.extractLsb_toNat]
  rfl

theorem toNat_unpackExponent (bits : BitVec Format.binary64.numBits) :
    (unpackExponent bits).toNat = bits.toNat / 2 ^ 52 % 2 ^ 11 := by
  unfold unpackExponent
  rw [BitVec.toNat_cast, BitVec.extractLsb_toNat, Nat.shiftRight_eq_div_pow]
  rfl

theorem natAbs_apply (sign : Sign) (n : Nat) : (sign.apply (n : Int)).natAbs = n := by
  cases sign
  · exact Int.natAbs_neg _
  · rfl

theorem natAbs_multiple_unpack (bits : BitVec Format.binary64.numBits)
    (h : Filled (unpack Format.binary64 bits)) :
    (multiple (unpack Format.binary64 bits)).natAbs =
      if (unpackExponent bits).toNat = 0 then (unpackMantissa bits).toNat
      else ((unpackMantissa bits).toNat + 2 ^ 52) * 2 ^ ((unpackExponent bits).toNat - 1) := by
  unfold unpack at h ⊢
  simp only at h ⊢
  rcases eq_or_ne (unpackExponent bits) (-1#11) with hones | hones
  · rw [if_pos hones] at h
    split at h <;> cases h
  · rw [if_neg hones]
    rcases eq_or_ne (unpackExponent bits) 0#11 with hzero | hzero
    · have hfield : (unpackExponent bits).toNat = 0 := congrArg BitVec.toNat hzero
      rw [if_pos hzero, if_pos hfield]
      split
      · rename_i hnothing
        exact (congrArg BitVec.toNat hnothing).symm
      · have hleast : ((unpackExponent bits).toNat : Int) - (1023 + 52) + 1 + 1074 = 0 := by omega
        change (Sign.apply _ ((unpackMantissa bits).toNat *
          2 ^ (((unpackExponent bits).toNat : Int) - (1023 + 52) + 1 + 1074).toNat : Nat)).natAbs = _
        rw [natAbs_apply, hleast, Int.toNat_zero, Nat.pow_zero, Nat.mul_one]
    · have hfield : (unpackExponent bits).toNat ≠ 0 := fun hfield =>
        hzero (BitVec.eq_of_toNat_eq hfield)
      have hexponent : (((unpackExponent bits).toNat : Int) - (1023 + 52) + 1074).toNat =
          (unpackExponent bits).toNat - 1 := by omega
      have hmantissa : (1#1 ++ unpackMantissa bits).toNat = (unpackMantissa bits).toNat + 2 ^ 52 := by
        rw [BitVec.toNat_append, ← Nat.shiftLeft_add_eq_or_of_lt (unpackMantissa bits).isLt,
          Nat.shiftLeft_eq, Nat.add_comm]
        rfl
      rw [if_neg hzero, if_neg hfield]
      change (Sign.apply _ ((1#1 ++ unpackMantissa bits).toNat *
        2 ^ (((unpackExponent bits).toNat : Int) - (1023 + 52) + 1074).toNat : Nat)).natAbs = _
      rw [natAbs_apply, hexponent, hmantissa]

theorem dyadic_multiple {x : Float} (h : Filled x.toModel.unpack) :
    -1074 ≤ (Dyadic.ofFloat x).exponent ∧
      (Dyadic.ofFloat x).mantissa * 2 ^ ((Dyadic.ofFloat x).exponent + 1074).toNat =
        (multiple x.toModel.unpack).natAbs := by
  have hmultiple := natAbs_multiple_unpack x.toModel.toBits.toBitVec h
  change (multiple x.toModel.unpack).natAbs = _ at hmultiple
  rw [hmultiple, toNat_unpackMantissa, toNat_unpackExponent]
  have hbits : x.toBits.toNat = x.toModel.toBits.toBitVec.toNat := rfl
  simp only [Dyadic.ofFloat, hbits, Nat.pow_eq]
  generalize x.toModel.toBits.toBitVec.toNat = word
  split
  · exact ⟨Int.le_refl _, Nat.mul_one _⟩
  · have hexponent : (((word / 2 ^ 52 % 2 ^ 11 : Nat) : Int) - 1075 + 1074).toNat =
        word / 2 ^ 52 % 2 ^ 11 - 1 := by omega
    have hleast : -1074 ≤ ((word / 2 ^ 52 % 2 ^ 11 : Nat) : Int) - 1075 := by omega
    exact ⟨hleast, congrArg _ (congrArg _ hexponent)⟩

end Decimal

namespace Duration

theorem stands_of_unpack {x : Float} {m k : Nat} {positive : 0 < m}
    (h : x.toModel.unpack = .finite .positive m k positive) (hsmall : m < 2 ^ 53) (hfull : 2 ^ 52 ≤ m) :
    Stands x (m * 2 ^ k : Nat) := by
  have hscale : ((k : Int) + 1074).toNat = k + 1074 := by omega
  rw [Stands, h]
  refine ⟨⟨hsmall, by omega, .inl hfull⟩, ?_⟩
  rw [multiple, hscale, pow_add, ← Nat.mul_assoc]
  exact apply_positive (m * 2 ^ k) 1074

theorem bound_stands : Stands 18446744073709551616.0 (2 ^ 64 : Nat) := by
  obtain ⟨hpositive, hunpack⟩ : ∃ hpositive, (18446744073709551616.0 : Float).toModel.unpack =
      .finite .positive (2 ^ 52) (12 : Nat) hpositive := ⟨by decide, rfl⟩
  have hbound := stands_of_unpack hunpack (by decide) (Nat.le_refl _)
  rwa [← Nat.pow_add 2 52 12] at hbound

theorem zero_stands : Stands 0.0 (0 : Nat) := ⟨trivial, (Int.zero_mul _).symm⟩

theorem scaled_units {m s : Nat} {e : Int} (hleast : -1074 ≤ e)
    (h : m * 2 ^ (e + 1074).toNat = s * 2 ^ 1074) : m * 2 ^ e.toNat = s * 2 ^ (-e).toNat := by
  rcases Int.le_total 0 e with hwhole | hfraction
  · have hup : (e + 1074).toNat = e.toNat + 1074 := by omega
    have hdown : (-e).toNat = 0 := by omega
    rw [hup, pow_add, ← Nat.mul_assoc] at h
    rw [hdown, Nat.pow_zero, Nat.mul_one]
    exact Nat.eq_of_mul_eq_mul_right (by positivity) h
  · have hup : e.toNat = 0 := by omega
    obtain ⟨k, hk⟩ : ∃ k, 1074 = (-e).toNat + k := ⟨(e + 1074).toNat, by omega⟩
    have hdown : (e + 1074).toNat = k := by omega
    rw [hdown, hk, pow_add, ← Nat.mul_assoc] at h
    rw [hup, Nat.pow_zero, Nat.mul_one]
    exact Nat.eq_of_mul_eq_mul_right (by positivity) h

theorem ofFloat?_whole {x : Float} {s : Nat} (h : Stands x s) :
    ofFloat? x = if s < 2 ^ 64 then some (ofSeconds s) else none := by
  have hnonnegative : ¬ x < 0.0 := by
    rw [h.lt_iff zero_stands]
    omega
  have hbound : x < 18446744073709551616.0 ↔ s < 2 ^ 64 := by
    rw [h.lt_iff bound_stands, Nat.cast_lt]
  obtain ⟨hleast, hmagnitude⟩ := dyadic_multiple h.1
  have hvalue : (multiple x.toModel.unpack).natAbs = s * 2 ^ 1074 := by
    rw [h.2, ← apply_positive, natAbs_apply]
  have hunits := scaled_units hleast (hmagnitude.trans hvalue)
  unfold ofFloat?
  rw [if_neg hnonnegative]
  split
  · rename_i hless
    rw [if_pos (hbound.mp hless)]
    simp only [Nat.pow_eq, hunits]
    rw [Nat.mul_right_comm, divNearest_whole _ (Nat.two_pow_pos _)]
    rfl
  · rename_i hmore
    rw [if_neg (mt hbound.mpr hmore)]

end Duration
theorem Decimal.float?_of_digits {cs : List Char} (hne : cs ≠ []) (h : ∀ c ∈ cs, c.isDigit = true) :
    float? cs = some (nearest (Nat.ofDigitChars 10 cs 0) 0) := by
  have hname (letters : List Char) (hletters : ∀ c ∈ letters, c.isDigit = false) :
      (String.ofList (cs.map Char.toLower) == String.ofList letters) = false := by
    refine beq_eq_false_iff_ne.mpr fun hsame => ?_
    obtain ⟨c, rest, rfl⟩ := List.exists_cons_of_ne_nil hne
    have hdigit : c.isDigit = true := h c (List.mem_cons_self ..)
    have hc : c ∈ letters := by
      rw [← String.ofList_injective hsame, List.map_cons, Text.toLower_of_isDigit hdigit]
      exact List.mem_cons_self ..
    exact Bool.false_ne_true ((hletters c hc).symm.trans hdigit)
  have hinf : (String.ofList (cs.map Char.toLower) == "inf") = false :=
    hname ['i', 'n', 'f'] (by simp)
  have hinfinity : (String.ofList (cs.map Char.toLower) == "infinity") = false :=
    hname ['i', 'n', 'f', 'i', 'n', 'i', 't', 'y'] (by simp)
  have hnan : (String.ofList (cs.map Char.toLower) == "nan") = false :=
    hname ['n', 'a', 'n'] (by simp)
  have hwhole : cs.takeWhile Char.isDigit = cs := List.takeWhile_eq_self_iff.mpr h
  have hrest : cs.dropWhile Char.isDigit = [] := List.dropWhile_eq_nil_iff.mpr h
  have hfilled : cs.isEmpty = false := List.isEmpty_eq_false_iff.mpr hne
  have hvalue : cs.foldl (fun n c => n * 10 + (c.toNat - 48)) 0 = Nat.ofDigitChars 10 cs 0 := by
    unfold Nat.ofDigitChars
    simp only [Nat.mul_comm]
    rfl
  unfold float?
  split
  rename_i negative body hsplit
  obtain ⟨rfl, rfl⟩ : false = negative ∧ cs = body := by
    split at hsplit
    · exact absurd (h '-' (List.mem_cons_self ..)) (by decide)
    · exact absurd (h '+' (List.mem_cons_self ..)) (by decide)
    · exact Prod.mk.inj hsplit
  simp [hinf, hinfinity, hnan, hwhole, hrest, hfilled, hvalue]

namespace Decimal

theorem unpack_pack_great {sign : Sign} {m : Nat} {e : Int} (positive : 0 < m) (h : 971 < e) :
    unpack Format.binary64 (pack Format.binary64 (.finite sign m e positive)) = .infinity sign := by
  have hgreat : 2 ^ 11 ≤ (e + 1023 + 52).toNat + 1 := by omega
  have hpack : pack Format.binary64 (.finite sign m e positive) =
      pack Format.binary64 (.infinity sign) := if_pos hgreat
  rw [hpack]
  cases sign <;> rfl

/-- Digits beyond 64 bits are read as a number that is no less, or as infinity. -/
theorem nearest_great {n : Nat} (h : 2 ^ 64 ≤ n) :
    (nearest n 0).toModel.unpack = .infinity .positive ∨
      ∃ s : Nat, 2 ^ 64 ≤ s ∧ Stands (nearest n 0) s := by
  have hlarge : ¬ (n < 2 ^ 53 ∧ 0 ≤ 22) := by omega
  have hone : 2 ^ 64 ≤ roundedNat n := by
    have hbound : roundedNat (2 ^ 64) = 2 ^ 64 := by decide +kernel
    rw [← hbound]
    exact roundedNat_mono h
  unfold nearest
  rw [if_neg (by omega)]
  dsimp only
  split
  · exact .inl rfl
  · rw [if_neg (by omega), if_pos (Int.le_refl 0)]
    have hread : Float.ofScientific n false 0 = Float.ofModel
        (Float.Model.pack (UnpackedFloat.ofScientific Format.binary64 n 0)) := dif_neg hlarge
    obtain ⟨hfilled, hmultiple⟩ := ofScientific_rounded (n := n) (by omega)
    rw [Int.toNat_zero, hread]
    generalize UnpackedFloat.ofScientific Format.binary64 n 0 = x at hfilled hmultiple
    cases x with
    | infinity sign => cases hfilled
    | notANumber => cases hfilled
    | zero sign => exact .inr ⟨roundedNat n, hone, stands_pack hfilled trivial hmultiple⟩
    | finite sign m e positive =>
      rcases Int.lt_or_le 971 e with hgreat | hless
      · cases sign with
        | positive => exact .inl (unpack_pack_great positive hgreat)
        | negative =>
          have hbelow : multiple (.finite .negative m e positive) < 0 := by
            refine neg_lt_zero.mpr ?_
            positivity
          rw [hmultiple] at hbelow
          exact absurd hbelow (not_lt.mpr (by positivity))
      · exact .inr ⟨roundedNat n, hone, stands_pack hfilled hless hmultiple⟩

end Decimal

theorem Duration.ofFloat?_great {n : Nat} (h : 2 ^ 64 ≤ n) : ofFloat? (nearest n 0) = none := by
  rcases nearest_great h with hinfinite | ⟨s, hs, hstands⟩
  · have hnonnegative : ¬ nearest n 0 < 0.0 := by
      rw [lt_iff_compare, hinfinite]
      decide
    have hgreat : ¬ nearest n 0 < 18446744073709551616.0 := by
      rw [lt_iff_compare, hinfinite]
      decide
    unfold ofFloat?
    rw [if_neg hnonnegative, if_neg hgreat]
  · rw [ofFloat?_whole hstands, if_neg (by omega)]

namespace RetryDelay

open Duration (stands_of_unpack)

variable {own : Option Float} {cap now : Duration}

theorem ofHeaders?_digits {headers : Table String} {value : String} {n : Nat}
    (hheader : header? "retry-after" headers = some value)
    (h : Text.Writes (Text.trimChars value.toList) n) :
    ofHeaders? now headers = if n < 2 ^ 64 then some (Duration.ofSeconds n) else none := by
  obtain ⟨hfilled, hdigits, rfl⟩ := h
  unfold ofHeaders?
  rw [hheader]
  simp only [Option.bind_some, Nat.pow_eq, Text.readSignedNat?_of_digits hfilled hdigits,
    float?_of_digits hfilled hdigits]
  generalize Nat.ofDigitChars 10 (Text.trimChars value.toList) 0 = n
  rcases Nat.lt_or_ge n (2 ^ 64) with hsmall | hgreat
  · rw [if_pos (Nat.le_sub_one_of_lt hsmall), if_pos hsmall]
  · rw [if_neg (by omega), if_neg (by omega)]
    exact Duration.ofFloat?_great hgreat

/-- Whole seconds below `2 ^ 64` are waited for up to the cap. A header that asks for more counts for nothing,
and an action that asks for more does not wait. -/
theorem delay_whole (own : Option Float) (headers : Option (Table String)) (cap now : Duration) :
    (∀ value n, headers.bind (header? "retry-after") = some value →
        Text.Writes (Text.trimChars value.toList) n →
      delay own headers cap now =
        if n < 2 ^ 64 then Duration.min (Duration.ofSeconds n) cap else delay own none cap now) ∧
    (∀ (x : Float) (s : Nat), headers.bind (header? "retry-after") = none → own = some x → Stands x s →
      delay own headers cap now =
        if s < 2 ^ 64 then Duration.min (Duration.ofSeconds s) cap else ⟨0⟩) := by
  constructor
  · intro value n hheader hwrites
    obtain ⟨table, rfl, hheader⟩ := Option.bind_eq_some_iff.mp hheader
    unfold delay
    rw [Option.bind_some, ofHeaders?_digits hheader hwrites]
    rcases Nat.lt_or_ge n (2 ^ 64) with hsmall | hgreat
    · rw [if_pos hsmall, if_pos hsmall]
      rfl
    · rw [if_neg (by omega), if_neg (by omega)]
      rfl
  · rintro x s hheader rfl hstands
    have hnothing : headers.bind (ofHeaders? now) = none := by
      rcases headers with _ | table
      · rfl
      · exact congrArg (Option.bind · _) hheader
    unfold delay
    rw [hnothing, Option.bind_some, Duration.ofFloat?_whole hstands]
    rcases Nat.lt_or_ge s (2 ^ 64) with hsmall | hgreat
    · rw [if_pos hsmall, if_pos hsmall]
      rfl
    · rw [if_neg (by omega), if_neg (by omega)]
      exact if_pos (Nat.zero_le _)

theorem sameIgnoringCase_eq (a b : String) : Text.sameIgnoringCase a b =
    (a.toList.map Text.asciiLower == b.toList.map Text.asciiLower) := by
  rw [Text.sameIgnoringCase, Text.toAsciiLower, Text.toAsciiLower, Bool.eq_iff_iff, beq_iff_eq, beq_iff_eq,
    ← String.toList_inj, String.toList_map, String.toList_map]

theorem header?_first {name key value : String} {headers : Table String}
    (h : key.toList.map Text.asciiLower = name.toList.map Text.asciiLower) :
    header? name ((key, value) :: headers) = some value := by
  have hsame : Text.sameIgnoringCase key name = true := by rw [sameIgnoringCase_eq, h, beq_self_eq_true]
  unfold header?
  rw [List.find?_cons_of_pos (by exact hsame)]
  rfl

theorem delay_whole_hour :
    delay (some 5.0) (some [("Retry-AFTER", " 003600 ")]) (Duration.ofMillis 60000) ⟨7⟩ =
      Duration.min (Duration.ofSeconds 3600) (Duration.ofMillis 60000) ∧
    delay (some 9007199254740992.0) none (Duration.ofSeconds 3600) ⟨7⟩ =
      Duration.min (Duration.ofSeconds (2 ^ 53)) (Duration.ofSeconds 3600) := by
  have hheader : (some [("Retry-AFTER", " 003600 ")]).bind (header? "retry-after") = some " 003600 " := by
    rw [Option.bind_some]
    exact header?_first (by decide +kernel)
  have htrim : Text.trimChars " 003600 ".toList = ['0', '0', '3', '6', '0', '0'] := by decide +kernel
  have hhour : Text.Writes (Text.trimChars " 003600 ".toList) 3600 := by
    rw [htrim]
    exact ⟨by simp, by simp, rfl⟩
  obtain ⟨hpositive, hunpack⟩ : ∃ hpositive, (9007199254740992.0 : Float).toModel.unpack =
      .finite .positive (2 ^ 52) (1 : Nat) hpositive := ⟨by decide, rfl⟩
  have hstands := stands_of_unpack hunpack (by decide) (Nat.le_refl _)
  rw [← Nat.pow_add 2 52 1] at hstands
  have hwanted := (delay_whole (some 5.0) (some [("Retry-AFTER", " 003600 ")]) (Duration.ofMillis 60000)
    ⟨7⟩).1 _ _ hheader hhour
  have hown := (delay_whole (some 9007199254740992.0) none (Duration.ofSeconds 3600) ⟨7⟩).2 _ _ rfl rfl
    hstands
  rw [if_pos (by decide)] at hwanted hown
  exact ⟨hwanted, hown⟩

/-- Beyond 64 bits a long wait becomes another wait, or none. -/
theorem delay_beyond : delay (some 5.0) (some [("Retry-After", "18446744073709551616")])
      (Duration.ofMillis 60000) ⟨0⟩ = Duration.ofSeconds 5 ∧
    delay (some 1e30) none (Duration.ofMillis 60000) ⟨0⟩ = ⟨0⟩ := by
  have hheader : header? "retry-after" [("Retry-After", "18446744073709551616")] =
      some "18446744073709551616" := header?_first (by decide +kernel)
  have hdropped : ofHeaders? ⟨0⟩ [("Retry-After", "18446744073709551616")] = none := by
    unfold ofHeaders?
    rw [hheader]
    decide +kernel
  constructor
  · unfold delay
    rw [Option.bind_some, hdropped]
    decide +kernel
  · decide +kernel

end RetryDelay
end Arazzo
