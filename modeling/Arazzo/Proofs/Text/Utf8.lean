import Arazzo.Text.Utf8
import Mathlib.Tactic.SplitIfs

/-! A text read back from its bytes in UTF-8. -/

namespace Arazzo.Text

variable {p : PartialChar} {n v value missing lower upper : Nat}

theorem toNat_ofNat_byte (h : n < 256) : (UInt8.ofNat n).toNat = n := UInt8.toNat_ofNat_of_lt' h

theorem decodeFrom_ascii (h : n < 0x80) (bs : List UInt8) :
    decodeFrom none (UInt8.ofNat n :: bs) = some (Char.ofNat n) :: decodeFrom none bs := by
  rw [decodeFrom, decodeByte, toNat_ofNat_byte (by omega)]
  simp only [if_pos h]
  rfl

theorem decodeFrom_lead (h : 0x80 ≤ n) (hbyte : n < 256)
    (hlead : PartialChar.ofLead? n = some p) (bs : List UInt8) :
    decodeFrom none (UInt8.ofNat n :: bs) = decodeFrom (some p) bs := by
  rw [decodeFrom, decodeByte, toNat_ofNat_byte hbyte]
  simp only [if_neg (Nat.not_lt.2 h), hlead]
  rfl

theorem decodeFrom_between (hbounds : lower ≤ n ∧ n ≤ upper) (hbyte : n < 256)
    (bs : List UInt8) :
    decodeFrom (some ⟨value, missing + 2, lower, upper⟩) (UInt8.ofNat n :: bs) =
      decodeFrom (some ⟨value * 64 + n % 64, missing + 1, 0x80, 0xbf⟩) bs := by
  have hopen : ¬ missing + 2 ≤ 1 := by omega
  rw [decodeFrom, decodeByte, toNat_ofNat_byte hbyte]
  simp only [if_pos hbounds, if_neg hopen]
  rfl

theorem decodeFrom_last (hbounds : lower ≤ n ∧ n ≤ upper) (hbyte : n < 256) (bs : List UInt8) :
    decodeFrom (some ⟨value, 1, lower, upper⟩) (UInt8.ofNat n :: bs) =
      some (Char.ofNat (value * 64 + n % 64)) :: decodeFrom none bs := by
  rw [decodeFrom, decodeByte, toNat_ofNat_byte hbyte]
  simp only [if_pos hbounds, Nat.le_refl, if_true]
  rfl

theorem ofLead?_two (h : 0x80 ≤ v) (h' : v ≤ 0x7ff) :
    PartialChar.ofLead? (v / 64 % 32 + 192) = some ⟨v / 64, 1, 0x80, 0xbf⟩ := by
  have hlead : v / 64 % 32 = v / 64 := Nat.mod_eq_of_lt (by omega)
  rw [hlead, PartialChar.ofLead?, if_pos (by omega), Nat.add_sub_cancel]

theorem ofLead?_three (h : 0x800 ≤ v) (h' : v ≤ 0xffff) (hvalid : v < 0xd800 ∨ 0xdfff < v) :
    ∃ lower upper, PartialChar.ofLead? (v / 4096 % 16 + 224) = some ⟨v / 4096, 2, lower, upper⟩ ∧
      lower ≤ v / 64 % 64 + 128 ∧ v / 64 % 64 + 128 ≤ upper := by
  have hlead : v / 4096 % 16 = v / 4096 := Nat.mod_eq_of_lt (by omega)
  rw [hlead]
  -- Short forms and surrogates begin with these two.
  by_cases hshort : v / 4096 = 0
  · rw [hshort]
    exact ⟨0xa0, 0xbf, rfl, by omega, by omega⟩
  by_cases hsurrogate : v / 4096 = 0xd
  · rw [hsurrogate]
    exact ⟨0x80, 0x9f, rfl, by omega, by omega⟩
  refine ⟨0x80, 0xbf, ?_, by omega, by omega⟩
  rw [PartialChar.ofLead?, if_neg (by omega), if_neg (by omega), if_neg (by omega),
    if_pos (by omega), Nat.add_sub_cancel]

theorem ofLead?_four (h : 0x10000 ≤ v) (h' : v < 0x110000) :
    ∃ lower upper, PartialChar.ofLead? (v / 262144 % 8 + 240) = some ⟨v / 262144, 3, lower, upper⟩ ∧
      lower ≤ v / 4096 % 64 + 128 ∧ v / 4096 % 64 + 128 ≤ upper := by
  have hlead : v / 262144 % 8 = v / 262144 := Nat.mod_eq_of_lt (by omega)
  rw [hlead]
  by_cases hshort : v / 262144 = 0
  · rw [hshort]
    exact ⟨0x90, 0xbf, rfl, by omega, by omega⟩
  by_cases hlong : v / 262144 = 4
  · rw [hlong]
    exact ⟨0x80, 0x8f, rfl, by omega, by omega⟩
  refine ⟨0x80, 0xbf, ?_, by omega, by omega⟩
  rw [PartialChar.ofLead?, if_neg (by omega), if_neg (by omega), if_neg (by omega),
    if_neg (by omega), if_neg (by omega), if_pos (by omega), Nat.add_sub_cancel]

theorem decodeFrom_utf8EncodeChar (c : Char) (bs : List UInt8) :
    decodeFrom none (String.utf8EncodeChar c ++ bs) = some c :: decodeFrom none bs := by
  have hchar {n : Nat} (h : n = c.val.toNat) : Char.ofNat n = c := by
    rw [h]
    exact Char.ofNat_toNat c
  have hvalid : c.val.toNat.isValidChar := c.valid
  simp only [String.utf8EncodeChar]
  generalize c.val.toNat = v at *
  simp only [Nat.isValidChar] at hvalid
  split_ifs with hone htwo hthree
  · rw [List.singleton_append, decodeFrom_ascii (by omega), hchar rfl]
  · rw [List.cons_append, List.singleton_append,
      decodeFrom_lead (by omega) (by omega) (ofLead?_two (by omega) htwo),
      decodeFrom_last (by omega) (by omega), hchar (by omega)]
  · obtain ⟨lower, upper, hlead, hbounds⟩ := ofLead?_three (v := v) (by omega) hthree (by omega)
    rw [List.cons_append, List.cons_append, List.singleton_append,
      decodeFrom_lead (by omega) (by omega) hlead, decodeFrom_between hbounds (by omega),
      decodeFrom_last (by omega) (by omega), hchar (by omega)]
  · obtain ⟨lower, upper, hlead, hbounds⟩ := ofLead?_four (v := v) (by omega) (by omega)
    rw [List.cons_append, List.cons_append, List.cons_append, List.singleton_append,
      decodeFrom_lead (by omega) (by omega) hlead, decodeFrom_between hbounds (by omega),
      decodeFrom_between (by omega) (by omega), decodeFrom_last (by omega) (by omega),
      hchar (by omega)]

theorem decode_utf8 (cs : List Char) : decode (utf8 cs) = cs.map some := by
  induction cs with
  | nil => rfl
  | cons c cs ih =>
    rw [utf8, List.flatMap_cons, decode, decodeFrom_utf8EncodeChar, List.map_cons, ← ih]
    rfl

theorem decode?_utf8 (cs : List Char) : decode? (utf8 cs) = some cs := by
  rw [decode?, decode_utf8]
  induction cs with
  | nil => rfl
  | cons c cs ih =>
    rw [List.map_cons, List.mapM_cons, ih]
    rfl

end Arazzo.Text
