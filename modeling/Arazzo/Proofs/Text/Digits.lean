import Arazzo.Proofs.Text
import Mathlib.Tactic.IntervalCases

/-! Numbers that are written by decimal digits, and what their readers make of them. -/

namespace Arazzo

namespace Text

variable {c : Char} {cs : List Char} {n d : Nat}

theorem readDigits?_concat (base : Nat) (value? : Char → Option Nat) (cs : List Char) (c : Char) :
    readDigits? base value? (cs ++ [c]) =
      (readDigits? base value? cs).bind fun n =>
        (value? c).bind fun d => if d < base then some (n * base + d) else none := by
  rw [readDigits?, List.foldl_append]
  rfl

theorem digitValue?_digitChar (h : d < 10) : digitValue? (Nat.digitChar d) = some d := by
  interval_cases d <;> rfl

theorem eq_digitChar_of_digitValue? (h : digitValue? c = some d) : d < 10 ∧ c = Nat.digitChar d := by
  rw [digitValue?] at h
  split at h
  · rename_i hrange
    obtain ⟨hlow, hhigh⟩ : 48 ≤ c.toNat ∧ c.toNat ≤ 57 := hrange
    obtain rfl := Option.some.inj h
    refine ⟨by omega, ?_⟩
    rw [← Char.ofNat_toNat c]
    generalize c.toNat = code at hlow hhigh
    interval_cases code <;> rfl
  · cases h

theorem readNat?_concat (cs : List Char) (c : Char) :
    readNat? (cs ++ [c]) =
      (readDigits? 10 digitValue? cs).bind fun n => (digitValue? c).map fun d => n * 10 + d := by
  have hne : (cs ++ [c]).isEmpty = false := by cases cs <;> rfl
  rw [readNat?, hne, readDigits?_concat]
  refine Option.bind_congr fun n _ => ?_
  cases hd : digitValue? c with
  | none => rfl
  | some d => simp [(eq_digitChar_of_digitValue? hd).1]

theorem readNat?_eq_readDigits? (h : cs ≠ []) : readNat? cs = readDigits? 10 digitValue? cs := by
  cases cs with
  | nil => exact absurd rfl h
  | cons c cs => rfl

theorem readNat?_toDigits (n : Nat) : readNat? (Nat.toDigits 10 n) = some n := by
  induction n using Nat.strongRecOn with
  | ind n ih =>
    rw [Nat.toDigits_eq_if (by decide)]
    split
    · rename_i hsmall
      rw [← List.nil_append [Nat.digitChar n], readNat?_concat, digitValue?_digitChar hsmall]
      simp [readDigits?]
    · rename_i hlarge
      have hlead : readDigits? 10 digitValue? (Nat.toDigits 10 (n / 10)) = some (n / 10) := by
        rw [← readNat?_eq_readDigits? Nat.toDigits_ne_nil]
        exact ih (n / 10) (by omega)
      rw [readNat?_concat, hlead, digitValue?_digitChar (Nat.mod_lt n (by decide))]
      simp only [Option.bind_some, Option.map_some]
      rw [Nat.div_add_mod']

theorem head?_toDigits (h : n ≠ 0) : (Nat.toDigits 10 n).head? ≠ some '0' := by
  induction n using Nat.strongRecOn with
  | ind n ih =>
    rw [Nat.toDigits_eq_if (by decide)]
    split
    · rename_i hsmall
      interval_cases n
      · exact absurd rfl h
      all_goals decide
    · rename_i hlarge
      rw [List.head?_append_of_ne_nil _ Nat.toDigits_ne_nil]
      exact ih (n / 10) (by omega) (by omega)

theorem eq_toDigits_of_readNat? (h : readNat? cs = some n)
    (hplain : cs.head? = some '0' → cs.length = 1) : cs = Nat.toDigits 10 n := by
  induction cs using List.reverseRecOn generalizing n with
  | nil => cases h
  | append_singleton cs c ih =>
    rw [readNat?_concat] at h
    obtain ⟨lead, hlead, h⟩ := Option.bind_eq_some_iff.1 h
    obtain ⟨d, hd, rfl⟩ := Option.map_eq_some_iff.1 h
    obtain ⟨hsmall, rfl⟩ := eq_digitChar_of_digitValue? hd
    rw [Nat.toDigits_eq_if (by decide)]
    by_cases hcs : cs = []
    · subst hcs
      obtain rfl : 0 = lead := Option.some.inj hlead
      rw [if_pos (by omega)]
      simp
    · rw [← readNat?_eq_readDigits? hcs] at hlead
      have hfirst : cs.head? ≠ some '0' := by
        intro hzero
        have hone := hplain (by rw [List.head?_append, hzero]; rfl)
        rw [List.length_append, List.length_singleton, Nat.add_eq_right, List.length_eq_zero_iff] at hone
        exact hcs hone
      have hwritten : cs = Nat.toDigits 10 lead := ih hlead fun hzero => absurd hzero hfirst
      have hlarge : lead ≠ 0 := by
        rintro rfl
        rw [hwritten] at hfirst
        exact hfirst rfl
      rw [if_neg (by omega), hwritten]
      congr 2
      · omega
      · congr 1
        omega

theorem isDigit_iff : c.isDigit = true ↔ '0' ≤ c ∧ c ≤ '9' := by
  rw [Char.isDigit, Bool.and_eq_true, decide_eq_true_iff, decide_eq_true_iff]
  exact Iff.rfl

theorem digitValue?_of_isDigit (h : c.isDigit = true) :
    digitValue? c = some (c.toNat - '0'.toNat) ∧ c.toNat - '0'.toNat < 10 := by
  have hcode : 48 ≤ c.toNat ∧ c.toNat ≤ 57 := isDigit_iff.mp h
  refine ⟨if_pos (isDigit_iff.mp h), ?_⟩
  change c.toNat - 48 < 10
  omega

theorem ofDigitChars_concat (cs : List Char) (c : Char) :
    Nat.ofDigitChars 10 (cs ++ [c]) 0 = 10 * Nat.ofDigitChars 10 cs 0 + (c.toNat - '0'.toNat) := by
  rw [Nat.ofDigitChars, List.foldl_append]
  rfl

theorem readDigits?_of_digits (h : ∀ c ∈ cs, c.isDigit = true) :
    readDigits? 10 digitValue? cs = some (Nat.ofDigitChars 10 cs 0) := by
  induction cs using List.reverseRecOn with
  | nil => rfl
  | append_singleton cs c ih =>
    obtain ⟨hvalue, hsmall⟩ := digitValue?_of_isDigit (h c (List.mem_append_right _ (by simp)))
    rw [readDigits?_concat, ih fun d hd => h d (List.mem_append_left _ hd), hvalue,
      ofDigitChars_concat, Nat.mul_comm]
    exact if_pos hsmall

theorem readSignedNat?_of_digits {limit : Nat} (hne : cs ≠ []) (h : ∀ c ∈ cs, c.isDigit = true) :
    readSignedNat? limit cs =
      if Nat.ofDigitChars 10 cs 0 ≤ limit then some (Nat.ofDigitChars 10 cs 0) else none := by
  have hread := (readNat?_eq_readDigits? hne).trans (readDigits?_of_digits h)
  unfold readSignedNat?
  split
  · exact absurd (h '+' (List.mem_cons_self ..)) (by decide)
  · simp only [hread, Option.bind_some]

theorem toLower_of_isDigit (h : c.isDigit = true) : c.toLower = c := by
  have hcode : 48 ≤ c.toNat ∧ c.toNat ≤ 57 := isDigit_iff.mp h
  refine dif_neg fun hletter => ?_
  have hlow : 65 ≤ c.toNat := hletter.1
  omega

structure Writes (cs : List Char) (n : Nat) : Prop where
  filled : cs ≠ []
  digits : ∀ c ∈ cs, c.isDigit = true
  value : Nat.ofDigitChars 10 cs 0 = n

theorem readNat?_eq_some_iff : readNat? cs = some n ↔ Writes cs n := by
  constructor
  · intro h
    have hne : cs ≠ [] := by
      rintro rfl
      cases h
    have hdigits : ∀ c ∈ cs, c.isDigit = true := by
      rw [readNat?_eq_readDigits? hne] at h
      clear hne
      induction cs using List.reverseRecOn generalizing n with
      | nil => simp
      | append_singleton cs c ih =>
        rw [readDigits?_concat] at h
        obtain ⟨lead, hlead, h⟩ := Option.bind_eq_some_iff.1 h
        obtain ⟨d, hd, -⟩ := Option.bind_eq_some_iff.1 h
        obtain ⟨hsmall, rfl⟩ := eq_digitChar_of_digitValue? hd
        intro c hc
        rcases List.mem_append.1 hc with hc | hc
        · exact ih hlead c hc
        · obtain rfl := List.mem_singleton.1 hc
          interval_cases d <;> rfl
    have hread := (readNat?_eq_readDigits? hne).trans (readDigits?_of_digits hdigits)
    exact ⟨hne, hdigits, Option.some.inj (hread.symm.trans h)⟩
  · rintro ⟨hne, hdigits, rfl⟩
    exact (readNat?_eq_readDigits? hne).trans (readDigits?_of_digits hdigits)

end Text
end Arazzo
