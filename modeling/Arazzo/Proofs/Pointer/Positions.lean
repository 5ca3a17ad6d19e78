import Arazzo.Pointer
import Arazzo.Proofs.Text.Digits

/-! Positions of arrays as tokens tell them: a reader takes them just as they are printed, a writer
also with a plus sign or padding. -/

namespace Arazzo

namespace Pointer

variable {token : String} {i length : Nat}

/-- Written without a sign and without padding. -/
def Bare (token : String) : Prop :=
  (∀ rest, token.toList ≠ '+' :: rest) ∧ ∀ c rest, token.toList ≠ '0' :: c :: rest

theorem readIndex?_eq_none_of_padded {c : Char} {rest : List Char}
    (h : token.toList = '0' :: c :: rest) : readIndex? token = none := by
  unfold readIndex?
  rw [h]
  rfl

theorem readIndex?_of_unpadded (h : ∀ c rest, token.toList ≠ '0' :: c :: rest) :
    readIndex? token = Text.readNat? token.toList := by
  rw [readIndex?]
  split
  · rename_i c rest htoken
    exact absurd htoken (h c rest)
  · rfl

theorem readIndex?_eq_some_iff : readIndex? token = some i ↔ token = toString i := by
  have hprinted : (toString i).toList = Nat.toDigits 10 i := Nat.toList_repr
  constructor
  · intro h
    have hunpadded : ∀ c rest, token.toList ≠ '0' :: c :: rest := by
      intro c rest hpadded
      rw [readIndex?_eq_none_of_padded hpadded] at h
      cases h
    rw [readIndex?_of_unpadded hunpadded] at h
    have hplain : token.toList.head? = some '0' → token.toList.length = 1 := by
      intro hzero
      obtain ⟨rest, hrest⟩ := List.head?_eq_some_iff.1 hzero
      cases rest with
      | nil => rw [hrest, List.length_singleton]
      | cons c rest => exact absurd hrest (hunpadded c rest)
    rw [← String.toList_inj, hprinted, Text.eq_toDigits_of_readNat? h hplain]
  · rintro rfl
    have hread := Text.readNat?_toDigits i
    rw [← hprinted] at hread
    rw [readIndex?_of_unpadded, hread]
    intro c rest hpadded
    rw [hprinted] at hpadded
    by_cases hi : i = 0
    · rw [hi] at hpadded
      cases hpadded
    · exact Text.head?_toDigits hi (by rw [hpadded]; rfl)

theorem readIndex?_inj {other : String} (h : readIndex? token = some i)
    (h' : readIndex? other = some i) : token = other :=
  (readIndex?_eq_some_iff.1 h).trans (readIndex?_eq_some_iff.1 h').symm

theorem readNat?_plus (cs : List Char) : Text.readNat? ('+' :: cs) = none := by
  cases hread : Text.readNat? ('+' :: cs) with
  | none => rfl
  | some n =>
    -- No digit is a plus sign.
    have hdigits := Text.eq_toDigits_of_readNat? hread (by simp)
    have hplus : '+'.isDigit = true :=
      Nat.isDigit_of_mem_toDigits (b := 10) (n := n) (by decide) (by decide)
        (hdigits ▸ List.mem_cons_self)
    cases hplus

theorem readIndex?_of_not_bare (h : ¬ Bare token) : readIndex? token = none := by
  by_cases hpadded : ∃ c rest, token.toList = '0' :: c :: rest
  · obtain ⟨c, rest, htoken⟩ := hpadded
    exact readIndex?_eq_none_of_padded htoken
  · have hunpadded : ∀ c rest, token.toList ≠ '0' :: c :: rest :=
      fun c rest htoken => hpadded ⟨c, rest, htoken⟩
    have hsigned : ∃ rest, token.toList = '+' :: rest := by
      by_contra hnot
      exact h ⟨fun rest htoken => hnot ⟨rest, htoken⟩, hunpadded⟩
    obtain ⟨rest, hrest⟩ := hsigned
    rw [readIndex?_of_unpadded hunpadded, hrest, readNat?_plus]

theorem readSignedNat?_of_unsigned {limit : Nat} {cs : List Char} (h : ∀ rest, cs ≠ '+' :: rest) :
    Text.readSignedNat? limit cs =
      (Text.readNat? cs).bind fun n => if n ≤ limit then some n else none := by
  unfold Text.readSignedNat?
  dsimp only
  split
  · rename_i rest
    exact absurd rfl (h rest)
  · rfl

theorem readIndex?_of_writeIndex? (h : writeIndex? token length = some i) (hbare : Bare token) :
    readIndex? token = some i := by
  rw [writeIndex?, readSignedNat?_of_unsigned hbare.1, ← readIndex?_of_unpadded hbare.2] at h
  obtain ⟨n, hn, h⟩ := Option.bind_eq_some_iff.1 h
  obtain ⟨j, hj, hn⟩ := Option.bind_eq_some_iff.1 hn
  split at hn <;> cases hn
  split at h <;> cases h
  exact hj

theorem writeIndex?_of_readIndex? (h : readIndex? token = some i) (hi : i < length)
    (hlength : length ≤ 2 ^ 64) : writeIndex? token length = some i := by
  have hbare : Bare token := by
    by_contra hnot
    rw [readIndex?_of_not_bare hnot] at h
    cases h
  have hfits : i ≤ Nat.pow 2 64 - 1 := by
    have hpow : Nat.pow 2 64 = 2 ^ 64 := rfl
    omega
  rw [writeIndex?, readSignedNat?_of_unsigned hbare.1, ← readIndex?_of_unpadded hbare.2, h,
    Option.bind_some, if_pos hfits, Option.bind_some, if_pos hi]

theorem readIndex?_dash : readIndex? "-" = none := by decide

theorem child?_position (i : Nat) (items : List Json) :
    child? (toString i) (.arr items) = items[i]? := by
  rw [child?, readIndex?_eq_some_iff.2 rfl, Option.bind_some]

theorem resolveTokens_append (first rest : List String) (value : Json) :
    resolveTokens (first ++ rest) value = (resolveTokens first value).bind (resolveTokens rest) := by
  induction first generalizing value with
  | nil => rfl
  | cons token first ih =>
    rw [List.cons_append, resolveTokens, resolveTokens, Option.bind_assoc]
    exact Option.bind_congr fun child _ => ih child

end Pointer
end Arazzo
