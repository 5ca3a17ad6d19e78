import Arazzo.Json.Reader
import Arazzo.Json.Writer
import Mathlib.Tactic.SplitIfs

/-! Texts as JSON: a quoted text is read back as the same text, and a text is read only where a quote
comes first. -/

namespace Arazzo.Json

variable {c : Char} {cs rest acc : List Char} {fuel depth : Nat} {value : Json} {text : String}

theorem hexValue?_hexDigit : ∀ n < 16, Text.hexValue? (hexDigit n) = some n := by decide

theorem unicodeEscape?_control (h : c.toNat < 32) (rest : List Char) :
    unicodeEscape?
        ('0' :: '0' :: hexDigit (c.toNat / 16) :: hexDigit (c.toNat % 16) :: rest) =
      some (c, rest) := by
  have hquad : hexQuad?
      ('0' :: '0' :: hexDigit (c.toNat / 16) :: hexDigit (c.toNat % 16) :: rest) =
        some (c.toNat, rest) := by
    have hsum : ((0 * 16 + 0) * 16 + c.toNat / 16) * 16 + c.toNat % 16 = c.toNat := by omega
    have hzero : Text.hexValue? '0' = some 0 := rfl
    rw [hexQuad?, hzero, hexValue?_hexDigit _ (by omega), hexValue?_hexDigit _ (by omega)]
    exact congrArg (fun n => some (n, rest)) hsum
  rw [unicodeEscape?, hquad]
  simp only [Option.bind_eq_bind, Option.bind_some]
  rw [if_neg (by omega), if_neg (by omega), Char.ofNat_toNat]

theorem stringBody?_backslash {d : Char} {escaped : List Char}
    (h : escape? escaped = some (d, rest)) :
    stringBody? (fuel + 1) acc ('\\' :: escaped) = stringBody? fuel (d :: acc) rest := by
  rw [stringBody?, if_neg (by decide), if_pos rfl, h]

theorem stringBody?_escapeChar (fuel : Nat) (acc : List Char) (c : Char) (rest : List Char) :
    stringBody? (fuel + 1) acc (escapeChar c ++ rest) = stringBody? fuel (c :: acc) rest := by
  unfold escapeChar
  split_ifs with hquote hbackslash hline htab hreturn hback hform hcontrol
  · obtain rfl := hquote
    exact stringBody?_backslash rfl
  · obtain rfl := hbackslash
    exact stringBody?_backslash rfl
  · obtain rfl := hline
    exact stringBody?_backslash rfl
  · obtain rfl := htab
    exact stringBody?_backslash rfl
  · obtain rfl := hreturn
    exact stringBody?_backslash rfl
  · obtain rfl : c = Char.ofNat 8 := by rw [← hback, Char.ofNat_toNat]
    exact stringBody?_backslash rfl
  · obtain rfl : c = Char.ofNat 12 := by rw [← hform, Char.ofNat_toNat]
    exact stringBody?_backslash rfl
  · exact stringBody?_backslash (unicodeEscape?_control hcontrol rest)
  · rw [List.singleton_append, stringBody?, if_neg hquote, if_neg hbackslash, if_neg hcontrol]

theorem length_le_escaped (cs : List Char) : cs.length ≤ (cs.flatMap escapeChar).length := by
  have hone (c : Char) : 1 ≤ (escapeChar c).length := by
    unfold escapeChar
    split_ifs <;> simp
  induction cs with
  | nil => exact Nat.le_refl _
  | cons c cs ih =>
    have := hone c
    rw [List.length_cons, List.flatMap_cons, List.length_append]
    omega

theorem stringBody?_escaped (h : cs.length < fuel) (acc rest : List Char) :
    stringBody? fuel acc (cs.flatMap escapeChar ++ '"' :: rest) =
      some (String.ofList (acc.reverse ++ cs), rest) := by
  induction cs generalizing fuel acc with
  | nil =>
    obtain ⟨fuel, rfl⟩ := Nat.exists_eq_succ_of_ne_zero (Nat.ne_zero_of_lt h)
    simp [stringBody?]
  | cons c cs ih =>
    obtain ⟨fuel, rfl⟩ := Nat.exists_eq_succ_of_ne_zero (Nat.ne_zero_of_lt h)
    rw [List.flatMap_cons, List.append_assoc, Nat.succ_eq_add_one, stringBody?_escapeChar,
      ih (Nat.lt_of_succ_lt_succ h)]
    simp

theorem parse?_quote (text : String) : parse? (quote text) = some (.str text) := by
  have hquote : (quote text).toList = '"' :: (text.toList.flatMap escapeChar ++ ['"']) := by
    simp [quote]
  have hlength := length_le_escaped text.toList
  have hfuel : text.toList.length < (text.toList.flatMap escapeChar ++ ['"']).length + 1 := by
    rw [List.length_append]
    omega
  have hbody := stringBody?_escaped hfuel [] []
  rw [parse?, hquote, skipSpace, List.dropWhile_cons_of_neg (by decide), value?, hbody]
  simp [skipSpace]

def opening? : Json → Option Char
  | .str _ => some '"'
  | .arr _ => some '['
  | .obj _ => some '\x7b'
  | _ => none

theorem head?_of_value? (h : value? depth cs = some (value, rest)) (hopening : value.opening? = some c) :
    cs.head? = some c := by
  unfold value? at h
  split at h
  case h_3 | h_4 | h_5 =>
    cases h
    cases hopening
  case h_1 =>
    obtain ⟨_, -, heq⟩ := Option.map_eq_some_iff.1 h
    cases heq
    exact hopening
  case h_6 | h_7 =>
    split at h
    · cases h
    · split at h
      · cases h
        exact hopening
      · obtain ⟨_, -, heq⟩ := Option.map_eq_some_iff.1 h
        cases heq
        exact hopening
  all_goals
    obtain ⟨_, -, heq⟩ := Option.map_eq_some_iff.1 h
    cases heq
    cases hopening

theorem head?_of_parse? (h : parse? text = some value) (hopening : value.opening? = some c) :
    (skipSpace text.toList).head? = some c := by
  unfold parse? at h
  split at h
  · rename_i hread
    split at h <;> cases h
    exact head?_of_value? hread hopening
  · cases h

theorem head?_render (h : value.opening? = some c) : value.render.toList.head? = some c := by
  cases value with
  | str text => simpa [opening?, render, quote] using h
  | arr items => simpa [opening?, render] using h
  | obj members => simpa [opening?, render] using h
  | _ => cases h

theorem mem_of_parse?_str {found : String} (h : parse? text = some (.str found)) :
    '"' ∈ text.toList :=
  (List.dropWhile_suffix _).subset (List.mem_of_mem_head? (head?_of_parse? h rfl))

/-- What is written for an array or an object is not read as a text. -/
theorem parse?_render_ne_str (hopening : value.opening? = some c) (hc : c ≠ '"')
    (hspace : isSpace c = false) (found : String) : parse? value.render ≠ some (.str found) := by
  intro h
  have hquote := head?_of_parse? h rfl
  have hhead := head?_render hopening
  cases hrender : value.render.toList with
  | nil =>
    rw [hrender] at hhead
    cases hhead
  | cons first others =>
    rw [hrender] at hhead hquote
    obtain rfl := Option.some.inj hhead
    rw [skipSpace, List.dropWhile_cons_of_neg (by simp [hspace])] at hquote
    exact hc (Option.some.inj hquote)

end Arazzo.Json
