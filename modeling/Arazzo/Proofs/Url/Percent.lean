import Arazzo.Proofs.Text.Replace
import Arazzo.Url.Basic

/-! Percent-encoding: the characters that an encoded text is made of, and the texts that are read as
dots, none of which comes of encoding anything else. -/

namespace Arazzo.Percent

variable {keep : Char → Bool} {c : Char} {cs : List Char}

theorem encodeWith_append (keep : Char → Bool) (cs more : List Char) :
    encodeWith keep (cs ++ more) = encodeWith keep cs ++ encodeWith keep more :=
  List.flatMap_append

theorem encodeWith_cons_of_keep (h : keep c = true) (cs : List Char) :
    encodeWith keep (c :: cs) = c :: encodeWith keep cs := by
  rw [encodeWith, List.flatMap_cons, if_pos h]
  rfl

theorem encodeWith_of_keep (h : ∀ c ∈ cs, keep c = true) : encodeWith keep cs = cs := by
  induction cs with
  | nil => rfl
  | cons c cs ih =>
    rw [encodeWith_cons_of_keep (h c (List.mem_cons_self ..)),
      ih fun d hd => h d (List.mem_cons_of_mem _ hd)]

theorem encodeWith_cons_of_not_keep (h : ¬ keep c = true) (cs : List Char) :
    ∃ byte bytes, String.utf8EncodeChar c = byte :: bytes ∧
      encodeWith keep (c :: cs) =
        encodeByte byte ++ (bytes.flatMap encodeByte ++ encodeWith keep cs) := by
  obtain ⟨byte, bytes, hbytes⟩ := List.exists_cons_of_ne_nil (String.utf8EncodeChar_ne_nil (c := c))
  refine ⟨byte, bytes, hbytes, ?_⟩
  rw [encodeWith, List.flatMap_cons, if_neg h, hbytes, List.flatMap_cons, List.append_assoc]
  rfl

def codeSigns : List Char := "%0123456789ABCDEF".toList

theorem hexDigit_mem_codeSigns {n : Nat} (h : n < 16) : hexDigit n ∈ codeSigns := by
  have hall : ∀ n < 16, hexDigit n ∈ codeSigns := by decide
  exact hall n h

theorem mem_codeSigns_of_mem_encodeByte {byte : UInt8} (h : c ∈ encodeByte byte) :
    c ∈ codeSigns := by
  have hbyte : byte.toNat < 256 := byte.toNat_lt
  have hhigh : hexDigit (byte.toNat / 16) ∈ codeSigns := hexDigit_mem_codeSigns (by omega)
  have hlow : hexDigit (byte.toNat % 16) ∈ codeSigns := hexDigit_mem_codeSigns (by omega)
  simp only [encodeByte, List.mem_cons, List.not_mem_nil, or_false] at h
  rcases h with rfl | rfl | rfl
  · decide
  · exact hhigh
  · exact hlow

theorem mem_encodeWith (h : c ∈ encodeWith keep cs) : (c ∈ cs ∧ keep c = true) ∨ c ∈ codeSigns := by
  obtain ⟨d, hd, hc⟩ := List.mem_flatMap.1 h
  split at hc
  · rename_i hkeep
    obtain rfl := List.mem_singleton.1 hc
    exact .inl ⟨hd, hkeep⟩
  · obtain ⟨byte, -, hbyte⟩ := List.mem_flatMap.1 hc
    exact .inr (mem_codeSigns_of_mem_encodeByte hbyte)

def standsInName (c : Char) : Bool := keepsInPath c && c != '/' && c != '\\'

theorem keepsInPath_of_standsInName (h : standsInName c = true) : keepsInPath c = true := by
  simp only [standsInName, Bool.and_eq_true] at h
  exact h.1.1

theorem isPrintable_of_keepsInPath (h : keepsInPath c = true) : isPrintable c = true := by
  simp only [keepsInPath, keepsInFragment, Bool.and_eq_true] at h
  exact h.1.1

theorem isPrintable_of_standsInName (h : standsInName c = true) : isPrintable c = true :=
  isPrintable_of_keepsInPath (keepsInPath_of_standsInName h)

theorem standsInName_of_mem_codeSigns (h : c ∈ codeSigns) : standsInName c = true := by
  have hall : codeSigns.all standsInName = true := by decide
  exact List.all_eq_true.1 hall c h

theorem lt_of_isUnreserved (h : isUnreserved c = true) : c.toNat < 128 := by
  simp only [isUnreserved, Bool.or_eq_true, beq_iff_eq] at h
  rcases h with (((h | rfl) | rfl) | rfl) | rfl
  · delta Char.isAlphanum Char.isAlpha Char.isUpper Char.isLower Char.isDigit at h
    simp only [Bool.or_eq_true, Bool.and_eq_true, decide_eq_true_eq, UInt32.le_iff_toNat_le,
      ge_iff_le] at h
    have hc : c.toNat = c.val.toNat := rfl
    have hupper : 'Z'.val.toNat = 90 := rfl
    have hlower : 'z'.val.toNat = 122 := rfl
    have hdigit : '9'.val.toNat = 57 := rfl
    omega
  all_goals decide

theorem standsInName_of_isUnreserved (h : isUnreserved c = true) : standsInName c = true := by
  have hall : (List.range 128).all
      (fun n => !isUnreserved (Char.ofNat n) || standsInName (Char.ofNat n)) = true := by
    decide
  have hc := List.all_eq_true.1 hall c.toNat (List.mem_range.2 (lt_of_isUnreserved h))
  rw [Char.ofNat_toNat, h] at hc
  exact hc

theorem standsInName_of_mem_component (h : c ∈ component cs) : standsInName c = true := by
  rcases mem_encodeWith h with ⟨-, hkeep⟩ | hsign
  · exact standsInName_of_isUnreserved hkeep
  · exact standsInName_of_mem_codeSigns hsign

def standsInForm (c : Char) : Bool := keepsInForm c || c == '+' || c == '=' || c == '&' || c == '%'

theorem standsInForm_of_mem_codeSigns (h : c ∈ codeSigns) : standsInForm c = true := by
  have hall : codeSigns.all standsInForm = true := by decide
  exact List.all_eq_true.1 hall c h

theorem standsInForm_of_mem_formText {s : String} (h : c ∈ formText s) : standsInForm c = true := by
  obtain ⟨d, -, hc⟩ := List.mem_flatMap.1 h
  rw [formChar] at hc
  split at hc
  · obtain rfl := List.mem_singleton.1 hc
    rfl
  · rcases mem_encodeWith hc with ⟨-, hkeep⟩ | hsign
    · simp [standsInForm, hkeep]
    · exact standsInForm_of_mem_codeSigns hsign

theorem standsInForm_of_mem_form {pairs : List (String × String)} (h : c ∈ form pairs) :
    standsInForm c = true := by
  rcases Text.mem_joinWith h with hmark | ⟨part, hpart, hc⟩
  · obtain rfl := List.mem_singleton.1 hmark
    rfl
  · obtain ⟨⟨name, value⟩, -, rfl⟩ := List.mem_map.1 hpart
    simp only [List.mem_append, List.mem_cons] at hc
    rcases hc with hname | rfl | hvalue
    · exact standsInForm_of_mem_formText hname
    · rfl
    · exact standsInForm_of_mem_formText hvalue

theorem eq_dot_of_utf8EncodeChar {bytes : List UInt8}
    (h : String.utf8EncodeChar c = 46 :: bytes) : c = '.' := by
  have hbyte {n : Nat} (hn : n < 256) (h : UInt8.ofNat n = 46) : n = 46 := by
    have hnat := congrArg UInt8.toNat h
    rwa [UInt8.toNat_ofNat_of_lt' hn] at hnat
  -- The first byte of a longer code is at least 192.
  simp only [String.utf8EncodeChar] at h
  split at h
  · have hval := hbyte (by omega) (List.cons.inj h).1
    exact Char.toNat_inj.1 hval
  · split at h
    · have := hbyte (by omega) (List.cons.inj h).1
      omega
    · split at h
      · have := hbyte (by omega) (List.cons.inj h).1
        omega
      · have := hbyte (by omega) (List.cons.inj h).1
        omega

theorem encodeByte_ne_small (byte : UInt8) : encodeByte byte ≠ ['%', '2', 'e'] := by
  have hdigit : ∀ n < 16, hexDigit n ≠ 'e' := by decide
  have hbyte : byte.toNat < 256 := byte.toNat_lt
  intro h
  simp only [encodeByte, List.cons.injEq] at h
  exact hdigit (byte.toNat % 16) (by omega) h.2.2.1

theorem eq_of_encodeByte_eq_capital {byte : UInt8} (h : encodeByte byte = ['%', '2', 'E']) :
    byte = 46 := by
  have htwo : ∀ n < 16, hexDigit n = '2' → n = 2 := by decide
  have hfourteen : ∀ n < 16, hexDigit n = 'E' → n = 14 := by decide
  have hbyte : byte.toNat < 256 := byte.toNat_lt
  simp only [encodeByte, List.cons.injEq] at h
  have hhigh := htwo (byte.toNat / 16) (by omega) h.2.1
  have hlow := hfourteen (byte.toNat % 16) (by omega) h.2.2.1
  refine UInt8.toNat_inj.1 ?_
  change byte.toNat = 46
  omega

theorem eq_nil_of_encodeWith (h : encodeWith keep cs = []) : cs = [] := by
  cases cs with
  | nil => rfl
  | cons c cs =>
    by_cases hkeep : keep c = true
    · rw [encodeWith_cons_of_keep hkeep] at h
      cases h
    · obtain ⟨byte, bytes, -, hcode⟩ := encodeWith_cons_of_not_keep hkeep cs
      rw [hcode] at h
      cases h

theorem of_encodeWith_eq_cons {rest : List Char} (h : encodeWith keep cs = c :: rest)
    (hc : c ≠ '%') : ∃ more, cs = c :: more ∧ keep c = true ∧ encodeWith keep more = rest := by
  cases cs with
  | nil => cases h
  | cons d cs =>
    by_cases hkeep : keep d = true
    · rw [encodeWith_cons_of_keep hkeep] at h
      obtain ⟨rfl, hrest⟩ := List.cons.inj h
      exact ⟨cs, rfl, hkeep, hrest⟩
    · obtain ⟨byte, bytes, -, hcode⟩ := encodeWith_cons_of_not_keep hkeep cs
      rw [hcode] at h
      exact absurd (List.cons.inj h).1.symm hc

theorem of_encodeWith_eq_code (hdot : keep '.' = true) {low : Char} (hlow : low = 'e' ∨ low = 'E')
    {rest : List Char} (h : encodeWith keep cs = '%' :: '2' :: low :: rest) :
    ∃ more, cs = '%' :: '2' :: low :: more ∧
      (keep '%' = true ∧ keep '2' = true ∧ keep low = true) ∧ encodeWith keep more = rest := by
  cases cs with
  | nil => cases h
  | cons c cs =>
    by_cases hkeep : keep c = true
    · have hlow' : low ≠ '%' := by rcases hlow with rfl | rfl <;> decide
      rw [encodeWith_cons_of_keep hkeep] at h
      obtain ⟨rfl, htail⟩ := List.cons.inj h
      obtain ⟨cs, rfl, htwo, htail⟩ := of_encodeWith_eq_cons htail (by decide)
      obtain ⟨cs, rfl, he, hrest⟩ := of_encodeWith_eq_cons htail hlow'
      exact ⟨cs, rfl, ⟨hkeep, htwo, he⟩, hrest⟩
    · obtain ⟨byte, bytes, hbytes, hcode⟩ := encodeWith_cons_of_not_keep hkeep cs
      have hbyte : encodeByte byte = ['%', '2', low] :=
        (List.append_inj (hcode.symm.trans h : _ = ['%', '2', low] ++ rest) rfl).1
      rcases hlow with rfl | rfl
      · exact absurd hbyte (encodeByte_ne_small byte)
      · rw [eq_of_encodeByte_eq_capital hbyte] at hbytes
        exact absurd (eq_dot_of_utf8EncodeChar hbytes ▸ hdot) hkeep

end Arazzo.Percent

namespace Arazzo.Url

open Percent

variable {keep : Char → Bool} {c d : Char} {cs : List Char} {n : Nat}

/-- Texts that stand for so many dots, each of them plain or encoded. -/
inductive Dots : Nat → List Char → Prop
  | nil : Dots 0 []
  | plain {n : Nat} {cs : List Char} (h : Dots n cs) : Dots (n + 1) ('.' :: cs)
  | small {n : Nat} {cs : List Char} (h : Dots n cs) : Dots (n + 1) ('%' :: '2' :: 'e' :: cs)
  | capital {n : Nat} {cs : List Char} (h : Dots n cs) : Dots (n + 1) ('%' :: '2' :: 'E' :: cs)

theorem toList_dots (cs : List Char) :
    (dots cs).toList = Text.replaceAll ['%', '2', 'e'] ['.'] (cs.map Text.asciiLower) :=
  String.toList_ofList

theorem eq_of_asciiLower_eq (h : Text.asciiLower c = d) (hd : d.toNat < 97) : c = d := by
  rcases Text.asciiLower_eq_or c with hsame | ⟨hlow, hsum⟩
  · exact hsame.symm.trans h
  · rw [h] at hsum
    omega

theorem eq_e_of_asciiLower_eq (h : Text.asciiLower c = 'e') : c = 'e' ∨ c = 'E' := by
  rcases Text.asciiLower_eq_or c with hsame | ⟨-, hsum⟩
  · exact .inl (hsame.symm.trans h)
  · rw [h] at hsum
    have he : 'e'.toNat = 'E'.toNat + 32 := rfl
    exact .inr (Char.toNat_inj.1 (by omega))

theorem toList_dots_eq_iff : (dots cs).toList = List.replicate n '.' ↔ Dots n cs := by
  have hneedle : ['%', '2', 'e'] ≠ [] := List.cons_ne_nil _ _
  rw [toList_dots]
  constructor
  · intro h
    induction n generalizing cs with
    | zero =>
      rcases Text.replaceAll_cases hneedle (cs.map Text.asciiLower) with
        hnil | ⟨rest, -, hdots⟩ | ⟨x, rest, -, hdots⟩
      · obtain rfl := List.map_eq_nil_iff.1 hnil
        exact .nil
      · rw [hdots] at h
        cases h
      · rw [hdots] at h
        cases h
    | succ n ih =>
      -- The first dot was written as `%2e`, in either case, or it was plain.
      rcases Text.replaceAll_cases hneedle (cs.map Text.asciiLower) with
        hnil | ⟨rest, hrest, hdots⟩ | ⟨x, rest, hrest, hdots⟩
      · rw [hnil, Text.replaceAll_nil] at h
        cases h
      · rw [hdots] at h
        obtain ⟨a, cs, rfl, ha, hrest⟩ := List.map_eq_cons_iff.1 hrest
        obtain ⟨b, cs, rfl, hb, hrest⟩ := List.map_eq_cons_iff.1 hrest
        obtain ⟨c, cs, rfl, hc, rfl⟩ := List.map_eq_cons_iff.1 hrest
        obtain rfl := eq_of_asciiLower_eq ha (by decide)
        obtain rfl := eq_of_asciiLower_eq hb (by decide)
        have hn := ih (List.cons.inj h).2
        rcases eq_e_of_asciiLower_eq hc with rfl | rfl
        · exact .small hn
        · exact .capital hn
      · rw [hdots] at h
        obtain ⟨a, cs, rfl, ha, rfl⟩ := List.map_eq_cons_iff.1 hrest
        obtain ⟨rfl, hn⟩ := List.cons.inj h
        obtain rfl := eq_of_asciiLower_eq ha (by decide)
        exact .plain (ih hn)
  · have hlead (rest : List Char) : Text.replaceAll ['%', '2', 'e'] ['.'] (['%', '2', 'e'] ++ rest) =
        '.' :: Text.replaceAll ['%', '2', 'e'] ['.'] rest := Text.replaceAll_lead hneedle rest
    intro h
    induction h with
    | nil => exact Text.replaceAll_nil ..
    | plain h ih => exact (Text.replaceAll_cons_ne (by decide)).trans (congrArg ('.' :: ·) ih)
    | small h ih => exact (hlead _).trans (congrArg ('.' :: ·) ih)
    | capital h ih => exact (hlead _).trans (congrArg ('.' :: ·) ih)

/-- No encoding makes dots of anything else. -/
theorem Dots.of_encodeWith (hdot : keep '.' = true) (h : Dots n (encodeWith keep cs)) :
    Dots n cs ∧ ∀ c ∈ cs, keep c = true := by
  generalize hcode : encodeWith keep cs = code at h
  induction h generalizing cs with
  | nil =>
    obtain rfl := eq_nil_of_encodeWith hcode
    exact ⟨.nil, fun c hc => absurd hc List.not_mem_nil⟩
  | plain h ih =>
    obtain ⟨cs, rfl, -, hcode⟩ := of_encodeWith_eq_cons hcode (by decide)
    obtain ⟨hn, hkept⟩ := ih hcode
    exact ⟨.plain hn, List.forall_mem_cons.2 ⟨hdot, hkept⟩⟩
  | small h ih =>
    obtain ⟨cs, rfl, hkeep, hcode⟩ := of_encodeWith_eq_code hdot (.inl rfl) hcode
    obtain ⟨hn, hkept⟩ := ih hcode
    exact ⟨.small hn, by simpa [hkeep] using hkept⟩
  | capital h ih =>
    obtain ⟨cs, rfl, hkeep, hcode⟩ := of_encodeWith_eq_code hdot (.inr rfl) hcode
    obtain ⟨hn, hkept⟩ := ih hcode
    exact ⟨.capital hn, by simpa [hkeep] using hkept⟩

/-- A name that leads to the same place or one level up. -/
def isDots (cs : List Char) : Bool := isDoubleDot cs || isSingleDot cs

theorem isDots_iff : isDots cs = true ↔ Dots 1 cs ∨ Dots 2 cs := by
  rw [← toList_dots_eq_iff, ← toList_dots_eq_iff, isDots, isDoubleDot, isSingleDot, Bool.or_eq_true,
    beq_iff_eq, beq_iff_eq, ← String.toList_inj, ← String.toList_inj, or_comm]
  rfl

theorem Dots.keepsInPath (h : Dots n cs) : ∀ c ∈ cs, keepsInPath c = true := by
  induction h with
  | nil => simp
  | plain h ih => exact List.forall_mem_cons.2 ⟨by decide, ih⟩
  | small h ih =>
    simp only [List.forall_mem_cons]
    exact ⟨by decide, by decide, by decide, ih⟩
  | capital h ih =>
    simp only [List.forall_mem_cons]
    exact ⟨by decide, by decide, by decide, ih⟩

theorem isDots_encodeWith (cs : List Char) :
    isDots (encodeWith Percent.keepsInPath cs) = true ↔ isDots cs = true := by
  have hiff (n : Nat) : Dots n (encodeWith Percent.keepsInPath cs) ↔ Dots n cs := by
    constructor
    · exact fun h => (h.of_encodeWith (by decide)).1
    · intro h
      rwa [encodeWith_of_keep h.keepsInPath]
  rw [isDots_iff, isDots_iff, hiff, hiff]

end Arazzo.Url
