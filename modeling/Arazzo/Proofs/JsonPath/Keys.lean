import Arazzo.JsonPath.Reader
import Arazzo.Proofs.Json.Edited
import Arazzo.Proofs.Pointer.Positions

/-! Queries that go from key to key, by a name behind a dot or by a position in brackets: which of them are
read, and what they find. -/

namespace Arazzo

open JsonPath

namespace Json.Key

def chars : Key → List Char
  | .member name => '.' :: name.toList
  | .item i => '[' :: ((toString i).toList ++ [']'])

def segment : Key → JsonPath.Segment
  | .member name => .segment false [.name name]
  | .item i => .segment false [.index i]

/-- Names without quotes begin with no digit and have no hyphen; positions are exact as doubles. -/
def isPlain : Key → Bool
  | .member name =>
    match name.toList with
    | c :: cs => Reader.isNameStart c && cs.all Reader.isNameChar
    | [] => false
  | .item i => i < Nat.pow 2 53

def Unmarked : Key → Prop
  | .member name =>
    name ≠ "" ∧ ∀ c ∈ name.toList, Reader.isSpace c = false ∧ c ≠ '.' ∧ c ≠ '[' ∧ c ≠ '*'
  | .item _ => True

end Json.Key

namespace JsonPath

open Json (Key under? at? at?_cons)
open Reader

def pathChars (keys : List Key) : List Char := keys.flatMap Key.chars

variable {fuel : Nat} {acc : List Segment} {rest name : List Char} {c : Char} {keys : List Key} {i : Nat}

theorem bumpIf_none {lead : String} {cs : List Char} (h : Text.afterLead? lead.toList cs = none) :
    (bumpIf lead).run cs = some (false, cs) := by
  simp [bumpIf, StateT.run_bind, h]

theorem bumpIf_some {lead : String} {cs : List Char}
    (h : Text.afterLead? lead.toList cs = some rest) : (bumpIf lead).run cs = some (true, rest) := by
  simp [bumpIf, StateT.run_bind, h]

theorem bumpAfterSpace_none {mark : String} {cs : List Char}
    (h : Text.afterLead? mark.toList (cs.dropWhile isSpace) = none) :
    (bumpAfterSpace mark).run cs = some (false, cs) := by
  simp [bumpAfterSpace, StateT.run_bind, h]

theorem segments_nil (fuel : Nat) (acc : List Segment) :
    (segments (fuel + 1) acc).run [] = some (acc.reverse, []) := by
  rw [segments]
  rfl

theorem segments_stop (hspace : isSpace c = false) (hdot : c ≠ '.') (hbracket : c ≠ '[') :
    (segments (fuel + 1) acc).run (c :: rest) = some (acc.reverse, c :: rest) := by
  rw [segments]
  simp [StateT.run_bind, skipSpace, hspace, hdot, hbracket]

theorem takeWhile_append {p : Char → Bool} (h : ∀ d ∈ name, p d = true)
    (hrest : ∀ d ∈ rest.head?, p d = false) :
    (name ++ rest).takeWhile p = name ∧ (name ++ rest).dropWhile p = rest := by
  have hstop : rest.takeWhile p = [] ∧ rest.dropWhile p = rest := by
    cases rest with
    | nil => exact ⟨rfl, rfl⟩
    | cons d rest => simp [hrest d rfl]
  rw [List.takeWhile_append_of_pos h, List.dropWhile_append_of_pos h, hstop.1, hstop.2,
    List.append_nil]
  exact ⟨rfl, rfl⟩

theorem shorthandName_run (hstart : isNameStart c = true)
    (hname : ∀ d ∈ name, Reader.isNameChar d = true)
    (hrest : ∀ d ∈ rest.head?, Reader.isNameChar d = false) :
    shorthandName.run (c :: (name ++ rest)) = some (String.ofList (c :: name), rest) := by
  obtain ⟨htake, hdrop⟩ := takeWhile_append hname hrest
  unfold shorthandName
  simp [StateT.run_bind, hstart, htake, hdrop]

theorem segments_name (hstart : isNameStart c = true)
    (hname : ∀ d ∈ name, Reader.isNameChar d = true)
    (hrest : ∀ d ∈ rest.head?, Reader.isNameChar d = false) :
    (segments (fuel + 1) acc).run ('.' :: c :: (name ++ rest)) =
      (segments fuel (.segment false [.name (String.ofList (c :: name))] :: acc)).run rest := by
  have hspace : skipSpace.run ('.' :: c :: (name ++ rest)) = some ((), '.' :: c :: (name ++ rest)) := rfl
  have hwild : (bumpIf "*").run (c :: (name ++ rest)) = some (false, c :: (name ++ rest)) := by
    refine bumpIf_none (if_neg ?_)
    rintro rfl
    cases hstart
  have hread := shorthandName_run hstart hname hrest
  rw [segments]
  simp only [StateT.run_bind, StateT.run_get, Option.pure_def, Option.bind_eq_bind, Option.bind_some,
    hspace]
  split
  · rename_i heq
    obtain rfl := (List.cons.inj (List.cons.inj heq).2).1
    cases hstart
  · rename_i heq
    obtain rfl := (List.cons.inj heq).2
    simp only [StateT.run_bind, StateT.run_set, StateT.run_map, hwild, hread, Option.pure_def,
      Option.bind_eq_bind, Option.bind_some, Option.map_eq_map, Option.map_some, Bool.false_eq_true,
      if_false]
  · rename_i heq
    cases (List.cons.inj heq).1
  · rename_i hdots _
    exact absurd rfl (hdots _)

/-- A name that begins otherwise is not read at all. -/
theorem segments_misnamed (hstart : isNameStart c = false) (hdot : c ≠ '.') (hstar : c ≠ '*') :
    (segments (fuel + 1) acc).run ('.' :: c :: rest) = none := by
  have hspace : skipSpace.run ('.' :: c :: rest) = some ((), '.' :: c :: rest) := rfl
  have hwild : (bumpIf "*").run (c :: rest) = some (false, c :: rest) :=
    bumpIf_none (if_neg (Ne.symm hstar))
  have hread : shorthandName.run (c :: rest) = none := by
    unfold shorthandName
    simp [StateT.run_bind, hstart]
  rw [segments]
  simp only [StateT.run_bind, StateT.run_get, Option.pure_def, Option.bind_eq_bind, Option.bind_some,
    hspace]
  split
  · rename_i heq
    exact absurd (List.cons.inj (List.cons.inj heq).2).1 hdot
  · rename_i heq
    obtain rfl := (List.cons.inj heq).2
    simp only [StateT.run_bind, StateT.run_set, StateT.run_map, hwild, hread, Option.pure_def,
      Option.bind_eq_bind, Option.bind_some, Option.map_eq_map, Option.map_none, Option.bind_none,
      Bool.false_eq_true, if_false]
  · rename_i heq
    cases (List.cons.inj heq).1
  · rename_i hdots _
    exact absurd rfl (hdots _)

theorem toList_toString (i : Nat) : (toString i).toList = Nat.toDigits 10 i := Nat.toList_repr

theorem isDigit_of_mem_toString {d : Char} (h : d ∈ (toString i).toList) : d.isDigit = true := by
  rw [toList_toString] at h
  exact Nat.isDigit_of_mem_toDigits (by decide) (by decide) h

theorem exists_toString_cons (i : Nat) : ∃ c cs, (toString i).toList = c :: cs ∧ c.isDigit = true := by
  cases hdigits : (toString i).toList with
  | nil =>
    rw [toList_toString] at hdigits
    exact absurd hdigits Nat.toDigits_ne_nil
  | cons c cs => exact ⟨c, cs, rfl, isDigit_of_mem_toString (hdigits ▸ List.mem_cons_self ..)⟩

theorem isNameStart_digit (h : c.isDigit = true) : isNameStart c = false := by
  have hrange : 48 ≤ c.toNat ∧ c.toNat ≤ 57 := by
    delta Char.isDigit at h
    simp only [Bool.and_eq_true, decide_eq_true_eq] at h
    exact ⟨h.1, h.2⟩
  have hword : c ≠ '_' := by
    rintro rfl
    revert hrange
    decide
  have halpha : c.isAlpha = false := by
    rw [Bool.eq_false_iff]
    intro hletter
    delta Char.isAlpha Char.isUpper Char.isLower at hletter
    simp only [Bool.or_eq_true, Bool.and_eq_true, decide_eq_true_eq] at hletter
    change (65 ≤ c.toNat ∧ c.toNat ≤ 90) ∨ 97 ≤ c.toNat ∧ c.toNat ≤ 122 at hletter
    omega
  simp only [isNameStart, halpha, Bool.false_or, Bool.or_eq_false_iff, beq_eq_false_iff_ne,
    decide_eq_false_iff_not]
  exact ⟨hword, by omega⟩

theorem isDigit_other (h : c.isDigit = true) :
    isQuote c = false ∧ isSpace c = false ∧ (c == '*') = false ∧ (c == '?') = false := by
  have other (d : Char) (hd : d.isDigit = false) : (c == d) = false := by
    rw [beq_eq_false_iff_ne]
    rintro rfl
    rw [h] at hd
    cases hd
  refine ⟨?_, ?_, other '*' rfl, other '?' rfl⟩
  · rw [isQuote, other '"' rfl, other '\'' rfl]
    rfl
  · rw [isSpace, other ' ' rfl, other '\t' rfl, other '\n' rfl, other '\r' rfl]
    rfl

theorem unpadded_toString (i : Nat) :
    (decide ((toString i).toList.length > 1) && (toString i).toList.head? == some '0') = false := by
  rw [toList_toString]
  by_cases hi : i = 0
  · subst hi
    rfl
  · have hzero : ((Nat.toDigits 10 i).head? == some '0') = false := by
      simpa using Text.head?_toDigits hi
    rw [hzero, Bool.and_false]

theorem wholeNumber_toString (i : Nat) (rest : List Char) :
    wholeNumber.run ((toString i).toList ++ ']' :: rest) =
      if i < Nat.pow 2 53 then some ((i : Int), ']' :: rest) else none := by
  obtain ⟨c, cs, hcons, hdigit⟩ := exists_toString_cons i
  have hsign : (bumpIf "-").run ((toString i).toList ++ ']' :: rest) =
      some (false, (toString i).toList ++ ']' :: rest) := by
    refine bumpIf_none ?_
    have hother : '-' ≠ c := by
      rintro rfl
      cases hdigit
    rw [hcons]
    exact if_neg hother
  have hdigits : ∀ d ∈ (toString i).toList, d.isDigit = true := fun d => isDigit_of_mem_toString
  have hstop : ∀ d ∈ (']' :: rest).head?, d.isDigit = false := by
    intro d hd
    obtain rfl := Option.some.inj hd
    rfl
  obtain ⟨htake, hdrop⟩ := takeWhile_append hdigits hstop
  have hread : Text.readNat? (toString i).toList = some i := by
    rw [toList_toString, Text.readNat?_toDigits]
  have hlift (cs : List Char) : (liftM (some i) : Reader Nat).run cs = some (i, cs) := rfl
  unfold wholeNumber
  simp only [StateT.run_bind, StateT.run_get, StateT.run_modify, Option.pure_def, Option.bind_eq_bind,
    Option.bind_some, hsign, htake, hdrop, hread, unpadded_toString, hlift, Bool.false_and, Bool.false_or]
  by_cases hi : i < Nat.pow 2 53
  · have hsmall : decide (i ≥ Nat.pow 2 53) = false := by simpa using hi
    simp only [hsmall, Bool.false_eq_true, if_false, if_pos hi]
    rfl
  · have hlarge : decide (i ≥ Nat.pow 2 53) = true := by simpa using hi
    simp only [hlarge, if_true, if_neg hi]
    rfl

theorem optionalNumber_toString (i : Nat) (rest : List Char) :
    optionalNumber.run ((toString i).toList ++ ']' :: rest) =
      if i < Nat.pow 2 53 then some (some (i : Int), ']' :: rest) else none := by
  obtain ⟨c, cs, hcons, hdigit⟩ := exists_toString_cons i
  have hnumber := wholeNumber_toString i rest
  have hfirst : peek?.run ((toString i).toList ++ ']' :: rest) =
      some (some c, (toString i).toList ++ ']' :: rest) := by
    rw [hcons]
    rfl
  unfold optionalNumber
  simp only [StateT.run_bind, hfirst, Option.bind_eq_bind, Option.bind_some, hdigit, Bool.or_true,
    if_true, hnumber]
  split
  · rfl
  · rfl

theorem selector_position (fuel i : Nat) (rest : List Char) :
    (selector (fuel + 1)).run ((toString i).toList ++ ']' :: rest) =
      if i < Nat.pow 2 53 then some (.index i, ']' :: rest) else none := by
  obtain ⟨c, cs, hcons, hdigit⟩ := exists_toString_cons i
  have hnumber := optionalNumber_toString i rest
  have hfirst : peek?.run ((toString i).toList ++ ']' :: rest) =
      some (some c, (toString i).toList ++ ']' :: rest) := by
    rw [hcons]
    rfl
  obtain ⟨hquote, -, hstar, hfilter⟩ := isDigit_other hdigit
  have hslice : (bumpAfterSpace ":").run (']' :: rest) = some (false, ']' :: rest) :=
    bumpAfterSpace_none rfl
  unfold selector
  simp only [StateT.run_bind, hfirst, Option.bind_eq_bind, Option.bind_some, hquote, hstar, hfilter,
    Bool.false_eq_true, if_false, hnumber]
  split
  · simp only [Option.bind_some, hslice, Bool.false_eq_true, if_false]
    rfl
  · rfl

theorem bracketed_position (fuel i : Nat) (rest : List Char) :
    (bracketed (fuel + 3)).run ('[' :: ((toString i).toList ++ ']' :: rest)) =
      if i < Nat.pow 2 53 then some ([.index i], rest) else none := by
  have hopen : (expect "[").run ('[' :: ((toString i).toList ++ ']' :: rest)) =
      some ((), (toString i).toList ++ ']' :: rest) := by
    have hlead : Text.afterLead? "[".toList ('[' :: ((toString i).toList ++ ']' :: rest)) =
        some ((toString i).toList ++ ']' :: rest) := rfl
    simp only [expect, StateT.run_bind, bumpIf_some hlead]
    rfl
  have hspace : skipSpace.run ((toString i).toList ++ ']' :: rest) =
      some ((), (toString i).toList ++ ']' :: rest) := by
    obtain ⟨c, cs, hcons, hdigit⟩ := exists_toString_cons i
    obtain ⟨-, hsolid, -⟩ := isDigit_other hdigit
    rw [hcons]
    simp only [skipSpace, StateT.run_modify]
    rw [List.cons_append, List.dropWhile_cons_of_neg (by simp [hsolid])]
    rfl
  have hspace' : skipSpace.run (']' :: rest) = some ((), ']' :: rest) := rfl
  have hclose : (bumpIf "]").run (']' :: rest) = some (true, rest) := bumpIf_some rfl
  have hselector := selector_position fuel i rest
  unfold bracketed
  simp only [StateT.run_bind, hopen, Option.bind_eq_bind, Option.bind_some, hspace]
  unfold selectors
  simp only [StateT.run_bind, hselector, Option.bind_eq_bind]
  split
  · simp only [Option.bind_some, hspace', hclose, if_true]
    rfl
  · rfl

theorem segments_position (i : Nat) (rest : List Char) :
    (segments (fuel + 4) acc).run ('[' :: ((toString i).toList ++ ']' :: rest)) =
      if i < Nat.pow 2 53 then
        (segments (fuel + 3) (.segment false [.index i] :: acc)).run rest
      else none := by
  have hspace : skipSpace.run ('[' :: ((toString i).toList ++ ']' :: rest)) =
    some ((), '[' :: ((toString i).toList ++ ']' :: rest)) := rfl
  have hbracketed := bracketed_position fuel i rest
  unfold segments
  simp only [StateT.run_bind, StateT.run_get, Option.pure_def, Option.bind_eq_bind, Option.bind_some,
    hspace, hbracketed]
  split
  · rfl
  · rfl

theorem not_isNameChar_chars (key : Key) (rest : List Char) :
    ∀ d ∈ (key.chars ++ rest).head?, Reader.isNameChar d = false := by
  intro d hd
  cases key <;> obtain rfl := Option.some.inj hd <;> rfl

theorem head?_pathChars (keys : List Key) :
    ∀ d ∈ (pathChars keys).head?, Reader.isNameChar d = false := by
  cases keys with
  | nil => simp [pathChars]
  | cons key keys =>
    rw [pathChars, List.flatMap_cons]
    exact not_isNameChar_chars key _

theorem pathChars_member (name : String) (keys : List Key) :
    pathChars (.member name :: keys) = '.' :: (name.toList ++ pathChars keys) := rfl

theorem pathChars_item (i : Nat) (keys : List Key) :
    pathChars (.item i :: keys) = '[' :: ((toString i).toList ++ ']' :: pathChars keys) := by
  rw [pathChars, List.flatMap_cons, Key.chars, List.cons_append, List.append_assoc]
  rfl

theorem isPlain_member {name : String} (h : (Key.member name).isPlain = true) :
    ∃ c cs, name.toList = c :: cs ∧ isNameStart c = true ∧
      ∀ d ∈ cs, Reader.isNameChar d = true := by
  unfold Key.isPlain at h
  dsimp only at h
  split at h
  · rename_i c cs hname
    obtain ⟨hstart, hcs⟩ := Bool.and_eq_true_iff.1 h
    exact ⟨c, cs, hname, hstart, List.all_eq_true.1 hcs⟩
  · cases h

theorem segments_plain (hplain : ∀ key ∈ keys, key.isPlain = true) (hfuel : keys.length + 4 ≤ fuel) :
    (segments fuel acc).run (pathChars keys) = some (acc.reverse ++ keys.map Key.segment, []) := by
  induction keys generalizing fuel acc with
  | nil =>
    obtain ⟨fuel, rfl⟩ : ∃ n, fuel = n + 1 := ⟨fuel - 1, by simp at hfuel; omega⟩
    rw [pathChars, List.flatMap_nil, segments_nil, List.map_nil, List.append_nil]
  | cons key keys ih =>
    obtain ⟨hkey, hkeys⟩ := List.forall_mem_cons.1 hplain
    rw [List.length_cons] at hfuel
    obtain ⟨fuel, rfl⟩ : ∃ n, fuel = n + 4 := ⟨fuel - 4, by omega⟩
    have hrest (segment : Segment) :
        (segments (fuel + 3) (segment :: acc)).run (pathChars keys) =
          some (acc.reverse ++ segment :: keys.map Key.segment, []) := by
      rw [ih hkeys (by omega), List.reverse_cons, List.append_assoc, List.singleton_append]
    cases key with
    | member name =>
      obtain ⟨c, cs, hname, hstart, hcs⟩ := isPlain_member hkey
      have hwhole : String.ofList (c :: cs) = name := by rw [← hname, String.ofList_toList]
      rw [pathChars_member, hname, List.cons_append, segments_name hstart hcs (head?_pathChars keys),
        hrest, hwhole]
      rfl
    | item i =>
      rw [pathChars_item, segments_position, if_pos (of_decide_eq_true hkey), hrest]
      rfl

theorem segments_odd {name : String} (hmarks : (Key.member name).Unmarked)
    (hodd : (Key.member name).isPlain = false) (rest : List Char) (found : List Segment) :
    (segments (fuel + 2) acc).run ('.' :: (name.toList ++ rest)) ≠ some (found, []) := by
  obtain ⟨hne, hmarks⟩ := hmarks
  unfold Key.isPlain at hodd
  dsimp only at hodd
  split at hodd
  · rename_i c cs hname
    rw [hname] at hmarks ⊢
    cases hstart : isNameStart c with
    | false =>
      obtain ⟨-, hdot, -, hstar⟩ := hmarks c (List.mem_cons_self ..)
      rw [List.cons_append, segments_misnamed hstart hdot hstar]
      exact fun h => by cases h
    | true =>
      -- The name is read up to its first other character, and there nothing can go on.
      rw [hstart, Bool.true_and] at hodd
      have hsplit := List.takeWhile_append_dropWhile (p := Reader.isNameChar) (l := cs)
      have hgood : ∀ d ∈ cs.takeWhile Reader.isNameChar, Reader.isNameChar d = true :=
        fun d hd => List.mem_takeWhile_imp hd
      cases hdrop : cs.dropWhile Reader.isNameChar with
      | nil =>
        have hall : cs.all Reader.isNameChar = true := by
          rw [← hsplit, hdrop, List.append_nil]
          exact List.all_eq_true.2 hgood
        rw [hall] at hodd
        cases hodd
      | cons d more =>
        have hbad : Reader.isNameChar d = false := by
          have hnot := List.head?_dropWhile_not Reader.isNameChar cs
          simpa [hdrop] using hnot
        rw [hdrop] at hsplit
        have hmem : d ∈ c :: cs := by
          rw [← hsplit]
          simp
        obtain ⟨hspace, hdot, hbracket, -⟩ := hmarks d hmem
        have hhead : ∀ e ∈ (d :: (more ++ rest)).head?, Reader.isNameChar e = false := by
          intro e he
          obtain rfl := Option.some.inj he
          exact hbad
        rw [← hsplit, List.cons_append, List.append_assoc, List.cons_append,
          segments_name hstart hgood hhead, segments_stop hspace hdot hbracket]
        exact fun h => by cases h
  · rename_i hname
    exact absurd (by simpa using hname) hne

theorem segments_not_plain (hmarks : ∀ key ∈ keys, key.Unmarked)
    (h : ∃ key ∈ keys, key.isPlain = false) (hfuel : keys.length + 4 ≤ fuel)
    (found : List Segment) : (segments fuel acc).run (pathChars keys) ≠ some (found, []) := by
  induction keys generalizing fuel acc with
  | nil => simp at h
  | cons key keys ih =>
    obtain ⟨hmark, hmarks⟩ := List.forall_mem_cons.1 hmarks
    rw [List.length_cons] at hfuel
    obtain ⟨fuel, rfl⟩ : ∃ n, fuel = n + 4 := ⟨fuel - 4, by omega⟩
    have hrest (hplain : key.isPlain = true) (segment : Segment) :
        (segments (fuel + 3) (segment :: acc)).run (pathChars keys) ≠ some (found, []) := by
      refine ih hmarks ?_ (by omega)
      obtain ⟨other, hother, hodd⟩ := h
      rcases List.mem_cons.1 hother with rfl | hother
      · rw [hplain] at hodd
        cases hodd
      · exact ⟨other, hother, hodd⟩
    cases key with
    | member name =>
      rw [pathChars_member]
      cases hkey : (Key.member name).isPlain with
      | false => exact segments_odd hmark hkey _ _
      | true =>
        obtain ⟨c, cs, hname, hstart, hcs⟩ := isPlain_member hkey
        rw [hname, List.cons_append, segments_name hstart hcs (head?_pathChars keys)]
        exact hrest hkey _
    | item i =>
      rw [pathChars_item, segments_position]
      split
      · rename_i hi
        exact hrest (decide_eq_true hi) _
      · exact fun h => by cases h

theorem length_le_pathChars (keys : List Key) : keys.length ≤ (pathChars keys).length := by
  induction keys with
  | nil => exact Nat.zero_le _
  | cons key keys ih =>
    cases key <;> simp [pathChars_member, pathChars_item] <;> omega

/-- Keys make a query exactly when each of them can be written so. -/
theorem parse?_pathChars (hmarks : ∀ key ∈ keys, key.Unmarked) :
    Query.parse? ("$" ++ String.ofList (pathChars keys)) =
      if keys.all Key.isPlain then some (.query true (keys.map Key.segment)) else none := by
  have hchars : ("$" ++ String.ofList (pathChars keys)).toList = '$' :: pathChars keys := by
    simp only [String.toList_append, String.toList_ofList]
    rfl
  have hfuel : keys.length + 4 ≤ 8 * (pathChars keys).length + 16 := by
    have hlength := length_le_pathChars keys
    omega
  rw [Query.parse?, hchars]
  cases hall : keys.all Key.isPlain with
  | true =>
    have hread : (segments (8 * (pathChars keys).length + 16) []).run (pathChars keys) =
        some (keys.map Key.segment, []) := segments_plain (List.all_eq_true.1 hall) hfuel
    simp only [hread, if_true]
  | false =>
    obtain ⟨key, hkey, hodd⟩ := List.all_eq_false.1 hall
    have hnot : ∀ found, (segments (8 * (pathChars keys).length + 16) []).run (pathChars keys) ≠
        some (found, []) := segments_not_plain hmarks ⟨key, hkey, by simpa using hodd⟩ hfuel
    cases hread : (segments (8 * (pathChars keys).length + 16) []).run (pathChars keys) with
    | none => simp only [hread, Bool.false_eq_true, if_false]
    | some read =>
      obtain ⟨found, left⟩ := read
      cases left with
      | nil => exact absurd hread (hnot found)
      | cons c left => simp only [hread, Bool.false_eq_true, if_false]

theorem selectSegments_nil (root : Node) (segments : List Segment) :
    selectSegments root [] segments = [] := by
  induction segments with
  | nil => rw [selectSegments]
  | cons segment segments ih =>
    obtain ⟨descend, selectors⟩ := segment
    have hnone : (Segment.segment descend selectors).select root [] = [] := by
      cases descend <;> rfl
    rw [selectSegments, hnone, ih]

theorem select_single (root node : Node) (selector : Selector) :
    (Segment.segment false [selector]).select root [node] = selector.select root node := by
  rw [Segment.select, if_neg (by decide), List.flatMap_singleton, selectAll, selectAll, List.append_nil]

theorem select_key (root node : Node) (key : Key) :
    (key.segment.select root [node]).map Node.value = (under? key node.value).toList := by
  obtain ⟨location, value⟩ := node
  cases key with
  | member name =>
    rw [Key.segment, select_single, Selector.select]
    cases value with
    | obj members => cases hget : Table.get? name members <;> simp [Node.member, under?, hget]
    | _ => rfl
  | item i =>
    rw [Key.segment, select_single, Selector.select]
    cases value with
    | arr items =>
      have hpositive : ¬ ((i : Int) < 0) := by omega
      simp only [Node.itemAt, if_neg hpositive, Int.toNat_natCast, under?]
      cases items[i]? <;> rfl
    | _ => rfl

theorem select_keys (root node : Node) (keys : List Key) :
    (selectSegments root [node] (keys.map Key.segment)).map Node.value =
      (at? keys node.value).toList := by
  induction keys generalizing node with
  | nil => rfl
  | cons key keys ih =>
    have hselect := select_key root node key
    rw [List.map_cons, selectSegments, at?_cons]
    cases hunder : under? key node.value with
    | none =>
      rw [hunder, Option.toList_none, List.map_eq_nil_iff] at hselect
      rw [hselect, selectSegments_nil]
      rfl
    | some value =>
      rw [hunder, Option.toList_some, List.map_eq_singleton_iff] at hselect
      obtain ⟨next, hnext, rfl⟩ := hselect
      rw [hnext, ih]
      rfl

theorem first?_keys (keys : List Key) (body : Json) :
    (Query.query true (keys.map Key.segment)).first? body = at? keys body := by
  have hselect := select_keys ⟨[], body⟩ ⟨[], body⟩ keys
  rw [Query.first?, Query.nodes, Query.select, ← List.head?_map, if_pos rfl, hselect,
    Option.head?_toList]

end JsonPath
end Arazzo
