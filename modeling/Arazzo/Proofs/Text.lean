import Arazzo.Text.Blank
import Arazzo.Text.Scan
import Mathlib.Data.List.DropRight
import Mathlib.Data.List.Infix

/-! Cutting and trimming texts: what the parts of a cut text say about the whole, and that trimming a
second time changes nothing. -/

namespace Arazzo.Text

variable {mark : Char} {cs lead needle before after rest part : List Char}

theorem afterLead?_eq_some_iff : afterLead? lead cs = some rest ↔ cs = lead ++ rest := by
  fun_induction afterLead? lead cs with
  | case1 cs => simp
  | case2 => simp
  | case3 l lead cs ih => simp [ih]
  | case4 l lead c cs hne => simp [Ne.symm hne]

theorem afterLead?_of_startsWith (h : startsWith lead cs = true) :
    ∃ rest, afterLead? lead cs = some rest := by
  obtain ⟨rest, rfl⟩ := List.isPrefixOf_iff_prefix.1 h
  exact ⟨rest, afterLead?_eq_some_iff.2 rfl⟩

theorem splitOnce?_eq_some_iff :
    splitOnce? mark cs = some (before, after) ↔ cs = before ++ mark :: after ∧ mark ∉ before := by
  induction cs generalizing before after with
  | nil => simp [splitOnce?]
  | cons c cs ih =>
    rw [splitOnce?]
    by_cases hc : c = mark
    · subst hc
      cases before with
      | nil => simp
      | cons b before =>
        simp only [if_true, Option.some.injEq, Prod.mk.injEq, reduceCtorEq, false_and, false_iff]
        rintro ⟨hcs, hb⟩
        exact hb ((List.cons.inj hcs).1 ▸ List.mem_cons_self ..)
    · cases before with
      | nil => simp [hc]
      | cons b before =>
        simp only [hc, if_false, Option.map_eq_some_iff, Prod.exists, Prod.mk.injEq,
          List.cons.injEq, ih, List.cons_append, List.mem_cons, not_or]
        constructor
        · rintro ⟨before', after', ⟨rfl, hbefore⟩, ⟨rfl, rfl⟩, rfl⟩
          exact ⟨⟨rfl, rfl⟩, Ne.symm hc, hbefore⟩
        · rintro ⟨⟨rfl, rfl⟩, -, hbefore⟩
          exact ⟨before, after, ⟨rfl, hbefore⟩, ⟨rfl, rfl⟩, rfl⟩

theorem append_mark_inj {before' after' : List Char} (h : mark ∉ before) (h' : mark ∉ before')
    (heq : before ++ mark :: after = before' ++ mark :: after') :
    before = before' ∧ after = after' := by
  have hsplit : splitOnce? mark (before ++ mark :: after) = some (before, after) :=
    splitOnce?_eq_some_iff.2 ⟨rfl, h⟩
  rw [heq, splitOnce?_eq_some_iff.2 ⟨rfl, h'⟩] at hsplit
  obtain ⟨hbefore, hafter⟩ := Prod.mk.inj (Option.some.inj hsplit)
  exact ⟨hbefore.symm, hafter.symm⟩

theorem splitOnce?_eq_none_iff : splitOnce? mark cs = none ↔ mark ∉ cs := by
  induction cs with
  | nil => simp [splitOnce?]
  | cons c cs ih =>
    rw [splitOnce?]
    by_cases hc : c = mark
    · simp [hc]
    · simp [hc, ih, Ne.symm hc]

theorem splitAll_ne_nil : splitAll mark cs ≠ [] := by
  induction cs with
  | nil => simp [splitAll]
  | cons c cs ih =>
    rw [splitAll]
    split
    · simp
    · split <;> simp

theorem splitAll_cons_mark : splitAll mark (mark :: cs) = [] :: splitAll mark cs := by
  rw [splitAll, if_pos rfl]

theorem splitAll_cons_other {c : Char} (hc : c ≠ mark) (cs : List Char) :
    ∃ part parts, splitAll mark cs = part :: parts ∧
      splitAll mark (c :: cs) = (c :: part) :: parts := by
  rw [splitAll, if_neg hc]
  cases h : splitAll mark cs with
  | nil => exact absurd h splitAll_ne_nil
  | cons part parts => exact ⟨part, parts, rfl, rfl⟩

theorem joinWith_cons {parts : List (List Char)} (h : parts ≠ []) :
    joinWith needle (part :: parts) = part ++ needle ++ joinWith needle parts := by
  cases parts with
  | nil => exact absurd rfl h
  | cons => rfl

theorem joinWith_eq_flatMap (mark : Char) (part : List Char) (parts : List (List Char)) :
    joinWith [mark] (part :: parts) = part ++ parts.flatMap fun other => mark :: other := by
  induction parts generalizing part with
  | nil => exact (List.append_nil part).symm
  | cons other parts ih =>
    rw [joinWith_cons (List.cons_ne_nil _ _), ih, List.flatMap_cons, List.append_assoc]
    rfl

theorem mem_joinWith {parts : List (List Char)} {c : Char} (h : c ∈ joinWith needle parts) :
    c ∈ needle ∨ ∃ part ∈ parts, c ∈ part := by
  induction parts with
  | nil => cases h
  | cons part parts ih =>
    by_cases hparts : parts = []
    · subst hparts
      exact .inr ⟨part, List.mem_cons_self .., h⟩
    · rw [joinWith_cons hparts, List.mem_append, List.mem_append] at h
      rcases h with (h | h) | h
      · exact .inr ⟨part, List.mem_cons_self .., h⟩
      · exact .inl h
      · exact (ih h).imp_right fun ⟨other, hother, hc⟩ => ⟨other, List.mem_cons_of_mem _ hother, hc⟩

theorem joinWith_splitAll (mark : Char) (cs : List Char) :
    joinWith [mark] (splitAll mark cs) = cs := by
  induction cs with
  | nil => rfl
  | cons c cs ih =>
    by_cases hc : c = mark
    · subst hc
      rw [splitAll_cons_mark, joinWith_cons splitAll_ne_nil, ih]
      rfl
    · obtain ⟨part, parts, hparts, hall⟩ := splitAll_cons_other hc cs
      rw [hparts] at ih
      rw [hall]
      cases parts with
      | nil => exact congrArg (c :: ·) ih
      | cons => exact congrArg (c :: ·) ih

theorem not_mem_of_mem_splitAll (h : part ∈ splitAll mark cs) : mark ∉ part := by
  induction cs generalizing part with
  | nil =>
    obtain rfl : part = [] := List.mem_singleton.1 h
    exact List.not_mem_nil
  | cons c cs ih =>
    by_cases hc : c = mark
    · subst hc
      rw [splitAll_cons_mark] at h
      rcases List.mem_cons.1 h with rfl | h
      · exact List.not_mem_nil
      · exact ih h
    · obtain ⟨first, parts, hparts, hall⟩ := splitAll_cons_other hc cs
      rw [hparts] at ih
      rw [hall] at h
      rcases List.mem_cons.1 h with rfl | h
      · simpa [Ne.symm hc] using ih (List.mem_cons_self ..)
      · exact ih (List.mem_cons_of_mem _ h)

theorem mem_of_mem_splitAll {c : Char} (h : part ∈ splitAll mark cs) (hc : c ∈ part) : c ∈ cs := by
  induction cs generalizing part with
  | nil =>
    obtain rfl : part = [] := List.mem_singleton.1 h
    exact absurd hc List.not_mem_nil
  | cons d cs ih =>
    by_cases hd : d = mark
    · subst hd
      rw [splitAll_cons_mark] at h
      rcases List.mem_cons.1 h with rfl | h
      · exact absurd hc List.not_mem_nil
      · exact List.mem_cons_of_mem _ (ih h hc)
    · obtain ⟨first, parts, hparts, hall⟩ := splitAll_cons_other hd cs
      rw [hparts] at ih
      rw [hall] at h
      rcases List.mem_cons.1 h with rfl | h
      · rcases List.mem_cons.1 hc with rfl | hc
        · exact List.mem_cons_self ..
        · exact List.mem_cons_of_mem _ (ih (List.mem_cons_self ..) hc)
      · exact List.mem_cons_of_mem _ (ih (List.mem_cons_of_mem _ h) hc)

theorem splitAll_of_not_mem (h : mark ∉ cs) : splitAll mark cs = [cs] := by
  induction cs with
  | nil => rfl
  | cons c cs ih =>
    rw [List.mem_cons, not_or] at h
    rw [splitAll, if_neg (Ne.symm h.1), ih h.2]

theorem splitAll_append (h : mark ∉ before) :
    splitAll mark (before ++ mark :: after) = before :: splitAll mark after := by
  induction before with
  | nil => exact splitAll_cons_mark
  | cons c before ih =>
    rw [List.mem_cons, not_or] at h
    rw [List.cons_append, splitAll, if_neg (Ne.symm h.1), ih h.2]

theorem splitAll_joinWith {parts : List (List Char)} (hparts : parts ≠ [])
    (h : ∀ part ∈ parts, mark ∉ part) : splitAll mark (joinWith [mark] parts) = parts := by
  induction parts with
  | nil => exact absurd rfl hparts
  | cons part parts ih =>
    have hpart : mark ∉ part := h part (List.mem_cons_self ..)
    cases parts with
    | nil => exact splitAll_of_not_mem hpart
    | cons other parts =>
      rw [joinWith_cons (List.cons_ne_nil _ _), List.append_assoc, List.singleton_append,
        splitAll_append hpart, ih (List.cons_ne_nil _ _) fun p hp => h p (List.mem_cons_of_mem _ hp)]

theorem intercalate_eq_joinWith (mark : List Char) (parts : List (List Char)) :
    mark.intercalate parts = joinWith mark parts := by
  induction parts with
  | nil => rfl
  | cons part parts ih =>
    cases parts with
    | nil => exact List.intercalate_singleton
    | cons other parts => rw [List.intercalate_cons_cons, ih, joinWith_cons (List.cons_ne_nil _ _)]

def FirstAt (needle lead cs : List Char) : Prop :=
  lead ++ needle <+: cs ∧ ∀ other, other ++ needle <+: cs → lead.length ≤ other.length

theorem afterFirst?_eq_some_iff (hneedle : needle ≠ []) :
    afterFirst? needle cs = some rest ↔
      ∃ lead, cs = lead ++ needle ++ rest ∧ FirstAt needle lead cs := by
  induction cs with
  | nil =>
    rw [afterFirst?, if_neg (by simpa using hneedle)]
    simp [hneedle]
  | cons c cs ih =>
    rw [afterFirst?]
    split
    -- Here it stands at the very start, so no shorter lead is left to compare with.
    · rename_i found hfound
      have here := afterLead?_eq_some_iff.1 hfound
      have first : FirstAt needle [] (c :: cs) := ⟨⟨found, here.symm⟩, fun _ _ => Nat.zero_le _⟩
      constructor
      · rintro ⟨⟩
        exact ⟨[], here, first⟩
      · rintro ⟨lead, hcs, -, hleast⟩
        have hlead : lead = [] := List.length_eq_zero_iff.1 (Nat.le_zero.1 (hleast [] first.1))
        subst hlead
        rw [here, List.nil_append] at hcs
        rw [List.append_cancel_left hcs]
    · rename_i hnone
      have absent : ¬ needle <+: c :: cs := by
        rintro ⟨found, hfound⟩
        rw [afterLead?_eq_some_iff.2 hfound.symm] at hnone
        cases hnone
      rw [ih]
      constructor
      · rintro ⟨lead, hcs, hfirst, hleast⟩
        refine ⟨c :: lead, by rw [hcs]; rfl, List.cons_prefix_cons.2 ⟨rfl, hfirst⟩, ?_⟩
        rintro (_ | ⟨d, other⟩) hother
        · exact absurd hother absent
        · exact Nat.succ_le_succ (hleast other (List.cons_prefix_cons.1 hother).2)
      · rintro ⟨_ | ⟨d, lead⟩, hcs, hfirst, hleast⟩
        · exact absurd hfirst absent
        · obtain ⟨rfl, hrest⟩ := List.cons.inj hcs
          refine ⟨lead, hrest, (List.cons_prefix_cons.1 hfirst).2, fun other hother => ?_⟩
          exact Nat.le_of_succ_le_succ (hleast (c :: other) (List.cons_prefix_cons.2 ⟨rfl, hother⟩))

theorem infix_of_contains (hneedle : needle ≠ []) (h : contains needle cs = true) :
    needle <:+: cs := by
  obtain ⟨rest, hrest⟩ := Option.isSome_iff_exists.1 h
  obtain ⟨lead, rfl, -⟩ := (afterFirst?_eq_some_iff hneedle).1 hrest
  exact ⟨lead, rest, rfl⟩

theorem trimStartChars_eq_self (h : ∀ c ∈ cs.head?, isBlank c = false) : trimStartChars cs = cs := by
  cases cs with
  | nil => rfl
  | cons c cs => rw [trimStartChars, List.dropWhile_cons_of_neg (by simp [h c rfl])]

theorem head?_trimStartChars (cs : List Char) :
    ∀ c ∈ (trimStartChars cs).head?, isBlank c = false := by
  intro c hc
  have hnot := List.head?_dropWhile_not isBlank cs
  rw [Option.mem_def] at hc
  rw [trimStartChars] at hc
  simpa [hc] using hnot

theorem trimEndChars_prefix (cs : List Char) : trimEndChars cs <+: cs := by
  rw [trimEndChars, ← List.reverse_suffix, List.reverse_reverse]
  exact List.dropWhile_suffix _

theorem trimEndChars_trimEndChars (cs : List Char) :
    trimEndChars (trimEndChars cs) = trimEndChars cs := by
  simp only [trimEndChars, List.reverse_reverse, List.dropWhile_idempotent]

theorem trimChars_trimChars (cs : List Char) : trimChars (trimChars cs) = trimChars cs := by
  have hfirst : ∀ c ∈ (trimChars cs).head?, isBlank c = false := by
    intro c hc
    obtain ⟨rest, hrest⟩ := trimEndChars_prefix (trimStartChars cs)
    refine head?_trimStartChars cs c ?_
    rw [Option.mem_def] at hc ⊢
    rw [← hrest, List.head?_append]
    exact Option.or_eq_some_iff.2 (.inl hc)
  rw [trimChars, trimStartChars_eq_self hfirst, trimChars, trimEndChars_trimEndChars]

theorem trim_trim (s : String) : trim (trim s) = trim s := by
  rw [trim, trim, String.toList_ofList, trimChars_trimChars]

theorem trimEndChars_eq_self (h : ∀ c ∈ cs.getLast?, isBlank c = false) : trimEndChars cs = cs := by
  have hreverse : trimStartChars cs.reverse = cs.reverse :=
    trimStartChars_eq_self (by rwa [List.head?_reverse])
  rw [trimEndChars, ← trimStartChars, hreverse, List.reverse_reverse]

theorem getLast?_trimEndChars (cs : List Char) :
    ∀ c ∈ (trimEndChars cs).getLast?, isBlank c = false := by
  rw [trimEndChars, List.getLast?_reverse]
  exact head?_trimStartChars cs.reverse

theorem exists_trimChars (cs : List Char) :
    ∃ first last, cs = first ++ trimChars cs ++ last ∧ (∀ c ∈ first, isBlank c = true) ∧
      ∀ c ∈ last, isBlank c = true := by
  have htrim : trimChars cs = ((trimStartChars cs).reverse.dropWhile isBlank).reverse := rfl
  refine ⟨cs.takeWhile isBlank, ((trimStartChars cs).reverse.takeWhile isBlank).reverse, ?_,
    fun c hc => List.mem_takeWhile_imp hc,
    fun c hc => List.mem_takeWhile_imp (List.mem_reverse.1 hc)⟩
  rw [htrim, List.append_assoc, ← List.reverse_append, List.takeWhile_append_dropWhile,
    List.reverse_reverse, trimStartChars, List.takeWhile_append_dropWhile]

theorem trimChars_eq_self (hfirst : ∀ c ∈ cs.head?, isBlank c = false)
    (hlast : ∀ c ∈ cs.getLast?, isBlank c = false) : trimChars cs = cs := by
  rw [trimChars, trimStartChars_eq_self hfirst, trimEndChars_eq_self hlast]

theorem trimChars_solid (h : ∀ c ∈ cs, isBlank c = false) : trimChars cs = cs :=
  trimChars_eq_self (fun c hc => h c (List.mem_of_mem_head? hc))
    fun c hc => h c (List.mem_of_mem_getLast? hc)

theorem trimChars_append (hlead : ∀ c ∈ lead.head?, isBlank c = false) (hlead' : lead ≠ [])
    (hcs : cs ≠ []) (htrim : trimChars cs = cs) : trimChars (lead ++ cs) = lead ++ cs := by
  refine trimChars_eq_self ?_ ?_
  · rwa [List.head?_append_of_ne_nil _ hlead']
  · rw [List.getLast?_append_of_ne_nil _ hcs, ← htrim]
    exact getLast?_trimEndChars _

theorem trim_eq_self_iff {s : String} : trim s = s ↔ trimChars s.toList = s.toList := by
  rw [trim, ← String.toList_inj, String.toList_ofList]

theorem trimChars_eq_nil_iff : trimChars cs = [] ↔ ∀ c ∈ cs, isBlank c = true := by
  rw [trimChars, trimEndChars, List.reverse_eq_nil_iff, List.dropWhile_eq_nil_iff]
  simp only [List.mem_reverse, trimStartChars]
  constructor
  · intro h
    have hnil : cs.dropWhile isBlank = [] := by
      cases hdrop : cs.dropWhile isBlank with
      | nil => rfl
      | cons c rest =>
        have hblank := h c (hdrop ▸ List.mem_cons_self ..)
        have hnot := head?_trimStartChars cs c (by rw [trimStartChars, hdrop]; rfl)
        rw [hblank] at hnot
        cases hnot
    exact List.dropWhile_eq_nil_iff.1 hnil
  · exact fun h c hc => h c ((List.dropWhile_suffix _).subset hc)

theorem asciiLower_eq_or (c : Char) :
    asciiLower c = c ∨ 65 ≤ c.toNat ∧ (asciiLower c).toNat = c.toNat + 32 := by
  unfold asciiLower
  split
  · rename_i h
    have hlow : 65 ≤ c.toNat := h.1
    have hhigh : c.toNat ≤ 90 := h.2
    have hascii : ∀ n < 128, (Char.ofNat n).toNat = n := by decide
    exact .inr ⟨hlow, hascii _ (by omega)⟩
  · exact .inl rfl

theorem lt_of_asciiLower_lt {c : Char} (h : (asciiLower c).toNat < 128) : c.toNat < 128 := by
  rcases asciiLower_eq_or c with hsame | ⟨-, hsum⟩
  · rwa [hsame] at h
  · omega

end Arazzo.Text
