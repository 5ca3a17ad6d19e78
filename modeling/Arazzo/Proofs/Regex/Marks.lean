import Arazzo.Proofs.Regex.Steps
import Arazzo.Proofs.Text

/-! Blanks, comments and marks, read with a tail behind them. -/

namespace Arazzo.Regex

open Text

namespace Pattern

variable {α β : Type} {s s' : PatternState} {t cs : List Char} {c : Char} {a : α}
variable {m m' : Pattern α} {f f' : α → Pattern β}
variable {head : Option Char} {n j k : Nat} {odd' : β → PatternState → Prop}

/-- A mark that no tail has is found in the text before the tail or not at all. -/
theorem upTo_append (ht : Tail t) {mark : Char} (hclosing : ')' ≠ mark) (hending : '$' ≠ mark)
    (cs : List Char) :
    cs.dropWhile (· != mark) = [] ∧ (cs ++ t).dropWhile (· != mark) = [] ∨
      ∃ rest, cs.dropWhile (· != mark) = mark :: rest ∧
        (cs ++ t).dropWhile (· != mark) = mark :: (rest ++ t) ∧
        (cs ++ t).takeWhile (· != mark) = cs.takeWhile (· != mark) := by
  induction cs with
  | nil =>
    refine .inl ⟨rfl, List.dropWhile_eq_nil_iff.mpr fun c hc => bne_iff_ne.mpr ?_⟩
    cases ht with
    | nothing => cases hc
    | closing => rwa [List.mem_singleton.mp hc]
    | ending => rcases List.mem_pair.mp hc with rfl | rfl <;> assumption
  | cons c cs ih =>
    rw [List.cons_append]
    rcases eq_or_ne c mark with rfl | hc
    · exact .inr ⟨cs, by simp⟩
    · simpa [hc] using ih

theorem afterLead?_append (ht : Tail t) {lead : List Char} (hlead : ')' ∉ lead) (cs : List Char) :
    afterLead? lead (cs ++ t) = (afterLead? lead cs).map (· ++ t) := by
  induction lead generalizing cs with
  | nil => rfl
  | cons l lead ih =>
    have hl : ')' ≠ l := fun h => hlead (h ▸ List.mem_cons_self ..)
    have hrest : ')' ∉ lead := fun h => hlead (List.mem_cons_of_mem _ h)
    cases cs with
    | nil =>
      rcases ht.eq_nil_or_cons with rfl | ⟨u, rfl⟩
      · rfl
      · exact if_neg (Ne.symm hl)
    | cons c cs =>
      change (if l = c then afterLead? lead (cs ++ t) else none) =
        (if l = c then afterLead? lead cs else none).map (· ++ t)
      split
      · exact ih hrest cs
      · rfl

theorem afterLead?_takes {lead rest : List Char} (h : afterLead? lead cs = some rest) :
    rest <:+ cs ∧ rest.length + lead.length = cs.length := by
  obtain rfl := afterLead?_eq_some_iff.mp h
  exact ⟨List.suffix_append .., by rw [List.length_append, Nat.add_comm]⟩

theorem startsWith_append (ht : Tail t) {lead : List Char} (hlead : ')' ∉ lead) (cs : List Char) :
    startsWith lead (cs ++ t) = startsWith lead cs := by
  rw [Bool.eq_iff_iff, startsWith, startsWith, List.isPrefixOf_iff_prefix, List.isPrefixOf_iff_prefix]
  refine ⟨?_, fun h => h.trans (List.prefix_append cs t)⟩
  rintro ⟨rest, hrest⟩
  have happend := afterLead?_append ht hlead cs
  rw [afterLead?_eq_some_iff.mpr hrest.symm] at happend
  obtain ⟨rest', hrest', -⟩ := Option.map_eq_some_iff.mp happend.symm
  exact ⟨rest', (afterLead?_eq_some_iff.mp hrest').symm⟩

theorem withoutSpace_nil (fuel : Nat) : withoutSpace fuel [] = [] := by
  cases fuel <;> rfl

theorem withoutSpace_suffix (fuel : Nat) (cs : List Char) : withoutSpace fuel cs <:+ cs := by
  induction fuel generalizing cs with
  | zero => exact List.suffix_refl cs
  | succ fuel ih =>
    have hblank : cs.dropWhile isBlank <:+ cs := List.dropWhile_suffix _
    unfold withoutSpace
    split
    · rename_i rest hrest
      rw [hrest] at hblank
      have hcomment : (rest.dropWhile (· != '\n')).drop 1 <:+ '#' :: rest :=
        ((List.drop_suffix 1 _).trans (List.dropWhile_suffix _)).trans (List.suffix_cons ..)
      exact ((ih _).trans hcomment).trans hblank
    · exact hblank

theorem withoutSpace_comment {rest : List Char} (fuel : Nat) (h : cs.dropWhile isBlank = '#' :: rest) :
    withoutSpace (fuel + 1) cs = withoutSpace fuel ((rest.dropWhile (· != '\n')).drop 1) := by
  rw [withoutSpace, h]
  rfl

theorem withoutSpace_plain (fuel : Nat) (h : (cs.dropWhile isBlank).head? ≠ some '#') :
    withoutSpace (fuel + 1) cs = cs.dropWhile isBlank := by
  rw [withoutSpace]
  split
  · rename_i rest hrest
    exact absurd (congrArg List.head? hrest) h
  · rfl

theorem withoutSpace_append (ht : Tail t) {fuel fuel' : Nat} (h : cs.length ≤ fuel)
    (h' : cs.length ≤ fuel') :
    withoutSpace fuel' (cs ++ t) = withoutSpace fuel cs ++ t ∨
      withoutSpace fuel cs = [] ∧ withoutSpace fuel' (cs ++ t) = [] := by
  induction fuel generalizing fuel' cs with
  | zero =>
    obtain rfl : cs = [] := List.length_eq_zero_iff.mp (Nat.le_zero.mp h)
    exact .inl (ht.withoutSpace fuel')
  | succ fuel ih =>
    rcases eq_or_ne cs [] with rfl | hne
    · exact .inl (ht.withoutSpace fuel')
    obtain ⟨fuel', rfl⟩ : ∃ more, fuel' = more + 1 :=
      ⟨fuel' - 1, by have := List.length_pos_iff.mpr hne; omega⟩
    have hblank : isBlank ')' = false := rfl
    have happend : (cs ++ t).dropWhile isBlank = if (cs.dropWhile isBlank).isEmpty then
        t.dropWhile isBlank else cs.dropWhile isBlank ++ t := List.dropWhile_append
    have hlength : (cs.dropWhile isBlank).length ≤ cs.length := (List.dropWhile_suffix _).length_le
    cases hdrop : cs.dropWhile isBlank with
    | nil =>
      rw [hdrop, List.isEmpty_nil, if_pos rfl, ht.dropWhile hblank] at happend
      have hplain : (t.head? : Option Char) ≠ some '#' := by cases ht <;> decide
      rw [withoutSpace_plain fuel (by simp [hdrop]), withoutSpace_plain fuel' (by rwa [happend]), hdrop,
        happend]
      exact .inl rfl
    | cons c rest =>
      rw [hdrop, List.isEmpty_cons, if_neg Bool.false_ne_true, List.cons_append] at happend
      rw [hdrop, List.length_cons] at hlength
      rcases eq_or_ne c '#' with rfl | hc
      -- A comment without an end takes in all that is written behind the pattern.
      · rw [withoutSpace_comment fuel hdrop, withoutSpace_comment fuel' happend]
        rcases upTo_append ht (by decide : ')' ≠ '\n') (by decide) rest with
          ⟨hnone, hnone'⟩ | ⟨line, hline, hline', -⟩
        · rw [hnone, hnone', List.drop_nil, withoutSpace_nil, withoutSpace_nil]
          exact .inr ⟨rfl, rfl⟩
        · have hshort := (List.dropWhile_suffix (l := rest) (· != '\n')).length_le
          rw [hline, List.length_cons] at hshort
          rw [hline, hline', List.drop_one, List.drop_one, List.tail_cons, List.tail_cons]
          exact ih (by omega) (by omega)
      · rw [withoutSpace_plain fuel (by simp [hdrop, hc]), withoutSpace_plain fuel' (by simp [happend, hc]),
          hdrop, happend]
        exact .inl rfl

def skipped (flags : Flags) (cs : List Char) : List Char :=
  if flags.spaced then withoutSpace cs.length cs else cs

theorem skipped_suffix (flags : Flags) (cs : List Char) : skipped flags cs <:+ cs := by
  unfold skipped
  split
  · exact withoutSpace_suffix ..
  · exact List.suffix_refl cs

theorem skipped_plain (hblank : isBlank c = false) (hc : c ≠ '#') (flags : Flags) (cs : List Char) :
    skipped flags (c :: cs) = c :: cs := by
  have hdrop : (c :: cs).dropWhile isBlank = c :: cs := List.dropWhile_cons_of_neg (by simp [hblank])
  unfold skipped
  split
  · rw [List.length_cons, withoutSpace_plain _ (by simp [hdrop, hc]), hdrop]
  · rfl

theorem skipped_append (ht : Tail t) (flags : Flags) (cs : List Char) :
    skipped flags (cs ++ t) = skipped flags cs ++ t ∨
      skipped flags cs = [] ∧ skipped flags (cs ++ t) = [] := by
  unfold skipped
  split
  · exact withoutSpace_append ht (Nat.le_refl _) (by simp)
  · exact .inl rfl

theorem run_skipSpace (s : PatternState) :
    skipSpace.run s = some ((), { s with rest := skipped s.flags s.rest }) := by
  unfold skipped
  change some ((), if s.flags.spaced = true then _ else s) = _
  split <;> rfl

theorem run_skipSpace_plain (h : s.rest = c :: cs) (hblank : isBlank c = false) (hc : c ≠ '#') :
    skipSpace.run s = some ((), s) := by
  rw [run_skipSpace, h, skipped_plain hblank hc, ← h]

theorem run_bumpSpace (h : s.rest = c :: cs) :
    bumpSpace.run s = some ((), { s with rest := skipped s.flags cs }) := by
  change skipSpace.run { s with rest := s.rest.drop 1 } = _
  rw [run_skipSpace, h]
  rfl

namespace Reads

theorem skipSpace {odd : Unit → PatternState → Prop} :
    Reads head n j 0 odd skipSpace skipSpace where
  takes s _ := by
    intro a s' hrun
    rw [run_skipSpace] at hrun
    obtain ⟨⟩ := hrun
    exact ⟨skipped_suffix .., (skipped_suffix ..).length_le⟩
  agrees s _ _ t ht := by
    rw [run_skipSpace, run_skipSpace]
    change _ = some ((), _) ∨ _
    rcases skipped_append ht s.flags s.rest with hlive | ⟨hempty, hdead⟩
    · left
      simp only [PatternState.append, hlive]
    · right
      simp only [PatternState.append, hempty, hdead, and_self]

theorem bumpSpace {odd : Unit → PatternState → Prop} (c : Char) :
    Reads (some c) n j 1 odd bumpSpace bumpSpace :=
  first (bump c) fun _ => skipSpace

theorem skipBlanks {odd : Unit → PatternState → Prop} :
    Reads head n j 0 odd skipBlanks skipBlanks where
  takes s _ := by
    rintro _ _ ⟨⟩
    exact ⟨List.dropWhile_suffix _, (List.dropWhile_suffix _).length_le⟩
  agrees s _ _ t ht := by
    left
    have hblank : isBlank ')' = false := rfl
    have hdrop : (s.rest ++ t).dropWhile isBlank = s.rest.dropWhile isBlank ++ t := by
      rw [List.dropWhile_append, ht.dropWhile hblank]
      split
      · rename_i hempty
        rw [List.isEmpty_iff.mp hempty, List.nil_append]
      · rfl
    change some ((), { s with rest := (s.rest ++ t).dropWhile isBlank }) = _
    rw [hdrop]
    rfl

theorem peekSecond? {f f' : Option Char → Pattern β}
    (hf : ∀ second, Reads (some c) n j k odd' (f second) (f' second))
    (hclosing : f' (some ')') = f' none) :
    Reads (some c) n j k odd' (peekSecond? >>= f) (peekSecond? >>= f') where
  takes s hs := (hf (skipped s.flags (s.rest.drop 1)).head?).takes s hs
  agrees s hs hlength t ht := by
    obtain ⟨cs, hrest⟩ := hs c rfl
    change Agrees j odd' t ((f (skipped s.flags (s.rest.drop 1)).head?).run s)
      ((f' (skipped s.flags ((s.rest ++ t).drop 1)).head?).run (s.append t))
    have hseen : f' (skipped s.flags ((s.rest ++ t).drop 1)).head? =
        f' (skipped s.flags (s.rest.drop 1)).head? := by
      rw [hrest, List.cons_append, List.drop_one, List.drop_one, List.tail_cons, List.tail_cons]
      rcases skipped_append ht s.flags cs with hlive | ⟨hempty, hdead⟩
      · rw [hlive]
        cases skipped s.flags cs with
        | cons d ds => rfl
        | nil =>
          rcases ht.eq_nil_or_cons with rfl | ⟨u, rfl⟩
          · rfl
          · exact hclosing
      · rw [hempty, hdead]
    rw [hseen]
    exact (hf _).agrees s hs hlength t ht

theorem get {f f' : PatternState → Pattern β}
    (hf : ∀ s t, Tail t → s.rest.length ≤ (s.append t).rest.length →
      Reads head (min n (s.rest.length + 1)) j k odd' (f s) (f' (s.append t))) :
    Reads head n j k odd' (get >>= f) (get >>= f') where
  takes s hs := by
    have hsame := hf s [] .nothing (length_le_append s [])
    rw [append_nil] at hsame
    exact hsame.takes s hs
  agrees s hs hlength t ht := (hf s t ht (length_le_append s t)).agrees s hs (by omega) t ht

end Reads

theorem run_bumpIf_some {lead : String} {rest : List Char} (h : afterLead? lead.toList s.rest = some rest) :
    (bumpIf lead).run s = some (true, { s with rest }) := by
  unfold bumpIf
  rw [run_bind_some (run_get s), h]
  rfl

theorem run_bumpIf_none {lead : String} (h : afterLead? lead.toList s.rest = none) :
    (bumpIf lead).run s = some (false, s) := by
  unfold bumpIf
  rw [run_bind_some (run_get s), h]
  rfl

theorem bumpIf_runs (lead : String) (s : PatternState) :
    ∃ took s', (bumpIf lead).run s = some (took, s') := by
  cases hrest : afterLead? lead.toList s.rest with
  | none => exact ⟨_, _, run_bumpIf_none hrest⟩
  | some rest => exact ⟨_, _, run_bumpIf_some hrest⟩

/-- The tail makes no difference, and nothing or something is taken, as the answer tells. -/
structure Attempts (taken : α → Prop) (m : Pattern α) : Prop where
  append : ∀ s t, Tail t → m.run (s.append t) = (m.run s).map fun p => (p.1, p.2.append t)
  takes : ∀ s a s', m.run s = some (a, s') →
    ¬ taken a ∧ s' = s ∨ taken a ∧ s'.rest <:+ s.rest ∧ s'.rest.length < s.rest.length

theorem Reads.attempt {taken : α → Prop} (h : Attempts taken m)
    (htaken : ∀ a, taken a → Reads none (n - 1) j k odd' (f a) (f' a))
    (huntaken : ∀ a, ¬ taken a → Reads head n j k odd' (f a) (f' a)) :
    Reads head n j k odd' (m >>= f) (m >>= f') where
  takes s hs := by
    intro b s'' hboth
    obtain ⟨a, s', hm, hrun⟩ := run_bind_eq_some hboth
    obtain ⟨hnot, rfl⟩ | ⟨htook, hsuffix, hless⟩ := h.takes s a s' hm
    · exact (huntaken a hnot).takes s' hs b s'' hrun
    · obtain ⟨hsuffix', hless'⟩ := (htaken a htook).takes s' (starts_none _) b s'' hrun
      exact ⟨hsuffix'.trans hsuffix, by omega⟩
  agrees s hs hlength t ht := by
    have happend := h.append s t ht
    cases hm : m.run s with
    | none =>
      rw [hm] at happend
      rw [run_bind_none hm, run_bind_none happend]
      rintro _ _ ⟨⟩
    | some p =>
      obtain ⟨a, s'⟩ := p
      rw [hm] at happend
      rw [run_bind_some hm, run_bind_some happend]
      obtain ⟨hnot, rfl⟩ | ⟨htook, -, hless⟩ := h.takes s a s' hm
      · exact (huntaken a hnot).agrees s' hs hlength t ht
      · exact (htaken a htook).agrees s' (starts_none _) (by omega) t ht

theorem bumpIf_attempts {lead : String} (hlead : ')' ∉ lead.toList) (hne : lead.toList ≠ []) :
    Attempts (· = true) (bumpIf lead) where
  append s t ht := by
    have happend : afterLead? lead.toList (s.append t).rest =
        (afterLead? lead.toList s.rest).map (· ++ t) := afterLead?_append ht hlead s.rest
    cases hrest : afterLead? lead.toList s.rest with
    | none =>
      rw [hrest] at happend
      rw [run_bumpIf_none hrest, run_bumpIf_none happend]
      rfl
    | some rest =>
      rw [hrest] at happend
      rw [run_bumpIf_some hrest, run_bumpIf_some happend]
      rfl
  takes s took s' hrun := by
    cases hrest : afterLead? lead.toList s.rest with
    | none =>
      rw [run_bumpIf_none hrest] at hrun
      obtain ⟨⟩ := hrun
      exact .inl ⟨Bool.false_ne_true, rfl⟩
    | some rest =>
      rw [run_bumpIf_some hrest] at hrun
      obtain ⟨⟩ := hrun
      obtain ⟨hsuffix, hlength⟩ := afterLead?_takes hrest
      have hmark := List.length_pos_iff.mpr hne
      exact .inr ⟨rfl, hsuffix, by simp only; omega⟩

theorem attempts_pure {taken : α → Prop} (h : ¬ taken a) : Attempts taken (pure a : Pattern α) where
  append _ _ _ := rfl
  takes s _ _ := by
    rintro ⟨⟩
    exact .inl ⟨h, rfl⟩

theorem Attempts.orElse {taken : α → Prop} {lead : String} (hlead : ')' ∉ lead.toList)
    (hne : lead.toList ≠ []) (ha : taken a) (h : Attempts taken m) :
    Attempts taken (do if ← bumpIf lead then return a else m) where
  append s t ht := by
    obtain ⟨took, s', hrun⟩ := bumpIf_runs lead s
    have happend := (bumpIf_attempts hlead hne).append s t ht
    rw [hrun] at happend
    rw [run_bind_some hrun, run_bind_some happend]
    cases took with
    | true => rfl
    | false =>
      obtain ⟨-, rfl⟩ | ⟨⟨⟩, -⟩ := (bumpIf_attempts hlead hne).takes s _ s' hrun
      exact h.append s' t ht
  takes s b s'' hboth := by
    obtain ⟨took, s', hrun, hbranch⟩ := run_bind_eq_some hboth
    obtain ⟨hnot, rfl⟩ | ⟨rfl, htakes⟩ := (bumpIf_attempts hlead hne).takes s took s' hrun
    · rw [if_neg hnot] at hbranch
      exact h.takes s' b s'' hbranch
    · obtain ⟨⟩ := hbranch
      exact .inr ⟨ha, htakes⟩

theorem Reads.bumpIf {lead : String} {f f' : Bool → Pattern β} (hlead : ')' ∉ lead.toList)
    (hne : lead.toList ≠ []) (htrue : Reads none (n - 1) j k odd' (f true) (f' true))
    (hfalse : Reads head n j k odd' (f false) (f' false)) :
    Reads head n j k odd' (bumpIf lead >>= f) (Pattern.bumpIf lead >>= f') := by
  refine .attempt (bumpIf_attempts hlead hne) (fun took h => ?_) fun took h => ?_
  · rwa [h]
  · rwa [Bool.eq_false_iff.mpr h]

end Pattern
end Arazzo.Regex
