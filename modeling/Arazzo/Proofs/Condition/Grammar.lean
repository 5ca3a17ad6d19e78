import Arazzo.Proofs.Condition.Printed

/-! A condition that prints a tree by the usual grammar of disjunction, conjunction, negation and
parentheses is evaluated as the tree is. -/

namespace Arazzo

namespace Condition

section Parts

variable {context : Context} {mark : Char} {fuel : Nat}
  {together : List Condition → Resolving CriterionError Bool}
  {work work' : Resolving CriterionError Bool} {s t : List Char}

def Reads (context : Context) (fuel : Nat) (work : Resolving CriterionError Bool)
    (t : List Char) : Prop :=
  ∀ before after, AllBlank before → AllBlank after →
    evaluate context (ofChars fuel (before ++ t ++ after)) = work

/-- The parts of the text, evaluated together, are evaluated so; and they are the first parts of
a longer text that goes on with a gap and the marks. -/
def Splits (fuel least : Nat) (mark : Char)
    (together : List Condition → Resolving CriterionError Bool)
    (work : Resolving CriterionError Bool) (t : List Char) : Prop :=
  ∀ before after, AllBlank before → AllBlank after →
    ∃ parts, least ≤ parts.length ∧ together (parts.map (ofChars fuel)) = work ∧
      splitTop mark (before ++ t ++ after) = parts ∧
      (after ≠ [] → ∀ rest, splitTop mark (before ++ t ++ after ++ mark :: mark :: rest) =
        parts ++ splitTop mark rest)

theorem Splits.of_reads (h : Reads context fuel work t) (ht : Outlined [[mark, mark]] t)
    (hmark : IsPlain mark) (hsolid : Solid [mark, mark])
    (hone : ∀ c, together [c] = evaluate context c) : Splits fuel 1 mark together work t := by
  intro before after hbefore hafter
  obtain ⟨u, hu, hclear⟩ := ht
  have houtline := (hbefore.outline.append hu).append hafter.outline
  have hshows := hclear _ (List.mem_singleton_self _)
  refine ⟨[before ++ t ++ after], Nat.le_refl 1, ?_, ?_, fun hne rest => ?_⟩
  · rw [List.map_singleton, hone, h before after hbefore hafter]
  · exact splitTop_clear houtline hmark (hshows.padded hsolid hbefore hafter fun _ => rfl)
  · exact splitTop_mark houtline hmark
      (hshows.padded hsolid hbefore hafter fun hnil => absurd hnil hne)

theorem Splits.one {least : Nat} (h : Splits fuel (least + 1) mark together work t) :
    Splits fuel 1 mark together work t := by
  intro before after hbefore hafter
  obtain ⟨parts, hleast, hparts⟩ := h before after hbefore hafter
  exact ⟨parts, by omega, hparts⟩

theorem Splits.joined {both : Resolving CriterionError Bool}
    (hs : Splits fuel 1 mark together work s) (ht : Splits fuel 1 mark together work' t)
    (hboth : ∀ cs ds, together cs = work → together ds = work' → together (cs ++ ds) = both)
    (before after : Gap) :
    Splits fuel 2 mark together both (Formula.spaced s before [mark, mark] after t) := by
  intro front back hfront hback
  obtain ⟨ps, hps, hworks, -, hjoins⟩ := hs front before.blanks hfront before.blank
  obtain ⟨qs, hqs, hworkt, hsplit, hgoes⟩ := ht after.blanks back after.blank hback
  have hjoin := hjoins before.nonempty
  refine ⟨ps ++ qs, ?_, ?_, ?_, fun hne rest => ?_⟩
  · rw [List.length_append]
    omega
  · rw [List.map_append]
    exact hboth _ _ hworks hworkt
  · rw [← hsplit, ← hjoin]
    simp [Formula.spaced]
  · rw [List.append_assoc ps, ← hgoes hne rest, ← hjoin]
    simp [Formula.spaced]

end Parts

theorem evaluateAny_singleton (context : Context) (c : Condition) :
    evaluateAny context [c] = evaluate context c := by
  have hpure : (fun b => if b = true then pure true else evaluateAny context []) =
      (pure : Bool → Resolving CriterionError Bool) := by
    funext b
    cases b <;> rfl
  rw [evaluateAny, hpure, bind_pure]

theorem evaluateAll_singleton (context : Context) (c : Condition) :
    evaluateAll context [c] = evaluate context c := by
  have hpure : (fun b => if b = true then evaluateAll context [] else pure false) =
      (pure : Bool → Resolving CriterionError Bool) := by
    funext b
    cases b <;> rfl
  rw [evaluateAll, hpure, bind_pure]

theorem evaluateAny_append (context : Context) (cs ds : List Condition) :
    evaluateAny context (cs ++ ds) = (do
      if ← evaluateAny context cs then return true else evaluateAny context ds) := by
  induction cs with
  | nil => simp [evaluateAny]
  | cons c cs ih =>
    rw [List.cons_append, evaluateAny, evaluateAny, ih, bind_assoc]
    refine bind_congr fun b => ?_
    cases b <;> simp

theorem evaluateAll_append (context : Context) (cs ds : List Condition) :
    evaluateAll context (cs ++ ds) = (do
      if ← evaluateAll context cs then evaluateAll context ds else return false) := by
  induction cs with
  | nil => simp [evaluateAll]
  | cons c cs ih =>
    rw [List.cons_append, evaluateAll, evaluateAll, ih, bind_assoc]
    refine bind_congr fun b => ?_
    cases b <;> simp

section Level

variable {context : Context} {fuel : Nat} {work : Resolving CriterionError Bool}
  {t : List Char}

theorem reads_any (ht : Trimmed t)
    (h : Splits fuel 2 '|' (evaluateAny context) work t) : Reads context (fuel + 1) work t := by
  intro before after hbefore hafter
  obtain ⟨parts, hmany, hwork, hsplit, -⟩ := h [] [] .nil .nil
  obtain ⟨p, q, rest, rfl⟩ := many_eq hmany
  rw [List.nil_append, List.append_nil] at hsplit
  have hread : ofChars (fuel + 1) (before ++ t ++ after) =
      .any ((p :: q :: rest).map (ofChars fuel)) := by
    rw [ofChars, ht.trimChars hbefore hafter]
    simp [ht.nonempty, hsplit]
  rw [hread, evaluate, hwork]

theorem reads_all (ht : Trimmed t) (hone : splitTop '|' t = [t])
    (h : Splits fuel 2 '&' (evaluateAll context) work t) : Reads context (fuel + 1) work t := by
  intro before after hbefore hafter
  obtain ⟨parts, hmany, hwork, hsplit, -⟩ := h [] [] .nil .nil
  obtain ⟨p, q, rest, rfl⟩ := many_eq hmany
  rw [List.nil_append, List.append_nil] at hsplit
  have hread : ofChars (fuel + 1) (before ++ t ++ after) =
      .all ((p :: q :: rest).map (ofChars fuel)) := by
    rw [ofChars, ht.trimChars hbefore hafter]
    simp [ht.nonempty, hone, hsplit]
  rw [hread, evaluate, hwork]

theorem splitTop_outlined {mark : Char} (h : Outlined [[mark, mark]] t) (hmark : IsPlain mark) :
    splitTop mark t = [t] := by
  obtain ⟨u, hu, hclear⟩ := h
  exact splitTop_clear hu hmark (hclear _ (List.mem_singleton_self _))

theorem reads_single (ht : Shape .unary t)
    (h : evaluate context (ofChars.single fuel t) = work) : Reads context (fuel + 1) work t := by
  intro before after hbefore hafter
  have hany : splitTop '|' t = [t] :=
    splitTop_outlined (ht.outlined.mono (by decide)) (by decide)
  have hall : splitTop '&' t = [t] :=
    splitTop_outlined (ht.outlined.mono (by decide)) (by decide)
  rw [ofChars, ht.trimChars hbefore hafter]
  simp [ht.nonempty, hany, hall, h]

theorem negated?_eq_none (h : ∀ c ∈ t.head?, c ≠ '!') : ofChars.negated? t = none := by
  cases t with
  | nil => rfl
  | cons c t =>
    have hc := h c rfl
    simp [ofChars.negated?, hc]

theorem single_not (h : ∀ c ∈ t.head?, c ≠ '=') :
    ofChars.single fuel ('!' :: t) = .not (ofChars fuel t) := by
  have hnegated : ofChars.negated? ('!' :: t) = some t := by
    cases t with
    | nil => rfl
    | cons c t =>
      have hc := h c rfl
      simp [ofChars.negated?, hc]
  rw [ofChars.single, hnegated]

theorem single_parens {u : List Char} (h : Outline t u) :
    ofChars.single fuel ('(' :: (t ++ [')'])) = ofChars fuel t := by
  rw [ofChars.single, negated?_eq_none (by simp), insideParens?_group h]

theorem single_holds (hstart : ∀ c ∈ t.head?, c ≠ '!' ∧ c ≠ '(') (hcut : cut? t = none) :
    ofChars.single fuel t = .holds (String.ofList t) := by
  have hparens : t.head? ≠ some '(' := fun heq => (hstart _ heq).2 rfl
  simp only [ofChars.single, negated?_eq_none fun c hc => (hstart c hc).1,
    insideParens?_eq_none hparens, hcut]

theorem single_compare {l r : List Char} {op : Operator}
    (hstart : ∀ c ∈ t.head?, c ≠ '!' ∧ c ≠ '(') (hcut : cut? t = some (l, op, r)) :
    ofChars.single fuel t =
      .compare (String.ofList t) (String.ofList l) op (String.ofList r) := by
  have hparens : t.head? ≠ some '(' := fun heq => (hstart _ heq).2 rfl
  simp only [ofChars.single, negated?_eq_none fun c hc => (hstart c hc).1,
    insideParens?_eq_none hparens, hcut]

end Level

theorem cut?_eq_none {t : List Char} (h : Outlined dividers t) : cut? t = none := by
  obtain ⟨u, hu, hclear⟩ := h
  refine List.findSome?_eq_none_iff.2 fun op _ => ?_
  have hmem : op.text.toList ∈ dividers := by cases op <;> decide
  rw [cutFrom_eq_none hu (hclear _ hmem), Option.map_none]

theorem exists_earlier (op : Operator) : ∃ earlier later, Operator.all = earlier ++ op :: later ∧
    ∀ e ∈ earlier, Clear e.text.toList [] op.text.toList := by
  cases op with
  | eq => exact ⟨[], _, rfl, by decide⟩
  | ne => exact ⟨[.eq], _, rfl, by decide⟩
  | le => exact ⟨[.eq, .ne], _, rfl, by decide⟩
  | ge => exact ⟨[.eq, .ne, .le], _, rfl, by decide⟩
  | lt => exact ⟨[.eq, .ne, .le, .ge], _, rfl, by decide⟩
  | gt => exact ⟨[.eq, .ne, .le, .ge, .lt], _, rfl, by decide⟩

theorem cut?_spaced {l r : List Char} (hl : Outlined dividers l) (hr : Outlined dividers r)
    (before after : Gap) (op : Operator) :
    cut? (Formula.spaced l before op.text.toList after r) =
      some (l ++ before.blanks, op, after.blanks ++ r) := by
  obtain ⟨earlier, later, hall, hearlier⟩ := exists_earlier op
  have hdivider : ∀ op : Operator, op.text.toList ∈ dividers := by
    intro op
    cases op <;> decide
  have hplain : AllPlain op.text.toList := by cases op <;> decide
  have hnone : ∀ e ∈ earlier, (cutFrom e {} (Formula.spaced l before op.text.toList after r)).map
      (fun parts => (parts.1, e, parts.2)) = none := by
    intro e he
    have hclear : ∀ p ∈ [e.text.toList], Solid p ∧ Clear p [] op.text.toList := by
      intro p hp
      rw [List.mem_singleton.1 hp]
      exact ⟨solid_of_mem_dividers _ (hdivider e), hearlier e he⟩
    have hsub : [e.text.toList] ⊆ dividers := by simpa using hdivider e
    obtain ⟨u, hu, hclearu⟩ :=
      (hl.mono hsub).spaced (hr.mono hsub) hplain hclear before after
    rw [cutFrom_eq_none hu (hclearu _ (List.mem_singleton_self _)), Option.map_none]
  have hcut : cutFrom op {} (Formula.spaced l before op.text.toList after r) =
      some (l ++ before.blanks, after.blanks ++ r) := by
    obtain ⟨u, hu, hclearu⟩ := hl
    have hsolid := solid_of_mem_dividers _ (hdivider op)
    refine cutFrom_operator (hu.append before.blank.outline)
      ((hclearu _ (hdivider op)).gap_after hsolid before) ?_
    rw [List.head?_append_of_ne_nil _ after.nonempty]
    intro heq
    exact absurd (after.blank _ (List.mem_of_mem_head? heq)) (by decide)
  rw [cut?, hall, List.findSome?_append, List.findSome?_eq_none_iff.2 hnone, List.findSome?_cons,
    hcut]
  rfl

theorem operand_padded {t before after : List Char} (context : Context) (ht : Trimmed t)
    (hbefore : AllBlank before) (hafter : AllBlank after) :
    operand context (String.ofList (before ++ t ++ after)) =
      operand context (String.ofList t) := by
  have hpadded : Text.trim (String.ofList (before ++ t ++ after)) = String.ofList t := by
    rw [Text.trim, String.toList_ofList, ht.trimChars hbefore hafter]
  have hbare : Text.trim (String.ofList t) = String.ofList t := by
    have htrim := ht.trimChars .nil .nil
    rw [List.nil_append, List.append_nil] at htrim
    rw [Text.trim, String.toList_ofList, htrim]
  rw [operand, operand, hpadded, hbare]

theorem Splits.and {context : Context} {f g : Formula} {fuel : Nat} {s t : List Char}
    (hf : Splits fuel 1 '&' (evaluateAll context) (f.evaluate context) s)
    (hg : Splits fuel 1 '&' (evaluateAll context) (g.evaluate context) t) (before after : Gap) :
    Splits fuel 2 '&' (evaluateAll context) ((Formula.and f g).evaluate context)
      (Formula.spaced s before ['&', '&'] after t) := by
  refine .joined hf hg ?_ before after
  rintro cs ds hcs hds
  rw [evaluateAll_append, hcs, hds]
  rfl

theorem Splits.or {context : Context} {f g : Formula} {fuel : Nat} {s t : List Char}
    (hf : Splits fuel 1 '|' (evaluateAny context) (f.evaluate context) s)
    (hg : Splits fuel 1 '|' (evaluateAny context) (g.evaluate context) t) (before after : Gap) :
    Splits fuel 2 '|' (evaluateAny context) ((Formula.or f g).evaluate context)
      (Formula.spaced s before ['|', '|'] after t) := by
  refine .joined hf hg ?_ before after
  rintro cs ds hcs hds
  rw [evaluateAny_append, hcs, hds]
  rfl

structure Understood (context : Context) (binding : Binding) (f : Formula) (t : List Char) : Prop
    where
  reads : ∀ fuel, t.length < fuel → Reads context fuel (f.evaluate context) t
  any : ∀ fuel, t.length < fuel →
    Splits fuel 1 '|' (evaluateAny context) (f.evaluate context) t
  all : ∀ fuel, t.length < fuel → binding ≠ .disjunction →
    Splits fuel 1 '&' (evaluateAll context) (f.evaluate context) t

theorem understood_unary {context : Context} {f : Formula} {t : List Char} (ht : Shape .unary t)
    (h : ∀ fuel, t.length ≤ fuel →
      evaluate context (ofChars.single fuel t) = f.evaluate context) :
    Understood context .unary f t := by
  have hreads : ∀ fuel, t.length < fuel → Reads context fuel (f.evaluate context) t := by
    intro fuel hfuel
    obtain ⟨fuel, rfl⟩ := Nat.exists_eq_succ_of_ne_zero (Nat.ne_zero_of_lt hfuel)
    exact reads_single ht (h fuel (by omega))
  refine ⟨hreads, fun fuel hfuel => ?_, fun fuel hfuel _ => ?_⟩
  · exact .of_reads (hreads fuel hfuel) (ht.outlined.mono (by decide)) (by decide) (by decide)
      (evaluateAny_singleton context)
  · exact .of_reads (hreads fuel hfuel) (ht.outlined.mono (by decide)) (by decide) (by decide)
      (evaluateAll_singleton context)

theorem understood (context : Context) {binding : Binding} {f : Formula} {t : List Char}
    (h : Prints binding f t) : Understood context binding f t := by
  induction h with
  | holds o =>
    refine understood_unary (.operand o) fun fuel _ => ?_
    have hstart := fun c hc => (o.first c hc).2
    rw [single_holds (fun c hc => ⟨(hstart c hc).1, (hstart c hc).2.2⟩) (cut?_eq_none o.outlined)]
    rfl
  | compare left before op after right =>
    have hshape := Prints.shape (.compare left before op after right)
    have hstart : ∀ c ∈ (Formula.spaced left.text before op.text.toList after right.text).head?,
        c ≠ '!' ∧ c ≠ '(' := by
      rw [Formula.spaced, List.append_assoc, List.head?_append_of_ne_nil _ left.nonempty]
      exact fun c hc => ⟨(left.first c hc).2.1, (left.first c hc).2.2.2⟩
    refine understood_unary hshape fun fuel _ => ?_
    have hleft := operand_padded context left.trimmed .nil before.blank
    have hright := operand_padded context right.trimmed after.blank .nil
    rw [List.nil_append] at hleft
    rw [List.append_nil] at hright
    rw [single_compare hstart (cut?_spaced left.outlined right.outlined before after op),
      evaluate, hleft, hright]
    rfl
  | @not f t blanks hblanks h ih =>
    refine understood_unary (h.shape.not hblanks) fun fuel hfuel => ?_
    -- With an equals sign behind it the mark would be read as the operator `!=`.
    have hne : ∀ c ∈ (blanks ++ t).head?, c ≠ '=' := by
      cases blanks with
      | nil => exact h.shape.ne_equals
      | cons b blanks =>
        rintro c hc rfl
        cases hc
        exact absurd (hblanks '=' (List.mem_cons_self ..)) (by decide)
    have hreads := ih.reads fuel (by simp at hfuel; omega) blanks [] hblanks .nil
    rw [List.append_nil] at hreads
    rw [single_not hne, evaluate, hreads]
    rfl
  | @parens f t before after hbefore hafter h ih =>
    refine understood_unary (Prints.shape (.parens hbefore hafter h)) fun fuel hfuel => ?_
    obtain ⟨u, hu, -⟩ := h.shape.outlined
    rw [single_parens ((hbefore.outline.append hu).append hafter.outline)]
    exact ih.reads fuel (by simp at hfuel; omega) before after hbefore hafter
  | factor h ih => exact ⟨ih.reads, ih.any, fun fuel hfuel _ => ih.all fuel hfuel (by decide)⟩
  | @and f g s t before after hf hg ihf ihg =>
    have hshape := Prints.shape (.and before after hf hg)
    -- At the outer level nothing is cut, so that the text is read once more at its `&&`.
    have hjoined : ∀ fuel, s.length < fuel → t.length < fuel → Splits fuel 2 '&'
        (evaluateAll context) ((Formula.and f g).evaluate context)
        (Formula.spaced s before ['&', '&'] after t) := fun fuel hs ht =>
      .and (ihf.all fuel hs (by decide)) (ihg.all fuel ht (by decide)) before after
    have hreads : ∀ fuel, (Formula.spaced s before ['&', '&'] after t).length < fuel →
        Reads context fuel ((Formula.and f g).evaluate context)
          (Formula.spaced s before ['&', '&'] after t) := by
      intro fuel hfuel
      obtain ⟨fuel, rfl⟩ := Nat.exists_eq_succ_of_ne_zero (Nat.ne_zero_of_lt hfuel)
      simp only [Formula.length_spaced, List.length_cons] at hfuel
      exact reads_all hshape.toTrimmed (splitTop_outlined hshape.outlined (by decide))
        (hjoined fuel (by omega) (by omega))
    refine ⟨hreads, fun fuel hfuel => ?_, fun fuel hfuel _ => ?_⟩
    · exact .of_reads (hreads fuel hfuel) hshape.outlined (by decide) (by decide)
        (evaluateAny_singleton context)
    · simp only [Formula.length_spaced] at hfuel
      exact (hjoined fuel (by omega) (by omega)).one
  | term h ih => exact ⟨ih.reads, ih.any, fun _ _ hne => absurd rfl hne⟩
  | @or f g s t before after hf hg ihf ihg =>
    have hshape := Prints.shape (.or before after hf hg)
    have hjoined : ∀ fuel, s.length < fuel → t.length < fuel → Splits fuel 2 '|'
        (evaluateAny context) ((Formula.or f g).evaluate context)
        (Formula.spaced s before ['|', '|'] after t) := fun fuel hs ht =>
      .or (ihf.any fuel hs) (ihg.any fuel ht) before after
    refine ⟨fun fuel hfuel => ?_, fun fuel hfuel => ?_, fun _ _ hne => absurd rfl hne⟩
    · obtain ⟨fuel, rfl⟩ := Nat.exists_eq_succ_of_ne_zero (Nat.ne_zero_of_lt hfuel)
      simp only [Formula.length_spaced, List.length_cons] at hfuel
      exact reads_any hshape.toTrimmed (hjoined fuel (by omega) (by omega))
    · simp only [Formula.length_spaced] at hfuel
      exact (hjoined fuel (by omega) (by omega)).one

/-- A printed formula is evaluated by its tree, errors and what is resolved on the way included. -/
theorem evaluate_parse_printed {f : Formula} {t before after : List Char}
    (h : Prints .disjunction f t) (hbefore : AllBlank before) (hafter : AllBlank after)
    (context : Context) :
    evaluate context (parse (String.ofList (before ++ t ++ after))) = f.evaluate context := by
  rw [parse, String.toList_ofList]
  refine (understood context h).reads _ ?_ before after hbefore hafter
  simp
  omega

end Condition

def Gap.space : Gap := ⟨[' '], by decide, by decide⟩

def Operand.quotedBars : Operand where
  text := '\'' :: (['a', '|', '|'] ++ ['\''])
  nonempty := by decide
  first := by simp [Text.isBlank]
  last := by simp [Text.isBlank]
  closed := ⟨['\''], .quoted (.inr rfl) (by decide) .nil, by decide⟩

def Operand.letter : Operand where
  text := ['c']
  nonempty := by decide
  first := by simp [Text.isBlank]
  last := by simp [Text.isBlank]
  closed := ⟨['c'], .plain (by decide) .nil, by decide⟩

theorem Condition.evaluate_parse_negated :
    evaluate { workflowId := "w", inputs := .null } (parse "!('a||' == c)") =
      (Formula.not (.compare .quotedBars .space .eq .space .letter)).evaluate
        { workflowId := "w", inputs := .null } := by
  have hprints : Prints .unary (.compare .quotedBars .space .eq .space .letter)
      ['\'', 'a', '|', '|', '\'', ' ', '=', '=', ' ', 'c'] := .compare ..
  have hnegated : Prints .unary (.not (.compare .quotedBars .space .eq .space .letter))
      "!('a||' == c)".toList :=
    .not .nil (.parens .nil .nil (.term (.factor hprints)))
  have heval := evaluate_parse_printed (.term (.factor hnegated)) .nil .nil
    { workflowId := "w", inputs := .null }
  rwa [List.nil_append, List.append_nil, String.ofList_toList] at heval

end Arazzo
