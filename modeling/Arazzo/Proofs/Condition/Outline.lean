import Arazzo.Condition

/-! What is left of a text without the insides of its quotes and brackets, and how cutting a text
at marks and operators goes by that outline. -/

namespace Arazzo

def IsQuote (c : Char) : Prop := c = '"' ∨ c = '\''

def IsOpener (c : Char) : Prop := c = '(' ∨ c = '['

def IsCloser (c : Char) : Prop := c = ')' ∨ c = ']'

def IsPlain (c : Char) : Prop := ¬ IsQuote c ∧ ¬ IsOpener c ∧ ¬ IsCloser c

instance : DecidablePred IsQuote := fun c => inferInstanceAs (Decidable (c = '"' ∨ c = '\''))

instance : DecidablePred IsOpener := fun c => inferInstanceAs (Decidable (c = '(' ∨ c = '['))

instance : DecidablePred IsCloser := fun c => inferInstanceAs (Decidable (c = ')' ∨ c = ']'))

instance : DecidablePred IsPlain := fun c =>
  inferInstanceAs (Decidable (¬ IsQuote c ∧ ¬ IsOpener c ∧ ¬ IsCloser c))

def AllPlain (cs : List Char) : Prop := ∀ c ∈ cs, IsPlain c

instance : DecidablePred AllPlain := List.decidableBAll IsPlain

/-- The text has all quotes and brackets closed. Of what one of them encloses, together with its
end, nothing is left in the outline, which keeps the character that begins it. -/
inductive Outline : List Char → List Char → Prop where
  | nil : Outline [] []
  | plain {c : Char} {text outline : List Char} (hc : IsPlain c) (rest : Outline text outline) :
    Outline (c :: text) (c :: outline)
  | quoted {q : Char} {body text outline : List Char} (hq : IsQuote q) (hbody : q ∉ body)
    (rest : Outline text outline) : Outline (q :: (body ++ q :: text)) (q :: outline)
  | group {o c : Char} {inner within text outline : List Char} (ho : IsOpener o)
    (hc : IsCloser c) (enclosed : Outline inner within) (rest : Outline text outline) :
    Outline (o :: (inner ++ c :: text)) (o :: outline)

namespace Outline

variable {s t u v p rest : List Char}

theorem append (hs : Outline s u) (ht : Outline t v) : Outline (s ++ t) (u ++ v) := by
  induction hs with
  | nil => exact ht
  | plain hc _ ih => exact .plain hc ih
  | quoted hq hbody _ ih => simpa using Outline.quoted hq hbody ih
  | group ho hc enclosed _ _ ih => simpa using Outline.group ho hc enclosed ih

theorem of_plain (h : AllPlain t) : Outline t t := by
  induction t with
  | nil => exact .nil
  | cons c t ih =>
    exact .plain (h c (List.mem_cons_self ..)) (ih fun d hd => h d (List.mem_cons_of_mem _ hd))

theorem prefix_iff (h : Outline t u) (hp : AllPlain p) :
    p <+: t ++ rest ↔ p <+: u ++ rest := by
  induction h generalizing p with
  | nil => exact Iff.rfl
  | @plain c text outline _ _ ih =>
    cases p with
    | nil => simp
    | cons d p =>
      have htail := ih fun x hx => hp x (List.mem_cons_of_mem _ hx)
      simp only [List.cons_append, List.cons_prefix_cons, htail]
  | @quoted q body text outline hq =>
    cases p with
    | nil => simp
    | cons d p =>
      have hne : d ≠ q := fun heq => (hp d (List.mem_cons_self ..)).1 (heq ▸ hq)
      simp [List.cons_prefix_cons, hne]
  | @group o c inner within text outline ho =>
    cases p with
    | nil => simp
    | cons d p =>
      have hne : d ≠ o := fun heq => (hp d (List.mem_cons_self ..)).2.1 (heq ▸ ho)
      simp [List.cons_prefix_cons, hne]

end Outline

/-- The pattern starts nowhere in the outline, whatever it would run on into. -/
def Clear (p rest : List Char) : List Char → Prop
  | [] => True
  | c :: outline => ¬ p <+: c :: outline ++ rest ∧ Clear p rest outline

instance Clear.decidable (p rest : List Char) : ∀ outline, Decidable (Clear p rest outline)
  | [] => .isTrue trivial
  | c :: outline =>
    have := Clear.decidable p rest outline
    inferInstanceAs (Decidable (¬ p <+: c :: outline ++ rest ∧ Clear p rest outline))

namespace Clear

variable {p rest s t : List Char} {b : Char}

theorem append : Clear p rest (s ++ t) ↔ Clear p (t ++ rest) s ∧ Clear p rest t := by
  induction s with
  | nil => simp [Clear]
  | cons c s ih => simp only [List.cons_append, Clear, ih, List.append_assoc, and_assoc]

theorem of_nowhere (h : ¬ p <:+: t) : Clear p [] t := by
  induction t with
  | nil => trivial
  | cons c t ih =>
    refine ⟨fun hp => h ?_, ih fun hp => h (List.infix_cons hp)⟩
    simpa using List.IsPrefix.isInfix hp

theorem prefix_of_prefix_append (hb : b ∉ p) (h : p <+: s ++ b :: rest) : p <+: s := by
  induction s generalizing p with
  | nil =>
    cases p with
    | nil => exact List.prefix_rfl
    | cons c p =>
      rw [List.nil_append, List.cons_prefix_cons] at h
      exact absurd (h.1 ▸ List.mem_cons_self ..) hb
  | cons d s ih =>
    cases p with
    | nil => exact List.nil_prefix
    | cons c p =>
      rw [List.cons_append, List.cons_prefix_cons] at h
      rw [List.cons_prefix_cons]
      exact ⟨h.1, ih (fun hmem => hb (List.mem_cons_of_mem _ hmem)) h.2⟩

theorem before (h : Clear p [] t) (hb : b ∉ p) : Clear p (b :: rest) t := by
  induction t with
  | nil => trivial
  | cons c t ih =>
    refine ⟨fun hp => h.1 ?_, ih h.2⟩
    simpa using prefix_of_prefix_append hb hp

theorem of_head (h : ∀ c ∈ t, ∀ x ∈ p.head?, x ≠ c) (hp : p ≠ []) : Clear p rest t := by
  induction t with
  | nil => trivial
  | cons c t ih =>
    refine ⟨fun hprefix => ?_, ih fun d hd => h d (List.mem_cons_of_mem _ hd)⟩
    cases p with
    | nil => exact hp rfl
    | cons x p =>
      rw [List.cons_append, List.cons_prefix_cons] at hprefix
      exact h c (List.mem_cons_self ..) x rfl hprefix.1

end Clear

namespace Nesting

/-- The text leads from one state to another, and no character of it is read at the top. -/
inductive Hidden : Nesting → List Char → Nesting → Prop where
  | nil {n : Nesting} : Hidden n [] n
  | cons {n n' : Nesting} {c : Char} {text : List Char} (hn : n.atTop = false)
    (rest : Hidden (n.feed c) text n') : Hidden n (c :: text) n'

variable {n n' n'' : Nesting} {s t u : List Char} {c q : Char} {d : Int}

theorem feed_plain (hc : IsPlain c) : (Nesting.mk none d).feed c = ⟨none, d⟩ := by
  obtain ⟨hq, ho, hl⟩ := hc
  simp only [IsQuote, IsOpener, IsCloser] at hq ho hl
  simp only [feed, hq, ho, hl, if_false]

theorem feed_quote (hq : IsQuote q) : (Nesting.mk none d).feed q = ⟨some q, d⟩ := by
  simp only [IsQuote] at hq
  simp only [feed, hq, if_true]

theorem feed_within (hc : c ≠ q) : (Nesting.mk (some q) d).feed c = ⟨some q, d⟩ := by
  simp only [feed, hc, if_false]

theorem feed_unquote : (Nesting.mk (some q) d).feed q = ⟨none, d⟩ := by
  simp only [feed, if_true]

theorem feed_opener (ho : IsOpener c) : (Nesting.mk none d).feed c = ⟨none, d + 1⟩ := by
  rcases ho with rfl | rfl <;> rfl

theorem feed_closer (hc : IsCloser c) : (Nesting.mk none d).feed c = ⟨none, d - 1⟩ := by
  rcases hc with rfl | rfl <;> rfl

theorem atTop_zero : (Nesting.mk none 0).atTop = true := rfl

theorem atTop_deep (hd : 0 < d) : (Nesting.mk none d).atTop = false := by
  have hne : d ≠ 0 := by omega
  simp [atTop, hne]

namespace Hidden

theorem append (hs : Hidden n s n') (ht : Hidden n' t n'') : Hidden n (s ++ t) n'' := by
  induction hs with
  | nil => exact ht
  | cons hn _ ih => exact .cons hn (ih ht)

theorem atTop_eq_false (h : Hidden n t n') (hn' : n'.atTop = false) : n.atTop = false := by
  cases h with
  | nil => exact hn'
  | cons hn _ => exact hn

theorem quoted (hbody : q ∉ s) : Hidden ⟨some q, d⟩ (s ++ [q]) ⟨none, d⟩ := by
  induction s with
  | nil => exact .cons rfl (by rw [feed_unquote]; exact .nil)
  | cons c s ih =>
    have hc : c ≠ q := fun heq => hbody (heq ▸ List.mem_cons_self ..)
    refine .cons rfl ?_
    rw [feed_within hc]
    exact ih fun hmem => hbody (List.mem_cons_of_mem _ hmem)

/-- Inside brackets, closed text leads back to where it began. -/
theorem closed (h : Outline t u) (hd : 0 < d) : Hidden ⟨none, d⟩ t ⟨none, d⟩ := by
  induction h generalizing d with
  | nil => exact .nil
  | plain hc _ ih =>
    refine .cons (atTop_deep hd) ?_
    rw [feed_plain hc]
    exact ih hd
  | @quoted q body text outline hq hbody _ ih =>
    refine .cons (atTop_deep hd) ?_
    rw [feed_quote hq]
    simpa using (quoted hbody).append (ih hd)
  | @group o c inner within text outline ho hc _ _ ihInner ihRest =>
    refine .cons (atTop_deep hd) ?_
    rw [feed_opener ho]
    refine (ihInner (by omega : 0 < d + 1)).append (.cons (atTop_deep (by omega)) ?_)
    rw [feed_closer hc, Int.add_sub_cancel]
    exact ihRest hd

theorem group (h : Outline t u) (hc : IsCloser c) :
    Hidden ⟨none, 1⟩ (t ++ [c]) ⟨none, 0⟩ := by
  refine (closed h (by decide)).append (.cons rfl ?_)
  rw [feed_closer hc]
  exact .nil

end Hidden
end Nesting

/-- At the top, closed text is a sequence of characters, each with what it hides. -/
theorem Outline.induct_top {motive : ∀ t u, Outline t u → Prop} (nil : motive [] [] .nil)
    (cons : ∀ c hidden text outline, Nesting.Hidden (Nesting.feed {} c) hidden {} →
      ∀ (rest : Outline text outline) (h : Outline (c :: (hidden ++ text)) (c :: outline)),
      motive text outline rest → motive (c :: (hidden ++ text)) (c :: outline) h)
    {t u : List Char} (h : Outline t u) : motive t u h := by
  induction h with
  | nil => exact nil
  | @plain c text outline hc rest ih =>
    refine cons c [] text outline ?_ rest (.plain hc rest) ih
    rw [Nesting.feed_plain hc]
    exact .nil
  | @quoted q body text outline hq hbody rest ih =>
    have hhidden := cons q (body ++ [q]) text outline
    simp only [List.append_assoc, List.singleton_append] at hhidden
    refine hhidden ?_ rest (.quoted hq hbody rest) ih
    rw [Nesting.feed_quote hq]
    exact .quoted hbody
  | @group o c inner within text outline ho hc enclosed rest _ ih =>
    have hhidden := cons o (inner ++ [c]) text outline
    simp only [List.append_assoc, List.singleton_append] at hhidden
    refine hhidden ?_ rest (.group ho hc enclosed rest) ih
    rw [Nesting.feed_opener ho]
    exact .group enclosed hc

/-! Cutting closed text -/

namespace Condition

open Nesting (Hidden)

variable {mark : Char} {op : Operator} {n n' : Nesting} {t u rest : List Char} {c : Char}

def prependFirst (t : List Char) (parts : List (List Char)) : List (List Char) :=
  t.foldr extendFirst parts

theorem prependFirst_append (s t : List Char) (parts : List (List Char)) :
    prependFirst (s ++ t) parts = prependFirst s (prependFirst t parts) :=
  List.foldr_append ..

theorem prependFirst_cons (t part : List Char) (parts : List (List Char)) :
    prependFirst t (part :: parts) = (t ++ part) :: parts := by
  induction t with
  | nil => rfl
  | cons c t ih => rw [prependFirst, List.foldr_cons, ← prependFirst, ih]; rfl

theorem many_eq {parts : List (List Char)} (h : 2 ≤ parts.length) :
    ∃ p q rest, parts = p :: q :: rest := by
  rcases parts with _ | ⟨p, _ | ⟨q, rest⟩⟩
  · simp at h
  · simp at h
  · exact ⟨p, q, rest, rfl⟩

theorem splitFrom_step (h : n.atTop = true → ¬ [mark, mark] <+: c :: rest) :
    splitFrom mark n (c :: rest) = extendFirst c (splitFrom mark (n.feed c) rest) := by
  cases rest with
  | nil => rfl
  | cons d rest =>
    have hno : ¬ (n.atTop = true ∧ c = mark ∧ d = mark) := by
      rintro ⟨hn, rfl, rfl⟩
      exact h hn ⟨rest, rfl⟩
    simp only [splitFrom, hno, if_false]

theorem splitFrom_hidden (h : Hidden n t n') :
    splitFrom mark n (t ++ rest) = prependFirst t (splitFrom mark n' rest) := by
  induction h with
  | nil => rfl
  | cons hn _ ih =>
    rw [List.cons_append, splitFrom_step fun htop => absurd htop (by simp [hn]), ih]
    rfl

theorem splitFrom_clear (h : Outline t u) (hmark : IsPlain mark)
    (hclear : Clear [mark, mark] rest u) :
    splitFrom mark {} (t ++ rest) = prependFirst t (splitFrom mark {} rest) := by
  have hmarks : AllPlain [mark, mark] := by simp [AllPlain, hmark]
  induction h using Outline.induct_top with
  | nil => rfl
  | cons c hidden text outline hhidden _ h ih =>
    have hno := mt (h.prefix_iff hmarks).1 hclear.1
    rw [List.cons_append] at hno ⊢
    rw [splitFrom_step fun _ => hno, List.append_assoc, splitFrom_hidden hhidden, ih hclear.2,
      ← prependFirst_append]
    rfl

theorem splitTop_clear (h : Outline t u) (hmark : IsPlain mark)
    (hclear : Clear [mark, mark] [] u) : splitTop mark t = [t] := by
  have hsplit := splitFrom_clear h hmark hclear
  rw [List.append_nil, splitFrom, prependFirst_cons, List.append_nil] at hsplit
  exact hsplit

theorem splitTop_mark (h : Outline t u) (hmark : IsPlain mark)
    (hclear : Clear [mark, mark] (mark :: mark :: rest) u) :
    splitTop mark (t ++ mark :: mark :: rest) = t :: splitTop mark rest := by
  have hhit : splitFrom mark {} (mark :: mark :: rest) = [] :: splitFrom mark {} rest := by
    simp only [splitFrom, Nesting.atTop_zero, and_self, if_true]
  rw [splitTop, splitFrom_clear h hmark hclear, hhit, prependFirst_cons, List.append_nil]
  rfl

theorem afterLead?_eq_none {lead cs : List Char} (h : ¬ lead <+: cs) :
    Text.afterLead? lead cs = none := by
  fun_induction Text.afterLead? lead cs with
  | case1 => exact absurd List.nil_prefix h
  | case2 => rfl
  | case3 l lead cs ih => exact ih fun hp => h (List.cons_prefix_cons.2 ⟨rfl, hp⟩)
  | case4 => rfl

theorem afterLead?_append (lead cs : List Char) :
    Text.afterLead? lead (lead ++ cs) = some cs := by
  induction lead with
  | nil => cases cs <;> rfl
  | cons l lead ih => simpa only [List.cons_append, Text.afterLead?, if_true] using ih

theorem startsWithOperator_eq_none {cs : List Char} (h : ¬ op.text.toList <+: cs) :
    startsWithOperator op cs = none := by
  rw [startsWithOperator, afterLead?_eq_none h]
  split <;> simp_all

theorem startsWithOperator_append (h : rest.head? ≠ some '=') :
    startsWithOperator op (op.text.toList ++ rest) = some rest := by
  rw [startsWithOperator, afterLead?_append]
  split
  · next heq => cases heq; exact absurd rfl h
  · rfl

theorem cutFrom_step (h : n.atTop = true → ¬ op.text.toList <+: c :: rest) :
    cutFrom op n (c :: rest) =
      (cutFrom op (n.feed c) rest).map fun (before, after) => (c :: before, after) := by
  have hnone : (if n.atTop then startsWithOperator op (c :: rest) else none) = none := by
    split
    · exact startsWithOperator_eq_none (h ‹_›)
    · rfl
  rw [cutFrom, hnone]

theorem cutFrom_hidden (h : Hidden n t n') :
    cutFrom op n (t ++ rest) =
      (cutFrom op n' rest).map fun (before, after) => (t ++ before, after) := by
  induction h with
  | nil => simp
  | cons hn _ ih =>
    rw [List.cons_append, cutFrom_step fun htop => absurd htop (by simp [hn]), ih, Option.map_map]
    rfl

theorem cutFrom_clear (h : Outline t u) (hclear : Clear op.text.toList rest u) :
    cutFrom op {} (t ++ rest) =
      (cutFrom op {} rest).map fun (before, after) => (t ++ before, after) := by
  have hplain : AllPlain op.text.toList := by cases op <;> decide
  induction h using Outline.induct_top with
  | nil => simp
  | cons c hidden text outline hhidden _ h ih =>
    have hno := mt (h.prefix_iff hplain).1 hclear.1
    rw [List.cons_append] at hno ⊢
    rw [cutFrom_step fun _ => hno, List.append_assoc, cutFrom_hidden hhidden, ih hclear.2,
      Option.map_map, Option.map_map]
    simp only [Function.comp_def, List.append_assoc, List.cons_append]

theorem cutFrom_eq_none (h : Outline t u) (hclear : Clear op.text.toList [] u) :
    cutFrom op {} t = none := by
  simpa [cutFrom] using cutFrom_clear h hclear

theorem cutFrom_operator (h : Outline t u)
    (hclear : Clear op.text.toList (op.text.toList ++ rest) u) (hrest : rest.head? ≠ some '=') :
    cutFrom op {} (t ++ (op.text.toList ++ rest)) = some (t, rest) := by
  have hhit : cutFrom op {} (op.text.toList ++ rest) = some ([], rest) := by
    have hne : op.text.toList ≠ [] := by cases op <;> decide
    have hstarts : startsWithOperator op (op.text.toList ++ rest) = some rest :=
      startsWithOperator_append hrest
    obtain ⟨c, cs, hcs⟩ := List.exists_cons_of_ne_nil hne
    rw [hcs, List.cons_append] at hstarts ⊢
    simp only [cutFrom, Nesting.atTop_zero, if_true, hstarts]
  rw [cutFrom_clear h hclear, hhit]
  simp

theorem closesLast_step (hrest : rest ≠ []) (hn : (n.feed c).atTop = false) :
    closesLast n (c :: rest) = closesLast (n.feed c) rest := by
  rw [closesLast, hn]
  · rfl
  · exact hrest

theorem closesLast_hidden (h : Hidden n t n') (hn' : n'.atTop = false) :
    closesLast n (t ++ [c]) = true := by
  induction h with
  | nil => rfl
  | cons hn rest ih =>
    have hnext := rest.atTop_eq_false hn'
    rw [List.cons_append, closesLast_step (by simp) hnext, ih hn']

theorem insideParens?_group (h : Outline t u) :
    insideParens? ('(' :: (t ++ [')'])) = some t := by
  have hcloses : closesLast {} ('(' :: (t ++ [')'])) = true := by
    rw [closesLast_step (by simp) rfl]
    exact closesLast_hidden (Hidden.closed h (by decide)) rfl
  simp [insideParens?, hcloses]

theorem insideParens?_eq_none {cs : List Char} (h : cs.head? ≠ some '(') :
    insideParens? cs = none := by
  cases cs with
  | nil => rfl
  | cons c cs =>
    have hc : c ≠ '(' := by simpa using h
    simp [insideParens?, hc]

end Condition
end Arazzo
