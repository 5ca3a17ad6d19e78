import Arazzo.Criterion
import Arazzo.Proofs.Condition.Outline
import Mathlib

/-! Conditions as trees, their evaluation, the texts that print them, and what these texts show
outside of quotes and brackets. -/

namespace Arazzo

def AllBlank (cs : List Char) : Prop := ∀ c ∈ cs, Text.isBlank c = true

instance : DecidablePred AllBlank := List.decidableBAll (Text.isBlank · = true)

structure Gap where
  blanks : List Char
  blank : AllBlank blanks
  nonempty : blanks ≠ []

def dividers : List (List Char) :=
  ['|', '|'] :: ['&', '&'] :: Operator.all.map fun op => op.text.toList

structure Operand where
  text : List Char
  nonempty : text ≠ []
  first : ∀ c ∈ text.head?, Text.isBlank c = false ∧ c ≠ '!' ∧ c ≠ '=' ∧ c ≠ '('
  last : ∀ c ∈ text.getLast?, Text.isBlank c = false
  closed : ∃ outline, Outline text outline ∧ ∀ divider ∈ dividers, ¬ divider <:+: outline

inductive Formula where
  | holds (operand : Operand)
  | compare (left : Operand) (before : Gap) (op : Operator) (after : Gap) (right : Operand)
  | not (formula : Formula)
  | and (first second : Formula)
  | or (first second : Formula)

namespace Formula

def spaced (left : List Char) (before : Gap) (middle : List Char) (after : Gap)
    (right : List Char) : List Char :=
  left ++ before.blanks ++ (middle ++ (after.blanks ++ right))

theorem length_spaced (left : List Char) (before : Gap) (middle : List Char) (after : Gap)
    (right : List Char) : (spaced left before middle after right).length =
      left.length + before.blanks.length +
        (middle.length + (after.blanks.length + right.length)) := by
  simp only [spaced, List.length_append]

def evaluate (context : Context) : Formula → Resolving CriterionError Bool
  | .holds operand => do
    match ← Condition.operand context (String.ofList operand.text) with
    | .bool b => return b
    | value => throw (.malformed (String.ofList operand.text) (.notBoolean value))
  | .compare left before op after right => do
    let l ← Condition.operand context (String.ofList left.text)
    let r ← Condition.operand context (String.ofList right.text)
    compareValues (String.ofList (spaced left.text before op.text.toList after right.text)) l r op
  | .not formula => return !(← evaluate context formula)
  | .and first second => do
    if ← evaluate context first then evaluate context second else return false
  | .or first second => do
    if ← evaluate context first then return true else evaluate context second

end Formula

/-- How weakly the outermost mark of a text binds, if no parentheses enclose it. -/
inductive Binding where
  | unary
  | conjunction
  | disjunction
deriving DecidableEq

inductive Prints : Binding → Formula → List Char → Prop where
  | holds (operand : Operand) : Prints .unary (.holds operand) operand.text
  | compare (left : Operand) (before : Gap) (op : Operator) (after : Gap) (right : Operand) :
    Prints .unary (.compare left before op after right)
      (Formula.spaced left.text before op.text.toList after right.text)
  | not {f : Formula} {text blanks : List Char} (hblanks : AllBlank blanks)
    (h : Prints .unary f text) : Prints .unary (.not f) ('!' :: (blanks ++ text))
  | parens {f : Formula} {text before after : List Char} (hbefore : AllBlank before)
    (hafter : AllBlank after) (h : Prints .disjunction f text) :
    Prints .unary f ('(' :: (before ++ text ++ after ++ [')']))
  | factor {f : Formula} {text : List Char} (h : Prints .unary f text) :
    Prints .conjunction f text
  | and {f g : Formula} {s t : List Char} (before after : Gap) (hf : Prints .conjunction f s)
    (hg : Prints .conjunction g t) :
    Prints .conjunction (.and f g) (Formula.spaced s before ['&', '&'] after t)
  | term {f : Formula} {text : List Char} (h : Prints .conjunction f text) :
    Prints .disjunction f text
  | or {f g : Formula} {s t : List Char} (before after : Gap) (hf : Prints .disjunction f s)
    (hg : Prints .disjunction g t) :
    Prints .disjunction (.or f g) (Formula.spaced s before ['|', '|'] after t)

namespace AllBlank

variable {s t : List Char}

theorem nil : AllBlank [] := fun _ h => absurd h List.not_mem_nil

theorem plain (h : AllBlank t) : AllPlain t := by
  intro c hc
  have hblank := h c hc
  refine ⟨?_, ?_, ?_⟩ <;> rintro (rfl | rfl) <;> exact absurd hblank (by decide)

theorem outline (h : AllBlank t) : Outline t t := Outline.of_plain h.plain

end AllBlank

structure Trimmed (t : List Char) : Prop where
  nonempty : t ≠ []
  first : ∀ c ∈ t.head?, Text.isBlank c = false
  last : ∀ c ∈ t.getLast?, Text.isBlank c = false

theorem Operand.trimmed (o : Operand) : Trimmed o.text :=
  ⟨o.nonempty, fun c hc => (o.first c hc).1, o.last⟩

theorem dropWhile_blank {before t : List Char} (hbefore : AllBlank before)
    (ht : ∀ c ∈ t.head?, Text.isBlank c = false) :
    (before ++ t).dropWhile Text.isBlank = t := by
  rw [List.dropWhile_append_of_pos hbefore]
  cases t with
  | nil => rfl
  | cons c t => exact List.dropWhile_cons_of_neg (by simp [ht c rfl])

theorem Trimmed.trimChars {t before after : List Char} (ht : Trimmed t)
    (hbefore : AllBlank before) (hafter : AllBlank after) :
    Text.trimChars (before ++ t ++ after) = t := by
  have hfirst : ∀ c ∈ (t ++ after).head?, Text.isBlank c = false := by
    rw [List.head?_append_of_ne_nil _ ht.nonempty]
    exact ht.first
  have hlast : ∀ c ∈ t.reverse.head?, Text.isBlank c = false := by
    rw [List.head?_reverse]
    exact ht.last
  have hback : AllBlank after.reverse := fun c hc => hafter c (List.mem_reverse.1 hc)
  rw [Text.trimChars, Text.trimStartChars, List.append_assoc, dropWhile_blank hbefore hfirst,
    Text.trimEndChars, List.reverse_append, dropWhile_blank hback hlast, List.reverse_reverse]

def Solid (p : List Char) : Prop := p ≠ [] ∧ ∀ c ∈ p, Text.isBlank c = false

instance : DecidablePred Solid := fun p =>
  @instDecidableAnd _ _ _ (List.decidableBAll (Text.isBlank · = false) p)

theorem solid_of_mem_dividers : ∀ p ∈ dividers, Solid p := by decide

namespace Clear

variable {p rest s t m : List Char}

theorem of_blank (hp : Solid p) (ht : AllBlank t) : Clear p rest t := by
  refine Clear.of_head ?_ hp.1
  rintro c hc x hx rfl
  exact absurd (ht x hc) (by simp [hp.2 x (List.mem_of_mem_head? hx)])

theorem single {c : Char} (hp : Solid p) (hhead : p.head? ≠ some c) : Clear p rest [c] := by
  refine Clear.of_head ?_ hp.1
  rintro d hd x hx rfl
  rw [List.mem_singleton.mp hd] at hx
  exact hhead hx

theorem before_gap (h : Clear p [] t) (hp : Solid p) (gap : Gap) :
    Clear p (gap.blanks ++ rest) t := by
  obtain ⟨b, bs, hgap⟩ := List.exists_cons_of_ne_nil gap.nonempty
  rw [hgap, List.cons_append]
  refine h.before fun hmem => ?_
  have hblank := gap.blank b (by rw [hgap]; exact List.mem_cons_self ..)
  exact absurd hblank (by simp [hp.2 b hmem])

theorem gap_after (h : Clear p [] t) (hp : Solid p) (gap : Gap) :
    Clear p rest (t ++ gap.blanks) :=
  Clear.append.2 ⟨h.before_gap hp gap, .of_blank hp gap.blank⟩

theorem padded {before after : List Char} (h : Clear p [] t) (hp : Solid p)
    (hbefore : AllBlank before) (hafter : AllBlank after) (hend : after = [] → rest = []) :
    Clear p rest (before ++ t ++ after) := by
  rw [List.append_assoc]
  refine Clear.append.2 ⟨.of_blank hp hbefore, ?_⟩
  by_cases hnil : after = []
  · rw [hnil, hend hnil, List.append_nil]
    exact h
  · exact h.gap_after hp ⟨after, hafter, hnil⟩

theorem spaced (hp : Solid p) (hs : Clear p [] s) (hm : Clear p [] m) (ht : Clear p [] t)
    (before after : Gap) : Clear p [] (Formula.spaced s before m after t) := by
  rw [Formula.spaced, ← List.append_assoc m]
  refine Clear.append.2 ⟨hs.gap_after hp before, Clear.append.2 ⟨hm.gap_after hp after, ht⟩⟩

end Clear

def Outlined (patterns : List (List Char)) (t : List Char) : Prop :=
  ∃ outline, Outline t outline ∧ ∀ p ∈ patterns, Clear p [] outline

namespace Outlined

variable {patterns patterns' : List (List Char)} {s t m : List Char}

theorem mono (h : Outlined patterns t) (hsub : patterns' ⊆ patterns) : Outlined patterns' t := by
  obtain ⟨outline, houtline, hclear⟩ := h
  exact ⟨outline, houtline, fun p hp => hclear p (hsub hp)⟩

theorem spaced (hs : Outlined patterns s) (ht : Outlined patterns t)
    (hplain : AllPlain m) (hm : ∀ p ∈ patterns, Solid p ∧ Clear p [] m)
    (before after : Gap) : Outlined patterns (Formula.spaced s before m after t) := by
  obtain ⟨u, hu, hclearu⟩ := hs
  obtain ⟨v, hv, hclearv⟩ := ht
  refine ⟨Formula.spaced u before m after v, ?_, fun p hp => ?_⟩
  · exact (hu.append before.blank.outline).append
      ((Outline.of_plain hplain).append (after.blank.outline.append hv))
  · exact Clear.spaced (hm p hp).1 (hclearu p hp) (hm p hp).2 (hclearv p hp) before after

theorem padded {before after : List Char} (ht : Outlined patterns t)
    (hp : ∀ p ∈ patterns, Solid p) (hbefore : AllBlank before) (hafter : AllBlank after) :
    Outlined patterns (before ++ t ++ after) := by
  obtain ⟨u, hu, hclear⟩ := ht
  refine ⟨before ++ u ++ after, (hbefore.outline.append hu).append hafter.outline, fun p hmem => ?_⟩
  exact (hclear p hmem).padded (hp p hmem) hbefore hafter fun _ => rfl

end Outlined

theorem Operand.outlined (o : Operand) : Outlined dividers o.text := by
  obtain ⟨outline, h, hno⟩ := o.closed
  exact ⟨outline, h, fun divider hd => .of_nowhere (hno divider hd)⟩

def Binding.hides : Binding → List (List Char)
  | .unary => [['|', '|'], ['&', '&']]
  | .conjunction => [['|', '|']]
  | .disjunction => []

/-- A printed text begins and ends with what it prints, and shows outside of its quotes and
brackets only marks that its binding allows. -/
structure Shape (binding : Binding) (t : List Char) : Prop extends Trimmed t where
  ne_equals : ∀ c ∈ t.head?, c ≠ '='
  outlined : Outlined binding.hides t

namespace Shape

variable {binding : Binding} {s t m : List Char}

theorem spaced (hs : Shape binding s) (ht : Shape binding t) (hplain : AllPlain m)
    (hm : ∀ p ∈ binding.hides, Solid p ∧ Clear p [] m) (before after : Gap) :
    Shape binding (Formula.spaced s before m after t) := by
  have hhead : (Formula.spaced s before m after t).head? = s.head? := by
    rw [Formula.spaced, List.append_assoc, List.head?_append_of_ne_nil _ hs.nonempty]
  have hlast : (Formula.spaced s before m after t).getLast? = t.getLast? := by
    rw [Formula.spaced, ← List.append_assoc m, ← List.append_assoc,
      List.getLast?_append_of_ne_nil _ ht.nonempty]
  have hne : Formula.spaced s before m after t ≠ [] := by
    simp [Formula.spaced, hs.nonempty]
  refine ⟨⟨hne, ?_, ?_⟩, ?_, hs.outlined.spaced ht.outlined hplain hm before after⟩
  · rw [hhead]
    exact hs.first
  · rw [hlast]
    exact ht.last
  · rw [hhead]
    exact hs.ne_equals

theorem operand (o : Operand) : Shape .unary o.text :=
  ⟨o.trimmed, fun c hc => (o.first c hc).2.2.1, o.outlined.mono (by decide)⟩

theorem not {blanks : List Char} (ht : Shape .unary t) (hblanks : AllBlank blanks) :
    Shape .unary ('!' :: (blanks ++ t)) := by
  have hlast : ('!' :: (blanks ++ t)).getLast? = t.getLast? := by
    rw [← List.cons_append, List.getLast?_append_of_ne_nil _ ht.nonempty]
  have hhides : ∀ p ∈ Binding.unary.hides, Solid p ∧ p.head? ≠ some '!' := by decide
  obtain ⟨outline, houtline, hclear⟩ := ht.outlined
  refine ⟨⟨List.cons_ne_nil _ _, ?_, ?_⟩, ?_, ['!'] ++ (blanks ++ outline), ?_, fun p hp => ?_⟩
  · simp [Text.isBlank]
  · rw [hlast]
    exact ht.last
  · simp
  · exact .plain (by decide) (hblanks.outline.append houtline)
  · obtain ⟨hsolid, hhead⟩ := hhides p hp
    exact Clear.append.2 ⟨.single hsolid hhead,
      Clear.append.2 ⟨.of_blank hsolid hblanks, hclear p hp⟩⟩

theorem parens {inner : List Char} (ht : Outlined [] inner) :
    Shape .unary ('(' :: (inner ++ [')'])) := by
  have hlast : ('(' :: (inner ++ [')'])).getLast? = some ')' := by
    rw [← List.cons_append, List.getLast?_concat]
  have hhides : ∀ p ∈ Binding.unary.hides, Solid p ∧ p.head? ≠ some '(' := by decide
  obtain ⟨outline, houtline, -⟩ := ht
  refine ⟨⟨List.cons_ne_nil _ _, ?_, ?_⟩, ?_, ['('], ?_, fun p hp => ?_⟩
  · simp [Text.isBlank]
  · rw [hlast]
    simp [Text.isBlank]
  · simp
  · exact .group (.inl rfl) (.inl rfl) houtline .nil
  · exact .single (hhides p hp).1 (hhides p hp).2

end Shape

theorem Prints.shape {binding : Binding} {f : Formula} {t : List Char}
    (h : Prints binding f t) : Shape binding t := by
  induction h with
  | holds operand => exact .operand operand
  | compare left before op after right =>
    have hplain : AllPlain op.text.toList := by cases op <;> decide
    have hhides : ∀ p ∈ Binding.unary.hides, Solid p ∧ Clear p [] op.text.toList := by
      cases op <;> decide
    exact (Shape.operand left).spaced (.operand right) hplain hhides before after
  | not hblanks h ih => exact ih.not hblanks
  | parens hbefore hafter h ih => exact .parens ((ih.outlined).padded nofun hbefore hafter)
  | factor h ih => exact ⟨ih.toTrimmed, ih.ne_equals, ih.outlined.mono (by decide)⟩
  | and before after hf hg ihf ihg => exact ihf.spaced ihg (by decide) (by decide) before after
  | term h ih => exact ⟨ih.toTrimmed, ih.ne_equals, ih.outlined.mono (by decide)⟩
  | or before after hf hg ihf ihg => exact ihf.spaced ihg (by decide) nofun before after

end Arazzo
