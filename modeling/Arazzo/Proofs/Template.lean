import Arazzo.Proofs.Text
import Arazzo.Template
import Mathlib.Data.List.Chain
import Mathlib.Data.List.Forall2

/-! Cutting templates: nothing of the text is lost, literals reach as far as they can, and the only fault
is an expression that is not closed. -/

namespace Arazzo

/-- What a segment is cut from. -/
inductive Segment.Source : Segment → List Char → Prop
  | literal (text : String) : Source (.literal text) text.toList
  | expression {text : String} {inner : List Char} (trimmed : Text.trimChars inner = text.toList)
      (dollar : text.toList.head? = some '$') (closed : '\x7d' ∉ inner) :
      Source (.expression text) ('\x7b' :: (inner ++ ['\x7d']))

def Segment.isLiteral : Segment → Bool
  | .literal _ => true
  | .expression _ => false

/-- An expression is written without blanks inside its braces. -/
def Segment.written : Segment → List Char
  | .literal text => text.toList
  | .expression text => '\x7b' :: (text.toList ++ ['\x7d'])

theorem Segment.Source.written {segment : Segment} {cs : List Char} (h : segment.Source cs) :
    segment.Source segment.written := by
  cases h with
  | literal text => exact .literal text
  | @expression text inner trimmed dollar closed =>
    have hself : Text.trimChars text.toList = text.toList := by
      rw [← trimmed, Text.trimChars_trimChars]
    refine .expression hself dollar fun hclose => closed ?_
    obtain ⟨first, last, hinner, -⟩ := Text.exists_trimChars inner
    rw [hinner, trimmed]
    exact List.mem_append_left _ (List.mem_append_right _ hclose)

namespace Template

variable {c : Char} {cs more lit inner rest pending : List Char} {segments : List Segment}
  {text : String}

def Opens (cs : List Char) : Prop :=
  ∃ blanks rest, (∀ c ∈ blanks, Text.isBlank c = true) ∧ cs = blanks ++ '$' :: rest

def Quiet (cs : List Char) : Prop := ∀ before rest, cs = before ++ '\x7b' :: rest → ¬ Opens rest

/-- The text is made of what the segments are cut from. -/
def Written (segments : List Segment) (cs : List Char) : Prop :=
  ∃ sources, List.Forall₂ Segment.Source segments sources ∧ cs = sources.flatten

/-- Literals hold something, but no expression, and no two of them stand side by side. -/
structure Proper (segments : List Segment) : Prop where
  literal : ∀ text, .literal text ∈ segments → text ≠ "" ∧ Quiet text.toList
  apart : segments.IsChain fun first second => first.isLiteral = false ∨ second.isLiteral = false

def render (segments : List Segment) : String := String.ofList (segments.flatMap Segment.written)

theorem startsExpression_cons (c : Char) (cs : List Char) :
    startsExpression (c :: cs) = if Text.isBlank c then startsExpression cs else c == '$' := by
  rw [startsExpression, startsExpression, List.dropWhile_cons]
  by_cases hblank : Text.isBlank c = true
  · rw [if_pos hblank, if_pos hblank]
  · rw [if_neg hblank, if_neg hblank]
    by_cases hc : c = '$'
    · subst hc
      rfl
    · simp [hc]

theorem startsExpression_iff : startsExpression cs = true ↔ Opens cs := by
  induction cs with
  | nil =>
    refine iff_of_false (by simp [startsExpression]) ?_
    rintro ⟨blanks, rest, -, h⟩
    cases blanks <;> cases h
  | cons c cs ih =>
    rw [startsExpression_cons]
    split
    · rename_i hblank
      rw [ih]
      constructor
      · rintro ⟨blanks, rest, hblanks, rfl⟩
        exact ⟨c :: blanks, rest, List.forall_mem_cons.2 ⟨hblank, hblanks⟩, rfl⟩
      · rintro ⟨_ | ⟨d, blanks⟩, rest, hblanks, h⟩
        · obtain ⟨rfl, -⟩ := List.cons.inj h
          cases hblank
        · obtain ⟨rfl, rfl⟩ := List.cons.inj h
          exact ⟨blanks, rest, (List.forall_mem_cons.1 hblanks).2, rfl⟩
    · rename_i hblank
      rw [beq_iff_eq]
      constructor
      · rintro rfl
        exact ⟨[], cs, by simp, rfl⟩
      · rintro ⟨_ | ⟨d, blanks⟩, rest, hblanks, h⟩
        · exact (List.cons.inj h).1
        · obtain ⟨rfl, -⟩ := List.cons.inj h
          exact absurd (hblanks c (List.mem_cons_self ..)) hblank

theorem startsExpression_append (hblank : Text.isBlank c = false) (hc : c ≠ '$')
    (cs more : List Char) : startsExpression (cs ++ c :: more) = startsExpression cs := by
  induction cs with
  | nil =>
    rw [List.nil_append, startsExpression_cons, hblank]
    simpa [startsExpression] using hc
  | cons d cs ih => rw [List.cons_append, startsExpression_cons, startsExpression_cons, ih]

theorem startsExpression_brace (cs more : List Char) :
    startsExpression (cs ++ '\x7b' :: more) = startsExpression cs :=
  startsExpression_append rfl (by decide) cs more

def holdsExpression : List Char → Bool
  | [] => false
  | c :: cs => (c == '\x7b' && startsExpression cs) || holdsExpression cs

theorem holdsExpression_cons_eq_false : holdsExpression (c :: cs) = false ↔
    (c = '\x7b' → startsExpression cs = false) ∧ holdsExpression cs = false := by
  rw [holdsExpression, Bool.or_eq_false_iff, Bool.and_eq_false_imp, beq_iff_eq]

theorem holdsExpression_eq_false_iff : holdsExpression cs = false ↔ Quiet cs := by
  induction cs with
  | nil =>
    refine iff_of_true rfl fun before rest h => ?_
    cases before <;> cases h
  | cons c cs ih =>
    rw [holdsExpression_cons_eq_false, ih]
    constructor
    · rintro ⟨hhere, hrest⟩ (_ | ⟨d, before⟩) rest h
      · obtain ⟨hc, rfl⟩ := List.cons.inj h
        rw [← startsExpression_iff, hhere hc]
        exact Bool.false_ne_true
      · exact hrest before rest (List.cons.inj h).2
    · intro h
      refine ⟨fun hc => ?_, fun before rest hcs => ?_⟩
      · have hno := h [] cs (by rw [hc]; rfl)
        rwa [← startsExpression_iff, Bool.not_eq_true] at hno
      · exact h (c :: before) rest (by rw [hcs]; rfl)

theorem exists_opening (h : holdsExpression cs = true) : ∃ lit rest,
    cs = lit ++ '\x7b' :: rest ∧ holdsExpression lit = false ∧ startsExpression rest = true := by
  induction cs with
  | nil => cases h
  | cons c cs ih =>
    by_cases hopen : c = '\x7b' ∧ startsExpression cs = true
    · obtain ⟨rfl, hstarts⟩ := hopen
      exact ⟨[], cs, rfl, rfl, hstarts⟩
    · have hrest : holdsExpression cs = true := by
        rw [holdsExpression, Bool.or_eq_true, Bool.and_eq_true, beq_iff_eq] at h
        exact h.resolve_left hopen
      obtain ⟨lit, rest, rfl, hlit, hstarts⟩ := ih hrest
      refine ⟨c :: lit, rest, rfl, holdsExpression_cons_eq_false.2 ⟨fun hc => ?_, hlit⟩, hstarts⟩
      rw [startsExpression_brace] at hopen
      exact Bool.eq_false_iff.2 fun hbad => hopen ⟨hc, hbad⟩

theorem splitFrom_quiet (h : holdsExpression lit = false)
    (hrest : ∀ cs, startsExpression (cs ++ rest) = startsExpression cs) (pending : List Char) :
    splitFrom pending none (lit ++ rest) = splitFrom (pending ++ lit) none rest := by
  induction lit generalizing pending with
  | nil => rw [List.nil_append, List.append_nil]
  | cons c lit ih =>
    obtain ⟨hhere, hlit⟩ := holdsExpression_cons_eq_false.1 h
    have hopen : ¬ (c = '\x7b' ∧ startsExpression (lit ++ rest) = true) := by
      rintro ⟨hbrace, hstarts⟩
      rw [hrest, hhere hbrace] at hstarts
      cases hstarts
    rw [List.cons_append, splitFrom, if_neg hopen, ih hlit, List.append_assoc, List.singleton_append]

theorem splitFrom_literal (h : holdsExpression cs = false) (pending : List Char) :
    splitFrom pending none cs = .ok (literalOf (pending ++ cs)) := by
  have hcs : splitFrom pending none (cs ++ []) = splitFrom (pending ++ cs) none [] :=
    splitFrom_quiet h (fun cs => by rw [List.append_nil]) pending
  rw [List.append_nil] at hcs
  rw [hcs, splitFrom]
  rfl

theorem splitFrom_inner (h : '\x7d' ∉ inner) (pending before rest : List Char) :
    splitFrom pending (some before) (inner ++ '\x7d' :: rest) = (splitFrom [] none rest).map
      fun segments => literalOf pending ++
        .expression (String.ofList (Text.trimChars (before ++ inner))) :: segments := by
  induction inner generalizing before with
  | nil =>
    rw [List.nil_append, splitFrom, if_pos rfl, List.append_nil]
    cases splitFrom [] none rest <;> rfl
  | cons c inner ih =>
    rw [List.mem_cons, not_or] at h
    rw [List.cons_append, splitFrom, if_neg (Ne.symm h.1), ih h.2, List.append_assoc,
      List.singleton_append]

theorem splitFrom_unclosed (h : '\x7d' ∉ cs) (pending before : List Char) :
    splitFrom pending (some before) cs = .error .unclosed := by
  induction cs generalizing before with
  | nil => rfl
  | cons c cs ih =>
    rw [List.mem_cons, not_or] at h
    rw [splitFrom, if_neg (Ne.symm h.1), ih h.2]

theorem splitFrom_opening (hlit : holdsExpression lit = false) (hrest : startsExpression rest = true) :
    splitFrom [] none (lit ++ '\x7b' :: rest) = splitFrom lit (some []) rest := by
  have hquiet (cs : List Char) : startsExpression (cs ++ '\x7b' :: rest) = startsExpression cs :=
    startsExpression_brace cs rest
  rw [splitFrom_quiet hlit hquiet, List.nil_append, splitFrom, if_pos ⟨rfl, hrest⟩]

/-! Texts piece by piece -/

/-- A text with the segments that it is cut into, one expression after the other. -/
inductive Cuts : List Segment → List Char → Prop
  | literal {cs : List Char} (quiet : holdsExpression cs = false) : Cuts (literalOf cs) cs
  | expression {lit inner rest : List Char} {segments : List Segment}
      (quiet : holdsExpression lit = false) (opens : startsExpression inner = true)
      (closed : '\x7d' ∉ inner) (onward : Cuts segments rest) :
      Cuts (literalOf lit ++ .expression (String.ofList (Text.trimChars inner)) :: segments)
        (lit ++ '\x7b' :: (inner ++ '\x7d' :: rest))

def Unclosed (segments : List Segment) (cs : List Char) : Prop :=
  ∃ before rest, cs = before ++ '\x7b' :: rest ∧ Cuts segments before ∧
    startsExpression rest = true ∧ '\x7d' ∉ rest

theorem startsExpression_inner (inner rest : List Char) :
    startsExpression (inner ++ '\x7d' :: rest) = startsExpression inner :=
  startsExpression_append rfl (by decide) inner rest

theorem Cuts.splitFrom_eq (h : Cuts segments cs) : splitFrom [] none cs = .ok segments := by
  induction h with
  | literal quiet => exact splitFrom_literal quiet []
  | @expression lit inner rest segments quiet opens closed _ ih =>
    rw [splitFrom_opening quiet ((startsExpression_inner inner rest).trans opens),
      splitFrom_inner closed, ih]
    rfl

theorem Unclosed.splitFrom_eq (h : Unclosed segments cs) :
    splitFrom [] none cs = .error .unclosed := by
  obtain ⟨before, rest, rfl, hcuts, hopens, hunclosed⟩ := h
  induction hcuts with
  | literal quiet => rw [splitFrom_opening quiet hopens, splitFrom_unclosed hunclosed]
  | @expression lit inner after segments quiet opens closed _ ih =>
    have hwhole : lit ++ '\x7b' :: (inner ++ '\x7d' :: after) ++ '\x7b' :: rest =
        lit ++ '\x7b' :: (inner ++ '\x7d' :: (after ++ '\x7b' :: rest)) := by simp
    rw [hwhole, splitFrom_opening quiet ((startsExpression_inner inner _).trans opens),
      splitFrom_inner closed, ih]
    rfl

theorem cuts_or_unclosed (cs : List Char) :
    ∃ segments, Cuts segments cs ∨ Unclosed segments cs := by
  induction hn : cs.length using Nat.strong_induction_on generalizing cs with
  | _ n ih =>
    cases hholds : holdsExpression cs with
    | false => exact ⟨literalOf cs, .inl (.literal hholds)⟩
    | true =>
      obtain ⟨lit, rest, rfl, hlit, hrest⟩ := exists_opening hholds
      cases hclose : Text.splitOnce? '\x7d' rest with
      | none =>
        exact ⟨_, .inr ⟨lit, rest, rfl, .literal hlit, hrest, Text.splitOnce?_eq_none_iff.1 hclose⟩⟩
      | some parts =>
        obtain ⟨inner, after⟩ := parts
        obtain ⟨rfl, hclosed⟩ := Text.splitOnce?_eq_some_iff.1 hclose
        rw [startsExpression_inner] at hrest
        have hshorter : after.length < n := by
          rw [← hn]
          simp only [List.length_append, List.length_cons]
          omega
        obtain ⟨segments, hcuts | ⟨before, more, rfl, hcuts, hmore⟩⟩ := ih _ hshorter after rfl
        · exact ⟨_, .inl (.expression hlit hrest hclosed hcuts)⟩
        · exact ⟨_, .inr ⟨_, more, by simp, .expression hlit hrest hclosed hcuts, hmore⟩⟩

theorem split_eq_ok_iff : split text = .ok segments ↔ Cuts segments text.toList := by
  refine ⟨fun h => ?_, fun h => h.splitFrom_eq⟩
  obtain ⟨segments', hcuts | hunclosed⟩ := cuts_or_unclosed text.toList
  · have hsame : segments' = segments := Except.ok.inj (hcuts.splitFrom_eq.symm.trans h)
    rwa [← hsame]
  · cases hunclosed.splitFrom_eq.symm.trans h

theorem split_eq_error_iff {e : TemplateError} :
    split text = .error e ↔ e = .unclosed ∧ ∃ segments, Unclosed segments text.toList := by
  constructor
  · intro h
    obtain ⟨segments, hcuts | hunclosed⟩ := cuts_or_unclosed text.toList
    · cases hcuts.splitFrom_eq.symm.trans h
    · exact ⟨Except.error.inj (h.symm.trans hunclosed.splitFrom_eq), segments, hunclosed⟩
  · rintro ⟨rfl, segments, hunclosed⟩
    exact hunclosed.splitFrom_eq

theorem written_nil : Written [] cs ↔ cs = [] := by
  constructor
  · rintro ⟨sources, hsources, rfl⟩
    cases hsources
    rfl
  · rintro rfl
    exact ⟨[], .nil, rfl⟩

theorem written_cons {segment : Segment} : Written (segment :: segments) cs ↔
    ∃ source more, segment.Source source ∧ Written segments more ∧ cs = source ++ more := by
  constructor
  · rintro ⟨sources, hsources, rfl⟩
    cases hsources with
    | @cons _ source _ sources hsource hrest =>
      exact ⟨source, sources.flatten, hsource, ⟨sources, hrest, rfl⟩, List.flatten_cons⟩
  · rintro ⟨source, more, hsource, ⟨sources, hrest, rfl⟩, rfl⟩
    exact ⟨source :: sources, .cons hsource hrest, List.flatten_cons.symm⟩

theorem Written.source (h : Written segments cs) {segment : Segment} (hmem : segment ∈ segments) :
    ∃ source, segment.Source source := by
  obtain ⟨sources, hsources, -⟩ := h
  induction hsources with
  | nil => exact absurd hmem List.not_mem_nil
  | cons hsource _ ih =>
    rcases List.mem_cons.1 hmem with rfl | hmem
    · exact ⟨_, hsource⟩
    · exact ih hmem

theorem proper_cons {segment : Segment} : Proper (segment :: segments) ↔
    (∀ text, segment = .literal text → text ≠ "" ∧ Quiet text.toList) ∧
      (∀ next ∈ segments.head?, segment.isLiteral = false ∨ next.isLiteral = false) ∧
      Proper segments := by
  constructor
  · rintro ⟨hliteral, hapart⟩
    obtain ⟨hnext, hrest⟩ := List.isChain_cons.1 hapart
    exact ⟨fun text h => hliteral text (h ▸ List.mem_cons_self ..), hnext,
      fun text h => hliteral text (List.mem_cons_of_mem _ h), hrest⟩
  · rintro ⟨hhere, hnext, hliteral, hapart⟩
    refine ⟨fun text h => ?_, List.isChain_cons.2 ⟨hnext, hapart⟩⟩
    rcases List.mem_cons.1 h with h | h
    · exact hhere text h.symm
    · exact hliteral text h

theorem proper_nil : Proper [] := ⟨fun _ h => absurd h List.not_mem_nil, .nil⟩

theorem literalOf_toList (h : text ≠ "") : literalOf text.toList = [.literal text] := by
  have hne : text.toList ≠ [] := fun hnil => h (String.toList_eq_nil_iff.1 hnil)
  rw [literalOf, if_neg (by simpa using hne), String.ofList_toList]

theorem literalOf_cases (lit : List Char) : lit = [] ∧ literalOf lit = [] ∨
    ∃ text, text ≠ "" ∧ lit = text.toList ∧ literalOf lit = [.literal text] := by
  by_cases hlit : lit = []
  · subst hlit
    exact .inl ⟨rfl, rfl⟩
  · have hne : String.ofList lit ≠ "" := fun h => hlit (by
      rw [← String.toList_ofList (l := lit), h]
      rfl)
    have htext : lit = (String.ofList lit).toList := String.toList_ofList.symm
    refine .inr ⟨String.ofList lit, hne, htext, ?_⟩
    rw [← literalOf_toList hne, ← htext]

theorem head?_trimChars_iff :
    (Text.trimChars cs).head? = some '$' ↔ startsExpression cs = true := by
  rw [startsExpression_iff]
  constructor
  · intro h
    obtain ⟨trimmed, htrimmed⟩ := List.head?_eq_some_iff.1 h
    obtain ⟨first, last, hcs, hfirst, -⟩ := Text.exists_trimChars cs
    refine ⟨first, trimmed ++ last, hfirst, ?_⟩
    rw [htrimmed, List.append_assoc, List.cons_append] at hcs
    exact hcs
  · rintro ⟨blanks, rest, hblanks, rfl⟩
    have hstart : Text.trimStartChars (blanks ++ '$' :: rest) = '$' :: rest := by
      rw [Text.trimStartChars, List.dropWhile_append_of_pos hblanks]
      rfl
    have hne : Text.trimChars (blanks ++ '$' :: rest) ≠ [] := by
      intro hnil
      have hdollar := Text.trimChars_eq_nil_iff.1 hnil '$' (by simp)
      cases hdollar
    have hprefix := Text.trimEndChars_prefix (Text.trimStartChars (blanks ++ '$' :: rest))
    rw [← Text.trimChars, hstart] at hprefix
    obtain ⟨d, trimmed, htrimmed⟩ := List.exists_cons_of_ne_nil hne
    rw [htrimmed] at hprefix ⊢
    rw [(List.cons_prefix_cons.1 hprefix).1]
    rfl

theorem written_literalOf (h : Written segments more) (lit : List Char) :
    Written (literalOf lit ++ segments) (lit ++ more) := by
  rcases literalOf_cases lit with ⟨rfl, hnone⟩ | ⟨text, -, rfl, hone⟩
  · rwa [hnone]
  · rw [hone]
    exact written_cons.2 ⟨_, _, .literal text, h, rfl⟩

theorem proper_literalOf (hlit : holdsExpression lit = false)
    (hnext : ∀ next ∈ segments.head?, next.isLiteral = false) (h : Proper segments) :
    Proper (literalOf lit ++ segments) := by
  rcases literalOf_cases lit with ⟨rfl, hnone⟩ | ⟨text, hne, rfl, hone⟩
  · rwa [hnone]
  · rw [hone]
    refine proper_cons.2 ⟨fun text' htext => ?_, fun next hhead => .inr (hnext next hhead), h⟩
    obtain rfl := Segment.literal.inj htext
    exact ⟨hne, holdsExpression_eq_false_iff.1 hlit⟩

theorem Cuts.written (h : Cuts segments cs) : Written segments cs := by
  induction h with
  | literal quiet =>
    have hnil := written_literalOf (written_nil.2 rfl)
    simpa only [List.append_nil] using hnil _
  | @expression lit inner rest segments quiet opens closed _ ih =>
    have htrim : Text.trimChars inner = (String.ofList (Text.trimChars inner)).toList :=
      String.toList_ofList.symm
    have hdollar := head?_trimChars_iff.2 opens
    rw [htrim] at hdollar
    refine written_literalOf (written_cons.2 ⟨_, rest, .expression htrim hdollar closed, ih, ?_⟩) lit
    simp

theorem Cuts.proper (h : Cuts segments cs) : Proper segments := by
  induction h with
  | @literal cs quiet =>
    have hnil : Proper (literalOf cs ++ []) := proper_literalOf quiet (by simp) proper_nil
    rwa [List.append_nil] at hnil
  | expression quiet _ _ _ ih =>
    refine proper_literalOf quiet (fun next hnext => ?_) (proper_cons.2 ⟨by simp, by simp [Segment.isLiteral], ih⟩)
    obtain rfl := Option.some.inj hnext
    rfl

/-- The segments in their order and what they are made from leave no other way to cut the text. -/
theorem Written.cuts (h : Written segments more) (hproper : Proper segments)
    (hlit : holdsExpression lit = false)
    (hnext : lit = [] ∨ ∀ next ∈ segments.head?, next.isLiteral = false) :
    Cuts (literalOf lit ++ segments) (lit ++ more) := by
  induction segments generalizing lit more with
  | nil =>
    obtain rfl := written_nil.1 h
    rw [List.append_nil, List.append_nil]
    exact .literal hlit
  | cons segment segments ih =>
    obtain ⟨source, rest, hsource, hrest, rfl⟩ := written_cons.1 h
    obtain ⟨hhere, hapart, hothers⟩ := proper_cons.1 hproper
    cases hsource with
    | literal text =>
      obtain ⟨hne, hquiet⟩ := hhere text rfl
      have hlit : lit = [] := hnext.resolve_right fun hno => by
        cases hno _ rfl
      subst hlit
      have hcuts := ih hrest hothers (holdsExpression_eq_false_iff.2 hquiet)
        (.inr fun next hhead => (hapart next hhead).resolve_left (by simp [Segment.isLiteral]))
      rwa [literalOf_toList hne] at hcuts
    | @expression text inner trimmed dollar closed =>
      have hcuts : Cuts segments rest := ih hrest hothers rfl (.inl rfl)
      have hopens := head?_trimChars_iff.1 (trimmed ▸ dollar)
      have hall := Cuts.expression hlit hopens closed hcuts
      rw [trimmed, String.ofList_toList] at hall
      simpa using hall

theorem cuts_iff : Cuts segments cs ↔ Written segments cs ∧ Proper segments :=
  ⟨fun h => ⟨h.written, h.proper⟩, fun h => h.1.cuts h.2 rfl (.inl rfl)⟩

theorem trim_of_split (h : split text = .ok segments) {expression : String}
    (hmem : .expression expression ∈ segments) : Text.trim expression = expression := by
  have hwritten := (split_eq_ok_iff.1 h).written
  obtain ⟨source, hsource⟩ := hwritten.source hmem
  cases hsource with
  | expression trimmed _ _ =>
    rw [Text.trim_eq_self_iff, ← trimmed, Text.trimChars_trimChars]

theorem written_written (h : Written segments cs) :
    Written segments (segments.flatMap Segment.written) := by
  obtain ⟨sources, hsources, -⟩ := h
  refine ⟨segments.map Segment.written, ?_, List.flatMap_def ..⟩
  induction hsources with
  | nil => exact .nil
  | cons hsource _ ih => exact .cons hsource.written ih

theorem Cuts.again (h : Cuts segments cs) : split (render segments) = .ok segments := by
  rw [split_eq_ok_iff, cuts_iff, render, String.toList_ofList]
  exact ⟨written_written h.written, h.proper⟩

/-- A text is cut into the segments that it is made of, if they are as they should be, and into the same
ones when they are written down again. It is refused where an expression begins, behind what can be cut,
and has no closing brace. -/
theorem split_lossless (text : String) :
    (∀ segments, split text = .ok segments ↔ Written segments text.toList ∧ Proper segments) ∧
      ((split text).bind fun segments => split (render segments)) = split text ∧
      ∀ e, split text = .error e ↔ e = .unclosed ∧ ∃ segments before rest,
        text.toList = before ++ '\x7b' :: rest ∧ Written segments before ∧ Proper segments ∧
          Opens rest ∧ '\x7d' ∉ rest := by
  refine ⟨fun segments => split_eq_ok_iff.trans cuts_iff, ?_, fun e => ?_⟩
  · obtain ⟨segments, hcuts | hunclosed⟩ := cuts_or_unclosed text.toList
    · have hsplit : split text = .ok segments := hcuts.splitFrom_eq
      rw [hsplit]
      exact hcuts.again
    · have hsplit : split text = .error .unclosed := hunclosed.splitFrom_eq
      rw [hsplit]
      rfl
  · rw [split_eq_error_iff]
    simp only [Unclosed, cuts_iff, startsExpression_iff, and_assoc]

example : split "\x7b \x7b $x\x7d\x7d" =
    .ok [.literal "\x7b ", .expression "$x", .literal "\x7d"] := by rfl

end Template
end Arazzo
