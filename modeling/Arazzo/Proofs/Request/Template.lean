import Arazzo.Proofs.Table
import Arazzo.Proofs.Text
import Arazzo.Proofs.Url.Percent
import Arazzo.Request

/-! Templates of paths: characters and places for values. Filling one place after the other is the same
as filling all of them at once, since no value brings a place with it. -/

namespace Arazzo.Request

inductive Piece where
  | char (c : Char)
  | place (name : String)
deriving DecidableEq

def Braceless (cs : List Char) : Prop := '\x7b' ∉ cs ∧ '\x7d' ∉ cs

instance (cs : List Char) : Decidable (Braceless cs) := inferInstanceAs (Decidable (_ ∧ _))

def placeholder (name : String) : List Char := '\x7b' :: name.toList ++ ['\x7d']

namespace Piece

def text : Piece → List Char
  | .char c => [c]
  | .place name => placeholder name

/-- Braces stand around names only. -/
def Plain : Piece → Prop
  | .char c => Braceless [c]
  | .place name => Braceless name.toList

instance : (p : Piece) → Decidable p.Plain
  | .char c => inferInstanceAs (Decidable (Braceless [c]))
  | .place name => inferInstanceAs (Decidable (Braceless name.toList))

def name? : Piece → Option String
  | .char _ => none
  | .place name => some name

def fill (values : Table String) : Piece → List Piece
  | .char c => [.char c]
  | .place name =>
    match Table.get? name values with
    | some value => (Percent.component value.toList).map .char
    | none => [.place name]

def filled (values : Table String) : Piece → List Char
  | .char c => [c]
  | .place name => Percent.component ((Table.get? name values).getD "").toList

end Piece

def textOf (pieces : List Piece) : List Char := pieces.flatMap Piece.text

variable {name value : String} {values : Table String} {pieces : List Piece} {p : Piece}

def Plain (pieces : List Piece) : Prop := ∀ p ∈ pieces, p.Plain

instance (pieces : List Piece) : Decidable (Plain pieces) :=
  inferInstanceAs (Decidable (∀ p ∈ pieces, p.Plain))

theorem braceless_component (cs : List Char) : Braceless (Percent.component cs) := by
  have hbrace {c : Char} (hc : Percent.standsInName c = false) : c ∉ Percent.component cs := by
    intro hin
    rw [Percent.standsInName_of_mem_component hin] at hc
    cases hc
  exact ⟨hbrace (by decide), hbrace (by decide)⟩

theorem textOf_cons (p : Piece) (pieces : List Piece) :
    textOf (p :: pieces) = p.text ++ textOf pieces := List.flatMap_cons

theorem textOf_singleton (p : Piece) : textOf [p] = p.text := List.flatMap_singleton ..

theorem textOf_append (pieces more : List Piece) :
    textOf (pieces ++ more) = textOf pieces ++ textOf more := List.flatMap_append

theorem textOf_chars (cs : List Char) : textOf (cs.map .char) = cs := by
  induction cs with
  | nil => rfl
  | cons c cs ih => exact congrArg (c :: ·) ih

theorem plain_fill (h : p.Plain) (values : Table String) : Plain (p.fill values) := by
  cases p with
  | char c => simpa [Plain, Piece.fill] using h
  | place name =>
    rw [Piece.fill]
    split
    · rename_i value hvalue
      intro q hq
      obtain ⟨c, hc, rfl⟩ := List.mem_map.1 hq
      have hbraces := braceless_component value.toList
      refine ⟨fun hin => ?_, fun hin => ?_⟩
      · exact hbraces.1 (List.mem_singleton.1 hin ▸ hc)
      · exact hbraces.2 (List.mem_singleton.1 hin ▸ hc)
    · simpa [Plain] using h

theorem eq_of_placeholder_lead {other : String} {rest : List Char}
    (hname : Braceless name.toList) (hother : Braceless other.toList)
    (h : placeholder name <+: placeholder other ++ rest) : name = other := by
  obtain ⟨more, hmore⟩ := h
  simp only [placeholder, List.cons_append, List.append_assoc, List.nil_append, List.cons.injEq,
    true_and] at hmore
  have hfirst : Text.splitOnce? '\x7d' (other.toList ++ '\x7d' :: rest) = some (name.toList, more) :=
    Text.splitOnce?_eq_some_iff.2 ⟨hmore.symm, hname.2⟩
  have hsecond : Text.splitOnce? '\x7d' (other.toList ++ '\x7d' :: rest) = some (other.toList, rest) :=
    Text.splitOnce?_eq_some_iff.2 ⟨rfl, hother.2⟩
  rw [hfirst] at hsecond
  exact String.toList_inj.1 (Prod.mk.inj (Option.some.inj hsecond)).1

theorem replaceAll_placeholder {other : String} (hother : Braceless other.toList)
    (hname : Braceless name.toList) (hne : other ≠ name) (replacement rest : List Char) :
    Text.replaceAll (placeholder name) replacement (placeholder other ++ rest) =
      placeholder other ++ Text.replaceAll (placeholder name) replacement rest := by
  have hlead : ¬ placeholder name <+: '\x7b' :: (other.toList ++ ['\x7d'] ++ rest) := fun h =>
    hne (eq_of_placeholder_lead hname hother h).symm
  have hrest : '\x7b' ∉ other.toList ++ ['\x7d'] := by simpa using hother.1
  calc
    Text.replaceAll (placeholder name) replacement (placeholder other ++ rest)
      = '\x7b' :: Text.replaceAll (placeholder name) replacement (other.toList ++ ['\x7d'] ++ rest) :=
        Text.replaceAll_cons hlead
    _ = placeholder other ++ Text.replaceAll (placeholder name) replacement rest :=
        congrArg ('\x7b' :: ·) (Text.replaceAll_append_of_not_mem hrest rest)

theorem replaceAll_textOf (hplain : Plain pieces) (hname : Braceless name.toList) (value : String) :
    Text.replaceAll (placeholder name) (Percent.component value.toList) (textOf pieces) =
      textOf (pieces.flatMap (Piece.fill [(name, value)])) := by
  induction pieces with
  | nil => exact Text.replaceAll_nil ..
  | cons p pieces ih =>
    obtain ⟨hp, hpieces⟩ := List.forall_mem_cons.1 hplain
    rw [List.flatMap_cons, textOf_append, ← ih hpieces, textOf_cons]
    cases p with
    | char c =>
      have hc : c ≠ '\x7b' := fun hc => hp.1 (hc ▸ List.mem_singleton.2 rfl)
      exact Text.replaceAll_cons_ne hc
    | place other =>
      by_cases hsame : other = name
      · subst hsame
        simp only [Piece.fill, Table.get?_cons, if_true, textOf_chars]
        exact Text.replaceAll_lead (List.cons_ne_nil _ _) _
      · simp only [Piece.fill, Table.get?_cons, Ne.symm hsame, if_false, Table.get?_nil,
          textOf_singleton]
        exact replaceAll_placeholder hp hname hsame _ _

theorem fill_nil (p : Piece) : p.fill [] = [p] := by cases p <;> rfl

theorem fill_chars (values : Table String) (cs : List Char) :
    (cs.map .char).flatMap (Piece.fill values) = cs.map .char := by
  induction cs with
  | nil => rfl
  | cons c cs ih => exact congrArg (.char c :: ·) ih

theorem fill_cons (name value : String) (values : Table String) (p : Piece) :
    p.fill ((name, value) :: values) = (p.fill [(name, value)]).flatMap (Piece.fill values) := by
  cases p with
  | char c => rfl
  | place other =>
    simp only [Piece.fill, Table.get?_cons, Table.get?_nil]
    by_cases hsame : name = other
    · simp only [hsame, if_true, fill_chars]
    · simp [hsame, Piece.fill]

theorem plain_flatMap_fill (h : Plain pieces) (values : Table String) :
    Plain (pieces.flatMap (Piece.fill values)) := by
  intro q hq
  obtain ⟨p, hp, hq⟩ := List.mem_flatMap.1 hq
  exact plain_fill (h p hp) values q hq

/-- However the values are ordered, each goes to its own places and to no other. -/
theorem fillPath_textOf (hplain : Plain pieces)
    (hnames : ∀ entry ∈ values, Braceless entry.1.toList) :
    fillPath values (textOf pieces) = textOf (pieces.flatMap (Piece.fill values)) := by
  induction values generalizing pieces with
  | nil =>
    rw [funext fill_nil, List.flatMap_singleton']
    rfl
  | cons entry values ih =>
    obtain ⟨name, value⟩ := entry
    obtain ⟨hname, hnames⟩ := List.forall_mem_cons.1 hnames
    calc
      fillPath ((name, value) :: values) (textOf pieces)
        = fillPath values (textOf (pieces.flatMap (Piece.fill [(name, value)]))) :=
          congrArg (fillPath values) (replaceAll_textOf hplain hname value)
      _ = textOf ((pieces.flatMap (Piece.fill [(name, value)])).flatMap (Piece.fill values)) :=
          ih (plain_flatMap_fill hplain _) hnames
      _ = textOf (pieces.flatMap (Piece.fill ((name, value) :: values))) := by
          rw [List.flatMap_assoc, funext (fill_cons name value values)]

theorem openPlaceholder?_textOf (hplain : Plain pieces) :
    openPlaceholder? (textOf pieces) = pieces.findSome? Piece.name? := by
  induction pieces with
  | nil => rfl
  | cons p pieces ih =>
    obtain ⟨hp, hpieces⟩ := List.forall_mem_cons.1 hplain
    rw [textOf_cons, List.findSome?_cons]
    cases p with
    | char c =>
      have hc : c ≠ '\x7b' := fun hc => hp.1 (hc ▸ List.mem_singleton.2 rfl)
      rw [Piece.name?, ← ih hpieces, Piece.text, openPlaceholder?, openPlaceholder?,
        List.singleton_append, Text.splitOnce?, if_neg hc, Option.map_map]
      rfl
    | place name =>
      have hopen : Text.splitOnce? '\x7b' (placeholder name ++ textOf pieces) =
          some ([], name.toList ++ '\x7d' :: textOf pieces) :=
        Text.splitOnce?_eq_some_iff.2 ⟨by simp [placeholder], List.not_mem_nil⟩
      have hname : (name.toList ++ '\x7d' :: textOf pieces).takeWhile (· != '\x7d') =
          name.toList := by
        rw [List.takeWhile_append_of_pos, List.takeWhile_cons_of_neg (by simp), List.append_nil]
        intro c hc
        exact bne_iff_ne.2 fun heq => hp.2 (heq ▸ hc)
      rw [Piece.name?, Piece.text, openPlaceholder?, hopen, Option.map_some]
      simp only [hname, String.ofList_toList]

theorem findSome?_fill (values : Table String) (p : Piece) :
    (p.fill values).findSome? Piece.name? =
      p.name?.filter fun name => !Table.contains name values := by
  cases p with
  | char c => rfl
  | place name =>
    rw [Piece.fill, Piece.name?, Option.filter_some, Table.contains]
    cases Table.get? name values with
    | none => rfl
    | some value =>
      simp [List.findSome?_map, Function.comp_def, Piece.name?]

theorem openPlaceholder?_fillPath (hplain : Plain pieces)
    (hnames : ∀ entry ∈ values, Braceless entry.1.toList) :
    openPlaceholder? (fillPath values (textOf pieces)) =
      pieces.findSome? fun p => p.name?.filter fun name => !Table.contains name values := by
  rw [fillPath_textOf hplain hnames, openPlaceholder?_textOf (plain_flatMap_fill hplain values)]
  induction pieces with
  | nil => rfl
  | cons p pieces ih =>
    rw [List.flatMap_cons, List.findSome?_append, findSome?_fill, List.findSome?_cons,
      ih (List.forall_mem_cons.1 hplain).2]
    cases p.name?.filter fun name => !Table.contains name values <;> rfl

theorem fillPath_eq_filled (hplain : Plain pieces)
    (hnames : ∀ entry ∈ values, Braceless entry.1.toList)
    (hgiven : ∀ name, .place name ∈ pieces → Table.contains name values = true) :
    fillPath values (textOf pieces) = pieces.flatMap (Piece.filled values) := by
  rw [fillPath_textOf hplain hnames, textOf, List.flatMap_assoc]
  refine List.flatMap_congr fun p hp => ?_
  cases p with
  | char c => rfl
  | place name =>
    obtain ⟨value, hvalue⟩ := Option.isSome_iff_exists.1 (hgiven name hp)
    rw [Piece.fill, Piece.filled, hvalue]
    exact textOf_chars _

end Arazzo.Request
