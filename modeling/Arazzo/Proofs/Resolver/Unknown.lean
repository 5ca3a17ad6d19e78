import Arazzo.Proofs.Expression
import Arazzo.Proofs.Resolver.Memory
import Arazzo.Proofs.Resolver.Reading

/-! Texts that begin as expressions do and are none. A text whose first word is unknown stands for itself,
unless a `#` in it is followed by what is no pointer: the pointer is read before the word is looked at. -/

namespace Arazzo

variable {head fragment : List Char} {pointer : Option Pointer} {text : String}

def leadWords : List String :=
  ["request.", "response.", "inputs.", "outputs.", "steps.", "workflows.", "sourceDescriptions.",
    "components."]

/-- None of the words that stand alone, and not behind one of the others. -/
def UnknownWord (head : List Char) : Prop :=
  head ∉ ["url".toList, "method".toList, "statusCode".toList] ∧
    ∀ lead ∈ leadWords, ¬ lead.toList <+: head

instance : DecidablePred UnknownWord := fun _ => inferInstanceAs (Decidable (_ ∧ _))

namespace Expression

theorem readHead_unknown (h : UnknownWord head) :
    readHead head pointer = .error (.unknown (String.ofList head)) := by
  obtain ⟨hbare, hleads⟩ := h
  simp only [List.mem_cons, List.not_mem_nil, or_false, not_or] at hbare
  cases hsplit : Text.splitOnce? '.' head with
  | none => rw [readHead, if_neg hbare.1, if_neg hbare.2.1, if_neg hbare.2.2, hsplit]
  | some parts =>
    obtain ⟨word, rest⟩ := parts
    obtain ⟨rfl, hdot⟩ := Text.splitOnce?_eq_some_iff.1 hsplit
    have hother {keyword : String} (hkeyword : keyword ++ "." ∈ leadWords) : word ≠ keyword.toList := by
      rintro rfl
      exact hleads _ hkeyword ⟨rest, by simp⟩
    rw [readHead_word hdot, if_neg (hother (by decide)), if_neg (hother (by decide))]
    cases hscope : Scope.ofKeyword? (String.ofList word) with
    | none => rfl
    | some scope =>
      have hword : word = scope.keyword.toList := by
        rw [← Scope.ofKeyword?_eq_some_iff.1 hscope, String.toList_ofList]
      exact absurd hword (hother (by cases scope <;> decide))

theorem parse_unknown (htrim : Text.trim text = text) (htext : text.toList = '$' :: head)
    (hmark : '#' ∉ head) (h : UnknownWord head) :
    parse text = .error (.unknown (String.ofList head)) := by
  rw [parse_unpointed ((Text.trim_eq_self_iff.1 htrim).trans htext) hmark, readHead_unknown h]

theorem parse_unknown_pointed (htrim : Text.trim text = text)
    (htext : text.toList = '$' :: (head ++ '#' :: fragment)) (hmark : '#' ∉ head) (h : UnknownWord head) :
    parse text = (readPointer fragment).bind fun _ => .error (.unknown (String.ofList head)) := by
  rw [parse_pointed ((Text.trim_eq_self_iff.1 htrim).trans htext) hmark]
  simp only [readHead_unknown h]

end Expression

namespace Resolver

variable {r : Resolver}

/-- A text with an unknown word stands for itself in every state and every context, if it has no `#` or a
pointer behind the first one. Where no pointer can be read there, the text is refused. -/
theorem resolve_unknown {tail : List Char} (hreached : Reached r) (htrim : Text.trim text = text)
    (htext : text.toList = '$' :: (head ++ tail)) (hmark : '#' ∉ head) (hunknown : UnknownWord head)
    (context : Option Context) :
    (tail = [] → (resolve text context).run r = (.ok (some (.str text)), r)) ∧
    ∀ fragment, tail = '#' :: fragment →
      (∀ pointer, Pointer.parse (String.ofList fragment) = .ok pointer →
        (resolve text context).run r = (.ok (some (.str text)), r)) ∧
      ∀ error, Pointer.parse (String.ofList fragment) = .error error →
        (resolve text context).run r = (.error (.syntaxError text (.badPointer error)), r) := by
  have run {answer : Except ResolveError (Option Json)}
      (h : evaluateText r.document r.published context text = (answer, false)) :
      (resolve text context).run r = (answer, r) :=
    resolve_run_of_unfixed hreached.truthful (by rw [htrim, h])
  refine ⟨?_, ?_⟩
  · rintro rfl
    rw [List.append_nil] at htext
    refine run ?_
    rw [evaluateText, afterLead?_dollar htext]
    dsimp only
    rw [Expression.parse_unknown htrim htext hmark hunknown]
  · rintro fragment rfl
    have hparse := Expression.parse_unknown_pointed htrim htext hmark hunknown
    refine ⟨fun pointer hpointer => run ?_, fun error herror => run ?_⟩
    · have hread := Expression.readPointer_eq_ok_iff.2 hpointer
      rw [hread] at hparse
      rw [evaluateText, afterLead?_dollar htext]
      dsimp only
      rw [hparse]
      rfl
    · have hread : Expression.readPointer fragment = .error (.badPointer error) := by
        rw [Expression.readPointer, herror]
      rw [hread] at hparse
      rw [evaluateText, afterLead?_dollar htext]
      dsimp only
      rw [hparse]
      rfl

theorem resolve_unknown_tag :
    UnknownWord "order".toList ∧
      (resolve "$order#/7" none).run ⟨⟨"1.0.1", {}, [], [], none, [], none⟩, [], []⟩ =
        (.ok (some (.str "$order#/7")), ⟨⟨"1.0.1", {}, [], [], none, [], none⟩, [], []⟩) := by
  have hunknown : UnknownWord "order".toList := by decide
  have htrim : Text.trim "$order#/7" = "$order#/7" := by decide +kernel
  have hreached : Reached ⟨⟨"1.0.1", {}, [], [], none, [], none⟩, [], []⟩ := ⟨_, [], rfl⟩
  have htext : "$order#/7".toList = '$' :: ("order".toList ++ "#/7".toList) := rfl
  obtain ⟨-, hpointed⟩ := resolve_unknown hreached htrim htext (by decide) hunknown none
  exact ⟨hunknown, (hpointed "/7".toList rfl).1 ⟨"/7"⟩ (by decide)⟩

/-- A price with a mark behind it is not passed through. -/
theorem resolve_price :
    Reached ⟨⟨"1.0.1", {}, [], [], none, [], none⟩, [], []⟩ ∧ Text.trim "$5#1" = "$5#1" ∧
      "$5#1".toList = '$' :: ("5".toList ++ "#1".toList) ∧ UnknownWord "5".toList ∧
      ((resolve "$5#1" none).run ⟨⟨"1.0.1", {}, [], [], none, [], none⟩, [], []⟩).1 =
        .error (.syntaxError "$5#1" (.badPointer .noLeadingSlash)) := by
  exact ⟨⟨_, [], rfl⟩, by decide +kernel, rfl, by decide, rfl⟩

end Resolver
end Arazzo
