import Arazzo.Proofs.OpenApi.OperationPath
import Arazzo.Proofs.Pointer

/-! The form that a path of an operation is meant to have, against the texts that are read as one: the
source may stand amid other text, and tildes may escape nothing. -/

namespace Arazzo.OpenApi.OperationPath

variable {cs before path method lead first rest tail : List Char} {text : String}
  {sourceName : Option String} {target : OperationPath}

/-- What stands before the fragment and the two names in it. -/
structure Parts (cs before path method : List Char) : Prop where
  whole : cs = before ++ fragmentLead ++ (path ++ '/' :: method)
  unmarked : '#' ∉ before
  path : Token path
  method : Token method

/-- Nothing but blanks stands beside the source, and every tilde in the path escapes something. -/
def Formed (cs : List Char) : Prop :=
  ∃ before path method, Parts cs before path method ∧
    (Text.trimChars before = [] ∨
      ∃ name, name ≠ [] ∧ Text.trimChars before = opening ++ name ++ closing) ∧
    Pointer.Escaped path

theorem Parts.unique {before' path' method' : List Char} (h : Parts cs before path method)
    (h' : Parts cs before' path' method') :
    before = before' ∧ path = path' ∧ method = method' := by
  have hwhole (before path method : List Char) : before ++ fragmentLead ++ (path ++ '/' :: method) =
      before ++ '#' :: ("/paths/".toList ++ (path ++ '/' :: method)) := by
    rw [List.append_assoc]
    rfl
  have htexts := h.whole.symm.trans h'.whole
  rw [hwhole, hwhole] at htexts
  obtain ⟨hbefore, hfragment⟩ := Text.append_mark_inj h.unmarked h'.unmarked htexts
  exact ⟨hbefore, Text.append_mark_inj h.path.undivided h'.path.undivided
    (List.append_cancel_left hfragment)⟩

theorem written_iff : Written cs target ↔ ∃ before path method, Parts cs before path method ∧
    Designates before target.sourceName ∧
    target.path = String.ofList (Pointer.unescapeChars path) ∧
    target.method = Text.toLower (String.ofList method) := by
  constructor
  · rintro ⟨unmarked, designates, hpath, hmethod⟩
    exact ⟨_, _, _, ⟨rfl, unmarked, hpath, hmethod⟩, designates, rfl, rfl⟩
  · obtain ⟨sourceName, path, method⟩ := target
    rintro ⟨before, pathChars, methodChars, ⟨rfl, unmarked, hpath, hmethod⟩, designates, rfl, rfl⟩
    exact .intro unmarked designates hpath hmethod

theorem trimChars_of_designates_none (h : Designates before none) : Text.trimChars before = [] := by
  cases h with
  | all blank => exact Text.trimChars_eq_nil_iff.2 blank

theorem lead_eq_of_blank (hfirst : ∀ c ∈ first, Text.isBlank c = true)
    (hleast : lead.length ≤ first.length)
    (h : lead ++ opening ++ rest = first ++ opening ++ tail) : lead = first := by
  have hprefix : lead <+: first := by
    refine List.prefix_of_prefix_length_le ⟨opening ++ rest, ?_⟩ ⟨opening ++ tail, rfl⟩ hleast
    rw [← List.append_assoc, h, List.append_assoc]
  obtain ⟨_ | ⟨c, between⟩, rfl⟩ := hprefix
  · exact (List.append_nil lead).symm
  · simp only [List.append_assoc] at h
    have hcs := List.append_cancel_left h
    have hbrace : '\x7b' = c := (List.cons.inj hcs).1
    have hblank := hfirst c (List.mem_append_right _ (List.mem_cons_self ..))
    rw [← hbrace] at hblank
    cases hblank

theorem prefix_of_blank (hrest : ∀ c ∈ rest, Text.isBlank c = true)
    (h : cs ++ rest = first ++ closing ++ tail) : first ++ closing <+: cs := by
  rcases List.append_eq_append_iff.1 h with ⟨between, hcs, hblank⟩ | ⟨between, hcs, -⟩
  · obtain rfl | ⟨before, c, rfl⟩ := between.eq_nil_or_concat
    · exact ⟨[], by rw [List.append_nil, hcs, List.append_nil]⟩
    · have hlast := congrArg List.getLast? hcs
      rw [List.getLast?_append_of_ne_nil first (by decide : closing ≠ []), List.concat_eq_append,
        ← List.append_assoc, List.getLast?_concat] at hlast
      have hbrace : '\x7d' = c := Option.some.inj hlast
      have hc := hrest c (by simp [hblank])
      rw [← hbrace] at hc
      cases hc
  · exact ⟨between, hcs.symm⟩

theorem exists_name_of_designates {name : String} (h : Designates before (some name))
    (hopening : opening <+: Text.trimChars before) (hclosing : closing <:+ Text.trimChars before) :
    ∃ name, name ≠ [] ∧ Text.trimChars before = opening ++ name ++ closing := by
  obtain ⟨inner, hinner⟩ := hopening
  obtain ⟨blanks, blanks', hbefore, hblanks, hblanks'⟩ := Text.exists_trimChars before
  cases h with
  | @source lead name rest hfirst nonempty undotted =>
    rw [← hinner] at hbefore hclosing ⊢
    have hplace : lead.length ≤ blanks.length := hfirst.2 blanks ⟨inner ++ blanks', by
      rw [hbefore]
      simp only [List.append_assoc]⟩
    have hsame : lead ++ opening ++ (name ++ closing ++ rest) =
        blanks ++ opening ++ (inner ++ blanks') := by
      rw [hbefore]
      simp only [List.append_assoc]
    obtain rfl := lead_eq_of_blank hblanks hplace hsame
    have hname : name ++ closing <+: inner :=
      prefix_of_blank hblanks' (List.append_cancel_left hsame).symm
    have hlength := hname.length_le
    rw [List.length_append] at hlength
    obtain ⟨name', rfl⟩ : closing <:+ inner :=
      List.suffix_of_suffix_length_le hclosing (List.suffix_append ..) (by omega)
    refine ⟨name', ?_, by rw [List.append_assoc]⟩
    rintro rfl
    have hpositive := List.length_pos_iff.2 nonempty
    rw [List.nil_append] at hlength
    omega

theorem formed_iff (h : Parts cs before path method) (designates : Designates before sourceName) :
    Formed cs ↔ Pointer.Escaped path ∧ (sourceName = none ∨
      opening <+: Text.trimChars before ∧ closing <:+ Text.trimChars before) := by
  constructor
  · rintro ⟨before', path', method', h', hsource, hescaped⟩
    obtain ⟨rfl, rfl, rfl⟩ := h.unique h'
    refine ⟨hescaped, ?_⟩
    rcases hsource with hblank | ⟨name, -, hname⟩
    · cases sourceName with
      | none => exact .inl rfl
      | some name =>
        obtain ⟨c, hc, hnot⟩ := not_blank_of_designates designates
        rw [Text.trimChars_eq_nil_iff.1 hblank c hc] at hnot
        cases hnot
    · rw [hname]
      exact .inr ⟨⟨name ++ closing, by rw [List.append_assoc]⟩, ⟨opening ++ name, rfl⟩⟩
  · rintro ⟨hescaped, hsource⟩
    refine ⟨before, path, method, h, ?_, hescaped⟩
    cases sourceName with
    | none => exact .inl (trimChars_of_designates_none designates)
    | some name =>
      obtain ⟨hopening, hclosing⟩ := hsource.resolve_left (Option.some_ne_none name)
      exact .inr (exists_name_of_designates designates hopening hclosing)

/--
A text is read as a path of an operation exactly when it has the parts of one and what stands before
the fragment is blank or designates a source. Such a text has its intended form exactly when the path
is escaped and, its blanks aside, nothing stands before the source or behind it.
-/
theorem parse_formed_iff (text : String) :
    (∀ target, parse text = .ok target ↔ ∃ before path method,
      Parts text.toList before path method ∧ Designates before target.sourceName ∧
      target.path = String.ofList (Pointer.unescapeChars path) ∧
      target.method = Text.toLower (String.ofList method)) ∧
    ∀ before path method sourceName, Parts text.toList before path method →
      Designates before sourceName →
      (Formed text.toList ↔ Pointer.Escaped path ∧ (sourceName = none ∨
        opening <+: Text.trimChars before ∧ closing <:+ Text.trimChars before)) :=
  ⟨fun _ => parse_eq_ok_iff.trans written_iff, fun _ _ _ _ h designates =>
    formed_iff h designates⟩

theorem parse_formed_iff_api :
    parse " \x7b$sourceDescriptions.api.url\x7d #/paths/~1p/Get" = .ok ⟨some "api", "/p", "get"⟩ ∧
      Formed " \x7b$sourceDescriptions.api.url\x7d #/paths/~1p/Get".toList := by
  have parts : Parts " \x7b$sourceDescriptions.api.url\x7d #/paths/~1p/Get".toList
      " \x7b$sourceDescriptions.api.url\x7d ".toList "~1p".toList "Get".toList :=
    ⟨by decide, by decide, ⟨by decide, by decide⟩, ⟨by decide, by decide⟩⟩
  have designates : Designates " \x7b$sourceDescriptions.api.url\x7d ".toList (some "api") :=
    sourceName?_eq_some_iff.1 (by decide)
  refine ⟨((parse_formed_iff _).1 _).2 ⟨_, _, _, parts, designates, by decide, by decide +kernel⟩,
    ((parse_formed_iff _).2 _ _ _ _ parts designates).2 ⟨Pointer.escapesOk_iff.1 (by decide), .inr ?_⟩⟩
  exact ⟨by decide, by decide⟩

/-- Other text before the source, or a tilde that escapes nothing, is read all the same. -/
theorem parse_unformed :
    (parse "x\x7b$sourceDescriptions.api.url\x7d#/paths/~1p/get" = .ok ⟨some "api", "/p", "get"⟩ ∧
      ¬ Formed "x\x7b$sourceDescriptions.api.url\x7d#/paths/~1p/get".toList) ∧
    parse "#/paths/~2/get" = .ok ⟨none, "~2", "get"⟩ ∧ ¬ Formed "#/paths/~2/get".toList := by
  have source : Parts "x\x7b$sourceDescriptions.api.url\x7d#/paths/~1p/get".toList
      "x\x7b$sourceDescriptions.api.url\x7d".toList "~1p".toList "get".toList :=
    ⟨by decide, by decide, ⟨by decide, by decide⟩, ⟨by decide, by decide⟩⟩
  have designates : Designates "x\x7b$sourceDescriptions.api.url\x7d".toList (some "api") :=
    sourceName?_eq_some_iff.1 (by decide)
  have tilde : Parts "#/paths/~2/get".toList [] "~2".toList "get".toList :=
    ⟨by decide, by decide, ⟨by decide, by decide⟩, ⟨by decide, by decide⟩⟩
  have blank : Designates [] none := .all fun c hc => absurd hc List.not_mem_nil
  refine ⟨⟨by decide +kernel, fun formed => ?_⟩, by decide +kernel, fun formed => ?_⟩
  · have hopening := ((formed_iff source designates).1 formed).2
    revert hopening
    decide
  · have hescaped := Pointer.escapesOk_iff.2 ((formed_iff tilde blank).1 formed).1
    revert hescaped
    decide

end Arazzo.OpenApi.OperationPath
