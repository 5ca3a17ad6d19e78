import Arazzo.Proofs.Expression
import Arazzo.Proofs.Resolver.Memory
import Arazzo.Validation.Basic

/-! Outputs under their keys. An output is published under its whole name, and read as the output
that the name's part before its first dot names: with a name that has no dot the same one. -/

namespace Arazzo

open Validation

def Scope.publishes : Scope → Bool
  | .steps => true
  | .workflows => true
  | _ => false

variable {scope scope' : Scope} {id id' name name' : String} {published : Table Json}
  {context : Option Context} {c : Char} {cs : List Char}

theorem nameChars_of_isIdText (h : isIdText id = true) :
    id.toList ≠ [] ∧ '.' ∉ id.toList ∧ ∀ c ∈ id.toList, Expression.isNameChar c = true := by
  simp only [isIdText, Bool.and_eq_true, Bool.not_eq_true', String.isEmpty_eq_false_iff,
    List.all_eq_true, Bool.or_eq_true, beq_iff_eq] at h
  obtain ⟨hne, hchars⟩ := h
  refine ⟨by simpa using hne, fun hdot => ?_, fun c hc => ?_⟩
  · have := hchars '.' hdot
    revert this
    decide
  · have := hchars c hc
    simp only [Expression.isNameChar, Bool.or_eq_true, beq_iff_eq]
    tauto

theorem nameChars_of_isKeyText (h : isKeyText name = true) :
    ∀ c ∈ name.toList, Expression.isNameChar c = true := by
  simp only [isKeyText, Bool.and_eq_true, List.all_eq_true] at h
  exact h.2

def keyRest (id name : String) : List Char :=
  id.toList ++ '.' :: ("outputs".toList ++ '.' :: name.toList)

theorem toList_outputKey (scope : Scope) (id name : String) :
    (outputKey scope id name).toList = '$' :: (scope.keyword.toList ++ '.' :: keyRest id name) := by
  simp [outputKey, keyRest]

theorem outputKey_scope_inj (h : outputKey scope id name = outputKey scope' id' name') :
    scope = scope' ∧ keyRest id name = keyRest id' name' := by
  have htext := congrArg String.toList h
  rw [toList_outputKey, toList_outputKey] at htext
  obtain ⟨hkeyword, hrest⟩ := Text.append_mark_inj (not_mem_keyword scope) (not_mem_keyword scope')
    (List.cons.inj htext).2
  refine ⟨?_, hrest⟩
  cases scope <;> cases scope' <;> first | rfl | exact absurd hkeyword (by decide)

theorem outputKey_name_inj (h : outputKey scope id name = outputKey scope id name') :
    name = name' := by
  have hnames := List.append_cancel_left (outputKey_scope_inj h).2
  exact String.toList_inj.1 (List.cons.inj (List.append_cancel_left (List.cons.inj hnames).2)).2

theorem outputKey_inj (hid : isIdText id = true) (hid' : isIdText id' = true)
    (h : outputKey scope id name = outputKey scope' id' name') :
    scope = scope' ∧ id = id' ∧ name = name' := by
  obtain ⟨rfl, hrest⟩ := outputKey_scope_inj h
  obtain ⟨hids, -⟩ := Text.append_mark_inj (nameChars_of_isIdText hid).2.1
    (nameChars_of_isIdText hid').2.1 hrest
  obtain rfl : id = id' := String.toList_inj.1 hids
  exact ⟨rfl, rfl, outputKey_name_inj h⟩

theorem nameChars_outputKey (hid : isIdText id = true) (hname : isKeyText name = true) :
    ∀ c ∈ (scope.keyword.toList ++ '.' :: keyRest id name), Expression.isNameChar c = true := by
  intro c hc
  simp only [keyRest, List.mem_append, List.mem_cons] at hc
  rcases hc with hc | rfl | hc | rfl | hc | rfl | hc
  · exact nameChars_keyword scope c hc
  · rfl
  · exact (nameChars_of_isIdText hid).2.2 c hc
  · rfl
  · have hall : "outputs".toList.all Expression.isNameChar = true := by decide
    exact List.all_eq_true.1 hall c hc
  · rfl
  · exact nameChars_of_isKeyText hname c hc

theorem trimChars_outputKey (hid : isIdText id = true) (hname : isKeyText name = true) :
    Text.trimChars (outputKey scope id name).toList = (outputKey scope id name).toList := by
  refine Text.trimChars_solid fun c hc => ?_
  rw [toList_outputKey] at hc
  rcases List.mem_cons.1 hc with rfl | hc
  · rfl
  · exact (isNameChar_plain (nameChars_outputKey hid hname c hc)).1

theorem trim_outputKey (hid : isIdText id = true) (hname : isKeyText name = true) :
    Text.trim (outputKey scope id name) = outputKey scope id name :=
  Text.trim_eq_self_iff.2 (trimChars_outputKey hid hname)

def nameParts (name : String) : List String := (Text.splitAll '.' name.toList).map String.ofList

theorem splitAll_keyRest (hid : isIdText id = true) :
    Text.splitAll '.' (keyRest id name) =
      id.toList :: "outputs".toList :: Text.splitAll '.' name.toList := by
  rw [keyRest, Text.splitAll_append (nameChars_of_isIdText hid).2.1,
    Text.splitAll_append (by decide)]

theorem parse_key (hscope : scope.publishes = true) (hid : isIdText id = true)
    (hname : isKeyText name = true) :
    Expression.parse (outputKey scope id name) =
      (Expression.readNamePath (keyRest id name) none).map (.named scope) := by
  have hfragment : Text.splitOnce? '#' (scope.keyword.toList ++ '.' :: keyRest id name) = none :=
    Text.splitOnce?_eq_none_iff.2 fun hc =>
      (isNameChar_plain (nameChars_outputKey hid hname _ hc)).2 rfl
  rw [Expression.parse, Expression.parseChars, trimChars_outputKey hid hname, toList_outputKey]
  simp only [hfragment]
  rw [Expression.readHead_scope, Expression.readNamed_names]
  rintro rfl
  cases hscope

theorem formed_key (hid : isIdText id = true) (hname : isKeyText name = true)
    (hparts : "" ∉ nameParts name) : NamePath.Formed ⟨id, "outputs" :: nameParts name, none⟩ := by
  obtain ⟨hne, hdot, hchars⟩ := nameChars_of_isIdText hid
  refine List.forall_mem_cons.2 ⟨⟨⟨hne, hchars⟩, hdot⟩, List.forall_mem_cons.2 ⟨?_, ?_⟩⟩
  · exact ⟨⟨by decide, List.all_eq_true.1 (by decide)⟩, by decide⟩
  · intro part hpart
    obtain ⟨cs, hcs, rfl⟩ := List.mem_map.1 hpart
    rw [String.toList_ofList]
    refine ⟨⟨?_, fun c hc => ?_⟩, Text.not_mem_of_mem_splitAll hcs⟩
    · rintro rfl
      exact hparts hpart
    · exact nameChars_of_isKeyText hname c (Text.mem_of_mem_splitAll hcs hc)

theorem toList_key (id name : String) :
    (Expression.namesText ⟨id, "outputs" :: nameParts name, none⟩).toList = keyRest id name := by
  have hlists : (nameParts name).map String.toList = Text.splitAll '.' name.toList := by
    simp [nameParts]
  rw [Expression.namesText, toList_names, List.map_cons, List.map_cons, hlists,
    Text.joinWith_cons (List.cons_ne_nil _ _), Text.joinWith_cons Text.splitAll_ne_nil,
    Text.joinWith_splitAll]
  simp [keyRest]

theorem parse_outputKey (hscope : scope.publishes = true) (hid : isIdText id = true)
    (hname : isKeyText name = true) (hparts : "" ∉ nameParts name) :
    Expression.parse (outputKey scope id name) =
      .ok (.named scope ⟨id, "outputs" :: nameParts name, none⟩) := by
  rw [parse_key hscope hid hname,
    readNamePath_eq_ok_iff.2 ⟨formed_key hid hname hparts, (toList_key id name).symm, rfl⟩]
  rfl

theorem parse_outputKey_empty (hscope : scope.publishes = true) (hid : isIdText id = true)
    (hname : isKeyText name = true) (hparts : "" ∈ nameParts name) :
    Expression.parse (outputKey scope id name) = .error .emptyName := by
  obtain ⟨part, hpart, hempty⟩ := List.mem_map.1 hparts
  obtain rfl : part = [] := by simpa using hempty
  rw [parse_key hscope hid hname, Expression.readNamePath, splitAll_keyRest hid, if_pos]
  · rfl
  · refine List.any_eq_true.2 ⟨[], ?_, rfl⟩
    exact List.mem_cons_of_mem _ (List.mem_cons_of_mem _ hpart)

def readOutput (published : Table Json) (scope : Scope) (id name : String) : Option Json :=
  match nameParts name with
  | [] => none
  | first :: rest => (Table.get? (outputKey scope id first) published).bind (walk? rest)

def keyAnswer (published : Table Json) (scope : Scope) (id name : String) :
    Except ResolveError (Option Json) :=
  if "" ∈ nameParts name then .error (.syntaxError (outputKey scope id name) .emptyName)
  else .ok (readOutput published scope id name)

theorem nameParts_eq_cons (name : String) : ∃ first rest, nameParts name = first :: rest := by
  cases h : Text.splitAll '.' name.toList with
  | nil => exact absurd h Text.splitAll_ne_nil
  | cons first rest => exact ⟨_, _, by rw [nameParts, h, List.map_cons]⟩

theorem evaluateText_outputKey (document : Document) (hscope : scope.publishes = true)
    (hid : isIdText id = true) (hname : isKeyText name = true) :
    evaluateText document published context (outputKey scope id name) =
      (keyAnswer published scope id name, false) := by
  have hlead : Text.afterLead? componentsLead (outputKey scope id name).toList = none := by
    rw [toList_outputKey]
    rfl
  rw [evaluateText, hlead, keyAnswer]
  dsimp only
  by_cases hparts : "" ∈ nameParts name
  · rw [parse_outputKey_empty hscope hid hname hparts, if_pos hparts]
  · rw [parse_outputKey hscope hid hname hparts, if_neg hparts]
    obtain ⟨first, rest, hcons⟩ := nameParts_eq_cons name
    have hpointer (value : Option Json) : (value.bind fun v => atPointer? none v) = value := by
      cases value <;> rfl
    cases scope with
    | steps =>
      simp only [Expression.value, Document.definitionOrOutput?, hcons, readOutput, hpointer,
        Expression.isFixed]
    | workflows =>
      simp only [Expression.value, Document.definitionOrOutput?, hcons, readOutput, hpointer,
        Expression.isFixed]
    | _ => cases hscope

theorem nameParts_plain (hdot : '.' ∉ name.toList) : nameParts name = [name] := by
  rw [nameParts, Text.splitAll_of_not_mem hdot, List.map_singleton, String.ofList_toList]

theorem keyAnswer_plain (hname : isKeyText name = true) (hdot : '.' ∉ name.toList) :
    keyAnswer published scope id name =
      .ok (Table.get? (outputKey scope id name) published) := by
  have hne : "" ∉ nameParts name := by
    rw [nameParts_plain hdot, List.mem_singleton]
    rintro rfl
    cases hname
  rw [keyAnswer, if_neg hne, readOutput, nameParts_plain hdot]
  cases h : Table.get? (outputKey scope id name) published <;> simp [h, walk?]

theorem keyAnswer_insert {value : Json} (hid : isIdText id = true) (hid' : isIdText id' = true)
    (hother : ¬ (scope' = scope ∧ id' = id ∧ (nameParts name).head? = some name')) :
    keyAnswer (Table.insert (outputKey scope' id' name') value published) scope id name =
      keyAnswer published scope id name := by
  obtain ⟨first, rest, hcons⟩ := nameParts_eq_cons name
  have hkey : outputKey scope' id' name' ≠ outputKey scope id first := by
    intro hsame
    obtain ⟨hscope, hids, hnames⟩ := outputKey_inj hid' hid hsame
    exact hother ⟨hscope, hids, by rw [hcons, hnames, List.head?_cons]⟩
  unfold keyAnswer readOutput
  rw [hcons]
  dsimp only
  rw [Table.get?_insert, if_neg hkey]

namespace Resolver

variable {r : Resolver}

/-- The key stands for this answer in every context. -/
def Answers (r : Resolver) (scope : Scope) (id name : String)
    (answer : Except ResolveError (Option Json)) : Prop :=
  ∀ context, ((resolve (outputKey scope id name) context).run r).1 = answer

theorem Truthful.answers (h : r.Truthful) (hscope : scope.publishes = true)
    (hid : isIdText id = true) (hname : isKeyText name = true) :
    r.Answers scope id name (keyAnswer r.published scope id name) := by
  intro context
  obtain ⟨memory, hrun, -⟩ := resolve_run h (outputKey scope id name) context
  rw [hrun, trim_outputKey hid hname, evaluateText_outputKey r.document hscope hid hname]

theorem Truthful.answers_publish (h : r.Truthful) (hscope : scope.publishes = true)
    (hid : isIdText id = true) (hname : isKeyText name = true) (hid' : isIdText id' = true)
    (hother : ¬ (scope' = scope ∧ id' = id ∧ (nameParts name).head? = some name')) (value : Json) :
    (r.publish (outputKey scope' id' name') value).Answers scope id name
      (keyAnswer r.published scope id name) := by
  have truthful : (r.publish (outputKey scope' id' name') value).Truthful := h
  rw [← keyAnswer_insert hid hid' hother]
  exact truthful.answers hscope hid hname

theorem Truthful.answers_plain (h : r.Truthful) (hscope : scope.publishes = true)
    (hid : isIdText id = true) (hname : isKeyText name = true) (hdot : '.' ∉ name.toList) :
    r.Answers scope id name (.ok (Table.get? (outputKey scope id name) r.published)) := by
  rw [← keyAnswer_plain hname hdot]
  exact h.answers hscope hid hname

end Resolver
end Arazzo
