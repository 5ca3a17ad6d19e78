import Arazzo.Proofs.Document.Members

/-! What is read of a value is the same wherever the value is said to stand. So what is read of a
list is a map over its items that leaves out those of which nothing could be read. -/

namespace Arazzo

namespace ObjectReader

variable {α : Type} {reader : ObjectReader} {key : String}

theorem requiredText_value : (reader.requiredText key).value =
    ((reader.raw? key).bind Json.asStr?).getD "" := by
  rw [requiredText, Checked.value_bind, Checked.value_pure, member?_value]

theorem optionalText_value : (reader.optionalText key).value =
    (reader.raw? key).bind Json.asStr? := member?_value

theorem version_value : (reader.version key).value =
    ((reader.raw? key).bind versionText?).getD "" := by
  rw [version, Checked.value_bind, Checked.value_pure, member?_value]

theorem required?_value : (reader.required? key).value = reader.raw? key := by
  rw [required?, member?_value, Option.bind_fun_some]

def keptOf (permitReserved : Bool) (allowed : List String) (members : Table Json) : Extensions :=
  let own := members.filter fun member => keeps permitReserved allowed member.1
  if own.isEmpty then
    match Table.get? "extensions" members with
    | some (.obj nested) => nested.filter fun member => keeps permitReserved [] member.1
    | _ => []
  else own

theorem extensions_value (permitReserved : Bool) (allowed : List String) :
    (reader.extensions permitReserved allowed).value =
      keptOf permitReserved allowed reader.members := by
  rw [extensions, keptOf, Checked.value_bind, ownExtensions_value, raw?]
  split
  · cases Table.get? "extensions" reader.members with
    | none => rfl
    | some value =>
      cases value with
      | obj nested => exact nestedExtensions_value nested
      | _ => rfl
  · rfl

end ObjectReader

namespace Document

open ObjectReader

variable {α : Type}

def found (read : ItemReader α) (value : Json) : Option α := (read value [] none).value

/-- Wherever the value is said to stand, the same is read of it. -/
def Placeless (read : ItemReader α) : Prop :=
  ∀ value location key, (read value location key).value = found read value

namespace Placeless

variable {read : ItemReader α} {reader : ObjectReader} {key : String}

theorem readItems_value (h : Placeless read) (location : Place) (i : Nat) (items : List Json) :
    (readItems read location i items).value = items.filterMap (found read) := by
  induction items generalizing i with
  | nil => rfl
  | cons item rest ih =>
    rw [readItems, Checked.value_bind, Checked.value_bind, Checked.value_pure, h, ih,
      List.filterMap_cons]
    cases found read item <;> rfl

theorem readEntries_value (h : Placeless read) (location : Place) (members : Table Json) :
    (readEntries read location members).value =
      members.filterMap fun (name, value) => (found read value).map (name, ·) := by
  induction members with
  | nil => rfl
  | cons member rest ih =>
    obtain ⟨name, value⟩ := member
    rw [readEntries, Checked.value_bind, Checked.value_bind, Checked.value_pure, h, ih,
      List.filterMap_cons]
    dsimp only
    cases found read value <;> rfl

theorem optionalList_value (h : Placeless read) : (reader.optionalList read key).value =
    (((reader.raw? key).bind Json.asArr?).getD []).filterMap (found read) := by
  rw [optionalList, Checked.value_bind, optionalItems, member?_value]
  cases (reader.raw? key).bind Json.asArr? with
  | none => rfl
  | some items => exact h.readItems_value _ 0 items

theorem requiredList_value (h : Placeless read) : (reader.requiredList read key).value =
    (((reader.raw? key).bind Json.asArr?).getD []).filterMap (found read) := by
  rw [requiredList, Checked.value_bind, requiredItems, member?_value]
  cases (reader.raw? key).bind Json.asArr? with
  | none => rfl
  | some items => exact h.readItems_value _ 0 items

theorem optionalTable_value (h : Placeless read) : (reader.optionalTable read key).value =
    (((reader.raw? key).bind Json.asObj?).getD []).filterMap
      fun (name, value) => (found read value).map (name, ·) := by
  rw [optionalTable, Checked.value_bind, optionalMembers, member?_value]
  cases (reader.raw? key).bind Json.asObj? with
  | none => rfl
  | some members => exact h.readEntries_value _ members

end Placeless

variable {reader : ObjectReader} {key : String} {permitReserved : Bool}

theorem readKeyword_value (ofKeyword? : String → Option α) (reason : String → String)
    (text : String) : (readKeyword reader key ofKeyword? reason text).value = ofKeyword? text := by
  rw [readKeyword]
  cases ofKeyword? text <;> rfl

theorem optionalKeyword_value (ofKeyword? : String → Option α) (reason : String → String) :
    (optionalKeyword reader key ofKeyword? reason).value =
      ((reader.raw? key).bind Json.asStr?).bind ofKeyword? := by
  rw [optionalKeyword, Checked.value_bind, optionalText_value]
  cases (reader.raw? key).bind Json.asStr? with
  | none => rfl
  | some text => exact readKeyword_value ofKeyword? reason text

theorem readActionKind_value (ofKeyword? : String → Option α) (expected : String) :
    (readActionKind reader ofKeyword? expected).value =
      ((reader.raw? "type").bind Json.asStr?).bind ofKeyword? := by
  rw [readActionKind, Checked.value_bind, member?_value]
  cases (reader.raw? "type").bind Json.asStr? with
  | none => rfl
  | some text => exact readKeyword_value ofKeyword? _ text

theorem placeless_text : Placeless readText := by
  intro value location key
  cases value <;> rfl

theorem placeless_schema : Placeless readSchema := by
  intro value location key
  cases value <;> rfl

theorem placeless_reusable : Placeless (readReusable permitReserved) := by
  intro value location key
  cases value with
  | obj members =>
    simp only [found, readReusable, open?, Checked.value_bind, Checked.value_pure, member?_value,
      raw?]
    cases (Table.get? "reference" members).bind Json.asStr? <;> rfl
  | _ => rfl

theorem placeless_parameter : Placeless (readParameter permitReserved) := by
  intro value location key
  cases value with
  | obj members =>
    simp only [found, readParameter, open?, Checked.value_bind, Checked.value_pure,
      requiredText_value, optionalKeyword_value, required?_value, extensions_value, raw?]
  | _ => rfl

theorem placeless_entry {read : ItemReader α} (h : Placeless read) :
    Placeless (readEntry permitReserved read) := by
  intro value location key
  rw [found, readEntry, readEntry]
  split
  · rw [Checked.value_bind, Checked.value_bind, placeless_reusable]
    rfl
  · rw [Checked.value_bind, Checked.value_bind, h]
    rfl

theorem readDialect_value (value : Json) (location : Place) :
    (readDialect permitReserved value location).value =
      (readDialect permitReserved value []).value := by
  cases value with
  | obj members =>
    simp only [readDialect, open?, Checked.value_bind, Checked.value_pure, member?_value,
      version_value, extensions_value, raw?]
    cases (Table.get? "type" members).bind Json.asStr? with
    | none => rfl
    | some text => simp only [Checked.value_bind, Checked.value_pure, readKeyword_value]
  | _ => rfl

theorem readCriterionType_value (members : Table Json) (location : Place) :
    (readCriterionType permitReserved ⟨members, location⟩).value =
      (readCriterionType permitReserved ⟨members, []⟩).value := by
  rw [readCriterionType, readCriterionType, raw?, raw?]
  cases Table.get? "type" members with
  | none => rfl
  | some value =>
    cases value with
    | str text => simp only [Checked.value_bind, Checked.value_pure, readKeyword_value]
    | obj members => simp only [Checked.value_bind, readDialect_value _ location]
    | _ => rfl

theorem placeless_criterion : Placeless (readCriterion permitReserved) := by
  intro value location key
  cases value with
  | obj members =>
    simp only [found, readCriterion, open?, Checked.value_bind, Checked.value_pure,
      requiredText_value, optionalText_value, readCriterionType_value members (location ++ _),
      extensions_value, raw?]
    rfl
  | _ => rfl

theorem placeless_successAction : Placeless (readSuccessAction permitReserved) := by
  intro value location key
  cases value with
  | obj members =>
    simp only [found, readSuccessAction, open?, Checked.value_bind, Checked.value_pure,
      requiredText_value, optionalText_value, readActionKind_value,
      placeless_criterion.optionalList_value, extensions_value, raw?]
  | _ => rfl

theorem optionalNumber_value {reader : ObjectReader} : (reader.optionalNumber key).value =
    (reader.raw? key).bind fun v => v.asNum?.map Json.Number.toFloat := member?_value

theorem optionalNat_value {reader : ObjectReader} : (reader.optionalNat key).value =
    (reader.raw? key).bind smallNat? := member?_value

theorem optionalMembers_value {reader : ObjectReader} : (reader.optionalMembers key).value =
    (reader.raw? key).bind Json.asObj? := member?_value

theorem placeless_failureAction : Placeless (readFailureAction permitReserved) := by
  intro value location key
  cases value with
  | obj members =>
    simp only [found, readFailureAction, open?, Checked.value_bind, Checked.value_pure,
      requiredText_value, optionalText_value, readActionKind_value, optionalNumber_value,
      optionalNat_value, placeless_criterion.optionalList_value, extensions_value, raw?]
  | _ => rfl

theorem placeless_replacement : Placeless (readReplacement permitReserved) := by
  intro value location key
  cases value with
  | obj members =>
    simp only [found, readReplacement, open?, Checked.value_bind, Checked.value_pure,
      requiredText_value, required?_value, extensions_value, raw?]
  | _ => rfl

theorem readRequestBody_value (value : Json) (location : Place) :
    (readRequestBody permitReserved value location).value =
      (readRequestBody permitReserved value []).value := by
  cases value with
  | obj members =>
    simp only [readRequestBody, open?, Checked.value_bind, Checked.value_pure, optionalText_value,
      placeless_replacement.optionalList_value, extensions_value, raw?]
  | _ => rfl

theorem optionalPart_value {read : Json → Place → Checked (Option α)}
    (h : ∀ value location, (read value location).value = (read value []).value) :
    (reader.optionalPart read key).value =
      (reader.raw? key).bind fun value => (read value []).value := by
  rw [optionalPart]
  cases reader.raw? key with
  | none => rfl
  | some value => exact h value _

theorem placeless_step : Placeless (readStep permitReserved) := by
  intro value location key
  cases value with
  | obj members =>
    simp only [found, readStep, open?, Checked.value_bind, Checked.value_pure,
      requiredText_value, optionalText_value, optionalPart_value readRequestBody_value,
      (placeless_entry placeless_parameter).optionalList_value,
      placeless_criterion.optionalList_value,
      (placeless_entry placeless_successAction).optionalList_value,
      (placeless_entry placeless_failureAction).optionalList_value,
      placeless_text.optionalTable_value, extensions_value, raw?]
  | _ => rfl

theorem placeless_workflow : Placeless (readWorkflow permitReserved) := by
  intro value location key
  cases value with
  | obj members =>
    simp only [found, readWorkflow, open?, Checked.value_bind, Checked.value_pure,
      requiredText_value, optionalText_value, optionalMembers_value,
      (placeless_entry placeless_parameter).optionalList_value, placeless_text.optionalList_value,
      placeless_step.requiredList_value,
      (placeless_entry placeless_successAction).optionalList_value,
      (placeless_entry placeless_failureAction).optionalList_value,
      placeless_text.optionalTable_value, extensions_value, raw?]
  | _ => rfl

theorem placeless_source : Placeless (readSource permitReserved) := by
  intro value location key
  cases value with
  | obj members =>
    simp only [found, readSource, open?, Checked.value_bind, Checked.value_pure,
      requiredText_value, optionalKeyword_value, extensions_value, raw?]
  | _ => rfl

end Document
end Arazzo
