import Arazzo.Proofs.Document.Fields
import Arazzo.Proofs.Document.Version

/-! What a reader of documents puts up with. A member of an unknown name is told of and otherwise
left alone, and an optional member of the wrong kind is told of and otherwise taken for absent,
wherever in the tree the object stands. -/

namespace Arazzo

namespace Document

open ObjectReader Validation
open Checked (Exchanges)

variable {permitReserved : Bool} {sourcePath : Option String} {tree value : Json} {place : Place}
  {kind owner : ObjectKind} {members members' : Table Json} {field : Field} {key : String}
  {old new : List Diagnostic}

theorem dropLast_append_getLast? (place : Place) :
    place.dropLast ++ place.getLast?.toList = place := by
  rcases List.eq_nil_or_concat place with rfl | ⟨before, step, rfl⟩
  · rfl
  · rw [List.concat_eq_append, List.dropLast_concat, List.getLast?_concat]
    rfl

theorem ObjectKind.inTurn {location : Place} {key : Option PlaceStep} (hkind : kind ≠ .reusable)
    (h : kind.Seated location key) :
    InTurn permitReserved sourcePath (location ++ key.toList) kind.keys kind.fields fun members =>
      kind.read permitReserved sourcePath (.obj members) location key := by
  cases kind with
  | document =>
    obtain ⟨rfl, rfl⟩ := h.2 rfl
    exact inTurn_document _ _
  | info =>
    obtain rfl := h.1 "info" rfl
    exact inTurn_info _ _ _
  | source => exact inTurn_source _ _ _ _
  | workflow => exact inTurn_workflow _ _ _ _
  | step => exact inTurn_step _ _ _ _
  | parameter => exact inTurn_parameter _ _ _ _
  | reusable => exact absurd rfl hkind
  | requestBody =>
    obtain rfl := h.1 "requestBody" rfl
    exact inTurn_requestBody _ _ _
  | replacement => exact inTurn_replacement _ _ _ _
  | criterion => exact inTurn_criterion _ _ _ _
  | dialect =>
    obtain rfl := h.1 "type" rfl
    exact inTurn_dialect _ _ _
  | successAction => exact inTurn_successAction _ _ _ _
  | failureAction => exact inTurn_failureAction _ _ _ _
  | components =>
    obtain rfl := h.1 "components" rfl
    exact inTurn_components _ _ _

theorem Opened.inTurn (h : Opened tree place kind members) (hkind : kind ≠ .reusable) :
    InTurn permitReserved sourcePath place kind.keys kind.fields
      (kind.readAt permitReserved sourcePath place) := by
  have hread : InTurn permitReserved sourcePath (place.dropLast ++ place.getLast?.toList) kind.keys
      kind.fields (kind.readAt permitReserved sourcePath place) := ObjectKind.inTurn hkind h.seated
  rwa [dropLast_append_getLast?] at hread

theorem Opened.exchanges_field (h : Opened tree place kind members) (hkind : kind ≠ .reusable)
    (hmem : field ∈ kind.fields) (hbusy : ¬ (field.form = .any ∧ field.content = .plain))
    (halike : Alike field.key members members')
    (hfield : ∀ {β : Type} {work : Table Json → Checked β},
      Fits permitReserved sourcePath place field work →
      Exchanges old new (work members) (work members')) :
    Exchanges old new (kind.readAt permitReserved sourcePath place members)
      (kind.readAt permitReserved sourcePath place members') := by
  have hkey : field.key ∈ kind.keys := List.mem_map_of_mem hmem
  refine (h.inTurn hkind).exchanges_field kind.nodup_keys hmem hbusy
    (fun other _ hne => halike.get?_eq hne) (fun hperm => ?_) hfield
  refine halike.extensions_eq (hperm.mem_iff.2 hkey) ?_
  rintro hsame
  exact kind.extensions_notMem_keys (hsame ▸ hkey)

theorem Opened.exchanges (h : Opened tree place kind members) (hsound : tree.Sound)
    (hsame : Table.contains "reference" members = Table.contains "reference" members')
    (hread : Exchanges old new (kind.readAt permitReserved sourcePath place members)
      (kind.readAt permitReserved sourcePath place members')) :
    Exchanges old new (read? permitReserved sourcePath tree)
      (read? permitReserved sourcePath (Place.put (.obj members') place tree)) := by
  induction h generalizing members' with
  | root is =>
    subst is
    exact hread
  | @within place suffix owner kind members inner field value opened mem get holds ih =>
    have hbusy : field.content ≠ .plain := by
      intro hplain
      rw [hplain] at holds
      cases holds
    have howner : owner ≠ .reusable := by
      rintro rfl
      have hplain : ∀ field ∈ ObjectKind.reusable.fields, field.content = .plain := by decide
      exact hbusy (hplain field mem)
    have hkey : field.key ≠ "reference" := fun hreference =>
      hbusy (ObjectKind.plain_of_reference owner field mem hreference).2
    rw [Place.put_onward opened.follow?, Place.put_member get]
    refine ih ?_ ?_
    · rw [Table.contains, Table.contains, Table.get?_insert, if_neg hkey]
    · refine opened.exchanges_field howner mem (fun hboth => hbusy hboth.2) (alike_insert ..)
        fun hfits => hfits.passes ((opened.sound hsound).get? get) get holds ?_ hsame hread
      rw [Table.get?_insert, if_pos rfl]

theorem parse_document_of_exchanges {tree' : Json} (h : Exchanges old new
      (read? permitReserved sourcePath tree) (read? permitReserved sourcePath tree')) :
    (parse permitReserved sourcePath tree).document =
      (parse permitReserved sourcePath tree').document := h.value

theorem parse_diagnostics_of_exchanges {tree' : Json} (h : Exchanges old new
      (read? permitReserved sourcePath tree) (read? permitReserved sourcePath tree')) :
    ∃ before after,
      (parse permitReserved sourcePath tree).diagnostics = before ++ old ++ after ∧
        (parse permitReserved sourcePath tree').diagnostics = before ++ new ++ after := by
  obtain ⟨hvalue, before, after, hold, hnew⟩ := h
  refine ⟨before, after ++
    ((read? permitReserved sourcePath tree).value.map validate).getD [], ?_, ?_⟩
  · simp only [parse, hold, List.append_assoc]
  · simp only [parse, hnew, hvalue, List.append_assoc]

theorem parse_valid_of_exchanges {tree' : Json} (hold : Harmless old) (hnew : Harmless new)
    (h : Exchanges old new (read? permitReserved sourcePath tree)
      (read? permitReserved sourcePath tree')) :
    (parse permitReserved sourcePath tree).valid =
      (parse permitReserved sourcePath tree').valid := by
  have hquiet {faults : List Diagnostic} (hfaults : Harmless faults) :
      faults.any Diagnostic.isError = false := by
    rw [List.any_eq_false]
    exact fun fault hfault => Bool.eq_false_iff.1 (hfaults fault hfault)
  obtain ⟨before, after, hfirst, hsecond⟩ := parse_diagnostics_of_exchanges h
  rw [ParseOutcome.valid, ParseOutcome.valid, parse_document_of_exchanges h, hfirst, hsecond]
  simp only [Diagnostics.areValid, List.any_append, hquiet hold, hquiet hnew]

/-- An optional member of the wrong kind is as good as none: on the same tree without it, the same
document is read with the same validity, and nothing is told otherwise except of that member. -/
theorem wrongKind_as_absent (hsound : tree.Sound) (hopened : Opened tree place kind members)
    (hmem : field ∈ kind.fields) (hneed : field.need = .optional)
    (hget : Table.get? field.key members = some value) (hwrong : field.form.admits value = false) :
    let without := Place.put (.obj (Table.erase field.key members)) place tree
    let fault : Diagnostic :=
      ⟨.wrongKind field.form.name false, place, some (.member field.key)⟩
    (parse permitReserved sourcePath tree).document =
        (parse permitReserved sourcePath without).document ∧
      (parse permitReserved sourcePath tree).valid =
        (parse permitReserved sourcePath without).valid ∧
      fault.isError = false ∧ ∃ before after,
        (parse permitReserved sourcePath tree).diagnostics = before ++ [fault] ++ after ∧
          (parse permitReserved sourcePath without).diagnostics = before ++ after := by
  intro without fault
  have hany : field.form ≠ .any := by
    intro hany
    rw [hany] at hwrong
    cases hwrong
  -- A reference has no optional field but its value, which may be of any kind.
  have hkind : kind ≠ .reusable := by
    rintro rfl
    have hfree : ∀ field ∈ ObjectKind.reusable.fields,
        field.need = .optional → field.form = .any := by decide
    exact hany (hfree field hmem hneed)
  have hkey : field.key ≠ "reference" := fun hreference => by
    rw [(ObjectKind.plain_of_reference kind field hmem hreference).1] at hneed
    cases hneed
  have hascending := (hopened.sound hsound).ascending
  have hread : Exchanges [fault] [] (kind.readAt permitReserved sourcePath place members)
      (kind.readAt permitReserved sourcePath place (Table.erase field.key members)) := by
    refine hopened.exchanges_field hkind hmem (fun hboth => hany hboth.1) (alike_erase ..)
      fun hfits => hfits.refuses hneed hget hwrong ?_
    rw [hascending.get?_erase, if_pos rfl]
  have hsame : Table.contains "reference" members =
      Table.contains "reference" (Table.erase field.key members) := by
    rw [Table.contains, Table.contains, hascending.get?_erase, if_neg hkey]
  have hparse := hopened.exchanges hsound hsame hread
  have hfault : Harmless [fault] := by simp [Harmless, fault, Diagnostic.isError, Fault.isError]
  obtain ⟨before, after, hfirst, hsecond⟩ := parse_diagnostics_of_exchanges hparse
  rw [List.append_nil] at hsecond
  exact ⟨parse_document_of_exchanges hparse,
    parse_valid_of_exchanges hfault (by simp [Harmless]) hparse, rfl, before, after, hfirst,
    hsecond⟩

def lenientDialect : Table Json :=
  [("type", .str "jsonpath"), ("version", .str "draft-goessner-dispatch-jsonpath-00")]

def lenientCriterion : Table Json :=
  [("condition", .str "$.again"), ("context", .str "$response.body"),
    ("type", .obj lenientDialect)]

def lenientAction : Table Json :=
  [("criteria", .arr [.obj lenientCriterion]), ("name", .str "again"),
    ("retryLimit", .str "twice"), ("type", .str "retry")]

def lenientStep : Table Json :=
  [("onFailure", .arr [.obj lenientAction]), ("operationId", .str "op"), ("stepId", .str "s")]

def lenientWorkflow : Table Json := [("steps", .arr [.obj lenientStep]), ("workflowId", .str "w")]

def lenientMembers : Table Json :=
  [("arazzo", .str "1.0.1"),
    ("info", .obj [("title", .str "t"), ("version", .str "1")]),
    ("sourceDescriptions", .arr [.obj [("name", .str "api"), ("url", .str "api.json")]]),
    ("workflows", .arr [.obj lenientWorkflow])]

def lenientActionPlace : Place :=
  [.member "workflows", .item 0, .member "steps", .item 0, .member "onFailure", .item 0]

theorem lenientMembers_sound : Json.Sound (.obj lenientMembers) := by
  have text (s : String) : Json.Sound (.str s) := .str s
  have single {value : Json} (h : value.Sound) : Json.Sound (.arr [value]) := .arr (by simpa using h)
  have info : Json.Sound (.obj [("title", .str "t"), ("version", .str "1")]) :=
    .obj (by decide) (by simp [text])
  have source : Json.Sound (.obj [("name", .str "api"), ("url", .str "api.json")]) :=
    .obj (by decide) (by simp [text])
  have dialect : Json.Sound (.obj lenientDialect) :=
    .obj (by decide) (by simp [lenientDialect, text])
  have criterion : Json.Sound (.obj lenientCriterion) :=
    .obj (by decide) (by simp [lenientCriterion, text, dialect])
  have action : Json.Sound (.obj lenientAction) :=
    .obj (by decide) (by simp [lenientAction, text, single criterion])
  have step : Json.Sound (.obj lenientStep) :=
    .obj (by decide) (by simp [lenientStep, text, single action])
  have workflow : Json.Sound (.obj lenientWorkflow) :=
    .obj (by decide) (by simp [lenientWorkflow, text, single step])
  exact .obj (by decide) (by simp [lenientMembers, text, info, single source, single workflow])

theorem opened_lenientAction :
    Opened (.obj lenientMembers) lenientActionPlace .failureAction lenientAction := by
  have hworkflows : ⟨"workflows", .items, .required, .items .workflow⟩ ∈
      ObjectKind.document.fields := by decide
  have hsteps : ⟨"steps", .items, .required, .items .step⟩ ∈ ObjectKind.workflow.fields := by
    decide
  have hactions : ⟨"onFailure", .items, .optional, .items .failureAction⟩ ∈
      ObjectKind.step.fields := by decide
  have root : Opened (.obj lenientMembers) [] .document lenientMembers := .root rfl
  have workflow : Opened (.obj lenientMembers) [.member "workflows", .item 0] .workflow
      lenientWorkflow := .within root hworkflows rfl (.item rfl)
  have step : Opened (.obj lenientMembers)
      [.member "workflows", .item 0, .member "steps", .item 0] .step lenientStep :=
    .within workflow hsteps rfl (.item rfl)
  have action : (Content.items .failureAction).Holds (.arr [.obj lenientAction]) [.item 0]
      (ObjectKind.failureAction.openedAs lenientAction) lenientAction := .item rfl
  exact .within step hactions rfl action

theorem wrongKind_as_absent_limit : (Json.obj lenientMembers).Sound ∧
    Opened (.obj lenientMembers) lenientActionPlace .failureAction lenientAction ∧
    ∃ field ∈ ObjectKind.failureAction.fields, field.need = .optional ∧
      Table.get? field.key lenientAction = some (.str "twice") ∧
      field.form.admits (.str "twice") = false ∧
      let without := Place.put (.obj (Table.erase field.key lenientAction)) lenientActionPlace
        (.obj lenientMembers)
      let fault : Diagnostic :=
        ⟨.wrongKind field.form.name false, lenientActionPlace, some (.member field.key)⟩
      (parse false none (.obj lenientMembers)).document = (parse false none without).document ∧
        (parse false none (.obj lenientMembers)).valid = (parse false none without).valid ∧
        fault.isError = false ∧ ∃ before after,
          (parse false none (.obj lenientMembers)).diagnostics = before ++ [fault] ++ after ∧
            (parse false none without).diagnostics = before ++ after := by
  refine ⟨lenientMembers_sound, opened_lenientAction,
    ⟨"retryLimit", .smallNat, .optional, .plain⟩, by decide, rfl, rfl, rfl, ?_⟩
  exact wrongKind_as_absent lenientMembers_sound opened_lenientAction (by decide) rfl rfl rfl

theorem readReusable_eq {location : Place} {step : Option PlaceStep} {text : String}
    (h : Table.get? "reference" members = some (.str text)) :
    readReusable permitReserved (.obj members) location step =
      (ObjectReader.extensions permitReserved ["reference", "value"] ⟨members, location ++ step.toList⟩ >>=
        fun _ => pure (some ⟨text, Table.get? "value" members⟩)) := by
  have hmember : ObjectReader.member? Json.asStr? "string" true
      ⟨members, location ++ step.toList⟩ "reference" = ⟨some text, []⟩ := member?_text h
  simp only [readReusable, open?, Checked.pure_eq, Checked.clean_bind, hmember, raw?]

theorem reference_of_harmless {location : Place} {step : Option PlaceStep}
    (h : Harmless (readReusable permitReserved (.obj members) location step).diagnostics) :
    ∃ text, Table.get? "reference" members = some (.str text) := by
  have hmember : Harmless (ObjectReader.member? Json.asStr? "string" true
      ⟨members, location ++ step.toList⟩ "reference").diagnostics := fun fault hfault =>
    h fault (List.mem_append_right _ (List.mem_append_left _ hfault))
  obtain ⟨value, text, hraw, htext, -⟩ := member?_of_harmless hmember
  cases value with
  | str text => exact ⟨text, hraw⟩
  | _ => cases htext

theorem Opened.harmless (h : Opened tree place kind members) (hsound : tree.Sound)
    (hvalid : (parse permitReserved sourcePath tree).valid = true) :
    Harmless (kind.readAt permitReserved sourcePath place members).diagnostics := by
  obtain ⟨d, -, hread, -⟩ := read_of_valid hvalid
  obtain ⟨before, after, hfirst, -⟩ :=
    (h.exchanges hsound rfl (Checked.exchanges_all rfl)).diagnostics
  intro fault hfault
  refine hread fault ?_
  rw [hfirst]
  exact List.mem_append_left _ (List.mem_append_right _ hfault)

theorem Opened.exchanges_unknown (h : Opened tree place kind members) (hsound : tree.Sound)
    (hvalid : (parse permitReserved sourcePath tree).valid = true) (hkey : Unknown kind.keys key)
    (hreference : key ≠ "reference") (habsent : Table.get? key members = none) (value : Json) :
    Exchanges [] [⟨.extra, place, some (.member key)⟩]
      (kind.readAt permitReserved sourcePath place members)
      (kind.readAt permitReserved sourcePath place (Table.insert key value members)) := by
  have hget {other : String} (hother : key ≠ other) :
      Table.get? other members = Table.get? other (Table.insert key value members) := by
    rw [Table.get?_insert, if_neg hother]
  by_cases hkind : kind = .reusable
  · subst hkind
    obtain ⟨text, htext⟩ := reference_of_harmless (h.harmless hsound hvalid)
    have hvalue : key ≠ "value" := fun hsame => hkey.foreign (hsame ▸ by decide)
    have hknown : Unknown ["reference", "value"] key := hkey
    have hextensions : Exchanges [] [⟨.extra, place, some (.member key)⟩]
        (ObjectReader.extensions permitReserved ["reference", "value"] ⟨members, place⟩)
        (ObjectReader.extensions permitReserved ["reference", "value"]
          ⟨Table.insert key value members, place⟩) := hknown.exchanges_extensions value habsent
    rw [ObjectKind.readAt, ObjectKind.readAt, ObjectKind.read, readReusable_eq htext,
      readReusable_eq (hget hreference ▸ htext), dropLast_append_getLast?, ← hget hvalue]
    exact hextensions.bind_left _
  · refine (h.inTurn hkind).exchanges_extensions (fun field hfield => hget ?_) fun hperm => ?_
    · rintro rfl
      exact hkey.foreign (List.mem_map_of_mem hfield)
    · have hknown : Unknown _ key :=
        ⟨fun hmem => hkey.foreign (hperm.mem_iff.1 hmem), hkey.own, hkey.single⟩
      exact hknown.exchanges_extensions value habsent

/-- In a valid tree a member of an unknown name can be added to any object: the same document is
read, it is still valid, and only this member is told of in addition. -/
theorem unknown_tolerated (hsound : tree.Sound)
    (hvalid : (parse permitReserved sourcePath tree).valid = true)
    (hopened : Opened tree place kind members) (hforeign : key ∉ kind.keys)
    (hextension : isExtensionKey key = false) (hgroup : key ≠ "extensions")
    (hreference : key ≠ "reference") (habsent : Table.get? key members = none) (value : Json) :
    let added := Place.put (.obj (Table.insert key value members)) place tree
    let fault : Diagnostic := ⟨.extra, place, some (.member key)⟩
    (parse permitReserved sourcePath added).document =
        (parse permitReserved sourcePath tree).document ∧
      (parse permitReserved sourcePath added).valid = true ∧ ∃ before after,
        (parse permitReserved sourcePath tree).diagnostics = before ++ after ∧
          (parse permitReserved sourcePath added).diagnostics = before ++ [fault] ++ after := by
  intro added fault
  have hread := hopened.exchanges_unknown hsound hvalid ⟨hforeign, hextension, hgroup⟩ hreference
    habsent value
  have hsame : Table.contains "reference" members =
      Table.contains "reference" (Table.insert key value members) := by
    rw [Table.contains, Table.contains, Table.get?_insert, if_neg hreference]
  have hparse := hopened.exchanges hsound hsame hread
  have hfault : Harmless [fault] := by simp [Harmless, fault, Diagnostic.isError, Fault.isError]
  obtain ⟨before, after, hfirst, hsecond⟩ := parse_diagnostics_of_exchanges hparse
  rw [List.append_nil] at hfirst
  refine ⟨(parse_document_of_exchanges hparse).symm, ?_, before, after, hfirst, hsecond⟩
  rw [← hvalid]
  exact (parse_valid_of_exchanges (by simp [Harmless]) hfault hparse).symm

theorem unknown_tolerated_deep : (Json.obj lenientMembers).Sound ∧
    (parse false none (.obj lenientMembers)).valid = true ∧
    ∃ place members, Opened (.obj lenientMembers) place .dialect members ∧
      "note" ∉ ObjectKind.dialect.keys ∧ isExtensionKey "note" = false ∧
      Table.get? "note" members = none ∧
      let added := Place.put (.obj (Table.insert "note" .null members)) place
        (.obj lenientMembers)
      let fault : Diagnostic := ⟨.extra, place, some (.member "note")⟩
      (parse false none added).document = (parse false none (.obj lenientMembers)).document ∧
        (parse false none added).valid = true ∧ ∃ before after,
          (parse false none (.obj lenientMembers)).diagnostics = before ++ after ∧
            (parse false none added).diagnostics = before ++ [fault] ++ after := by
  have hvalid : (parse false none (.obj lenientMembers)).valid = true := by decide +kernel
  have hcriteria : ⟨"criteria", .items, .optional, .items .criterion⟩ ∈
      ObjectKind.failureAction.fields := by decide
  have htype : ⟨"type", .textOrMembers, .optional, .part .dialect⟩ ∈
      ObjectKind.criterion.fields := by decide
  have criterion : Opened (.obj lenientMembers)
      (lenientActionPlace ++ [.member "criteria", .item 0]) .criterion lenientCriterion :=
    .within opened_lenientAction hcriteria rfl (.item rfl)
  have dialect : Opened (.obj lenientMembers)
      (lenientActionPlace ++ [.member "criteria", .item 0] ++ [.member "type"]) .dialect
      lenientDialect := .within criterion htype rfl .part
  exact ⟨lenientMembers_sound, hvalid, _, _, dialect, by decide, by decide, rfl,
    unknown_tolerated lenientMembers_sound hvalid dialect (by decide) (by decide) (by decide)
      (by decide) rfl .null⟩

end Document

end Arazzo
