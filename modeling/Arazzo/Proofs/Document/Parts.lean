import Arazzo.Proofs.Document.Members

/-! The parts of a document that a reader comes to, and that it reads each of them again as it is
written. -/

namespace Arazzo

theorem SourceKind.ofKeyword?_keyword (kind : SourceKind) :
    ofKeyword? kind.keyword = some kind := by
  cases kind <;> rfl

theorem ParameterLocation.ofKeyword?_keyword (location : ParameterLocation) :
    ofKeyword? location.keyword = some location := by
  cases location <;> rfl

theorem CriterionKind.ofKeyword?_keyword (kind : CriterionKind) :
    ofKeyword? kind.keyword = some kind := by
  cases kind <;> rfl

theorem QueryLanguage.ofKeyword?_keyword (language : QueryLanguage) :
    ofKeyword? language.keyword = some language := by
  cases language <;> rfl

theorem SuccessKind.ofKeyword?_keyword (kind : SuccessKind) :
    ofKeyword? kind.keyword = some kind := by
  cases kind <;> rfl

theorem FailureKind.ofKeyword?_keyword (kind : FailureKind) :
    ofKeyword? kind.keyword = some kind := by
  cases kind <;> rfl

open ObjectReader (Kept)

variable (permitReserved : Bool)

def Entry.Readable {α : Type} (Readable : α → Prop) : Entry α → Prop
  | .concrete value => Readable value
  | .reusable _ => True

def CriterionType.Readable : CriterionType → Prop
  | .known _ => True
  | .dialect d => Kept permitReserved d.extensions

structure Criterion.Readable (criterion : Criterion) : Prop where
  type : ∀ type ∈ criterion.type, CriterionType.Readable permitReserved type
  extensions : Kept permitReserved criterion.extensions

structure SuccessAction.Readable (action : SuccessAction) : Prop where
  criteria : ∀ criterion ∈ action.criteria, Criterion.Readable permitReserved criterion
  extensions : Kept permitReserved action.extensions

structure FailureAction.Readable (action : FailureAction) : Prop where
  retryAfter : ∀ seconds ∈ action.retryAfter, seconds.isFinite = true
  retryLimit : ∀ limit ∈ action.retryLimit, limit < 2 ^ 32
  criteria : ∀ criterion ∈ action.criteria, Criterion.Readable permitReserved criterion
  extensions : Kept permitReserved action.extensions

structure RequestBody.Readable (body : RequestBody) : Prop where
  replacements : ∀ replacement ∈ body.replacements, Kept permitReserved replacement.extensions
  extensions : Kept permitReserved body.extensions

namespace Document

open ObjectReader

variable {α : Type} {permitReserved : Bool}

theorem opened {value : Json} {location : Place} {key : Option PlaceStep} {required : Bool}
    {next : ObjectReader → Checked (Option α)} {x : α} (hsound : value.Sound)
    (h : (do
      let some reader ← open? value location key required | return none
      next reader).value = some x) :
    ∃ reader : ObjectReader, reader.Sound ∧ (next reader).value = some x := by
  cases value with
  | obj members => exact ⟨⟨members, location ++ key.toList⟩, hsound, h⟩
  | _ => cases h

theorem readKeyword_eq {reader : ObjectReader} {key : String} {ofKeyword? : String → Option α}
    {reason : String → String} {text : String} {found : α} (h : ofKeyword? text = some found) :
    readKeyword reader key ofKeyword? reason text = ⟨some found, []⟩ := by
  rw [readKeyword, h]
  rfl

theorem optionalKeyword_written {reader : ObjectReader} {key : String}
    {ofKeyword? : String → Option α} {keyword : α → String} {reason : String → String}
    {x : Option α} (h : ∀ y, ofKeyword? (keyword y) = some y)
    (hraw : reader.raw? key = x.map fun y => .str (keyword y)) :
    optionalKeyword reader key ofKeyword? reason = ⟨x, []⟩ := by
  have htext : reader.optionalText key = ⟨x.map keyword, []⟩ := by
    refine optionalText_written ?_
    rw [hraw, writeText, Option.map_map]
    rfl
  rw [optionalKeyword, htext, Checked.clean_bind]
  cases x with
  | none => rfl
  | some y => exact readKeyword_eq (h y)

theorem stable_text : Stable readText .str fun _ => True where
  yields := fun _ _ => trivial
  again := fun _ _ _ => rfl

theorem stable_schema : Stable readSchema id fun value => value.isObj = true where
  yields := by
    intro value location key x hsound hread
    cases value with
    | obj members =>
      cases hread
      rfl
    | _ => cases hread
  again := by
    intro x hx location key
    cases x with
    | obj members => rfl
    | _ => cases hx

theorem stable_reusable : Stable (readReusable permitReserved) Reusable.toJson fun _ => True where
  yields := fun _ _ => trivial
  again := by
    intro r _ location key
    obtain ⟨reader, hopen, hwritten⟩ : ∃ reader,
        open? r.toJson location key true = ⟨some reader, []⟩ ∧
          Written permitReserved _ _ [] reader :=
      written_opens ["reference", "value"] (by decide) rfl (Kept.nil _) location key true
    have hreference : reader.member? Json.asStr? "string" true "reference" =
        ⟨some r.reference, []⟩ := member?_text (hwritten.field (by simp))
    have hvalue : reader.raw? "value" = r.value := hwritten.field (by simp)
    rw [readReusable, hopen]
    simp only [Checked.clean_bind, hreference, hvalue, hwritten.extensions]
    rfl

theorem stable_entry {read : ItemReader α} {write : α → Json} {Readable : α → Prop}
    (h : Stable read write Readable)
    (hplace : ∀ {x : α}, Readable x → isReusable (write x) = false) :
    Stable (readEntry permitReserved read) (Entry.toJson write) (Entry.Readable Readable) where
  yields := by
    intro value location key entry hsound hread
    unfold readEntry at hread
    split at hread
    · simp only [Checked.value_bind, Checked.value_pure, Option.map_eq_some_iff] at hread
      obtain ⟨r, -, rfl⟩ := hread
      trivial
    · simp only [Checked.value_bind, Checked.value_pure, Option.map_eq_some_iff] at hread
      obtain ⟨x, hx, rfl⟩ := hread
      exact h.yields hsound hx
  again := by
    intro entry hentry location key
    cases entry with
    | concrete x =>
      have hinplace : ¬ isReusable (write x) = true := by
        rw [hplace hentry]
        decide
      rw [Entry.toJson, readEntry, if_neg hinplace, h.again hentry]
      rfl
    | reusable r =>
      have hreusable : isReusable r.toJson = true :=
        isReusable_of_reference ["reference", "value"] (by decide) rfl (Kept.nil permitReserved)
          (List.mem_cons_self ..)
      rw [Entry.toJson, readEntry, if_pos hreusable, stable_reusable.again trivial]
      rfl

theorem stable_parameter : Stable (readParameter permitReserved) Parameter.toJson
    fun p => Kept permitReserved p.extensions where
  yields := by
    intro value location key p hsound hread
    obtain ⟨reader, hreader, hread⟩ := opened hsound hread
    cases hread
    exact hreader.extensions_kept
  again := by
    intro p hp location key
    obtain ⟨reader, hopen, hwritten⟩ : ∃ reader,
        open? p.toJson location key true = ⟨some reader, []⟩ ∧
          Written permitReserved _ _ p.extensions reader :=
      written_opens ["name", "in", "value"] (by decide) rfl hp location key true
    have hname : reader.requiredText "name" = ⟨p.name, []⟩ :=
      requiredText_written (hwritten.field (by simp))
    have hplace (reason : String → String) :
        optionalKeyword reader "in" ParameterLocation.ofKeyword? reason = ⟨p.location, []⟩ :=
      optionalKeyword_written ParameterLocation.ofKeyword?_keyword (hwritten.field (by simp))
    have hvalue : reader.required? "value" = ⟨p.value, []⟩ :=
      required?_written (hwritten.field (by simp))
    simp only [readParameter, hopen, Checked.clean_bind, hname, hplace, hvalue, hwritten.extensions]
    rfl

theorem readDialect_kept {value : Json} {location : Place} {d : QueryDialect}
    (hsound : value.Sound) (hread : (readDialect permitReserved value location).value = some d) :
    Kept permitReserved d.extensions := by
  obtain ⟨reader, hreader, hread⟩ := opened hsound hread
  simp only [Checked.value_bind] at hread
  split at hread
  · cases hread
  · simp only [Checked.value_bind, Checked.value_pure, Option.map_eq_some_iff] at hread
    obtain ⟨language, -, rfl⟩ := hread
    exact hreader.extensions_kept

theorem readDialect_written {d : QueryDialect} (hd : Kept permitReserved d.extensions)
    (location : Place) :
    readDialect permitReserved (CriterionType.toJson (.dialect d)) location = ⟨some d, []⟩ := by
  obtain ⟨reader, hopen, hwritten⟩ : ∃ reader,
      open? (CriterionType.toJson (.dialect d)) location (some (.member "type")) false =
        ⟨some reader, []⟩ ∧
        Written permitReserved _ _ d.extensions reader :=
    written_opens ["type", "version"] (by decide) rfl hd location (some (.member "type")) false
  have htype : reader.member? Json.asStr? "string" true "type" =
      ⟨some d.language.keyword, []⟩ := member?_text (hwritten.field (by simp))
  have hversion : reader.version "version" = ⟨d.version, []⟩ :=
    version_written (hwritten.field (by simp))
  simp only [readDialect, hopen, Checked.clean_bind, htype, hversion, hwritten.extensions,
    readKeyword_eq (QueryLanguage.ofKeyword?_keyword d.language)]
  rfl

theorem readCriterionType_readable {reader : ObjectReader} (hreader : reader.Sound) :
    ∀ type ∈ (readCriterionType permitReserved reader).value,
      CriterionType.Readable permitReserved type := by
  intro type htype
  unfold readCriterionType at htype
  split at htype
  · cases htype
  · simp only [Checked.value_bind, Checked.value_pure, Option.mem_def,
      Option.map_eq_some_iff] at htype
    obtain ⟨kind, -, rfl⟩ := htype
    trivial
  · rename_i members hraw
    simp only [Checked.value_bind, Checked.value_pure, Option.mem_def,
      Option.map_eq_some_iff] at htype
    obtain ⟨d, hd, rfl⟩ := htype
    exact readDialect_kept (hreader.raw? hraw) hd
  · cases htype

theorem readCriterionType_written {reader : ObjectReader} {type : Option CriterionType}
    (htype : ∀ t ∈ type, CriterionType.Readable permitReserved t)
    (hraw : reader.raw? "type" = type.map CriterionType.toJson) :
    readCriterionType permitReserved reader = ⟨type, []⟩ := by
  rw [readCriterionType, hraw]
  cases type with
  | none => rfl
  | some type =>
    cases type with
    | known kind =>
      simp only [Option.map_some, CriterionType.toJson,
        readKeyword_eq (CriterionKind.ofKeyword?_keyword kind)]
      rfl
    | dialect d =>
      have hread := readDialect_written (htype _ rfl) reader.location
      simp only [CriterionType.toJson, writeObject_eq] at hread
      simp only [Option.map_some, CriterionType.toJson, writeObject_eq, hread]
      rfl

theorem stable_criterion : Stable (readCriterion permitReserved) Criterion.toJson
    (Criterion.Readable permitReserved) where
  yields := by
    intro value location key c hsound hread
    obtain ⟨reader, hreader, hread⟩ := opened hsound hread
    cases hread
    exact ⟨readCriterionType_readable hreader, hreader.extensions_kept⟩
  again := by
    intro c hc location key
    obtain ⟨reader, hopen, hwritten⟩ : ∃ reader,
        open? c.toJson location key true = ⟨some reader, []⟩ ∧
          Written permitReserved _ _ c.extensions reader :=
      written_opens ["context", "condition", "type"] (by decide) rfl hc.extensions location key true
    have hcontext : reader.optionalText "context" = ⟨c.context, []⟩ :=
      optionalText_written (hwritten.field (by simp))
    have hcondition : reader.requiredText "condition" = ⟨c.condition, []⟩ :=
      requiredText_written (hwritten.field (by simp))
    have htype : readCriterionType permitReserved reader = ⟨c.type, []⟩ :=
      readCriterionType_written hc.type (hwritten.field (by simp))
    simp only [readCriterion, hopen, Checked.clean_bind, hcontext, hcondition, htype,
      hwritten.extensions]
    rfl

theorem readActionKind_written {reader : ObjectReader} {ofKeyword? : String → Option α}
    {expected text : String} {kind : α} (h : ofKeyword? text = some kind)
    (hraw : reader.raw? "type" = some (.str text)) :
    readActionKind reader ofKeyword? expected = ⟨some kind, []⟩ := by
  rw [readActionKind, member?_text hraw, Checked.clean_bind]
  exact readKeyword_eq h

theorem stable_successAction : Stable (readSuccessAction permitReserved) SuccessAction.toJson
    (SuccessAction.Readable permitReserved) where
  yields := by
    intro value location key a hsound hread
    obtain ⟨reader, hreader, hread⟩ := opened hsound hread
    simp only [Checked.value_bind, Checked.value_pure, Option.map_eq_some_iff] at hread
    obtain ⟨kind, -, rfl⟩ := hread
    exact ⟨stable_criterion.optionalList_value hreader, hreader.extensions_kept⟩
  again := by
    intro a ha location key
    obtain ⟨reader, hopen, hwritten⟩ : ∃ reader,
        open? a.toJson location key true = ⟨some reader, []⟩ ∧
          Written permitReserved _ _ a.extensions reader :=
      written_opens ["name", "type", "workflowId", "stepId", "criteria"] (by decide) rfl
        ha.extensions location key true
    have hname : reader.requiredText "name" = ⟨a.name, []⟩ :=
      requiredText_written (hwritten.field (by simp))
    have hkind : readActionKind reader SuccessKind.ofKeyword? "end or goto" = ⟨some a.kind, []⟩ :=
      readActionKind_written (SuccessKind.ofKeyword?_keyword a.kind) (hwritten.field (by simp))
    have hworkflow : reader.optionalText "workflowId" = ⟨a.workflowId, []⟩ :=
      optionalText_written (hwritten.field (by simp))
    have hstep : reader.optionalText "stepId" = ⟨a.stepId, []⟩ :=
      optionalText_written (hwritten.field (by simp))
    have hcriteria : reader.optionalList (readCriterion permitReserved) "criteria" =
        ⟨a.criteria, []⟩ :=
      stable_criterion.optionalList_written ha.criteria (hwritten.field (by simp))
    simp only [readSuccessAction, hopen, Checked.clean_bind, hname, hkind, hworkflow, hstep,
      hcriteria, hwritten.extensions]
    rfl

theorem stable_failureAction : Stable (readFailureAction permitReserved) FailureAction.toJson
    (FailureAction.Readable permitReserved) where
  yields := by
    intro value location key a hsound hread
    obtain ⟨reader, hreader, hread⟩ := opened hsound hread
    simp only [Checked.value_bind, Checked.value_pure, Option.map_eq_some_iff] at hread
    obtain ⟨kind, -, rfl⟩ := hread
    exact ⟨fun _ => hreader.optionalNumber_isFinite, fun _ => optionalNat_lt,
      stable_criterion.optionalList_value hreader, hreader.extensions_kept⟩
  again := by
    intro a ha location key
    obtain ⟨reader, hopen, hwritten⟩ : ∃ reader,
        open? a.toJson location key true = ⟨some reader, []⟩ ∧
          Written permitReserved _ _ a.extensions reader :=
      written_opens
        ["name", "type", "workflowId", "stepId", "retryAfter", "retryLimit", "criteria"]
        (by decide) rfl ha.extensions location key true
    have hname : reader.requiredText "name" = ⟨a.name, []⟩ :=
      requiredText_written (hwritten.field (by simp))
    have hkind : readActionKind reader FailureKind.ofKeyword? "end, goto or retry" =
        ⟨some a.kind, []⟩ :=
      readActionKind_written (FailureKind.ofKeyword?_keyword a.kind) (hwritten.field (by simp))
    have hworkflow : reader.optionalText "workflowId" = ⟨a.workflowId, []⟩ :=
      optionalText_written (hwritten.field (by simp))
    have hstep : reader.optionalText "stepId" = ⟨a.stepId, []⟩ :=
      optionalText_written (hwritten.field (by simp))
    have hafter : reader.optionalNumber "retryAfter" = ⟨a.retryAfter, []⟩ :=
      optionalNumber_written ha.retryAfter (hwritten.field (by simp))
    have hlimit : reader.optionalNat "retryLimit" = ⟨a.retryLimit, []⟩ :=
      optionalNat_written ha.retryLimit (hwritten.field (by simp))
    have hcriteria : reader.optionalList (readCriterion permitReserved) "criteria" =
        ⟨a.criteria, []⟩ :=
      stable_criterion.optionalList_written ha.criteria (hwritten.field (by simp))
    simp only [readFailureAction, hopen, Checked.clean_bind, hname, hkind, hworkflow, hstep,
      hafter, hlimit, hcriteria, hwritten.extensions]
    rfl

theorem stable_replacement : Stable (readReplacement permitReserved) Replacement.toJson
    fun r => Kept permitReserved r.extensions where
  yields := by
    intro value location key r hsound hread
    obtain ⟨reader, hreader, hread⟩ := opened hsound hread
    cases hread
    exact hreader.extensions_kept
  again := by
    intro r hr location key
    obtain ⟨reader, hopen, hwritten⟩ : ∃ reader,
        open? r.toJson location key true = ⟨some reader, []⟩ ∧
          Written permitReserved _ _ r.extensions reader :=
      written_opens ["target", "value"] (by decide) rfl hr location key true
    have htarget : reader.requiredText "target" = ⟨r.target, []⟩ :=
      requiredText_written (hwritten.field (by simp))
    have hvalue : reader.required? "value" = ⟨r.value, []⟩ :=
      required?_written (hwritten.field (by simp))
    simp only [readReplacement, hopen, Checked.clean_bind, htarget, hvalue, hwritten.extensions]
    rfl

theorem readRequestBody_readable {value : Json} {location : Place} {b : RequestBody}
    (hsound : value.Sound)
    (hread : (readRequestBody permitReserved value location).value = some b) :
    b.Readable permitReserved := by
  obtain ⟨reader, hreader, hread⟩ := opened hsound hread
  cases hread
  exact ⟨stable_replacement.optionalList_value hreader, hreader.extensions_kept⟩

theorem readRequestBody_written {b : RequestBody} (hb : b.Readable permitReserved)
    (location : Place) :
    readRequestBody permitReserved b.toJson location = ⟨some b, []⟩ := by
  obtain ⟨reader, hopen, hwritten⟩ : ∃ reader,
      open? b.toJson location (some (.member "requestBody")) false = ⟨some reader, []⟩ ∧
        Written permitReserved _ _ b.extensions reader :=
    written_opens ["contentType", "payload", "replacements"] (by decide) rfl hb.extensions
      location (some (.member "requestBody")) false
  have htype : reader.optionalText "contentType" = ⟨b.contentType, []⟩ :=
    optionalText_written (hwritten.field (by simp))
  have hpayload : reader.raw? "payload" = b.payload := hwritten.field (by simp)
  have hreplacements : reader.optionalList (readReplacement permitReserved) "replacements" =
      ⟨b.replacements, []⟩ :=
    stable_replacement.optionalList_written hb.replacements (hwritten.field (by simp))
  simp only [readRequestBody, hopen, Checked.clean_bind, htype, hpayload, hreplacements,
    hwritten.extensions]
  rfl

theorem stable_parameterEntry :
    Stable (readEntry permitReserved (readParameter permitReserved))
      (Entry.toJson Parameter.toJson)
      (Entry.Readable fun p => Kept permitReserved p.extensions) :=
  stable_entry stable_parameter fun hp =>
    isReusable_writeObject ["name", "in", "value"] (by decide) rfl (by decide) hp

theorem stable_successEntry :
    Stable (readEntry permitReserved (readSuccessAction permitReserved))
      (Entry.toJson SuccessAction.toJson)
      (Entry.Readable (SuccessAction.Readable permitReserved)) :=
  stable_entry stable_successAction fun ha =>
    isReusable_writeObject ["name", "type", "workflowId", "stepId", "criteria"] (by decide) rfl
      (by decide) ha.extensions

theorem stable_failureEntry :
    Stable (readEntry permitReserved (readFailureAction permitReserved))
      (Entry.toJson FailureAction.toJson)
      (Entry.Readable (FailureAction.Readable permitReserved)) :=
  stable_entry stable_failureAction fun ha =>
    isReusable_writeObject
      ["name", "type", "workflowId", "stepId", "retryAfter", "retryLimit", "criteria"] (by decide)
      rfl (by decide) ha.extensions

end Document
end Arazzo
