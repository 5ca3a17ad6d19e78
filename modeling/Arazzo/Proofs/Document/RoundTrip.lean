import Arazzo.Proofs.Document.Parts
import Arazzo.Validation.Document

/-! Whatever document a tree is read as, the tree that is written of it reads as that document
again, and then nothing is wrong with its shape. -/

namespace Arazzo

open ObjectReader (Kept)

variable (permitReserved : Bool)

structure Step.Readable (step : Step) : Prop where
  parameters : ∀ entry ∈ step.parameters,
    entry.Readable fun p => Kept permitReserved p.extensions
  requestBody : ∀ body ∈ step.requestBody, body.Readable permitReserved
  successCriteria : ∀ criterion ∈ step.successCriteria, criterion.Readable permitReserved
  onSuccess : ∀ entry ∈ step.onSuccess, entry.Readable (SuccessAction.Readable permitReserved)
  onFailure : ∀ entry ∈ step.onFailure, entry.Readable (FailureAction.Readable permitReserved)
  extensions : Kept permitReserved step.extensions

structure Workflow.Readable (workflow : Workflow) : Prop where
  inputs : ∃ members : Option (Table Json), workflow.inputs = members.map .obj
  steps : ∀ step ∈ workflow.steps, step.Readable permitReserved
  successActions : ∀ entry ∈ workflow.successActions,
    entry.Readable (SuccessAction.Readable permitReserved)
  failureActions : ∀ entry ∈ workflow.failureActions,
    entry.Readable (FailureAction.Readable permitReserved)
  parameters : ∀ entry ∈ workflow.parameters,
    entry.Readable fun p => Kept permitReserved p.extensions
  extensions : Kept permitReserved workflow.extensions

structure Components.Readable (components : Components) : Prop where
  inputs : ∀ entry ∈ components.inputs, entry.2.isObj = true
  parameters : ∀ entry ∈ components.parameters,
    entry.2.Readable fun p => Kept permitReserved p.extensions
  successActions : ∀ entry ∈ components.successActions,
    entry.2.Readable (SuccessAction.Readable permitReserved)
  failureActions : ∀ entry ∈ components.failureActions,
    entry.2.Readable (FailureAction.Readable permitReserved)
  extensions : Kept permitReserved components.extensions

structure Document.Readable (document : Document) : Prop where
  info : Kept permitReserved document.info.extensions
  sourceDescriptions : ∀ source ∈ document.sourceDescriptions,
    Kept permitReserved source.extensions
  workflows : ∀ workflow ∈ document.workflows, workflow.Readable permitReserved
  components : ∀ components ∈ document.components, components.Readable permitReserved
  extensions : Kept permitReserved document.extensions

namespace Document

open ObjectReader

variable {permitReserved : Bool}

theorem stable_step : Stable (readStep permitReserved) Step.toJson
    (Step.Readable permitReserved) where
  yields := by
    intro value location key s hsound hread
    obtain ⟨reader, hreader, hread⟩ := opened hsound hread
    cases hread
    refine ⟨stable_parameterEntry.optionalList_value hreader, fun body hbody => ?_,
      stable_criterion.optionalList_value hreader, stable_successEntry.optionalList_value hreader,
      stable_failureEntry.optionalList_value hreader, hreader.extensions_kept⟩
    obtain ⟨value, hvalue, hread⟩ := hreader.of_optionalPart hbody
    exact readRequestBody_readable hvalue hread
  again := by
    intro s hs location key
    obtain ⟨reader, hopen, hwritten⟩ : ∃ reader,
        open? s.toJson location key true = ⟨some reader, []⟩ ∧
          Written permitReserved _ _ s.extensions reader :=
      written_opens
        ["description", "stepId", "operationId", "operationPath", "workflowId", "parameters",
          "requestBody", "successCriteria", "onSuccess", "onFailure", "outputs"]
        (by decide) rfl hs.extensions location key true
    have hid : reader.requiredText "stepId" = ⟨s.stepId, []⟩ :=
      requiredText_written (hwritten.field (by simp))
    have hdescription : reader.optionalText "description" = ⟨s.description, []⟩ :=
      optionalText_written (hwritten.field (by simp))
    have hoperation : reader.optionalText "operationId" = ⟨s.operationId, []⟩ :=
      optionalText_written (hwritten.field (by simp))
    have hpath : reader.optionalText "operationPath" = ⟨s.operationPath, []⟩ :=
      optionalText_written (hwritten.field (by simp))
    have hworkflow : reader.optionalText "workflowId" = ⟨s.workflowId, []⟩ :=
      optionalText_written (hwritten.field (by simp))
    have hparameters : reader.optionalList
        (readEntry permitReserved (readParameter permitReserved)) "parameters" =
        ⟨s.parameters, []⟩ :=
      stable_parameterEntry.optionalList_written hs.parameters (hwritten.field (by simp))
    have hbody : reader.optionalPart (readRequestBody permitReserved) "requestBody" =
        ⟨s.requestBody, []⟩ :=
      optionalPart_written (fun b hb => readRequestBody_written (hs.requestBody b hb) _)
        (hwritten.field (by simp))
    have hcriteria : reader.optionalList (readCriterion permitReserved) "successCriteria" =
        ⟨s.successCriteria, []⟩ :=
      stable_criterion.optionalList_written hs.successCriteria (hwritten.field (by simp))
    have hsuccess : reader.optionalList
        (readEntry permitReserved (readSuccessAction permitReserved)) "onSuccess" =
        ⟨s.onSuccess, []⟩ :=
      stable_successEntry.optionalList_written hs.onSuccess (hwritten.field (by simp))
    have hfailure : reader.optionalList
        (readEntry permitReserved (readFailureAction permitReserved)) "onFailure" =
        ⟨s.onFailure, []⟩ :=
      stable_failureEntry.optionalList_written hs.onFailure (hwritten.field (by simp))
    have houtputs : reader.optionalTable readText "outputs" = ⟨s.outputs, []⟩ :=
      stable_text.optionalTable_written (fun _ _ => trivial) (hwritten.field (by simp))
    simp only [readStep, hopen, Checked.clean_bind, hid, hdescription, hoperation, hpath,
      hworkflow, hparameters, hbody, hcriteria, hsuccess, hfailure, houtputs, hwritten.extensions]
    rfl

theorem stable_workflow : Stable (readWorkflow permitReserved) Workflow.toJson
    (Workflow.Readable permitReserved) where
  yields := by
    intro value location key w hsound hread
    obtain ⟨reader, hreader, hread⟩ := opened hsound hread
    cases hread
    exact ⟨⟨_, rfl⟩, stable_step.requiredList_value hreader,
      stable_successEntry.optionalList_value hreader,
      stable_failureEntry.optionalList_value hreader,
      stable_parameterEntry.optionalList_value hreader, hreader.extensions_kept⟩
  again := by
    intro w hw location key
    obtain ⟨reader, hopen, hwritten⟩ : ∃ reader,
        open? w.toJson location key true = ⟨some reader, []⟩ ∧
          Written permitReserved _ _ w.extensions reader :=
      written_opens
        ["workflowId", "summary", "description", "inputs", "dependsOn", "steps", "successActions",
          "failureActions", "outputs", "parameters"]
        (by decide) rfl hw.extensions location key true
    obtain ⟨inputs, hinputs⟩ := hw.inputs
    have hid : reader.requiredText "workflowId" = ⟨w.workflowId, []⟩ :=
      requiredText_written (hwritten.field (by simp))
    have hsummary : reader.optionalText "summary" = ⟨w.summary, []⟩ :=
      optionalText_written (hwritten.field (by simp))
    have hdescription : reader.optionalText "description" = ⟨w.description, []⟩ :=
      optionalText_written (hwritten.field (by simp))
    have hmembers : reader.optionalMembers "inputs" = ⟨inputs, []⟩ := by
      have hraw : reader.raw? "inputs" = w.inputs := hwritten.field (by simp)
      exact member?_written (fun _ _ => rfl) (hraw.trans hinputs)
    have hdepends : reader.optionalList readText "dependsOn" = ⟨w.dependsOn, []⟩ :=
      stable_text.optionalList_written (fun _ _ => trivial) (hwritten.field (by simp))
    have hsteps : reader.requiredList (readStep permitReserved) "steps" = ⟨w.steps, []⟩ :=
      stable_step.requiredList_written hw.steps (hwritten.field (by simp))
    have hsuccess : reader.optionalList
        (readEntry permitReserved (readSuccessAction permitReserved)) "successActions" =
        ⟨w.successActions, []⟩ :=
      stable_successEntry.optionalList_written hw.successActions (hwritten.field (by simp))
    have hfailure : reader.optionalList
        (readEntry permitReserved (readFailureAction permitReserved)) "failureActions" =
        ⟨w.failureActions, []⟩ :=
      stable_failureEntry.optionalList_written hw.failureActions (hwritten.field (by simp))
    have houtputs : reader.optionalTable readText "outputs" = ⟨w.outputs, []⟩ :=
      stable_text.optionalTable_written (fun _ _ => trivial) (hwritten.field (by simp))
    have hparameters : reader.optionalList
        (readEntry permitReserved (readParameter permitReserved)) "parameters" =
        ⟨w.parameters, []⟩ :=
      stable_parameterEntry.optionalList_written hw.parameters (hwritten.field (by simp))
    simp only [readWorkflow, hopen, Checked.clean_bind, hid, hsummary, hdescription, hmembers,
      ← hinputs, hdepends, hsteps, hsuccess, hfailure, houtputs, hparameters, hwritten.extensions]
    rfl

theorem readInfo_kept {value : Json} {location : Place} {i : Info} (hsound : value.Sound)
    (hread : (readInfo permitReserved value location).value = some i) :
    Kept permitReserved i.extensions := by
  obtain ⟨reader, hreader, hread⟩ := opened hsound hread
  cases hread
  exact hreader.extensions_kept

theorem readInfo_written {i : Info} (hi : Kept permitReserved i.extensions) (location : Place) :
    readInfo permitReserved i.toJson location = ⟨some i, []⟩ := by
  obtain ⟨reader, hopen, hwritten⟩ : ∃ reader,
      open? i.toJson location (some (.member "info")) true = ⟨some reader, []⟩ ∧
        Written permitReserved _ _ i.extensions reader :=
    written_opens ["title", "summary", "description", "version"] (by decide) rfl hi location
      (some (.member "info")) true
  have htitle : reader.requiredText "title" = ⟨i.title, []⟩ :=
    requiredText_written (hwritten.field (by simp))
  have hsummary : reader.optionalText "summary" = ⟨i.summary, []⟩ :=
    optionalText_written (hwritten.field (by simp))
  have hdescription : reader.optionalText "description" = ⟨i.description, []⟩ :=
    optionalText_written (hwritten.field (by simp))
  have hversion : reader.version "version" = ⟨i.version, []⟩ :=
    version_written (hwritten.field (by simp))
  simp only [readInfo, hopen, Checked.clean_bind, htitle, hsummary, hdescription, hversion,
    hwritten.extensions]
  rfl

theorem stable_source : Stable (readSource permitReserved) SourceDescription.toJson
    fun s => Kept permitReserved s.extensions where
  yields := by
    intro value location key s hsound hread
    obtain ⟨reader, hreader, hread⟩ := opened hsound hread
    cases hread
    exact hreader.extensions_kept
  again := by
    intro s hs location key
    obtain ⟨reader, hopen, hwritten⟩ : ∃ reader,
        open? s.toJson location key true = ⟨some reader, []⟩ ∧
          Written permitReserved _ _ s.extensions reader :=
      written_opens ["name", "url", "type"] (by decide) rfl hs location key true
    have hname : reader.requiredText "name" = ⟨s.name, []⟩ :=
      requiredText_written (hwritten.field (by simp))
    have hurl : reader.requiredText "url" = ⟨s.url, []⟩ :=
      requiredText_written (hwritten.field (by simp))
    have hkind (reason : String → String) :
        optionalKeyword reader "type" SourceKind.ofKeyword? reason = ⟨some s.kind, []⟩ :=
      optionalKeyword_written SourceKind.ofKeyword?_keyword (hwritten.field (by simp))
    simp only [readSource, hopen, Checked.clean_bind, hname, hurl, hkind, hwritten.extensions]
    rfl

theorem readComponents_readable {value : Json} {location : Place} {c : Components}
    (hsound : value.Sound) (hread : (readComponents permitReserved value location).value = some c) :
    c.Readable permitReserved := by
  obtain ⟨reader, hreader, hread⟩ := opened hsound hread
  cases hread
  exact ⟨stable_schema.optionalTable_value hreader,
    stable_parameterEntry.optionalTable_value hreader,
    stable_successEntry.optionalTable_value hreader,
    stable_failureEntry.optionalTable_value hreader, hreader.extensions_kept⟩

theorem readComponents_written {c : Components} (hc : c.Readable permitReserved)
    (location : Place) : readComponents permitReserved c.toJson location = ⟨some c, []⟩ := by
  obtain ⟨reader, hopen, hwritten⟩ : ∃ reader,
      open? c.toJson location (some (.member "components")) false = ⟨some reader, []⟩ ∧
        Written permitReserved _ _ c.extensions reader :=
    written_opens ["inputs", "parameters", "successActions", "failureActions"] (by decide) rfl
      hc.extensions location (some (.member "components")) false
  have hinputs : reader.optionalTable readSchema "inputs" = ⟨c.inputs, []⟩ :=
    stable_schema.optionalTable_written hc.inputs (hwritten.field (by simp))
  have hparameters : reader.optionalTable
      (readEntry permitReserved (readParameter permitReserved)) "parameters" =
      ⟨c.parameters, []⟩ :=
    stable_parameterEntry.optionalTable_written hc.parameters (hwritten.field (by simp))
  have hsuccess : reader.optionalTable
      (readEntry permitReserved (readSuccessAction permitReserved)) "successActions" =
      ⟨c.successActions, []⟩ :=
    stable_successEntry.optionalTable_written hc.successActions (hwritten.field (by simp))
  have hfailure : reader.optionalTable
      (readEntry permitReserved (readFailureAction permitReserved)) "failureActions" =
      ⟨c.failureActions, []⟩ :=
    stable_failureEntry.optionalTable_written hc.failureActions (hwritten.field (by simp))
  simp only [readComponents, hopen, Checked.clean_bind, hinputs, hparameters, hsuccess, hfailure,
    hwritten.extensions]
  rfl

theorem read?_readable {sourcePath : Option String} {tree : Json} {d : Document}
    (hsound : tree.Sound) (hread : (read? permitReserved sourcePath tree).value = some d) :
    d.Readable permitReserved := by
  obtain ⟨reader, hreader, hread⟩ := opened hsound hread
  cases hread
  refine ⟨?_, stable_source.requiredList_value hreader,
    stable_workflow.requiredList_value hreader, fun components hcomponents => ?_,
    hreader.extensions_kept⟩
  · cases hinfo : (reader.requiredPart (readInfo permitReserved) "info").value with
    | none => exact Kept.nil _
    | some info =>
      obtain ⟨value, hvalue, hread⟩ := hreader.of_requiredPart hinfo
      exact readInfo_kept hvalue hread
  · obtain ⟨value, hvalue, hread⟩ := hreader.of_optionalPart hcomponents
    exact readComponents_readable hvalue hread

theorem read?_written {d : Document} (hd : d.Readable permitReserved)
    (sourcePath : Option String) :
    read? permitReserved sourcePath d.toJson = ⟨some { d with sourcePath }, []⟩ := by
  obtain ⟨reader, hopen, hwritten⟩ : ∃ reader,
      open? d.toJson [] none true = ⟨some reader, []⟩ ∧
        Written permitReserved _ _ d.extensions reader :=
    written_opens ["arazzo", "info", "sourceDescriptions", "workflows", "components"] (by decide)
      rfl hd.extensions [] none true
  have hversion : reader.version "arazzo" = ⟨d.version, []⟩ :=
    version_written (hwritten.field (by simp))
  have hinfo : reader.requiredPart (readInfo permitReserved) "info" = ⟨some d.info, []⟩ :=
    requiredPart_written (readInfo_written hd.info _) (hwritten.field (by simp))
  have hsources : reader.requiredList (readSource permitReserved) "sourceDescriptions" =
      ⟨d.sourceDescriptions, []⟩ :=
    stable_source.requiredList_written hd.sourceDescriptions (hwritten.field (by simp))
  have hworkflows : reader.requiredList (readWorkflow permitReserved) "workflows" =
      ⟨d.workflows, []⟩ :=
    stable_workflow.requiredList_written hd.workflows (hwritten.field (by simp))
  have hcomponents : reader.optionalPart (readComponents permitReserved) "components" =
      ⟨d.components, []⟩ :=
    optionalPart_written (fun c hc => readComponents_written (hd.components c hc) _)
      (hwritten.field (by simp))
  simp only [read?, hopen, Checked.clean_bind, hversion, hinfo, hsources, hworkflows, hcomponents,
    hwritten.extensions]
  rfl

theorem read?_obj (permitReserved : Bool) (sourcePath : Option String) (members : Table Json) :
    ∃ d, (read? permitReserved sourcePath (.obj members)).value = some d :=
  ⟨_, rfl⟩

/-- Reading settles a tree in one step: the document that it is read as, valid or not, is written
as a tree that reads as this document again, and all that is reported then is what the rules find. -/
theorem parse_settles (permitReserved : Bool) (sourcePath sourcePath' : Option String)
    {members : Table Json} (h : Json.Sound (.obj members)) :
    ∃ d, (parse permitReserved sourcePath (.obj members)).document = some d ∧
      parse permitReserved sourcePath' d.toJson =
        ⟨some { d with sourcePath := sourcePath' }, d.validate⟩ := by
  obtain ⟨d, hread⟩ := read?_obj permitReserved sourcePath members
  have hwritten := read?_written (read?_readable h hread) sourcePath'
  refine ⟨d, hread, ?_⟩
  rw [parse, hwritten]
  rfl

def looseTree : Json :=
  .obj [("arazzo", .ofInt 1),
    ("components", .obj
      [("failureActions", .obj
        [("again", .obj
          [("name", .str "again"), ("retryAfter", .ofInt 5), ("type", .str "retry")])])]),
    ("extensions", .obj [("x-note", .bool true)]),
    ("info", .null)]

theorem parse_settles_loose : looseTree.Sound ∧
    ∃ d, (parse false none looseTree).document = some d ∧
      parse false none d.toJson = ⟨some { d with sourcePath := none }, d.validate⟩ := by
  have hversion : (Json.ofInt 1).Sound := .num ⟨by decide, by decide⟩
  have hseconds : (Json.ofInt 5).Sound := .num ⟨by decide, by decide⟩
  have hagain : Json.Sound (.obj
      [("name", .str "again"), ("retryAfter", .ofInt 5), ("type", .str "retry")]) :=
    .obj (by decide) (by simp [Json.Sound.str, hseconds])
  have hpool := Json.Sound.single "failureActions" (.single "again" hagain)
  have hnote := Json.Sound.single "x-note" (.bool true)
  have hloose : looseTree.Sound :=
    .obj (by decide) (by simp [hversion, hpool, hnote, Json.Sound.null])
  exact ⟨hloose, parse_settles false none none hloose⟩

end Document
end Arazzo
