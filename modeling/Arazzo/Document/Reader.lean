import Arazzo.Document.Basic
import Arazzo.Document.Checked
import Arazzo.Text.Scan

/-! Reading a document from a tree: whatever can be read is kept, and each fault is reported. -/

namespace Arazzo

open ObjectReader

namespace Document

abbrev ItemReader (α : Type) := Json → Place → Option PlaceStep → Checked (Option α)

def readKeyword {α : Type} (reader : ObjectReader) (key : String) (ofKeyword? : String → Option α)
    (reason : String → String) (text : String) : Checked (Option α) :=
  match ofKeyword? text with
  | some found => pure (some found)
  | none => do
    reader.report (.invalid (reason text)) key
    return none

def optionalKeyword {α : Type} (reader : ObjectReader) (key : String)
    (ofKeyword? : String → Option α) (reason : String → String) : Checked (Option α) := do
  match ← reader.optionalText key with
  | some text => readKeyword reader key ofKeyword? reason text
  | none => return none

def isReusable (value : Json) : Bool := (value.get? "reference").isSome

variable (permitReserved : Bool)

def readReusable : ItemReader Reusable := fun value location key => do
  let some reader ← open? value location key true | return none
  let some reference ← reader.member? Json.asStr? "string" true "reference" | return none
  let value := reader.raw? "value"
  let _ ← reader.extensions permitReserved ["reference", "value"]
  return some ⟨reference, value⟩

def readEntry {α : Type} (readConcrete : ItemReader α) : ItemReader (Entry α) :=
  fun value location key => do
    if isReusable value then
      return (← readReusable permitReserved value location key).map .reusable
    else
      return (← readConcrete value location key).map .concrete

def readParameter : ItemReader Parameter := fun value location key => do
  let some reader ← open? value location key true | return none
  let name ← reader.requiredText "name"
  let place ← optionalKeyword reader "in" ParameterLocation.ofKeyword?
    (fun text => "unknown parameter location `" ++ text ++ "`")
  let value := (← reader.required? "value").getD .null
  let extensions ← reader.extensions permitReserved ["name", "in", "value"]
  return some ⟨name, place, value, extensions⟩

def readDialect (value : Json) (location : Place) : Checked (Option QueryDialect) := do
  let some reader ← open? value location (some (.member "type")) false | return none
  let language ← reader.member? Json.asStr? "string" true "type"
  let version ← reader.version "version"
  let extensions ← reader.extensions permitReserved ["type", "version"]
  match language with
  | none => return none
  | some text =>
    let language ← readKeyword reader "type" QueryLanguage.ofKeyword?
      (fun text => "unknown expression language `" ++ text ++ "` (expected jsonpath or xpath)") text
    return language.map fun language => ⟨language, version, extensions⟩

def readCriterionType (reader : ObjectReader) : Checked (Option CriterionType) :=
  match reader.raw? "type" with
  | none => pure none
  | some (.str text) => do
    let kind ← readKeyword reader "type" CriterionKind.ofKeyword?
      (fun text => "unknown criterion type `" ++ text ++ "`") text
    return kind.map .known
  | some (.obj members) => do
    return (← readDialect permitReserved (.obj members) reader.location).map .dialect
  | some _ => do
    reader.report (.wrongKind "string" false) "type"
    return none

def readCriterion : ItemReader Criterion := fun value location key => do
  let some reader ← open? value location key true | return none
  let context ← reader.optionalText "context"
  let condition ← reader.requiredText "condition"
  let type ← readCriterionType permitReserved reader
  let extensions ← reader.extensions permitReserved ["context", "condition", "type"]
  return some ⟨context, condition, type, extensions⟩

def readActionKind {α : Type} (reader : ObjectReader) (ofKeyword? : String → Option α)
    (expected : String) : Checked (Option α) := do
  match ← reader.member? Json.asStr? "string" true "type" with
  | none => return none
  | some text =>
    readKeyword reader "type" ofKeyword?
      (fun text => "unknown action type `" ++ text ++ "` (expected " ++ expected ++ ")") text

def readSuccessAction : ItemReader SuccessAction := fun value location key => do
  let some reader ← open? value location key true | return none
  let name ← reader.requiredText "name"
  let kind ← readActionKind reader SuccessKind.ofKeyword? "end or goto"
  let workflowId ← reader.optionalText "workflowId"
  let stepId ← reader.optionalText "stepId"
  let criteria ← reader.optionalList (readCriterion permitReserved) "criteria"
  let extensions ← reader.extensions permitReserved
    ["name", "type", "workflowId", "stepId", "criteria"]
  return kind.map fun kind => ⟨name, kind, workflowId, stepId, criteria, extensions⟩

def readFailureAction : ItemReader FailureAction := fun value location key => do
  let some reader ← open? value location key true | return none
  let name ← reader.requiredText "name"
  let kind ← readActionKind reader FailureKind.ofKeyword? "end, goto or retry"
  let workflowId ← reader.optionalText "workflowId"
  let stepId ← reader.optionalText "stepId"
  let retryAfter ← reader.optionalNumber "retryAfter"
  let retryLimit ← reader.optionalNat "retryLimit"
  let criteria ← reader.optionalList (readCriterion permitReserved) "criteria"
  let extensions ← reader.extensions permitReserved
    ["name", "type", "workflowId", "stepId", "retryAfter", "retryLimit", "criteria"]
  return kind.map fun kind =>
    ⟨name, kind, workflowId, stepId, retryAfter, retryLimit, criteria, extensions⟩

def readReplacement : ItemReader Replacement := fun value location key => do
  let some reader ← open? value location key true | return none
  let target ← reader.requiredText "target"
  let value := (← reader.required? "value").getD .null
  let extensions ← reader.extensions permitReserved ["target", "value"]
  return some ⟨target, value, extensions⟩

def readRequestBody (value : Json) (location : Place) : Checked (Option RequestBody) := do
  let some reader ← open? value location (some (.member "requestBody")) false | return none
  let contentType ← reader.optionalText "contentType"
  let payload := reader.raw? "payload"
  let replacements ← reader.optionalList (readReplacement permitReserved) "replacements"
  let extensions ← reader.extensions permitReserved ["contentType", "payload", "replacements"]
  return some ⟨contentType, payload, replacements, extensions⟩

def readStep : ItemReader Step := fun value location key => do
  let some reader ← open? value location key true | return none
  let stepId ← reader.requiredText "stepId"
  let description ← reader.optionalText "description"
  let operationId ← reader.optionalText "operationId"
  let operationPath ← reader.optionalText "operationPath"
  let workflowId ← reader.optionalText "workflowId"
  let parameters ← reader.optionalList (readEntry permitReserved (readParameter permitReserved))
    "parameters"
  let requestBody ← reader.optionalPart (readRequestBody permitReserved) "requestBody"
  let successCriteria ← reader.optionalList (readCriterion permitReserved) "successCriteria"
  let onSuccess ← reader.optionalList
    (readEntry permitReserved (readSuccessAction permitReserved)) "onSuccess"
  let onFailure ← reader.optionalList
    (readEntry permitReserved (readFailureAction permitReserved)) "onFailure"
  let outputs ← reader.optionalTable readText "outputs"
  let extensions ← reader.extensions permitReserved
    ["description", "stepId", "operationId", "operationPath", "workflowId", "parameters",
      "requestBody", "successCriteria", "onSuccess", "onFailure", "outputs"]
  return some
    { stepId, description, operationId, operationPath, workflowId, parameters, requestBody,
      successCriteria, onSuccess, onFailure, outputs, extensions }

def readWorkflow : ItemReader Workflow := fun value location key => do
  let some reader ← open? value location key true | return none
  let workflowId ← reader.requiredText "workflowId"
  let summary ← reader.optionalText "summary"
  let description ← reader.optionalText "description"
  let inputs := (← reader.optionalMembers "inputs").map Json.obj
  let dependsOn ← reader.optionalList readText "dependsOn"
  let steps ← reader.requiredList (readStep permitReserved) "steps"
  let successActions ← reader.optionalList
    (readEntry permitReserved (readSuccessAction permitReserved)) "successActions"
  let failureActions ← reader.optionalList
    (readEntry permitReserved (readFailureAction permitReserved)) "failureActions"
  let outputs ← reader.optionalTable readText "outputs"
  let parameters ← reader.optionalList (readEntry permitReserved (readParameter permitReserved))
    "parameters"
  let extensions ← reader.extensions permitReserved
    ["workflowId", "summary", "description", "inputs", "dependsOn", "steps", "successActions",
      "failureActions", "outputs", "parameters"]
  return some
    { workflowId, summary, description, inputs, dependsOn, steps, successActions, failureActions,
      outputs, parameters, extensions }

def readInfo (value : Json) (location : Place) : Checked (Option Info) := do
  let some reader ← open? value location (some (.member "info")) true | return none
  let title ← reader.requiredText "title"
  let summary ← reader.optionalText "summary"
  let description ← reader.optionalText "description"
  let version ← reader.version "version"
  let extensions ← reader.extensions permitReserved ["title", "summary", "description", "version"]
  return some { title, summary, description, version, extensions }

def readSource : ItemReader SourceDescription := fun value location key => do
  let some reader ← open? value location key true | return none
  let name ← reader.requiredText "name"
  let url ← reader.requiredText "url"
  let kind ← optionalKeyword reader "type" SourceKind.ofKeyword?
    (fun text => "unknown source description type `" ++ text ++ "` (expected openapi or arazzo)")
  let extensions ← reader.extensions permitReserved ["name", "url", "type"]
  return some ⟨name, url, kind.getD .openapi, extensions⟩

def readSchema : ItemReader Json := fun value location key =>
  match value with
  | .obj members => pure (some (.obj members))
  | _ => do
    Checked.report (.wrongKind "object" false) location key
    return none

def readComponents (value : Json) (location : Place) : Checked (Option Components) := do
  let some reader ← open? value location (some (.member "components")) false | return none
  let inputs ← reader.optionalTable readSchema "inputs"
  let parameters ← reader.optionalTable (readEntry permitReserved (readParameter permitReserved))
    "parameters"
  let successActions ← reader.optionalTable
    (readEntry permitReserved (readSuccessAction permitReserved)) "successActions"
  let failureActions ← reader.optionalTable
    (readEntry permitReserved (readFailureAction permitReserved)) "failureActions"
  let extensions ← reader.extensions permitReserved
    ["inputs", "parameters", "successActions", "failureActions"]
  return some ⟨inputs, parameters, successActions, failureActions, extensions⟩

/-- The document in the tree; nothing when the root is not an object. -/
def read? (sourcePath : Option String) (tree : Json) : Checked (Option Document) := do
  let some reader ← open? tree [] none true | return none
  let version ← reader.version "arazzo"
  let info ← reader.requiredPart (readInfo permitReserved) "info"
  let sourceDescriptions ← reader.requiredList (readSource permitReserved) "sourceDescriptions"
  let workflows ← reader.requiredList (readWorkflow permitReserved) "workflows"
  let components ← reader.optionalPart (readComponents permitReserved) "components"
  let extensions ← reader.extensions permitReserved
    ["arazzo", "info", "sourceDescriptions", "workflows", "components"]
  return some
    { version, info := info.getD {}, sourceDescriptions, workflows, components, extensions,
      sourcePath }

end Document
end Arazzo
