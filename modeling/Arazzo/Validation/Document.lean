import Arazzo.Validation.Parts
import Arazzo.Document.Reader

/-! Rules for steps, workflows and whole documents. -/

namespace Arazzo

namespace Validation

def requestBody (location : Place) (b : RequestBody) : Findings :=
  (b.payload.map (value location "payload")).getD [] ++
    eachItem
      (fun i (r : Replacement) _ =>
        let place := location ++ [.entry "replacements", .item i]
        notBlank place "target" r.target ++ value place "value" r.value)
      b.replacements

def operationPath (location : Place) (path : String) : Findings :=
  (if startsWithDollar (Text.trim path) then
    expression location (.member "operationPath") (Text.trim path)
  else template location "operationPath" path) ++
    require (Text.contains "#/paths/".toList path.toList)
      (invalidAt location "operationPath" "must point at an operation with #/paths/...")

def targetCount (s : Step) : Nat :=
  [s.operationId, s.operationPath, s.workflowId].countP Option.isSome

def step (components : Option Components) (stepIds : List String) (location : Place) (s : Step) :
    Findings :=
  require (targetCount s == 1)
      (invalid location none
        "exactly one of operationId, operationPath, workflowId must be provided") ++
    (s.operationPath.map (operationPath location)).getD [] ++
    (s.operationId.map (expressionIfMarked location "operationId")).getD [] ++
    outputs (location ++ [.entry "outputs"]) s.outputs ++
    parameters components s.workflowId.isSome (location ++ [.entry "parameters"]) s.parameters ++
    (s.requestBody.map (requestBody (location ++ [.entry "requestBody"]))).getD [] ++
    criteria (location ++ [.entry "successCriteria"]) s.successCriteria ++
    successActions components (some stepIds) (location ++ [.entry "onSuccess"]) s.onSuccess ++
    failureActions components (some stepIds) (location ++ [.entry "onFailure"]) s.onFailure

def workflow (components : Option Components) (location : Place) (w : Workflow) : Findings :=
  let stepIds := w.steps.map (·.stepId)
  require (!w.steps.isEmpty) (invalidAt location "steps" "must have at least one entry") ++
    outputs (location ++ [.entry "outputs"]) w.outputs ++
    parameters components false (location ++ [.entry "parameters"]) w.parameters ++
    successActions components (some stepIds) (location ++ [.entry "successActions"])
      w.successActions ++
    failureActions components (some stepIds) (location ++ [.entry "failureActions"])
      w.failureActions ++
    eachItem
      (fun i (s : Step) earlier =>
        let place := location ++ [.entry "steps", .item i]
        idText place "stepId" s.stepId ++
          (if earlier.any (·.stepId == s.stepId) then repeated place (.member "stepId") else []) ++
          step components stepIds place s)
      w.steps

/-- Only the first two parts of the version count. -/
def version (text : String) : Findings :=
  match Text.splitAll '.' text.toList with
  | first :: second :: _ =>
    require (first == ['1'] && second == ['0'])
      (invalidAt [] "arazzo" "only Arazzo 1.0.x is supported")
  | _ => invalidAt [] "arazzo" "must be a semver-like string (major.minor[.patch])"

def info (i : Info) : Findings :=
  notBlank [.entry "info"] "title" i.title ++ notBlank [.entry "info"] "version" i.version

def sourceDescriptions (sources : List SourceDescription) : Findings :=
  eachItem
    (fun i (s : SourceDescription) earlier =>
      let place : Place := [.entry "sourceDescriptions", .item i]
      idText place "name" s.name ++
        (if earlier.any (·.name == s.name) then repeated place (.member "name") else []) ++
        notBlank place "url" s.url)
    sources

def workflows (components : Option Components) (ws : List Workflow) : Findings :=
  eachItem
    (fun i (w : Workflow) earlier =>
      let place : Place := [.entry "workflows", .item i]
      idText place "workflowId" w.workflowId ++
        (if earlier.any (·.workflowId == w.workflowId) then
          repeated place (.member "workflowId")
        else []) ++
        workflow components place w)
    ws

/-- A dependency is a local workflow, or an expression that names one of another document. -/
def dependencies (ws : List Workflow) : Findings :=
  let ids := ws.map (·.workflowId)
  eachItem
    (fun i (w : Workflow) _ =>
      let place : Place := [.entry "workflows", .item i, .entry "dependsOn"]
      eachItem
        (fun j (name : String) _ =>
          if Text.startsWith "$sourceDescriptions.".toList name.toList then
            expression place (.item j) name
          else
            require (ids.contains name)
              (invalid place (some (.item j))
                "must name a local workflowId or a $sourceDescriptions.* expression"))
        w.dependsOn)
    ws

def components (c : Components) : Findings :=
  let pool (name : String) : Place := [.entry "components", .entry name]
  tableKeys (pool "inputs") (Table.keys c.inputs) ++
    tableKeys (pool "parameters") (Table.keys c.parameters) ++
    c.parameters.flatMap (fun (key, entry) =>
      parameters (some c) false (pool "parameters" ++ [.entry key]) [entry]) ++
    tableKeys (pool "successActions") (Table.keys c.successActions) ++
    c.successActions.flatMap (fun (key, entry) =>
      successActions (some c) none (pool "successActions" ++ [.entry key]) [entry]) ++
    tableKeys (pool "failureActions") (Table.keys c.failureActions) ++
    c.failureActions.flatMap (fun (key, entry) =>
      failureActions (some c) none (pool "failureActions" ++ [.entry key]) [entry])

end Validation

namespace Document

def validate (d : Document) : List Diagnostic :=
  (if d.version.isEmpty then [] else Validation.version d.version) ++
    Validation.info d.info ++
    Validation.require (!d.sourceDescriptions.isEmpty)
      (Validation.invalidAt [] "sourceDescriptions" "must have at least one entry") ++
    Validation.sourceDescriptions d.sourceDescriptions ++
    Validation.require (!d.workflows.isEmpty)
      (Validation.invalidAt [] "workflows" "must have at least one entry") ++
    Validation.workflows d.components d.workflows ++
    Validation.dependencies d.workflows ++
    (d.components.map Validation.components).getD []

end Document

structure ParseOutcome where
  document : Option Document
  diagnostics : List Diagnostic

namespace ParseOutcome

def valid (outcome : ParseOutcome) : Bool :=
  outcome.document.isSome && Diagnostics.areValid outcome.diagnostics

def usable? (outcome : ParseOutcome) : Option Document :=
  if outcome.valid then outcome.document else none

end ParseOutcome

namespace Document

/-- Reads a document and checks it; `permitReserved` allows the names of reserved extensions. -/
def parse (permitReserved : Bool) (sourcePath : Option String) (tree : Json) : ParseOutcome :=
  let read := read? permitReserved sourcePath tree
  ⟨read.value, read.diagnostics ++ (read.value.map validate).getD []⟩

def invalidMessage (diagnostics : List Diagnostic) : String :=
  "arazzo document failed validation (" ++ toString (Diagnostics.errorCount diagnostics) ++
    " errors)"

end Document
end Arazzo
