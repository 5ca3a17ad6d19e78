import Arazzo.Json.Basic

/-! Workflow documents and their parts. -/

namespace Arazzo

abbrev Extensions := Table Json

structure Info where
  title : String := ""
  summary : Option String := none
  description : Option String := none
  version : String := ""
  extensions : Extensions := []

inductive SourceKind where
  | openapi
  | arazzo
deriving DecidableEq, Repr

structure SourceDescription where
  name : String
  url : String
  kind : SourceKind
  extensions : Extensions

structure Reusable where
  reference : String
  value : Option Json

inductive Entry (α : Type) where
  | concrete (value : α)
  | reusable (reference : Reusable)

inductive ParameterLocation where
  | path
  | query
  | header
  | cookie
  | body
deriving DecidableEq, Repr

structure Parameter where
  name : String
  location : Option ParameterLocation
  value : Json
  extensions : Extensions

inductive CriterionKind where
  | simple
  | regex
  | jsonpath
  | xpath
deriving DecidableEq, Repr

inductive QueryLanguage where
  | jsonpath
  | xpath
deriving DecidableEq, Repr

structure QueryDialect where
  language : QueryLanguage
  version : String
  extensions : Extensions

inductive CriterionType where
  | known (kind : CriterionKind)
  | dialect (dialect : QueryDialect)

structure Criterion where
  context : Option String
  condition : String
  type : Option CriterionType
  extensions : Extensions

inductive SuccessKind where
  | finish
  | goto
deriving DecidableEq, Repr

structure SuccessAction where
  name : String
  kind : SuccessKind
  workflowId : Option String
  stepId : Option String
  criteria : List Criterion
  extensions : Extensions

inductive FailureKind where
  | finish
  | retry
  | goto
deriving DecidableEq, Repr

structure FailureAction where
  name : String
  kind : FailureKind
  workflowId : Option String
  stepId : Option String
  retryAfter : Option Float
  retryLimit : Option Nat
  criteria : List Criterion
  extensions : Extensions

structure Replacement where
  target : String
  value : Json
  extensions : Extensions

structure RequestBody where
  contentType : Option String
  payload : Option Json
  replacements : List Replacement
  extensions : Extensions

structure Step where
  stepId : String
  description : Option String := none
  operationId : Option String := none
  operationPath : Option String := none
  workflowId : Option String := none
  parameters : List (Entry Parameter) := []
  requestBody : Option RequestBody := none
  successCriteria : List Criterion := []
  onSuccess : List (Entry SuccessAction) := []
  onFailure : List (Entry FailureAction) := []
  outputs : Table String := []
  extensions : Extensions := []

structure Workflow where
  workflowId : String
  summary : Option String
  description : Option String
  inputs : Option Json
  dependsOn : List String
  steps : List Step
  successActions : List (Entry SuccessAction)
  failureActions : List (Entry FailureAction)
  outputs : Table String
  parameters : List (Entry Parameter)
  extensions : Extensions

structure Components where
  inputs : Table Json
  parameters : Table (Entry Parameter)
  successActions : Table (Entry SuccessAction)
  failureActions : Table (Entry FailureAction)
  extensions : Extensions

structure Document where
  version : String
  info : Info
  sourceDescriptions : List SourceDescription
  workflows : List Workflow
  components : Option Components
  extensions : Extensions
  sourcePath : Option String

namespace SourceKind

def keyword : SourceKind → String
  | .openapi => "openapi"
  | .arazzo => "arazzo"

def ofKeyword? : String → Option SourceKind
  | "openapi" => some .openapi
  | "arazzo" => some .arazzo
  | _ => none

end SourceKind

namespace ParameterLocation

def keyword : ParameterLocation → String
  | .path => "path"
  | .query => "query"
  | .header => "header"
  | .cookie => "cookie"
  | .body => "body"

def ofKeyword? : String → Option ParameterLocation
  | "path" => some .path
  | "query" => some .query
  | "header" => some .header
  | "cookie" => some .cookie
  | "body" => some .body
  | _ => none

end ParameterLocation

namespace CriterionKind

def keyword : CriterionKind → String
  | .simple => "simple"
  | .regex => "regex"
  | .jsonpath => "jsonpath"
  | .xpath => "xpath"

def ofKeyword? : String → Option CriterionKind
  | "simple" => some .simple
  | "regex" => some .regex
  | "jsonpath" => some .jsonpath
  | "xpath" => some .xpath
  | _ => none

end CriterionKind

namespace QueryLanguage

def keyword : QueryLanguage → String
  | .jsonpath => "jsonpath"
  | .xpath => "xpath"

def ofKeyword? : String → Option QueryLanguage
  | "jsonpath" => some .jsonpath
  | "xpath" => some .xpath
  | _ => none

def criterionKind : QueryLanguage → CriterionKind
  | .jsonpath => .jsonpath
  | .xpath => .xpath

end QueryLanguage

namespace SuccessKind

def keyword : SuccessKind → String
  | .finish => "end"
  | .goto => "goto"

def ofKeyword? : String → Option SuccessKind
  | "end" => some .finish
  | "goto" => some .goto
  | _ => none

end SuccessKind

namespace FailureKind

def keyword : FailureKind → String
  | .finish => "end"
  | .retry => "retry"
  | .goto => "goto"

def ofKeyword? : String → Option FailureKind
  | "end" => some .finish
  | "retry" => some .retry
  | "goto" => some .goto
  | _ => none

end FailureKind

namespace Criterion

def simple (condition : String) : Criterion := ⟨none, condition, none, []⟩

def kind (criterion : Criterion) : CriterionKind :=
  match criterion.type with
  | none => .simple
  | some (.known kind) => kind
  | some (.dialect dialect) => dialect.language.criterionKind

def dialectVersion? (criterion : Criterion) : Option String :=
  match criterion.type with
  | some (.dialect dialect) => some dialect.version
  | _ => none

end Criterion

inductive StepTarget where
  | operationId (id : String)
  | operationPath (path : String)
  | workflow (id : String)
deriving DecidableEq, Repr

namespace Step

/-- An operation's id goes before its path, and both before a workflow. -/
def target? (step : Step) : Option StepTarget :=
  match step.operationId, step.operationPath, step.workflowId with
  | some id, _, _ => some (.operationId id)
  | none, some path, _ => some (.operationPath path)
  | none, none, some id => some (.workflow id)
  | none, none, none => none

end Step

namespace Workflow

def step? (stepId : String) (workflow : Workflow) : Option Step :=
  workflow.steps.find? (·.stepId == stepId)

def stepIndex? (stepId : String) (workflow : Workflow) : Option Nat :=
  workflow.steps.findIdx? (·.stepId == stepId)

end Workflow

namespace Document

def workflow? (workflowId : String) (document : Document) : Option Workflow :=
  document.workflows.find? (·.workflowId == workflowId)

def source? (name : String) (document : Document) : Option SourceDescription :=
  document.sourceDescriptions.find? (·.name == name)

def findStep? (stepId : String) (document : Document) : Option (Workflow × Step) :=
  document.workflows.findSome? fun workflow =>
    (workflow.step? stepId).map fun step => (workflow, step)

end Document
end Arazzo
